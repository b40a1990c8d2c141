import Mathlib

/-!
# Files and memory, octet by octet

A file that is open has contents and a position; `fseek`, `ftell`, `fread` and `fwrite` are those of
C on a regular file, without errors of the device. Memory is a function of the address, `store` puts
octets into it and `load` gets them back. A word lies in it with its lowest octet first.
-/

namespace Ubertooth.Foundations

/-- A file that is open, with its file position. -/
structure CFile where
  content : List (BitVec 8)
  pos : ℕ := 0
  deriving DecidableEq

/-- From where `fseek` counts. -/
inductive Whence
  | set | fromEnd
  deriving DecidableEq

namespace CFile

variable (f : CFile)

/-- A position before the beginning of the file is refused. -/
def fseek (offset : ℤ) (whence : Whence) : CFile :=
  let target := offset + match whence with
    | .set => 0
    | .fromEnd => (f.content.length : ℤ)
  if target < 0 then f else { f with pos := target.toNat }

def ftell : ℕ := f.pos

/-- The octets read, at most `n`. -/
def fread (n : ℕ) : List (BitVec 8) × CFile :=
  let octets := (f.content.drop f.pos).take n
  (octets, { f with pos := f.pos + octets.length })

/-- A gap before the octets is filled with zeros. -/
def fwrite (octets : List (BitVec 8)) : CFile :=
  { content := (f.content ++ List.replicate (f.pos - f.content.length) 0).take f.pos ++ octets ++
      f.content.drop (f.pos + octets.length)
    pos := f.pos + octets.length }

variable {f}

@[simp] theorem fseek_set : f.fseek 0 .set = { f with pos := 0 } := rfl

@[simp] theorem fseek_end : f.fseek 0 .fromEnd = { f with pos := f.content.length } := by
  have hle : ¬(0 + (f.content.length : ℤ) < 0) := by omega
  unfold fseek
  dsimp only
  rw [if_neg hle, zero_add, Int.toNat_natCast]

/-- Some octets before the end. -/
theorem fseek_before_end {n : ℕ} (h : n ≤ f.content.length) :
    f.fseek (-n) .fromEnd = { f with pos := f.content.length - n } := by
  have hle : ¬(-(n : ℤ) + (f.content.length : ℤ) < 0) := by omega
  have hpos : (-(n : ℤ) + (f.content.length : ℤ)).toNat = f.content.length - n := by omega
  unfold fseek
  dsimp only
  rw [if_neg hle, hpos]

@[simp] theorem content_fseek (offset : ℤ) (whence : Whence) :
    (f.fseek offset whence).content = f.content := by
  unfold fseek
  cases whence with
  | set =>
    dsimp only
    split <;> rfl
  | fromEnd =>
    dsimp only
    split <;> rfl

@[simp] theorem content_fread (n : ℕ) : (f.fread n).2.content = f.content := rfl

theorem length_fread_le (n : ℕ) : (f.fread n).1.length ≤ n := List.length_take_le _ _

theorem length_fread (n : ℕ) : (f.fread n).1.length = min n (f.content.length - f.pos) := by
  rw [← List.length_drop]
  exact List.length_take

/-- Reading where there is enough to read. -/
theorem fread_of_le {n : ℕ} (h : f.pos + n ≤ f.content.length) :
    (f.fread n).1.length = n ∧ (f.fread n).2 = { f with pos := f.pos + n } := by
  have hlength : (f.fread n).1.length = n := by
    rw [length_fread]
    omega
  exact ⟨hlength, congrArg (fun k => { f with pos := f.pos + k }) hlength⟩

/-- Reading at the beginning. -/
theorem fread_head (a b : List (BitVec 8)) : fread { content := a ++ b } a.length =
    (a, { content := a ++ b, pos := a.length }) := by
  unfold fread
  dsimp only
  rw [List.drop_zero, List.take_left, Nat.zero_add]

/-- Reading before the end. -/
theorem fread_tail (a b : List (BitVec 8)) (pos : ℕ) :
    (fseek { content := a ++ b, pos := pos } (-b.length) .fromEnd).fread b.length =
      (b, { content := a ++ b, pos := a.length + b.length }) := by
  have hseek : fseek { content := a ++ b, pos := pos } (-b.length) .fromEnd =
      { content := a ++ b, pos := a.length } := by
    refine (fseek_before_end (by simp)).trans ?_
    rw [List.length_append, Nat.add_sub_cancel]
  rw [hseek]
  unfold fread
  dsimp only
  rw [List.drop_left, List.take_length]

/-- Writing at the end appends. -/
theorem fwrite_at_end {octets : List (BitVec 8)} (h : f.pos = f.content.length) :
    (f.fwrite octets).content = f.content ++ octets := by
  unfold fwrite
  dsimp only
  rw [h, Nat.sub_self, List.replicate_zero, List.append_nil, List.take_length,
    List.drop_of_length_le (Nat.le_add_right _ _), List.append_nil]

theorem pos_fwrite (octets : List (BitVec 8)) :
    (f.fwrite octets).pos = f.pos + octets.length := rfl

end CFile

/-! ## Memory -/

variable (m : ℕ → BitVec 8)

/-- Put octets into memory. -/
def store (start : ℕ) (octets : List (BitVec 8)) : ℕ → BitVec 8 := fun a =>
  if start ≤ a then (octets[a - start]?).getD (m a) else m a

/-- Get octets from memory. -/
def load (start n : ℕ) : List (BitVec 8) := (List.range n).map fun k => m (start + k)

variable {m}

@[simp] theorem length_load (start n : ℕ) : (load m start n).length = n := by
  rw [load, List.length_map, List.length_range]

theorem getElem_load {start n k : ℕ} (h : k < (load m start n).length) :
    (load m start n)[k] = m (start + k) := by simp [load]

theorem store_of_lt {start a : ℕ} {octets : List (BitVec 8)} (h : a < start) :
    store m start octets a = m a := if_neg (by omega)

theorem store_of_le {start a : ℕ} {octets : List (BitVec 8)} (h : start + octets.length ≤ a) :
    store m start octets a = m a := by
  unfold store
  rw [if_pos (by omega), List.getElem?_eq_none (by omega), Option.getD_none]

/-- What was put into memory is there. -/
theorem store_add {start k : ℕ} {octets : List (BitVec 8)} (h : k < octets.length) :
    store m start octets (start + k) = octets[k] := by
  unfold store
  rw [if_pos (Nat.le_add_right _ _), Nat.add_sub_cancel_left, List.getElem?_eq_getElem h,
    Option.getD_some]

theorem load_append (start n k : ℕ) :
    load m start (n + k) = load m start n ++ load m (start + n) k := by
  unfold load
  rw [List.range_add, List.map_append, List.map_map]
  congr 1
  refine List.map_congr_left fun i _ => ?_
  rw [Function.comp_apply, Nat.add_assoc]

theorem load_congr {m' : ℕ → BitVec 8} {start n : ℕ}
    (h : ∀ k < n, m (start + k) = m' (start + k)) : load m start n = load m' start n :=
  List.map_congr_left fun k hk => h k (List.mem_range.1 hk)

theorem load_store {start n : ℕ} {octets : List (BitVec 8)} (h : octets.length = n) :
    load (store m start octets) start n = octets := by
  refine List.ext_getElem (by rw [length_load, h]) fun k hk hk' => ?_
  rw [getElem_load, store_add hk']

theorem load_store_of_le {start start' n : ℕ} {octets : List (BitVec 8)} (h : start + n ≤ start') :
    load (store m start' octets) start n = load m start n :=
  load_congr fun _ hk => store_of_lt (by omega)

theorem load_store_of_lt {start start' n : ℕ} {octets : List (BitVec 8)}
    (h : start' + octets.length ≤ start) : load (store m start' octets) start n = load m start n :=
  load_congr fun _ _ => store_of_le (by omega)

/-! ## Words -/

def octets16 (w : BitVec 16) : List (BitVec 8) := [w.extractLsb' 0 8, w.extractLsb' 8 8]

def octets32 (w : BitVec 32) : List (BitVec 8) :=
  [w.extractLsb' 0 8, w.extractLsb' 8 8, w.extractLsb' 16 8, w.extractLsb' 24 8]

/-- The word that starts at an address. -/
def word16 (m : ℕ → BitVec 8) (a : ℕ) : BitVec 16 := m (a + 1) ++ m a

def word32 (m : ℕ → BitVec 8) (a : ℕ) : BitVec 32 := m (a + 3) ++ (m (a + 2) ++ (m (a + 1) ++ m a))

@[simp] theorem length_octets16 (w : BitVec 16) : (octets16 w).length = 2 := by simp [octets16]

@[simp] theorem length_octets32 (w : BitVec 32) : (octets32 w).length = 4 := by simp [octets32]

theorem word16_of_load {a : ℕ} {w : BitVec 16} (h : load m a 2 = octets16 w) : word16 m a = w := by
  have h0 : m a = w.extractLsb' 0 8 := (List.cons_eq_cons.1 h).1
  have h1 : m (a + 1) = w.extractLsb' 8 8 := (List.cons_eq_cons.1 (List.cons_eq_cons.1 h).2).1
  unfold word16
  rw [h0, h1]
  ext i hi
  simp only [BitVec.getElem_append, BitVec.getElem_extractLsb']
  grind

theorem word32_of_load {a : ℕ} {w : BitVec 32} (h : load m a 4 = octets32 w) : word32 m a = w := by
  obtain ⟨h0, h⟩ := List.cons_eq_cons.1 h
  obtain ⟨h1, h⟩ := List.cons_eq_cons.1 h
  obtain ⟨h2, h⟩ := List.cons_eq_cons.1 h
  obtain ⟨h3, -⟩ := List.cons_eq_cons.1 h
  change m a = _ at h0
  change m (a + 1) = _ at h1
  change m (a + 2) = _ at h2
  change m (a + 3) = _ at h3
  unfold word32
  rw [h0, h1, h2, h3]
  ext i hi
  simp only [BitVec.getElem_append, BitVec.getElem_extractLsb']
  grind

end Ubertooth.Foundations
