import Ubertooth.Foundations.Runs
import Ubertooth.Host.Arglist

/-!
# The strings of the firmware

`cmd_get_rev_num` and `cmd_get_compile_info` copy a string from a reply to the caller's buffer of
`len` octets. The number of octets is the least of what was received, of the room in the buffer and
of what the reply announces, as an `int`, and is then kept in an octet. A reply too short to have a
string makes the number negative, and the octet large: such a reply is the only one copied badly,
but for a revision number, which is printed without regard to the room (`copiesSafely_iff`). What
the firmware answers is copied as far as there is room (`revNum_transferred`).
-/

namespace Ubertooth.Host

open Foundations

/-! ## Writes to a string -/

/-- A control transfer from the device: what `libusb_control_transfer` returns, and the array it was
to fill, with what the stack held after the octets received. -/
structure ControlIn where
  r : ℤ
  result : ℕ → U8

/-- A write to the caller's buffer, at an index. -/
inductive StringWrite
  | put (index : ℤ) (c : U8)
  /-- of an octet of `result` -/
  | copy (index : ℤ) (src : ℕ)
  deriving DecidableEq, Repr

/-- Where it goes. -/
def StringWrite.index : StringWrite → ℤ
  | put index _ => index
  | copy index _ => index

/-- What is written. -/
def StringWrite.value (result : ℕ → U8) : StringWrite → U8
  | put _ c => c
  | copy _ src => result src

/-- The buffer after a write. -/
def writeString (result : ℕ → U8) (s : ℤ → U8) (w : StringWrite) : ℤ → U8 :=
  Function.update s w.index (w.value result)

/-- The characters of a literal. -/
def chars (s : String) : List U8 := s.toList.map asc

/-- `sprintf` of a text -/
def sprintf (s : List U8) : List StringWrite :=
  (List.range (s.length + 1)).map fun k : ℕ => .put k (s.getD k 0)

/-- `snprintf(.., n, ..)` of a text; `n` is a `size_t`. -/
def snprintf (n : U64) (s : List U8) : List StringWrite :=
  if n = 0 then [] else sprintf (s.take (n.toNat - 1))

/-- `memcpy(.., &result[start], n)` -/
def memcpy (start n : ℕ) : List StringWrite :=
  (List.range n).map fun k : ℕ => .copy k (start + k)

/-! ## The functions -/

/-- The string of a transfer that failed. -/
def errorString (r : ℤ) (len : U8) : List StringWrite :=
  snprintf (BitVec.ofInt 64 (len.toNat - 1)) (chars "error: " ++ chars (toString r)) ++
    [.put (len.toNat - 1) 0]

/-- `MIN(r - start, MIN(len - 1, announced))`, as an octet -/
def copyLength (start : ℕ) (announced : U8) (r : ℤ) (len : U8) : U8 :=
  BitVec.ofInt 8 (min (r - start) (min (len.toNat - 1) announced.toNat))

/-- `len` as above, `memcpy(.., &result[start], len)`, and the NUL after it -/
def copyString (start : ℕ) (announced : U8) (r : ℤ) (len : U8) : List StringWrite :=
  let len := copyLength start announced r len
  memcpy start len.toNat ++ [.put len.toNat 0]

/-- `result[0] | (result[1] << 8)` -/
def resultVer (result : ℕ → U8) : U16 :=
  (result 0).setWidth 16 ||| ((result 1).setWidth 16 <<< 8)

/-- `cmd_get_rev_num`, as to `version` -/
def cmdGetRevNum (t : ControlIn) (len : U8) : List StringWrite :=
  if t.r < 0 then errorString t.r len
  -- old-style SVN rev
  else if t.r = 2 then sprintf ((Nat.toDigits 10 (resultVer t.result).toNat).map asc)
  else copyString 3 (t.result 2) t.r len

/-- `cmd_get_compile_info`, as to `compile_info` -/
def cmdGetCompileInfo (t : ControlIn) (len : U8) : List StringWrite :=
  if t.r < 0 then errorString t.r len else copyString 1 (t.result 0) t.r len

/-! ## Strings that are copied safely -/

/-- The writes stay within the first `len` octets, leave a string there, and copy only what was
received. -/
structure CopiesSafely (t : ControlIn) (len : U8) (ws : List StringWrite) : Prop where
  inside : ∀ w ∈ ws, 0 ≤ w.index ∧ w.index < len.toNat
  terminated : ∀ s, ∃ i : ℤ, 0 ≤ i ∧ i < len.toNat ∧ run (writeString t.result) s ws i = 0
  received : ∀ i (src : ℕ), .copy i src ∈ ws → (src : ℤ) < t.r

variable {t : ControlIn} {len : U8} {ws : List StringWrite} {i r : ℤ} {s : List U8} {n k : ℕ}
  {c : U8}

theorem run_writeString_concat (result : ℕ → U8) (s : ℤ → U8) (ws : List StringWrite)
    (w : StringWrite) : run (writeString result) s (ws ++ [w]) w.index = w.value result := by
  rw [run_concat, writeString, Function.update_self]

/-- Writes that end with a NUL are safe if they stay inside and copy what was received. -/
theorem copiesSafely_concat
    (hinside : ∀ w ∈ ws ++ [.put i 0], 0 ≤ w.index ∧ w.index < (len.toNat : ℤ))
    (hreceived : ∀ j (src : ℕ), .copy j src ∈ ws → (src : ℤ) < t.r) :
    CopiesSafely t len (ws ++ [.put i 0]) where
  inside := hinside
  terminated s := by
    obtain ⟨h0, hlt⟩ := hinside (.put i 0) (by simp)
    exact ⟨i, h0, hlt, run_writeString_concat _ _ _ (.put i 0)⟩
  received j src h := by
    rw [List.mem_append, List.mem_singleton] at h
    cases h with
    | inl h => exact hreceived j src h
    | inr h => cases h

/-! ### Text -/

theorem index_of_mem_sprintf {w : StringWrite} (h : w ∈ sprintf s) :
    0 ≤ w.index ∧ w.index ≤ s.length := by
  obtain ⟨k, hk, rfl⟩ := List.mem_map.1 h
  rw [List.mem_range] at hk
  exact ⟨Int.natCast_nonneg k, by simp only [StringWrite.index]; omega⟩

theorem not_copy_mem_sprintf {src : ℕ} : .copy i src ∉ sprintf s := by
  intro h
  obtain ⟨k, -, hk⟩ := List.mem_map.1 h
  cases hk

theorem sprintf_eq_concat (s : List U8) :
    sprintf s = (List.range s.length).map (fun k : ℕ => .put k (s.getD k 0)) ++
      [.put s.length 0] := by
  rw [sprintf, List.range_succ, List.map_append, List.map_singleton,
    List.getD_eq_default _ _ le_rfl]

/-- A text is printed safely exactly if there is room for it and the NUL. -/
theorem copiesSafely_sprintf_iff : CopiesSafely t len (sprintf s) ↔ s.length < len.toNat := by
  constructor
  · intro h
    have hlast : .put s.length 0 ∈ sprintf s := by rw [sprintf_eq_concat]; simp
    have := (h.inside _ hlast).2
    simpa only [StringWrite.index, Nat.cast_lt] using this
  · intro h
    have hinside : ∀ w ∈ sprintf s, 0 ≤ w.index ∧ w.index < len.toNat := fun w hw =>
      ⟨(index_of_mem_sprintf hw).1, lt_of_le_of_lt (index_of_mem_sprintf hw).2 (by omega)⟩
    rw [sprintf_eq_concat] at hinside ⊢
    refine copiesSafely_concat hinside fun j src hmem => ?_
    have hcopy := List.mem_append_left [.put s.length 0] hmem
    rw [← sprintf_eq_concat] at hcopy
    exact absurd hcopy not_copy_mem_sprintf

theorem index_of_mem_snprintf {n : U64} {w : StringWrite} (h : w ∈ snprintf n s) :
    0 ≤ w.index ∧ w.index < n.toNat := by
  rw [snprintf] at h
  split_ifs at h with hn
  · cases h
  · obtain ⟨h0, hle⟩ := index_of_mem_sprintf h
    have hpos : n.toNat ≠ 0 := fun h0 => hn (BitVec.eq_of_toNat_eq h0)
    rw [List.length_take] at hle
    exact ⟨h0, by omega⟩

theorem not_copy_mem_snprintf {n : U64} {src : ℕ} : .copy i src ∉ snprintf n s := by
  rw [snprintf]
  split_ifs
  · exact List.not_mem_nil
  · exact not_copy_mem_sprintf

theorem copiesSafely_errorString (hlen : 1 ≤ len.toNat) :
    CopiesSafely t len (errorString r len) := by
  have hsize : (BitVec.ofInt 64 ((len.toNat : ℤ) - 1)).toNat = len.toNat - 1 := by
    have := len.isLt
    rw [BitVec.toNat_ofInt, Int.emod_eq_of_lt (by omega) (by omega)]
    omega
  refine copiesSafely_concat (fun w hw => ?_) fun j src h => absurd h not_copy_mem_snprintf
  rw [List.mem_append, List.mem_singleton] at hw
  rcases hw with hw | rfl
  · obtain ⟨h0, hlt⟩ := index_of_mem_snprintf hw
    rw [hsize] at hlt
    exact ⟨h0, by omega⟩
  · simp only [StringWrite.index]
    omega

/-! ### Octets of the reply -/

/-- The octets that fit: those received, with room for them and a NUL, and announced. -/
theorem toNat_copyLength {start : ℕ} (announced : U8) (hlen : 1 ≤ len.toNat) (hr : start ≤ r) :
    ((copyLength start announced r len).toNat : ℤ) =
      min (r - start) (min (len.toNat - 1) announced.toNat) := by
  have := announced.isLt
  rw [copyLength, BitVec.toNat_ofInt, Int.emod_eq_of_lt (by omega) (by omega),
    Int.toNat_of_nonneg (by omega)]

/-- A negative number of octets is kept in an octet as a positive one. -/
theorem copyLength_pos {start : ℕ} (announced : U8) (hlen : 1 ≤ len.toNat) (hstart : start < 256)
    (h0 : 0 ≤ r) (hr : r < start) : 0 < (copyLength start announced r len).toNat := by
  have hmin : min (r - start) (min ((len.toNat : ℤ) - 1) announced.toNat) = r - start := by omega
  have hmod : (r - start) % 256 = r - start + 256 := by omega
  rw [copyLength, hmin, BitVec.toNat_ofInt, show ((2 ^ 8 : ℕ) : ℤ) = 256 from rfl, hmod]
  omega

/-- A string is copied safely exactly if the octets before it were received. -/
theorem copiesSafely_copyString_iff {start : ℕ} {announced : U8} (hlen : 1 ≤ len.toNat)
    (hstart : start < 256) (h0 : 0 ≤ t.r) :
    CopiesSafely t len (copyString start announced t.r len) ↔ start ≤ t.r := by
  constructor
  · intro h
    by_contra hr
    have hpos := copyLength_pos announced hlen hstart h0 (not_le.1 hr)
    have hfirst : .copy (0 : ℕ) (start + 0) ∈ copyString start announced t.r len :=
      List.mem_append_left _ (List.mem_map_of_mem (List.mem_range.2 hpos))
    exact hr (h.received _ _ hfirst).le
  · intro hr
    have hcopied := toNat_copyLength announced hlen hr
    refine copiesSafely_concat (fun w hw => ?_) fun j src h => ?_
    · rw [List.mem_append, List.mem_singleton] at hw
      rcases hw with hw | rfl
      · obtain ⟨k, hk, rfl⟩ := List.mem_map.1 hw
        rw [List.mem_range] at hk
        simp only [StringWrite.index]
        omega
      · simp only [StringWrite.index]
        omega
    · obtain ⟨k, hk, hcopy⟩ := List.mem_map.1 h
      rw [List.mem_range] at hk
      cases hcopy
      omega

/-! ### Both functions -/

/-- The digits of a number fit, with a NUL. -/
theorem length_digits_lt_iff {v : ℕ} :
    ((Nat.toDigits 10 v).map asc).length < n ↔ 2 ≤ n ∧ v < 10 ^ (n - 1) := by
  rw [List.length_map]
  have hpos := Nat.length_toDigits_pos (b := 10) (n := v)
  by_cases hn : 2 ≤ n
  · rw [and_iff_right hn, ← Nat.length_toDigits_le_iff (by omega) (by omega)]
    omega
  · exact iff_of_false (by omega) fun h => hn h.1

/-- What is copied badly: by `cmd_get_rev_num` a reply of no octet or one and a revision number for
which there is no room, by `cmd_get_compile_info` an empty reply. -/
theorem copiesSafely_iff (t : ControlIn) (len : U8) (hlen : 1 ≤ len.toNat) :
    (CopiesSafely t len (cmdGetRevNum t len) ↔ t.r < 0 ∨ 3 ≤ t.r ∨
      t.r = 2 ∧ 2 ≤ len.toNat ∧ (resultVer t.result).toNat < 10 ^ (len.toNat - 1)) ∧
    (CopiesSafely t len (cmdGetCompileInfo t len) ↔ t.r ≠ 0) := by
  rw [cmdGetRevNum, cmdGetCompileInfo]
  by_cases hr : t.r < 0
  · rw [if_pos hr, if_pos hr]
    exact ⟨iff_of_true (copiesSafely_errorString hlen) (.inl hr),
      iff_of_true (copiesSafely_errorString hlen) hr.ne⟩
  rw [if_neg hr, if_neg hr, or_iff_right hr]
  constructor
  · split_ifs with h2
    · rw [copiesSafely_sprintf_iff, length_digits_lt_iff, or_iff_right (by omega),
        and_iff_right h2]
    · rw [copiesSafely_copyString_iff hlen (by omega) (not_lt.1 hr), or_iff_left fun h => h2 h.1,
        Nat.cast_ofNat]
  · rw [copiesSafely_copyString_iff hlen (by omega) (not_lt.1 hr), Nat.cast_one]
    omega

theorem copiesSafely_iff_octet :
    (CopiesSafely { r := 1, result := fun _ => 0 } 255
        (cmdGetRevNum { r := 1, result := fun _ => 0 } 255) ↔
      (1 : ℤ) < 0 ∨ (3 : ℤ) ≤ 1 ∨ (1 : ℤ) = 2 ∧ 2 ≤ (255 : U8).toNat ∧
        (resultVer fun _ => 0).toNat < 10 ^ ((255 : U8).toNat - 1)) ∧
    (CopiesSafely { r := 1, result := fun _ => 0 } 255
      (cmdGetCompileInfo { r := 1, result := fun _ => 0 } 255) ↔ (1 : ℤ) ≠ 0) :=
  copiesSafely_iff { r := 1, result := fun _ => 0 } 255 (by simp)

/-- An empty reply: the NUL goes after the buffer of `ubertooth-util`. -/
theorem not_copiesSafely_empty :
    ¬CopiesSafely { r := 0, result := fun _ => 0 } 255
      (cmdGetCompileInfo { r := 0, result := fun _ => 0 } 255) := by
  intro h
  have hinside := (h.inside (.put 255 0) (by decide +kernel)).2
  simp [StringWrite.index] at hinside

/-! ## What the firmware answers -/

/-- `UBERTOOTH_GET_REV_NUM` of `vendor_request_handler`: the octets of the reply -/
def getRevNum (gitRevision : List U8) : List U8 :=
  let length : U8 := BitVec.ofNat 8 gitRevision.length
  0 :: 0 :: length :: gitRevision.take length.toNat

/-- `UBERTOOTH_GET_COMPILE_INFO` of `vendor_request_handler` -/
def getCompileInfo (compileInfo : List U8) : List U8 :=
  let length : U8 := BitVec.ofNat 8 compileInfo.length
  length :: compileInfo.take length.toNat

/-- The transfer of a reply. -/
def ControlIn.ofReply (stale : ℕ → U8) (reply : List U8) : ControlIn where
  r := reply.length
  result i := reply.getD i (stale i)

/-- The buffer holds a text and the NUL after it. -/
def HoldsString (s : ℤ → U8) (text : List U8) : Prop :=
  ∀ k : ℕ, k ≤ text.length → s k = text.getD k 0

theorem run_memcpy (result : ℕ → U8) (s : ℤ → U8) (start : ℕ) (hk : k < n) :
    run (writeString result) s (memcpy start n) k = result (start + k) := by
  induction n with
  | zero => omega
  | succ n ih =>
    rw [memcpy, List.range_succ, List.map_append, List.map_singleton, ← memcpy]
    by_cases hkn : k = n
    · subst hkn
      exact run_writeString_concat _ _ _ (.copy k (start + k))
    · rw [run_concat, writeString, Function.update_of_ne (by simpa [StringWrite.index] using hkn)]
      exact ih (by omega)

theorem ofReply_r (stale : ℕ → U8) (before text : List U8) :
    (ControlIn.ofReply stale (before ++ text)).r = before.length + text.length := by
  rw [ControlIn.ofReply, List.length_append, Nat.cast_add]

theorem ofReply_result (stale : ℕ → U8) (before : List U8) {text : List U8}
    (hk : k < text.length) :
    (ControlIn.ofReply stale (before ++ text)).result (before.length + k) = text.getD k 0 := by
  simp only [ControlIn.ofReply]
  rw [List.getD_append_right _ _ _ _ (by omega), Nat.add_sub_cancel_left,
    List.getD_eq_getElem _ _ hk, List.getD_eq_getElem _ _ hk]

/-- A text is copied as far as there is room, if the reply has what it announces. -/
theorem holdsString_copyString (stale : ℕ → U8) (before text : List U8) {announced : U8}
    (hlen : 1 ≤ len.toNat) (hannounced : announced.toNat = text.length)
    (ht : t = .ofReply stale (before ++ text)) (s : ℤ → U8) :
    HoldsString (run (writeString t.result) s (copyString before.length announced t.r len))
      (text.take (len.toNat - 1)) := by
  subst ht
  have hr : (before.length : ℤ) ≤ (ControlIn.ofReply stale (before ++ text)).r := by
    rw [ofReply_r]
    omega
  have hcopied := toNat_copyLength announced hlen hr
  rw [copyString]
  generalize (copyLength _ announced _ len).toNat = n at hcopied ⊢
  rw [ofReply_r] at hcopied
  intro k hk
  rw [List.length_take] at hk
  by_cases hkn : k = n
  · subst hkn
    rw [List.getD_eq_default _ _ (by rw [List.length_take]; omega)]
    exact run_writeString_concat _ _ _ (.put k 0)
  · rw [run_concat, writeString, Function.update_of_ne (by simpa [StringWrite.index] using hkn),
      run_memcpy _ _ _ (by omega), ofReply_result _ _ (by omega), List.getD_eq_getElem?_getD,
      List.getD_eq_getElem?_getD, List.getElem?_take_of_lt (by omega)]

theorem toNat_lengthOctet (text : List U8) :
    (BitVec.ofNat 8 text.length).toNat = text.length % 256 := BitVec.toNat_ofNat _ _

/-- The octet after which a string has the length it announces. -/
theorem toNat_announced (text : List U8) : (BitVec.ofNat 8 text.length).toNat =
    (text.take (BitVec.ofNat 8 text.length).toNat).length := by
  rw [List.length_take, toNat_lengthOctet, min_eq_left (Nat.mod_le _ _)]

/-- The host has of the revision what its length octet can say, cut to the buffer. -/
theorem revNum_transferred (stale : ℕ → U8) (gitRevision : List U8) (s : ℤ → U8)
    (hlen : 1 ≤ len.toNat) (ht : t = .ofReply stale (getRevNum gitRevision)) :
    HoldsString (run (writeString t.result) s (cmdGetRevNum t len))
      ((gitRevision.take (gitRevision.length % 256)).take (len.toNat - 1)) := by
  have hcopied := holdsString_copyString stale [0, 0, BitVec.ofNat 8 gitRevision.length] _ hlen
    (toNat_announced gitRevision) ht s
  have hr : (3 : ℤ) ≤ t.r := by
    rw [ht]
    exact (le_add_of_nonneg_right (Int.natCast_nonneg _)).trans_eq
      (ofReply_r stale [0, 0, BitVec.ofNat 8 gitRevision.length] _).symm
  have hthird : t.result 2 = BitVec.ofNat 8 gitRevision.length := by rw [ht]; rfl
  rw [cmdGetRevNum, if_neg (by omega), if_neg (by omega), hthird, ← toNat_lengthOctet]
  exact hcopied

theorem compileInfo_transferred (stale : ℕ → U8) (compileInfo : List U8) (s : ℤ → U8)
    (hlen : 1 ≤ len.toNat) (ht : t = .ofReply stale (getCompileInfo compileInfo)) :
    HoldsString (run (writeString t.result) s (cmdGetCompileInfo t len))
      ((compileInfo.take (compileInfo.length % 256)).take (len.toNat - 1)) := by
  have hcopied := holdsString_copyString stale [BitVec.ofNat 8 compileInfo.length] _ hlen
    (toNat_announced compileInfo) ht s
  have hr : 0 ≤ t.r := by rw [ht]; exact Int.natCast_nonneg _
  have hfirst : t.result 0 = BitVec.ofNat 8 compileInfo.length := by rw [ht]; rfl
  rw [cmdGetCompileInfo, if_neg (not_lt.2 hr), hfirst, ← toNat_lengthOctet]
  exact hcopied

end Ubertooth.Host
