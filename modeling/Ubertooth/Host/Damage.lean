import Ubertooth.Host.Format

/-!
# Damaged files

A file that `check_suffix` accepts clears the register of its CRC, suffix and CRC field included:
the field holds the register low octet first and as it is. A burst of 32 bits anywhere in such a
file shows therefore, if the octets read are all but the last four. They are not in a file of fewer
than 16 octets, which is judged by what is left in memory, nor past `2^32 + 3` octets
(`damage_caught_iff`; for all files of a length, `damageCaught_length_iff`).
-/

namespace Ubertooth.Host

open Foundations Foundations.ShiftRegister

/-- `check_suffix` rejects every file of the same length that differs from `content` within 32
consecutive bits, if it accepts `content`. -/
def DamageCaught (malloc : Malloc) (content : List U8) : Prop :=
  ∀ pos memory, (checkSuffix malloc { content := content, pos := pos } memory).1 = 0 →
    ∀ (damaged : List U8) (k : ℕ), DifferWithin k 32 (fileBits content) (fileBits damaged) →
      damaged ≠ content →
      ∀ pos' memory', (checkSuffix malloc { content := damaged, pos := pos' } memory').1 ≠ 0

/-- Without the file positions. -/
theorem damageCaught_iff (malloc : Malloc) (content : List U8) :
    DamageCaught malloc content ↔ ∀ (damaged : List U8) (k : ℕ) (memory memory' : ℕ → U8),
      DifferWithin k 32 (fileBits content) (fileBits damaged) →
      Accepted malloc content memory → Accepted malloc damaged memory' → damaged = content := by
  unfold DamageCaught
  simp only [ne_eq, checkSuffix_eq_zero_iff]
  constructor
  · intro h damaged k memory memory' hburst ha ha'
    by_contra hne
    exact h 0 memory ha damaged k hburst hne 0 memory' ha'
  · intro h pos memory ha damaged k hburst hne pos' memory' ha'
    exact hne (h damaged k memory memory' hburst ha ha')

/-! ## Bursts -/

/-- The bits of a word in memory are those of its octets. -/
theorem bits_word32 (m : ℕ → U8) (a : ℕ) : bits 32 (word32 m a) = fileBits (load m a 4) := by
  unfold word32
  rw [bits_concat (n := 24) (k := 8), bits_concat (n := 16) (k := 8),
    bits_concat (n := 8) (k := 8)]
  simp [fileBits, load, List.range_succ]

/-- The field of the CRC is the last four octets. -/
theorem fileBits_drop {content : List U8} (h : 16 ≤ content.length) :
    fileBits (content.drop (content.length - 4)) = bits 32 (lastSuffix content).dwCrc := by
  have hload : load (fun i => content.getD (content.length - 16 + i) 0) 0 16 =
      content.drop (content.length - 16) := load_getD (by omega)
  have htail : load (fun i => content.getD (content.length - 16 + i) 0) 12 4 =
      content.drop (content.length - 4) := by
    rw [load_append 0 12 4, Nat.zero_add] at hload
    have hdrop := congrArg (List.drop 12) hload
    rw [List.drop_left' (length_load 0 12), List.drop_drop] at hdrop
    rw [hdrop]
    congr 1
    omega
  rw [← htail]
  exact (bits_word32 _ 12).symm

/-- What is accepted clears the register. -/
theorem Accepted.clears {malloc : Malloc} {content : List U8} {memory : ℕ → U8}
    (ha : Accepted malloc content memory) (h : 16 ≤ content.length)
    (h' : content.length < 2 ^ 32 + 4) :
    feed crc32Taps 0xffffffff (fileBits content) = 0#32 := by
  have hcrc := ha.dwCrc
  rw [judgedSuffix_of_le h, dataLength_eq (by omega) h', crc32_eq_feed] at hcrc
  rw [← List.take_append_drop (content.length - 4) content, fileBits_append, fileBits_drop h,
    feed_append_bits_eq_zero_iff msb_crc32Taps]
  exact hcrc.symm

theorem length_eq_of_differWithin {k n : ℕ} {content damaged : List U8}
    (h : DifferWithin k n (fileBits content) (fileBits damaged)) :
    damaged.length = content.length := by
  have hlen := h.1
  rw [length_fileBits, length_fileBits] at hlen
  omega

theorem damageCaught_of_length {malloc : Malloc} {content : List U8} (h : 16 ≤ content.length)
    (h' : content.length < 2 ^ 32 + 4) : DamageCaught malloc content := by
  rw [damageCaught_iff]
  intro damaged k memory memory' hburst ha ha'
  have hlen := length_eq_of_differWithin hburst
  have hclear := ha.clears h h'
  have hclear' := ha'.clears (by omega) (by omega)
  exact (fileBits_injective
    (hburst.eq_of_feed_eq msb_crc32Taps _ (hclear.trans hclear'.symm))).symm

/-! ## Lengths -/

/-- Files that differ in one octet. -/
theorem differWithin_octet (a b : List U8) (x y : U8) :
    DifferWithin (fileBits a).length 32 (fileBits (a ++ x :: b)) (fileBits (a ++ y :: b)) := by
  have hsplit : ∀ z : U8, fileBits (a ++ z :: b) = fileBits a ++ (bits 8 z ++ fileBits b) := by
    intro z
    rw [fileBits_append]
    rfl
  rw [hsplit, hsplit]
  exact differWithin_append _ _ (by simp) (by simp)

theorem exists_octet_at {content : List U8} {i : ℕ} (h : i < content.length) :
    ∃ (a b : List U8) (x : U8), content = a ++ x :: b ∧ a.length = i := by
  refine ⟨content.take i, content.drop (i + 1), content[i], ?_, ?_⟩
  · rw [List.cons_getElem_drop_succ, List.take_append_drop]
  · rw [List.length_take, min_eq_left h.le]

theorem add_one_ne (x : U8) : x + 1 ≠ x := by bv_omega

/-- A file of 1 to 15 octets and one that differs in the first are both accepted, each by some
memory. -/
theorem not_damageCaught_of_short {malloc : Malloc} {content : List U8} {memory : ℕ → U8}
    (ha : Accepted malloc content memory) (hpos : 0 < content.length) (h : content.length < 16) :
    ¬DamageCaught malloc content := by
  obtain ⟨a, b, x, rfl, -⟩ := exists_octet_at hpos
  have hlen : (a ++ (x + 1) :: b).length = (a ++ x :: b).length := by simp
  have hdamaged : ∃ memory', Accepted malloc (a ++ (x + 1) :: b) memory' :=
    ⟨_, accepted_staleMemory (by rwa [hlen]) (by rw [hlen]; exact ha.malloc_isSome)⟩
  obtain ⟨memory', ha'⟩ := hdamaged
  intro hcaught
  have hsame := (damageCaught_iff malloc _).1 hcaught (a ++ (x + 1) :: b) _ memory memory'
    (differWithin_octet a b x (x + 1)) ha ha'
  exact add_one_ne x (List.cons_eq_cons.1 (List.append_cancel_left hsame)).1

/-- An octet between those read and the suffix does not count. -/
theorem Accepted.of_octet {malloc : Malloc} {a b : List U8} {x : U8} {memory : ℕ → U8}
    (ha : Accepted malloc (a ++ x :: b) memory)
    (hread : dataLength (a ++ x :: b).length = a.length) (hb : 16 ≤ b.length) (y : U8) :
    Accepted malloc (a ++ y :: b) memory := by
  have hlen : (a ++ y :: b).length = (a ++ x :: b).length := by simp
  have hlast : lastSuffix (a ++ y :: b) = lastSuffix (a ++ x :: b) := by
    refine suffixAt_congr fun i _ => ?_
    have hlong : a.length + 1 ≤ (a ++ x :: b).length - 16 := by
      rw [List.length_append, List.length_cons]
      omega
    have hafter : ∀ z : U8, ∀ k, a.length + 1 ≤ k →
        (a ++ z :: b).getD k 0 = b.getD (k - (a.length + 1)) 0 := by
      intro z k hk
      rw [List.getD_append_right _ _ _ _ (by omega), ← Nat.succ_pred_eq_of_pos
        (show 0 < k - a.length by omega), List.getD_cons_succ]
      congr 1
    rw [hlen, hafter y _ (by omega), hafter x _ (by omega)]
  have hlong : ∀ z : U8, 16 ≤ (a ++ z :: b).length := by
    intro z
    rw [List.length_append, List.length_cons]
    omega
  have htake : ∀ z : U8, (a ++ z :: b).take a.length = a := fun z => List.take_left
  obtain ⟨hfields, hmalloc, hcrc⟩ := ha
  rw [judgedSuffix_of_le (hlong x)] at hfields hcrc
  rw [hread, htake] at hcrc
  refine ⟨?_, by rwa [hlen], ?_⟩
  · rwa [judgedSuffix_of_le (hlong y), hlast]
  · rwa [judgedSuffix_of_le (hlong y), hlast, hlen, hread, htake]

/-- Past `2^32 + 3` octets, one that the CRC is not taken of. -/
theorem not_damageCaught_of_long {malloc : Malloc} {content : List U8} {memory : ℕ → U8}
    (ha : Accepted malloc content memory) (h : 2 ^ 32 + 4 ≤ content.length) :
    ¬DamageCaught malloc content := by
  have hd := dataLength_add_le h
  obtain ⟨a, b, x, hcontent, hlen⟩ :=
    exists_octet_at (show dataLength content.length < content.length by omega)
  have hb : 16 ≤ b.length := by
    have htotal := congrArg List.length hcontent
    rw [List.length_append, List.length_cons] at htotal
    omega
  rw [hcontent] at ha hlen ⊢
  intro hcaught
  have hsame := (damageCaught_iff malloc _).1 hcaught _ _ memory memory
    (differWithin_octet a b x (x + 1)) ha (ha.of_octet hlen.symm hb (x + 1))
  exact add_one_ne x (List.cons_eq_cons.1 (List.append_cancel_left hsame)).1

/-- **When damage is caught.** In an accepted file every burst of 32 bits is caught exactly when the
file has from 16 to `2^32 + 3` octets, or none. -/
theorem damage_caught_iff {malloc : Malloc} {content : List U8} {pos : ℕ} {memory : ℕ → U8}
    (haccepts : (checkSuffix malloc { content := content, pos := pos } memory).1 = 0) :
    DamageCaught malloc content ↔
      16 ≤ content.length ∧ content.length < 2 ^ 32 + 4 ∨ content.length = 0 := by
  have ha := (checkSuffix_eq_zero_iff malloc content pos memory).1 haccepts
  constructor
  · intro hcaught
    by_contra hnot
    obtain ⟨hrange, hzero⟩ := not_or.1 hnot
    rcases Nat.lt_or_ge content.length 16 with hshort | hge
    · exact not_damageCaught_of_short ha (Nat.pos_of_ne_zero hzero) hshort hcaught
    · exact not_damageCaught_of_long ha (by omega) hcaught
  · rintro (⟨hge, hlt⟩ | hzero)
    · exact damageCaught_of_length hge hlt
    · rw [damageCaught_iff]
      intro damaged k memory memory' hburst _ _
      have hlen := length_eq_of_differWithin hburst
      rw [List.length_eq_zero_iff.1 hzero, List.length_eq_zero_iff.1 (hlen.trans hzero)]

/-- A file of three octets, signed. -/
theorem damage_caught_iff_signed :
    DamageCaught (fun _ => some fun _ => 0)
      ([0x12, 0x34, 0x56] ++ suffixOf [0x12, 0x34, 0x56] 0x1d50 0x6003) :=
  (@damage_caught_iff (fun _ => some fun _ => 0)
    ([0x12, 0x34, 0x56] ++ suffixOf [0x12, 0x34, 0x56] 0x1d50 0x6003) 0 (fun _ => 0)
    (by decide +kernel)).2 (by decide)

/-! ### Lengths -/

/-- Some file of a length is accepted, if there is memory for the check. -/
theorem exists_accepted {malloc : Malloc} {n : ℕ} (hmalloc : (malloc (dataLength n)).isSome) :
    ∃ content memory, content.length = n ∧ Accepted malloc content memory := by
  rcases Nat.lt_or_ge n 16 with hshort | hge
  · have hlen : (List.replicate n (0 : U8)).length = n := List.length_replicate
    exact ⟨_, _, hlen, accepted_staleMemory (by rwa [hlen]) (by rwa [hlen])⟩
  · rcases Nat.lt_or_ge n (2 ^ 32 + 4) with hlt | hlong
    · have hlen : (List.replicate (n - 16) (0 : U8)).length + 16 = n := by
        rw [List.length_replicate, Nat.sub_add_cancel hge]
      refine ⟨madeUp (List.replicate (n - 16) 0)
        (crc32 (List.replicate (n - 16) 0 ++ suffixHead 0 0)), fun _ => 0,
        (length_madeUp _ _).trans hlen, accepted_madeUp_iff.2 ⟨by rwa [hlen], ?_⟩⟩
      have htake := take_madeUp (List.replicate (n - 16) 0)
        (crc32 (List.replicate (n - 16) 0 ++ suffixHead 0 0))
      rw [length_madeUp, hlen] at htake
      rw [hlen, dataLength_eq (by omega) hlt, htake]
    · have hd := dataLength_add_le hlong
      have hlen := length_bodyWith hd 0
      refine ⟨madeUp (bodyWith n (dataLength n) 0) (crc32 (List.replicate (dataLength n) 0)),
        fun _ => 0, (length_madeUp _ _).trans hlen, accepted_madeUp_iff.2 ⟨by rwa [hlen], ?_⟩⟩
      rw [hlen, take_madeUp_bodyWith]

/-- In all accepted files of a length every burst of 32 bits is caught exactly when the length lies
from 16 to `2^32 + 3`, or is 0, or there is no memory for the check. -/
theorem damageCaught_length_iff (malloc : Malloc) (n : ℕ) :
    (∀ content : List U8, content.length = n → DamageCaught malloc content) ↔
      16 ≤ n ∧ n < 2 ^ 32 + 4 ∨ n = 0 ∨ malloc (dataLength n) = none := by
  rw [← or_assoc]
  by_cases hnone : malloc (dataLength n) = none
  · refine iff_of_true (fun content hlen => ?_) (Or.inr hnone)
    rw [damageCaught_iff]
    intro damaged k memory memory' _ ha _
    exact absurd ha (not_accepted_of_malloc (hlen ▸ hnone) memory)
  · rw [or_iff_left hnone]
    obtain ⟨content, memory, hlen, ha⟩ := exists_accepted (Option.isSome_iff_ne_none.2 hnone)
    have hiff := fun c (hc : c.length = n) m (hm : Accepted malloc c m) => hc ▸
      damage_caught_iff ((checkSuffix_eq_zero_iff malloc c 0 m).2 hm)
    refine ⟨fun hall => (hiff content hlen memory ha).1 (hall content hlen), fun hn c hc => ?_⟩
    intro pos m haccepts
    exact (hc ▸ damage_caught_iff haccepts).2 hn pos m haccepts

/-- Four octets, of which the CRC covers none. -/
theorem not_damageCaught_four_octets :
    ¬DamageCaught (fun _ => some fun _ => 0) [0, 0, 0, 0] := by
  intro h
  have hzero : ∀ x : Bool, (checkSuffix (fun _ => some fun _ => 0)
      { content := [if x then 1 else 0, 0, 0, 0] } (staleMemory 0xffffffff)).1 = 0 := by
    decide +kernel
  exact h 0 (staleMemory 0xffffffff) (hzero false) [1, 0, 0, 0] 0 (by decide) (by decide) 0 _
    (hzero true)

end Ubertooth.Host
