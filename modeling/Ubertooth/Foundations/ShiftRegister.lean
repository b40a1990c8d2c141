import Mathlib

/-!
# Galois shift registers

A register of `w` bits is fed one bit at a time, least significant end first: `shiftIn` moves the
register down one place and adds the taps when the bit that leaves differs from the bit fed in.
This is the arithmetic under every reflected CRC. Four facts about it are used here.

* It runs backwards: `shiftOut` undoes `shiftIn` and `shiftIn` undoes `shiftOut`, as soon as the
  top tap is set (`shiftOut_shiftIn`, `shiftIn_shiftOut`), so feeding a word and taking it back
  out in reverse order restores the register (`unfeed_feed`, `feed_unfeed`).
* It is linear in register and input together (`feed_xor`).
* A word of `n` bits may be fed at once from a table of `2^n` registers (`feed_bits_table`).
* It tells apart two lists of bits that differ within `w` consecutive places only
  (`DifferWithin.eq_of_feed_eq`): a check of `w` bits catches every burst of `w` bits.
-/

namespace Ubertooth.Foundations.ShiftRegister

variable {w : ℕ} (taps : BitVec w)

/-- Feed one bit: shift towards bit `0`, adding the taps when the bit shifted out and the bit fed
differ. -/
def shiftIn (s : BitVec w) (b : Bool) : BitVec w :=
  (s >>> 1) ^^^ (if s.getLsbD 0 ^^ b then taps else 0#w)

/-- Take one bit back: shift away from bit `0`, the top bit telling whether the taps were added
and, with the bit that was fed, which bit had been shifted out. -/
def shiftOut (s : BitVec w) (b : Bool) : BitVec w :=
  ((s ^^^ (if s.msb then taps else 0#w)) <<< 1) ||| (BitVec.ofBool (s.msb ^^ b)).setWidth w

/-- Feed a list of bits, first bit first. -/
def feed (s : BitVec w) (bs : List Bool) : BitVec w := bs.foldl (shiftIn taps) s

/-- Take a list of bits back out, first bit first. -/
def unfeed (s : BitVec w) (bs : List Bool) : BitVec w := bs.foldl (shiftOut taps) s

/-- The low `n` bits of a word, least significant first. -/
def bits (n : ℕ) {m : ℕ} (c : BitVec m) : List Bool := (List.range n).map fun i => c.getLsbD i

@[simp] theorem length_bits (n : ℕ) {m : ℕ} (c : BitVec m) : (bits n c).length = n := by
  simp [bits]

theorem bits_succ (n : ℕ) {m : ℕ} (c : BitVec m) :
    bits (n + 1) c = c.getLsbD 0 :: bits n (c >>> 1) := by
  simp [bits, List.range_succ_eq_map, Function.comp_def, Nat.add_comm]

@[simp] theorem feed_nil (s : BitVec w) : feed taps s [] = s := rfl

@[simp] theorem feed_cons (s : BitVec w) (b : Bool) (bs : List Bool) :
    feed taps s (b :: bs) = feed taps (shiftIn taps s b) bs := rfl

theorem feed_append (s : BitVec w) (bs cs : List Bool) :
    feed taps s (bs ++ cs) = feed taps (feed taps s bs) cs := List.foldl_append

theorem unfeed_append (s : BitVec w) (bs cs : List Bool) :
    unfeed taps s (bs ++ cs) = unfeed taps (unfeed taps s bs) cs := List.foldl_append

variable {taps}

/-! ## The bits of a step -/

theorem getLsbD_ite_taps (c : Bool) (i : ℕ) :
    (if c then taps else 0#w).getLsbD i = (c && taps.getLsbD i) := by
  cases c <;> simp

theorem getLsbD_shiftIn (s : BitVec w) (b : Bool) (i : ℕ) :
    (shiftIn taps s b).getLsbD i =
      (s.getLsbD (i + 1) ^^ ((s.getLsbD 0 ^^ b) && taps.getLsbD i)) := by
  rw [shiftIn, BitVec.getLsbD_xor, getLsbD_ite_taps, BitVec.getLsbD_ushiftRight, Nat.add_comm]

theorem getLsbD_shiftOut_zero (hw : 0 < w) (s : BitVec w) (b : Bool) :
    (shiftOut taps s b).getLsbD 0 = (s.msb ^^ b) := by
  simp [shiftOut, hw]

theorem getLsbD_shiftOut_succ (s : BitVec w) (b : Bool) {i : ℕ} (hi : i + 1 < w) :
    (shiftOut taps s b).getLsbD (i + 1) = (s.getLsbD i ^^ (s.msb && taps.getLsbD i)) := by
  rw [shiftOut, BitVec.getLsbD_or, BitVec.getLsbD_shiftLeft, BitVec.getLsbD_xor,
    getLsbD_ite_taps]
  simp [hi]

/-! ## Running backwards -/

theorem pos_of_msb (ht : taps.msb = true) : 0 < w := by
  rcases Nat.eq_zero_or_pos w with rfl | hw
  · simp [BitVec.of_length_zero] at ht
  · exact hw

theorem getLsbD_top (ht : taps.msb = true) : taps.getLsbD (w - 1) = true := by
  rw [← BitVec.msb_eq_getLsbD_last]
  exact ht

/-- After a step the top bit tells whether the taps were added. -/
theorem msb_shiftIn (ht : taps.msb = true) (s : BitVec w) (b : Bool) :
    (shiftIn taps s b).msb = (s.getLsbD 0 ^^ b) := by
  have hw := pos_of_msb ht
  rw [BitVec.msb_eq_getLsbD_last, getLsbD_shiftIn, getLsbD_top ht, Nat.sub_add_cancel hw,
    BitVec.getLsbD_of_ge s w (Nat.le_refl w), Bool.and_true, Bool.false_xor]

theorem shiftOut_shiftIn (ht : taps.msb = true) (s : BitVec w) (b : Bool) :
    shiftOut taps (shiftIn taps s b) b = s := by
  apply BitVec.eq_of_getLsbD_eq
  intro i hi
  cases i with
  | zero =>
    rw [getLsbD_shiftOut_zero (pos_of_msb ht), msb_shiftIn ht, Bool.xor_assoc, Bool.xor_self,
      Bool.xor_false]
  | succ i =>
    rw [getLsbD_shiftOut_succ _ _ hi, msb_shiftIn ht, getLsbD_shiftIn, Bool.xor_assoc,
      Bool.xor_self, Bool.xor_false]

theorem shiftIn_shiftOut (ht : taps.msb = true) (s : BitVec w) (b : Bool) :
    shiftIn taps (shiftOut taps s b) b = s := by
  have hw := pos_of_msb ht
  apply BitVec.eq_of_getLsbD_eq
  intro i hi
  rw [getLsbD_shiftIn, getLsbD_shiftOut_zero hw, Bool.xor_assoc, Bool.xor_self, Bool.xor_false]
  by_cases hlast : i + 1 < w
  · rw [getLsbD_shiftOut_succ _ _ hlast, Bool.xor_assoc, Bool.xor_self, Bool.xor_false]
  · -- the top bit: nothing is shifted into it, so it is the taps' own
    have htop : i = w - 1 := by omega
    subst htop
    rw [getLsbD_top ht, BitVec.getLsbD_of_ge _ _ (by omega), Bool.false_xor, Bool.and_true,
      BitVec.msb_eq_getLsbD_last]

theorem unfeed_feed (ht : taps.msb = true) (s : BitVec w) (bs : List Bool) :
    unfeed taps (feed taps s bs) bs.reverse = s := by
  induction bs generalizing s with
  | nil => rfl
  | cons b bs ih =>
    rw [feed_cons, List.reverse_cons, unfeed_append, ih]
    exact shiftOut_shiftIn ht s b

theorem feed_unfeed (ht : taps.msb = true) (s : BitVec w) (bs : List Bool) :
    feed taps (unfeed taps s bs.reverse) bs = s := by
  induction bs generalizing s with
  | nil => rfl
  | cons b bs ih =>
    rw [List.reverse_cons, unfeed_append, feed_cons]
    have hstep : shiftIn taps (unfeed taps (unfeed taps s bs.reverse) [b]) b =
        unfeed taps s bs.reverse := shiftIn_shiftOut ht _ b
    rw [hstep, ih]

/-! ## Linearity -/

theorem shiftIn_xor (s t : BitVec w) (b c : Bool) :
    shiftIn taps (s ^^^ t) (b ^^ c) = shiftIn taps s b ^^^ shiftIn taps t c := by
  apply BitVec.eq_of_getLsbD_eq
  intro i _
  simp only [getLsbD_shiftIn, BitVec.getLsbD_xor]
  cases s.getLsbD 0 <;> cases t.getLsbD 0 <;> cases b <;> cases c <;>
    cases taps.getLsbD i <;> simp [Bool.xor_comm]

theorem feed_xor (s t : BitVec w) (bs cs : List Bool) (h : bs.length = cs.length) :
    feed taps (s ^^^ t) (bs.zipWith (· ^^ ·) cs) = feed taps s bs ^^^ feed taps t cs := by
  induction bs generalizing s t cs with
  | nil =>
    obtain rfl : cs = [] := List.length_eq_zero_iff.1 h.symm
    rfl
  | cons b bs ih =>
    cases cs with
    | nil => simp at h
    | cons c cs =>
      rw [List.zipWith_cons_cons, feed_cons, feed_cons, feed_cons, shiftIn_xor]
      exact ih _ _ _ (by simpa using h)

theorem bits_xor (n : ℕ) {m : ℕ} (c d : BitVec m) :
    bits n (c ^^^ d) = (bits n c).zipWith (· ^^ ·) (bits n d) := by
  simp [bits, List.zipWith_map, List.zipWith_self]

/-! ## A word at a time -/

/-- A register fed its own low bits only moves down. -/
theorem feed_own_bits (n : ℕ) (s : BitVec w) : feed taps s (bits n s) = s >>> n := by
  induction n generalizing s with
  | zero => simp [bits]
  | succ n ih =>
    have hstep : shiftIn taps s (s.getLsbD 0) = s >>> 1 := by simp [shiftIn]
    rw [bits_succ, feed_cons, hstep, ih, Nat.add_comm n 1, BitVec.shiftRight_add]

theorem bits_setWidth (n : ℕ) (s : BitVec w) : bits n (s.setWidth n) = bits n s := by
  apply List.map_congr_left
  intro i hi
  simp [List.mem_range.1 hi]

/-- **A word at a time from a table.** Feeding the `n` bits of `c` moves the register down `n`
places and adds the table's entry for the low `n` bits of the register added to `c`; the entry for
`k` is what the zero register becomes when fed `k`. -/
theorem feed_bits_table {n : ℕ} (s : BitVec w) (c : BitVec n) :
    feed taps s (bits n c) = (s >>> n) ^^^ feed taps 0#w (bits n (s.setWidth n ^^^ c)) := by
  have hc : s.setWidth n ^^^ (s.setWidth n ^^^ c) = c := by
    rw [← BitVec.xor_assoc, BitVec.xor_self, BitVec.zero_xor]
  calc feed taps s (bits n c)
      = feed taps (s ^^^ 0#w) (bits n (s.setWidth n ^^^ (s.setWidth n ^^^ c))) := by
        rw [BitVec.xor_zero, hc]
    _ = feed taps s (bits n s) ^^^ feed taps 0#w (bits n (s.setWidth n ^^^ c)) := by
        rw [bits_xor, feed_xor _ _ _ _ (by simp), bits_setWidth]
    _ = (s >>> n) ^^^ feed taps 0#w (bits n (s.setWidth n ^^^ c)) := by rw [feed_own_bits]

/-! ## Bursts -/

theorem feed_injective (ht : taps.msb = true) (bs : List Bool) :
    Function.Injective fun s : BitVec w => feed taps s bs := by
  intro s t h
  have hback := congrArg (fun x => unfeed taps x bs.reverse) h
  simpa only [unfeed_feed ht] using hback

/-- Any list of at most `w` bits is the low end of a register whose other bits are clear. -/
theorem exists_register {n : ℕ} {e : List Bool} (he : e.length = n) (hn : n ≤ w) :
    ∃ s : BitVec w, bits n s = e ∧ s >>> n = 0#w := by
  subst he
  have hbit : ∀ i, ((BitVec.ofBoolListLE e).setWidth w).getLsbD i = e.getD i false := by
    intro i
    rw [BitVec.getLsbD_setWidth, BitVec.getLsbD_ofBoolListLE]
    by_cases hi : i < w
    · simp [hi]
    · simp [hi, List.getElem?_eq_none (l := e) (i := i) (by omega)]
  refine ⟨(BitVec.ofBoolListLE e).setWidth w, ?_, ?_⟩
  · apply List.ext_getElem
    · simp
    · intro i hi hi'
      simp only [bits, List.getElem_map, List.getElem_range, hbit]
      simp [List.getElem?_eq_getElem hi']
  · apply BitVec.eq_of_getLsbD_eq
    intro i _
    rw [BitVec.getLsbD_ushiftRight, hbit]
    simp

/-- A list that is no longer than the register is known from what it makes of the register. -/
theorem eq_of_feed_eq (ht : taps.msb = true) (s : BitVec w) {as bs : List Bool}
    (hlen : as.length = bs.length) (hw : as.length ≤ w) (h : feed taps s as = feed taps s bs) :
    as = bs := by
  have hle : (as.zipWith (· ^^ ·) bs).length = as.length := by simp [← hlen]
  -- the difference, as a register: fed to itself it only moves out
  obtain ⟨d, hd, hout⟩ := exists_register hle hw
  have hcancel : (as.zipWith (· ^^ ·) bs).zipWith (· ^^ ·) bs = as := by
    apply List.ext_getElem
    · simp [← hlen]
    · intro i hi hi'
      simp
  have hfeed : feed taps (d ^^^ s) as = feed taps s as := by
    calc feed taps (d ^^^ s) as
        = feed taps (d ^^^ s) ((as.zipWith (· ^^ ·) bs).zipWith (· ^^ ·) bs) := by rw [hcancel]
      _ = feed taps d (as.zipWith (· ^^ ·) bs) ^^^ feed taps s bs :=
        feed_xor d s _ _ (hle.trans hlen)
      _ = feed taps s as := by
        rw [← hd, feed_own_bits, hout, BitVec.zero_xor, h]
  have hzero : d = 0#w := by
    have hsame : d ^^^ s = s := feed_injective ht as hfeed
    rw [← BitVec.xor_zero (x := d), ← BitVec.xor_self (x := s), ← BitVec.xor_assoc, hsame]
  apply List.ext_getElem hlen
  intro i hi hi'
  have hget := congrArg (fun cs => cs[i]?) hd
  simpa [bits, hzero, hi, hi', List.getElem?_zipWith] using hget

/-- Two lists of one length that agree outside the `n` places from `k` on. -/
def DifferWithin (k n : ℕ) (as bs : List Bool) : Prop :=
  as.length = bs.length ∧ ∀ j, j < k ∨ k + n ≤ j → as[j]? = bs[j]?

/-- What comes before those places is the same, and what comes after them. -/
theorem differWithin_iff {k n : ℕ} {as bs : List Bool} :
    DifferWithin k n as bs ↔ as.length = bs.length ∧ as.take k = bs.take k ∧
      as.drop (k + n) = bs.drop (k + n) := by
  refine and_congr_right fun hlen => ⟨fun h => ⟨?_, ?_⟩, fun ⟨htake, hdrop⟩ j hj => ?_⟩
  · apply List.ext_getElem?
    intro j
    rw [List.getElem?_take, List.getElem?_take]
    split
    · exact h j (Or.inl ‹_›)
    · rfl
  · apply List.ext_getElem?
    intro j
    rw [List.getElem?_drop, List.getElem?_drop]
    exact h _ (Or.inr (Nat.le_add_right _ _))
  · rcases hj with hj | hj
    · have hget := congrArg (fun cs => cs[j]?) htake
      simpa [List.getElem?_take, hj] using hget
    · have hget := congrArg (fun cs => cs[j - (k + n)]?) hdrop
      simpa [List.getElem?_drop, Nat.add_sub_cancel' hj] using hget

instance (k n : ℕ) (as bs : List Bool) : Decidable (DifferWithin k n as bs) :=
  decidable_of_iff _ differWithin_iff.symm

theorem differWithin_append (as cs : List Bool) {xs ys : List Bool} {n : ℕ}
    (hlen : xs.length = ys.length) (hn : xs.length ≤ n) :
    DifferWithin as.length n (as ++ (xs ++ cs)) (as ++ (ys ++ cs)) := by
  refine differWithin_iff.2 ⟨by simp [hlen], by simp, ?_⟩
  obtain ⟨d, rfl⟩ := Nat.exists_eq_add_of_le hn
  simp only [List.drop_append, Nat.add_sub_cancel_left, List.drop_of_length_le, Nat.le_add_right]
  simp [hlen]

/-- **A register tells bursts apart.** Two lists that differ within as many consecutive places as
the register is wide, and that make the same of it, are the same. -/
theorem DifferWithin.eq_of_feed_eq (ht : taps.msb = true) (s : BitVec w) {k : ℕ}
    {as bs : List Bool} (h : DifferWithin k w as bs) (hfeed : feed taps s as = feed taps s bs) :
    as = bs := by
  obtain ⟨hlen, htake, hdrop⟩ := differWithin_iff.1 h
  have hsplit : ∀ cs : List Bool, cs = cs.take k ++ (cs.drop k).take w ++ cs.drop (k + w) := by
    intro cs
    rw [List.append_assoc, ← List.drop_drop, List.take_append_drop, List.take_append_drop]
  have hmid : feed taps (feed taps s (as.take k)) ((as.drop k).take w) =
      feed taps (feed taps s (as.take k)) ((bs.drop k).take w) := by
    apply feed_injective ht (as.drop (k + w))
    dsimp only
    rw [← feed_append, ← feed_append, ← List.append_assoc, ← hsplit as, hfeed, htake, hdrop,
      ← feed_append, ← feed_append, ← List.append_assoc, ← hsplit bs]
  have hwindow : (as.drop k).take w = (bs.drop k).take w := by
    refine ShiftRegister.eq_of_feed_eq ht _ ?_ ?_ hmid
    · simp [hlen]
    · simp
  rw [hsplit as, hsplit bs, htake, hwindow, hdrop]

/-! ## Check words -/

theorem bits_injective (n : ℕ) : Function.Injective (bits n : BitVec n → List Bool) := by
  intro c d h
  apply BitVec.eq_of_getLsbD_eq
  intro i hi
  have hget := congrArg (fun bs => bs[i]?) h
  simpa [bits, hi] using hget

/-- A word above another: the lower one is fed first. -/
theorem bits_concat {n k : ℕ} (x : BitVec k) (y : BitVec n) :
    bits (k + n) (x ++ y) = bits n y ++ bits k x := by
  apply List.ext_getElem
  · simp [Nat.add_comm]
  · intro i hi hi'
    rw [List.getElem_append]
    simp only [bits, List.getElem_map, List.getElem_range, List.length_map, List.length_range,
      BitVec.getLsbD_append]
    split
    · rfl
    · rfl

theorem length_flatMap_bits {n : ℕ} (cs : List (BitVec n)) :
    (cs.flatMap (bits n)).length = n * cs.length := by
  induction cs with
  | nil => rfl
  | cons c cs ih =>
    rw [List.flatMap_cons, List.length_append, length_bits, ih, List.length_cons, Nat.mul_succ,
      Nat.add_comm]

theorem flatMap_bits_injective {n : ℕ} (hn : 0 < n) :
    Function.Injective fun cs : List (BitVec n) => cs.flatMap (bits n) := by
  intro cs ds h
  dsimp only at h
  have hlen : cs.length = ds.length := by
    have hlen := congrArg List.length h
    rw [length_flatMap_bits, length_flatMap_bits] at hlen
    exact Nat.eq_of_mul_eq_mul_left hn hlen
  induction cs generalizing ds with
  | nil => exact (List.length_eq_zero_iff.1 hlen.symm).symm
  | cons c cs ih =>
    cases ds with
    | nil => simp at hlen
    | cons d ds =>
      rw [List.flatMap_cons, List.flatMap_cons] at h
      obtain ⟨hhead, htail⟩ := List.append_inj h (by simp)
      rw [bits_injective n hhead, ih htail (by simpa using hlen)]

/-- The register is cleared by its own bits, and by no others. -/
theorem feed_append_bits_eq_zero_iff (ht : taps.msb = true) (s : BitVec w) (as : List Bool)
    (c : BitVec w) : feed taps s (as ++ bits w c) = 0#w ↔ c = feed taps s as := by
  have hown : feed taps (feed taps s as) (bits w (feed taps s as)) = 0#w := by
    rw [feed_own_bits]
    apply BitVec.eq_of_getLsbD_eq
    intro i _
    simp [BitVec.getLsbD_ushiftRight]
  rw [feed_append]
  constructor
  · intro h
    have hbits : bits w c = bits w (feed taps s as) :=
      eq_of_feed_eq ht _ (by simp) (by simp) (h.trans hown.symm)
    exact bits_injective w hbits
  · rintro rfl
    exact hown

end Ubertooth.Foundations.ShiftRegister
