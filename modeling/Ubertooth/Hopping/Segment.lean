import Ubertooth.Hopping.Selection

/-!
# A segment of basic hopping

Of the clock, `next_hop` takes bit 1 for the direction of transmission, bits 2 to 6 for the place in
a segment of 32 hops, and the bits from 7 on for the segment. While AFH is off, two places of one
segment have different channels (`nextHop_distinct`): only the input of the permutation depends on
the place, the permutation is below 32 on both, and less than 79 apart the register bank repeats no
channel.
-/

namespace Ubertooth.Hopping

open Firmware

/-! ## The register bank -/

/-- `bank` is the register bank: the even channels, and then the odd ones. -/
def BankFull (h : HopVars) : Prop := ∀ i, (h.bank.get i).toNat = i.val * 2 % channels

theorem bankFull_ofFn (i : Fin channels) :
    ((Vector.ofFn fun i : Fin channels => (BitVec.ofNat 8 (i.val * 2 % channels) : U8)).get
      i).toNat = i.val * 2 % channels := by
  have hlt : i.val * 2 % channels < 79 := Nat.mod_lt _ (by simp)
  rw [Vector.get_ofFn, BitVec.toNat_ofNat, Nat.mod_eq_of_lt (by omega)]

theorem bankFull_precalc {h : HopVars} (hafh : h.afhEnabled = false) (address : BitVec 64) :
    BankFull (precalc address h) := by
  intro i
  simp only [precalc, hafh]
  exact bankFull_ofFn i

theorem BankFull.injective {h : HopVars} (hbank : BankFull h) :
    Function.Injective h.bank.get := by
  intro i j hij
  have htoNat := congrArg BitVec.toNat hij
  rw [hbank i, hbank j] at htoNat
  change i.val * 2 % 79 = j.val * 2 % 79 at htoNat
  apply Fin.ext
  have hi : i.val < 79 := i.isLt
  have hj : j.val < 79 := j.isLt
  omega

/-! ## The fields of the clock -/

/-- The clocks agree in the direction of transmission and in the segment. -/
def SameSegment (u v : U32) : Prop :=
  u.getLsbD 1 = v.getLsbD 1 ∧ ∀ i, 7 ≤ i → u.getLsbD i = v.getLsbD i

variable {u v : U32}

theorem shift_eq {n : ℕ} (h : ∀ i, n ≤ i → u.getLsbD i = v.getLsbD i) : u >>> n = v >>> n := by
  apply BitVec.eq_of_getLsbD_eq
  intro i _
  rw [BitVec.getLsbD_ushiftRight, BitVec.getLsbD_ushiftRight, h _ (Nat.le_add_right n i)]

theorem field_eq {n : ℕ} {mask : U32}
    (h : ∀ i, mask.getLsbD i = true → u.getLsbD (n + i) = v.getLsbD (n + i)) :
    (u >>> n) &&& mask = (v >>> n) &&& mask := by
  apply BitVec.eq_of_getLsbD_eq
  intro i _
  rw [BitVec.getLsbD_and, BitVec.getLsbD_and, BitVec.getLsbD_ushiftRight,
    BitVec.getLsbD_ushiftRight]
  cases hmask : mask.getLsbD i with
  | false => simp
  | true => rw [h i hmask]

/-- Bits 2 to 6: the place in the segment. -/
def place (clock : U32) : U8 := ((clock >>> 2) &&& 0x1f).setWidth 8

theorem getLsbD_place (clock : U32) (k : Fin 5) :
    (place clock).getLsbD k = clock.getLsbD (2 + k) := by
  have hmask : ∀ k : Fin 5, (0x1f : U32).getLsbD k = true := by decide
  rw [place, BitVec.getLsbD_setWidth, BitVec.getLsbD_and, BitVec.getLsbD_ushiftRight, hmask k]
  simp [show k.val < 8 by omega]

theorem place_lt (clock : U32) : (place clock).toNat < 32 := by
  rw [place, BitVec.toNat_setWidth, BitVec.toNat_and]
  have hle : (clock >>> 2).toNat &&& (0x1f : U32).toNat ≤ 31 := Nat.and_le_right
  omega

namespace SameSegment

theorem direction (h : SameSegment u v) :
    (u >>> 1) &&& (0x01 : U32) = (v >>> 1) &&& (0x01 : U32) := by
  apply field_eq
  intro i hi
  obtain rfl : i = 0 := by
    by_contra hne
    simp [BitVec.getLsbD_one, hne] at hi
  exact h.1

theorem baseF_eq (h : SameSegment u v) : baseF u = baseF v := by
  apply congrArg BitVec.toNat
  apply field_eq
  intro i hi
  apply h.2
  by_contra hlt
  have hlow : ∀ k : Fin 4, (0x1fffff0 : U32).getLsbD k = false := by decide
  rw [hlow ⟨i, by omega⟩] at hi
  exact absurd hi (by simp)

/-- The rest of the sum that the bank is read with does not depend on the place. -/
theorem exists_hopSum_eq (h : SameSegment u v) (vars : HopVars) :
    ∃ (a pHigh : U8) (pLow : U16) (rest : ℕ),
      hopSum vars u = (perm5 (permInput a vars.b (place u)) pHigh pLow).toNat + rest ∧
      hopSum vars v = (perm5 (permInput a vars.b (place v)) pHigh pLow).toNat + rest := by
  have hshift : ∀ n, 7 ≤ n → u >>> n = v >>> n := fun n hn => shift_eq fun i hi => h.2 i (by omega)
  refine ⟨_, _, _, _, Nat.add_assoc _ _ _, ?_⟩
  rw [hshift 21 (by omega), hshift 16 (by omega), hshift 7 (by omega), h.direction]
  exact Nat.add_assoc _ _ _

/-- Clocks that differ in the place have different subscripts. -/
theorem bankIndex_ne (h : SameSegment u v) (hne : place u ≠ place v) (vars : HopVars) :
    bankIndex vars u ≠ bankIndex vars v := by
  obtain ⟨a, pHigh, pLow, rest, hu, hv⟩ := h.exists_hopSum_eq vars
  intro hindex
  have hmod : (hopSum vars u + baseF u % 79) % 79 = (hopSum vars v + baseF v % 79) % 79 :=
    congrArg Fin.val hindex
  rw [hu, hv, h.baseF_eq] at hmod
  have hult := packBits_lt (butterflies
    (fun i => if i < 9 then pLow.getLsbD i else pHigh.getLsbD (i - 9))
    (Vector.ofFn fun i => (permInput a vars.b (place u)).getLsbD i))
  have hvlt := packBits_lt (butterflies
    (fun i => if i < 9 then pLow.getLsbD i else pHigh.getLsbD (i - 9))
    (Vector.ofFn fun i => (permInput a vars.b (place v)).getLsbD i))
  rw [← perm5_eq] at hult hvlt
  -- less than 79 apart, the two are the same
  have hperm : (perm5 (permInput a vars.b (place u)) pHigh pLow).toNat =
      (perm5 (permInput a vars.b (place v)) pHigh pLow).toNat := by omega
  exact hne (permInput_inj (place_lt u) (place_lt v)
    (perm5_injective pHigh pLow (BitVec.eq_of_toNat_eq hperm)))

end SameSegment

/-! ## Distinct channels -/

theorem channel_injective : Function.Injective fun v : U8 => (2402 + v.setWidth 16 : U16) := by
  intro v w h
  have htoNat := congrArg BitVec.toNat h
  have hsum : ∀ x : U8, (2402 + x.setWidth 16 : U16).toNat = 2402 + x.toNat := by
    intro x
    rw [BitVec.toNat_add, BitVec.toNat_setWidth_of_le (by omega)]
    show (2402 + x.toNat) % 2 ^ 16 = _
    omega
  dsimp only at htoNat
  rw [hsum, hsum] at htoNat
  exact BitVec.eq_of_toNat_eq (Nat.add_left_cancel htoNat)

theorem place_ne (h : ∃ i, 2 ≤ i ∧ i ≤ 6 ∧ u.getLsbD i ≠ v.getLsbD i) : place u ≠ place v := by
  obtain ⟨i, h2, h6, hne⟩ := h
  intro hplace
  have hu := getLsbD_place u ⟨i - 2, by omega⟩
  have hv := getLsbD_place v ⟨i - 2, by omega⟩
  rw [hplace] at hu
  rw [Nat.add_sub_cancel' h2] at hu hv
  exact hne (hu.symm.trans hv)

/-- The clock at place `x` of the segment of `clock`. -/
def inSegment (clock : U32) (x : Fin 32) : U32 :=
  (clock &&& (0xffffff83 : U32)) ||| ((BitVec.ofNat 32 x.val : U32) <<< 2)

theorem getLsbD_inSegment (clock : U32) (x : Fin 32) (i : ℕ) :
    (inSegment clock x).getLsbD i =
      if 2 ≤ i ∧ i ≤ 6 then (BitVec.ofNat 32 x.val).getLsbD (i - 2) else clock.getLsbD i := by
  rcases Nat.lt_or_ge i 32 with hi | hi
  case inr => rw [BitVec.getLsbD_of_ge _ _ hi, BitVec.getLsbD_of_ge clock _ hi, if_neg (by omega)]
  have hmask : ∀ i : Fin 32, (0xffffff83 : U32).getLsbD i = !decide (2 ≤ i.val ∧ i.val ≤ 6) := by
    decide
  rw [inSegment, BitVec.getLsbD_or, BitVec.getLsbD_and, hmask ⟨i, hi⟩, BitVec.getLsbD_shiftLeft]
  by_cases hplace : 2 ≤ i ∧ i ≤ 6
  · simp [hplace, hi, show ¬i < 2 by omega]
  · have hclear : i < 2 ∨ (BitVec.ofNat 32 x.val).getLsbD (i - 2) = false := by
      refine or_iff_not_imp_left.2 fun h2 => ?_
      have hpow : 2 ^ 5 ≤ 2 ^ (i - 2) := Nat.pow_le_pow_right (by omega) (by omega)
      rw [BitVec.getLsbD_ofNat, Nat.testBit_lt_two_pow (Nat.lt_of_lt_of_le x.isLt hpow),
        Bool.and_false]
    rcases hclear with h2 | hzero
    · simp [hplace, h2]
    · simp [hplace, hzero]

theorem place_inSegment (clock : U32) (x : Fin 32) :
    place (inSegment clock x) = BitVec.ofNat 8 x.val := by
  have hx : (BitVec.ofNat 8 x.val : U8).toNat < 32 := by
    rw [BitVec.toNat_ofNat, Nat.mod_eq_of_lt (by omega)]
    exact x.isLt
  apply eq_of_low_bits (place_lt _) hx
  intro k
  rw [getLsbD_place, getLsbD_inSegment, if_pos (by omega), Nat.add_sub_cancel_left,
    BitVec.getLsbD_ofNat, BitVec.getLsbD_ofNat]
  simp [show k.val < 8 by omega, show k.val < 32 by omega]

theorem sameSegment_inSegment (clock : U32) (x y : Fin 32) :
    SameSegment (inSegment clock x) (inSegment clock y) := by
  refine ⟨?_, fun i hi => ?_⟩
  · rw [getLsbD_inSegment, getLsbD_inSegment, if_neg (by omega), if_neg (by omega)]
  · rw [getLsbD_inSegment, getLsbD_inSegment, if_neg (by omega), if_neg (by omega)]

/-- **A segment.** For every address, after `precalc` with AFH off, `next_hop` returns different
channels of the band for clocks that agree in bit 1 and from bit 7 on and differ between; the 32
hops of a segment in one direction of transmission use 32 channels. -/
theorem nextHop_distinct (address : BitVec 64) {h : HopVars} (hafh : h.afhEnabled = false) :
    (∀ u v, SameSegment u v → (∃ i, 2 ≤ i ∧ i ≤ 6 ∧ u.getLsbD i ≠ v.getLsbD i) →
      ∃ c c', nextHop (precalc address h) u = .ok c ∧ nextHop (precalc address h) v = .ok c' ∧
        InBand c ∧ InBand c' ∧ c ≠ c') ∧
    ∀ clock, Function.Injective fun x => nextHop (precalc address h) (inSegment clock x) := by
  have hbank := bankFull_precalc hafh address
  have hoff : (precalc address h).afhEnabled = false := (precalc_afhEnabled h address).trans hafh
  have hband : ∀ i, InBand (2402 + ((precalc address h).bank.get i).setWidth 16) := by
    intro i
    have hlt : i.val * 2 % 79 < 79 := Nat.mod_lt _ (by omega)
    exact inBand_of_place (by rw [hbank i]; exact Nat.le_of_lt_succ hlt)
  have hdistinct : ∀ {u v : U32}, SameSegment u v → place u ≠ place v →
      nextHop (precalc address h) u ≠ nextHop (precalc address h) v := by
    intro u v hsame hne hnext
    rw [nextHop_of_disabled hoff, nextHop_of_disabled hoff] at hnext
    exact hsame.bankIndex_ne hne _ (hbank.injective (channel_injective (Except.ok.inj hnext)))
  refine ⟨fun u v hsame hdiff => ?_, fun clock x y hnext => ?_⟩
  · refine ⟨_, _, nextHop_of_disabled hoff u, nextHop_of_disabled hoff v, hband _, hband _, ?_⟩
    intro hc
    refine hdistinct hsame (place_ne hdiff) ?_
    rw [nextHop_of_disabled hoff, nextHop_of_disabled hoff, hc]
  · by_contra hxy
    refine hdistinct (sameSegment_inSegment clock x y) ?_ hnext
    rw [place_inSegment, place_inSegment]
    intro hplace
    have htoNat := congrArg BitVec.toNat hplace
    rw [BitVec.toNat_ofNat, BitVec.toNat_ofNat, Nat.mod_eq_of_lt (by omega),
      Nat.mod_eq_of_lt (by omega)] at htoNat
    exact hxy (Fin.ext htoNat)

/-- Two hops of the first segment. -/
theorem nextHop_distinct_first :
    ∃ c c', nextHop (precalc 0 {}) 0 = .ok c ∧ nextHop (precalc 0 {}) 4 = .ok c' ∧
      InBand c ∧ InBand c' ∧ c ≠ c' := by
  have hsame : SameSegment 0 4 := by
    refine ⟨rfl, fun i hi => ?_⟩
    have hpow : 2 ^ 7 ≤ 2 ^ i := Nat.pow_le_pow_right (by omega) hi
    have hfour : (4 : U32).getLsbD i = false :=
      Nat.testBit_lt_two_pow (Nat.lt_of_lt_of_le (by simp) hpow)
    rw [hfour]
    simp
  exact (nextHop_distinct 0 rfl).1 0 4 hsame ⟨2, by simp⟩

end Ubertooth.Hopping
