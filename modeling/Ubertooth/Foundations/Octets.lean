import Mathlib

/-!
# The octets of a word

`octet word i` is octet `i` of a word, the lowest first. `Joins` says that a word is put together
from octets in that order, and `joins_octet` that this undoes taking a word apart, as far as the
word is wide.
-/

namespace Ubertooth.Foundations

variable {w v : ℕ}

/-- `(word >> 8*i) & 0xff` -/
def octet (word : BitVec w) (i : ℕ) : BitVec 8 := ((word >>> (8 * i)) &&& 0xff).setWidth 8

/-- The octets of `word` are the first `n` of `data`, and those after them are 0. -/
def Joins (n : ℕ) (data : ℕ → BitVec 8) (word : BitVec w) : Prop :=
  ∀ k < w, word.getLsbD k = (decide (k < 8 * n) && (data (k / 8)).getLsbD (k % 8))

@[simp] theorem getLsbD_octet (word : BitVec w) (i k : ℕ) :
    (octet word i).getLsbD k = (decide (k < 8) && word.getLsbD (8 * i + k)) := by
  have hmask : (0xff : BitVec w).getLsbD k = (decide (k < w) && decide (k < 8)) := by
    rw [← BitVec.testBit_toNat]
    show (255 % 2 ^ w).testBit k = _
    rw [Nat.testBit_mod_two_pow]
    congr 1
    exact Nat.testBit_two_pow_sub_one 8 k
  rw [octet, BitVec.getLsbD_setWidth, BitVec.getLsbD_and, BitVec.getLsbD_ushiftRight, hmask]
  by_cases hk : k < 8
  · rcases Nat.lt_or_ge (8 * i + k) w with hlt | hge
    · have hkw : k < w := by omega
      simp [hk, hkw]
    · simp [BitVec.getLsbD_of_ge word _ hge]
  · simp [hk]

/-- Cutting a word keeps the octets that lie below the cut. -/
theorem octet_setWidth (word : BitVec w) {i : ℕ} (hv : 8 * (i + 1) ≤ v) :
    octet (word.setWidth v) i = octet word i := by
  refine BitVec.eq_of_getLsbD_eq fun k hk => ?_
  have hlt : 8 * i + k < v := by omega
  simp [hlt]

/-- Two words with the same octets are the same, where they are as wide as those. -/
theorem Joins.unique {n : ℕ} {data : ℕ → BitVec 8} {a b : BitVec w} (ha : Joins n data a)
    (hb : Joins n data b) : a = b :=
  BitVec.eq_of_getLsbD_eq fun k hk => (ha k hk).trans (hb k hk).symm

theorem Joins.congr {n : ℕ} {data data' : ℕ → BitVec 8} {a : BitVec w} (ha : Joins n data a)
    (h : ∀ i < n, data i = data' i) : Joins n data' a := by
  intro k hk
  rw [ha k hk]
  by_cases hlt : k < 8 * n
  · rw [h (k / 8) (by omega)]
  · simp [hlt]

/-- A word is joined from its octets. -/
theorem joins_octet {n : ℕ} (word : BitVec w) (hw : w ≤ 8 * n) : Joins n (octet word) word := by
  intro k hk
  have hlt : k < 8 * n := hk.trans_le hw
  have hmod : k % 8 < 8 := Nat.mod_lt k (by omega)
  rw [getLsbD_octet, Nat.div_add_mod]
  simp [hlt, hmod]

/-- A wider word that is joined from octets keeps them where it is cut. -/
theorem Joins.setWidth {n : ℕ} {data : ℕ → BitVec 8} {a : BitVec w} (ha : Joins n data a)
    (hv : v ≤ w) : Joins n data (a.setWidth v) := by
  intro k hk
  rw [BitVec.getLsbD_setWidth, ha k (hk.trans_le hv)]
  simp [hk]

/-! ## Joining -/

/-- One more octet, above those that are joined already. -/
theorem Joins.or_shiftLeft {n : ℕ} {data : ℕ → BitVec 8} {a : BitVec w} (ha : Joins n data a) :
    Joins (n + 1) data (a ||| ((data n).setWidth w <<< (8 * n))) := by
  intro k hk
  rw [BitVec.getLsbD_or, ha k hk, BitVec.getLsbD_shiftLeft, BitVec.getLsbD_setWidth]
  rcases Nat.lt_or_ge k (8 * n) with hlt | hge
  · have hlt' : k < 8 * (n + 1) := by omega
    simp [hlt, hlt']
  · have hsub : k - 8 * n < w := by omega
    rcases Nat.lt_or_ge k (8 * (n + 1)) with hlt | hge'
    · have hdiv : k / 8 = n := by omega
      have hmod : k % 8 = k - 8 * n := by omega
      simp [hk, hlt, Nat.not_lt.2 hge, hsub, hdiv, hmod]
    · have hzero : (data n).getLsbD (k - 8 * n) = false := BitVec.getLsbD_of_ge _ _ (by omega)
      simp [Nat.not_lt.2 hge, Nat.not_lt.2 hge', hzero]

/-- One more octet, below those that are joined already. -/
theorem Joins.shiftLeft_or {n : ℕ} (data : ℕ → BitVec 8) {a : BitVec w}
    (ha : Joins n (fun i => data (i + 1)) a) :
    Joins (n + 1) data ((a <<< 8) ||| (data 0).setWidth w) := by
  intro k hk
  rw [BitVec.getLsbD_or, BitVec.getLsbD_shiftLeft, BitVec.getLsbD_setWidth]
  rcases Nat.lt_or_ge k 8 with hlt | hge
  · have hlt' : k < 8 * (n + 1) := by omega
    simp [hk, hlt, hlt', Nat.div_eq_of_lt hlt, Nat.mod_eq_of_lt hlt]
  · have hdiv : (k - 8) / 8 + 1 = k / 8 := by omega
    have hmod : (k - 8) % 8 = k % 8 := by omega
    have hzero : (data 0).getLsbD k = false := BitVec.getLsbD_of_ge _ _ hge
    have hiff : k - 8 < 8 * n ↔ k < 8 * (n + 1) := by omega
    rw [ha (k - 8) (by omega)]
    dsimp only
    rw [hdiv, hmod, hzero]
    simp [hk, Nat.not_lt.2 hge, hiff]

theorem joins_zero (data : ℕ → BitVec 8) : Joins 0 data (0 : BitVec w) := by
  intro k _
  simp

/-- Joining a word from octets, the first one lowest. -/
theorem joins_foldl_or (n : ℕ) (data : ℕ → BitVec 8) :
    Joins n data ((List.range n).foldl
      (fun word i => word ||| ((data i).setWidth w <<< (8 * i))) (0 : BitVec w)) := by
  induction n with
  | zero => exact joins_zero data
  | succ n ih =>
    rw [List.range_succ, List.foldl_append]
    exact ih.or_shiftLeft

/-- Joining a word from octets, the first one highest. -/
theorem joins_foldl_shiftLeft (n : ℕ) (data : ℕ → BitVec 8) :
    Joins n (fun i => data (n - 1 - i)) ((List.range n).foldl
      (fun word i => (word <<< 8) ||| (data i).setWidth w) (0 : BitVec w)) := by
  induction n with
  | zero => exact joins_zero _
  | succ n ih =>
    rw [List.range_succ, List.foldl_append]
    have hjoins := Joins.shiftLeft_or (fun i => data (n - i))
      (ih.congr fun i _ => by rw [Nat.sub_sub, Nat.add_comm 1])
    simpa using hjoins

/-- Two octets, put together again. -/
theorem octet_pair_eq (word : BitVec 16) :
    ((octet word 1).setWidth 16 <<< 8) ||| (octet word 0).setWidth 16 = word := by
  have hhigh : Joins 1 (fun i => octet word (i + 1)) ((octet word 1).setWidth 16) := by
    simpa using (joins_zero (w := 16) fun i => octet word (i + 1)).or_shiftLeft
  exact (hhigh.shiftLeft_or (octet word)).unique (joins_octet word (by omega))

end Ubertooth.Foundations
