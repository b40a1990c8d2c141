import Mathlib

/-!
# Scanning with a window that slides

A window of the positions from `slide * q + lo` up to `slide * q + hi` is scanned for each `q` in
turn. `covering` is the number of windows that hold a position; where the window is between one and
two slides long it is at most two, and given by the place of the position in its slide
(`covering_eq`). `scanned` lists what the scans find, and a position is found once for each window
that holds it (`count_scanned`).
-/

namespace Ubertooth.Foundations

variable {slide lo hi : ℕ} {P : ℕ → Bool}

/-- The position is in window `q`. -/
def InWindow (slide lo hi q pos : ℕ) : Prop := slide * q + lo ≤ pos ∧ pos < slide * q + hi

instance (slide lo hi q pos : ℕ) : Decidable (InWindow slide lo hi q pos) := instDecidableAnd

/-- How many of the first `n` windows hold the position. -/
def covering (slide lo hi n pos : ℕ) : ℕ :=
  (List.range n).countP fun q => InWindow slide lo hi q pos

/-- What is found in window `q`. -/
def found (slide lo hi : ℕ) (P : ℕ → Bool) (q : ℕ) : List ℕ :=
  (List.range' (slide * q + lo) (hi - lo)).filter P

/-- What is found in the first `n` windows, one after the other. -/
def scanned (slide lo hi : ℕ) (P : ℕ → Bool) (n : ℕ) : List ℕ :=
  (List.range n).flatMap (found slide lo hi P)

@[simp] theorem covering_zero (pos : ℕ) : covering slide lo hi 0 pos = 0 := rfl

theorem covering_succ (n pos : ℕ) : covering slide lo hi (n + 1) pos =
    covering slide lo hi n pos + if InWindow slide lo hi n pos then 1 else 0 := by
  rw [covering, List.range_succ, List.countP_append, List.countP_singleton]
  simp [covering]

@[simp] theorem scanned_zero : scanned slide lo hi P 0 = [] := rfl

theorem scanned_succ (n : ℕ) :
    scanned slide lo hi P (n + 1) = scanned slide lo hi P n ++ found slide lo hi P n := by
  rw [scanned, List.range_succ, List.flatMap_append, List.flatMap_singleton, scanned]

/-! ## What is found -/

theorem mem_found {q pos : ℕ} (h : lo ≤ hi) :
    pos ∈ found slide lo hi P q ↔ P pos = true ∧ InWindow slide lo hi q pos := by
  rw [found, List.mem_filter, List.mem_range'_1, InWindow]
  constructor
  · rintro ⟨⟨h1, h2⟩, hP⟩
    exact ⟨hP, h1, by omega⟩
  · rintro ⟨hP, h1, h2⟩
    exact ⟨⟨h1, by omega⟩, hP⟩

theorem nodup_found (q : ℕ) : (found slide lo hi P q).Nodup :=
  (List.nodup_range' ..).filter _

/-- A position that fits is found once for each window that holds it. -/
theorem count_scanned (h : lo ≤ hi) (n pos : ℕ) : (scanned slide lo hi P n).count pos =
    if P pos = true then covering slide lo hi n pos else 0 := by
  induction n with
  | zero => simp
  | succ n ih =>
    have hfound : (found slide lo hi P n).count pos =
        if P pos = true ∧ InWindow slide lo hi n pos then 1 else 0 := by
      split
      case isTrue hin => exact List.count_eq_one_of_mem (nodup_found n) ((mem_found h).2 hin)
      case isFalse hout => exact List.count_eq_zero_of_not_mem fun hin => hout ((mem_found h).1 hin)
    rw [scanned_succ, List.count_append, ih, hfound, covering_succ]
    by_cases hP : P pos = true <;> simp [hP]

/-- If the windows look the same through a shift, so does what is found. -/
theorem map_filter_range' {Q : ℕ → Bool} (c len : ℕ)
    (h : ∀ i, lo ≤ i → i < lo + len → Q i = P (c + i)) :
    ((List.range' lo len).filter Q).map (c + ·) = (List.range' (c + lo) len).filter P := by
  rw [← List.map_add_range', List.filter_map]
  congr 1
  refine List.filter_congr fun i hi => ?_
  rw [List.mem_range'_1] at hi
  exact h i hi.1 hi.2

/-! ## How often a position is covered -/

/-- A window of one to two slides holds the end of one slide and the beginning of the next. -/
theorem inWindow_iff (hlo : lo ≤ slide) (hhi : slide ≤ hi) (hhi' : hi ≤ 2 * slide)
    (hslide : 0 < slide) (q pos : ℕ) : InWindow slide lo hi q pos ↔
      pos / slide = q ∧ lo ≤ pos % slide ∨ pos / slide = q + 1 ∧ slide + pos % slide < hi := by
  have hpos := Nat.div_add_mod pos slide
  have hmod := Nat.mod_lt pos hslide
  rw [InWindow]
  generalize pos / slide = b at hpos ⊢
  generalize pos % slide = r at hpos hmod ⊢
  rcases lt_trichotomy b q with hb | rfl | hb
  · have hle : slide * (b + 1) ≤ slide * q := Nat.mul_le_mul_left slide hb
    rw [Nat.mul_add] at hle
    omega
  · omega
  · obtain ⟨k, rfl⟩ := Nat.exists_eq_add_of_lt hb
    rw [Nat.mul_add, Nat.mul_add] at hpos
    cases k with
    | zero => omega
    | succ k =>
      have hle : slide * 1 ≤ slide * (k + 1) := Nat.mul_le_mul_left slide (by omega)
      omega

/-- A position is covered in its own slide, and in the window before. -/
theorem covering_eq (hlo : lo ≤ slide) (hhi : slide ≤ hi) (hhi' : hi ≤ 2 * slide)
    (hslide : 0 < slide) (n pos : ℕ) : covering slide lo hi n pos =
      (if pos / slide < n ∧ lo ≤ pos % slide then 1 else 0) +
        if 1 ≤ pos / slide ∧ pos / slide ≤ n ∧ slide + pos % slide < hi then 1 else 0 := by
  have hin := fun q => inWindow_iff hlo hhi hhi' hslide q pos
  generalize pos / slide = b at hin ⊢
  generalize pos % slide = r at hin ⊢
  induction n with
  | zero =>
    rw [covering_zero, if_neg (by omega), if_neg (by omega)]
  | succ n ih =>
    rw [covering_succ, ih]
    simp only [hin]
    split_ifs <;> omega

end Ubertooth.Foundations
