import Mathlib

/-!
# Caches that evict the least frequently used

A cache is a family of entries, each a key with a count; an entry whose count is not positive is not
in use. The sight of a key counts it up where it is, or takes an entry over that is not in use, or
else one of minimal count (`Sight`). Such a cache never holds a key twice, and counts how often each
of its keys has been sighted since it was inserted last (`Lfu.correct`).
-/

namespace Ubertooth.Foundations

variable {ι κ : Type*}

/-- A key that an entry in use holds. -/
def Cached (c : ι → κ × ℤ) (key : κ) : Prop := ∃ i, 0 < (c i).2 ∧ (c i).1 = key

/-- No two entries in use hold the same key. -/
def DistinctKeys (c : ι → κ × ℤ) : Prop :=
  ∀ i j, 0 < (c i).2 → 0 < (c j).2 → (c i).1 = (c j).1 → i = j

/-- The last insertion of a key in a history, at position `n`: it was not cached then, and whenever
it was sighted later it was. `cache` gives the entries after a history. -/
structure LastInserted (cache : List κ → ι → κ × ℤ) (keys : List κ) (key : κ) (n : ℕ) : Prop where
  sighted : keys[n]? = some key
  absent : ¬Cached (cache (keys.take n)) key
  kept : ∀ m, n < m → keys[m]? = some key → Cached (cache (keys.take m)) key

variable {c c' : ι → κ × ℤ} {cache : List κ → ι → κ × ℤ} {keys : List κ} {key : κ} {i : ι} {n : ℤ}

/-- The other entries in use hold other keys than the one that is hit. -/
theorem DistinctKeys.ne_of_hit (h : DistinctKeys c) (hi : 0 < (c i).2) (hkey : (c i).1 = key) :
    ∀ j, j ≠ i → 0 < (c j).2 → (c j).1 ≠ key :=
  fun j hji hj heq => hji (h j i hj hi (heq.trans hkey.symm))

theorem ne_of_not_cached (h : ¬Cached c key) : ∀ j, 0 < (c j).2 → (c j).1 ≠ key :=
  fun j hj heq => h ⟨j, hj, heq⟩

/-- Sighting another key leaves the last insertion where it was. -/
theorem LastInserted.concat {m : ℕ} {k : κ} (h : LastInserted cache keys k m)
    (hk : key = k → Cached (cache keys) k) : LastInserted cache (keys ++ [key]) k m := by
  have hm : m < keys.length := (List.getElem?_eq_some_iff.1 h.sighted).1
  constructor
  · rw [List.getElem?_append_left hm]
    exact h.sighted
  · rw [List.take_append_of_le_length hm.le]
    exact h.absent
  · intro p hp hkey
    obtain hlt | heq | hgt := Nat.lt_trichotomy p keys.length
    · rw [List.getElem?_append_left hlt] at hkey
      rw [List.take_append_of_le_length hlt.le]
      exact h.kept p hp hkey
    · rw [heq, List.getElem?_concat_length, Option.some.injEq] at hkey
      rw [heq, List.take_left]
      exact hk hkey
    · rw [List.getElem?_eq_none (by simpa using hgt)] at hkey
      exact absurd hkey (by simp)

/-- A key that is inserted now. -/
theorem lastInserted_concat (h : ¬Cached (cache keys) key) :
    LastInserted cache (keys ++ [key]) key keys.length := by
  refine ⟨List.getElem?_concat_length, by rwa [List.take_left], fun p hp hkey => ?_⟩
  rw [List.getElem?_eq_none (by simpa using hp)] at hkey
  exact absurd hkey (by simp)

/-! ## Counting -/

section Counting

variable [DecidableEq κ]

/-- The sightings of a key, with one key more. -/
theorem count_drop_concat {m : ℕ} (hm : m ≤ keys.length) (k : κ) :
    ((keys ++ [key]).drop m).count k = (keys.drop m).count k + if key = k then 1 else 0 := by
  rw [List.drop_append_of_le_length hm, List.count_append, List.count_singleton]
  simp only [beq_iff_eq]

/-- The counts of a history. -/
def CountsSightings (cache : List κ → ι → κ × ℤ) (keys : List κ) : Prop :=
  ∀ i, 0 < (cache keys i).2 → ∃ n, LastInserted cache keys (cache keys i).1 n ∧
    (cache keys i).2 = (keys.drop n).count (cache keys i).1

/-- An entry that the sight of a key passes by. -/
theorem CountsSightings.other (h : CountsSightings cache keys) (hi : 0 < (cache keys i).2)
    (hkey : (cache keys i).1 ≠ key) :
    ∃ n, LastInserted cache (keys ++ [key]) (cache keys i).1 n ∧
      (cache keys i).2 = ((keys ++ [key]).drop n).count (cache keys i).1 := by
  obtain ⟨m, hlast, hcount⟩ := h i hi
  have hm : m < keys.length := (List.getElem?_eq_some_iff.1 hlast.sighted).1
  refine ⟨m, hlast.concat fun heq => absurd heq.symm hkey, ?_⟩
  rw [count_drop_concat hm.le, if_neg (Ne.symm hkey), hcount, Nat.add_zero]

/-- The entry that is hit. -/
theorem CountsSightings.hit (h : CountsSightings cache keys) (hi : 0 < (cache keys i).2)
    (hkey : (cache keys i).1 = key) :
    ∃ n, LastInserted cache (keys ++ [key]) key n ∧
      (cache keys i).2 + 1 = ((keys ++ [key]).drop n).count key := by
  obtain ⟨m, hlast, hcount⟩ := h i hi
  rw [hkey] at hlast hcount
  have hm : m < keys.length := (List.getElem?_eq_some_iff.1 hlast.sighted).1
  refine ⟨m, hlast.concat fun _ => ⟨i, hi, hkey⟩, ?_⟩
  rw [count_drop_concat hm.le, if_pos rfl, hcount]
  rfl

/-- The entry that is taken over. -/
theorem countsSightings_inserted (h : ¬Cached (cache keys) key) :
    ∃ n, LastInserted cache (keys ++ [key]) key n ∧
      (1 : ℤ) = ((keys ++ [key]).drop n).count key := by
  refine ⟨keys.length, lastInserted_concat h, ?_⟩
  rw [List.drop_left, List.count_singleton_self]
  rfl

end Counting

/-! ## One sight -/

variable [DecidableEq ι]

/-- What the sight of a key does to the entries. -/
inductive Sight (key : κ) (c c' : ι → κ × ℤ) : Prop
  | hit (i : ι) (used : 0 < (c i).2) (holds : (c i).1 = key)
      (eq : c' = Function.update c i (key, (c i).2 + 1))
  | insert (i : ι) (absent : ¬Cached c key) (unused : ¬0 < (c i).2)
      (eq : c' = Function.update c i (key, 1))
  | evict (i : ι) (absent : ¬Cached c key) (full : ∀ j, 0 < (c j).2)
      (least : ∀ j, (c i).2 ≤ (c j).2) (eq : c' = Function.update c i (key, 1))

/-- A cache that starts with no entry in use. -/
structure Lfu (cache : List κ → ι → κ × ℤ) : Prop where
  unused : ∀ i, ¬0 < (cache [] i).2
  sight : ∀ keys key, Sight key (cache keys) (cache (keys ++ [key]))

/-- An entry that is taken over by a key that no other entry in use holds. -/
theorem DistinctKeys.update (h : DistinctKeys c)
    (hkey : ∀ j, j ≠ i → 0 < (c j).2 → (c j).1 ≠ key) :
    DistinctKeys (Function.update c i (key, n)) := by
  intro j k hj hk hjk
  by_cases hji : j = i
  · by_cases hki : k = i
    · exact hji.trans hki.symm
    · rw [Function.update_of_ne hki] at hk hjk
      rw [hji, Function.update_self] at hjk
      exact absurd hjk.symm (hkey k hki hk)
  · rw [Function.update_of_ne hji] at hj hjk
    by_cases hki : k = i
    · rw [hki, Function.update_self] at hjk
      exact absurd hjk (hkey j hji hj)
    · rw [Function.update_of_ne hki] at hk hjk
      exact h j k hj hk hjk

theorem DistinctKeys.sight (h : DistinctKeys c) (hs : Sight key c c') : DistinctKeys c' := by
  cases hs with
  | hit i used holds eq => exact eq ▸ h.update (h.ne_of_hit used holds)
  | insert i absent unused eq => exact eq ▸ h.update fun j _ => ne_of_not_cached absent j
  | evict i absent full least eq => exact eq ▸ h.update fun j _ => ne_of_not_cached absent j

theorem cached_update (hn : 0 < n) : Cached (Function.update c i (key, n)) key :=
  ⟨i, by rwa [Function.update_self], by rw [Function.update_self]⟩

theorem Sight.cached (hs : Sight key c c') : Cached c' key := by
  cases hs with
  | hit i used holds eq => exact eq ▸ cached_update (by omega)
  | insert i absent unused eq => exact eq ▸ cached_update (by omega)
  | evict i absent full least eq => exact eq ▸ cached_update (by omega)

/-- A key that is no longer cached was in the one entry that has changed. -/
theorem holds_of_removed {old : κ} (hold : Cached c old)
    (hremoved : ¬Cached (Function.update c i (key, n)) old) : 0 < (c i).2 ∧ (c i).1 = old := by
  obtain ⟨k, hk, rfl⟩ := hold
  by_cases hki : k = i
  · rw [← hki]
    exact ⟨hk, rfl⟩
  · exact absurd ⟨k, by rwa [Function.update_of_ne hki], by rw [Function.update_of_ne hki]⟩
      hremoved

theorem Sight.evicts (h : DistinctKeys c) (hs : Sight key c c') {old : κ} (hold : Cached c old)
    (hremoved : ¬Cached c' old) : (∀ j, 0 < (c j).2) ∧
      ∀ i, 0 < (c i).2 → (c i).1 = old → ∀ j, (c i).2 ≤ (c j).2 := by
  cases hs with
  | hit i used holds eq =>
    have hkey : (c i).1 = old := (holds_of_removed hold (eq ▸ hremoved)).2
    have hcached : Cached c' key := eq ▸ cached_update (by omega)
    rw [← hkey, holds] at hremoved
    exact absurd hcached hremoved
  | insert i absent unused eq => exact absurd (holds_of_removed hold (eq ▸ hremoved)).1 unused
  | evict i absent full least eq =>
    obtain ⟨hi, hkey⟩ := holds_of_removed hold (eq ▸ hremoved)
    refine ⟨full, fun k hk hkold => ?_⟩
    have hki : k = i := h k i hk hi (hkold.trans hkey.symm)
    exact hki ▸ least

/-! ## Histories -/

theorem Lfu.distinctKeys (h : Lfu cache) (keys : List κ) : DistinctKeys (cache keys) := by
  induction keys using List.reverseRecOn with
  | nil => exact fun i _ hi => absurd hi (h.unused i)
  | append_singleton keys key ih => exact ih.sight (h.sight keys key)

variable [DecidableEq κ]

/-- What is asked of a cache: distinct keys, counts of the sightings since the last insertion, a key
that is there once it is sighted, and evictions of a least entry only when all are in use. -/
structure CorrectLfu (cache : List κ → ι → κ × ℤ) : Prop where
  distinct : ∀ keys, DistinctKeys (cache keys)
  counts : ∀ keys i, 0 < (cache keys i).2 → ∃ n, LastInserted cache keys (cache keys i).1 n ∧
    (cache keys i).2 = (keys.drop n).count (cache keys i).1
  cached : ∀ keys key, Cached (cache (keys ++ [key])) key
  evicts : ∀ keys key old, Cached (cache keys) old → ¬Cached (cache (keys ++ [key])) old →
    (∀ j, 0 < (cache keys j).2) ∧
      ∀ i, 0 < (cache keys i).2 → (cache keys i).1 = old → ∀ j, (cache keys i).2 ≤ (cache keys j).2

/-- An entry that a key takes over which was not cached. -/
theorem CountsSightings.takeOver (h : CountsSightings cache keys)
    (absent : ¬Cached (cache keys) key)
    (eq : cache (keys ++ [key]) = Function.update (cache keys) i (key, 1)) :
    CountsSightings cache (keys ++ [key]) := by
  intro j hj
  rw [eq] at hj ⊢
  by_cases hji : j = i
  · rw [hji, Function.update_self]
    exact countsSightings_inserted absent
  · rw [Function.update_of_ne hji] at hj ⊢
    exact h.other hj (ne_of_not_cached absent j hj)

theorem CountsSightings.concat (h : CountsSightings cache keys) (hd : DistinctKeys (cache keys))
    (hs : Sight key (cache keys) (cache (keys ++ [key]))) :
    CountsSightings cache (keys ++ [key]) := by
  cases hs with
  | hit i used holds eq =>
    intro j hj
    rw [eq] at hj ⊢
    by_cases hji : j = i
    · rw [hji, Function.update_self]
      exact h.hit used holds
    · rw [Function.update_of_ne hji] at hj ⊢
      exact h.other hj (hd.ne_of_hit used holds j hji hj)
  | insert i absent unused eq => exact h.takeOver absent eq
  | evict i absent full least eq => exact h.takeOver absent eq

theorem Lfu.countsSightings (h : Lfu cache) (keys : List κ) : CountsSightings cache keys := by
  induction keys using List.reverseRecOn with
  | nil => exact fun i hi => absurd hi (h.unused i)
  | append_singleton keys key ih => exact ih.concat (h.distinctKeys keys) (h.sight keys key)

/-- **Least frequently used.** A cache whose sights are those of `Sight` is correct. -/
theorem Lfu.correct (h : Lfu cache) : CorrectLfu cache where
  distinct := h.distinctKeys
  counts := h.countsSightings
  cached keys key := (h.sight keys key).cached
  evicts keys key _ := (h.sight keys key).evicts (h.distinctKeys keys)

end Ubertooth.Foundations
