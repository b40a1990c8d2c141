import Ubertooth.Foundations.LfuCache
import Ubertooth.LowEnergy.Candidates

/-!
# The cache of access addresses

`see_aa` keeps 32 addresses with counts. An entry that is not in use looks like one for address 0,
and the search for the address looks at no count; but the entries come into use in order, so that
the first entry that matches is either the one in use or the first that is not. This makes the list
a cache that evicts the least frequently used address (`seeAa_lfu`).
-/

namespace Ubertooth.LowEnergy

open Firmware Foundations

variable {p : LePromiscState} {aa : U32} {i j : Fin 32}

/-- The entries in use come first, with distinct addresses; the others are as they were
initialised. -/
structure InOrder (p : LePromiscState) : Prop where
  nonneg : ∀ i, 0 ≤ (entries p i).2
  blank : ∀ i, (entries p i).2 = 0 → (entries p i).1 = 0
  order : ∀ i j, i < j → 0 < (entries p j).2 → 0 < (entries p i).2
  distinct : DistinctKeys (entries p)

theorem entries_setEntry (p : LePromiscState) (i : Fin 32) (x : LePromiscActiveAa) :
    entries (p.setEntry i x) = Function.update (entries p) i (x.aa, x.count) := by
  funext j
  unfold entries
  rw [entry_setEntry p i j x j.isLt, Function.update_apply]
  by_cases h : j = i
  · rw [if_pos h, if_pos (congrArg Fin.val h.symm)]
  · rw [if_neg h, if_neg fun heq => h (Fin.ext heq.symm)]

/-- `reset_le_promisc` leaves no entry in use. -/
theorem entries_resetLePromisc (s : Fw) (i : Fin 32) :
    entries (resetLePromisc s).lePromisc i = (0, 0) := by
  simp [entries, LePromiscState.entry, resetLePromisc]

theorem inOrder_resetLePromisc (s : Fw) : InOrder (resetLePromisc s).lePromisc := by
  constructor
  · intro i
    simp [entries_resetLePromisc]
  · intro i _
    simp [entries_resetLePromisc]
  · intro i j _ hj
    simp [entries_resetLePromisc] at hj
  · intro i j hi
    simp [entries_resetLePromisc] at hi

/-! ## Whom to evict -/

/-- The loop that looks for someone to evict, once it has looked at `n` entries: the first one of
the least count. -/
theorem foldl_evictStep (hnonneg : ∀ i < 32, 0 ≤ (p.entry i).count) {n : ℕ} (hn : n + 1 ≤ 32) :
    ∃ v, v < n + 1 ∧
      (List.range (n + 1)).foldl (evictStep p) (0, -1) = (v, (p.entry v).count) ∧
      (∀ j < n + 1, (p.entry v).count ≤ (p.entry j).count) ∧
      ∀ j < v, (p.entry v).count < (p.entry j).count := by
  induction n with
  | zero =>
    refine ⟨0, by omega, by simp [evictStep], fun j hj => ?_, fun j hj => absurd hj (by omega)⟩
    rw [Nat.lt_one_iff.1 hj]
  | succ n ih =>
    obtain ⟨v, hv, hfold, hleast, hfirst⟩ := ih (by omega)
    have hpos := hnonneg v (by omega)
    rw [List.range_succ, List.foldl_append, hfold, List.foldl_cons, List.foldl_nil]
    by_cases hlt : (p.entry (n + 1)).count < (p.entry v).count
    · refine ⟨n + 1, by omega, by simp [evictStep, hlt], fun j hj => ?_, fun j hj => ?_⟩
      · obtain hj | rfl := Nat.lt_succ_iff_lt_or_eq.1 hj
        · exact (hlt.trans_le (hleast j hj)).le
        · exact le_rfl
      · exact hlt.trans_le (hleast j hj)
    · refine ⟨v, by omega, ?_, fun j hj => ?_, hfirst⟩
      · simp only [evictStep]
        rw [if_neg (by omega)]
      · obtain hj | rfl := Nat.lt_succ_iff_lt_or_eq.1 hj
        · exact hleast j hj
        · exact not_lt.1 hlt

/-- `killme` is the first entry of the least count. -/
theorem killme_spec (h : InOrder p) : ∃ v : Fin 32, p.killme = v ∧
    (∀ j, (entries p v).2 ≤ (entries p j).2) ∧ ∀ j < v, (entries p v).2 < (entries p j).2 := by
  obtain ⟨v, hv, hfold, hleast, hfirst⟩ :=
    foldl_evictStep (p := p) (n := 31) (fun i hi => h.nonneg ⟨i, hi⟩) (by omega)
  exact ⟨⟨v, hv⟩, congrArg Prod.fst hfold, fun j => hleast j j.isLt, fun j hj => hfirst j hj⟩

/-! ## A call of `see_aa` -/

/-- An entry with the address, in use or not: the first one counts up. -/
theorem seeAa_of_find {k : ℕ}
    (h : (List.range 32).find? (fun i => (p.entry i).aa = aa) = some k) :
    ∃ i : Fin 32, (entries p i).1 = aa ∧ (∀ j < i, (entries p j).1 ≠ aa) ∧
      entries (seeAa p aa) = Function.update (entries p) i (aa, (entries p i).2 + 1) := by
  obtain ⟨hk, hmem, hfirst⟩ := List.find?_range_eq_some.1 h
  have hlt : k < 32 := List.mem_range.1 hmem
  have haa : (p.entry k).aa = aa := by simpa using hk
  refine ⟨⟨k, hlt⟩, haa, fun j hj => by simpa [entries] using hfirst j hj, ?_⟩
  have hsee : seeAa p aa = p.setEntry k { p.entry k with count := (p.entry k).count + 1 } := by
    unfold seeAa
    rw [h]
  rw [hsee, entries_setEntry p ⟨k, hlt⟩, haa]
  rfl

/-- No entry with the address: `killme` is taken over. -/
theorem seeAa_of_find_none (h : (List.range 32).find? (fun i => (p.entry i).aa = aa) = none) :
    (∀ j, (entries p j).1 ≠ aa) ∧ seeAa p aa = p.setEntry p.killme { aa := aa, count := 1 } := by
  rw [seeAa, h]
  exact ⟨fun j => by simpa [entries] using List.find?_range_eq_none.1 h j j.isLt, rfl⟩

/-- An address that is in use is found in the entry that holds it. -/
theorem InOrder.pos_of_first (h : InOrder p) (hfirst : ∀ j < i, (entries p j).1 ≠ aa)
    (hcached : Cached (entries p) aa) : 0 < (entries p i).2 := by
  obtain ⟨j, hj, hjaa⟩ := hcached
  obtain hlt | heq | hgt := lt_trichotomy i j
  · exact h.order i j hlt hj
  · exact heq ▸ hj
  · exact absurd hjaa (hfirst j hgt)

/-- All entries before the first blank one are in use. -/
theorem InOrder.pos_before (h : InOrder p) (haa : (entries p i).1 = aa) (hi : (entries p i).2 = 0)
    (hfirst : ∀ j < i, (entries p j).1 ≠ aa) : ∀ j < i, 0 < (entries p j).2 := by
  intro j hj
  refine lt_of_le_of_ne (h.nonneg j) fun hzero => hfirst j hj ?_
  rw [h.blank j hzero.symm, ← haa, h.blank i hi]

/-- **A call of `see_aa` is a sight.** -/
theorem sight_seeAa (h : InOrder p) (aa : U32) : Sight aa (entries p) (entries (seeAa p aa)) := by
  cases hfind : (List.range 32).find? (fun i => (p.entry i).aa = aa) with
  | some k =>
    obtain ⟨i, haa, hfirst, heq⟩ := seeAa_of_find hfind
    by_cases hpos : 0 < (entries p i).2
    · exact .hit i hpos haa heq
    · have hzero : (entries p i).2 = 0 := le_antisymm (not_lt.1 hpos) (h.nonneg i)
      rw [hzero, zero_add] at heq
      exact .insert i (fun hcached => hpos (h.pos_of_first hfirst hcached)) hpos heq
  | none =>
    obtain ⟨hne, hsee⟩ := seeAa_of_find_none hfind
    obtain ⟨v, hv, hleast, -⟩ := killme_spec h
    have heq : entries (seeAa p aa) = Function.update (entries p) v (aa, 1) := by
      rw [hsee, hv, entries_setEntry]
    have habsent : ¬Cached (entries p) aa := fun ⟨j, _, hj⟩ => hne j hj
    by_cases hpos : 0 < (entries p v).2
    · exact .evict v habsent (fun j => hpos.trans_le (hleast j)) hleast heq
    · exact .insert v habsent hpos heq

/-- The first entry that is not in use may come into use. -/
theorem InOrder.update (h : InOrder p) {q : LePromiscState} {n : ℤ} (hn : 0 < n)
    (hbefore : ∀ j < i, 0 < (entries p j).2) (hdistinct : DistinctKeys (entries q))
    (heq : entries q = Function.update (entries p) i (aa, n)) : InOrder q := by
  refine ⟨fun j => ?_, fun j => ?_, fun j k hjk => ?_, hdistinct⟩
  · rw [heq, Function.update_apply]
    split_ifs
    · exact hn.le
    · exact h.nonneg j
  · rw [heq, Function.update_apply]
    split_ifs
    · intro hzero
      exact absurd hzero hn.ne'
    · exact h.blank j
  · rw [heq, Function.update_apply, Function.update_apply]
    split_ifs with hk hj hj
    · exact fun _ => hn
    · exact fun _ => hbefore j (hk ▸ hjk)
    · exact fun _ => hn
    · exact h.order j k hjk

theorem InOrder.seeAa (h : InOrder p) (aa : U32) : InOrder (seeAa p aa) := by
  have hdistinct := h.distinct.sight (sight_seeAa h aa)
  cases hfind : (List.range 32).find? (fun i => (p.entry i).aa = aa) with
  | some k =>
    obtain ⟨i, haa, hfirst, heq⟩ := seeAa_of_find hfind
    have hnonneg := h.nonneg i
    refine h.update (by omega) (fun j hj => ?_) hdistinct heq
    by_cases hpos : 0 < (entries p i).2
    · exact h.order j i hj hpos
    · exact h.pos_before haa (le_antisymm (not_lt.1 hpos) hnonneg) hfirst j hj
  | none =>
    obtain ⟨v, hv, -, hfirst⟩ := killme_spec h
    have heq : entries (Firmware.seeAa p aa) = Function.update (entries p) v (aa, 1) := by
      rw [(seeAa_of_find_none hfind).2, hv, entries_setEntry]
    exact h.update (by omega) (fun j hj => (h.nonneg v).trans_lt (hfirst j hj)) hdistinct heq

/-! ## Calls without end -/

/-- The cache after the calls, since `reset_le_promisc`. -/
def cacheAfter (s : Fw) (calls : List U32) : Fin 32 → U32 × ℤ :=
  entries (calls.foldl seeAa (resetLePromisc s).lePromisc)

theorem inOrder_foldl (h : InOrder p) (calls : List U32) : InOrder (calls.foldl seeAa p) := by
  induction calls generalizing p with
  | nil => exact h
  | cons aa calls ih => exact ih (h.seeAa aa)

theorem lfu_cacheAfter (s : Fw) : Lfu (cacheAfter s) where
  unused i := by simp [cacheAfter, entries_resetLePromisc]
  sight calls aa := by
    unfold cacheAfter
    rw [List.foldl_append]
    exact sight_seeAa (inOrder_foldl (inOrder_resetLePromisc s) calls) aa

/-- No count is above the number of calls. -/
theorem count_le_length (s : Fw) (calls : List U32) (i : Fin 32) :
    (cacheAfter s calls i).2 ≤ calls.length := by
  have hempty : NeverOver [] (entries (resetLePromisc s).lePromisc) := fun i => by
    simp [entries_resetLePromisc]
  have hover : NeverOver calls (cacheAfter s calls) :=
    neverOver_foldl touches_seeAa hempty calls
  exact (hover i).trans (by exact_mod_cast List.count_le_length)

/-- **The cache of access addresses.** Whatever addresses `see_aa` is called with, zero included,
after `reset_le_promisc`: the entries in use hold distinct addresses and count their sightings since
they were inserted last, an address seen is in the cache, and one that goes had a least count in a
cache without an unused entry. The counts are ints: none overflows before the 2147483648th call. -/
theorem seeAa_lfu (s : Fw) : CorrectLfu (cacheAfter s) ∧
    ∀ calls i, (cacheAfter s calls i).2 ≤ (calls.length : ℤ) :=
  ⟨(lfu_cacheAfter s).correct, count_le_length s⟩

end Ubertooth.LowEnergy
