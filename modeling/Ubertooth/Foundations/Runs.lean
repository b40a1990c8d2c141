import Mathlib

/-!
# Runs of a step function

A system is a step function `step : σ → ε → σ`: the state it is in, an event, and the state it
moves to. A run is a list of events. This module holds the induction every safety result is an
instance of: what one step preserves under a condition, a run all of whose steps meet the
condition preserves (`run_invariant`), and where the condition is exactly what a step needs to
preserve the invariant, the runs that keep it throughout are exactly the runs all of whose steps
meet the condition (`throughout_iff_of_invariant`, `holds_throughout_iff`). A field that events
overwrite, and a flag that they raise, are what the history says (`get_run`, `flag_run`).
-/

namespace Ubertooth.Foundations

variable {σ ε : Type*} (step : σ → ε → σ)

/-- The state reached from `s` by the events `es`. -/
def run (s : σ) (es : List ε) : σ := es.foldl step s

@[simp] theorem run_nil (s : σ) : run step s [] = s := rfl

@[simp] theorem run_cons (s : σ) (e : ε) (es : List ε) :
    run step s (e :: es) = run step (step s e) es := rfl

theorem run_append (s : σ) (es fs : List ε) :
    run step s (es ++ fs) = run step (run step s es) fs := List.foldl_append

theorem run_concat (s : σ) (es : List ε) (e : ε) :
    run step s (es ++ [e]) = step (run step s es) e := by
  rw [run_append, run_cons, run_nil]

/-- Every event of the run meets `C` in the state it is handled in. -/
def Along (C : σ → ε → Prop) : σ → List ε → Prop
  | _, [] => True
  | s, e :: es => C s e ∧ Along C (step s e) es

instance decidableAlong (C : σ → ε → Prop) [∀ s e, Decidable (C s e)] :
    ∀ s es, Decidable (Along step C s es)
  | _, [] => isTrue trivial
  | s, e :: es =>
    have := decidableAlong C (step s e) es
    instDecidableAnd

/-- `P` holds in every state of the run, the first and the last included. -/
def Throughout (P : σ → Prop) (s : σ) (es : List ε) : Prop :=
  ∀ pre, pre <+: es → P (run step s pre)

variable {step} {C : σ → ε → Prop} {P I : σ → Prop}

theorem along_append {s : σ} {es fs : List ε} :
    Along step C s (es ++ fs) ↔ Along step C s es ∧ Along step C (run step s es) fs := by
  induction es generalizing s with
  | nil => simp [Along]
  | cons e es ih => simp only [List.cons_append, Along, ih, run_cons, and_assoc]

theorem Along.of_prefix {s : σ} {pre es : List ε} (h : Along step C s es) (hp : pre <+: es) :
    Along step C s pre := by
  obtain ⟨post, rfl⟩ := hp
  exact (along_append.1 h).1

theorem Along.mono {D : σ → ε → Prop} (hCD : ∀ s e, C s e → D s e) {s : σ} {es : List ε}
    (h : Along step C s es) : Along step D s es := by
  induction es generalizing s with
  | nil => trivial
  | cons e es ih => exact ⟨hCD s e h.1, ih h.2⟩

theorem along_congr {D : σ → ε → Prop} (hCD : ∀ s e, C s e ↔ D s e) {s : σ} {es : List ε} :
    Along step C s es ↔ Along step D s es :=
  ⟨Along.mono fun s e => (hCD s e).1, Along.mono fun s e => (hCD s e).2⟩

/-- A condition on the event alone holds along a run as soon as it holds of its events, and only
then. -/
theorem along_iff_forall {D : ε → Prop} {s : σ} {es : List ε} :
    Along step (fun _ e => D e) s es ↔ ∀ e ∈ es, D e := by
  induction es generalizing s with
  | nil => simp [Along]
  | cons e es ih => simp [Along, ih]

theorem along_of_forall {D : ε → Prop} {s : σ} {es : List ε} (h : ∀ e ∈ es, D e) :
    Along step (fun _ e => D e) s es := along_iff_forall.2 h

/-- A condition that always holds holds along every run. -/
theorem along_of_all (hC : ∀ s e, C s e) (s : σ) (es : List ε) : Along step C s es := by
  induction es generalizing s with
  | nil => trivial
  | cons e es ih => exact ⟨hC s e, ih _⟩

/-- **The invariant rule.** What every step under `C` preserves, a run under `C` preserves. -/
theorem run_invariant (hstep : ∀ s e, I s → C s e → I (step s e)) {s : σ} {es : List ε}
    (h0 : I s) (hC : Along step C s es) : I (run step s es) := by
  induction es generalizing s with
  | nil => exact h0
  | cons e es ih => exact ih (hstep s e h0 hC.1) hC.2

/-- The invariant rule for an invariant that counts: every event adds its weight. -/
theorem run_invariant_counted {J : ℕ → σ → Prop} {weight : ε → ℕ}
    (hstep : ∀ n s e, J n s → C s e → J (n + weight e) (step s e)) {n : ℕ} {s : σ} {es : List ε}
    (h0 : J n s) (hC : Along step C s es) : J (n + (es.map weight).sum) (run step s es) := by
  induction es generalizing n s with
  | nil => exact h0
  | cons e es ih =>
    have h := ih (hstep n s e h0 hC.1) hC.2
    rwa [List.map_cons, List.sum_cons, ← Nat.add_assoc, run_cons]

/-- The invariant rule for every state of the run. -/
theorem throughout_of_along (hstep : ∀ s e, I s → C s e → I (step s e)) {s : σ} {es : List ε}
    (h0 : I s) (hC : Along step C s es) : Throughout step I s es :=
  fun _ hp => run_invariant hstep h0 (hC.of_prefix hp)

/-- What the invariant and the condition give at a step, a run under the condition has at every
step. -/
theorem along_of_invariant {D : σ → ε → Prop} (hstep : ∀ s e, I s → C s e → I (step s e))
    (hD : ∀ s e, I s → C s e → D s e) {s : σ} {es : List ε} (h0 : I s) (hC : Along step C s es) :
    Along step D s es := by
  induction es generalizing s with
  | nil => trivial
  | cons e es ih => exact ⟨hD s e h0 hC.1, ih (hstep s e h0 hC.1) hC.2⟩

/-- Two conditions that an invariant makes equivalent hold along the same runs. -/
theorem along_iff_of_invariant {D : σ → ε → Prop} (hstep : ∀ s e, I s → I (step s e))
    (hCD : ∀ s e, I s → (C s e ↔ D s e)) {s : σ} {es : List ε} (h0 : I s) :
    Along step C s es ↔ Along step D s es := by
  induction es generalizing s with
  | nil => exact Iff.rfl
  | cons e es ih => exact and_congr (hCD s e h0) (ih (hstep s e h0))

/-- What holds at a step under the condition, and what brings the condition about where `E` holds:
along a run of `E` the two hold together. -/
theorem along_iff_of_invariant_under {D E : σ → ε → Prop}
    (hstep : ∀ s e, I s → C s e → I (step s e)) (hCD : ∀ s e, I s → E s e → (C s e ↔ D s e))
    {s : σ} {es : List ε} (h0 : I s) (hE : Along step E s es) :
    Along step C s es ↔ Along step D s es := by
  induction es generalizing s with
  | nil => exact Iff.rfl
  | cons e es ih =>
    have hiff := hCD s e h0 hE.1
    exact ⟨fun hC => ⟨hiff.1 hC.1, (ih (hstep s e h0 hC.1) hE.2).1 hC.2⟩,
      fun hD => ⟨hiff.2 hD.1, (ih (hstep s e h0 (hiff.2 hD.1)) hE.2).2 hD.2⟩⟩

theorem throughout_cons {s : σ} {e : ε} {es : List ε} :
    Throughout step P s (e :: es) ↔ P s ∧ Throughout step P (step s e) es := by
  refine ⟨fun h => ⟨h [] List.nil_prefix, fun pre hp => ?_⟩, fun ⟨h0, h⟩ pre hp => ?_⟩
  · exact h (e :: pre) (List.cons_prefix_cons.2 ⟨rfl, hp⟩)
  · cases pre with
    | nil => exact h0
    | cons f pre =>
      obtain ⟨rfl, hpre⟩ := List.cons_prefix_cons.1 hp
      exact h pre hpre

/-- **The exact condition.** If `P` follows from an invariant that a step keeps under `C`, and a
step outside `C` ends outside `P`, the runs that stay in `P` throughout are exactly those all of
whose steps meet `C`. -/
theorem throughout_iff_of_invariant (hIP : ∀ s, I s → P s)
    (hstep : ∀ s e, I s → C s e → I (step s e)) (hbad : ∀ s e, I s → ¬C s e → ¬P (step s e))
    {s : σ} {es : List ε} (h0 : I s) : Throughout step P s es ↔ Along step C s es := by
  refine ⟨fun h => ?_, fun h pre hp => hIP _ (throughout_of_along hstep h0 h pre hp)⟩
  induction es generalizing s with
  | nil => trivial
  | cons e es ih =>
    obtain ⟨-, h⟩ := throughout_cons.1 h
    have h1 : P (step s e) := h [] List.nil_prefix
    have hC : C s e := Classical.byContradiction fun hC => hbad s e h0 hC h1
    exact ⟨hC, ih (hstep s e h0 hC) h⟩

/-- The exact condition, for a property that is its own invariant: from a state of `P` a step
stays in `P` exactly when it meets `C`. -/
theorem holds_throughout_iff (hstep : ∀ s e, P s → (P (step s e) ↔ C s e)) {s : σ}
    {es : List ε} (h0 : P s) : Throughout step P s es ↔ Along step C s es :=
  throughout_iff_of_invariant (fun _ h => h) (fun s e hP hC => (hstep s e hP).2 hC)
    (fun s e hP hC h => hC ((hstep s e hP).1 h)) h0

/-! ## Ghosts -/

section Ghost

variable {γ : Type*} (step) (next : γ → σ → ε → γ)

/-- A ghost beside the state, which the step does not look at. -/
def ghostStep (x : σ × γ) (e : ε) : σ × γ := (step x.1 e, next x.2 x.1 e)

theorem run_ghostStep_fst (x : σ × γ) (es : List ε) :
    (run (ghostStep step next) x es).1 = run step x.1 es := by
  induction es generalizing x with
  | nil => rfl
  | cons e es ih => exact ih (ghostStep step next x e)

/-- What is said about the state alone holds throughout with the ghost or without. -/
theorem throughout_ghostStep (x : σ × γ) (es : List ε) :
    Throughout (ghostStep step next) (fun y => P y.1) x es ↔ Throughout step P x.1 es :=
  forall₂_congr fun pre _ => iff_of_eq (congrArg P (run_ghostStep_fst step next x pre))

end Ghost

/-! ## What a history leaves behind -/

/-- The last thing the events of a history wrote. -/
def lastWritten {α : Type*} (written : ε → Option α) (es : List ε) : Option α :=
  es.reverse.findSome? written

theorem lastWritten_concat {α : Type*} (written : ε → Option α) (es : List ε) (e : ε) :
    lastWritten written (es ++ [e]) = (written e).or (lastWritten written es) := by
  rw [lastWritten, lastWritten, List.reverse_append, List.reverse_singleton, List.singleton_append,
    List.findSome?_cons]
  cases written e <;> rfl

theorem lastWritten_append {α : Type*} (written : ε → Option α) (es fs : List ε) :
    lastWritten written (es ++ fs) = (lastWritten written fs).or (lastWritten written es) := by
  rw [lastWritten, lastWritten, lastWritten, List.reverse_append, List.findSome?_append]

/-- Events that write nothing. -/
theorem lastWritten_eq_none {α : Type*} {written : ε → Option α} {es : List ε}
    (h : ∀ e ∈ es, written e = none) : lastWritten written es = none :=
  List.findSome?_eq_none_iff.2 fun e he => h e (List.mem_reverse.1 he)

theorem isSome_lastWritten {α : Type*} (written : ε → Option α) (es : List ε) :
    (lastWritten written es).isSome = es.any fun e => (written e).isSome := by
  rw [lastWritten, List.isSome_findSome?, List.any_reverse]

/-- A field that every event overwrites or keeps holds what was written last. -/
theorem get_run {α : Type*} (get : σ → α) (written : ε → Option α)
    (hget : ∀ s e, get (step s e) = (written e).getD (get s)) (s : σ) (es : List ε) :
    get (run step s es) = (lastWritten written es).getD (get s) := by
  induction es using List.reverseRecOn with
  | nil => rfl
  | append_singleton es e ih =>
    rw [run_concat, hget, ih, lastWritten_concat]
    cases written e <;> rfl

/-- A flag that events raise and none lowers. -/
theorem flag_run (flag : σ → Bool) (raises : ε → Bool)
    (hflag : ∀ s e, flag (step s e) = (flag s || raises e)) (s : σ) (es : List ε) :
    flag (run step s es) = (flag s || es.any raises) := by
  induction es generalizing s with
  | nil => simp
  | cons e es ih => rw [run_cons, ih, hflag, List.any_cons, Bool.or_assoc]

end Ubertooth.Foundations
