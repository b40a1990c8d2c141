import Ubertooth.Firmware.Clock
import Ubertooth.Firmware.Ego
import Ubertooth.Foundations.Runs

/-!
# Leaving capture

In `EGO_FOLLOW` a capture ends with a packet, or with the receive timeout of 7 ms that `sleep_state`
sets after it has tuned to the next channel. `jam_cap_state` looks at `timer_active` before it calls
`sleep_elapsed`, `cap_state` does not. Before the first timeout is set the duration is 0, which
every time reaches (`sleepElapsed_of_untimed`): the first capture ends with its first step, packet
or not (`capState_leaves_of_untimed`). Every later capture ends for a reason, and the runs in which
all do are those in which a capture without a timer receives a packet at once
(`leaves_for_reason_iff`).
-/

namespace Ubertooth.Modes

open Foundations Firmware

/-! ## Runs of `ego_main` -/

/-- `ego_main(EGO_FOLLOW)` between two rounds of its loop. -/
structure Following where
  fw : Fw
  fsm : EgoFsmState := egoMainState
  /-- the time, in units of 100 ns -/
  now : ℕ
  /-- when `sleep_state` last set the receive timeout -/
  armed : Option ℕ := none

inductive FollowEvent
  /-- a round of the loop: `passed k` goes by before the handler reads the clock for the `k`-th
  time -/
  | handler (passed : ℕ → ℕ) (i : EgoInput)
  /-- any other part of the firmware runs -/
  | world (s : Fw)

/-- The time of a handler's `k`-th reading. -/
def readingTime (now : ℕ) (passed : ℕ → ℕ) : ℕ → ℕ
  | 0 => now + passed 0
  | k + 1 => readingTime now passed k + passed (k + 1)

/-- What the handler makes of the state. -/
def followHandler (x : Following) (passed : ℕ → ℕ) (i : EgoInput) : Fw × EgoFsmState :=
  egoHandler .follow (fun k => clockReading (readingTime x.now passed k)) i (x.fw, x.fsm)

/-- A handler reads the clock four times at most. -/
def followStep (x : Following) : FollowEvent → Following
  | .handler passed i =>
    let y := followHandler x passed i
    { fw := y.1
      fsm := y.2
      now := readingTime x.now passed 3
      armed := if x.fsm.state = .sleep ∧ y.2.state = .startRx then some (readingTime x.now passed 1)
        else x.armed }
  | .world s => { x with fw := s }

/-- `ego_main` is entered, at any time and in any state of the firmware. -/
def followOn (s : Fw) (now : ℕ) : Following := { fw := s, now := now }

/-! ## The two conditions -/

/-- 7 ms, in units of 100 ns -/
def receiveTimeout : ℕ := 70000

/-- A step that goes from capture to sleep received a packet, or found that the receive timeout set
before this capture had run out. -/
def LeavesForReason (x : Following) : FollowEvent → Prop
  | .handler passed i =>
    x.fsm.state = .cap → (followHandler x passed i).2.state = .sleep →
      i.syncReceived = true ∨
        x.fsm.timerActive = true ∧ ∃ t ∈ x.armed, t + receiveTimeout ≤ readingTime x.now passed 1
  | .world _ => True

/-- A capture without a timer receives a packet. -/
def ReceivesIfUntimed (x : Following) : FollowEvent → Prop
  | .handler _ i => x.fsm.state = .cap → x.fsm.timerActive = false → i.syncReceived = true
  | .world _ => True

/-! ## What the handlers do -/

theorem le_readingTime (now : ℕ) (passed : ℕ → ℕ) (k : ℕ) : now ≤ readingTime now passed k := by
  induction k with
  | zero => exact Nat.le_add_right _ _
  | succ k ih => exact ih.trans (Nat.le_add_right _ _)

/-- A capture ends with a packet or when the time has elapsed, and nothing else changes before. -/
theorem capState_fsm (clk : ℕ → U32) (i : EgoInput) (s : Fw) {st : EgoFsmState}
    (hcap : st.state = .cap) :
    (i.syncReceived = true ∨ sleepElapsed (clk 1) st = true) ∧
        (capState clk i (s, st)).2.state = .sleep ∧ (capState clk i (s, st)).2.timerActive = true ∨
      i.syncReceived = false ∧ sleepElapsed (clk 1) st = false ∧
        (capState clk i (s, st)).2 = st := by
  unfold capState
  cases hsync : i.syncReceived
  case true => exact Or.inl ⟨Or.inl rfl, rfl, rfl⟩
  case false =>
    cases helapsed : sleepElapsed (clk 1) st
    case true => exact Or.inl ⟨Or.inr rfl, rfl, rfl⟩
    case false =>
      refine Or.inr ⟨rfl, rfl, ?_⟩
      simp only [Bool.false_eq_true, if_false, killRf, hcap, ne_eq, not_true_eq_false]

/-- A sleep ends when the time has elapsed, with the receive timeout set. -/
theorem sleepState_fsm (clk : ℕ → U32) (s : Fw) (st : EgoFsmState) :
    (sleepState clk (s, st)).2.state = .startRx ∧ (sleepState clk (s, st)).2.timerActive = true ∧
        (sleepState clk (s, st)).2.sleepStart = clk 1 ∧
        (sleepState clk (s, st)).2.sleepDuration.toNat = receiveTimeout ∨
      (sleepState clk (s, st)).2 = st := by
  unfold sleepState
  cases sleepElapsed (clk 0) st
  case true => exact Or.inl ⟨rfl, rfl, rfl, rfl⟩
  case false => exact Or.inr rfl

/-! ## The timer -/

/-- The timer as `ego_main` initialises it. -/
def Untimed (st : EgoFsmState) : Prop := st.timerActive = false ∧ st.sleepDuration = 0

/-- The receive timeout is set, from the time on record. -/
def Timed (x : Following) : Prop :=
  x.fsm.timerActive = true ∧ x.fsm.sleepDuration.toNat = receiveTimeout ∧
    ∃ t ∈ x.armed, x.fsm.sleepStart = clockReading t ∧ t ≤ x.now

/-- What each state knows of the timer. -/
def TimerKept (x : Following) : Prop :=
  match x.fsm.state with
  | .init => Untimed x.fsm
  | .startRx | .cap => Untimed x.fsm ∨ Timed x
  | .sleep => x.fsm.timerActive = true
  | .startJamming | .jamming => False

/-- A timer that has not been set has elapsed. -/
theorem sleepElapsed_of_untimed {st : EgoFsmState} (h : Untimed st) (now : U32) :
    sleepElapsed now st = true := by
  rw [sleepElapsed, h.2]
  exact decide_eq_true (BitVec.le_def.2 (Nat.zero_le _))

/-- The receive timeout does not elapse before its time, wherever the clock has wrapped. -/
theorem receiveTimeout_le_of_elapsed {st : EgoFsmState} {since now : ℕ} (hle : since ≤ now)
    (hstart : st.sleepStart = clockReading since)
    (hduration : st.sleepDuration.toNat = receiveTimeout)
    (h : sleepElapsed (clockReading now) st = true) : since + receiveTimeout ≤ now := by
  have htime : sleepTime (clockReading now) st =
      elapsed clk100nsPeriod (clockReading since) (clockReading now) := by
    rw [← hstart]
    rfl
  have hreached : st.sleepDuration ≤ sleepTime (clockReading now) st := of_decide_eq_true h
  rw [htime, BitVec.le_def, hduration, toNat_elapsed_clockReading_mod hle] at hreached
  have hmod := Nat.mod_le (now - since) 3276800000
  unfold receiveTimeout at hreached ⊢
  omega

/-- The first capture ends with its first step. -/
theorem capState_leaves_of_untimed (clk : ℕ → U32) (i : EgoInput) (s : Fw) {st : EgoFsmState}
    (hcap : st.state = .cap) (h : Untimed st) : (capState clk i (s, st)).2.state = .sleep := by
  obtain ⟨-, hsleep, -⟩ | ⟨-, hrunning, -⟩ := capState_fsm clk i s hcap
  · exact hsleep
  · rw [sleepElapsed_of_untimed h] at hrunning
    exact absurd hrunning (by simp)

theorem timerKept_followOn (s : Fw) (now : ℕ) : TimerKept (followOn s now) := ⟨rfl, rfl⟩

/-- A timer that is left alone stays set. -/
theorem Timed.later {x y : Following} (h : Timed x) (hfsm : y.fsm.timerActive = x.fsm.timerActive ∧
    y.fsm.sleepDuration = x.fsm.sleepDuration ∧ y.fsm.sleepStart = x.fsm.sleepStart)
    (harmed : y.armed = x.armed) (hnow : x.now ≤ y.now) : Timed y := by
  obtain ⟨hactive, hduration, t, ht, hstart, hle⟩ := h
  refine ⟨hfsm.1.trans hactive, ?_, t, ?_, hfsm.2.2.trans hstart, hle.trans hnow⟩
  · rw [hfsm.2.1, hduration]
  · rw [harmed]
    exact ht

/-- A capture goes on with the timer it has, or ends with the timer active. -/
theorem timerKept_cap {x : Following} (hcap : x.fsm.state = .cap) (passed : ℕ → ℕ) (i : EgoInput)
    (h : Untimed x.fsm ∨ Timed x) : TimerKept (followStep x (.handler passed i)) := by
  have hy : followHandler x passed i = capState
      (fun k => clockReading (readingTime x.now passed k)) i (x.fw, x.fsm) := by
    simp only [followHandler, egoHandler, hcap]
  rw [followStep, hy]
  obtain ⟨-, hsleep, hactive⟩ | ⟨-, -, hsame⟩ :=
    capState_fsm (fun k => clockReading (readingTime x.now passed k)) i x.fw hcap
  · simp only [TimerKept, hsleep, hactive]
  · simp only [TimerKept, hsame, hcap]
    exact h.imp id fun h => h.later ⟨rfl, rfl, rfl⟩ (by simp) (le_readingTime x.now passed 3)

/-- A sleep goes on, or ends with the receive timeout set. -/
theorem timerKept_sleep {x : Following} (hsleep : x.fsm.state = .sleep) (passed : ℕ → ℕ)
    (i : EgoInput) (h : x.fsm.timerActive = true) :
    TimerKept (followStep x (.handler passed i)) := by
  have hy : followHandler x passed i = sleepState
      (fun k => clockReading (readingTime x.now passed k)) (x.fw, x.fsm) := by
    simp only [followHandler, egoHandler, hsleep]
  rw [followStep, hy]
  obtain ⟨hstate, hactive, hstart, hduration⟩ | hsame :=
    sleepState_fsm (fun k => clockReading (readingTime x.now passed k)) x.fw x.fsm
  · simp only [TimerKept, hstate]
    refine Or.inr ⟨hactive, hduration, readingTime x.now passed 1, ?_, hstart, ?_⟩
    · simp only [hsleep, and_self, if_true, Option.mem_some_iff]
    · exact (Nat.le_add_right _ _).trans (Nat.le_add_right _ _)
  · simp only [TimerKept, hsame, hsleep]
    exact h

theorem timerKept_step (x : Following) (e : FollowEvent) (hx : TimerKept x) :
    TimerKept (followStep x e) := by
  cases e with
  | world s => exact hx
  | handler passed i =>
    unfold TimerKept at hx
    split at hx
    case h_1 hinit =>
      have hy : followHandler x passed i = initState (x.fw, x.fsm) := by
        simp only [followHandler, egoHandler, hinit]
      rw [followStep, hy]
      exact Or.inl hx
    case h_2 hstart =>
      have hy : followHandler x passed i = startRfState (x.fw, x.fsm) := by
        simp only [followHandler, egoHandler, hstart]
      rw [followStep, hy]
      refine hx.imp id fun h => h.later ⟨rfl, rfl, rfl⟩ (if_neg fun hslept => ?_)
        (le_readingTime x.now passed 3)
      exact absurd (hstart.symm.trans hslept.1) (by simp)
    case h_3 hcap => exact timerKept_cap hcap passed i hx
    case h_4 hsleep => exact timerKept_sleep hsleep passed i hx
    case h_5 => exact hx.elim
    case h_6 => exact hx.elim

/-! ## Leaving -/

/-- A capture without a timer ends for a reason exactly if that is a packet, one with a timer
always does. -/
theorem leavesForReason_iff (x : Following) (e : FollowEvent) (hx : TimerKept x) :
    LeavesForReason x e ↔ ReceivesIfUntimed x e := by
  cases e with
  | world s => exact Iff.rfl
  | handler passed i =>
    by_cases hcap : x.fsm.state = .cap
    case neg => exact iff_of_true (fun h => absurd h hcap) fun h => absurd h hcap
    case pos =>
    have hy : followHandler x passed i = capState
        (fun k => clockReading (readingTime x.now passed k)) i (x.fw, x.fsm) := by
      simp only [followHandler, egoHandler, hcap]
    simp only [TimerKept, hcap] at hx
    rcases hx with huntimed | ⟨hactive, hduration, t, ht, hstart, hle⟩
    · -- the first capture
      constructor
      · intro h _ _
        have hleaves := capState_leaves_of_untimed
          (fun k => clockReading (readingTime x.now passed k)) i x.fw hcap huntimed
        exact (h hcap (by rw [hy, hleaves])).resolve_right fun hor =>
          absurd (huntimed.1.symm.trans hor.1) (by simp)
      · exact fun h _ _ => Or.inl (h hcap huntimed.1)
    · refine iff_of_true (fun _ hsleep => ?_) fun _ h => absurd (hactive.symm.trans h) (by simp)
      rw [hy] at hsleep
      obtain ⟨hsync | helapsed, -, -⟩ | ⟨-, -, hsame⟩ :=
        capState_fsm (fun k => clockReading (readingTime x.now passed k)) i x.fw hcap
      · exact Or.inl hsync
      · exact Or.inr ⟨hactive, t, ht, receiveTimeout_le_of_elapsed
          (hle.trans (le_readingTime x.now passed 1)) hstart hduration helapsed⟩
      · rw [hsame, hcap] at hsleep
        exact absurd hsleep (by simp)

/-- **Leaving capture.** Every step from capture to sleep has a reason exactly in the runs in which
a capture without a timer receives a packet with its first step. -/
theorem leaves_for_reason_iff (s : Fw) (now : ℕ) (es : List FollowEvent) :
    Along followStep LeavesForReason (followOn s now) es ↔
      Along followStep ReceivesIfUntimed (followOn s now) es :=
  along_iff_of_invariant timerKept_step leavesForReason_iff (timerKept_followOn s now)

/-- No packet in sight: the third round leaves capture. -/
def quietRounds : List FollowEvent :=
  List.replicate 3 (.handler (fun _ => 1) { syncReceived := false, rxbuf := Vector.replicate _ 0 })

theorem not_leavesForReason_quiet :
    ¬Along followStep LeavesForReason (followOn powerOn 0) quietRounds := by
  rintro ⟨-, -, h, -⟩
  obtain hsync | ⟨hactive, -⟩ := h rfl rfl
  · exact absurd hsync (by simp)
  · exact absurd hactive (by simp [followStep, followHandler, followOn, egoHandler, egoMainState,
      initState, startRfState])

end Ubertooth.Modes
