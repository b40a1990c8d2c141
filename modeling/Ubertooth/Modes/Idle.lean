import Ubertooth.Firmware.Modes
import Ubertooth.Foundations.Runs

/-!
# Idle means idle

The main loop calls `cc2400_idle` when `MODE_IDLE` is requested and `mode` is another one. So the
amplifiers and the LEDs are off in the idle mode as long as every function that leaves one on has
set `mode` (`Honest`). `specan` and `led_specan` do not: entered from the idle mode, they leave the
power amplifier on when they are stopped (`idle_means_idle_iff`).
-/

namespace Ubertooth.Modes

open Foundations Firmware

/-! ## Pins -/

/-- All pins are off. -/
def AllOff (pins : Pins) : Prop := ∀ p, pins p = false

theorem allOff_idle (pins : Pins) : AllOff (writePins pins cc2400IdleWrites) := by
  intro p
  cases p <;> rfl

theorem AllOff.transmit {pins : Pins} (h : AllOff pins) :
    AllOff (writePins pins leTransmitWrites) := by
  intro p
  cases p with
  | paen => rfl
  | txLed => rfl
  | hgm => exact h .hgm
  | rxLed => exact h .rxLed
  | usrLed => exact h .usrLed

theorem AllOff.clr {pins : Pins} (h : AllOff pins) (p : Pin) :
    AllOff (writePins pins [.clr p]) := by
  intro q
  show Function.update pins p false q = false
  by_cases hq : q = p
  · rw [hq, Function.update_self]
  · rw [Function.update_of_ne hq]
    exact h q

/-! ## The invariant -/

/-- The functions that leave a pin on until `cc2400_idle` clears it. -/
def leavesOn : ModeFunction → Bool
  | .mainLoop | .btPromiscLe | .promiscHeard | .btSlaveLe | .reset => false
  | _ => true

/-- What `mode` tells of the pins: it is `MODE_IDLE` only if all are off, and in none of the
functions that leave one on. -/
structure Honest (s : Radio) : Prop where
  off : s.mode = .idle → AllOff s.pins
  busy : leavesOn s.place = true → s.mode ≠ .idle

/-- What is asked of the main loop: where `MODE_IDLE` is both the mode and the request, all pins are
off. -/
def IdleMeansIdle (s : Radio) : Prop :=
  s.place = .mainLoop → s.requestedMode = .idle → s.mode = .idle → AllOff s.pins

/-- `specan` and `led_specan` are entered from another mode than the idle one. -/
def EnteredBusy (s : Radio) : RadioEvent → Prop
  | .proceed _ => s.place = .mainLoop → s.requestedMode = .specan ∨ s.requestedMode = .ledSpecan →
    s.mode ≠ .idle
  | _ => True

theorem honest_radioOn : Honest radioOn := ⟨fun _ _ => rfl, fun h => absurd h (by decide)⟩

variable {txEnable : Bool} {s : Radio} {r : Round}

/-- While `mode` is another one, the pins may be anything. -/
theorem honest_of_ne {m : Mode} (h : s.mode = m) (hm : m ≠ .idle) : Honest s :=
  ⟨fun h' => absurd (h.symm.trans h') hm, fun _ h' => hm (h.symm.trans h')⟩

theorem honest_cc2400Idle (s : Radio) (place : ModeFunction) (h : leavesOn place = false) :
    Honest { cc2400Idle s with place := place } :=
  ⟨fun _ => allOff_idle s.pins, fun h' => absurd (h'.symm.trans h) (by simp)⟩

theorem honest_endLeSync (activeMode : Mode) (s : Radio) : Honest (endLeSync activeMode s) := by
  unfold endLeSync
  split_ifs
  · exact honest_cc2400Idle s .btPromiscLe rfl
  · exact honest_cc2400Idle s .mainLoop rfl

/-- To a place where no pin is left on. -/
theorem Honest.goto (h : Honest s) {s' : Radio} (hmode : s'.mode = s.mode)
    (hpins : s'.pins = s.pins) (hplace : leavesOn s'.place = false) : Honest s' := by
  refine ⟨fun hidle => ?_, fun hon => absurd (hon.symm.trans hplace) (by simp)⟩
  rw [hpins]
  exact h.off (hmode.symm.trans hidle)

theorem honest_dispatch (h : Honest s) (hplace : s.place = .mainLoop)
    (hbusy : s.requestedMode = .specan ∨ s.requestedMode = .ledSpecan → s.mode ≠ .idle) :
    Honest (dispatch txEnable r s) := by
  unfold dispatch
  cases hm : s.requestedMode with
  | reset => exact h.goto rfl rfl rfl
  | afh => exact honest_of_ne (m := .afh) rfl (by simp)
  | rxSymbols => exact honest_of_ne (m := .rxSymbols) rfl (by simp)
  | btFollow => exact honest_of_ne (m := .btFollow) rfl (by simp)
  | btFollowLe => exact honest_of_ne (m := .btFollowLe) rfl (by simp)
  | btPromiscLe => exact h.goto rfl rfl rfl
  | btSlaveLe => exact h.goto rfl rfl rfl
  | txTest => exact honest_of_ne (m := .txTest) rfl (by simp)
  | rangeTest =>
    dsimp only
    split
    · exact honest_of_ne (m := .rangeTest) rfl (by simp)
    · exact honest_of_ne (m := .rangeTest) rfl (by simp)
  | repeater => exact honest_of_ne (m := .repeater) rfl (by simp)
  | specan => exact honest_of_ne (m := s.mode) rfl (hbusy (.inl hm))
  | ledSpecan => exact honest_of_ne (m := s.mode) rfl (hbusy (.inr hm))
  | ego =>
    dsimp only
    split
    · exact honest_of_ne (m := .ego) rfl (by simp)
    · exact honest_of_ne (m := .ego) rfl (by simp)
  | idle => exact honest_cc2400Idle s s.place (by rw [hplace]; rfl)
  | txSymbols => exact ⟨h.off, h.busy⟩

/-- The writes of a function that has set `mode` change nothing of it. -/
theorem Honest.write_of_leavesOn (h : Honest s) (hon : leavesOn s.place = true)
    (ws : List PinWrite) : Honest (s.write ws) := honest_of_ne (m := s.mode) rfl (h.busy hon)

/-- A function that has set `mode` may be left, too. -/
theorem Honest.leave_of_leavesOn (h : Honest s) (hon : leavesOn s.place = true)
    (ws : List PinWrite) : Honest (s.write ws).leave :=
  honest_of_ne (m := s.mode) rfl (h.busy hon)

theorem honest_proceed (h : Honest s) (hbusy : EnteredBusy s (.proceed r)) :
    Honest (proceed txEnable r s) := by
  unfold proceed
  cases hplace : s.place with
  | mainLoop =>
    dsimp only
    split
    · exact h
    · exact honest_dispatch h hplace (hbusy hplace)
  | btStreamRx =>
    have hon : leavesOn s.place = true := by rw [hplace]; rfl
    dsimp only
    split
    · exact h.write_of_leavesOn hon _
    · exact h.leave_of_leavesOn hon []
  | btPromiscLe =>
    dsimp only
    split
    · split
      · exact honest_of_ne (m := .btPromiscLe) rfl (by simp)
      · exact honest_of_ne (m := .btPromiscLe) rfl (by simp)
    · exact h.goto rfl rfl rfl
  | btGenericLe =>
    have hon : leavesOn s.place = true := by rw [hplace]; rfl
    dsimp only
    split
    · exact h.write_of_leavesOn hon _
    · exact honest_cc2400Idle s .promiscHeard rfl
  | promiscHeard =>
    dsimp only
    split
    · exact honest_of_ne (m := .btPromiscLe) rfl (by simp)
    · exact h.goto rfl rfl rfl
  | btLeSync activeMode =>
    have hon : leavesOn s.place = true := by rw [hplace]; rfl
    have hround := h.write_of_leavesOn hon (leSyncRoundWrites r)
    dsimp only
    split
    · exact honest_endLeSync activeMode _
    · split
      · exact honest_endLeSync activeMode _
      · split
        · exact honest_endLeSync activeMode _
        · exact hround.write_of_leavesOn hon _
  | btSlaveLe =>
    dsimp only
    split
    · exact ⟨fun hm => (h.off hm).transmit, h.busy⟩
    · exact h.goto rfl rfl rfl
  | specan =>
    have hon : leavesOn s.place = true := by rw [hplace]; rfl
    dsimp only
    split
    · exact h
    · exact h.leave_of_leavesOn hon _
  | ledSpecan =>
    have hon : leavesOn s.place = true := by rw [hplace]; rfl
    dsimp only
    split
    · exact h.write_of_leavesOn hon _
    · exact h.leave_of_leavesOn hon []
  | rangeTest =>
    have hon : leavesOn s.place = true := by rw [hplace]; rfl
    dsimp only
    split
    · exact honest_of_ne (m := s.mode) rfl (h.busy hon)
    · exact h.write_of_leavesOn hon _
  | repeater =>
    have hon : leavesOn s.place = true := by rw [hplace]; rfl
    exact h.write_of_leavesOn hon _
  | egoMain =>
    have hon : leavesOn s.place = true := by rw [hplace]; rfl
    dsimp only
    split
    · exact h.write_of_leavesOn hon _
    · exact h.leave_of_leavesOn hon []
  | reset => exact h

theorem honest_step (h : Honest s) (e : RadioEvent) (hbusy : EnteredBusy s e) :
    Honest (radioStep txEnable s e) := by
  cases e with
  | request m => exact ⟨h.off, h.busy⟩
  | timer0 => exact ⟨fun hm => (h.off hm).clr .txLed, h.busy⟩
  | proceed r => exact honest_proceed h hbusy

theorem Honest.idleMeansIdle (h : Honest s) : IdleMeansIdle s := fun _ _ hmode => h.off hmode

/-! ## Runs that are stopped -/

/-- What is left of `specan` and `led_specan`, entered from the idle mode and then stopped: the
power amplifier is on. -/
theorem paen_of_stopped (hplace : s.place = .mainLoop) (hmode : s.mode = .idle)
    (hrequested : s.requestedMode = .specan ∨ s.requestedMode = .ledSpecan) (r' : Round) :
    ¬IdleMeansIdle (run (radioStep txEnable) s [.proceed r', .request .idle, .proceed r]) := by
  intro h
  rcases hrequested with hspecan | hledSpecan
  · have hentered : proceed txEnable r' s =
        { s with place := .specan }.write [.set .rxLed, .set .paen] := by
      rw [proceed, hplace]
      dsimp only
      rw [if_neg (by rw [hspecan, hmode]; decide), dispatch, hspecan]
    rw [run_cons, radioStep, hentered] at h
    have hoff : true = false := h rfl rfl hmode .paen
    exact absurd hoff (by simp)
  · have hentered : proceed txEnable r' s =
        { s with place := .ledSpecan }.write [.set .paen] := by
      rw [proceed, hplace]
      dsimp only
      rw [if_neg (by rw [hledSpecan, hmode]; decide), dispatch, hledSpecan]
    rw [run_cons, radioStep, hentered] at h
    have hoff : true = false := h rfl rfl hmode .paen
    exact absurd hoff (by simp)

/-- **Idle means idle.** In a run, and however early it is stopped, all pins are off whenever the
main loop is at rest, exactly if the run never enters `specan` or `led_specan` from the idle
mode. -/
theorem idle_means_idle_iff (txEnable : Bool) (r : Round) (es : List RadioEvent) :
    (∀ pre, pre <+: es → Throughout (radioStep txEnable) IdleMeansIdle radioOn
      (pre ++ [.request .idle, .proceed r])) ↔
      Along (radioStep txEnable) EnteredBusy radioOn es := by
  constructor
  · intro h
    induction es using List.reverseRecOn with
    | nil => trivial
    | append_singleton es e ih =>
      refine along_append.2 ⟨ih fun pre hpre => h pre (hpre.trans (List.prefix_append es [e])), ?_,
        trivial⟩
      cases e with
      | request m => trivial
      | timer0 => trivial
      | proceed r' =>
        intro hplace hrequested hmode
        have hfinal := h _ List.prefix_rfl _ List.prefix_rfl
        rw [List.append_assoc, run_append] at hfinal
        exact paen_of_stopped hplace hmode hrequested r' hfinal
  · intro h pre hpre
    have hbusy : Along (radioStep txEnable) EnteredBusy radioOn
        (pre ++ [.request .idle, .proceed r]) := by
      refine along_append.2 ⟨h.of_prefix hpre, trivial, ?_, trivial⟩
      intro _ hrequested
      change Mode.idle = .specan ∨ Mode.idle = .ledSpecan at hrequested
      exact absurd hrequested (by decide)
    intro pre' hpre'
    exact (throughout_of_along (C := EnteredBusy) (fun s e hs he => honest_step hs e he)
      honest_radioOn hbusy pre' hpre').idleMeansIdle

/-- One sweep of the spectrum. -/
theorem not_idle_after_specan : ¬IdleMeansIdle (run (radioStep false) radioOn
    [.request .specan, .proceed {}, .proceed {}, .request .idle, .proceed {}]) := by
  intro h
  exact absurd (h (by decide) (by decide) (by decide) .paen) (by decide)

end Ubertooth.Modes
