import Ubertooth.Firmware.Ego
import Ubertooth.Firmware.Requests
import Ubertooth.Foundations.Runs

/-!
# The guard of `UBERTOOTH_EGO`

A build without `TX_ENABLE` must not jam. The guard of the request compares the mode stored by an
earlier request, not the mode asked for: it lets the first request for `EGO_JAM` in, and from then
on refuses every request (`refused_after_jam`). So the guard does what it is there for in the runs
in which nobody asks for `EGO_JAM`, and in no other (`guard_right_iff`).
-/

namespace Ubertooth.Modes

open Foundations Firmware

/-! ## The request -/

/-- The value of `ego_mode_t` -/
def egoModeValue : EgoMode → U8
  | .follow => 0
  | .continuousRx => 1
  | .jam => 2

/-- The device, and `ego_mode`. -/
structure EgoDevice where
  dev : Device := {}
  egoMode : U8 := 0

/-- The device at power on. -/
def egoDeviceOn : EgoDevice := {}

/-- `UBERTOOTH_EGO`: what `vendor_request_handler` returns, and the device after it. -/
def egoRequest (txEnable : Bool) (param : U16) (s : EgoDevice) : Bool × EgoDevice :=
  if !txEnable && decide (s.egoMode = egoModeValue .jam) then (false, s)
  else (true,
    { s with dev := { s.dev with requestedMode := .ego }, egoMode := param.setWidth 8 })

/-- Requests come in, and between them the main program runs, which leaves `ego_mode` alone. -/
inductive EgoEvent
  | ego (param : U16)
  | request (r : VendorRequest)
  | elsewhere (d : Device)

/-- A step of a build without `TX_ENABLE`. -/
def egoStep (s : EgoDevice) : EgoEvent → EgoDevice
  | .ego param => (egoRequest false param s).2
  | .request r => { s with dev := vendorRequestHandler s.dev r }
  | .elsewhere d => { s with dev := d }

/-! ## What the guard is there for -/

/-- `EGO_JAM` is not stored. -/
def NotJamming (s : EgoDevice) : Prop := s.egoMode ≠ egoModeValue .jam

/-- A request for `EGO_JAM` is refused and changes nothing, one for another mode is accepted. -/
def AnswersRight (s : EgoDevice) : EgoEvent → Prop
  | .ego param => ∀ m, param = (egoModeValue m).setWidth 16 →
    if m = .jam then
      (egoRequest false param s).1 = false ∧
        (egoRequest false param s).2.dev.requestedMode = s.dev.requestedMode ∧
        (egoRequest false param s).2.egoMode = s.egoMode
    else (egoRequest false param s).1 = true
  | _ => True

/-- The event does not ask for `EGO_JAM`, by the octet that is stored. -/
def AsksNoJam : EgoEvent → Prop
  | .ego param => param.setWidth 8 ≠ egoModeValue .jam
  | _ => True

/-- A request in a state that does not jam is let in. -/
theorem egoRequest_of_notJamming {s : EgoDevice} (h : NotJamming s) (param : U16) :
    egoRequest false param s = (true,
      { s with dev := { s.dev with requestedMode := .ego }, egoMode := param.setWidth 8 }) := by
  have hguard : decide (s.egoMode = egoModeValue .jam) = false := decide_eq_false h
  rw [egoRequest, hguard]
  rfl

/-- So the state after it jams exactly if that is what was asked for. -/
theorem notJamming_step {s : EgoDevice} (h : NotJamming s) (e : EgoEvent) :
    NotJamming (egoStep s e) ↔ AsksNoJam e := by
  cases e with
  | ego param =>
    show (egoRequest false param s).2.egoMode ≠ _ ↔ _
    rw [egoRequest_of_notJamming h]
    exact Iff.rfl
  | request r => exact iff_of_true h trivial
  | elsewhere d => exact iff_of_true h trivial

theorem answersRight_of_asksNoJam {s : EgoDevice} (h : NotJamming s) {e : EgoEvent}
    (he : AsksNoJam e) : AnswersRight s e := by
  cases e with
  | ego param =>
    rintro m rfl
    cases m with
    | jam => exact absurd rfl he
    | follow => rw [if_neg (by simp), egoRequest_of_notJamming h]
    | continuousRx => rw [if_neg (by simp), egoRequest_of_notJamming h]
  | request r => trivial
  | elsewhere d => trivial

/-- Once `EGO_JAM` is stored it stays, and every request is refused. -/
theorem refused_after_jam {s : EgoDevice} (h : s.egoMode = egoModeValue .jam)
    (es : List EgoEvent) (param : U16) :
    (run egoStep s es).egoMode = egoModeValue .jam ∧
      egoRequest false param (run egoStep s es) = (false, run egoStep s es) := by
  have hrefused : ∀ s : EgoDevice, s.egoMode = egoModeValue .jam → ∀ param,
      egoRequest false param s = (false, s) := by
    intro s hs param
    rw [egoRequest, decide_eq_true hs]
    rfl
  have hstep : ∀ s e, s.egoMode = egoModeValue .jam → True →
      (egoStep s e).egoMode = egoModeValue .jam := by
    intro s e hs _
    cases e with
    | ego param =>
      show (egoRequest false param s).2.egoMode = _
      rw [hrefused s hs param]
      exact hs
    | request r => exact hs
    | elsewhere d => exact hs
  have hjam := run_invariant hstep h (along_of_all (fun _ _ => trivial) s es)
  exact ⟨hjam, hrefused _ hjam param⟩

/-- **The guard.** In a build without `TX_ENABLE`, `EGO_JAM` is never stored and all requests are
answered right exactly in the runs in which no request asks for `EGO_JAM`. -/
theorem guard_right_iff (es : List EgoEvent) :
    (Throughout egoStep NotJamming egoDeviceOn es ∧ Along egoStep AnswersRight egoDeviceOn es) ↔
      ∀ e ∈ es, AsksNoJam e := by
  have hon : NotJamming egoDeviceOn := by unfold NotJamming; decide
  have hthrough : Throughout egoStep NotJamming egoDeviceOn es ↔
      Along egoStep (fun _ e => AsksNoJam e) egoDeviceOn es :=
    holds_throughout_iff (fun s e hs => notJamming_step hs e) hon
  constructor
  · rintro ⟨h, -⟩
    exact along_iff_forall.1 (hthrough.1 h)
  · intro h
    have halong : Along egoStep (fun _ e => AsksNoJam e) egoDeviceOn es := along_of_forall h
    exact ⟨hthrough.2 halong, along_of_invariant
      (fun s e hs he => (notJamming_step hs e).2 he)
      (fun s e hs he => answersRight_of_asksNoJam hs he) hon halong⟩

/-- The first request for `EGO_JAM` is accepted. -/
theorem jam_accepted :
    (egoRequest false 2 egoDeviceOn).1 = true ∧
      (egoRequest false 2 egoDeviceOn).2.egoMode = egoModeValue .jam ∧
      ¬AnswersRight egoDeviceOn (.ego 2) := by
  refine ⟨by decide, by decide, fun h => ?_⟩
  have hjam := h .jam (by decide)
  rw [if_pos rfl] at hjam
  exact absurd hjam.1 (by decide)

end Ubertooth.Modes
