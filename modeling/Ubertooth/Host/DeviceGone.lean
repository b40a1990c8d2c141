import Ubertooth.Host.Outcome

/-!
# A device that goes away

`enter_dfu_mode` keeps what `dfu_get_state` returns in an octet. An error of libusb is negative, and
its low octet is no state that the loop knows: the loop takes it for a state in which there is
nothing to do, and asks again. Once the device is gone it never ends (`enterDfuMode_gone`).
-/

namespace Ubertooth.Host

variable {δ : Type*} {bus : Bus δ}

/-- `enum libusb_error`, without `LIBUSB_SUCCESS` -/
def libusbErrors : List ℤ := [-1, -2, -3, -4, -5, -6, -7, -8, -9, -10, -11, -12, -99]

/-- A transfer that fails. -/
def Response.Fails (r : Response) : Prop := r.rv ∈ libusbErrors

/-! ## Pass by pass -/

/-- One pass of the loop: how it ends, or the device it goes on with. -/
def dfuPass (bus : Bus δ) (d : δ) : Except (ℤ × δ) δ :=
  let r := dfuGetState bus d
  let state : U8 := BitVec.ofInt 8 r.1
  if state = 2 then .error (0, r.2)
  else if state = 3 ∨ state = 5 ∨ state = 6 ∨ state = 9 ∨ state = 7 then
    let a := dfuAbort bus r.2
    if a.1 < 0 then .error a else .ok a.2
  else if state = 10 then .ok (dfuClearStatus bus r.2).2
  else .ok r.2

theorem enterDfuMode_succ (bus : Bus δ) (fuel : ℕ) (d : δ) : enterDfuMode bus (fuel + 1) d =
    match dfuPass bus d with
    | .ok d' => enterDfuMode bus fuel d'
    | .error r => some r := by
  have hmem : ∀ state : U8, state ∈ [(3 : U8), 5, 6, 9, 7] ↔
      state = 3 ∨ state = 5 ∨ state = 6 ∨ state = 9 ∨ state = 7 := by simp
  rw [enterDfuMode, dfuPass]
  simp only [hmem]
  split_ifs <;> rfl

/-- The loop goes on. -/
def GoesOn (bus : Bus δ) (d d' : δ) : Prop := dfuPass bus d = .ok d'

/-- A loop that comes to a state from which it never ends has never ended. -/
theorem enterDfuMode_none_of_reaches {d d' : δ} (h : Relation.ReflTransGen (GoesOn bus) d d')
    (hnone : ∀ fuel, enterDfuMode bus fuel d' = none) (fuel : ℕ) :
    enterDfuMode bus fuel d = none := by
  induction h using Relation.ReflTransGen.head_induction_on generalizing fuel with
  | refl => exact hnone fuel
  | head hgoes _ ih =>
    cases fuel with
    | zero => rfl
    | succ fuel =>
      rw [enterDfuMode_succ, hgoes]
      exact ih fuel

/-! ## Errors -/

/-- The low octet of an error is no state of the loop. -/
theorem low_octet_of_error : ∀ rv ∈ libusbErrors, rv < 0 ∧ (BitVec.ofInt 8 rv : U8) ≠ 2 ∧
    ¬((BitVec.ofInt 8 rv : U8) = 3 ∨ (BitVec.ofInt 8 rv : U8) = 5 ∨ (BitVec.ofInt 8 rv : U8) = 6 ∨
      (BitVec.ofInt 8 rv : U8) = 9 ∨ (BitVec.ofInt 8 rv : U8) = 7) ∧
    (BitVec.ofInt 8 rv : U8) ≠ 10 := by
  decide

/-- A pass in which the state cannot be read leads to the next. -/
theorem dfuPass_of_fails {s : Script} (h : (s.responses 0).Fails) :
    dfuPass script s = .ok (script (dfuIn 5 0 1) s).2 := by
  obtain ⟨hneg, hidle, habort, hclear⟩ := low_octet_of_error _ h
  have hstate : dfuGetState script s = ((s.responses 0).rv, (script (dfuIn 5 0 1) s).2) :=
    if_pos hneg
  rw [dfuPass, hstate]
  dsimp only
  rw [if_neg hidle, if_neg habort, if_neg hclear]

/-- The device is gone: the loop has come to `s`, where it asks for the state, and every transfer
from there on fails. -/
structure Gone (responses : ℕ → Response) (s : Script) : Prop where
  reached : Relation.ReflTransGen (GoesOn script) { responses := responses } s
  fails : ∀ n, (s.responses n).Fails

/-- `enter_dfu_mode` returns a negative value. -/
def EndsNegative (responses : ℕ → Response) : Prop :=
  ∃ fuel r, enterDfuMode script fuel { responses := responses } = some r ∧ r.1 < 0

theorem enterDfuMode_none_of_fails {s : Script} (h : ∀ n, (s.responses n).Fails) (fuel : ℕ) :
    enterDfuMode script fuel s = none := by
  induction fuel generalizing s with
  | zero => rfl
  | succ fuel ih =>
    rw [enterDfuMode_succ, dfuPass_of_fails (h 0)]
    exact ih fun n => h (n + 1)

/-- **A device that goes away.** Whatever it answered before, and whichever errors it answers with
from some request for its state on, `enter_dfu_mode` does not return a negative value: it does not
return. -/
theorem enterDfuMode_gone {responses : ℕ → Response} {s : Script} (h : Gone responses s) :
    ¬EndsNegative responses ∧
      ∀ fuel, enterDfuMode script fuel { responses := responses } = none := by
  have hnone := enterDfuMode_none_of_reaches h.reached (enterDfuMode_none_of_fails h.fails)
  refine ⟨fun ⟨fuel, r, hsome, _⟩ => ?_, hnone⟩
  exact absurd (hsome.symm.trans (hnone fuel)) (by simp)

/-- `LIBUSB_ERROR_NO_DEVICE`, for ever. -/
def noDevice : ℕ → Response := fun _ => { rv := -4, data := fun _ => 0 }

theorem gone_noDevice : Gone noDevice { responses := noDevice } :=
  ⟨.refl, fun _ => by simp [Response.Fails, noDevice, libusbErrors]⟩

theorem enterDfuMode_gone_noDevice : ¬EndsNegative noDevice := (enterDfuMode_gone gone_noDevice).1

/-- The device is unplugged before the first request. -/
theorem not_endsNegative_of_gone : ¬∀ responses s, Gone responses s → EndsNegative responses := by
  intro hall
  obtain ⟨fuel, r, hsome, -⟩ := hall noDevice _ gone_noDevice
  rw [enterDfuMode_none_of_fails gone_noDevice.fails] at hsome
  exact absurd hsome (by simp)

end Ubertooth.Host
