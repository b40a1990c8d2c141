import Ubertooth.Bootloader.Acknowledge

/-!
# State and status

Every handler writes state and status by itself, and refuses through `error`, which writes both in
DFU mode. `Effect` says once what a request can do to the two. While requests are handled in DFU
mode the status is OK exactly outside of DFUERROR (`status_agrees`).
-/

namespace Ubertooth.Bootloader

open Foundations

variable {ρ : Type*} {rom : Rom ρ} {p : Setup} {pbData : ℕ → U8} {d : Dfu ρ}
  {r : Option Reply × Dfu ρ}

/-! ## What a request can do -/

/-- What a request that is handled in DFU mode can do to state and status. -/
inductive Effect (p : Setup) (d : Dfu ρ) (r : Option Reply × Dfu ρ) : Prop
  | kept (state : r.2.state = d.state) (status : r.2.status = d.status)
  | failed (refused : r.1 = none) (state : r.2.state = .dfuError) (status : r.2.status ≠ .ok)
  | moved (accepted : r.1.isSome) (before : d.state ≠ .dfuError) (after : r.2.state ≠ .dfuError)
      (status : r.2.status = d.status)
  | cleared (request : p.bRequest = Request.clrStatus.toU8) (value : p.wValue = 0)
      (length : p.wLength = 0) (accepted : r.1.isSome) (before : d.state = .dfuError)
      (after : r.2.state = .dfuIdle) (status : r.2.status = .ok)
  | detached (request : p.bRequest = Request.detach.toU8) (accepted : r.1.isSome)
      (after : r.2.state = .appDetach) (status : r.2.status = d.status)

theorem inDfuMode_iff : d.inDfuMode = true ↔ d.state ≠ .appIdle ∧ d.state ≠ .appDetach := by
  unfold Dfu.inDfuMode
  cases d.state <;> decide

/-- `error`, also where the flash has changed. -/
theorem effect_error (h : d.inDfuMode = true) {status : Status} (hstatus : status ≠ .ok)
    (flash : Iap ρ) : Effect p d (Dfu.error status { d with flash := flash }) := by
  obtain ⟨hidle, hdetach⟩ := inDfuMode_iff.1 h
  obtain ⟨hnone, hstate, hst⟩ := Dfu.error_of_dfu (s := status) (d := { d with flash := flash })
    hidle hdetach
  exact .failed hnone hstate (hst.trans_ne hstatus)

/-- A state that is set on acceptance. -/
theorem effect_accept {state : State} (hbefore : d.state ≠ .dfuError) (hafter : state ≠ .dfuError)
    (flash : Iap ρ) :
    Effect p d ((Dfu.setState state { d with flash := flash }).accept p pbData) :=
  .moved rfl hbefore hafter rfl

/-! ## The handlers -/

theorem effect_requestDetach (h : d.inDfuMode = true) (hp : p.bRequest = Request.detach.toU8) :
    Effect p d (requestDetach p pbData d) := by
  unfold requestDetach
  split_ifs
  · exact .detached hp rfl rfl rfl
  · exact effect_error h (by simp) d.flash

theorem effect_requestDnload (h : d.inDfuMode = true) :
    Effect p d (requestDnload rom p pbData d) := by
  unfold requestDnload
  dsimp only
  split_ifs with hzero hnot hlength hstate hpolicy hwritten
  · exact effect_error h (by simp) d.flash
  · have hidle : d.state = .dfuDnloadIdle := not_not.1 hnot
    exact effect_accept (by simp [hidle]) (by simp) d.flash
  · exact effect_error h (by simp) d.flash
  · have hready : d.state ≠ .dfuError := by
      intro herror
      simp [herror] at hstate
    exact effect_accept hready (by simp) _
  · exact effect_error h (by simp) _
  · exact effect_error h (by simp) d.flash
  · exact effect_error h (by simp) d.flash

theorem effect_requestUpload (h : d.inDfuMode = true) :
    Effect p d (requestUpload rom p pbData d) := by
  unfold requestUpload
  dsimp only
  split_ifs with hlength hstate hvalid
  · exact effect_error h (by simp) d.flash
  · have hready : d.state ≠ .dfuError := by
      intro herror
      simp [herror] at hstate
    exact .moved rfl hready (by simp [Dfu.setState]) rfl
  · exact effect_error h (by simp) d.flash
  · exact effect_error h (by simp) d.flash

theorem effect_requestGetStatus : Effect p d (requestGetStatus p pbData d) := by
  unfold requestGetStatus Dfu.polled
  split_ifs
  · split
    case h_1 hsync => exact .moved rfl (by simp [hsync]) (by simp [Dfu.setState]) rfl
    case h_2 hsync => exact .moved rfl (by simp [hsync]) (by simp [Dfu.setState]) rfl
    case h_3 => exact .kept rfl rfl
  · exact .kept rfl rfl

theorem effect_requestClrStatus (h : d.inDfuMode = true)
    (hp : p.bRequest = Request.clrStatus.toU8) : Effect p d (requestClrStatus p pbData d) := by
  unfold requestClrStatus
  split_ifs with hsetup hstate
  · exact .cleared hp hsetup.1 hsetup.2 rfl hstate rfl rfl
  · exact effect_error h (by simp) d.flash
  · exact effect_error h (by simp) d.flash

theorem effect_requestGetState (h : d.inDfuMode = true) :
    Effect p d (requestGetState p pbData d) := by
  unfold requestGetState
  split_ifs
  · exact .kept rfl rfl
  · exact effect_error h (by simp) d.flash

theorem effect_requestAbort (h : d.inDfuMode = true) : Effect p d (requestAbort p pbData d) := by
  unfold requestAbort
  split_ifs with hsetup hstate
  · exact effect_accept hstate (by simp) d.flash
  · exact effect_error h (by simp) d.flash
  · exact effect_error h (by simp) d.flash

/-- **What a request can do**, whatever its setup packet. -/
theorem effect_requestHandler (rom : Rom ρ) (p : Setup) (pbData : ℕ → U8)
    (h : d.inDfuMode = true) : Effect p d (requestHandler rom p pbData d) := by
  unfold requestHandler
  split_ifs with hdetach hdnload hupload hgetstatus hclrstatus
  · exact effect_requestDetach h hdetach
  · exact effect_requestDnload h
  · exact effect_requestUpload h
  · exact effect_requestGetStatus
  · exact effect_requestClrStatus h hclrstatus
  · exact effect_requestGetState h
  · exact effect_requestAbort h
  · exact .kept rfl rfl

/-! ## Runs -/

/-- In DFU mode, the status is OK outside of DFUERROR and nowhere else. -/
def StatusAgrees (d : Dfu ρ) : Prop :=
  d.inDfuMode = true → (d.status = .ok ↔ d.state ≠ .dfuError)

theorem Effect.statusAgrees (heffect : Effect p d r) (h : d.inDfuMode = true)
    (hagrees : StatusAgrees d) : StatusAgrees r.2 := by
  intro hr
  cases heffect with
  | kept state status =>
    rw [state, status]
    exact hagrees h
  | failed refused state status => simp [state, status]
  | moved accepted before after status =>
    rw [status]
    exact iff_of_true ((hagrees h).2 before) after
  | cleared request value length accepted before after status => simp [after, status]
  | detached request accepted after status => exact absurd after (inDfuMode_iff.1 hr).2

/-- DFUERROR is left by a CLRSTATUS that is well formed, or by a DETACH. -/
def LeavesError (q : ClassRequest) (d' : Dfu ρ) : Prop :=
  (q.setup.bRequest = Request.clrStatus.toU8 ∧ q.setup.wValue = 0 ∧ q.setup.wLength = 0 ∧
      d'.state = .dfuIdle ∧ d'.status = .ok) ∨
    (q.setup.bRequest = Request.detach.toU8 ∧ d'.state = .appDetach)

/-- What holds of a request in a state. -/
structure ProperRequest (rom : Rom ρ) (d : Dfu ρ) (q : ClassRequest) : Prop where
  leaves : d.state = .dfuError → (handle rom d q).state ≠ .dfuError →
    LeavesError q (handle rom d q)
  refused : (requestHandler rom q.setup q.pbData d).1 = none →
    ((handle rom d q).state = d.state ∧ (handle rom d q).status = d.status) ∨
      (handle rom d q).state = .dfuError

theorem properRequest (rom : Rom ρ) (q : ClassRequest) (h : d.inDfuMode = true) :
    ProperRequest rom d q := by
  cases effect_requestHandler rom q.setup q.pbData h with
  | kept state status =>
    exact ⟨fun herror hleft => absurd (state.trans herror) hleft, fun _ => .inl ⟨state, status⟩⟩
  | failed refused state status => exact ⟨fun _ hleft => absurd state hleft, fun _ => .inr state⟩
  | moved accepted before after status =>
    exact ⟨fun herror => absurd herror before, fun hnone => by simp [hnone] at accepted⟩
  | cleared request value length accepted before after status =>
    exact ⟨fun _ _ => .inl ⟨request, value, length, after, status⟩,
      fun hnone => by simp [hnone] at accepted⟩
  | detached request accepted after status =>
    exact ⟨fun _ _ => .inr ⟨request, after⟩, fun hnone => by simp [hnone] at accepted⟩

/-- **State and status agree.** For every sequence of class requests that are handled in DFU mode,
whatever their setup fields: in every state reached in DFU mode the status is OK exactly outside of
DFUERROR, and every request that comes then leaves DFUERROR only in order, and if it is refused
changes nothing or leads to DFUERROR. -/
theorem status_agrees (rom : Rom ρ) (s : ρ) {rs : List ClassRequest}
    (hmode : Along (handle rom) (fun d _ => d.inDfuMode = true) (powerOn s) rs) :
    StatusAgrees (run (handle rom) (powerOn s) rs) ∧
      ((run (handle rom) (powerOn s) rs).inDfuMode = true →
        ∀ q, ProperRequest rom (run (handle rom) (powerOn s) rs) q) := by
  have hstart : StatusAgrees (powerOn s) := fun _ => by simp [powerOn]
  refine ⟨run_invariant (fun d q hagrees h => ?_) hstart hmode, fun h q => properRequest rom q h⟩
  exact (effect_requestHandler rom q.setup q.pbData h).statusAgrees h hagrees

/-- A download that is refused, and the clearing of its status. -/
def refusedAndCleared : List ClassRequest :=
  [{ setup := { bRequest := 1, wValue := 0, wLength := 3 }, pbData := fun _ => 0 },
    { setup := { bRequest := 4, wValue := 0, wLength := 0 }, pbData := fun _ => 0 }]

theorem status_agrees_refused :
    (run (handle busyRom) (powerOn ()) refusedAndCleared).status = .ok := by
  have hmode : Along (handle busyRom) (fun d _ => d.inDfuMode = true) (powerOn ())
      refusedAndCleared := ⟨by decide, by decide, trivial⟩
  exact ((status_agrees busyRom () hmode).1 (by decide)).2 (by decide)

end Ubertooth.Bootloader
