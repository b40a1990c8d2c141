import Ubertooth.Foundations.Runs
import Ubertooth.Bootloader.Iap

/-!
# `dfu.cpp`: the class requests of the bootloader

`requestHandler` is called with the setup packet and with what `dfu_buffer` holds, and either fails,
so that the request is stalled, or answers with what is then in the buffer and how much of it.
-/

namespace Ubertooth.Bootloader

open Foundations

variable {ρ : Type*}

/-! ## `dfu.h` -/

/-- `DFU::Status` -/
inductive Status
  | ok | errTarget | errFile | errWrite | errErase | errCheckErased | errProg | errVerify
  | errAddress | errNotDone | errFirmware | errVendor | errUsbr | errPor | errUnknown
  | errStalledPkt
  deriving DecidableEq, Repr

/-- `get_status()` -/
def Status.toU8 : Status → U8
  | .ok => 0x00
  | .errTarget => 0x01
  | .errFile => 0x02
  | .errWrite => 0x03
  | .errErase => 0x04
  | .errCheckErased => 0x05
  | .errProg => 0x06
  | .errVerify => 0x07
  | .errAddress => 0x08
  | .errNotDone => 0x09
  | .errFirmware => 0x0A
  | .errVendor => 0x0B
  | .errUsbr => 0x0C
  | .errPor => 0x0D
  | .errUnknown => 0x0E
  | .errStalledPkt => 0x0F

/-- `DFU::State` -/
inductive State
  | appIdle | appDetach | dfuIdle | dfuDnloadSync | dfuDnbusy | dfuDnloadIdle | dfuManifestSync
  | dfuManifest | dfuManifestWaitReset | dfuUploadIdle | dfuError
  deriving DecidableEq, Repr

/-- `get_state()` -/
def State.toU8 : State → U8
  | .appIdle => 0x00
  | .appDetach => 0x01
  | .dfuIdle => 0x02
  | .dfuDnloadSync => 0x03
  | .dfuDnbusy => 0x04
  | .dfuDnloadIdle => 0x05
  | .dfuManifestSync => 0x06
  | .dfuManifest => 0x07
  | .dfuManifestWaitReset => 0x08
  | .dfuUploadIdle => 0x09
  | .dfuError => 0x0A

/-- `DFU::Request` -/
inductive Request
  | detach | dnload | upload | getStatus | clrStatus | getState | abort
  deriving DecidableEq, Repr

/-- The `bRequest` of a request. -/
def Request.toU8 : Request → U8
  | .detach => 0
  | .dnload => 1
  | .upload => 2
  | .getStatus => 3
  | .clrStatus => 4
  | .getState => 5
  | .abort => 6

/-- What the handler reads of the `TSetupPacket`. -/
structure Setup where
  bRequest : U8
  wValue : U16
  wLength : U16
  deriving DecidableEq, Repr

/-- `detach_timeout_ms` -/
abbrev detachTimeoutMs : ℕ := 15000

/-- `transfer_size` -/
abbrev transferSize : ℕ := 0x100

/-! ## `dfu.cpp` -/

/-- `memory_policy::write_permitted`; protect flash region containing bootloader. -/
def writePermitted (flashAddress : ℕ) : Bool := 0x4000 ≤ flashAddress

/-- The DFU object, with the flash it writes. -/
structure Dfu (ρ : Type*) where
  flash : Iap ρ
  status : Status := .ok
  state : State := .dfuIdle
  virginity : Bool := true

/-- `*piLen` octets of `pbData`. -/
structure Reply where
  length : ℕ
  data : ℕ → U8

/-- Where the block of a request is. -/
def Setup.flashAddress (p : Setup) : ℕ := p.wValue.toNat * transferSize

def Dfu.inDfuMode (d : Dfu ρ) : Bool := State.dfuIdle.toU8 ≤ d.state.toU8

def Dfu.setState (newState : State) (d : Dfu ρ) : Dfu ρ :=
  { d with state := newState, virginity := false }

def Dfu.setStatus (newStatus : Status) (d : Dfu ρ) : Dfu ρ := { d with status := newStatus }

/-- The handler returns `false`. -/
def Dfu.error (newStatus : Status) (d : Dfu ρ) : Option Reply × Dfu ρ :=
  let d := if d.state ≠ .appIdle ∧ d.state ≠ .appDetach then d.setState .dfuError else d
  (none, d.setStatus newStatus)

/-- The handler returns `true` and leaves `*piLen` and `pbData` as they are. -/
def Dfu.accept (p : Setup) (pbData : ℕ → U8) (d : Dfu ρ) : Option Reply × Dfu ρ :=
  (some { length := p.wLength.toNat, data := pbData }, d)

/-- `get_poll_timeout()`, in milliseconds -/
abbrev pollTimeout : ℕ := 20

/-- `get_status_string_id()` -/
abbrev statusStringId : U8 := 0

section Handlers

variable (rom : Rom ρ) (p : Setup) (pbData : ℕ → U8) (d : Dfu ρ)

def requestDetach : Option Reply × Dfu ρ :=
  if p.wLength = 0 ∧ p.wValue.toNat ≤ detachTimeoutMs then (d.setState .appDetach).accept p pbData
  else d.error .errUnknown

def requestDnload : Option Reply × Dfu ρ :=
  if p.wLength = 0 then
    if d.state ≠ .dfuDnloadIdle then d.error .errStalledPkt
    else
      -- End of transfer
      (d.setState .dfuManifestSync).accept p pbData
  else if p.wLength.toNat = transferSize then
    if d.state ≠ .dfuIdle ∧ d.state ≠ .dfuDnloadIdle then d.error .errStalledPkt
    else if writePermitted p.flashAddress then
      let r := write rom p.flashAddress pbData p.wLength.toNat d.flash
      let d := { d with flash := r.2 }
      if r.1 then (d.setState .dfuDnloadSync).accept p pbData else d.error .errProg
    else d.error .errWrite
  else d.error .errUnknown

def requestUpload : Option Reply × Dfu ρ :=
  if p.wLength.toNat = transferSize then
    if d.state ≠ .dfuIdle ∧ d.state ≠ .dfuUploadIdle then d.error .errStalledPkt
    else
      let length := p.wLength.toNat
      let flashAddressStart := p.flashAddress
      let flashAddressEnd := flashAddressStart + length
      if validAddress flashAddressStart ∧ validAddress (flashAddressEnd - 1) then
        (some
          { length := length
            data := fun i =>
              if i < length then rom.flash d.flash.rom (flashAddressStart + i) else pbData i },
          d.setState .dfuIdle)
      else d.error .errAddress
  else d.error .errUnknown

/-- The state a status request leaves. -/
def Dfu.polled (d : Dfu ρ) : Dfu ρ :=
  match d.state with
  | .dfuDnloadSync => d.setState .dfuDnloadIdle
  | .dfuManifestSync => d.setState .dfuIdle
  | _ => d

/-- The octets of a status reply. -/
def Dfu.statusOctets (d : Dfu ρ) : List U8 :=
  [d.status.toU8, BitVec.ofNat 8 pollTimeout, BitVec.ofNat 8 (pollTimeout >>> 8),
    BitVec.ofNat 8 (pollTimeout >>> 16), d.state.toU8, statusStringId]

def requestGetStatus : Option Reply × Dfu ρ :=
  if p.wValue = 0 ∧ p.wLength = 6 then
    (some { length := 6, data := fun i => (d.polled.statusOctets[i]?).getD (pbData i) }, d.polled)
  else (none, d)

def requestClrStatus : Option Reply × Dfu ρ :=
  if p.wValue = 0 ∧ p.wLength = 0 then
    if d.state = .dfuError then ((d.setStatus .ok).setState .dfuIdle).accept p pbData
    else d.error .errUnknown
  else d.error .errUnknown

def requestGetState : Option Reply × Dfu ρ :=
  if p.wValue = 0 ∧ p.wLength = 1 then
    (some { length := 1, data := fun i => if i = 0 then d.state.toU8 else pbData i }, d)
  else d.error .errUnknown

def requestAbort : Option Reply × Dfu ρ :=
  if p.wValue = 0 ∧ p.wLength = 0 then
    if d.state ≠ .dfuError then (d.setState .dfuIdle).accept p pbData
    else d.error .errUnknown
  else d.error .errUnknown

/-- `DFU::request_handler` -/
def requestHandler : Option Reply × Dfu ρ :=
  if p.bRequest = Request.detach.toU8 then requestDetach p pbData d
  else if p.bRequest = Request.dnload.toU8 then requestDnload rom p pbData d
  else if p.bRequest = Request.upload.toU8 then requestUpload rom p pbData d
  else if p.bRequest = Request.getStatus.toU8 then requestGetStatus p pbData d
  else if p.bRequest = Request.clrStatus.toU8 then requestClrStatus p pbData d
  else if p.bRequest = Request.getState.toU8 then requestGetState p pbData d
  else if p.bRequest = Request.abort.toU8 then requestAbort p pbData d
  else (none, d)

end Handlers

/-! ## Runs -/

/-- The bootloader as it starts. -/
def powerOn (s : ρ) : Dfu ρ := { flash := { rom := s } }

/-- A class request: the setup packet, and what `dfu_buffer` holds when it is handled. -/
structure ClassRequest where
  setup : Setup
  pbData : ℕ → U8

/-- The bootloader handles a request. -/
def handle (rom : Rom ρ) (d : Dfu ρ) (r : ClassRequest) : Dfu ρ :=
  (requestHandler rom r.setup r.pbData d).2

variable {rom : Rom ρ}

/-! ## Two requests -/

theorem requestHandler_dnload {p : Setup} (h : p.bRequest = Request.dnload.toU8) (pbData : ℕ → U8)
    (d : Dfu ρ) : requestHandler rom p pbData d = requestDnload rom p pbData d := by
  unfold requestHandler
  rw [h]
  rfl

theorem requestHandler_upload {p : Setup} (h : p.bRequest = Request.upload.toU8) (pbData : ℕ → U8)
    (d : Dfu ρ) : requestHandler rom p pbData d = requestUpload rom p pbData d := by
  unfold requestHandler
  rw [h]
  rfl

/-! ## The states -/

/-- All states but the two that no request leads to. -/
def State.Assigned (st : State) : Prop := st ≠ .dfuDnbusy ∧ st ≠ .dfuManifestWaitReset

theorem Dfu.assigned_error {newStatus : Status} {d : Dfu ρ} (h : d.state.Assigned) :
    (d.error newStatus).2.state.Assigned := by
  unfold Dfu.error
  dsimp only
  split
  · simp [State.Assigned, Dfu.setState, Dfu.setStatus]
  · exact h

theorem assigned_requestHandler {p : Setup} {pbData : ℕ → U8} {d : Dfu ρ} (h : d.state.Assigned) :
    (requestHandler rom p pbData d).2.state.Assigned := by
  have hset : ∀ (st : State) (e : Dfu ρ), st.Assigned →
      ((e.setState st).accept p pbData).2.state.Assigned := fun _ _ h => h
  unfold requestHandler
  split_ifs
  · unfold requestDetach
    split
    · exact hset _ _ (by simp [State.Assigned])
    · exact Dfu.assigned_error h
  · unfold requestDnload
    dsimp only
    split_ifs
    · exact Dfu.assigned_error h
    · exact hset _ _ (by simp [State.Assigned])
    · exact Dfu.assigned_error h
    · exact hset _ _ (by simp [State.Assigned])
    · exact Dfu.assigned_error h
    · exact Dfu.assigned_error h
    · exact Dfu.assigned_error h
  · unfold requestUpload
    dsimp only
    split_ifs
    · exact Dfu.assigned_error h
    · exact hset .dfuIdle d (by simp [State.Assigned])
    · exact Dfu.assigned_error h
    · exact Dfu.assigned_error h
  · unfold requestGetStatus Dfu.polled
    split
    · dsimp only
      split
      · exact hset .dfuDnloadIdle d (by simp [State.Assigned])
      · exact hset .dfuIdle d (by simp [State.Assigned])
      · exact h
    · exact h
  · unfold requestClrStatus
    split_ifs
    · exact hset .dfuIdle d (by simp [State.Assigned])
    · exact Dfu.assigned_error h
    · exact Dfu.assigned_error h
  · unfold requestGetState
    split
    · exact h
    · exact Dfu.assigned_error h
  · unfold requestAbort
    split_ifs
    · exact hset .dfuIdle d (by simp [State.Assigned])
    · exact Dfu.assigned_error h
    · exact Dfu.assigned_error h
  · exact h

theorem assigned_run (rom : Rom ρ) (s : ρ) (rs : List ClassRequest) :
    (run (handle rom) (powerOn s) rs).state.Assigned := by
  have hstart : (powerOn s).state.Assigned := by simp [State.Assigned, powerOn]
  exact run_invariant (I := fun d : Dfu ρ => d.state.Assigned) (C := fun _ _ => True)
    (fun _ _ h _ => assigned_requestHandler h) hstart (along_of_all (fun _ _ => trivial) _ rs)

end Ubertooth.Bootloader
