import Ubertooth.Usb.VendorRequests
import Ubertooth.Firmware.Frames

/-!
# What is set is read back

The settings that one command of the host writes and another reads, over whole sessions
(`setting_readBack`).
-/

namespace Ubertooth.Usb

open Foundations Firmware

variable {ρ : Type} (build : Build) (board : Board ρ)

/-- What the host can set and read back. -/
inductive Setting
  | pin (p : BoardPin)
  | modulation
  | squelch
  | crcVerify

namespace Setting

def setCommand : Setting → UsbCommand
  | .pin .usrLed => .setUsrled
  | .pin .rxLed => .setRxled
  | .pin .txLed => .setTxled
  | .pin .cc1v8 => .set1v8
  | .pin .paen => .setPaen
  | .pin .hgm => .setHgm
  | .modulation => .setMod
  | .squelch => .setSquelch
  | .crcVerify => .setCrcVerify

def getCommand : Setting → UsbCommand
  | .pin .usrLed => .getUsrled
  | .pin .rxLed => .getRxled
  | .pin .txLed => .getTxled
  | .pin .cc1v8 => .get1v8
  | .pin .paen => .getPaen
  | .pin .hgm => .getHgm
  | .modulation => .getMod
  | .squelch => .getSquelch
  | .crcVerify => .getCrcVerify

/-- The settings that a build has. -/
def available (build : Build) : Setting → Bool
  | .pin .paen | .pin .hgm => build.ubertoothOne
  | _ => true

/-- The octet that a request for the setting reads. -/
def read (s : VendorState ρ) : Setting → U8
  | .pin p => if s.pins p then 1 else 0
  | .modulation => s.modulation
  | .squelch => s.device.fw.csThresholdReq
  | .crcVerify => if s.device.fw.le.crcVerify then 1 else 0

/-- The octet that is read after the setting has been set to a value. -/
def encode (param : U16) : Setting → U8
  | .pin _ | .crcVerify => if param ≠ 0 then 1 else 0
  | .modulation | .squelch => param.setWidth 8

end Setting

theorem csThresholdCalcAndSet_kept (s : Fw) :
    (csThresholdCalcAndSet s).csThresholdReq = s.csThresholdReq ∧
      (csThresholdCalcAndSet s).le = s.le := by
  obtain ⟨a, b, h⟩ := csThresholdCalcAndSet_frame s
  rw [h]
  exact ⟨rfl, rfl⟩

theorem dequeuePkt_kept (s : Fw) :
    (dequeuePkt s).2.csThresholdReq = s.csThresholdReq ∧ (dequeuePkt s).2.le = s.le := by
  rw [dequeuePkt]
  split <;> exact ⟨rfl, rfl⟩

/-- Two requests write what the settings of the receiver are read from. -/
theorem vendorRequestHandler_kept (d : Device) (r : VendorRequest)
    (hsquelch : ∀ param, r ≠ .setSquelch param) (hverify : ∀ param, r ≠ .setCrcVerify param) :
    (vendorRequestHandler d r).fw.csThresholdReq = d.fw.csThresholdReq ∧
      (vendorRequestHandler d r).fw.le.crcVerify = d.fw.le.crcVerify := by
  have hle : ∀ s : Fw, (csThresholdCalcAndSet s).le.crcVerify = s.le.crcVerify := fun s => by
    rw [(csThresholdCalcAndSet_kept s).2]
  cases r with
  | setSquelch param => exact absurd rfl (hsquelch param)
  | setCrcVerify param => exact absurd rfl (hverify param)
  | setChannel param =>
    simp only [vendorRequestHandler, setChannel]
    split_ifs <;> first | exact ⟨rfl, rfl⟩ | exact ⟨(csThresholdCalcAndSet_kept _).1, hle _⟩
  | setClock data => exact ⟨(csThresholdCalcAndSet_kept _).1, hle _⟩
  | btleSniffing => exact ⟨(csThresholdCalcAndSet_kept _).1, hle _⟩
  | btlePromisc => exact ⟨(csThresholdCalcAndSet_kept _).1, hle _⟩
  | poll =>
    have hkept := dequeuePkt_kept d.fw
    exact ⟨hkept.1, congrArg LeState.crcVerify hkept.2⟩
  | _ => exact ⟨rfl, rfl⟩

/-- The pin that a command switches. -/
def pinSet (build : Build) : UsbCommand → Option BoardPin
  | .setUsrled => some .usrLed
  | .setRxled => some .rxLed
  | .setTxled => some .txLed
  | .set1v8 => some .cc1v8
  | .setPaen => if build.ubertoothOne then some .paen else none
  | .setHgm => if build.ubertoothOne then some .hgm else none
  | _ => none

section Kept

variable (c : UsbCommand) (params : U16 × U16) (data : ℕ → U8) (s : VendorState ρ)

theorem pins_vendorRequest :
    (vendorRequest build board c.toU8 params data s).state.pins =
      match pinSet build c with
      | some pin => Function.update s.pins pin (decide (params.1 ≠ 0))
      | none => s.pins := by
  rw [vendorRequest, UsbCommand.ofU8_toU8]
  cases c
  case setPaen | setHgm =>
    cases h : build.ubertoothOne <;> simp only [pinSet, h] <;> rfl
  all_goals first | rfl | (dsimp only; split_ifs <;> rfl)

theorem modulation_vendorRequest (hmod : c ≠ .setMod) :
    (vendorRequest build board c.toU8 params data s).state.modulation = s.modulation := by
  rw [vendorRequest, UsbCommand.ofU8_toU8]
  cases c
  case setMod => exact absurd rfl hmod
  all_goals first | rfl | (dsimp only; split_ifs <;> rfl)

/-- What a command does to the receiver is one of the requests modelled before. -/
theorem device_vendorRequest (hsquelch : c ≠ .setSquelch) (hverify : c ≠ .setCrcVerify) :
    ∃ r, (∀ param, r ≠ .setSquelch param) ∧ (∀ param, r ≠ .setCrcVerify param) ∧
      (vendorRequest build board c.toU8 params data s).state.device = (s.request r).device := by
  rw [vendorRequest, UsbCommand.ofU8_toU8]
  cases c
  case setSquelch => exact absurd rfl hsquelch
  case setCrcVerify => exact absurd rfl hverify
  case setChannel =>
    refine ⟨.setChannel params.1, by simp, by simp, ?_⟩
    dsimp only
    split_ifs <;> rfl
  case setBdaddr => exact ⟨.setBdaddr data, by simp, by simp, rfl⟩
  case startHopping => exact ⟨.startHopping data, by simp, by simp, rfl⟩
  case setClock => exact ⟨.setClock data, by simp, by simp, rfl⟩
  case btleSniffing => exact ⟨.btleSniffing, by simp, by simp, rfl⟩
  case btlePromisc => exact ⟨.btlePromisc, by simp, by simp, rfl⟩
  all_goals
    try dsimp only
    try split_ifs
  all_goals first
    | exact ⟨.other, by simp, by simp, rfl⟩
    | exact ⟨.requestMode _, by simp, by simp, rfl⟩
    | refine ⟨_, ?_, ?_, rfl⟩ <;> simp

end Kept

/-- What a command writes to a setting. -/
def Setting.written (build : Build) (c : UsbCommand) (param : U16) (S : Setting) : Option U8 :=
  if c = S.setCommand ∧ S.available build = true then some (S.encode param) else none

/-- A setting changes with the command that sets it, and with no other. -/
theorem Setting.read_vendorRequest (c : UsbCommand) (params : U16 × U16) (data : ℕ → U8)
    (s : VendorState ρ) (S : Setting) :
    S.read (vendorRequest build board c.toU8 params data s).state =
      (S.written build c params.1).getD (S.read s) := by
  rw [written]
  cases S with
  | pin p =>
    have hset : pinSet build c = some p ↔
        c = (pin p).setCommand ∧ (pin p).available build = true := by
      cases hone : build.ubertoothOne <;> cases c <;> cases p <;>
        simp [pinSet, setCommand, available, hone]
    by_cases hc : c = (pin p).setCommand ∧ (pin p).available build = true
    · rw [if_pos hc]
      simp only [read, encode, pins_vendorRequest, hset.2 hc, Function.update_self,
        Option.getD_some, decide_eq_true_eq]
    · have hpins : (vendorRequest build board c.toU8 params data s).state.pins p = s.pins p := by
        rw [pins_vendorRequest]
        cases hpin : pinSet build c with
        | none => rfl
        | some q =>
          have hne : p ≠ q := fun hpq => hc (hset.1 (hpq ▸ hpin))
          exact Function.update_of_ne hne _ _
      rw [if_neg hc]
      simp only [read, hpins, Option.getD_none]
  | modulation =>
    by_cases hc : c = .setMod
    · rw [hc]
      rfl
    · rw [if_neg fun h => hc h.1]
      exact modulation_vendorRequest build board c params data s hc
  | squelch =>
    by_cases hc : c = .setSquelch
    · rw [hc]
      exact (csThresholdCalcAndSet_kept _).1
    by_cases hc' : c = .setCrcVerify
    · rw [hc']
      rfl
    obtain ⟨r, hr, hr', hdevice⟩ := device_vendorRequest build board c params data s hc hc'
    rw [if_neg fun h => hc h.1]
    show (vendorRequest build board c.toU8 params data s).state.device.fw.csThresholdReq = _
    rw [hdevice]
    exact (vendorRequestHandler_kept s.device r hr hr').1
  | crcVerify =>
    by_cases hc : c = .setCrcVerify
    · rw [hc]
      show (if decide (params.1 ≠ 0) then (1 : U8) else 0) = if params.1 ≠ 0 then 1 else 0
      simp
    by_cases hc' : c = .setSquelch
    · rw [hc']
      show (if (csThresholdCalcAndSet _).le.crcVerify then (1 : U8) else 0) = _
      rw [(csThresholdCalcAndSet_kept _).2]
      rfl
    obtain ⟨r, hr, hr', hdevice⟩ := device_vendorRequest build board c params data s hc' hc
    rw [if_neg fun h => hc h.1]
    show (if (vendorRequest build board c.toU8 params data s).state.device.fw.le.crcVerify
      then (1 : U8) else 0) = _
    rw [hdevice]
    show (if (vendorRequestHandler s.device r).fw.le.crcVerify then (1 : U8) else 0) = _
    rw [(vendorRequestHandler_kept s.device r hr hr').2]
    rfl

/-- A command that reads a setting replies with it. -/
theorem Setting.getCommand_replies (params : U16 × U16) (data : ℕ → U8) (s : VendorState ρ)
    (S : Setting) (h : S.available build) :
    vendorRequest build board S.getCommand.toU8 params data s = s.replyWith [S.read s] := by
  rw [vendorRequest, UsbCommand.ofU8_toU8]
  cases S with
  | pin p =>
    cases p with
    | usrLed | rxLed | txLed | cc1v8 => rfl
    | paen | hgm => exact if_pos h
  | modulation | squelch | crcVerify => rfl

/-! ## Sessions -/

section Sessions

variable (layout : UsbLayout)

/-- What a request writes to a setting. -/
def Setting.writtenBy (packet : SetupPacket) (S : Setting) : Option U8 :=
  if reqtypeGetType packet.bmRequestType = reqtypeTypeVendor then
    (UsbCommand.ofU8 packet.bRequest).bind fun c => S.written build c packet.wValue
  else none

theorem Setting.read_request (S : Setting) (d : ControlDevice (VendorState ρ))
    (packet : SetupPacket) :
    S.read (d.request (ubertoothUsbInit build board layout) packet).app =
      (S.writtenBy build packet).getD (S.read d.app) := by
  rw [app_request, writtenBy]
  by_cases hvendor : reqtypeGetType packet.bmRequestType = reqtypeTypeVendor
  · rw [if_pos hvendor, if_pos hvendor]
    cases hcommand : UsbCommand.ofU8 packet.bRequest with
    | none =>
      have hrefused : ∀ data, vendorRequest build board packet.bRequest
          (packet.wValue, packet.wIndex) data d.app = d.app.refuse := fun data => by
        rw [vendorRequest, hcommand]
      rw [hrefused]
      split_ifs <;> rfl
    | some c =>
      rw [← UsbCommand.toU8_of_ofU8 hcommand, if_neg c.toU8_ne]
      exact S.read_vendorRequest build board c _ _ d.app
  · rw [if_neg hvendor, if_neg hvendor]
    split_ifs
    · cases S <;> rfl
    · rfl

/-- **What is set is read back.** After any session of control transfers, complete or given up,
between which the firmware leaves the setting alone, the host reads what it has set last. -/
theorem setting_readBack (hlayout : 0 < layout.abVendorReqData) (S : Setting)
    (h : S.available build = true) (p : ControlPipe (VendorState ρ))
    {es : List (SessionEvent (VendorState ρ))}
    (helse : ∀ f, .elsewhere f ∈ es → ∀ d, S.read (f d).app = S.read d.app)
    (wValue wIndex : U16) {is : List EpInterrupt} (his : ∀ e ∈ is, e = .inn ∨ e = .out (some [])) :
    let x := run (sessionStep (ubertoothUsbInit build board layout)) p es
    let x' := run (usbHandleControlTransfer (ubertoothUsbInit build board layout)) x
      (setupIn S.getCommand.toU8 wValue wIndex 1 :: is)
    ∃ sent, x'.told = x.told ++ sent.map .write ∧ gather maxPacketSize0 1 sent =
      some [(lastWritten (SessionEvent.written (S.writtenBy build)) es).getD (S.read p.app)] := by
  intro x x'
  have hdevice : deviceOf x = _ := deviceOf_session _ p es
  have hread := get_session (ubertoothUsbInit build board layout) S.read (S.writtenBy build)
    (S.read_request build board layout) (deviceOf p) helse
  rw [← hdevice] at hread
  have hrequest := (vendorIn_handled build board layout x hlayout
    ⟨ctrlIn, S.getCommand.toU8, wValue, wIndex, 1⟩ reqtypeGetType_ctrlIn reqtypeGetDir_ctrlIn
    S.getCommand.toU8_ne his).2.1
  dsimp only at hrequest
  rw [S.getCommand_replies build board (wValue, wIndex) _ x.app h] at hrequest
  obtain ⟨htold, hgather⟩ := hrequest rfl
  refine ⟨_, htold, ?_⟩
  change S.read x.app = (lastWritten _ es).getD (S.read p.app) at hread
  rw [← hread]
  refine (hgather Nat.one_pos).trans (if_pos ?_)
  show needed 64 1 1 ≤ _
  exact Nat.le_add_left 1 _

end Sessions

/-- The modulation that a host has set to 2. -/
theorem setting_readBack_modulation :
    let setMod : ControlTransfer :=
      .toDevice ⟨0x40, UsbCommand.setMod.toU8, 2, 0, 0⟩ [] 1 (by decide)
    let x := run (sessionStep (ubertoothUsbInit {} quietBoard sampleLayout)) pipeOn
      [.transfer setMod]
    let x' := run (usbHandleControlTransfer (ubertoothUsbInit {} quietBoard sampleLayout)) x
      [setupIn UsbCommand.getMod.toU8 0 0 1]
    ∃ sent, x'.told = x.told ++ sent.map .write ∧ gather maxPacketSize0 1 sent = some [2] := by
  intro setMod x x'
  obtain ⟨sent, htold, hgather⟩ := @setting_readBack Unit {} quietBoard sampleLayout (by decide)
    .modulation rfl pipeOn [.transfer setMod] (by simp) 0 0 [] (by simp)
  exact ⟨sent, htold, hgather.trans (by decide)⟩

end Ubertooth.Usb
