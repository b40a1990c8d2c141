import Ubertooth.Usb.Enumeration
import Ubertooth.Usb.VendorRequests

/-!
# Configuration and halted endpoints

What standard requests change, over whole sessions: the configuration that the device says it is in
is the one that was set last, and an endpoint says that it is halted exactly if the last request
about it has halted it (`configuration_readBack`, `halt_readBack`).
-/

namespace Ubertooth.Usb

open Foundations Firmware

variable {ρ : Type} (build : Build) (board : Board ρ) (layout : UsbLayout)

/-- A standard request, by its recipient and its number. -/
def IsStandard (packet : SetupPacket) (recipient request : ℕ) : Prop :=
  reqtypeGetType packet.bmRequestType = reqtypeTypeStandard ∧
    (reqtypeGetRecip packet.bmRequestType).toNat = recipient ∧ packet.bRequest.toNat = request

instance (packet : SetupPacket) (recipient request : ℕ) :
    Decidable (IsStandard packet recipient request) := instDecidableAnd

/-- The configuration that a request sets. -/
def configurationWritten (packet : SetupPacket) : Option U8 :=
  if IsStandard packet 0 0x09 then some (packet.wValue.setWidth 8) else none

/-- Whether a request halts or restarts an endpoint. -/
def haltWritten (idx : Fin 32) (packet : SetupPacket) : Option Bool :=
  if IsStandard packet 2 0x01 ∧ packet.wValue = 0 ∧ ep2idx (packet.wIndex.setWidth 8) = idx then
    some false
  else if IsStandard packet 2 0x03 ∧ packet.wValue = 0 ∧
      ep2idx (packet.wIndex.setWidth 8) = idx then some true
  else if IsStandard packet 0 0x09 ∧ (packet.wValue.setWidth 8 : U8) = 1 ∧
      (ep2idx bulkInEp = idx ∨ ep2idx bulkOutEp = idx) then some false
  else none

theorem app_usbGetDescriptor {σ : Type} (t : Descriptors) (wTypeIndex : U16) (piLen ppbData : ℤ)
    (memory : ℤ → U8) (app : σ) :
    (usbGetDescriptor t wTypeIndex piLen ppbData memory app).app = app := by
  rw [usbGetDescriptor]
  split_ifs
  · rfl
  · split <;> rfl

/-- The configurations of the firmware: none, the one with the bulk endpoints, and numbers that none
has. -/
theorem usbSetConfiguration_registered (bConfigIndex : U8) (u : UsbDevice) :
    usbSetConfiguration (registered build layout) bConfigIndex 0 u =
      if bConfigIndex = 0 then u.usbHwConfigDevice false
      else if bConfigIndex = 1 then
        ((u.usbHwEpConfig bulkInEp 64).usbHwEpConfig bulkOutEp 64).usbHwConfigDevice true
      else u.usbHwConfigDevice true := by
  rw [usbSetConfiguration, show (registered build layout).abDescriptors =
    (firmwareTable build).octets from rfl, DescriptorTable.descriptorStops_octets, List.foldl_map,
    show (firmwareTable build).records = descriptorRecords build from rfl]
  by_cases hnone : bConfigIndex = 0
  · rw [if_pos hnone, if_pos hnone]
  rw [if_neg hnone, if_neg hnone]
  simp only [descriptorRecords, fromEach, List.foldl_cons, List.foldl_nil]
  by_cases hone : bConfigIndex = 1
  · rw [if_pos hone]
    simp [setConfigurationStep, leWord, hone, wordField, append_octets_pair]
  · have hone' : ¬1#8 = bConfigIndex := fun h => hone h.symm
    rw [if_neg hone]
    simp [setConfigurationStep, leWord, hone']

/-- A standard request sets the configuration, or leaves it. -/
theorem bConfiguration_standard (t : Descriptors) (packet : SetupPacket) (piLen ppbData : ℤ)
    (memory : ℤ → U8) (u : UsbDevice)
    (htype : reqtypeGetType packet.bmRequestType = reqtypeTypeStandard) :
    (usbHandleStandardRequest t packet piLen ppbData memory u).app.bConfiguration =
      (configurationWritten packet).getD u.bConfiguration := by
  rw [usbHandleStandardRequest]
  split <;> rename_i hrecip
  · rw [handleStdDeviceReq]
    split <;> rename_i hrequest
    all_goals simp [configurationWritten, IsStandard, htype, hrecip, hrequest, app_usbGetDescriptor,
      UsbDevice.usbHwSetAddress]
    rw [if_neg hrequest, Option.getD_none]
  · rw [handleStdInterfaceReq]
    split <;> simp [configurationWritten, IsStandard, hrecip, apply_ite Handled.app]
  · rw [handleStdEndPointReq]
    split
    all_goals simp [configurationWritten, IsStandard, hrecip, apply_ite Handled.app,
      apply_ite UsbDevice.bConfiguration, UsbDevice.usbHwEpStall]
  · have hdevice : (reqtypeGetRecip packet.bmRequestType).toNat ≠ 0 := by assumption
    simp [configurationWritten, IsStandard, hdevice]

/-- The engine is configured exactly if a configuration is set. -/
def Configured (u : UsbDevice) : Prop := u.configured = decide (u.bConfiguration ≠ 0)

theorem configured_standard (t : Descriptors) (packet : SetupPacket) (piLen ppbData : ℤ)
    (memory : ℤ → U8) (u : UsbDevice) (h : Configured u) :
    Configured (usbHandleStandardRequest t packet piLen ppbData memory u).app := by
  have hset : ∀ c : U8, (usbSetConfiguration t c 0 u).configured = decide (c ≠ 0) := by
    intro c
    rw [usbSetConfiguration]
    split_ifs with hnone
    · exact (decide_eq_false (not_not.2 hnone)).symm
    · exact (decide_eq_true hnone).symm
  rw [usbHandleStandardRequest]
  split
  · rw [handleStdDeviceReq]
    split
    case h_3 => rwa [app_usbGetDescriptor]
    case h_5 => exact hset _
    all_goals exact h
  · rw [handleStdInterfaceReq]
    split
    case h_3 => split_ifs <;> exact h
    all_goals exact h
  · rw [handleStdEndPointReq]
    split
    case h_2 | h_3 => split_ifs <;> exact h
    all_goals exact h
  · exact h

/-- To set the configuration restarts the endpoints that it has. -/
theorem epStatus_usbSetConfiguration (bConfigIndex : U8) (u : UsbDevice) (idx : Fin 32) :
    (usbSetConfiguration (registered build layout) bConfigIndex 0 u).epStatus idx =
      if bConfigIndex = 1 ∧ (ep2idx bulkInEp = idx ∨ ep2idx bulkOutEp = idx) then 0
      else u.epStatus idx := by
  rw [usbSetConfiguration_registered]
  by_cases hnone : bConfigIndex = 0
  · rw [if_pos hnone, if_neg fun h => absurd (hnone.symm.trans h.1) (by decide)]
    rfl
  by_cases hone : bConfigIndex = 1
  · rw [if_neg hnone, if_pos hone]
    simp only [UsbDevice.usbHwConfigDevice, UsbDevice.usbHwEpConfig, Function.update_apply, hone,
      true_and, eq_comm (a := idx)]
    split_ifs <;> first | rfl | grind
  · rw [if_neg hnone, if_neg hone, if_neg fun h => hone h.1]
    rfl

/-- A standard request halts an endpoint, restarts it, or leaves it as it is. -/
theorem epStatus_standard (packet : SetupPacket) (piLen ppbData : ℤ) (memory : ℤ → U8)
    (u : UsbDevice) (htype : reqtypeGetType packet.bmRequestType = reqtypeTypeStandard)
    (idx : Fin 32) :
    (usbHandleStandardRequest (registered build layout) packet piLen ppbData memory
        u).app.epStatus idx =
      ((haltWritten idx packet).map fun halt => if halt then epSt else 0).getD
        (u.epStatus idx) := by
  rw [usbHandleStandardRequest]
  split <;> rename_i hrecip
  · have hhalt : haltWritten idx packet = if packet.bRequest.toNat = 0x09 ∧
        (packet.wValue.setWidth 8 : U8) = 1 ∧ (ep2idx bulkInEp = idx ∨ ep2idx bulkOutEp = idx) then
        some false else none := by
      simp [haltWritten, IsStandard, htype, hrecip]
    rw [handleStdDeviceReq, hhalt]
    split <;> rename_i hrequest
    case h_5 =>
      dsimp only
      rw [epStatus_usbSetConfiguration]
      split_ifs <;> simp_all
    case h_3 => simp [app_usbGetDescriptor, hrequest]
    case h_6 =>
      rw [if_neg fun h => hrequest h.1]
      rfl
    all_goals
      rw [hrequest]
      rfl
  · rw [handleStdInterfaceReq]
    split <;> simp [haltWritten, IsStandard, hrecip, apply_ite Handled.app]
  · have hhalt : haltWritten idx packet =
        if packet.bRequest.toNat = 0x01 ∧ packet.wValue = 0 ∧
          ep2idx (packet.wIndex.setWidth 8) = idx then some false
        else if packet.bRequest.toNat = 0x03 ∧ packet.wValue = 0 ∧
          ep2idx (packet.wIndex.setWidth 8) = idx then some true
        else none := by
      simp [haltWritten, IsStandard, htype, hrecip]
    rw [handleStdEndPointReq, hhalt]
    split <;> rename_i hrequest
    case h_1 =>
      rw [hrequest]
      rfl
    case h_2 | h_3 =>
      rw [hrequest]
      by_cases hvalue : packet.wValue = 0
      · by_cases hidx : ep2idx (packet.wIndex.setWidth 8) = idx
        · simp [hvalue, hidx, UsbDevice.usbHwEpStall]
        · simp [hvalue, hidx, UsbDevice.usbHwEpStall, Function.update_of_ne (Ne.symm hidx)]
      · rw [if_neg hvalue, if_neg fun h => hvalue h.2.1, if_neg fun h => hvalue h.2.1]
        rfl
    case h_4 =>
      have hclear : packet.bRequest.toNat ≠ 1 := by assumption
      have hset : packet.bRequest.toNat ≠ 3 := by assumption
      rw [if_neg fun h => hclear h.1, if_neg fun h => hset h.1]
      rfl
  · have hdevice : (reqtypeGetRecip packet.bmRequestType).toNat ≠ 0 := by assumption
    have hendpoint : (reqtypeGetRecip packet.bmRequestType).toNat ≠ 2 := by assumption
    simp [haltWritten, IsStandard, hdevice, hendpoint]

/-! ## Sessions -/

theorem usb_vendorRequest (request : U8) (params : U16 × U16) (data : ℕ → U8) (s : VendorState ρ) :
    (vendorRequest build board request params data s).state.usb = s.usb := by
  rw [vendorRequest]
  generalize UsbCommand.ofU8 request = c
  cases c with
  | none => rfl
  | some c =>
    cases c
    all_goals first | rfl | (dsimp only; split_ifs <;> rfl)

/-- Only standard requests reach the USB engine. -/
theorem usb_request (d : ControlDevice (VendorState ρ)) (packet : SetupPacket) :
    (d.request (ubertoothUsbInit build board layout) packet).app.usb =
      if reqtypeGetType packet.bmRequestType = reqtypeTypeStandard then
        (usbHandleStandardRequest (registered build layout) packet packet.wLength.toNat
          layout.abStdReqData d.memory d.app.usb).app
      else d.app.usb := by
  rw [app_request]
  by_cases hvendor : reqtypeGetType packet.bmRequestType = reqtypeTypeVendor
  · have hstandard : reqtypeGetType packet.bmRequestType ≠ reqtypeTypeStandard := by
      rw [hvendor]
      decide
    rw [if_pos hvendor, if_neg hstandard]
    split_ifs
    · rfl
    · exact usb_vendorRequest build board _ _ _ _
  · rw [if_neg hvendor]
    split_ifs <;> rfl

/-- A standard request that is answered with octets. -/
theorem standardIn_delivers (hlayout : 0 < layout.abStdReqData) (p : ControlPipe (VendorState ρ))
    (packet : SetupPacket) (octets : List U8)
    (htype : reqtypeGetType packet.bmRequestType = reqtypeTypeStandard)
    (hdir : reqtypeGetDir packet.bmRequestType = reqtypeDirToHost)
    (hanswer : ∀ piLen memory, usbHandleStandardRequest (registered build layout) packet piLen
      layout.abStdReqData memory p.app.usb =
        ⟨true, octets.length, layout.abStdReqData, storedAt memory layout.abStdReqData octets,
          p.app.usb⟩)
    {is : List EpInterrupt} (his : ∀ e ∈ is, e = .inn ∨ e = .out (some [])) :
    let p' := run (usbHandleControlTransfer (ubertoothUsbInit build board layout)) p
      (.setup (some packet.octets) :: is)
    let reply := octets.take packet.wLength.toNat
    p'.app = p.app ∧ ∃ sent, p'.told = p.told ++ sent.map .write ∧ (0 < packet.wLength.toNat →
      gather maxPacketSize0 packet.wLength.toNat sent =
        if needed maxPacketSize0 packet.wLength.toNat reply.length ≤ is.count .inn + 1 then
          some reply
        else none) := by
  intro p' reply
  obtain ⟨q, hq⟩ : ∃ q, q = setupRequest (ubertoothUsbInit build board layout) p
    (some packet.octets) := ⟨_, rfl⟩
  have hsetup := hq.trans (setupRequest_octets _ p _)
  obtain ⟨h, hh⟩ : ∃ h, h = handleRequest (ubertoothUsbInit build board layout) q := ⟨_, rfl⟩
  have hstore : (ubertoothUsbInit build board layout).apbDataStore
      (reqtypeGetType packet.bmRequestType) = layout.abStdReqData := by rw [htype]; rfl
  have hhandled := hh.trans
    (handleRequest_standard build board layout (by rw [hsetup]; exact htype))
  rw [onUsbDevice, hsetup] at hhandled
  simp only [hstore, hanswer] at hhandled
  obtain ⟨htold, happ, -, hgather⟩ := controlIn_delivers (ubertoothUsbInit build board layout)
    p _ hq hh (.inr (by rw [hsetup]; exact hdir)) (by rw [hhandled])
    (by rw [hhandled]; exact Int.natCast_nonneg _) his
  have hreply : octetsAt h.memory h.ppbData (min h.piLen q.setup.wLength.toNat).toNat = reply := by
    rw [hhandled, hsetup]
    simp only [← Nat.cast_min, Int.toNat_natCast]
    rw [min_comm, ← take_octetsAt, octetsAt_storedAt hlayout]
  rw [hreply, hsetup] at hgather
  rw [hreply] at htold
  exact ⟨happ.trans (by rw [hhandled]), _, htold, hgather⟩

section Sessions

variable {p : ControlPipe (VendorState ρ)} {es : List (SessionEvent (VendorState ρ))}
  (helse : ∀ f, .elsewhere f ∈ es → ∀ d, (f d).app.usb = d.app.usb)

include helse

/-- The configuration after a session, and that the engine agrees with it. -/
theorem bConfiguration_session (hp : Configured p.app.usb) :
    let x := run (sessionStep (ubertoothUsbInit build board layout)) p es
    x.app.usb.bConfiguration =
      (lastWritten (SessionEvent.written configurationWritten) es).getD p.app.usb.bConfiguration ∧
    Configured x.app.usb := by
  intro x
  have hdevice : deviceOf x = _ := deviceOf_session _ p es
  have happ : x.app = _ := congrArg ControlDevice.app hdevice
  rw [happ]
  constructor
  · refine get_session _ (·.usb.bConfiguration) configurationWritten (fun d packet => ?_)
      (deviceOf p) fun f hf d => congrArg UsbDevice.bConfiguration (helse f hf d)
    show UsbDevice.bConfiguration (VendorState.usb _) = _
    rw [usb_request]
    split_ifs with hstandard
    · exact bConfiguration_standard _ packet _ _ _ _ hstandard
    · rw [configurationWritten, if_neg fun h => hstandard h.1]
      rfl
  · refine session_invariant _ (I := fun s : VendorState ρ => Configured s.usb)
      (fun d packet hd => ?_) (fun f hf d hd => ?_) hp
    · rw [usb_request]
      split_ifs
      · exact configured_standard _ packet _ _ _ _ hd
      · exact hd
    · rwa [helse f hf d]

/-- An endpoint after a session. -/
theorem epStalled_session (bEP : U8) :
    let x := run (sessionStep (ubertoothUsbInit build board layout)) p es
    x.app.usb.epStalled bEP =
      (lastWritten (SessionEvent.written (haltWritten (ep2idx bEP))) es).getD
        (p.app.usb.epStalled bEP) := by
  intro x
  have hdevice : deviceOf x = _ := deviceOf_session _ p es
  have happ : x.app = _ := congrArg ControlDevice.app hdevice
  rw [happ]
  refine get_session _ (fun s : VendorState ρ => s.usb.epStalled bEP) _ (fun d packet => ?_)
    (deviceOf p) fun f hf d => congrArg (UsbDevice.epStalled · bEP) (helse f hf d)
  rw [usb_request]
  split_ifs with hstandard
  · rw [UsbDevice.epStalled, epStatus_standard build layout packet _ _ _ _ hstandard]
    cases haltWritten (ep2idx bEP) packet with
    | none => rfl
    | some halt => cases halt <;> simp [epSt]
  · rw [haltWritten, if_neg fun h => hstandard h.1.1, if_neg fun h => hstandard h.1.1,
      if_neg fun h => hstandard h.1.1]
    rfl

end Sessions

/-- **The configuration is the last one set.** After any session, the host that asks for the
configuration is told what was set last, and the engine is configured exactly if that is not zero.
-/
theorem configuration_readBack {p : ControlPipe (VendorState ρ)}
    {es : List (SessionEvent (VendorState ρ))}
    (helse : ∀ f, .elsewhere f ∈ es → ∀ d, (f d).app.usb = d.app.usb)
    (hlayout : 0 < layout.abStdReqData) (hp : Configured p.app.usb)
    {is : List EpInterrupt} (his : ∀ e ∈ is, e = .inn ∨ e = .out (some [])) :
    let x := run (sessionStep (ubertoothUsbInit build board layout)) p es
    let x' := run (usbHandleControlTransfer (ubertoothUsbInit build board layout)) x
      (.setup (some (⟨0x80, 0x08, 0, 0, 1⟩ : SetupPacket).octets) :: is)
    let configuration := (lastWritten (SessionEvent.written configurationWritten) es).getD
      p.app.usb.bConfiguration
    (∃ sent, x'.told = x.told ++ sent.map .write ∧
      gather maxPacketSize0 1 sent = some [configuration]) ∧
      x'.app.usb.configured = decide (configuration ≠ 0) := by
  intro x x' configuration
  obtain ⟨hset, hconfigured⟩ := bConfiguration_session build board layout helse hp
  have hrecip : (reqtypeGetRecip 0x80).toNat = 0 := by decide
  obtain ⟨happ, sent, htold, hgather⟩ := standardIn_delivers build board layout hlayout x
    ⟨0x80, 0x08, 0, 0, 1⟩ [x.app.usb.bConfiguration] (by decide) (by decide)
    (fun piLen memory => by rw [usbHandleStandardRequest, hrecip]; rfl) his
  refine ⟨⟨sent, htold, (hgather Nat.one_pos).trans ((if_pos ?_).trans ?_)⟩, ?_⟩
  · show needed 64 1 1 ≤ _
    exact Nat.le_add_left 1 _
  · exact congrArg (fun c => some [c]) hset
  · rw [show x'.app = x.app from happ, hconfigured, hset]

theorem configuration_readBack_set :
    let setConfiguration : ControlTransfer := .toDevice ⟨0x00, 0x09, 1, 0, 0⟩ [] 1 (by decide)
    let x := run (sessionStep (ubertoothUsbInit {} quietBoard sampleLayout)) pipeOn
      [.transfer setConfiguration]
    let x' := run (usbHandleControlTransfer (ubertoothUsbInit {} quietBoard sampleLayout)) x
      [.setup (some (⟨0x80, 0x08, 0, 0, 1⟩ : SetupPacket).octets)]
    (∃ sent, x'.told = x.told ++ sent.map .write ∧ gather maxPacketSize0 1 sent = some [1]) ∧
      x'.app.usb.configured = true := by
  intro setConfiguration x x'
  obtain ⟨⟨sent, htold, hgather⟩, hconfigured⟩ := @configuration_readBack Unit {} quietBoard
    sampleLayout pipeOn [.transfer setConfiguration] (by simp) (by decide) rfl [] (by simp)
  exact ⟨⟨sent, htold, hgather.trans (by decide)⟩, hconfigured.trans (by decide)⟩

/-- **An endpoint is halted as it was last.** After any session, the status of a bulk endpoint tells
the host whether the last request that was about its halting has halted it. Endpoint 0 is left out:
the engine releases it with the next setup packet. -/
theorem halt_readBack {p : ControlPipe (VendorState ρ)}
    {es : List (SessionEvent (VendorState ρ))}
    (helse : ∀ f, .elsewhere f ∈ es → ∀ d, (f d).app.usb = d.app.usb)
    (hlayout : 0 < layout.abStdReqData) (inn : Bool)
    {is : List EpInterrupt} (his : ∀ e ∈ is, e = .inn ∨ e = .out (some [])) :
    let bEP := if inn then bulkInEp else bulkOutEp
    let x := run (sessionStep (ubertoothUsbInit build board layout)) p es
    let x' := run (usbHandleControlTransfer (ubertoothUsbInit build board layout)) x
      (.setup (some (⟨0x82, 0x00, 0, bEP.setWidth 16, 2⟩ : SetupPacket).octets) :: is)
    let halted := (lastWritten (SessionEvent.written (haltWritten (ep2idx bEP))) es).getD
      (p.app.usb.epStalled bEP)
    ∃ sent, x'.told = x.told ++ sent.map .write ∧
      gather maxPacketSize0 2 sent = some [if halted then 1 else 0, 0] := by
  intro bEP x x' halted
  have hhalted : x.app.usb.epStalled bEP = halted :=
    epStalled_session build board layout helse bEP
  have hrecip : (reqtypeGetRecip 0x82).toNat = 2 := by decide
  have hEP : ((bEP.setWidth 16 : U16).setWidth 8 : U8) = bEP := by simp
  obtain ⟨-, sent, htold, hgather⟩ := standardIn_delivers build board layout hlayout x
    ⟨0x82, 0x00, 0, bEP.setWidth 16, 2⟩ [if halted then 1 else 0, 0]
    (show reqtypeGetType 0x82 = reqtypeTypeStandard by decide)
    (show reqtypeGetDir 0x82 = reqtypeDirToHost by decide)
    (fun piLen memory => by
      rw [usbHandleStandardRequest, hrecip]
      simp only [handleStdEndPointReq, hEP, hhalted]
      rfl) his
  refine ⟨sent, htold, (hgather Nat.two_pos).trans (if_pos ?_)⟩
  show needed 64 2 2 ≤ _
  exact Nat.le_add_left 1 _

theorem halt_readBack_bulkIn :
    let setFeature : ControlTransfer := .toDevice ⟨0x02, 0x03, 0, 0x82, 0⟩ [] 1 (by decide)
    let x := run (sessionStep (ubertoothUsbInit {} quietBoard sampleLayout)) pipeOn
      [.transfer setFeature]
    let x' := run (usbHandleControlTransfer (ubertoothUsbInit {} quietBoard sampleLayout)) x
      [.setup (some (⟨0x82, 0x00, 0, 0x82, 2⟩ : SetupPacket).octets)]
    ∃ sent, x'.told = x.told ++ sent.map .write ∧ gather maxPacketSize0 2 sent = some [1, 0] := by
  intro setFeature x x'
  obtain ⟨sent, htold, hgather⟩ := @halt_readBack Unit {} quietBoard
    sampleLayout pipeOn [.transfer setFeature] (by simp) (by decide) true [] (by simp)
  exact ⟨sent, htold, hgather.trans (by decide)⟩

end Ubertooth.Usb
