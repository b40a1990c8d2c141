import Ubertooth.Usb.ControlSession
import Ubertooth.Firmware.UbertoothUsb

/-!
# Vendor requests over endpoint 0

What `vendor_request_handler` promises for every command, and what the host's transfers come to with
it behind the control pipe.
-/

namespace Ubertooth.Usb

open Foundations Firmware

variable {ρ : Type} (build : Build) (board : Board ρ)

/-! ## Every command -/

/-- The ways to answer a request: refuse it, let it pass without a word about the length of the
reply, or with one and with the octets of the reply. None of them needs more than the store has. -/
inductive Answers (s : VendorState ρ) : Reply ρ → Prop
  | refused : Answers s s.refuse
  | silent (s' : VendorState ρ) : Answers s s'.accept
  | counted (s' : VendorState ρ) (n : ℕ) (h : n ≤ vendorReqSize) : Answers s (s'.acceptLen n)
  | replied (s' : VendorState ρ) (octets : List U8) (h : octets.length ≤ vendorReqSize) :
    Answers s (s'.replyWith octets)

theorem length_lengthAndText (text before : List U8) (hbefore : before.length ≤ 2) :
    (before ++ BitVec.ofNat 8 text.length :: text.take
      (BitVec.ofNat 8 text.length : U8).toNat).length ≤ vendorReqSize := by
  have hoctet := (BitVec.ofNat 8 text.length : U8).isLt
  simp only [List.length_append, List.length_cons, List.length_take]
  have hsize : vendorReqSize = 258 := rfl
  omega

theorem vendorRequest_answers (request : U8) (params : U16 × U16) (data : ℕ → U8)
    (s : VendorState ρ) : Answers s (vendorRequest build board request params data s) := by
  rw [vendorRequest]
  generalize UsbCommand.ofU8 request = c
  cases c with
  | none => exact .refused
  | some c =>
    cases c
    case poll =>
      refine .replied _ _ ?_
      split
      · rw [UsbPktRx.length_octets]
        decide
      · exact Nat.succ_le_succ (Nat.zero_le _)
    case getRevNum => exact .replied _ _ (length_lengthAndText build.gitRevision [0, 0] le_rfl)
    case getCompileInfo =>
      exact .replied _ _ (length_lengthAndText build.compileInfo [] zero_le_two)
    all_goals
      dsimp only
      first
      | exact .refused
      | exact .silent _
      | exact .counted _ _ (by decide)
      | exact .replied _ _ (by simp [resultOctets, getClock, getAccessAddress, vendorReqSize])
      | split_ifs <;> first
        | exact .refused
        | exact .silent _
        | exact .counted _ _ (by decide)
        | exact .replied _ _ (by simp [vendorReqSize])

section Commands

variable {build board} {request : U8} {params : U16 × U16} {data : ℕ → U8} {s : VendorState ρ}

/-- A request that is refused changes nothing. -/
theorem vendorRequest_refused {r : Reply ρ} (h : Answers s r) (hrv : r.rv = false) :
    r.state = s ∧ r.stored = [] ∧ r.dataLen = none := by
  cases h with
  | refused => exact ⟨rfl, rfl, rfl⟩
  | silent | counted | replied => cases hrv

theorem Answers.length_stored {r : Reply ρ} (h : Answers s r) :
    r.stored.length ≤ vendorReqSize := by
  cases h with
  | refused | silent | counted => exact Nat.zero_le _
  | replied s' octets h => exact h

theorem Answers.dataLen_le {r : Reply ρ} {n : ℤ} (h : Answers s r) (hn : r.dataLen = some n) :
    0 ≤ n ∧ n ≤ vendorReqSize := by
  cases h with
  | refused | silent => cases hn
  | counted s' len h | replied s' len h =>
    cases hn
    exact ⟨Int.natCast_nonneg _, Int.ofNat_le.2 h⟩

/-- The length of the answer, which is that of the request unless the handler sets it. -/
theorem Answers.dataLen_nonneg {r : Reply ρ} (h : Answers s r) (n : ℕ) :
    0 ≤ r.dataLen.getD n := by
  cases hn : r.dataLen with
  | none => exact Int.natCast_nonneg n
  | some len => exact (h.dataLen_le hn).1

end Commands

/-! ## What the host sends -/

/-- `CTRL_OUT` -/
abbrev ctrlOut : U8 := 0x40

/-- `CTRL_IN` -/
abbrev ctrlIn : U8 := 0xc0

/-- `libusb_control_transfer` to the device, as the interrupts that it causes there: a setup packet,
and the packets of the data. -/
def transferOut (bRequest : U8) (wValue wIndex : U16) (data : List U8) : List EpInterrupt :=
  .setup (some (SetupPacket.octets
    { bmRequestType := ctrlOut, bRequest, wValue, wIndex,
      wLength := BitVec.ofNat 16 data.length })) :: (sentBy data).map .out

/-- The setup packet of a transfer to the host. -/
def setupIn (bRequest : U8) (wValue wIndex wLength : U16) : EpInterrupt :=
  .setup (some (SetupPacket.octets { bmRequestType := ctrlIn, bRequest, wValue, wIndex, wLength }))

section Transfers

variable (layout : UsbLayout)

theorem bMsVendorIndex_ubertoothUsbInit :
    (ubertoothUsbInit build board layout).bMsVendorIndex = 0xff := rfl

/-- The request in `Setup` reaches the firmware's handler, unless it is for an OS descriptor. -/
theorem handleRequest_vendor {q : ControlPipe (VendorState ρ)}
    (htype : reqtypeGetType q.setup.bmRequestType = reqtypeTypeVendor)
    (hrequest : q.setup.bRequest ≠ 0xff) :
    handleRequest (ubertoothUsbInit build board layout) q =
      usbVendorRequestHandler build board q.setup q.iLen q.pbData q.memory q.app := by
  have hfilter : usbFilterOsVendorMessage (ubertoothUsbInit build board layout)
      q.setup q.iLen q.pbData = none := by
    rw [usbFilterOsVendorMessage, bMsVendorIndex_ubertoothUsbInit, if_neg (by decide),
      if_neg hrequest]
  rw [handleRequest, htype, if_pos rfl, hfilter]
  rfl

/-- A request for an OS descriptor changes nothing. -/
theorem app_handleRequest_os {q : ControlPipe (VendorState ρ)}
    (htype : reqtypeGetType q.setup.bmRequestType = reqtypeTypeVendor)
    (hrequest : q.setup.bRequest = 0xff) :
    (handleRequest (ubertoothUsbInit build board layout) q).app = q.app := by
  rw [handleRequest, if_pos htype]
  cases hfilter : usbFilterOsVendorMessage (ubertoothUsbInit build board layout) q.setup q.iLen
    q.pbData with
  | some => rfl
  | none =>
    rw [usbFilterOsVendorMessage, bMsVendorIndex_ubertoothUsbInit, if_neg (by decide),
      if_pos hrequest] at hfilter
    split at hfilter
    · cases hfilter
    · dsimp only at hfilter
      split_ifs at hfilter

/-- No other type of request has a handler. -/
theorem apfnReqHandlers_other {iType : ReqType} (hvendor : iType ≠ reqtypeTypeVendor)
    (hstandard : iType ≠ reqtypeTypeStandard) :
    (ubertoothUsbInit build board layout).apfnReqHandlers iType = none := by
  simp only [ubertoothUsbInit, usbRegisterRequestHandler]
  rw [Function.update_of_ne hvendor, Function.update_of_ne hstandard]

/-- The state after the setup packet of a vendor request. -/
theorem setupRequest_vendor (p : ControlPipe (VendorState ρ)) {packet : SetupPacket}
    (htype : reqtypeGetType packet.bmRequestType = reqtypeTypeVendor) :
    setupRequest (ubertoothUsbInit build board layout) p
      (some packet.octets) =
      { p with
        setup := packet
        pbData := layout.abVendorReqData
        iResidue := packet.wLength.toNat
        iLen := packet.wLength.toNat } := by
  rw [setupRequest, Option.map_some, Option.getD_some, ofOctets_setupOctets, htype]
  rfl

/-- The octets of a transfer, as the handler finds them over what the store held. -/
theorem storedAt_store {memory : ℤ → U8} {pb : ℤ} (hpb : 0 < pb) (data : List U8) :
    (fun i : ℕ => storedAt memory pb data (pb + i)) =
      fun i : ℕ => data.getD i (memory (pb + i)) := by
  funext i
  by_cases hi : i < data.length
  · rw [storedAt_of_mem hpb (by omega), show (pb + (i : ℤ) - pb).toNat = i by omega,
      List.getD_eq_getElem _ _ hi, List.getD_eq_getElem _ _ hi]
  · rw [storedAt_of_not (by omega), List.getD_eq_default _ _ (by omega)]

/-- A vendor request that sends data, up to the answer of its handler. -/
theorem vendorOut_handled (p : ControlPipe (VendorState ρ)) (hlayout : 0 < layout.abVendorReqData)
    (packet : SetupPacket) {data : List U8}
    (htype : reqtypeGetType packet.bmRequestType = reqtypeTypeVendor)
    (hdir : reqtypeGetDir packet.bmRequestType ≠ reqtypeDirToHost)
    (hrequest : packet.bRequest ≠ 0xff) (hlength : packet.wLength.toNat = data.length) :
    let r := vendorRequest build board packet.bRequest (packet.wValue, packet.wIndex)
      (fun i => data.getD i (p.memory (layout.abVendorReqData + i))) p.app
    let p' := run (usbHandleControlTransfer (ubertoothUsbInit build board layout)) p
      (.setup (some packet.octets) :: (sentBy data).map .out)
    p'.app = r.state ∧ p'.told = p.told ++ [if r.rv then .write [] else .stall] := by
  intro r p'
  obtain ⟨q, hq⟩ : ∃ q : ControlPipe (VendorState ρ), q = { p with
    setup := packet
    pbData := layout.abVendorReqData
    iResidue := packet.wLength.toNat
    iLen := packet.wLength.toNat } := ⟨_, rfl⟩
  have hqsetup := hq.trans (setupRequest_vendor build board layout p htype).symm
  have hqlength : q.setup.wLength.toNat = data.length := by rw [hq]; exact hlength
  have hhandled : handledWith (ubertoothUsbInit build board layout) q data =
      ⟨r.rv, r.dataLen.getD packet.wLength.toNat, layout.abVendorReqData,
        storedAt (storedAt p.memory layout.abVendorReqData data) layout.abVendorReqData r.stored,
        r.state⟩ := by
    rw [handledWith, handleRequest_vendor build board layout (by rw [hq]; exact htype)
      (by rw [hq]; exact hrequest), usbVendorRequestHandler, hq]
    simp only [storedAt_store hlayout]
    rfl
  rcases Nat.eq_zero_or_pos data.length with hempty | hpos
  · -- no data: the setup packet is the whole request
    obtain rfl := List.eq_nil_of_length_eq_zero hempty
    have hlen : 0 ≤ (handledWith (ubertoothUsbInit build board layout) q []).piLen := by
      rw [hhandled]
      exact (vendorRequest_answers build board _ _ _ p.app).dataLen_nonneg _
    have hp' := setup_handled (ubertoothUsbInit build board layout) hqsetup
      (h := handledWith (ubertoothUsbInit build board layout) q [])
      (by rw [handledWith, storedAt_nil]) (.inl (BitVec.eq_of_toNat_eq hqlength))
    have hresidue : min (handledWith (ubertoothUsbInit build board layout) q []).piLen
        q.setup.wLength.toNat = 0 := by
      rw [hqlength]
      exact min_eq_right hlen
    have happ : q.app = p.app ∧ q.told = p.told := by rw [hq]; exact ⟨rfl, rfl⟩
    rw [hresidue, hhandled] at hp'
    rw [show p' = usbHandleControlTransfer _ p (.setup (some packet.octets)) from rfl,
      hp', ← happ.2]
    by_cases hrv : r.rv
    · rw [if_pos hrv, if_pos hrv]
      exact ⟨rfl, rfl⟩
    · rw [if_neg hrv, if_neg hrv]
      exact ⟨rfl, rfl⟩
  · have hp' := (controlOut_delivers (ubertoothUsbInit build board layout) (sentBy data)
      hqsetup (by rintro h0; rw [h0] at hqlength; exact hpos.ne hqlength)
      (by rw [hq]; exact hdir) (by rw [hq]; exact hlayout)).1 _ List.prefix_rfl
      (by rw [validOctets_sentBy, hqlength])
    obtain ⟨k, hk, hp'⟩ := hp'
    have hvalid : (sentBy data).count none = 0 := by
      rw [List.count_eq_zero, sentBy]
      simp
    rw [hvalid, Nat.le_zero] at hk
    rw [hk, validOctets_sentBy] at hp'
    rw [show p' = _ from hp', answered, hhandled]
    refine ⟨rfl, ?_⟩
    rw [hq]
    simp

theorem reqtypeGetType_ctrlOut : reqtypeGetType ctrlOut = reqtypeTypeVendor := by decide

theorem reqtypeGetType_ctrlIn : reqtypeGetType ctrlIn = reqtypeTypeVendor := by decide

theorem reqtypeGetDir_ctrlOut : reqtypeGetDir ctrlOut ≠ reqtypeDirToHost := by decide

theorem reqtypeGetDir_ctrlIn : reqtypeGetDir ctrlIn = reqtypeDirToHost := by decide

/-- **Every command with data is carried out**, whatever the transfer before it was left in: the
handler is called with the octets that the host has sent, and the host has its answer. -/
theorem transferOut_handled (p : ControlPipe (VendorState ρ)) (hlayout : 0 < layout.abVendorReqData)
    {bRequest : U8} (hrequest : bRequest ≠ 0xff) (wValue wIndex : U16) {data : List U8}
    (hdata : data.length < 2 ^ 16) :
    let r := vendorRequest build board bRequest (wValue, wIndex)
      (fun i => data.getD i (p.memory (layout.abVendorReqData + i))) p.app
    let p' := run (usbHandleControlTransfer (ubertoothUsbInit build board layout)) p
      (transferOut bRequest wValue wIndex data)
    p'.app = r.state ∧ p'.told = p.told ++ [if r.rv then .write [] else .stall] :=
  vendorOut_handled build board layout p hlayout
    ⟨ctrlOut, bRequest, wValue, wIndex, BitVec.ofNat 16 data.length⟩
    reqtypeGetType_ctrlOut reqtypeGetDir_ctrlOut hrequest (Nat.mod_eq_of_lt hdata)

/-- The octets that go to the host: what the handler has stored over what the store held, as far as
the handler says and the host asks. -/
def replyOctets (r : Reply ρ) (wLength : U16) (held : ℕ → U8) : List U8 :=
  (List.range (min (r.dataLen.getD wLength.toNat) wLength.toNat).toNat).map
    fun i => r.stored.getD i (held i)

/-- A vendor request that asks for data, up to the packets that its reply is sent in. -/
theorem vendorIn_handled (p : ControlPipe (VendorState ρ)) (hlayout : 0 < layout.abVendorReqData)
    (packet : SetupPacket) {es : List EpInterrupt}
    (htype : reqtypeGetType packet.bmRequestType = reqtypeTypeVendor)
    (hdir : reqtypeGetDir packet.bmRequestType = reqtypeDirToHost)
    (hrequest : packet.bRequest ≠ 0xff) (hes : ∀ e ∈ es, e = .inn ∨ e = .out (some [])) :
    let held : ℕ → U8 := fun i => p.memory (layout.abVendorReqData + i)
    let r := vendorRequest build board packet.bRequest (packet.wValue, packet.wIndex) held p.app
    let reply := replyOctets r packet.wLength held
    let sent := packets maxPacketSize0 reply (es.count .inn + 1)
    let p' := run (usbHandleControlTransfer (ubertoothUsbInit build board layout)) p
      (.setup (some packet.octets) :: es)
    p'.app = r.state ∧ (r.rv = true → p'.told = p.told ++ sent.map .write ∧
      (0 < packet.wLength.toNat → gather maxPacketSize0 packet.wLength.toNat sent =
        if needed maxPacketSize0 packet.wLength.toNat reply.length ≤ es.count .inn + 1 then
          some reply
        else none)) ∧
      (r.rv = false → p.told ++ [.stall] <+: p'.told) := by
  intro held r reply sent p'
  obtain ⟨q, hq⟩ : ∃ q : ControlPipe (VendorState ρ), q = { p with
    setup := packet
    pbData := layout.abVendorReqData
    iResidue := packet.wLength.toNat
    iLen := packet.wLength.toNat } := ⟨_, rfl⟩
  have hqsetup := hq.trans (setupRequest_vendor build board layout p htype).symm
  have hsetup : q.setup = packet := by rw [hq]
  obtain ⟨h, hh⟩ : ∃ h : Handled (VendorState ρ), h = ⟨r.rv, r.dataLen.getD packet.wLength.toNat,
    layout.abVendorReqData, storedAt p.memory layout.abVendorReqData r.stored, r.state⟩ := ⟨_, rfl⟩
  have hhandled : h = handleRequest (ubertoothUsbInit build board layout) q := by
    rw [hh, handleRequest_vendor build board layout (by rw [hq]; exact htype)
      (by rw [hq]; exact hrequest), usbVendorRequestHandler, hq]
  have hlen : 0 ≤ h.piLen := by
    rw [hh]
    exact (vendorRequest_answers build board _ _ _ p.app).dataLen_nonneg _
  have hreply : octetsAt h.memory h.ppbData (min h.piLen q.setup.wLength.toNat).toNat = reply := by
    rw [hsetup, hh]
    exact List.map_congr_left fun i _ => congrFun (storedAt_store hlayout r.stored) i
  have hdir' : reqtypeGetDir q.setup.bmRequestType = reqtypeDirToHost := by rw [hsetup]; exact hdir
  by_cases hrv : r.rv = true
  · obtain ⟨htold, happ, -, hgather⟩ := controlIn_delivers
      (ubertoothUsbInit build board layout) p _ hqsetup hhandled (.inr hdir')
      (by rw [hh]; exact hrv) hlen hes
    rw [hreply, hsetup] at hgather
    rw [hreply] at htold
    exact ⟨happ.trans (by rw [hh]), fun _ => ⟨htold, hgather⟩, fun h => absurd h (by simp [hrv])⟩
  · obtain ⟨hstall, happ, -⟩ := controlIn_refused (ubertoothUsbInit build board layout) p _ hqsetup
      hhandled (.inr hdir') (by rw [hh]; exact Bool.eq_false_of_not_eq_true hrv) hes
    exact ⟨happ.trans (by rw [hh]), fun h => absurd h hrv, fun _ => hstall⟩

/-- What a request does to what the firmware keeps. -/
theorem app_request (d : ControlDevice (VendorState ρ)) (packet : SetupPacket) :
    (d.request (ubertoothUsbInit build board layout) packet).app =
      if reqtypeGetType packet.bmRequestType = reqtypeTypeVendor then
        if packet.bRequest = 0xff then d.app
        else (vendorRequest build board packet.bRequest (packet.wValue, packet.wIndex)
          (fun i => d.memory (layout.abVendorReqData + i)) d.app).state
      else if reqtypeGetType packet.bmRequestType = reqtypeTypeStandard then
        { d.app with usb := (usbHandleStandardRequest (registered build layout) packet
          packet.wLength.toNat layout.abStdReqData d.memory d.app.usb).app }
      else d.app := by
  by_cases hvendor : reqtypeGetType packet.bmRequestType = reqtypeTypeVendor
  · rw [if_pos hvendor]
    by_cases hos : packet.bRequest = 0xff
    · rw [if_pos hos]
      exact app_handleRequest_os build board layout (q := d.requested _ packet) hvendor hos
    · rw [if_neg hos, ControlDevice.request,
        handleRequest_vendor build board layout (q := d.requested _ packet) hvendor hos,
        usbVendorRequestHandler, ControlDevice.requested, hvendor]
      rfl
  · have htype : reqtypeGetType
        (d.requested (ubertoothUsbInit build board layout) packet).setup.bmRequestType ≠
        reqtypeTypeVendor := hvendor
    rw [if_neg hvendor, ControlDevice.request, handleRequest, if_neg htype, ControlDevice.requested]
    by_cases hstandard : reqtypeGetType packet.bmRequestType = reqtypeTypeStandard
    · rw [if_pos hstandard, hstandard]
      rfl
    · rw [if_neg hstandard, apfnReqHandlers_other build board layout hvendor hstandard]

/-- **Replies come out of the session.** After any session, a vendor request to the host is answered
with the reply of the handler to the device as the completed requests have left it, and the host has
it as soon as it has asked often enough. A request that the handler refuses is stalled, and then
nothing has changed. -/
theorem session_replies (hlayout : 0 < layout.abVendorReqData) (p : ControlPipe (VendorState ρ))
    (es : List (SessionEvent (VendorState ρ))) {bRequest : U8} (hrequest : bRequest ≠ 0xff)
    (wValue wIndex wLength : U16) {is : List EpInterrupt}
    (his : ∀ e ∈ is, e = .inn ∨ e = .out (some [])) :
    let d := run (SessionEvent.carriedOut (ubertoothUsbInit build board layout)) (deviceOf p) es
    let x := run (sessionStep (ubertoothUsbInit build board layout)) p es
    let x' := run (usbHandleControlTransfer (ubertoothUsbInit build board layout)) x
      (setupIn bRequest wValue wIndex wLength :: is)
    let held : ℕ → U8 := fun i => d.memory (layout.abVendorReqData + i)
    let r := vendorRequest build board bRequest (wValue, wIndex) held d.app
    let reply := replyOctets r wLength held
    (r.rv = true → x'.app = r.state ∧ ∃ sent, x'.told = x.told ++ sent.map .write ∧
      (0 < wLength.toNat → gather maxPacketSize0 wLength.toNat sent =
        if needed maxPacketSize0 wLength.toNat reply.length ≤ is.count .inn + 1 then some reply
        else none)) ∧
    (r.rv = false → x'.app = d.app ∧ x.told ++ [.stall] <+: x'.told) := by
  intro d x x' held r reply
  have hdevice : deviceOf x = d := deviceOf_session _ p es
  obtain ⟨happ, hreply, hstall⟩ := vendorIn_handled build board layout x hlayout
    ⟨ctrlIn, bRequest, wValue, wIndex, wLength⟩ reqtypeGetType_ctrlIn reqtypeGetDir_ctrlIn hrequest
    his
  have hmemory : x.memory = d.memory := congrArg ControlDevice.memory hdevice
  have hxapp : x.app = d.app := congrArg ControlDevice.app hdevice
  simp only [hmemory, hxapp] at happ hreply hstall
  have hanswers := vendorRequest_answers build board bRequest (wValue, wIndex) held d.app
  exact ⟨fun hrv => ⟨happ, _, hreply hrv⟩,
    fun hrv => ⟨happ.trans (vendorRequest_refused hanswers hrv).1, hstall hrv⟩⟩

end Transfers

/-! ## A session for examples -/

/-- A squelch is set, and an address is given up after half of its octets. -/
def sampleSession : List (SessionEvent (VendorState Unit)) :=
  [.transfer (.toDevice ⟨ctrlOut, UsbCommand.setSquelch.toU8, 0x90, 0, 0⟩ [] 1
    reqtypeGetDir_ctrlOut),
   .transfer (.toDevice ⟨ctrlOut, UsbCommand.setBdaddr.toU8, 0, 0, 16⟩
    [some (List.replicate 8 0xaa)] 0 reqtypeGetDir_ctrlOut)]

/-- After it, a host that asks for the squelch gets the one that was set. -/
theorem session_replies_getSquelch :
    let x := run (sessionStep (ubertoothUsbInit {} quietBoard sampleLayout)) pipeOn sampleSession
    let x' := run (usbHandleControlTransfer (ubertoothUsbInit {} quietBoard sampleLayout)) x
      [setupIn UsbCommand.getSquelch.toU8 0 0 1]
    ∃ sent, x'.told = x.told ++ sent.map .write ∧ gather maxPacketSize0 1 sent = some [0x90] := by
  obtain ⟨hreply, -⟩ := @session_replies Unit {} quietBoard sampleLayout (by decide) pipeOn
    sampleSession UsbCommand.getSquelch.toU8 (by decide) 0 0 1 [] (by simp)
  obtain ⟨-, sent, htold, hgather⟩ := hreply rfl
  exact ⟨sent, htold, hgather (by decide)⟩

end Ubertooth.Usb
