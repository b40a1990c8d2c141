import Ubertooth.Host.Commands
import Ubertooth.Usb.VendorRequests

/-!
# What the host is told

The `cmd_` functions of the host over endpoint 0, after any session: those that read return what the
device holds (`reads_return`), and those that make it do something return whether it has
(`calls_return`).
-/

namespace Ubertooth.Usb

open Foundations Firmware Host

variable {ρ : Type} (build : Build) (board : Board ρ) (layout : UsbLayout)

/-- The setup packet of a function that reads. -/
def readSetup {α : Type} (c : ControlRead α) : EpInterrupt :=
  setupIn c.request.toU8 c.wValue 0 c.wLength

/-- What a function that reads returns, where the host asks `is` after its setup packet. -/
def readReturns {α : Type} (p : ControlPipe (VendorState ρ)) (is : List EpInterrupt)
    (stale : ℕ → U8) (c : ControlRead α) : Option α :=
  let p' := run (usbHandleControlTransfer (ubertoothUsbInit build board layout)) p
    (readSetup c :: is)
  c.returned stale (p'.told.drop p.told.length)

/-- A handler that says how long its reply is has it sent whole, where the host asks for as
much. -/
theorem replyOctets_replyWith (s : VendorState ρ) {octets : List U8} {wLength : U16}
    (h : octets.length ≤ wLength.toNat) (held : ℕ → U8) :
    replyOctets (s.replyWith octets) wLength held = octets := by
  have hlen : (min ((octets.length : ℤ)) wLength.toNat).toNat = octets.length := by omega
  rw [replyOctets, VendorState.replyWith, Option.getD_some, hlen]
  refine List.ext_getElem (by simp) fun i hi hi' => ?_
  rw [List.getElem_map, List.getElem_range, List.getD_eq_getElem _ _ hi']

theorem returned_map {α : Type} (c : ControlRead α) (stale : ℕ → U8) (sent : List (List U8)) :
    c.returned stale (sent.map .write) =
      (gather maxPacketSize0 c.wLength.toNat sent).map fun octets =>
        c.received octets.length fun i => octets.getD i (stale i) := by
  cases sent with
  | nil => rfl
  | cons octets sent =>
    show (gather _ _ (writes ((octets :: sent).map .write))).map _ = _
    rw [writes_map]

section Reads

variable {build board layout} {α : Type} {p : ControlPipe (VendorState ρ)} {is : List EpInterrupt}
  {c : ControlRead α} {stale : ℕ → U8}

/-- What a function returns for a reply, as soon as the host has asked often enough. -/
theorem readReturns_of_reply (hlayout : 0 < layout.abVendorReqData)
    (his : ∀ e ∈ is, e = .inn ∨ e = .out (some [])) {s : VendorState ρ} {octets : List U8}
    (hreply : ∀ data, vendorRequest build board c.request.toU8 (c.wValue, 0) data p.app =
      s.replyWith octets)
    (hlen : octets.length ≤ c.wLength.toNat) (hpos : 0 < c.wLength.toNat)
    (hneeded : needed maxPacketSize0 c.wLength.toNat octets.length ≤ is.count .inn + 1) :
    readReturns build board layout p is stale c =
      some (c.received octets.length fun i => octets.getD i (stale i)) := by
  have hhandled := (vendorIn_handled build board layout p hlayout
    ⟨ctrlIn, c.request.toU8, c.wValue, 0, c.wLength⟩ reqtypeGetType_ctrlIn reqtypeGetDir_ctrlIn
    c.request.toU8_ne his).2.1
  dsimp only at hhandled
  rw [hreply] at hhandled
  obtain ⟨htold, hgather⟩ := hhandled rfl
  rw [replyOctets_replyWith s hlen] at htold hgather
  rw [readReturns, readSetup, setupIn, htold, List.drop_left, returned_map, hgather hpos,
    if_pos hneeded]
  rfl

/-- What it returns for a request that is refused. -/
theorem readReturns_of_refused (hlayout : 0 < layout.abVendorReqData)
    (his : ∀ e ∈ is, e = .inn ∨ e = .out (some []))
    (hreply : ∀ data, vendorRequest build board c.request.toU8 (c.wValue, 0) data p.app =
      p.app.refuse) :
    readReturns build board layout p is stale c = some (c.failed libusbErrorPipe) := by
  have hhandled := (vendorIn_handled build board layout p hlayout
    ⟨ctrlIn, c.request.toU8, c.wValue, 0, c.wLength⟩ reqtypeGetType_ctrlIn reqtypeGetDir_ctrlIn
    c.request.toU8_ne his).2.2
  dsimp only at hhandled
  rw [hreply] at hhandled
  obtain ⟨later, hlater⟩ := hhandled rfl
  rw [readReturns, readSetup, setupIn, ← hlater, List.append_assoc, List.drop_left]
  rfl

/-- A reply in one packet needs no further asking. -/
theorem readReturns_of_short (hlayout : 0 < layout.abVendorReqData)
    (his : ∀ e ∈ is, e = .inn ∨ e = .out (some [])) {s : VendorState ρ} {octets : List U8}
    (hreply : ∀ data, vendorRequest build board c.request.toU8 (c.wValue, 0) data p.app =
      s.replyWith octets)
    (hlen : octets.length = c.wLength.toNat) (hpos : 0 < c.wLength.toNat)
    (hshort : c.wLength.toNat < maxPacketSize0) :
    readReturns build board layout p is stale c =
      some (c.received octets.length fun i => octets.getD i (stale i)) := by
  refine readReturns_of_reply hlayout his hreply hlen.le hpos ?_
  rw [needed_of_lt (hlen.trans_lt hshort) hpos]
  exact Nat.le_add_left 1 _

theorem readReturns_getOctet (hlayout : 0 < layout.abVendorReqData)
    (his : ∀ e ∈ is, e = .inn ∨ e = .out (some [])) {command : UsbCommand} {s : VendorState ρ}
    {b : U8} (hreply : ∀ data, vendorRequest build board command.toU8 (0, 0) data p.app =
      s.replyWith [b]) :
    readReturns build board layout p is stale (getOctet command) = some (b.toNat : ℤ) :=
  readReturns_of_short (c := getOctet command) hlayout his hreply rfl (by decide : 0 < 1)
    (by decide : 1 < 64)

theorem readReturns_flag (hlayout : 0 < layout.abVendorReqData)
    (his : ∀ e ∈ is, e = .inn ∨ e = .out (some [])) {command : UsbCommand} {s : VendorState ρ}
    {b : Bool} (hreply : ∀ data, vendorRequest build board command.toU8 (0, 0) data p.app =
      s.replyWith [if b then 1 else 0]) :
    readReturns build board layout p is stale (getOctet command) = some (if b then 1 else 0) := by
  rw [readReturns_getOctet hlayout his hreply]
  cases b <;> rfl

theorem readReturns_getWord (hlayout : 0 < layout.abVendorReqData)
    (his : ∀ e ∈ is, e = .inn ∨ e = .out (some [])) {command : UsbCommand} {s : VendorState ρ}
    {w : U32} (hreply : ∀ data, vendorRequest build board command.toU8 (0, 0) data p.app =
      s.replyWith ((List.range 4).map (octet w))) :
    readReturns build board layout p is stale (getWord command) = some w := by
  have hlen : ((List.range 4).map (octet w)).length = (getWord command).wLength.toNat := rfl
  have hpos : 0 < (getWord command).wLength.toNat := (by decide : 0 < 4)
  have hshort : (getWord command).wLength.toNat < maxPacketSize0 := (by decide : 4 < 64)
  rw [readReturns_of_short (c := getWord command) hlayout his hreply hlen hpos hshort]
  have hword := wordOfReply_eq fun i hi => getD_map_range (octet w) (stale i) hi
  exact congrArg some hword

theorem readReturns_palevel (hlayout : 0 < layout.abVendorReqData)
    (his : ∀ e ∈ is, e = .inn ∨ e = .out (some [])) :
    readReturns build board layout p is stale cmdGetPalevel =
      some (if build.txEnable then
        (((board.cc2400Get frend p.app.transceiver).1 &&& 7).toNat : ℤ) else libusbErrorPipe) := by
  have hrequest : ∀ data, vendorRequest build board UsbCommand.getPalevel.toU8 (0, 0) data p.app =
      if build.txEnable then VendorState.replyWith
        { p.app with transceiver := (board.cc2400Get frend p.app.transceiver).2 }
        [((board.cc2400Get frend p.app.transceiver).1 &&& 7).setWidth 8]
      else p.app.refuse := fun _ => rfl
  cases htx : build.txEnable with
  | false =>
    exact readReturns_of_refused hlayout his fun data => by
      rw [show cmdGetPalevel.request = .getPalevel from rfl]
      exact (hrequest data).trans (if_neg (by simp [htx]))
  | true =>
    have hlevel : (((board.cc2400Get frend p.app.transceiver).1 &&& 7).setWidth 8).toNat =
        ((board.cc2400Get frend p.app.transceiver).1 &&& 7).toNat := by
      have hle := Nat.and_le_right (n := (board.cc2400Get frend p.app.transceiver).1.toNat) (m := 7)
      rw [BitVec.toNat_setWidth, BitVec.toNat_and]
      exact Nat.mod_eq_of_lt (hle.trans_lt (by decide))
    rw [if_pos rfl, ← hlevel]
    exact readReturns_getOctet hlayout his fun data => (hrequest data).trans (if_pos htx)

theorem readReturns_channel (hlayout : 0 < layout.abVendorReqData)
    (his : ∀ e ∈ is, e = .inn ∨ e = .out (some [])) :
    readReturns build board layout p is stale cmdGetChannel =
      some (p.app.device.fw.channel.toNat : ℤ) := by
  refine (readReturns_of_short (c := cmdGetChannel) (s := p.app) hlayout his (fun _ => rfl) rfl
    (by decide : 0 < 2) (by decide : 2 < 64)).trans (congrArg some ?_)
  refine congrArg (fun w : U16 => (w.toNat : ℤ)) ?_
  rw [BitVec.or_comm]
  exact octet_pair_eq _

theorem readReturns_register (hlayout : 0 < layout.abVendorReqData)
    (his : ∀ e ∈ is, e = .inn ∨ e = .out (some [])) (reg : U8) :
    readReturns build board layout p is stale (cmdReadRegister reg) =
      some ((board.cc2400Get reg p.app.transceiver).1.toNat : ℤ) := by
  have hreg : (reg.setWidth 16).setWidth 8 = reg := by simp
  have hreply : ∀ data, vendorRequest build board UsbCommand.readRegister.toU8
      (reg.setWidth 16, 0) data p.app =
        VendorState.replyWith
          { p.app with transceiver := (board.cc2400Get reg p.app.transceiver).2 }
          [octet (board.cc2400Get reg p.app.transceiver).1 1,
            octet (board.cc2400Get reg p.app.transceiver).1 0] := fun data => by
    conv_rhs => rw [← hreg]
    rfl
  refine (readReturns_of_short (c := cmdReadRegister reg) hlayout his hreply rfl
    (by decide : 0 < 2) (by decide : 2 < 64)).trans (congrArg some ?_)
  exact congrArg (fun w : U16 => (w.toNat : ℤ)) (octet_pair_eq _)

theorem readReturns_partnum (hlayout : 0 < layout.abVendorReqData)
    (his : ∀ e ∈ is, e = .inn ∨ e = .out (some [])) :
    readReturns build board layout p is stale cmdGetPartnum =
      some (if octet (board.iapEntry 54)[0] 0 ≠ 0 then (0 : ℤ)
        else (board.iapEntry 54)[1].toInt) := by
  have hword : (wordOfReply fun i => (octet (board.iapEntry 54)[0] 0 ::
      resultOctets (board.iapEntry 54)[1]).getD (i + 1) (stale (i + 1))) =
        (board.iapEntry 54)[1] :=
    wordOfReply_eq fun i hi => getD_map_range _ (stale (i + 1)) hi
  refine (readReturns_of_short (c := cmdGetPartnum) (s := p.app) hlayout his (fun _ => rfl) rfl
    (by decide : 0 < 5) (by decide : 5 < 64)).trans (congrArg some ?_)
  exact congrArg (fun w : U32 => if octet (board.iapEntry 54)[0] 0 ≠ 0 then (0 : ℤ) else w.toInt)
    hword

theorem readReturns_rangeresult (hlayout : 0 < layout.abVendorReqData)
    (his : ∀ e ∈ is, e = .inn ∨ e = .out (some [])) :
    readReturns build board layout p is stale cmdGetRangeresult = some (0, some p.app.rr) :=
  readReturns_of_short (c := cmdGetRangeresult) (s := p.app) hlayout his (fun _ => rfl) rfl
    (by decide : 0 < 5) (by decide : 5 < 64)

/-- The words that are printed of a serial number. -/
theorem printSerial_eq {w : Fin 4 → U32} {serial : Vector U8 17}
    (h : ∀ k : Fin 4, ∀ i < 4, serial.toList.getD (1 + 4 * k.val + i) 0 = octet (w k) i) :
    printSerial serial = [w 0, w 1, w 2, w 3] := by
  rw [← wordOfReply_eq (h 0), ← wordOfReply_eq (h 1), ← wordOfReply_eq (h 2),
    ← wordOfReply_eq (h 3)]
  rfl

theorem readReturns_serial (hlayout : 0 < layout.abVendorReqData)
    (his : ∀ e ∈ is, e = .inn ∨ e = .out (some [])) :
    let result := board.iapEntry 58
    (readReturns build board layout p is stale cmdGetSerial).map
        (fun o => (o.1, o.2.map printSerial)) =
      some (if octet result[0] 0 ≠ 0 then (1 : ℤ) else 0,
        some [result[1], result[2], result[3], result[4]]) := by
  intro result
  rw [readReturns_of_short (c := cmdGetSerial) (s := p.app) hlayout his (fun _ => rfl) rfl
    (by decide : 0 < 17) (by decide : 17 < 64), Option.map_some]
  refine congrArg some (Prod.ext rfl (congrArg some ?_))
  refine printSerial_eq (w := fun k => result[k.val + 1]) fun k i hi => ?_
  have hlt : 1 + 4 * k.val + i < 17 := by omega
  rw [List.getD_eq_getElem _ _ (by simpa using hlt), Vector.getElem_toList, Vector.getElem_ofFn]
  fin_cases k <;> interval_cases i <;> rfl

theorem readReturns_revNum (hlayout : 0 < layout.abVendorReqData)
    (his : ∀ e ∈ is, e = .inn ∨ e = .out (some [])) (len : U8) (hlen : 1 ≤ len.toNat)
    (hneeded : needed maxPacketSize0 258 (getRevNum build.gitRevision).length ≤
      is.count .inn + 1) :
    ∃ after, readReturns build board layout p is stale (readRevNum len) = some after ∧
      ∀ s, HoldsString (after s)
        ((build.gitRevision.take (build.gitRevision.length % 256)).take (len.toNat - 1)) := by
  have hlength : (getRevNum build.gitRevision).length ≤ 258 :=
    length_lengthAndText build.gitRevision [0, 0] le_rfl
  refine ⟨_, readReturns_of_reply (c := readRevNum len) (s := p.app) hlayout his (fun _ => rfl)
    hlength (by decide : 0 < 258) hneeded, fun s => ?_⟩
  exact revNum_transferred stale build.gitRevision s hlen rfl

theorem readReturns_compileInfo (hlayout : 0 < layout.abVendorReqData)
    (his : ∀ e ∈ is, e = .inn ∨ e = .out (some [])) (len : U8) (hlen : 1 ≤ len.toNat)
    (hneeded : needed maxPacketSize0 256 (getCompileInfo build.compileInfo).length ≤
      is.count .inn + 1) :
    ∃ after, readReturns build board layout p is stale (readCompileInfo len) = some after ∧
      ∀ s, HoldsString (after s)
        ((build.compileInfo.take (build.compileInfo.length % 256)).take (len.toNat - 1)) := by
  have hlength : (getCompileInfo build.compileInfo).length ≤ 256 := by
    rw [getCompileInfo, List.length_cons, ← toNat_announced]
    exact (BitVec.ofNat 8 build.compileInfo.length).isLt
  refine ⟨_, readReturns_of_reply (c := readCompileInfo len) (s := p.app) hlayout his
    (fun _ => rfl) hlength (by decide : 0 < 256) hneeded, fun s => ?_⟩
  exact compileInfo_transferred stale build.compileInfo s hlen rfl

end Reads

/-! ## Functions that read -/

/-- **What the host reads is what the device holds.** After any session, and whatever the buffers of
the host held before, each `cmd_` function that reads returns the value that the device holds then,
or the error where the build refuses the request. The two replies that take several packets come as
soon as the host has asked often enough, and leave a string in the caller's buffer. -/
theorem reads_return (hlayout : 0 < layout.abVendorReqData) (p : ControlPipe (VendorState ρ))
    (es : List (SessionEvent (VendorState ρ))) {is : List EpInterrupt}
    (his : ∀ e ∈ is, e = .inn ∨ e = .out (some [])) (stale : ℕ → U8) :
    let x := run (sessionStep (ubertoothUsbInit build board layout)) p es
    let s := (run (SessionEvent.carriedOut (ubertoothUsbInit build board layout)) (deviceOf p)
      es).app
    let part := board.iapEntry 54
    let serial := board.iapEntry 58
    readReturns build board layout x is stale cmdGetUsrled =
        some (if s.pins .usrLed then 1 else 0) ∧
      readReturns build board layout x is stale cmdGetRxled =
        some (if s.pins .rxLed then 1 else 0) ∧
      readReturns build board layout x is stale cmdGetTxled =
        some (if s.pins .txLed then 1 else 0) ∧
      readReturns build board layout x is stale cmdGetModulation =
        some (s.modulation.toNat : ℤ) ∧
      readReturns build board layout x is stale cmdGetPalevel =
        some (if build.txEnable then
          (((board.cc2400Get frend s.transceiver).1 &&& 7).toNat : ℤ) else libusbErrorPipe) ∧
      readReturns build board layout x is stale cmdGetBoardId =
        some (build.boardId.toNat : ℤ) ∧
      readReturns build board layout x is stale cmdGetSquelch =
        some (s.device.fw.csThresholdReq.toNat : ℤ) ∧
      readReturns build board layout x is stale cmdGetCrcVerify =
        some (if s.device.fw.le.crcVerify then 1 else 0) ∧
      readReturns build board layout x is stale cmdGetChannel =
        some (s.device.fw.channel.toNat : ℤ) ∧
      (∀ reg, readReturns build board layout x is stale (cmdReadRegister reg) =
        some ((board.cc2400Get reg s.transceiver).1.toNat : ℤ)) ∧
      readReturns build board layout x is stale cmdGetPartnum =
        some (if octet part[0] 0 ≠ 0 then (0 : ℤ) else part[1].toInt) ∧
      (readReturns build board layout x is stale cmdGetSerial).map
          (fun o => (o.1, o.2.map printSerial)) =
        some (if octet serial[0] 0 ≠ 0 then (1 : ℤ) else 0,
          some [serial[1], serial[2], serial[3], serial[4]]) ∧
      readReturns build board layout x is stale cmdGetRangeresult = some (0, some s.rr) ∧
      readReturns build board layout x is stale (getWord .getClock) = some s.device.fw.clkn ∧
      readReturns build board layout x is stale (getWord .getAccessAddress) =
        some s.device.fw.le.accessAddress ∧
      (∀ len : U8, 1 ≤ len.toNat →
        needed maxPacketSize0 258 (getRevNum build.gitRevision).length ≤ is.count .inn + 1 →
        ∃ after, readReturns build board layout x is stale (readRevNum len) = some after ∧
          ∀ buffer, HoldsString (after buffer)
            ((build.gitRevision.take (build.gitRevision.length % 256)).take (len.toNat - 1))) ∧
      (∀ len : U8, 1 ≤ len.toNat →
        needed maxPacketSize0 256 (getCompileInfo build.compileInfo).length ≤ is.count .inn + 1 →
        ∃ after, readReturns build board layout x is stale (readCompileInfo len) = some after ∧
          ∀ buffer, HoldsString (after buffer)
            ((build.compileInfo.take (build.compileInfo.length % 256)).take (len.toNat - 1))) := by
  intro x s part serial
  have hdevice : deviceOf x = _ := deviceOf_session _ p es
  have hs : x.app = s := congrArg ControlDevice.app hdevice
  rw [← hs]
  refine ⟨?_, ?_, ?_, ?_, ?_, ?_, ?_, ?_, ?_, ?_, ?_, ?_, ?_, ?_, ?_, ?_, ?_⟩
  · exact readReturns_flag (s := x.app) hlayout his fun _ => rfl
  · exact readReturns_flag (s := x.app) hlayout his fun _ => rfl
  · exact readReturns_flag (s := x.app) hlayout his fun _ => rfl
  · exact readReturns_getOctet (s := x.app) hlayout his fun _ => rfl
  · exact readReturns_palevel hlayout his
  · exact readReturns_getOctet (s := x.app) hlayout his fun _ => rfl
  · exact readReturns_getOctet (s := x.app) hlayout his fun _ => rfl
  · exact readReturns_flag (s := x.app) hlayout his fun _ => rfl
  · exact readReturns_channel hlayout his
  · exact readReturns_register hlayout his
  · exact readReturns_partnum hlayout his
  · exact readReturns_serial hlayout his
  · exact readReturns_rangeresult hlayout his
  · exact readReturns_getWord (s := x.app) hlayout his fun _ => rfl
  · exact readReturns_getWord (s := x.app) hlayout his fun _ => rfl
  · exact readReturns_revNum hlayout his
  · exact readReturns_compileInfo hlayout his

/-- After a session, a host that reads the squelch has the one that was set, and one that reads the
revision and asks for a second packet has the whole text. -/
theorem reads_return_session :
    let build : Build := { gitRevision := List.replicate 70 0x61 }
    let x := run (sessionStep (ubertoothUsbInit build quietBoard sampleLayout)) pipeOn sampleSession
    readReturns build quietBoard sampleLayout x [.inn] (fun _ => 0xff) cmdGetSquelch =
        some (0x90 : ℤ) ∧
      ∃ after, readReturns build quietBoard sampleLayout x [.inn] (fun _ => 0xff)
          (readRevNum 255) = some after ∧
        ∀ buffer, HoldsString (after buffer) (List.replicate 70 0x61) := by
  intro build x
  obtain ⟨-, -, -, -, -, -, hsquelch, -, -, -, -, -, -, -, -, hrevision, -⟩ :=
    @reads_return Unit build quietBoard sampleLayout (by decide) pipeOn sampleSession [.inn]
      (by simp) fun _ => 0xff
  exact ⟨hsquelch.trans (by decide), hrevision 255 (by decide) (by decide +kernel)⟩

/-! ## Functions that make the device do something -/

/-- A reset is never refused. -/
theorem vendorRequest_reset (params : U16 × U16) (data : ℕ → U8) (s : VendorState ρ) :
    (vendorRequest build board UsbCommand.reset.toU8 params data s).rv = true := rfl

/-- **The host is told what the device has done.** After any session, a `cmd_` function that makes
the device do something has it done and returns 0, or is told that it was refused, and then nothing
has changed. -/
theorem calls_return (hlayout : 0 < layout.abVendorReqData) (p : ControlPipe (VendorState ρ))
    (es : List (SessionEvent (VendorState ρ))) {c : ControlCall} (hc : CmdFunction c) :
    let d := run (SessionEvent.carriedOut (ubertoothUsbInit build board layout)) (deviceOf p) es
    let x := run (sessionStep (ubertoothUsbInit build board layout)) p es
    let x' := run (usbHandleControlTransfer (ubertoothUsbInit build board layout)) x
      (transferOut c.request.toU8 c.wValue c.wIndex c.data)
    let r := vendorRequest build board c.request.toU8 (c.wValue, c.wIndex)
      (fun i => c.data.getD i (d.memory (layout.abVendorReqData + i))) d.app
    (r.rv = true ∧ x'.app = r.state ∧ c.returned (x'.told.drop x.told.length) = some 0) ∨
      (r.rv = false ∧ x'.app = d.app ∧
        c.returned (x'.told.drop x.told.length) = some libusbErrorPipe) := by
  intro d x x' r
  have hdevice : deviceOf x = d := deviceOf_session _ p es
  have hmemory : x.memory = d.memory := congrArg ControlDevice.memory hdevice
  have hxapp : x.app = d.app := congrArg ControlDevice.app hdevice
  obtain ⟨happ, htold⟩ := transferOut_handled build board layout x hlayout c.request.toU8_ne
    c.wValue c.wIndex hc.length_data
  rw [hmemory, hxapp] at happ htold
  rw [htold, List.drop_left]
  cases hrv : r.rv with
  | true => exact .inl ⟨rfl, happ, congrArg some hc.returns_answered⟩
  | false =>
    have hanswers := vendorRequest_answers build board c.request.toU8 (c.wValue, c.wIndex)
      (fun i => c.data.getD i (d.memory (layout.abVendorReqData + i))) d.app
    have hreset : c.request ≠ .reset := by
      intro hreset
      have hrv' : r.rv = true := by
        rw [show r = vendorRequest build board c.request.toU8 _ _ _ from rfl, hreset]
        exact vendorRequest_reset build board _ _ _
      exact Bool.false_ne_true (hrv.symm.trans hrv')
    exact .inr ⟨rfl, happ.trans (vendorRequest_refused hanswers hrv).1,
      congrArg some (hc.returns_refused hreset)⟩

/-- After a session, a host that starts a spectrum analysis of the whole band. -/
theorem calls_return_specan :
    let x := run (sessionStep (ubertoothUsbInit {} quietBoard sampleLayout)) pipeOn sampleSession
    let x' := run (usbHandleControlTransfer (ubertoothUsbInit {} quietBoard sampleLayout)) x
      (transferOut UsbCommand.specan.toU8 2402 2480 [])
    (cmdSpecan 2402 2480).returned (x'.told.drop x.told.length) = some 0 := by
  obtain ⟨-, -, hreturned⟩ | ⟨hrv, -⟩ := @calls_return Unit {} quietBoard sampleLayout (by decide)
    pipeOn sampleSession _ (.specan 2402 2480)
  · exact hreturned
  · exact absurd hrv (by decide)

end Ubertooth.Usb
