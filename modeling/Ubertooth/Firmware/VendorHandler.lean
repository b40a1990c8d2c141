import Ubertooth.Commands
import Ubertooth.Firmware.Requests
import Ubertooth.Firmware.StandardRequests
import Ubertooth.Host.PacketOctets

/-!
# `bluetooth_rxtx.c`: `vendor_request_handler` in full

Every command with its parameters, the octets it finds in the request buffer and those it leaves
there, the length of its reply, and what it returns. What a command does to the state modelled so
far is `vendorRequestHandler`; the state grows by what only requests touch. The transceiver behind
`cc2400_get` and `cc2400_set` and the boot ROM behind `iap_entry` are parameters (`Board`).
-/

namespace Ubertooth.Firmware

open Foundations

/-- The pins that requests read and switch. -/
inductive BoardPin
  | usrLed | rxLed | txLed | cc1v8 | paen | hgm
  deriving DecidableEq, Repr

/-- `rangetest_result` -/
structure RangetestResult where
  valid : U8 := 0
  requestPa : U8 := 0
  requestNum : U8 := 0
  replyPa : U8 := 0
  replyNum : U8 := 0

/-- What is fixed when the firmware is built. -/
structure Build where
  txEnable : Bool := true
  ubertoothOne : Bool := true
  idVendor : U16 := 0x1d50
  idProduct : U16 := 0x6002
  boardId : U8 := 1
  gitRevision : List U8 := []
  compileInfo : List U8 := []

/-- What the firmware talks to: the transceiver, in states `ρ`, and the boot ROM, by its result for
a command. -/
structure Board (ρ : Type) where
  cc2400Get : U8 → ρ → U16 × ρ
  cc2400Set : U8 → U16 → ρ → ρ
  iapEntry : U32 → Vector U32 5

/-- Where the device goes when a request does not return. -/
inductive Leaving
  | isp | dfu
  deriving DecidableEq, Repr

structure VendorState (ρ : Type) where
  device : Device := {}
  target : Bdaddr := {}
  pins : BoardPin → Bool := fun _ => false
  dioSsel : Bool := false
  modulation : U8 := 0
  lowFreq : U16 := 2400
  highFreq : U16 := 2483
  rssiThreshold : U8 := -30
  egoMode : U8 := 0
  slaveMacAddress : Vector U8 6 := Vector.replicate 6 0
  rr : RangetestResult := {}
  transceiver : ρ
  leaving : Option Leaving := none
  usb : UsbDevice := {}

/-- What the handler returns, the octets it stores at `data`, `*data_len` if it sets it, and the
state it leaves. -/
structure Reply (ρ : Type) where
  rv : Bool
  stored : List U8 := []
  dataLen : Option ℤ := none
  state : VendorState ρ

/-- `FREND` -/
abbrev frend : U8 := 0x05

/-- `RSSI` -/
abbrev rssiRegister : U8 := 0x06

section Handler

variable {ρ : Type} (build : Build) (board : Board ρ)

namespace VendorState

variable (s : VendorState ρ)

/-- `return 0` -/
def refuse : Reply ρ := { rv := false, state := s }

/-- `break` without a word about `*data_len` -/
def accept : Reply ρ := { rv := true, state := s }

/-- `break` after `*data_len` has been set -/
def acceptLen (dataLen : ℕ) : Reply ρ := { rv := true, dataLen := some dataLen, state := s }

/-- `break` after octets have been stored and counted -/
def replyWith (octets : List U8) : Reply ρ :=
  { rv := true, stored := octets, dataLen := some octets.length, state := s }

/-- What the request does to the state of the receiver. -/
def request (r : VendorRequest) : VendorState ρ :=
  { s with device := vendorRequestHandler s.device r }

/-- The register write of `cs_threshold_set`, by the threshold it has stored. -/
def writeCsThreshold : VendorState ρ :=
  let val : U8 := ((s.device.fw.csThresholdCur + 56) &&& (0x3f <<< 2)) ||| 3
  { s with transceiver := board.cc2400Set rssiRegister (val.setWidth 16) s.transceiver }

/-- `UBERTOOTH_GET_USRLED` and the like -/
def getPin (pin : BoardPin) : Reply ρ := s.replyWith [if s.pins pin then 1 else 0]

/-- `UBERTOOTH_SET_USRLED` and the like -/
def setPin (pin : BoardPin) (param : U16) : Reply ρ :=
  accept { s with pins := Function.update s.pins pin (decide (param ≠ 0)) }

end VendorState

/-- The octets of a word of `iap_entry`'s result. -/
def resultOctets (result : U32) : List U8 := (List.range 4).map (octet result)

/-- `vendor_request_handler` -/
def vendorRequest (request : U8) (requestParams : U16 × U16) (data : ℕ → U8) (s : VendorState ρ) :
    Reply ρ :=
  let param := requestParams.1
  match UsbCommand.ofU8 request with
  | some .ping => s.acceptLen 0
  | some .rxSymbols => (s.request (.requestMode .rxSymbols)).acceptLen 0
  | some .getUsrled => s.getPin .usrLed
  | some .setUsrled => s.setPin .usrLed param
  | some .getRxled => s.getPin .rxLed
  | some .setRxled => s.setPin .rxLed param
  | some .getTxled => s.getPin .txLed
  | some .setTxled => s.setPin .txLed param
  | some .get1v8 => s.getPin .cc1v8
  | some .set1v8 => s.setPin .cc1v8 param
  | some .getPartnum =>
    let result := board.iapEntry 54 -- read part number
    s.replyWith (octet result[0] 0 :: resultOctets result[1])
  | some .reset => (s.request (.requestMode .reset)).accept
  | some .getSerial =>
    let result := board.iapEntry 58 -- read device serial number
    s.replyWith (octet result[0] 0 :: (resultOctets result[1] ++ resultOctets result[2] ++
      resultOctets result[3] ++ resultOctets result[4]))
  | some .getPaen => if build.ubertoothOne then s.getPin .paen else s.refuse
  | some .setPaen => if build.ubertoothOne then s.setPin .paen param else s.refuse
  | some .getHgm => if build.ubertoothOne then s.getPin .hgm else s.refuse
  | some .setHgm => if build.ubertoothOne then s.setPin .hgm param else s.refuse
  | some .txTest => if build.txEnable then (s.request (.requestMode .txTest)).accept else s.refuse
  | some .getPalevel =>
    if build.txEnable then
      let (level, transceiver) := board.cc2400Get frend s.transceiver
      VendorState.replyWith { s with transceiver := transceiver } [(level &&& 0x7).setWidth 8]
    else s.refuse
  | some .setPalevel =>
    if build.txEnable && decide (param < 8) then
      VendorState.accept { s with
        transceiver := board.cc2400Set frend (8 ||| param) s.transceiver }
    else s.refuse
  | some .rangeTest =>
    if build.txEnable then (s.request (.requestMode .rangeTest)).accept else s.refuse
  | some .repeater =>
    if build.txEnable then (s.request (.requestMode .repeater)).accept else s.refuse
  | some .rangeCheck =>
    s.replyWith [s.rr.valid, s.rr.requestPa, s.rr.requestNum, s.rr.replyPa, s.rr.replyNum]
  | some .stop => (s.request (.requestMode .idle)).accept
  | some .getMod => s.replyWith [s.modulation]
  | some .setMod => VendorState.accept { s with modulation := param.setWidth 8 }
  | some .getChannel => s.replyWith [octet s.device.fw.channel 0, octet s.device.fw.channel 1]
  | some .setChannel =>
    let s' := s.request (.setChannel param)
    -- the threshold is only calculated where the channel is set
    (if s.device.mode ≠ .btFollowLe then s'.writeCsThreshold board else s').accept
  | some .setIsp => VendorState.acceptLen { s with leaving := some .isp } 0
  | some .flash => VendorState.accept { s with leaving := some .dfu }
  | some .specan =>
    if param < 2049 ∨ 3072 < param ∨ requestParams.2 < 2049 ∨ 3072 < requestParams.2 ∨
        requestParams.2 < param then s.refuse
    else
      let s' := s.request (.requestMode .specan)
      VendorState.acceptLen { s' with lowFreq := param, highFreq := requestParams.2 } 0
  | some .ledSpecan =>
    if 256 < param then s.refuse
    else
      let s' := s.request (.requestMode .ledSpecan)
      VendorState.acceptLen { s' with rssiThreshold := param.setWidth 8 } 0
  | some .getRevNum =>
    let length : U8 := BitVec.ofNat 8 build.gitRevision.length
    s.replyWith (0 :: 0 :: length :: build.gitRevision.take length.toNat)
  | some .getCompileInfo =>
    let length : U8 := BitVec.ofNat 8 build.compileInfo.length
    s.replyWith (length :: build.compileInfo.take length.toNat)
  | some .getBoardId => s.replyWith [build.boardId]
  | some .setSquelch => ((s.request (.setSquelch param)).writeCsThreshold board).accept
  | some .getSquelch => s.replyWith [s.device.fw.csThresholdReq]
  | some .setBdaddr =>
    VendorState.accept { s.request (.setBdaddr data) with
      target := targetAfter s.target (.setBdaddr data) }
  | some .startHopping =>
    VendorState.accept { s.request (.startHopping data) with dioSsel := true }
  | some .afh => (s.request .afh).accept
  | some .hop => (s.request .hop).accept
  | some .setClock => ((s.request (.setClock data)).writeCsThreshold board).accept
  | some .setAfhmap => (s.request (.setAfhmap data)).acceptLen 10
  | some .clearAfhmap => (s.request .clearAfhmap).acceptLen 10
  | some .getClock => s.replyWith (getClock s.device)
  | some .trimClock => (s.request (.trimClock data)).accept
  | some .btleSniffing => ((s.request .btleSniffing).writeCsThreshold board).acceptLen 0
  | some .getAccessAddress => s.replyWith (getAccessAddress s.device)
  | some .setAccessAddress => (s.request (.setAccessAddress data)).accept
  | some .doSomething => s.accept
  | some .doSomethingReply => s.replyWith [0x13, 0x37]
  | some .getCrcVerify => s.replyWith [if s.device.fw.le.crcVerify then 1 else 0]
  | some .setCrcVerify => (s.request (.setCrcVerify param)).accept
  | some .poll =>
    (s.request .poll).replyWith
      (match (dequeuePkt s.device.fw).1 with
      | some p => p.octets
      | none => [0])
  | some .btlePromisc => ((s.request .btlePromisc).writeCsThreshold board).acceptLen 0
  | some .readRegister =>
    let (regVal, transceiver) := board.cc2400Get (param.setWidth 8) s.transceiver
    VendorState.replyWith { s with transceiver := transceiver } [octet regVal 1, octet regVal 0]
  | some .writeRegister =>
    VendorState.accept { s with
      transceiver := board.cc2400Set (param.setWidth 8) requestParams.2 s.transceiver }
  | some .btleSlave =>
    VendorState.accept { s.request (.requestMode .btSlaveLe) with
      slaveMacAddress := Vector.ofFn fun i => data i }
  | some .btleSetTarget => (s.request (.btleSetTarget data)).accept
  | some .jamMode => if build.txEnable then (s.request (.jamMode param)).accept else s.refuse
  | some .ego =>
    -- the guard compares the mode that is stored
    if !build.txEnable && decide (s.egoMode = 2) then s.refuse
    else VendorState.accept { s.request (.requestMode .ego) with egoMode := param.setWidth 8 }
  | some .txSymbols | some .bootloaderFlash | some .btlePhy | none => s.refuse

end Handler

end Ubertooth.Firmware
