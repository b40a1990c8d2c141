import Ubertooth.Firmware.Rxtx
import Ubertooth.Firmware.Dma
import Ubertooth.Foundations.Octets

/-!
# `bluetooth_rxtx.c`: the vendor requests

`vendor_request_handler`, as far as the requests change the state modelled here. The state grows by
the DMA, the operating modes and the channel a request asks for (`Device`). The octets of a
request's data are a function of their position in the request buffer.
-/

namespace Ubertooth.Firmware

open Foundations

/-- `enum operating_modes` -/
inductive Mode
  | idle | rxSymbols | txSymbols | txTest | specan | rangeTest | repeater | ledSpecan | btFollow
  | btFollowLe | btPromiscLe | reset | btSlaveLe | ego | afh
  deriving DecidableEq, Repr

/-- `MIN_FREQ` -/
abbrev minFreq : U16 := 2268

/-- `MAX_FREQ` -/
abbrev maxFreq : U16 := 2794

/-- The firmware with its DMA, its operating modes, and what the receive loops gather. -/
structure Device where
  fw : Fw := {}
  dma : Dma := {}
  mode : Mode := .idle
  requestedMode : Mode := .idle
  requestedChannel : U16 := 0
  savedRequest : U16 := 0
  rssiSum : U32 := 0
  /-- set by intr on P2.2 falling (CS) -/
  csTrigger : Bool := false

/-- The device at power on. -/
def deviceOn : Device := {}

/-- The requests that change the state; `requestMode` is any of those that only ask for another
mode, and `other` any that changes none of it. -/
inductive VendorRequest
  | setChannel (param : U16)
  | setSquelch (param : U16)
  | setBdaddr (data : ℕ → U8)
  | startHopping (data : ℕ → U8)
  | afh
  | hop
  | setClock (data : ℕ → U8)
  | setAfhmap (data : ℕ → U8)
  | clearAfhmap
  | trimClock (data : ℕ → U8)
  | btleSniffing
  | setAccessAddress (data : ℕ → U8)
  | setCrcVerify (param : U16)
  | poll
  | btlePromisc
  | btleSetTarget (data : ℕ → U8)
  | jamMode (param : U16)
  | requestMode (m : Mode)
  | other

/-- Octets joined to a word, the first one lowest. -/
def joinLow (n : ℕ) (data : ℕ → U8) : BitVec 64 :=
  (List.range n).foldl (fun word i => word ||| ((data i).setWidth 64 <<< (8 * i))) 0

/-- Octets joined to a word, the first one highest. -/
def joinHigh (n : ℕ) (data : ℕ → U8) : U32 :=
  (List.range n).foldl (fun word i => (word <<< 8) ||| (data i).setWidth 32) 0

/-- `UBERTOOTH_SET_CHANNEL` -/
def setChannel (param : U16) (d : Device) : Device :=
  let d :=
    if maxFreq < param then
      -- bluetooth band sweep mode, start at channel 2402
      { d with fw := { d.fw with hopMode := .sweep }, requestedChannel := 2402 }
    else
      -- fixed channel mode, can be outside bluetooth band
      { d with
        fw := { d.fw with hopMode := .none }
        requestedChannel := if minFreq < param then param else minFreq }
  if d.mode ≠ .btFollowLe then
    { d with
      fw := csThresholdCalcAndSet { d.fw with channel := d.requestedChannel }
      requestedChannel := 0 }
  else d

/-- `UBERTOOTH_START_HOPPING` -/
def startHopping (data : ℕ → U8) (d : Device) : Device :=
  { d with
    fw := { d.fw with
      clknOffset := joinHigh 4 data
      hopMode := .bluetooth
      dmaDiscard := true
      clk100nsOffset := ((data 4).setWidth 16 <<< 8) ||| (data 5).setWidth 16 }
    requestedMode := .btFollow }

/-- `UBERTOOTH_AFH` -/
def startAfh (d : Device) : Device :=
  { d with
    fw := { d.fw with
      hopMode := .afh
      hopVars := { d.fw.hopVars with
        afhMap := Vector.replicate 10 0
        usedChannels := 0
        afhEnabled := true } }
    requestedMode := .afh }

/-- `UBERTOOTH_BTLE_PROMISC` -/
def btlePromisc (s : Fw) : Fw := csThresholdCalcAndSet (queueInit { s with hopMode := .none })

/-- `vendor_request_handler` -/
def vendorRequestHandler (d : Device) : VendorRequest → Device
  | .setChannel param => setChannel param d
  | .setSquelch param =>
    { d with fw := csThresholdCalcAndSet { d.fw with csThresholdReq := param.setWidth 8 } }
  | .setBdaddr data =>
    { d with fw := { d.fw with hopVars := precalc (joinLow 8 data) d.fw.hopVars } }
  | .startHopping data => startHopping data d
  | .afh => startAfh d
  | .hop => { d with fw := { d.fw with doHop := true } }
  | .setClock data =>
    { d with fw := csThresholdCalcAndSet { d.fw with clkn := (joinLow 4 data).setWidth 32 } }
  | .setAfhmap data =>
    { d with fw := { d.fw with hopVars := { d.fw.hopVars with
      afhMap := Vector.ofFn fun i => data i
      afhEnabled := true } } }
  | .clearAfhmap =>
    { d with fw := { d.fw with hopVars := { d.fw.hopVars with
      afhMap := Vector.replicate 10 0
      afhEnabled := false } } }
  | .trimClock data =>
    { d with fw := { d.fw with
      clk100nsOffset := ((data 0).setWidth 16 <<< 8) ||| (data 1).setWidth 16 } }
  | .btleSniffing => { d with fw := btleSniffing d.fw, requestedMode := .btFollowLe }
  | .setAccessAddress data =>
    { d with fw := { d.fw with
      le := { leSetAccessAddress ((joinLow 4 data).setWidth 32) d.fw.le with targetSet := true } } }
  | .setCrcVerify param =>
    { d with fw := { d.fw with le := { d.fw.le with crcVerify := decide (param ≠ 0) } } }
  | .poll => { d with fw := (dequeuePkt d.fw).2 }
  | .btlePromisc => { d with fw := btlePromisc d.fw, requestedMode := .btPromiscLe }
  | .btleSetTarget data =>
    { d with fw := { d.fw with
      le := { d.fw.le with
        target := #v[data 5, data 4, data 3, data 2, data 1, data 0]
        targetSet := true } } }
  | .jamMode param => { d with fw := { d.fw with jamMode := param.setWidth 8 } }
  | .requestMode m => { d with requestedMode := m }
  | .other => d

/-! ## The targets, and the replies -/

/-- `le.target` after `UBERTOOTH_BTLE_SET_TARGET`: addresses are reversed in packets. -/
def leTarget (data : ℕ → U8) : Vector U8 6 :=
  #v[data 5, data 4, data 3, data 2, data 1, data 0]

/-- `bdaddr` -/
structure Bdaddr where
  address : U64 := 0
  accessCode : U64 := 0

/-- `target` after `UBERTOOTH_SET_BDADDR`, which no other request changes. -/
def targetAfter (target : Bdaddr) : VendorRequest → Bdaddr
  | .setBdaddr data =>
    { address := joinLow 8 data, accessCode := joinLow 8 fun i => data (i + 8) }
  | _ => target

/-- The reply to `UBERTOOTH_GET_CLOCK` -/
def getClock (d : Device) : List U8 := (List.range 4).map (octet d.fw.clkn)

/-- The reply to `UBERTOOTH_GET_ACCESS_ADDRESS` -/
def getAccessAddress (d : Device) : List U8 := (List.range 4).map (octet d.fw.le.accessAddress)

end Ubertooth.Firmware
