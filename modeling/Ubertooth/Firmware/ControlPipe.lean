import Ubertooth.Interface
import Ubertooth.Foundations.Octets
import Ubertooth.Foundations.Runs

/-!
# `usbcontrol.c`: control transfers on endpoint 0

`USBHandleControlTransfer` and the functions it calls, on the memory of the microcontroller: the
request handlers and the stores for their data (`UsbStack`, which `USBRegisterRequestHandler` fills
while the stack is set up) are parameters, and so is what a handler keeps (`σ`). An interrupt brings
the packet that `USBHwEPRead` finds in the endpoint, `none` where the hardware marks it invalid.
-/

namespace Ubertooth.Firmware

open Foundations

/-- `MAX_PACKET_SIZE0` -/
abbrev maxPacketSize0 : ℕ := 64

/-- `TSetupPacket` -/
structure SetupPacket where
  bmRequestType : U8 := 0
  bRequest : U8 := 0
  wValue : U16 := 0
  wIndex : U16 := 0
  wLength : U16 := 0
  deriving DecidableEq, Repr

/-- The packet that eight octets are when they are read over `Setup`. -/
def SetupPacket.ofOctets (octets : Vector U8 8) : SetupPacket where
  bmRequestType := octets[0]
  bRequest := octets[1]
  wValue := octets[3] ++ octets[2]
  wIndex := octets[5] ++ octets[4]
  wLength := octets[7] ++ octets[6]

/-- A packet of the host as its octets; words are little-endian. -/
def SetupPacket.octets (s : SetupPacket) : Vector U8 8 :=
  #v[s.bmRequestType, s.bRequest, octet s.wValue 0, octet s.wValue 1, octet s.wIndex 0,
    octet s.wIndex 1, octet s.wLength 0, octet s.wLength 1]

/-- `REQTYPE_GET_DIR` -/
def reqtypeGetDir (x : U8) : U8 := (x >>> 7) &&& 0x01

/-- The types of request, from 0 -/
inductive ReqType
  | standard | classRequest | vendor | reserved
  deriving DecidableEq, Repr

/-- `REQTYPE_GET_TYPE` -/
def reqtypeGetType (x : U8) : ReqType :=
  match ((x >>> 5) &&& 0x03).toNat with
  | 0 => .standard
  | 1 => .classRequest
  | 2 => .vendor
  | _ => .reserved

/-- `REQTYPE_DIR_TO_HOST` -/
abbrev reqtypeDirToHost : U8 := 1

/-- `REQTYPE_TYPE_STANDARD` -/
abbrev reqtypeTypeStandard : ReqType := .standard

/-- `REQTYPE_TYPE_VENDOR` -/
abbrev reqtypeTypeVendor : ReqType := .vendor

/-! ## Requests -/

/-- What a request handler leaves: what it returns, `*piLen` and `*ppbData`, the memory, and what
else it keeps. -/
structure Handled (σ : Type) where
  success : Bool
  piLen : ℤ
  ppbData : ℤ
  memory : ℤ → U8
  app : σ

/-- `TFnHandleRequest` -/
abbrev RequestHandler (σ : Type) : Type := SetupPacket → ℤ → ℤ → (ℤ → U8) → σ → Handled σ

/-- What is set up before the first request: the handlers and their stores, by type of request, and
what `USBRegisterWinusbInterface` sets, with the addresses of the descriptors. -/
structure UsbStack (σ : Type) where
  apfnReqHandlers : ReqType → Option (RequestHandler σ) := fun _ => none
  apbDataStore : ReqType → ℤ := fun _ => 0
  bMsVendorIndex : U8 := 0
  abExtendedOsFeatureDescriptor : ℤ := 0
  abExtendedPropertiesFeatureDescriptor : ℤ := 0

/-- What endpoint 0 is told: to send a packet, or to stall. -/
inductive EpCommand
  | write (octets : List U8)
  | stall
  deriving DecidableEq, Repr

/-- The state of a control transfer, with the memory, and what endpoint 0 was told so far. -/
structure ControlPipe (σ : Type) where
  setup : SetupPacket := {}
  pbData : ℤ := 0
  iResidue : ℤ := 0
  iLen : ℤ := 0
  memory : ℤ → U8
  app : σ
  told : List EpCommand := []

/-- `USBRegisterRequestHandler` -/
def usbRegisterRequestHandler {σ : Type} (iType : ReqType) (pfnHandler : RequestHandler σ)
    (pbDataStore : ℤ) (stack : UsbStack σ) : UsbStack σ :=
  { stack with
    apfnReqHandlers := Function.update stack.apfnReqHandlers iType (some pfnHandler)
    apbDataStore := Function.update stack.apbDataStore iType pbDataStore }

variable {σ : Type} (stack : UsbStack σ)

/-- The OS descriptor that `USBFilterOsVendorMessage` selects, with its size. -/
def osDescriptor (wIndex : U16) : Option (ℤ × ℤ) :=
  if wIndex = 4 then some (stack.abExtendedOsFeatureDescriptor, 0x28)
  else if wIndex = 5 then some (stack.abExtendedPropertiesFeatureDescriptor, 0x92)
  else none

/-- `USBFilterOsVendorMessage`: `none` where it leaves the request to the handler, else its status
with `*piLen` and `*ppbData`. -/
def usbFilterOsVendorMessage (pSetup : SetupPacket) (piLen ppbData : ℤ) :
    Option (Bool × ℤ × ℤ) :=
  if stack.bMsVendorIndex = 0 then none
  else if pSetup.bRequest = stack.bMsVendorIndex then
    match osDescriptor stack pSetup.wIndex with
    | none => some (false, piLen, ppbData)
    | some (data, len) =>
      let iPageOffset : ℤ := (pSetup.wValue >>> 8).toNat * 0x10000
      if len < iPageOffset then some (false, len, data)
      else some (true, min (len - iPageOffset) pSetup.wLength.toNat, data + iPageOffset)
  else none

/-- `_HandleRequest`, for the request in `Setup` -/
def handleRequest (p : ControlPipe σ) : Handled σ :=
  let iType := reqtypeGetType p.setup.bmRequestType
  let refused : Handled σ := ⟨false, p.iLen, p.pbData, p.memory, p.app⟩
  let handled :=
    match stack.apfnReqHandlers iType with
    | none => refused
    | some pfnHandler => pfnHandler p.setup p.iLen p.pbData p.memory p.app
  if iType = reqtypeTypeVendor then
    match usbFilterOsVendorMessage stack p.setup p.iLen p.pbData with
    | some (fFilterStatus, piLen, ppbData) => ⟨fFilterStatus, piLen, ppbData, p.memory, p.app⟩
    | none => handled
  else handled

/-! ## Packets -/

/-- The memory with octets stored from an address on; none are stored at `NULL`. -/
def storedAt (memory : ℤ → U8) (pb : ℤ) (octets : List U8) : ℤ → U8 :=
  if pb = 0 then memory
  else fun a => if pb ≤ a ∧ a < pb + octets.length then octets.getD (a - pb).toNat 0 else memory a

/-- `USBHwEPRead`: what it returns, and the memory after it. Octets past `iMaxLen` are counted and
not stored. -/
def usbHwEpRead (packet : Option (List U8)) (pbBuf : ℤ) (iMaxLen : ℕ) (memory : ℤ → U8) :
    ℤ × (ℤ → U8) :=
  match packet with
  | none => (-1, memory)
  | some octets => (octets.length, storedAt memory pbBuf (octets.take iMaxLen))

/-- The octets from an address on. -/
def octetsAt (memory : ℤ → U8) (pb : ℤ) (len : ℕ) : List U8 :=
  (List.range len).map fun i : ℕ => memory (pb + i)

/-- `StallControlPipe` -/
def stallControlPipe (p : ControlPipe σ) : ControlPipe σ := { p with told := p.told ++ [.stall] }

/-- `DataIn`; `USBHwEPWrite` takes the length as an unsigned number. -/
def dataIn (p : ControlPipe σ) : ControlPipe σ :=
  let iChunk := min (maxPacketSize0 : ℤ) p.iResidue
  { p with
    told := p.told ++ [.write (octetsAt p.memory p.pbData (BitVec.ofInt 32 iChunk).toNat)]
    pbData := p.pbData + iChunk
    iResidue := p.iResidue - iChunk }

/-- `_HandleRequest(&Setup, &iLen, &pbData)` -/
def requestHandled (p : ControlPipe σ) : ControlPipe σ :=
  let h := handleRequest stack p
  { p with iLen := h.piLen, pbData := h.ppbData, memory := h.memory, app := h.app }

/-- The interrupts that call `USBHandleControlTransfer`: for endpoint 0x00 with `EP_STATUS_SETUP`
and without, and for endpoint 0x80. -/
inductive EpInterrupt
  | setup (packet : Option (Vector U8 8))
  | out (packet : Option (List U8))
  | inn
  deriving DecidableEq

/-- A setup packet resets the request message state machine. -/
def setupRequest (p : ControlPipe σ) (packet : Option (Vector U8 8)) : ControlPipe σ :=
  -- an invalid packet leaves the one before it in `Setup`
  let setup := (packet.map SetupPacket.ofOctets).getD p.setup
  { p with
    setup := setup
    pbData := stack.apbDataStore (reqtypeGetType setup.bmRequestType)
    iResidue := setup.wLength.toNat
    iLen := setup.wLength.toNat }

/-- What is done with data from the host, `iChunk` octets that are in memory: once all are received,
they are sent to the handler. -/
def storeData (p : ControlPipe σ) (iChunk : ℤ) (memory : ℤ → U8) : ControlPipe σ :=
  if iChunk < 0 then stallControlPipe p
  else
    let p := { p with
      memory := memory, pbData := p.pbData + iChunk, iResidue := p.iResidue - iChunk }
    if p.iResidue = 0 then
      let p := { p with pbData := stack.apbDataStore (reqtypeGetType p.setup.bmRequestType) }
      let success := (handleRequest stack p).success
      let p := requestHandled stack p
      -- send status to host
      if success then dataIn p else stallControlPipe p
    else p

/-- `USBHandleControlTransfer` -/
def usbHandleControlTransfer (p : ControlPipe σ) : EpInterrupt → ControlPipe σ
  | .setup packet =>
    let p := setupRequest stack p packet
    if p.setup.wLength = 0 ∨ reqtypeGetDir p.setup.bmRequestType = reqtypeDirToHost then
      let success := (handleRequest stack p).success
      let p := requestHandled stack p
      if success then
        -- send smallest of requested and offered length
        dataIn { p with iResidue := min p.iLen p.setup.wLength.toNat }
      else stallControlPipe p
    else p
  | .out packet =>
    if 0 < p.iResidue then
      let read := usbHwEpRead packet p.pbData p.iResidue.toNat p.memory
      storeData stack p read.1 read.2
    else p -- absorb zero-length status message
  | .inn => dataIn p

end Ubertooth.Firmware
