import Ubertooth.Firmware.ControlPipe
import Ubertooth.Foundations.LengthPrefixed

/-!
# `usbstdreq.c`: standard requests

The requests of the specification's chapter 9, on the table of descriptors that
`USBRegisterDescriptors` registers, and what they do to the USB engine (`UsbDevice`). A custom
handler is installed by no firmware of the repository and is left out.
-/

namespace Ubertooth.Firmware

open Foundations

/-! ## Endpoints -/

/-- `EP2IDX` -/
def ep2idx (bEP : U8) : Fin 32 :=
  Fin.ofNat 32 (((bEP &&& 0xf) <<< 1) ||| ((bEP &&& 0x80) >>> 7)).toNat

/-- `EP_ST` -/
abbrev epSt : U8 := 0x01

/-- What standard requests change: the configuration the device is in, and what the USB engine has
been told, by endpoint the size it was realised with and the last `CMD_EP_SET_STATUS`. -/
structure UsbDevice where
  bConfiguration : U8 := 0
  address : U8 := 0
  configured : Bool := false
  maxPSize : Fin 32 → Option U16 := fun _ => none
  epStatus : Fin 32 → U8 := fun _ => 0

namespace UsbDevice

variable (u : UsbDevice)

/-- `USBHwEPConfig` -/
def usbHwEpConfig (bEP : U8) (wMaxPacketSize : U16) : UsbDevice :=
  { u with
    maxPSize := Function.update u.maxPSize (ep2idx bEP) (some wMaxPacketSize)
    epStatus := Function.update u.epStatus (ep2idx bEP) 0 }

/-- `USBHwEPStall` -/
def usbHwEpStall (bEP : U8) (fStall : Bool) : UsbDevice :=
  { u with epStatus := Function.update u.epStatus (ep2idx bEP) (if fStall then epSt else 0) }

/-- `USBHwEPGetStatus(bEP) & EP_STATUS_STALLED` -/
def epStalled (bEP : U8) : Bool := decide (u.epStatus (ep2idx bEP) &&& epSt ≠ 0)

/-- `USBHwSetAddress` -/
def usbHwSetAddress (bAddr : U8) : UsbDevice := { u with address := 0x80 ||| bAddr }

/-- `USBHwConfigDevice` -/
def usbHwConfigDevice (fConfigured : Bool) : UsbDevice := { u with configured := fConfigured }

end UsbDevice

/-! ## Descriptors -/

/-- `DESC_CONFIGURATION` -/
abbrev descConfiguration : U8 := 2

/-- `DESC_STRING` -/
abbrev descString : U8 := 3

/-- `DESC_INTERFACE` -/
abbrev descInterface : U8 := 4

/-- `DESC_ENDPOINT` -/
abbrev descEndpoint : U8 := 5

/-- `DESC_STRING_OS` -/
abbrev descStringOs : U8 := 0xee

/-- What is registered before the first request: the table of descriptors and where it is, and the
OS string descriptor with the request that it names. -/
structure Descriptors where
  abDescriptors : List U8
  pabDescrip : ℤ
  abOsStringDescriptor : ℤ
  bMsVendorIndex : U8

/-- The table from `pab` on, for each `pab` that the loops over it come to. -/
def descriptorStops (abDescriptors : List U8) : List (List U8) :=
  stops BitVec.toNat abDescriptors.length abDescriptors

/-- `pab[offset]` -/
abbrev field (pab : List U8) (offset : ℕ) : U8 := pab.getD offset 0

/-- A word of a descriptor. -/
abbrev wordField (pab : List U8) (offset : ℕ) : U16 := field pab (offset + 1) ++ field pab offset

section Requests

variable (t : Descriptors)

/-- `*piLen` for a descriptor; a configuration is sent with all that belongs to it. -/
def descriptorLen (pab : List U8) : ℕ :=
  if field pab 1 = descConfiguration then (wordField pab 2).toNat else (field pab 0).toNat

/-- `USBGetDescriptor` -/
def usbGetDescriptor {σ : Type} (wTypeIndex : U16) (piLen ppbData : ℤ) (memory : ℤ → U8) (app : σ) :
    Handled σ :=
  let bType := octet wTypeIndex 1
  let bIndex := octet wTypeIndex 0
  if bType = descString ∧ bIndex = descStringOs then
    -- `USBGetOsStringDescriptor`: the last character is the vendor request to use
    ⟨true, 0x12, t.abOsStringDescriptor,
      Function.update memory (t.abOsStringDescriptor + 16) t.bMsVendorIndex, app⟩
  else
    match findNth (fun pab => field pab 1 == bType) bIndex.toNat 0
      (descriptorStops t.abDescriptors) with
    | some pab =>
      ⟨true, descriptorLen pab, t.pabDescrip + (t.abDescriptors.length - pab.length : ℕ), memory,
        app⟩
    | none => ⟨false, piLen, ppbData, memory, app⟩

/-- What the loop of `USBSetConfiguration` keeps. -/
structure ConfigurationWalk where
  device : UsbDevice
  bCurConfig : U8 := 0xff
  bCurAltSetting : U8 := 0xff

def setConfigurationStep (bConfigIndex bAltSetting : U8) (w : ConfigurationWalk) (pab : List U8) :
    ConfigurationWalk :=
  if field pab 1 = descConfiguration then { w with bCurConfig := field pab 5 }
  else if field pab 1 = descInterface then { w with bCurAltSetting := field pab 3 }
  else if field pab 1 = descEndpoint ∧ w.bCurConfig = bConfigIndex ∧
      w.bCurAltSetting = bAltSetting then
    { w with device := w.device.usbHwEpConfig (field pab 2) (wordField pab 4) }
  else w

/-- `USBSetConfiguration` -/
def usbSetConfiguration (bConfigIndex bAltSetting : U8) (u : UsbDevice) : UsbDevice :=
  if bConfigIndex = 0 then u.usbHwConfigDevice false
  else
    ((descriptorStops t.abDescriptors).foldl (setConfigurationStep bConfigIndex bAltSetting)
      { device := u }).device.usbHwConfigDevice true

/-! ## Requests -/

/-- `HandleStdDeviceReq` -/
def handleStdDeviceReq : RequestHandler UsbDevice := fun pSetup piLen ppbData memory u =>
  match pSetup.bRequest.toNat with
  | 0x00 => ⟨true, 2, ppbData, storedAt memory ppbData [0, 0], u⟩ -- `REQ_GET_STATUS`
  | 0x05 => -- `REQ_SET_ADDRESS`
    ⟨true, piLen, ppbData, memory, u.usbHwSetAddress (pSetup.wValue.setWidth 8)⟩
  | 0x06 => usbGetDescriptor t pSetup.wValue piLen ppbData memory u -- `REQ_GET_DESCRIPTOR`
  | 0x08 => -- `REQ_GET_CONFIGURATION`
    ⟨true, 1, ppbData, storedAt memory ppbData [u.bConfiguration], u⟩
  | 0x09 => -- `REQ_SET_CONFIGURATION`
    let bConfigIndex : U8 := pSetup.wValue.setWidth 8
    ⟨true, piLen, ppbData, memory,
      { usbSetConfiguration t bConfigIndex 0 u with bConfiguration := bConfigIndex }⟩
  | _ => ⟨false, piLen, ppbData, memory, u⟩

/-- `HandleStdInterfaceReq` -/
def handleStdInterfaceReq : RequestHandler UsbDevice := fun pSetup piLen ppbData memory u =>
  match pSetup.bRequest.toNat with
  | 0x00 => ⟨true, 2, ppbData, storedAt memory ppbData [0, 0], u⟩ -- `REQ_GET_STATUS`
  | 0x0a => ⟨true, 1, ppbData, storedAt memory ppbData [0], u⟩ -- `REQ_GET_INTERFACE`
  | 0x0b => -- `REQ_SET_INTERFACE`
    if pSetup.wValue = 0 then ⟨true, 0, ppbData, memory, u⟩
    else ⟨false, piLen, ppbData, memory, u⟩
  | _ => ⟨false, piLen, ppbData, memory, u⟩

/-- `HandleStdEndPointReq` -/
def handleStdEndPointReq : RequestHandler UsbDevice := fun pSetup piLen ppbData memory u =>
  let bEP : U8 := pSetup.wIndex.setWidth 8
  match pSetup.bRequest.toNat with
  | 0x00 => -- `REQ_GET_STATUS`
    ⟨true, 2, ppbData, storedAt memory ppbData [if u.epStalled bEP then 1 else 0, 0], u⟩
  | 0x01 => -- `REQ_CLEAR_FEATURE`, of which there is only `FEA_ENDPOINT_HALT`
    if pSetup.wValue = 0 then ⟨true, piLen, ppbData, memory, u.usbHwEpStall bEP false⟩
    else ⟨false, piLen, ppbData, memory, u⟩
  | 0x03 => -- `REQ_SET_FEATURE`
    if pSetup.wValue = 0 then ⟨true, piLen, ppbData, memory, u.usbHwEpStall bEP true⟩
    else ⟨false, piLen, ppbData, memory, u⟩
  | _ => ⟨false, piLen, ppbData, memory, u⟩

/-- `REQTYPE_GET_RECIP` -/
def reqtypeGetRecip (x : U8) : U8 := x &&& 0x1f

/-- `USBHandleStandardRequest` -/
def usbHandleStandardRequest : RequestHandler UsbDevice := fun pSetup piLen ppbData memory u =>
  match (reqtypeGetRecip pSetup.bmRequestType).toNat with
  | 0 => handleStdDeviceReq t pSetup piLen ppbData memory u
  | 1 => handleStdInterfaceReq pSetup piLen ppbData memory u
  | 2 => handleStdEndPointReq pSetup piLen ppbData memory u
  | _ => ⟨false, piLen, ppbData, memory, u⟩

end Requests

end Ubertooth.Firmware
