import Ubertooth.Firmware.VendorHandler

/-!
# `ubertooth_usb.c`: the firmware behind the control pipe

The descriptors of the device, and the stack as `ubertooth_usb_init` sets it up.
-/

namespace Ubertooth.Firmware

open Foundations

/-! ## Descriptors -/

/-- `LE_WORD` -/
def leWord (x : U16) : List U8 := [octet x 0, octet x 1]

/-- The characters of a string descriptor. -/
def characters (text : List Char) : List U8 := text.flatMap fun c => [BitVec.ofNat 8 c.toNat, 0]

/-- `BULK_IN_EP` -/
abbrev bulkInEp : U8 := 0x82

/-- `BULK_OUT_EP` -/
abbrev bulkOutEp : U8 := 0x05

/-- The descriptors in `abDescriptors`, one after another. -/
def descriptorRecords (build : Build) : List (List U8) :=
  [ -- device descriptor
    [0x12, 1] ++ leWord 0x0200 ++ [0xff, 0x00, 0x00, 64] ++ leWord build.idVendor ++
      leWord build.idProduct ++ leWord 0x0101 ++ [0x01, 0x02, 0x03, 0x01],
    -- configuration
    [0x09, descConfiguration] ++ leWord 0x20 ++ [0x01, 0x01, 0x00, 0x80, 0x6e],
    -- interface
    [0x09, descInterface, 0x00, 0x00, 0x02, 0xff, 0x00, 0x00, 0x00],
    -- bulk in
    [0x07, descEndpoint, bulkInEp, 0x02] ++ leWord 64 ++ [0],
    -- bulk out
    [0x07, descEndpoint, bulkOutEp, 0x02] ++ leWord 64 ++ [0],
    -- string descriptors
    [0x04, descString] ++ leWord 0x0409,
    [0x5c, descString] ++ characters ['h', 't', 't', 'p', ':', '/', '/', 'g', 'i', 't', 'h', 'u',
      'b', '.', 'c', 'o', 'm', '/', 'g', 'r', 'e', 'a', 't', 's', 'c', 'o', 't', 't', 'g', 'a',
      'd', 'g', 'e', 't', 's', '/', 'u', 'b', 'e', 'r', 't', 'o', 'o', 't', 'h'],
    [0x1e, descString] ++ characters ['b', 'l', 'u', 'e', 't', 'o', 'o', 't', 'h', '_', 'r', 'x',
      't', 'x'],
    [0x12, descString] ++ characters ['0', '0', '0', '0', '0', '0', '0', '1'] ]

/-- `abDescriptors` -/
def abDescriptors (build : Build) : List U8 := (descriptorRecords build).flatten ++ [0]

/-! ## The stack -/

section Stack

variable {ρ : Type} (build : Build) (board : Board ρ)

/-- `usb_vendor_request_handler` -/
def usbVendorRequestHandler : RequestHandler (VendorState ρ) :=
  fun pSetup piLen ppbData memory s =>
    let r := vendorRequest build board pSetup.bRequest (pSetup.wValue, pSetup.wIndex)
      (fun i => memory (ppbData + i)) s
    { success := r.rv
      piLen := r.dataLen.getD piLen
      ppbData := ppbData
      memory := storedAt memory ppbData r.stored
      app := r.state }

/-- Where the linker has put what the stack reads and writes. -/
structure UsbLayout where
  abStdReqData : ℤ
  abVendorReqData : ℤ
  abDescriptors : ℤ
  abOsStringDescriptor : ℤ
  abExtendedOsFeatureDescriptor : ℤ
  abExtendedPropertiesFeatureDescriptor : ℤ

/-- The octets of `abVendorReqData` -/
abbrev vendorReqSize : ℕ := 258

/-- What `ubertooth_usb_init` registers for standard requests. -/
def registered (layout : UsbLayout) : Descriptors where
  abDescriptors := abDescriptors build
  pabDescrip := layout.abDescriptors
  abOsStringDescriptor := layout.abOsStringDescriptor
  bMsVendorIndex := 0xff

/-- A handler of the requests that only change the USB engine. -/
def onUsbDevice (handler : RequestHandler UsbDevice) : RequestHandler (VendorState ρ) :=
  fun pSetup piLen ppbData memory s =>
    let h := handler pSetup piLen ppbData memory s.usb
    ⟨h.success, h.piLen, h.ppbData, h.memory, { s with usb := h.app }⟩

/-- The stack as `ubertooth_usb_init` sets it up. -/
def ubertoothUsbInit (layout : UsbLayout) : UsbStack (VendorState ρ) :=
  usbRegisterRequestHandler reqtypeTypeVendor (usbVendorRequestHandler build board)
    layout.abVendorReqData
    (usbRegisterRequestHandler reqtypeTypeStandard
      (onUsbDevice (usbHandleStandardRequest (registered build layout))) layout.abStdReqData
      { bMsVendorIndex := (registered build layout).bMsVendorIndex
        abExtendedOsFeatureDescriptor := layout.abExtendedOsFeatureDescriptor
        abExtendedPropertiesFeatureDescriptor := layout.abExtendedPropertiesFeatureDescriptor })

end Stack

/-! ## A device for examples -/

/-- A board whose transceiver and boot ROM answer zero. -/
def quietBoard : Board Unit where
  cc2400Get _ s := (0, s)
  cc2400Set _ _ s := s
  iapEntry _ := Vector.replicate 5 0

def sampleLayout : UsbLayout := ⟨0x100, 0x200, 0x400, 0x600, 0x700, 0x800⟩

/-- The control pipe before the first transfer. -/
def pipeOn : ControlPipe (VendorState Unit) where
  memory := storedAt (fun _ => 0) sampleLayout.abDescriptors (abDescriptors {})
  app := { transceiver := () }

end Ubertooth.Firmware
