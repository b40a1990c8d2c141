import Ubertooth.Firmware.UsbQueue
import Ubertooth.Host.PacketOctets

/-!
# `ubertooth_usb.c`: packets to the host

`dequeue_send` and `handle_usb`, up to its call of `USBHwISR`. What `USBHwEPWrite` writes to the
bulk endpoint is recorded in order; the status of its two buffers is read once, before both are
filled.
-/

namespace Ubertooth.Firmware

/-- `USB_KEEP_ALIVE` -/
abbrev usbKeepAlive : U32 := 400000

structure BulkIn where
  fw : Fw
  lastUsbPkt : U32 := 0
  written : List (List U8) := []

/-- `USBHwEPWrite(BULK_IN_EP, …)` -/
def BulkIn.write (octets : List U8) (clkn : U32) (s : BulkIn) : BulkIn :=
  { s with lastUsbPkt := clkn, written := s.written ++ [octets] }

/-- `dequeue_send`; nothing looks at what it returns. -/
def dequeueSend (clkn : U32) (s : BulkIn) : BulkIn :=
  match dequeuePkt s.fw with
  | (some pkt, fw) => BulkIn.write pkt.octets clkn { s with fw := fw }
  | (none, fw) =>
    if usbKeepAlive < clkn - s.lastUsbPkt then
      BulkIn.write [UsbPktType.keepAlive.toU8] clkn { s with fw := fw }
    else { s with fw := fw }

/-- `handle_usb`, by `EPSTAT_B1FULL` and `EPSTAT_B2FULL` -/
def handleUsb (b1Full b2Full : Bool) (clkn : U32) (s : BulkIn) : BulkIn :=
  let s := if !b1Full then dequeueSend clkn s else s
  if !b2Full then dequeueSend clkn s else s

end Ubertooth.Firmware
