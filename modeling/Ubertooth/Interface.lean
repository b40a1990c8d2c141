import Mathlib

/-!
# The interface between firmware and host

The machine types, and the part of `ubertooth_interface.h` that both sides read: packet types,
status flags, hop modes and the 64-octet packet `usb_pkt_rx`. Enumerations that are only ever
assigned their own enumerators are inductive types; a value that travels in an octet keeps its
number (`UsbPktType.toU8`, `StatusFlag.mask`).
-/

namespace Ubertooth

abbrev U8 := BitVec 8
abbrev U16 := BitVec 16
abbrev U32 := BitVec 32
abbrev U64 := BitVec 64

/-- `DMA_SIZE`: the octets of one DMA block, and of the data of a USB packet. -/
abbrev dmaSize : ℕ := 50

/-- `enum hop_mode`. -/
inductive HopMode
  | none | sweep | bluetooth | btle | direct | afh
  deriving DecidableEq, Repr

/-- `enum usb_pkt_types`. -/
inductive UsbPktType
  | brPacket | lePacket | message | keepAlive | specan | lePromisc | egoPacket
  deriving DecidableEq, Repr

/-- The octet that carries a packet type. -/
def UsbPktType.toU8 : UsbPktType → U8
  | .brPacket => 0
  | .lePacket => 1
  | .message => 2
  | .keepAlive => 3
  | .specan => 4
  | .lePromisc => 5
  | .egoPacket => 6

/-- `enum usb_pkt_status`. -/
inductive StatusFlag
  | dmaOverflow | dmaError | fifoOverflow | csTrigger | rssiTrigger | discard
  deriving DecidableEq, Repr

/-- The bit of the status octet that carries a flag. -/
def StatusFlag.mask : StatusFlag → U8
  | .dmaOverflow => 0x01
  | .dmaError => 0x02
  | .fifoOverflow => 0x04
  | .csTrigger => 0x08
  | .rssiTrigger => 0x10
  | .discard => 0x20

/-- `JAM_NONE`; the host may store any octet in `jam_mode`. -/
def jamNone : U8 := 0

/-- `JAM_ONCE` -/
def jamOnce : U8 := 1

/-- `usb_pkt_rx`, a USB packet for Bluetooth RX (64 octets in all). -/
structure UsbPktRx where
  pktType : U8 := 0
  status : U8 := 0
  channel : U8 := 0
  clknHigh : U8 := 0
  clk100ns : U32 := 0
  rssiMax : U8 := 0
  rssiMin : U8 := 0
  rssiAvg : U8 := 0
  rssiCount : U8 := 0
  reserved : Vector U8 2 := Vector.replicate 2 0
  data : Vector U8 dmaSize := Vector.replicate dmaSize 0
  deriving DecidableEq, Repr

/-- Distinct flags have distinct bits, so a flag is in a union exactly when it was raised. -/
theorem StatusFlag.mask_and_mask (f g : StatusFlag) :
    f.mask &&& g.mask = if f = g then f.mask else 0 := by
  cases f <;> cases g <;> rfl

end Ubertooth
