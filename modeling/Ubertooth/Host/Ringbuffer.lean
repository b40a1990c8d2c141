import Ubertooth.Interface

/-!
# `ubertooth_ringbuffer.c`: the packets last received

The host keeps the last ten packets, each with its symbols unpacked to one per octet. What a
callback is given is the bank added last (`topUsb_add`, `topBt_add`).
-/

namespace Ubertooth.Host

/-- `PKT_LEN`: the octets of a USB packet. -/
abbrev pktLen : ℕ := 64

/-- `SYM_LEN`: the octets of its data. -/
abbrev symLen : ℕ := 50

/-- `PKTS_PER_XFER` -/
abbrev pktsPerXfer : ℕ := 8

/-- `NUM_BANKS` -/
abbrev numBanks : ℕ := 10

/-- `XFER_LEN`: the octets a bulk transfer asks for. -/
abbrev xferLen : ℕ := pktLen * pktsPerXfer

/-- `BANK_LEN` -/
abbrev bankLen : ℕ := symLen * pktsPerXfer

/-- `ringbuffer_t`. -/
structure Ringbuffer where
  currentBank : U8
  usb : Vector UsbPktRx numBanks
  bt : Vector (Vector U8 bankLen) numBanks

/-- `unpack_symbols`: one octet for each received symbol, `0x00` or `0x01`. -/
def unpackSymbols (buf : Vector U8 symLen) : Vector U8 bankLen :=
  Vector.ofFn fun k =>
    let i : Fin symLen := ⟨k.val / 8, (Nat.div_lt_iff_lt_mul (by decide)).2 k.isLt⟩
    let j := k.val % 8
    ((buf[i] <<< j) &&& 0x80) >>> 7

/-- `ringbuffer_init`; the banks are as `malloc` left them. -/
def ringbufferInit (usb : Vector UsbPktRx numBanks) (bt : Vector (Vector U8 bankLen) numBanks) :
    Ringbuffer :=
  { currentBank := 0, usb := usb, bt := bt }

namespace Ringbuffer

/-- `(rb->current_bank+1+index) % NUM_BANKS` -/
def bank (rb : Ringbuffer) (index : U8) : Fin numBanks :=
  ⟨(rb.currentBank.toNat + 1 + index.toNat) % numBanks, Nat.mod_lt _ (by decide)⟩

/-- `ringbuffer_get_usb` -/
def getUsb (rb : Ringbuffer) (index : U8) : UsbPktRx := rb.usb[rb.bank index]

/-- `ringbuffer_top_usb` -/
def topUsb (rb : Ringbuffer) : UsbPktRx := rb.getUsb 9

/-- `ringbuffer_get_bt` -/
def getBt (rb : Ringbuffer) (index : U8) : Vector U8 bankLen := rb.bt[rb.bank index]

/-- `ringbuffer_top_bt` -/
def topBt (rb : Ringbuffer) : Vector U8 bankLen := rb.getBt 9

/-- `ringbuffer_bottom_bt` -/
def bottomBt (rb : Ringbuffer) : Vector U8 bankLen := rb.getBt 0

/-- `ringbuffer_add` -/
def add (rb : Ringbuffer) (rx : UsbPktRx) : Ringbuffer :=
  let rb := { rb with currentBank := BitVec.ofNat 8 ((rb.currentBank.toNat + 1) % numBanks) }
  let rb := { rb with usb := rb.usb.set (rb.bank 9) rx }
  { rb with bt := rb.bt.set (rb.bank 9) (unpackSymbols rb.topUsb.data) }

@[simp] theorem topUsb_add (rb : Ringbuffer) (rx : UsbPktRx) : (rb.add rx).topUsb = rx :=
  Vector.getElem_set_self _

@[simp] theorem topBt_add (rb : Ringbuffer) (rx : UsbPktRx) :
    (rb.add rx).topBt = unpackSymbols rx.data := by
  have htop : (rb.add rx).topBt = unpackSymbols (rb.add rx).topUsb.data :=
    Vector.getElem_set_self _
  rw [htop, topUsb_add]

end Ringbuffer

end Ubertooth.Host
