import Ubertooth.Host.Ringbuffer

/-!
# `ubertooth.c`: streaming from the device

libusb fills one of two buffers while `ubertooth_bulk_receive` hands the packets of the other one
to a callback; `cb_xfer`, which libusb calls when a transfer ends, swaps them. The buffers are
locals of `ubertooth_bulk_init`, read and written through pointers after it has returned; here
their storage outlives it, and nothing but libusb writes to it. Only the first `XFER_LEN` octets of
a buffer are ever used.

Of `ubertooth_t` the fields streaming reads or writes are here. A callback reads the ring buffer,
may set `stop_ubertooth`, and may change whatever else it works on (`args`).
-/

namespace Ubertooth.Host

/-- The buffers of `ubertooth_bulk_init`. -/
inductive RxBuf
  | rxBuf1 | rxBuf2
  deriving DecidableEq

/-- The octets of a buffer, by their offset. -/
abbrev Buffer := Fin xferLen → U8

/-- `enum libusb_transfer_status`. -/
inductive TransferStatus
  | completed | error | timedOut | cancelled | stall | noDevice | overflow
  deriving DecidableEq

/-- The transfer: where libusb writes, and whether it has been submitted. -/
structure Transfer where
  buffer : RxBuf
  submitted : Bool

/-- `rx_callback`: whether it sets `stop_ubertooth`, and what it makes of its own data. -/
abbrev RxCallback (σ : Type*) := Ringbuffer → σ → Bool × σ

/-- `ubertooth_t`, the memory of the buffers, and the data of the callback. -/
structure UbertoothT (σ : Type*) where
  packets : Ringbuffer
  rxXfer : Option Transfer
  emptyUsbBuf : RxBuf
  fullUsbBuf : RxBuf
  usbReallyFull : Bool
  stopUbertooth : Bool
  mem : RxBuf → Buffer
  args : σ

/-- `(usb_pkt_rx*)`: a packet read from its octets; `clk100ns` is little-endian. -/
def ofOctets (octets : Fin pktLen → U8) : UsbPktRx where
  pktType := octets 0
  status := octets 1
  channel := octets 2
  clknHigh := octets 3
  clk100ns := octets 7 ++ octets 6 ++ octets 5 ++ octets 4
  rssiMax := octets 8
  rssiMin := octets 9
  rssiAvg := octets 10
  rssiCount := octets 11
  reserved := #v[octets 12, octets 13]
  data := Vector.ofFn fun i => octets ⟨14 + i.val, Nat.add_lt_add_left i.isLt 14⟩

/-- The octets of block `i` lie below the end of block `i`. -/
theorem offset_lt {i n : ℕ} (h : pktLen * (i + 1) ≤ n) (j : Fin pktLen) :
    pktLen * i + j.val < n :=
  calc pktLen * i + j.val < pktLen * i + pktLen := Nat.add_lt_add_left j.isLt _
    _ = pktLen * (i + 1) := (Nat.mul_succ _ _).symm
    _ ≤ n := h

/-- `(usb_pkt_rx*)(buf + PKT_LEN * i)` -/
def block (buf : Buffer) (i : Fin pktsPerXfer) : UsbPktRx :=
  ofOctets fun j => buf ⟨pktLen * i.val + j.val, offset_lt (Nat.mul_le_mul_left _ i.isLt) j⟩

def IsKeepAlive (rx : UsbPktRx) : Prop := rx.pktType = UsbPktType.keepAlive.toU8

instance (rx : UsbPktRx) : Decidable (IsKeepAlive rx) :=
  inferInstanceAs (Decidable (_ = _))

variable {σ : Type*}

/-- `libusb_submit_transfer(ut->rx_xfer)`, and whether libusb accepts it. -/
def submitTransfer (accepted : Bool) (ut : UbertoothT σ) : UbertoothT σ :=
  { ut with rxXfer := ut.rxXfer.map fun xfer => { xfer with submitted := accepted } }

/-- `ubertooth_bulk_init`. -/
def ubertoothBulkInit (accepted : Bool) (ut : UbertoothT σ) : ℤ × UbertoothT σ :=
  let ut := { ut with
    emptyUsbBuf := .rxBuf1
    fullUsbBuf := .rxBuf2
    usbReallyFull := false
    rxXfer := some { buffer := .rxBuf1, submitted := false } }
  (if accepted then 0 else -1, submitTransfer accepted ut)

/-- `cb_xfer`. Whatever the transfer brought, it never looks at `actual_length`. -/
def cbXfer (status : TransferStatus) (accepted : Bool) (ut : UbertoothT σ) : UbertoothT σ :=
  if status ≠ .completed then
    if status = .timedOut then submitTransfer accepted ut else { ut with rxXfer := none }
  else
    let ut := if ut.usbReallyFull then { ut with stopUbertooth := true } else ut
    if ut.stopUbertooth then ut
    else
      let ut := { ut with
        fullUsbBuf := ut.emptyUsbBuf
        emptyUsbBuf := ut.fullUsbBuf
        usbReallyFull := true }
      submitTransfer accepted
        { ut with rxXfer := ut.rxXfer.map fun xfer => { xfer with buffer := ut.emptyUsbBuf } }

/-- What libusb leaves in a buffer into which it receives `data`. -/
def receiveInto (buf : Buffer) (data : List U8) : Buffer := fun k => data.getD k.val (buf k)

/-- libusb has received `data` into `buffer`; the transfer is no longer submitted. -/
def libusbReceived (buffer : RxBuf) (data : List U8) (ut : UbertoothT σ) : UbertoothT σ :=
  { ut with
    mem := Function.update ut.mem buffer (receiveInto (ut.mem buffer) data)
    rxXfer := some { buffer, submitted := false } }

/-- A transfer ends: libusb has written the octets that came in, and calls `cb_xfer`. -/
def endTransfer (status : TransferStatus) (data : List U8) (accepted : Bool)
    (ut : UbertoothT σ) : UbertoothT σ :=
  match ut.rxXfer with
  | some { buffer, submitted := true } =>
    cbXfer status accepted (libusbReceived buffer data ut)
  | _ => ut

/-- The body of the loop of `ubertooth_bulk_receive`, up to its test of `stop_ubertooth`. -/
def receiveBlock (cb : RxCallback σ) (i : Fin pktsPerXfer) (ut : UbertoothT σ) : UbertoothT σ :=
  let rx := block (ut.mem ut.fullUsbBuf) i
  if ¬IsKeepAlive rx then
    let packets := ut.packets.add rx
    let (stop, args) := cb packets ut.args
    { ut with packets, args, stopUbertooth := ut.stopUbertooth || stop }
  else ut

/-- The loop, for the blocks that are left. Stopping asks libusb to cancel the transfer, which
shows when the transfer ends. -/
def receiveBlocks (cb : RxCallback σ) : List (Fin pktsPerXfer) → UbertoothT σ → ℤ × UbertoothT σ
  | [], ut => (0, { ut with usbReallyFull := false })
  | i :: is, ut =>
    let ut := receiveBlock cb i ut
    if ut.stopUbertooth then (1, ut) else receiveBlocks cb is ut

/-- `ubertooth_bulk_receive`; the events it lets libusb handle first end transfers. -/
def ubertoothBulkReceive (cb : RxCallback σ) (ut : UbertoothT σ) : ℤ × UbertoothT σ :=
  if ut.usbReallyFull then receiveBlocks cb (List.finRange pktsPerXfer) ut else (-1, ut)

end Ubertooth.Host
