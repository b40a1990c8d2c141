import Ubertooth.Firmware.State

/-!
# `ubertooth_usb.c`: the packet queue, and the functions that fill it

`usb_enqueue` reserves a slot of the ring buffer and returns a pointer to it (here: its index),
`dequeue` returns the oldest slot. `enqueue` and `enqueue_with_ts` of `bluetooth_rxtx.c` fill a
reserved slot field by field. The fields are written one after the other (`SlotWrite`), because an
interrupt may fall between any two of the writes; the functions perform them all
(`enqueueWrites`, `enqueueWithTsWrites`).
-/

namespace Ubertooth.Firmware

/-- `queue_init`; the status byte is left alone. -/
def queueInit (s : Fw) : Fw := { s with queue := {} }

/-- `&fifo[t]` for the masked counter `t`. -/
def slotOf (counter : U32) : Fin 128 := ⟨(counter &&& 0x7f).toNat, by
  rw [BitVec.toNat_and]
  exact Nat.lt_of_le_of_lt Nat.and_le_right (by decide)⟩

/-- `usb_enqueue`: the reserved slot, with `tail` already moved past it, unless the queue is
full. -/
def usbEnqueue (q : UsbQueue) : Option (Fin 128) × UsbQueue :=
  let h : U8 := (q.head &&& 0x7f).setWidth 8
  let t : U8 := (q.tail &&& 0x7f).setWidth 8
  let n : U8 := (t + 1) &&& 0x7f
  if h = n then (none, q) else (some (slotOf q.tail), { q with tail := q.tail + 1 })

/-- `dequeue`: the oldest slot, with `head` already moved past it, unless the queue is empty. -/
def dequeue (q : UsbQueue) : Option (Fin 128) × UsbQueue :=
  let h : U8 := (q.head &&& 0x7f).setWidth 8
  let t : U8 := (q.tail &&& 0x7f).setWidth 8
  if h = t then (none, q) else (some (slotOf q.head), { q with head := q.head + 1 })

/-- The packet a caller of `dequeue` reads through the returned pointer. -/
def dequeuePkt (s : Fw) : Option UsbPktRx × Fw :=
  match dequeue s.queue with
  | (none, q) => (none, { s with queue := q })
  | (some i, q) => (some (q.fifo i), { s with queue := q })

/-- Where a packet's time stamp comes from. -/
inductive ClkSource
  /-- the running clock -/
  | now
  /-- the clock saved at the end of the DMA block -/
  | idleBuf
  /-- the argument `ts` of `enqueue_with_ts` -/
  | ts (ts : U32)
  deriving DecidableEq

/-- One assignment of `enqueue` or `enqueue_with_ts` to the slot `f`. -/
inductive SlotWrite
  /-- `f->pkt_type = type` -/
  | pktType (type : UsbPktType)
  /-- `f->clkn_high = …` -/
  | clknHigh (c : ClkSource)
  /-- `f->clk100ns = …` -/
  | clk100ns (c : ClkSource)
  /-- `f->channel = idle_buf_channel - 2402` -/
  | channelIdleBuf
  /-- `f->channel = channel - 2402` -/
  | channelNow
  | rssiMin
  | rssiMax
  /-- `f->rssi_avg`, from the average of the channel, or of slot 0 when not hopping -/
  | rssiAvg
  | rssiCount
  /-- `f->rssi_avg = 0` -/
  | rssiAvgZero
  /-- `f->rssi_count = 0` -/
  | rssiCountZero
  /-- one octet of `memcpy(f->data, buf, DMA_SIZE)` -/
  | data (i : Fin dmaSize) (v : U8)
  /-- `f->status = status` -/
  | status
  deriving DecidableEq

def ClkSource.clknHigh (s : Fw) : ClkSource → U8
  | .now => ((s.clkn >>> 20) &&& 0xff).setWidth 8
  | .idleBuf => s.idleBufClknHigh
  | .ts _ => 0

def ClkSource.clk100ns (s : Fw) : ClkSource → U32
  | .now => s.clk100ns
  | .idleBuf => s.idleBufClk100ns
  | .ts t => t

/-- What an assignment makes of the slot. -/
def SlotWrite.apply (s : Fw) (f : UsbPktRx) : SlotWrite → UsbPktRx
  | .pktType type => { f with pktType := type.toU8 }
  | .clknHigh c => { f with clknHigh := c.clknHigh s }
  | .clk100ns c => { f with clk100ns := c.clk100ns s }
  | .channelIdleBuf => { f with channel := (s.idleBufChannel - 2402).setWidth 8 }
  | .channelNow => { f with channel := (s.channel - 2402).setWidth 8 }
  | .rssiMin => { f with rssiMin := s.rssiMin }
  | .rssiMax => { f with rssiMax := s.rssiMax }
  | .rssiAvg => { f with
      rssiAvg := s.rssiRounded
        (if s.hopMode ≠ .none then (s.idleBufChannel.toNat : ℤ) - 2402 else 0) }
  | .rssiCount => { f with rssiCount := s.rssiCount }
  | .rssiAvgZero => { f with rssiAvg := 0 }
  | .rssiCountZero => { f with rssiCount := 0 }
  | .data i v => { f with data := f.data.set i v }
  | .status => { f with status := s.status }

/-- `memcpy(f->data, buf, DMA_SIZE)` -/
def dataWrites (buf : Vector U8 dmaSize) : List SlotWrite :=
  (List.finRange dmaSize).map fun i => .data i buf[i]

/-- The assignments of `enqueue(type, buf)`, in order. -/
def enqueueWrites (type : UsbPktType) (buf : Vector U8 dmaSize) : List SlotWrite :=
  .pktType type ::
    (if type = .specan then [.clknHigh .now, .clk100ns .now]
      else [.clknHigh .idleBuf, .clk100ns .idleBuf, .channelIdleBuf, .rssiMin, .rssiMax,
        .rssiAvg, .rssiCount]) ++
    dataWrites buf ++ [.status]

/-- The assignments of `enqueue_with_ts(type, buf, ts)`, in order. It does not store `type`. -/
def enqueueWithTsWrites (_type : UsbPktType) (buf : Vector U8 dmaSize) (ts : U32) :
    List SlotWrite :=
  [.clknHigh (.ts ts), .clk100ns (.ts ts), .channelNow, .rssiAvgZero, .rssiCountZero] ++
    dataWrites buf ++ [.status]

/-- The slot after all its assignments. -/
def fillSlot (s : Fw) (f : UsbPktRx) (ws : List SlotWrite) : UsbPktRx :=
  ws.foldl (SlotWrite.apply s) f

/-- The common body of `enqueue` and `enqueue_with_ts`: the packet put in the queue, or `none`
(and `FIFO_OVERFLOW` raised) if the queue is full. -/
def enqueueSlot (ws : List SlotWrite) (s : Fw) : Option UsbPktRx × Fw :=
  match usbEnqueue s.queue with
  | (none, q) => (none, { s with queue := q, status := s.status ||| StatusFlag.fifoOverflow.mask })
  | (some i, q) =>
    let f := fillSlot s (q.fifo i) ws
    (some f, { s with queue := { q with fifo := Function.update q.fifo i f }, status := 0 })

def enqueue (type : UsbPktType) (buf : Vector U8 dmaSize) (s : Fw) : Option UsbPktRx × Fw :=
  enqueueSlot (enqueueWrites type buf) s

def enqueueWithTs (type : UsbPktType) (buf : Vector U8 dmaSize) (ts : U32) (s : Fw) :
    Option UsbPktRx × Fw :=
  enqueueSlot (enqueueWithTsWrites type buf ts) s

end Ubertooth.Firmware
