import Ubertooth.Firmware.State

/-!
# `bluetooth_rxtx.c`: the DMA transfers from the radio

The linked lists the two init functions write, the registers of DMA channel 0 that decide which
buffer is filled, the pointers `active_rxbuf` and `idle_rxbuf`, and the interrupt handler that swaps
them. `Dma.transferDone` is what the controller does by itself at the end of a list item. The
source address and the widths of a transfer are the same everywhere and left out.
-/

namespace Ubertooth.Firmware

/-- The two DMA buffers. -/
inductive RxBuf
  | rxbuf1 | rxbuf2
  deriving DecidableEq, Repr

/-- The other buffer. -/
def RxBuf.other : RxBuf → RxBuf
  | rxbuf1 => rxbuf2
  | rxbuf2 => rxbuf1

@[simp] theorem RxBuf.other_other (b : RxBuf) : b.other.other = b := by
  cases b <;> rfl

/-- The DMA linked list items. -/
inductive LliRef
  | rx1 | rx2 | le (i : Fin 11)
  deriving DecidableEq, Repr

/-- The item that fills the buffer. -/
def RxBuf.item : RxBuf → LliRef
  | rxbuf1 => .rx1
  | rxbuf2 => .rx2

/-- `dma_lli`: where the item's octets go, how many, and the item that follows. -/
structure DmaLli where
  dest : RxBuf
  offset : ℕ := 0
  size : ℕ
  nextLli : Option LliRef
  deriving DecidableEq, Repr

/-- The globals and registers of a transfer. -/
structure Dma where
  /-- The active buffer is the one with an active DMA transfer. -/
  activeRxbuf : RxBuf := .rxbuf1
  /-- The idle buffer is the one we can read/write between transfers. -/
  idleRxbuf : RxBuf := .rxbuf2
  /-- The list items in memory; `none` before they are written. -/
  items : LliRef → Option DmaLli := fun _ => none
  /-- `DMACC0DestAddr`, as the buffer it points into. -/
  destAddr : Option RxBuf := none
  /-- `DMACC0LLI` -/
  lli : Option LliRef := none
  /-- `DMACCxConfig_E` of channel 0 -/
  enabled : Bool := false
  /-- Bit 0 of `DMACIntTCStat`. -/
  intTcStat : Bool := false
  /-- Bit 0 of `DMACIntErrStat`. -/
  intErrStat : Bool := false
  /-- rx terminal count and error interrupt counters -/
  rxTc : U32 := 0
  rxErr : U32 := 0

def rxDmaLli1 : DmaLli := { dest := .rxbuf1, size := dmaSize, nextLli := some .rx2 }

def rxDmaLli2 : DmaLli := { dest := .rxbuf2, size := dmaSize, nextLli := some .rx1 }

/-- 11 x 4 bytes -/
def leDmaLli (i : Fin 11) : DmaLli :=
  { dest := .rxbuf1
    offset := 4 * i
    size := 4
    nextLli := if i.val < 10 then some (.le (i + 1)) else none }

/-- Configure DMA channel 0 for the list that starts with `item`, clear the interrupts and reset the
interrupt counters. The channel is not enabled yet. -/
def Dma.configure (item : DmaLli) (d : Dma) : Dma :=
  { d with
    destAddr := some item.dest
    lli := item.nextLli
    enabled := false
    intTcStat := false
    intErrStat := false
    rxTc := 0
    rxErr := 0 }

def dmaInit (d : Dma) : Dma :=
  Dma.configure rxDmaLli1 { d with
    items := fun
      | .rx1 => some rxDmaLli1
      | .rx2 => some rxDmaLli2
      | .le i => d.items (.le i) }

def dmaInitLe (d : Dma) : Dma :=
  Dma.configure (leDmaLli 0) { d with
    items := fun
      | .le i => some (leDmaLli i)
      | r => d.items r }

def dioSspStart (d : Dma) : Dma := { d with enabled := true }

def dioSspStop (d : Dma) : Dma :=
  { d with enabled := false, intTcStat := false, intErrStat := false }

/-- The controller has moved the last octet of an item: it requests the terminal count interrupt and
goes on with the next item, or stops at the end of the list. -/
def Dma.transferDone (d : Dma) : Dma :=
  match d.lli.bind d.items with
  | some item => { d with intTcStat := true, destAddr := some item.dest, lli := item.nextLli }
  | none => { d with intTcStat := true, enabled := false }

/-- `bt_stream_dma_handler`, on a terminal count interrupt of channel 0: note the time and the
channel, and keep buffer swapping in sync with DMA. -/
def streamTc (s : Fw) (d : Dma) : Fw × Dma :=
  ({ s with
      idleBufClk100ns := s.clk100ns
      idleBufClknHigh := ((s.clkn >>> 20) &&& 0xff).setWidth 8
      idleBufChannel := s.channel },
    { d with
      intTcStat := false
      activeRxbuf := d.idleRxbuf
      idleRxbuf := d.activeRxbuf
      rxTc := d.rxTc + 1 })

def btStreamDmaHandler (s : Fw) (d : Dma) : Fw × Dma :=
  let (s, d) := if d.intTcStat then streamTc s d else (s, d)
  if d.intErrStat then (s, { d with intErrStat := false, rxErr := d.rxErr + 1 }) else (s, d)

end Ubertooth.Firmware
