import Ubertooth.Firmware.Requests

/-!
# `bluetooth_rxtx.c`: the receive loops

`bt_stream_rx`, `bt_generic_le` and `bt_le_sync` wait for DMA transfers and process one block or
packet for each round. A round is cut where interrupts and requests come in between: the terminal
count interrupt (`dmaIRQHandler`), the processing of a block (`streamBlock`, `genericBlock`,
`lePacket`), and the end of the round (`rxContinue`). `enter` is what the main loop and the modes do
before their loops. The octets received, the RSSI readings and the address heard are arguments.
-/

namespace Ubertooth.Firmware

/-! ## RSSI -/

def rssiReset (d : Device) : Device :=
  { d with
    fw := { d.fw with rssiCount := 0, rssiMax := -128, rssiMin := 127 }
    rssiSum := 0 }

def rssiAdd (d : Device) (v : U8) : Device :=
  { d with
    fw := { d.fw with
      rssiMax := if d.fw.rssiMax.toInt < v.toInt then v else d.fw.rssiMax
      rssiMin := if v.toInt < d.fw.rssiMin.toInt then v else d.fw.rssiMin
      rssiCount := d.fw.rssiCount + 1 }
    rssiSum := d.rssiSum + BitVec.ofInt 32 (v.toInt * 256) }

/-- `i` in `rssi_iir_update`: the array tracks 79 Bluetooth channels, or just its first slot is used
if not sweeping. -/
def iirSubscript (s : Fw) : ℤ := if s.hopMode ≠ .none then (s.channel.toNat : ℤ) - 2402 else 0

/-- For sweep mode, update IIR per channel. Otherwise, use single value. Outside the array the model
writes nothing. -/
def rssiIirUpdate (d : Device) : Device :=
  let i := iirSubscript d.fw
  let avg : ℤ :=
    if d.fw.rssiCount ≠ 0 then (d.rssiSum.toInt + 128).tdiv d.fw.rssiCount.toNat else 0
  let acc := d.fw.rssiIirAt i * (256 - 3) + avg * 3
  if i < 0 then d
  else
    { d with fw := { d.fw with
      rssiIir := d.fw.rssiIir.setIfInBounds i.toNat (BitVec.ofInt 16 ((acc + 128).tdiv 256)) } }

/-! ## Interrupts -/

/-- `EINT3_IRQHandler` -/
def eint3IRQHandler (d : Device) : Device :=
  { d with
    csTrigger := true
    fw := { d.fw with
      dmaDiscard := if d.fw.hopMode = .bluetooth then false else d.fw.dmaDiscard } }

/-- The modes in which `DMA_IRQHandler` calls `bt_stream_dma_handler`. -/
def Mode.handlesDma : Mode → Bool
  | .rxSymbols | .specan | .btFollow | .btFollowLe | .btPromiscLe | .btSlaveLe => true
  | _ => false

/-- The end of a DMA transfer, and its interrupt. -/
def dmaIRQHandler (d : Device) : Device :=
  if d.dma.enabled then
    if d.mode.handlesDma then
      { d with
        fw := (btStreamDmaHandler d.fw d.dma.transferDone).1
        dma := (btStreamDmaHandler d.fw d.dma.transferDone).2 }
    else { d with dma := d.dma.transferDone }
  else d

/-! ## One block -/

/-- `status |= flag`, if `p`. -/
def raiseIf (p : Bool) (flag : StatusFlag) (s : Fw) : Fw :=
  if p then { s with status := s.status ||| flag.mask } else s

/-- `rssi_max >= (cs_threshold_cur + 54)` -/
def rssiTriggered (s : Fw) : Bool := decide (s.csThresholdCur.toInt + 54 ≤ s.rssiMax.toInt)

/-- The flags for the squelch, after a block. -/
def raiseTriggers (d : Device) : Device :=
  let s := raiseIf (d.csTrigger || d.fw.csNoSquelch) .csTrigger d.fw
  { d with
    fw := raiseIf (rssiTriggered s) .rssiTrigger s
    csTrigger := false }

/-- The flags for the DMA, after a block. -/
def raiseDma (d : Device) : Device :=
  let s := raiseIf (decide (d.dma.rxErr ≠ 0)) .dmaError d.fw
  { d with fw := raiseIf (decide (1 < d.dma.rxTc)) .dmaOverflow s }

/-- A round of `bt_stream_rx`, once a DMA transfer has come: `samples` are the RSSI readings while
it waited, and `buf` is what the idle buffer holds. -/
def streamBlock (samples : List U8) (buf : Vector U8 dmaSize) (d : Device) : Device :=
  if d.dma.rxTc = 0 then d
  else
    let d := raiseDma (samples.foldl rssiAdd (rssiReset d))
    let d := { d with fw := { raiseIf d.fw.dmaDiscard .discard d.fw with dmaDiscard := false } }
    let d := raiseTriggers (rssiIirUpdate d)
    { d with fw := (enqueue .brPacket buf d.fw).2 }

/-- A round of `bt_generic_le`; `bufs` are the packets `cb_le_promisc` finds in the block. -/
def genericBlock (samples : List U8) (bufs : List (Vector U8 dmaSize)) (d : Device) : Device :=
  if d.dma.rxTc = 0 then d
  else
    let d := raiseDma (samples.foldl rssiAdd (rssiReset d))
    let d := raiseTriggers (rssiIirUpdate d)
    { d with fw := bufs.foldl (fun s buf => (enqueue .lePacket buf s).2) d.fw }

/-- The octets of a packet that `enqueue` copies. -/
def packetBuf (p : Packet) : Vector U8 dmaSize := Vector.ofFn fun i => p[i.val]

/-- A round of `bt_le_sync` with a packet that is not skipped, when TIMER0 reads `t0tc`. -/
def lePacket (rssi : U8) (t0tc : U32) (p : Packet) (d : Device) : Device :=
  if d.dma.rxTc = 0 then d
  else
    let s := raiseIf (decide (d.dma.rxErr ≠ 0)) .dmaError
      { d.fw with t0tc := t0tc, rssiMin := rssi, rssiMax := rssi }
    let s := (enqueue .lePacket (packetBuf p) (packetCallback p s)).2
    { d with fw := { s with le := { s.le with lastPacket := s.clk100ns } } }

/-- `now - le.last_packet` in `bt_le_sync`, with rollover handled. -/
def sinceLastPacket (s : Fw) : U32 :=
  let now := s.clk100ns
  let now := if now < s.le.lastPacket then now + 3276800000 else now
  now - s.le.lastPacket

/-- The condition of the timeout: no packet for 5 s on a connection, or jamming has finished. -/
def leTimedOut (s : Fw) : Bool :=
  (decide (s.le.linkState = .connected ∨ s.le.linkState = .connPending) &&
    decide (50000000 < sinceLastPacket s)) || decide (s.leJamCount = 1)

/-- The end of a round. -/
def rxContinue (d : Device) : Device := { d with dma := { d.dma with rxTc := 0, rxErr := 0 } }

/-- `bt_le_sync` takes note of a requested channel. -/
def takeRequest (d : Device) : Device :=
  if d.requestedChannel ≠ 0 then
    { d with savedRequest := d.requestedChannel, requestedChannel := 0 }
  else d

/-- The timeout of `bt_le_sync`: it listens again, or returns if it ran in promiscuous mode. -/
def leTimeout (d : Device) : Device :=
  if d.mode = .btPromiscLe then { d with fw := connectionLeft d.fw }
  else { d with fw := connectionLost d.savedRequest d.fw }

/-! ## Into the loops -/

/-- Into `bt_stream_rx`. -/
def enterStream (mode : Mode) (d : Device) : Device :=
  { d with fw := queueInit d.fw, dma := dioSspStart (dmaInit d.dma), mode := mode }

/-- Into `bt_generic_le(MODE_BT_PROMISC_LE)`. -/
def enterGenericLe (d : Device) : Device :=
  { d with
    fw := queueInit (resetLe d.fw)
    dma := dioSspStart (dmaInit d.dma)
    mode := .btPromiscLe }

/-- `bt_promisc_le`, once it has the access address: into `bt_le_sync`. -/
def enterPromiscSync (d : Device) : Device :=
  let s := lePromiscState 0 (octetsOf d.fw.le.accessAddress 4) d.fw
  { d with
    fw := enterLeSync { s with packetCb := .promiscFollow, le := { s.le with crcVerify := false } }
    dma := dioSspStart (dmaInitLe (dioSspStop d.dma))
    mode := .btPromiscLe }

/-- jump to a random data channel -/
def jumpToDataChannel (s : Fw) : Fw :=
  if s.channel &&& 1 = 1 then { s with channel := 2440 } else s

/-- `bt_promisc_le`, up to the loop of `bt_generic_le`, or of `bt_le_sync` if the PC has given us an
access address. -/
def enterPromisc (d : Device) : Device :=
  let s := jumpToDataChannel (resetLePromisc d.fw)
  if s.le.targetSet then enterPromiscSync { d with fw := s }
  else enterGenericLe { d with fw := csThresholdCalcAndSet s }

/-- `cb_le_promisc` has seen the address `aa` often enough, and `bt_generic_le` returns. -/
def addressHeard (aa : U32) (d : Device) : Device :=
  if d.dma.rxTc = 0 then d
  else
    enterPromiscSync { d with fw := lePromiscState 0 (octetsOf aa 4) { d.fw with
      le := { leSetAccessAddress aa d.fw.le with crcVerify := false }
      packetCb := .promiscFollow } }

/-- The main loop acts on `requested_mode`, once the mode before has stopped its transfers. The
modes that receive nothing are left out. -/
def enter (d : Device) : Device :=
  let d := { d with dma := dioSspStop d.dma }
  match d.requestedMode with
  | .afh => let d := enterStream .afh d; { d with dma := dioSspStop d.dma }
  | .rxSymbols => enterStream .rxSymbols d
  | .btFollow => enterStream .btFollow d
  | .btFollowLe =>
    { d with
      fw := btFollowLe d.fw
      dma := dioSspStart (dmaInitLe d.dma)
      mode := .btFollowLe }
  | .btPromiscLe => enterPromisc d
  | _ => d

end Ubertooth.Firmware
