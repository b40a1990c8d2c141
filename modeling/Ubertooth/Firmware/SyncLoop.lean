import Ubertooth.Firmware.Frames
import Ubertooth.Firmware.Session

/-!
# `bluetooth_rxtx.c`: `bt_le_sync`, statement by statement

The loop shares `rx_tc`, `rx_err`, `do_hop`, `requested_mode`, `requested_channel` and the hop mode
with the interrupt handlers, which come between any two of its statements. `SyncPlace` is the
statement that comes next, and `syncMain` executes it; to the device it does what the rounds of
`Session.lean` do (`syncMain_session`). Statements that share nothing with the
handlers run together. The radio's strobes and the waits for its lock have no effect on any of the
state, nor has `le_jam`; the time `rx_flush` reads, the RSSI, and the octets received are arguments.
-/

namespace Ubertooth.Firmware

/-! ## The radio -/

/-- `MOD_BT_BASIC_RATE` -/
def modBtBasicRate : U8 := 0

/-- `MOD_BT_LOW_ENERGY` -/
def modBtLowEnergy : U8 := 1

/-- `cc2400_rx_sync`: with a modulation it does not know it returns at once. -/
def cc2400RxSync (modulation : U8) (s : Fw) : Fw :=
  if modulation = modBtBasicRate ∨ modulation = modBtLowEnergy then
    csThresholdCalcAndSet { s with fsdiv := s.channel - 1 }
  else s

/-! ## DMA errors -/

/-- The controller stops the channel on an error, and requests the error interrupt. -/
def Dma.transferError (d : Dma) : Dma := { d with enabled := false, intErrStat := true }

/-- An error of a DMA transfer, and its interrupt. -/
def dmaErrorIRQHandler (d : Device) : Device :=
  if d.dma.enabled then
    if d.mode.handlesDma then
      { d with
        fw := (btStreamDmaHandler d.fw d.dma.transferError).1
        dma := (btStreamDmaHandler d.fw d.dma.transferError).2 }
    else { d with dma := d.dma.transferError }
  else d

/-! ## The loop -/

/-- What `bt_le_sync` does next. -/
inductive SyncPlace
  /-- `while (requested_mode == active_mode)`, and `if (requested_channel != 0)` -/
  | head
  /-- `cc2400_set(FSDIV, channel - 1)` -/
  | retune
  /-- `saved_request = requested_channel` -/
  | saveRequest
  /-- `requested_channel = 0` -/
  | dropRequest
  /-- wait for DMA -/
  | waiting
  /-- `rssi_min = rssi_max = rssi`, and `if (requested_mode != active_mode)` -/
  | woken
  /-- `if (rx_err)` -/
  | noteError
  /-- `if (do_hop)`, the first time -/
  | testHop
  /-- `if (!rx_tc)` -/
  | testTc
  /-- process the packet -/
  | packet
  /-- `rx_flush`, up to the end of the timeout -/
  | flush
  /-- `if (do_hop)`, the second time -/
  | hop
  /-- `if (le_jam_count > 0)`, up to `dio_ssp_start()` -/
  | restart
  /-- `if (restart_jamming)` -/
  | receive
  /-- `rx_tc = 0`, and `rx_err = 0` -/
  | clear
  /-- in a `hop` that does not return -/
  | hung
  /-- past `cleanup` -/
  | ended
  deriving DecidableEq, Repr

/-- The device in `bt_le_sync`. `active_mode` is `mode`, which no handler changes. -/
structure SyncLoop where
  dev : Device
  modulation : U8
  restartJamming : Bool
  place : SyncPlace

/-- What comes in from outside at a statement. -/
structure SyncInput where
  rssi : U8
  /-- what TIMER0 reads -/
  t0tc : U32
  /-- the memory in which `packet` lies -/
  stack : Packet
  rxbuf1 : ℕ → U8

/-- `bt_le_sync(active_mode)`, up to its loop. `restart_jamming` is 0 at first, and again whenever
the loop is left. -/
def enterSyncLoop (active : Mode) (d : Device) : SyncLoop where
  dev := { d with
    fw := cc2400RxSync modBtLowEnergy (enterLeSync d.fw)
    dma := dioSspStart (dmaInitLe d.dma)
    mode := active }
  modulation := modBtLowEnergy
  restartJamming := false
  place := .head

/-- `requested_mode == active_mode` -/
def ModeRequested (d : Device) : Prop := d.requestedMode = d.mode

instance (d : Device) : Decidable (ModeRequested d) :=
  inferInstanceAs (Decidable (d.requestedMode = d.mode))

/-- The condition of the waiting loop. -/
def NothingToDo (d : Device) : Prop :=
  d.dma.rxTc = 0 ∧ d.dma.rxErr = 0 ∧ d.fw.doHop = false ∧ ModeRequested d

instance (d : Device) : Decidable (NothingToDo d) := inferInstanceAs (Decidable (_ ∧ _))

/-- `cleanup` -/
def SyncLoop.cleanup (x : SyncLoop) : SyncLoop :=
  { x with dev := { x.dev with dma := dioSspStop x.dev.dma }, place := .ended }

/-- `packet`, as it is unwhitened. -/
def SyncLoop.unwhitened (i : SyncInput) (x : SyncLoop) : Packet :=
  btLeSyncPacket i.stack x.dev.fw.le x.dev.fw.channel i.rxbuf1

/-- `packet_cb(packet)`, `enqueue(LE_PACKET, packet)`, `le.last_packet = CLK100NS` -/
def takeLePacket (t0tc : U32) (p : Packet) (s : Fw) : Fw :=
  let s := (enqueue .lePacket (packetBuf p) (packetCallback p { s with t0tc := t0tc })).2
  { s with le := { s.le with lastPacket := s.clk100ns } }

/-- The timeout, where it has come. -/
def SyncLoop.timeOut (x : SyncLoop) : SyncLoop :=
  if x.dev.fw.jamMode = jamOnce then
    SyncLoop.cleanup
      { x with dev := { x.dev with fw := connectionLeft x.dev.fw, requestedMode := .idle } }
  -- go back to promisc if the connection dies
  else if x.dev.mode = .btPromiscLe then
    SyncLoop.cleanup { x with dev := { x.dev with fw := connectionLeft x.dev.fw } }
  else
    { x with
      dev := { x.dev with fw := connectionLost x.dev.savedRequest x.dev.fw }
      restartJamming := true
      place := .hop }

/-- `bt_le_sync` executes what comes next. -/
def syncMain (i : SyncInput) (x : SyncLoop) : SyncLoop :=
  let d := x.dev
  match x.place with
  | .head =>
    if ModeRequested d then
      { x with place := if d.requestedChannel ≠ 0 then .retune else .waiting }
    else x.cleanup
  | .retune =>
    { x with
      dev := { d with fw := { d.fw with fsdiv := d.fw.channel - 1 } }
      place := .saveRequest }
  | .saveRequest =>
    { x with dev := { d with savedRequest := d.requestedChannel }, place := .dropRequest }
  | .dropRequest => { x with dev := { d with requestedChannel := 0 }, place := .waiting }
  | .waiting => if NothingToDo d then x else { x with place := .woken }
  | .woken =>
    let d := { d with fw := { d.fw with rssiMin := i.rssi, rssiMax := i.rssi } }
    if ModeRequested d then { x with dev := d, place := .noteError }
    else SyncLoop.cleanup { x with dev := d }
  | .noteError =>
    { x with
      dev := { d with fw := raiseIf (decide (d.dma.rxErr ≠ 0)) .dmaError d.fw }
      place := .testHop }
  | .testHop => { x with place := if d.fw.doHop then .flush else .testTc }
  | .testTc => { x with place := if d.dma.rxTc = 0 then .head else .packet }
  | .packet =>
    -- packets that are too long or have a bad CRC are skipped
    if btLeSyncAccepts d.fw.le (x.unwhitened i) then
      { x with dev := { d with fw := takeLePacket i.t0tc (x.unwhitened i) d.fw }, place := .flush }
    else { x with place := .flush }
  | .flush =>
    let x := { x with dev := { d with fw := { d.fw with t0tc := i.t0tc } } }
    if leTimedOut x.dev.fw then x.timeOut else { x with place := .hop }
  | .hop =>
    if d.fw.doHop then
      match hop d.fw with
      | .ok s => { x with dev := { d with fw := s }, place := .restart }
      | .error _ => { x with place := .hung }
    else { x with place := .restart }
  | .restart =>
    if 0 < d.fw.leJamCount then
      { x with
        dev := { d with fw := { d.fw with leJamCount := d.fw.leJamCount - 1 } }
        place := .clear }
    else { x with dev := { d with dma := dioSspStart (dmaInitLe d.dma) }, place := .receive }
  | .receive =>
    if x.restartJamming then
      { x with
        dev := { d with fw := cc2400RxSync x.modulation d.fw }
        restartJamming := false
        place := .clear }
    else { x with place := .clear }
  | .clear => { x with dev := rxContinue d, place := .head }
  | .hung | .ended => x

/-! ## Events -/

/-- The loop executes a statement, or a handler runs. -/
inductive SyncEvent
  | step (i : SyncInput)
  | terminalCount
  | dmaError
  | timer0
  | eint3
  | request (r : VendorRequest)
  /-- `UBERTOOTH_SET_MOD` -/
  | setMod (param : U16)

def syncStep (x : SyncLoop) : SyncEvent → SyncLoop
  | .step i => syncMain i x
  | .terminalCount => { x with dev := dmaIRQHandler x.dev }
  | .dmaError => { x with dev := dmaErrorIRQHandler x.dev }
  | .timer0 => { x with dev := { x.dev with fw := timer0IRQHandler x.dev.fw } }
  | .eint3 => { x with dev := eint3IRQHandler x.dev }
  | .request r => { x with dev := vendorRequestHandler x.dev r }
  | .setMod param => { x with modulation := param.setWidth 8 }

/-! ## What the handlers leave alone -/

/-- A request leaves the DMA, the mode, the register and the count of jams alone. -/
theorem vendorRequestHandler_kept (d : Device) (r : VendorRequest) :
    (vendorRequestHandler d r).dma = d.dma ∧ (vendorRequestHandler d r).mode = d.mode ∧
      (vendorRequestHandler d r).fw.fsdiv = d.fw.fsdiv ∧
      (vendorRequestHandler d r).fw.leJamCount = d.fw.leJamCount := by
  have hsquelch : ∀ s : Fw, (csThresholdCalcAndSet s).fsdiv = s.fsdiv ∧
      (csThresholdCalcAndSet s).leJamCount = s.leJamCount := by
    intro s
    obtain ⟨a, b, h⟩ := csThresholdCalcAndSet_frame s
    rw [h]
    exact ⟨rfl, rfl⟩
  cases r with
  | setChannel param =>
    dsimp only [vendorRequestHandler, setChannel]
    by_cases hsweep : maxFreq < param
    · simp only [if_pos hsweep]
      split
      · exact ⟨rfl, rfl, hsquelch _⟩
      · exact ⟨rfl, rfl, rfl, rfl⟩
    · simp only [if_neg hsweep]
      split
      · exact ⟨rfl, rfl, hsquelch _⟩
      · exact ⟨rfl, rfl, rfl, rfl⟩
  | setSquelch param => exact ⟨rfl, rfl, hsquelch _⟩
  | setClock data => exact ⟨rfl, rfl, hsquelch _⟩
  | btleSniffing => exact ⟨rfl, rfl, hsquelch _⟩
  | btlePromisc => exact ⟨rfl, rfl, hsquelch _⟩
  | poll =>
    obtain ⟨q, h⟩ := dequeuePkt_frame d.fw
    simp only [vendorRequestHandler, h, and_self]
  | _ => exact ⟨rfl, rfl, rfl, rfl⟩

/-! ## The rounds of the session -/

/-- The timeout, the hop, the restart and the end of a round do to the device what they do to it in
a session. -/
theorem syncMain_session (i : SyncInput) (x : SyncLoop) (s : Session) (hdev : s.dev = x.dev) :
    (x.place = .flush → (syncMain i x).place = .hop →
        (syncMain i x).dev = (leFlush i.t0tc s).dev) ∧
      (x.place = .hop → (syncMain i x).dev = serveDoHop x.dev) ∧
      (x.place = .restart → rxContinue (syncMain i x).dev = leResume x.dev) ∧
      (x.place = .clear → (syncMain i x).dev = rxContinue x.dev) := by
  obtain ⟨dev, modulation, restartJamming, place⟩ := x
  obtain rfl : s.dev = dev := hdev
  refine ⟨?_, ?_, ?_, ?_⟩
  · rintro rfl hgoes
    dsimp only [syncMain, leFlush] at hgoes ⊢
    by_cases htimeout : leTimedOut { s.dev.fw with t0tc := i.t0tc } = true
    · rw [if_pos htimeout, SyncLoop.timeOut] at hgoes
      rw [if_pos htimeout, if_pos htimeout, SyncLoop.timeOut]
      dsimp only at hgoes ⊢
      split at hgoes
      case isTrue => exact absurd hgoes (by simp [SyncLoop.cleanup])
      case isFalse honce =>
        split at hgoes
        case isTrue => exact absurd hgoes (by simp [SyncLoop.cleanup])
        case isFalse hpromisc => rw [if_neg honce, if_neg hpromisc, if_neg honce, if_neg hpromisc]
    · rw [if_neg htimeout, if_neg htimeout]
  · rintro rfl
    dsimp only [syncMain, serveDoHop]
    split
    · cases hop s.dev.fw <;> rfl
    · rfl
  · rintro rfl
    dsimp only [syncMain, leResume]
    split <;> rfl
  · rintro rfl
    rfl

end Ubertooth.Firmware
