import Ubertooth.Firmware.Receive
import Ubertooth.Firmware.Whitening

/-!
# `bluetooth_rxtx.c`: the main loop

`main` watches `requested_mode` and calls the function of the mode. Here that function is a place of
the program (`Place`), left when its loop condition fails. Requests and interrupts come at any
place. The rounds of the receive loops are those of `Receive.lean`, each at its own place only;
`bt_slave_le` transmits. `bt_promisc_le` starts again by itself as long as its mode is requested;
so does the main loop, which does the same with the state.
-/

namespace Ubertooth.Firmware

/-- Where the main program is. -/
inductive Place
  | mainLoop
  | streamRx
  | genericLe
  | leSync
  /-- `bt_slave_le`, with its `adv_ind` -/
  | slaveLe (advInd : List U8)
  /-- `reset`, which does not return -/
  | reset
  deriving DecidableEq, Repr

/-- The device, its place in the program, and what it has sent. -/
structure Session where
  dev : Device := {}
  place : Place := .mainLoop
  slaveMacAddress : ℕ → U8 := fun _ => 0
  /-- `data` of every `le_transmit(0x8e89bed6, ..)`, the last one first -/
  sent : List (List U8) := []

/-- The device at power on, in the main loop. -/
def sessionOn : Session := {}

/-! ## Into and out of the modes -/

/-- `bt_slave_le`, up to its first packet. -/
def enterSlaveLe (s : Session) : Session :=
  let advInd := slaveData s.dev.fw.le s.slaveMacAddress
  { s with place := .slaveLe advInd, sent := advInd :: s.sent }

/-- A round of the main loop. The modes that touch nothing modelled here are over at once. -/
def mainLoop (s : Session) : Session :=
  if s.dev.requestedMode = s.dev.mode then s
  else
    match s.dev.requestedMode with
    | .reset => { s with place := .reset }
    | .afh => { s with dev := enter s.dev }
    | .rxSymbols | .btFollow => { s with dev := enter s.dev, place := .streamRx }
    | .btFollowLe => { s with dev := enter s.dev, place := .leSync }
    | .btPromiscLe =>
      { s with
        dev := enter s.dev
        place := if s.dev.fw.le.targetSet then .leSync else .genericLe }
    | .btSlaveLe => enterSlaveLe s
    | .txTest | .repeater | .ego => { s with dev := { s.dev with mode := s.dev.requestedMode } }
    | .rangeTest => { s with dev := { s.dev with mode := .rangeTest, requestedMode := .idle } }
    | .idle => { s with dev := { s.dev with mode := .idle } }
    | .txSymbols | .specan | .ledSpecan => s

/-- The end of `bt_generic_le` and of `bt_le_sync`: `cc2400_idle`, `dio_ssp_stop`. -/
def leaveLe (s : Session) : Session :=
  { s with dev := { s.dev with dma := dioSspStop s.dev.dma, mode := .idle }, place := .mainLoop }

/-- A loop looks at `requested_mode`. -/
def loopHead (s : Session) : Session :=
  match s.place with
  | .mainLoop => mainLoop s
  | .streamRx =>
    if s.dev.requestedMode = .rxSymbols ∨ s.dev.requestedMode = .btFollow then s
    else { s with dev := { s.dev with dma := dioSspStop s.dev.dma }, place := .mainLoop }
  | .genericLe | .leSync => if s.dev.requestedMode = s.dev.mode then s else leaveLe s
  | .slaveLe advInd =>
    -- spam advertising packets
    if s.dev.requestedMode = .btSlaveLe then { s with sent := advInd :: s.sent }
    else { s with place := .mainLoop }
  | .reset => s

/-! ## Rounds -/

/-- What `cb_le_promisc` does when it has seen the address `aa` often enough. -/
def followAddress (aa : U32) (s : Fw) : Fw :=
  lePromiscState 0 (octetsOf aa 4) { s with
    le := { leSetAccessAddress aa s.le with crcVerify := false }
    packetCb := .promiscFollow }

/-- `bt_generic_le` returns, and `bt_promisc_le` goes on unless the mode has changed. -/
def genericHeard (aa : U32) (s : Session) : Session :=
  if s.dev.dma.rxTc = 0 then s
  else if s.dev.requestedMode = .btPromiscLe then
    { s with dev := addressHeard aa s.dev, place := .leSync }
  else leaveLe { s with dev := { s.dev with fw := followAddress aa s.dev.fw } }

/-- `rx_flush`, when TIMER0 reads `t0tc`: the timeout. -/
def leFlush (t0tc : U32) (s : Session) : Session :=
  let fw := { s.dev.fw with t0tc := t0tc }
  if leTimedOut fw then
    if fw.jamMode = jamOnce then
      leaveLe { s with dev := { s.dev with fw := connectionLeft fw, requestedMode := .idle } }
    -- go back to promisc if the connection dies
    else if s.dev.mode = .btPromiscLe then
      leaveLe { s with dev := { s.dev with fw := connectionLeft fw } }
    else { s with dev := { s.dev with fw := connectionLost s.dev.savedRequest fw } }
  else { s with dev := { s.dev with fw := fw } }

/-- The end of a round of `bt_le_sync`: jam, or listen on. -/
def leResume (d : Device) : Device :=
  rxContinue (if 0 < d.fw.leJamCount then
      { d with fw := { d.fw with leJamCount := d.fw.leJamCount - 1 } }
    else { d with dma := dioSspStart (dmaInitLe d.dma) })

/-- A hop that does not return leaves the state as it was. -/
def serveDoHop (d : Device) : Device :=
  if d.fw.doHop then
    match hop d.fw with
    | .ok s => { d with fw := s }
    | .error _ => d
  else d

/-! ## Events -/

/-- Requests, interrupts, and the steps of the main program, in any order. -/
inductive SessionEvent
  | request (r : VendorRequest)
  /-- `UBERTOOTH_BTLE_SLAVE` -/
  | btleSlave (data : ℕ → U8)
  | timer0
  | eint3
  /-- a DMA transfer is complete -/
  | terminalCount
  | loopHead
  | takeRequest
  | hop
  | streamBlock (samples : List U8) (buf : Vector U8 dmaSize)
  | genericBlock (samples : List U8) (bufs : List (Vector U8 dmaSize))
  /-- `cb_le_promisc` returns 0 -/
  | addressHeard (aa : U32)
  | lePacket (rssi : U8) (t0tc : U32) (p : Packet)
  | leFlush (t0tc : U32)
  | leResume
  | rxContinue

/-- A step of the main program at the place given; elsewhere nothing happens. -/
def Session.at (place : Place) (f : Session → Session) (s : Session) : Session :=
  if s.place = place then f s else s

/-- What is done to the device alone. -/
def Session.device (f : Device → Device) (s : Session) : Session := { s with dev := f s.dev }

/-- The places where the radio is received from. -/
def Place.receives : Place → Bool
  | .streamRx | .genericLe | .leSync => true
  | _ => false

/-- A step that all receive loops have. -/
def Session.receiving (f : Device → Device) (s : Session) : Session :=
  if s.place.receives then s.device f else s

/-- What holds after the step and before it holds at the place given and elsewhere. -/
theorem Session.at_rule {p : Session → Prop} {place : Place} {f : Session → Session} {s : Session}
    (hf : p (f s)) (hs : p s) : p (s.at place f) := by
  unfold Session.at
  split
  · exact hf
  · exact hs

theorem Session.receiving_rule {p : Session → Prop} {f : Device → Device} {s : Session}
    (hf : p (s.device f)) (hs : p s) : p (s.receiving f) := by
  unfold Session.receiving
  split
  · exact hf
  · exact hs

def sessionStep (s : Session) : SessionEvent → Session
  | .request r => s.device fun d => vendorRequestHandler d r
  | .btleSlave data =>
    { s with slaveMacAddress := data, dev := { s.dev with requestedMode := .btSlaveLe } }
  | .timer0 => s.device fun d => { d with fw := timer0IRQHandler d.fw }
  | .eint3 => s.device eint3IRQHandler
  | .terminalCount => s.device dmaIRQHandler
  | .loopHead => loopHead s
  | .takeRequest => s.at .leSync (Session.device takeRequest)
  | .hop => s.receiving serveDoHop
  | .streamBlock samples buf => s.at .streamRx (Session.device (streamBlock samples buf))
  | .genericBlock samples bufs => s.at .genericLe (Session.device (genericBlock samples bufs))
  | .addressHeard aa => s.at .genericLe (genericHeard aa)
  | .lePacket rssi t0tc p => s.at .leSync fun s =>
    if btLeSyncAccepts s.dev.fw.le p then s.device (lePacket rssi t0tc p) else s
  | .leFlush t0tc => s.at .leSync (leFlush t0tc)
  | .leResume => s.at .leSync (Session.device leResume)
  | .rxContinue => s.receiving rxContinue

end Ubertooth.Firmware
