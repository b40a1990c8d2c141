import Ubertooth.Firmware.Requests

/-!
# `bluetooth_rxtx.c`: the operating modes and the pins

`main` with the functions of all modes, as far as they switch the amplifiers and the LEDs and look
at `mode` and `requested_mode`. The main program is in one of the functions (`ModeFunction`), each
of which writes pins when it is entered, in every round of its loop and when it is left. What a
round meets (`Round`) is an argument: whether a packet comes in, whether it is time to hop, and so
on. `UBERTOOTH_ONE` is defined.
-/

namespace Ubertooth.Firmware

/-! ## Pins -/

/-- The pins that the modes switch. -/
inductive Pin
  | paen | hgm | txLed | rxLed | usrLed
  deriving DecidableEq, Repr

/-- The pins that are on. -/
abbrev Pins : Type := Pin → Bool

inductive PinWrite
  | set (p : Pin)
  | clr (p : Pin)
  deriving DecidableEq, Repr

def PinWrite.apply (pins : Pins) : PinWrite → Pins
  | .set p => Function.update pins p true
  | .clr p => Function.update pins p false

def writePins (pins : Pins) (ws : List PinWrite) : Pins := ws.foldl PinWrite.apply pins

/-! ## The main program -/

/-- Where the main program is. -/
inductive ModeFunction
  | mainLoop
  | btStreamRx
  /-- at the loop condition of `bt_promisc_le` -/
  | btPromiscLe
  | btGenericLe
  /-- `bt_promisc_le`, after `bt_generic_le` -/
  | promiscHeard
  | btLeSync (activeMode : Mode)
  | btSlaveLe
  | specan
  | ledSpecan
  /-- `cc2400_rangetest`, looking for the repeated packet -/
  | rangeTest
  | repeater
  | egoMain
  /-- `reset`, which does not return -/
  | reset
  deriving DecidableEq, Repr

/-- `mode`, `requested_mode`, the pins, and where the main program is. -/
structure Radio where
  mode : Mode := .idle
  requestedMode : Mode := .idle
  pins : Pins := fun _ => false
  place : ModeFunction := .mainLoop

/-- The device at power on. -/
def radioOn : Radio := {}

/-- What a round of a loop meets. -/
structure Round where
  /-- `modulation` is one of the two that `cc2400_rx` and `cc2400_txtest` know -/
  modulationOk : Bool := true
  /-- `do_hop` -/
  doHop : Bool := false
  /-- `hop_mode` is one in which `hop` lights TXLED -/
  hopLights : Bool := false
  /-- a packet is received, or the signal is above `rssi_threshold` -/
  heard : Bool := false
  /-- `data_cb` returns 0 -/
  done : Bool := false
  /-- `le.target_set` -/
  targetSet : Bool := false
  /-- the timeout of `bt_le_sync` -/
  timedOut : Bool := false
  /-- `jam_mode == JAM_ONCE` -/
  jamOnce : Bool := false
  /-- `le_jam_count > 0`, or `start_jamming_state` -/
  jams : Bool := false
  /-- `jamming_state`, when its sleep has elapsed -/
  jamEnds : Bool := false
  /-- `restart_jamming` -/
  restarts : Bool := false
  /-- `i` of `led_specan` -/
  led : ℕ := 0
  /-- `iap_entry` reads the serial number -/
  serialRead : Bool := true
  /-- `STATUS_CRC_OK` -/
  crcOk : Bool := false
  /-- `ego_main` knows the mode -/
  egoKnown : Bool := true

/-! ## Writes -/

def cc2400IdleWrites : List PinWrite :=
  [.clr .paen, .clr .hgm, .clr .rxLed, .clr .txLed, .clr .usrLed]

/-- `cc2400_rx`, and `cc2400_rx_sync` -/
def cc2400RxWrites (modulationOk : Bool) : List PinWrite :=
  if modulationOk then [.set .paen, .set .hgm] else []

/-- `if (do_hop) hop();` -/
def hopWrites (r : Round) : List PinWrite :=
  if r.doHop && r.hopLights then [.set .txLed] else []

/-- `if (do_hop) hop(); else TXLED_CLR;` -/
def hopOrClearWrites (r : Round) : List PinWrite :=
  if r.doHop then hopWrites r else [.clr .txLed]

def streamRoundWrites (r : Round) : List PinWrite :=
  [.clr .rxLed] ++ hopOrClearWrites r ++ [.set .rxLed]

def genericRoundWrites (r : Round) : List PinWrite := hopOrClearWrites r ++ [.clr .rxLed]

/-- A round of `bt_le_sync` up to the timeout. -/
def leSyncRoundWrites (r : Round) : List PinWrite :=
  [.clr .rxLed] ++ (if r.heard then [.set .rxLed] else []) ++
    (if r.timedOut then [.clr .txLed] else [])

/-- The rest of it: `hop`, and `le_jam` or the receiver. -/
def leResumeWrites (txEnable : Bool) (r : Round) : List PinWrite :=
  hopWrites r ++
    (if r.jams then if txEnable then [.set .txLed, .set .paen] else []
      else if r.restarts then cc2400RxWrites r.modulationOk else [])

def leTransmitWrites : List PinWrite := [.set .txLed, .set .paen, .clr .txLed, .clr .paen]

/-- The LED of channel `i` -/
def specanLed (i : ℕ) : Pin :=
  match i % 3 with
  | 0 => .txLed
  | 1 => .rxLed
  | _ => .usrLed

/-- A round of `cc2400_repeater`. -/
def repeaterWrites : List PinWrite :=
  [.set .rxLed, .clr .txLed, .clr .usrLed, .set .paen, .clr .usrLed, .set .usrLed, .clr .usrLed,
    .clr .rxLed, .set .txLed, .clr .txLed]

def egoRoundWrites (txEnable : Bool) (r : Round) : List PinWrite :=
  (if r.heard then [.set .rxLed, .clr .rxLed] else []) ++
    (if r.jams && txEnable then [.set .paen, .set .txLed] else []) ++
    (if r.jamEnds then [.clr .paen, .clr .txLed] else [])

/-! ## Into and out of the functions -/

def Radio.write (s : Radio) (ws : List PinWrite) : Radio := { s with pins := writePins s.pins ws }

def cc2400Idle (s : Radio) : Radio := { s.write cc2400IdleWrites with mode := .idle }

def Radio.leave (s : Radio) : Radio := { s with place := .mainLoop }

/-- `bt_le_sync`, up to its loop; it has set `modulation` itself. -/
def toLeSync (activeMode : Mode) (s : Radio) : Radio :=
  { s with mode := activeMode, place := .btLeSync activeMode }.write
    (.clr .rxLed :: cc2400RxWrites true)

/-- `bt_generic_le`, up to its loop. -/
def toGenericLe (s : Radio) : Radio :=
  { s with mode := .btPromiscLe, place := .btGenericLe }.write
    (.clr .rxLed :: cc2400RxWrites true)

/-- The end of `bt_le_sync`, back in `bt_follow_le` or in `bt_promisc_le`. -/
def endLeSync (activeMode : Mode) (s : Radio) : Radio :=
  if activeMode = .btPromiscLe then { cc2400Idle s with place := .btPromiscLe }
  else { cc2400Idle s with mode := .idle, place := .mainLoop }

/-- The switch of `main`. -/
def dispatch (txEnable : Bool) (r : Round) (s : Radio) : Radio :=
  match s.requestedMode with
  | .reset => { s with place := .reset }
  | .afh | .rxSymbols | .btFollow =>
    { s with mode := s.requestedMode, place := .btStreamRx }.write
      (.clr .rxLed :: cc2400RxWrites r.modulationOk)
  | .btFollowLe => toLeSync .btFollowLe s
  | .btPromiscLe => { s with place := .btPromiscLe }
  | .btSlaveLe => { s with place := .btSlaveLe }
  | .txTest => { s with mode := .txTest }.write
      (if txEnable && r.modulationOk then [.set .txLed, .set .paen] else [])
  | .rangeTest =>
    if txEnable && r.serialRead then
      { s with mode := .rangeTest, place := .rangeTest }.write
        [.set .txLed, .set .paen, .clr .txLed, .set .rxLed]
    else { s with mode := .rangeTest, requestedMode := .idle }
  | .repeater =>
    { s with mode := .repeater, place := if txEnable then .repeater else .mainLoop }
  | .specan => { s with place := .specan }.write [.set .rxLed, .set .paen]
  | .ledSpecan => { s with place := .ledSpecan }.write [.set .paen]
  | .ego =>
    if r.egoKnown then { s with mode := .ego, place := .egoMain }
    else { s with mode := .ego, requestedMode := .idle }
  | .idle => cc2400Idle s
  | .txSymbols => s

/-- The main program goes on. -/
def proceed (txEnable : Bool) (r : Round) (s : Radio) : Radio :=
  match s.place with
  | .mainLoop => if s.requestedMode = s.mode then s else dispatch txEnable r s
  | .btStreamRx =>
    if s.requestedMode = .rxSymbols ∨ s.requestedMode = .btFollow then
      s.write (streamRoundWrites r)
    else s.leave
  | .btPromiscLe =>
    if s.requestedMode = .btPromiscLe then
      if r.targetSet then toLeSync .btPromiscLe s else toGenericLe s
    else s.leave
  | .btGenericLe =>
    if s.requestedMode = .btPromiscLe ∧ r.done = false then s.write (genericRoundWrites r)
    else { cc2400Idle s with place := .promiscHeard }
  | .promiscHeard =>
    if s.requestedMode = .btPromiscLe then toLeSync .btPromiscLe s else s.leave
  | .btLeSync activeMode =>
    if s.requestedMode ≠ activeMode then endLeSync activeMode s
    else
      let s := s.write (leSyncRoundWrites r)
      if r.timedOut ∧ r.jamOnce then endLeSync activeMode { s with requestedMode := .idle }
      else if r.timedOut ∧ activeMode = .btPromiscLe then endLeSync activeMode s
      else s.write (leResumeWrites txEnable r)
  | .btSlaveLe => if s.requestedMode = .btSlaveLe then s.write leTransmitWrites else s.leave
  | .specan => if s.requestedMode = .specan then s else (s.write [.clr .rxLed]).leave
  | .ledSpecan =>
    if s.requestedMode = .ledSpecan then
      s.write [if r.heard then .set (specanLed r.led) else .clr (specanLed r.led)]
    else s.leave
  | .rangeTest =>
    if r.crcOk then
      { s with requestedMode := .idle, place := .mainLoop }.write
        [.set .usrLed, .clr .paen, .clr .rxLed, .clr .usrLed]
    else s.write [.set .usrLed, .clr .usrLed]
  | .repeater => s.write repeaterWrites
  | .egoMain =>
    if s.requestedMode = .ego then s.write (egoRoundWrites txEnable r) else s.leave
  | .reset => s

/-- Requests for a mode come in at any time, as does TIMER0, which clears TXLED. -/
inductive RadioEvent
  | request (m : Mode)
  | timer0
  | proceed (r : Round)

def radioStep (txEnable : Bool) (s : Radio) : RadioEvent → Radio
  | .request m => { s with requestedMode := m }
  | .timer0 => s.write [.clr .txLed]
  | .proceed r => proceed txEnable r s

end Ubertooth.Firmware
