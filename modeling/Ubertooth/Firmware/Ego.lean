import Ubertooth.Firmware.UsbQueue

/-!
# `ego.c`: following the Yuneec E-GO

A state machine with one table of handlers for each mode. A handler reads `CLK100NS` a few times
while it runs: `clk i` is the reading at its `i`-th. Whether the radio has synchronised, and the
octets that `enqueue_with_ts` copies, are arguments. Radio strobes, LEDs and the jamming signal have
no effect on any of the state.
-/

namespace Ubertooth.Firmware

/-- `channels` -/
def egoChannels : Fin 4 → U16
  | 0 => 2408
  | 1 => 2418
  | 2 => 2423
  | 3 => 2469

/-- `ego_state_t` -/
inductive EgoState
  | init | startRx | cap | sleep | startJamming | jamming
  deriving DecidableEq, Repr

/-- `ego_mode_t` -/
inductive EgoMode
  | follow | continuousRx | jam
  deriving DecidableEq, Repr

/-- `ego_fsm_state_t`, with the values `ego_main` initialises it to. -/
structure EgoFsmState where
  state : EgoState := .init
  channelIndex : Fin 4 := 0
  sleepStart : U32 := 0
  sleepDuration : U32 := 0
  timerActive : Bool := false
  /-- used by jamming -/
  packetObserved : Bool := false
  anchor : U32 := 0
  deriving DecidableEq, Repr

/-- `state`, as `ego_main` initialises it. -/
def egoMainState : EgoFsmState := {}

/-- What the radio gives a handler. -/
structure EgoInput where
  /-- `sync_received()` -/
  syncReceived : Bool
  /-- the octets at `packet.rxbuf` -/
  rxbuf : Vector U8 dmaSize

/-- sleep for some milliseconds -/
def sleepMs (now duration : U32) (st : EgoFsmState) : EgoFsmState :=
  { st with sleepStart := now, sleepDuration := duration * 1000 * 10 }

/-- sleep for some milliseconds relative to the current anchor point -/
def sleepMsAnchor (duration : U32) (st : EgoFsmState) : EgoFsmState :=
  { st with sleepStart := st.anchor, sleepDuration := duration * 1000 * 10 }

/-- The time that `sleep_elapsed` compares with the duration. -/
def sleepTime (now : U32) (st : EgoFsmState) : U32 :=
  let now := if now < st.sleepStart then now + 3276800000 else now
  now - st.sleepStart

def sleepElapsed (now : U32) (st : EgoFsmState) : Bool :=
  decide (st.sleepDuration ≤ sleepTime now st)

/-- change channel -/
def changeChannel (x : Fw × EgoFsmState) : Fw × EgoFsmState :=
  ({ x.1 with channel := egoChannels (x.2.channelIndex + 1) },
    { x.2 with channelIndex := x.2.channelIndex + 1 })

/-! ## The handlers -/

/-- used in follow and jam mode, override the channel supplied by user -/
def initState (x : Fw × EgoFsmState) : Fw × EgoFsmState :=
  ({ x.1 with channel := egoChannels 0 }, { x.2 with channelIndex := 0, state := .startRx })

def startRfState (x : Fw × EgoFsmState) : Fw × EgoFsmState :=
  ({ x.1 with fsdiv := x.1.channel - 1 }, { x.2 with state := .cap })

/-- kill RF on state change -/
def killRf (x : Fw × EgoFsmState) : Fw × EgoFsmState :=
  if x.2.state ≠ .cap then (x.1, { x.2 with timerActive := true }) else x

/-- Readings: `packet.rxtime`, `sleep_elapsed`, and the two calls of `sleep_ms`. -/
def capState (clk : ℕ → U32) (i : EgoInput) (x : Fw × EgoFsmState) : Fw × EgoFsmState :=
  let st :=
    if sleepElapsed (clk 1) x.2 then { sleepMs (clk 2) 4 x.2 with state := .sleep } else x.2
  killRf <|
    if i.syncReceived then
      ((enqueueWithTs .egoPacket i.rxbuf (clk 0) x.1).2,
        { sleepMs (clk 3) 6 st with state := .sleep })
    else (x.1, st)

/-- Readings: `sleep_elapsed` and `sleep_ms`. -/
def sleepState (clk : ℕ → U32) (x : Fw × EgoFsmState) : Fw × EgoFsmState :=
  if sleepElapsed (clk 0) x.2 then
    let (s, st) := changeChannel x
    -- set 7 ms timeout for RX
    (s, { sleepMs (clk 1) 7 st with timerActive := true, state := .startRx })
  else x

/-- continuous cap states (reuses START_RX state) -/
def continuousInitState (x : Fw × EgoFsmState) : Fw × EgoFsmState :=
  (x.1, { x.2 with state := .startRx })

/-- Reading: `packet.rxtime`. -/
def continuousCapState (clk : ℕ → U32) (i : EgoInput) (x : Fw × EgoFsmState) : Fw × EgoFsmState :=
  if i.syncReceived then ((enqueueWithTs .egoPacket i.rxbuf (clk 0) x.1).2, x.2) else x

/-- Readings: the anchor, `sleep_elapsed` and `sleep_ms`. -/
def jamCapState (clk : ℕ → U32) (i : EgoInput) (x : Fw × EgoFsmState) : Fw × EgoFsmState :=
  let st :=
    if i.syncReceived then
      { x.2 with state := .startJamming, packetObserved := true, anchor := clk 0 }
    else x.2
  if st.timerActive && sleepElapsed (clk 1) st then
    -- 11 ms hop interval
    (x.1, sleepMs (clk 2) 11 { st with state := .startJamming, packetObserved := false })
  else (x.1, st)

def startJammingState (x : Fw × EgoFsmState) : Fw × EgoFsmState :=
  ({ x.1 with fsdiv := x.1.channel }, sleepMsAnchor 2 { x.2 with state := .jamming })

/-- Reading: `sleep_elapsed`. -/
def jammingState (clk : ℕ → U32) (x : Fw × EgoFsmState) : Fw × EgoFsmState :=
  if sleepElapsed (clk 0) x.2 then
    let (s, st) := changeChannel x
    (s, sleepMsAnchor 6 { st with state := .sleep })
  else x

/-- Reading: `sleep_elapsed`. -/
def jamSleepState (clk : ℕ → U32) (x : Fw × EgoFsmState) : Fw × EgoFsmState :=
  if sleepElapsed (clk 0) x.2 then
    (x.1, sleepMsAnchor 11 { x.2 with state := .startRx, timerActive := true })
  else x

/-- `handler[state.state](&state)`, with the table of the mode. -/
def egoHandler (mode : EgoMode) (clk : ℕ → U32) (i : EgoInput) (x : Fw × EgoFsmState) :
    Fw × EgoFsmState :=
  match mode, x.2.state with
  | .follow, .init => initState x
  | .follow, .startRx => startRfState x
  | .follow, .cap => capState clk i x
  | .follow, .sleep => sleepState clk x
  | .follow, .startJamming => x
  | .follow, .jamming => x
  | .continuousRx, .init => continuousInitState x
  | .continuousRx, .startRx => startRfState x
  | .continuousRx, .cap => continuousCapState clk i x
  | .continuousRx, .sleep => x
  | .continuousRx, .startJamming => x
  | .continuousRx, .jamming => x
  | .jam, .init => initState x
  | .jam, .startRx => startRfState x
  | .jam, .cap => jamCapState clk i x
  | .jam, .sleep => jamSleepState clk x
  | .jam, .startJamming => startJammingState x
  | .jam, .jamming => jammingState clk x

end Ubertooth.Firmware
