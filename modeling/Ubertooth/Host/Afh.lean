import Ubertooth.Host.Sniffing

/-!
# `ubertooth_callback.c`: the AFH monitor, and the tables of channels

`cb_afh_monitor` and `cb_afh_r` keep the map of used channels in the piconet of libbtbb, which is a
parameter (`AfhBtbb`). They and the callbacks that compute levels have tables of 79 channels, which
they subscript with the channel octet of a packet; each such use is recorded (`TableUse`). What a
write outside a table changes is left out.
-/

namespace Ubertooth.Host

/-- A table of channels, and the octet it is subscripted with. -/
inductive TableUse
  | rssiHistory (channel : U8)
  | lastSeen (channel : U8)
  deriving DecidableEq, Repr

/-- The subscript. -/
def TableUse.channel : TableUse → U8
  | rssiHistory channel => channel
  | lastSeen channel => channel

/-! ## Levels -/

/-- `determine_signal_and_noise`, as to its table. -/
def useHistory (rx : UsbPktRx) (history : RssiHistory) : List TableUse × RssiHistory :=
  ([.rssiHistory rx.channel],
    if h : rx.channel.toNat < numBredrChannels then (determineSignalAndNoise ⟨rx, h⟩ history).2
    else history)

/-- `cb_br_rx`, as to `rssi_history` -/
def cbBrRxHistory (rb : Ringbuffer) (history : RssiHistory) : List TableUse × RssiHistory :=
  let rx := rb.topUsb
  -- Sanity check
  if numBredrChannels - 1 < rx.channel.toNat then ([], history) else useHistory rx history

/-- `cb_btle`, as to `rssi_history`; `allowed` and `offenses` are those of `cbBtle`. -/
def cbBtleHistory (offenses : UsbPktRx → ℕ) (allowed : Option ℕ) (rb : Ringbuffer)
    (history : RssiHistory) : List TableUse × RssiHistory :=
  let rx := rb.topUsb
  if rx.pktType = UsbPktType.lePromisc.toU8 then ([], history)
  -- Sanity check
  else if numBredrChannels - 1 < rx.channel.toNat then ([], history)
  -- do nothing further if filtered due to bad AA
  else if allowed.any fun n => decide (n < offenses rx) then ([], history)
  else useHistory rx history

/-- `cb_rx`, as to `rssi_history` -/
def cbRxHistory (rb : Ringbuffer) (history : RssiHistory) : List TableUse × RssiHistory :=
  let rx := rb.bottomUsb
  if rx.status &&& StatusFlag.discard.mask ≠ 0 then ([], history)
  -- Sanity check
  else if numBredrChannels - 1 < rx.channel.toNat then ([], history)
  else useHistory rx history

/-! ## The AFH monitor -/

/-- What the AFH callbacks use of libbtbb, with its piconets `κ`. -/
structure AfhBtbb (κ : Type*) where
  /-- `btbb_find_ac(stream, search_length, lap, ..)`: the offset -/
  findAc : (ℕ → U8) → ℕ → U32 → ℤ
  lap : κ → U32
  /-- `btbb_piconet_set_channel_seen`, and whether it is a change -/
  setChannelSeen : κ → U8 → Bool × κ
  /-- `btbb_piconet_clear_channel_seen`, and whether it is a change -/
  clearChannelSeen : κ → U8 → Bool × κ
  channelSeen : κ → U8 → Bool

/-- The static variables; an `unsigned long` has `w` bits. -/
structure AfhStatics (w : ℕ) where
  lastSeen : Fin numBredrChannels → BitVec w := fun _ => 0
  counter : BitVec w := 0

/-- What is printed, and sent to the device. -/
inductive AfhAction
  | used (channel : U8)
  | unused (channel : Fin numBredrChannels)
  /-- `cmd_hop` -/
  | hop
  deriving DecidableEq, Repr

/-- What a call does, and the variables after it. -/
structure AfhOutcome (κ : Type*) (w : ℕ) where
  uses : List TableUse := []
  actions : List AfhAction := []
  statics : AfhStatics w
  pn : κ

section Monitor

variable {κ : Type*} {w : ℕ} (lib : AfhBtbb κ)

/-- The packet carries the access code of the piconet. -/
def Matching (pn : κ) (rb : Ringbuffer) : Prop :=
  ¬lib.findAc (fun k => rb.btCell (rb.topBtOffset + k)) (bankLen - 64) (lib.lap pn) < 0

instance (pn : κ) (rb : Ringbuffer) : Decidable (Matching lib pn rb) := instDecidableNot

/-- `last_seen[channel]=counter;` -/
def setLastSeen (channel : U8) (counter : BitVec w) (lastSeen : Fin numBredrChannels → BitVec w) :
    Fin numBredrChannels → BitVec w :=
  if h : channel.toNat < numBredrChannels then Function.update lastSeen ⟨channel.toNat, h⟩ counter
  else lastSeen

/-- The loop over the channels, from some on. -/
def clearUnused (report : Bool) (packetCounterMax : U32) (x : AfhStatics w) :
    List (Fin numBredrChannels) → κ → List AfhAction × κ
  | [], pn => ([], pn)
  | i :: is, pn =>
    if packetCounterMax.setWidth w ≤ x.counter - x.lastSeen i then
      let cleared := lib.clearChannelSeen pn (BitVec.ofNat 8 i)
      let rest := clearUnused report packetCounterMax x is cleared.2
      (if report && cleared.1 then .unused i :: rest.1 else rest.1, rest.2)
    else clearUnused report packetCounterMax x is pn

/-- The two callbacks differ in that one of them prints what it finds. -/
def cbAfh (report : Bool) (packetCounterMax : U32) (rb : Ringbuffer) (x : AfhStatics w) (pn : κ) :
    AfhOutcome κ w :=
  if ¬Matching lib pn rb then { statics := x, pn := pn }
  else
    let counter := x.counter + 1
    let channel := rb.topUsb.channel
    let x := { lastSeen := setLastSeen channel counter x.lastSeen, counter := counter }
    let seen := lib.setChannelSeen pn channel
    let cleared := clearUnused lib report packetCounterMax x (List.finRange numBredrChannels) seen.2
    { uses := [.lastSeen channel]
      actions := (if report && seen.1 then [.used channel] else []) ++ cleared.1 ++ [.hop]
      statics := x
      pn := cleared.2 }

/-- `cb_afh_monitor` -/
def cbAfhMonitor : U32 → Ringbuffer → AfhStatics w → κ → AfhOutcome κ w := cbAfh lib true

/-- `cb_afh_r` -/
def cbAfhR : U32 → Ringbuffer → AfhStatics w → κ → AfhOutcome κ w := cbAfh lib false

end Monitor

end Ubertooth.Host
