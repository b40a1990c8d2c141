import Ubertooth.Interface

/-!
# `ubertooth_callback.c`: sniffing Low Energy and E-GO packets

`cb_btle` and `cb_ego` print a line for the packet received last, with the time since the packet
before. The static variables `prev_ts` are in `CallbackState`. Captures to a file change nothing
that is read back, and nor do the levels that go into them; `determine_signal_and_noise`, which
computes those, has a history of its own.
-/

namespace Ubertooth.Host

/-- `NUM_BREDR_CHANNELS` -/
abbrev numBredrChannels : ℕ := 79

/-- The static variables of the callbacks. -/
structure CallbackState where
  /-- `prev_ts` of `cb_btle` -/
  btlePrevTs : U32 := 0
  /-- `prev_ts` of `cb_ego` -/
  egoPrevTs : U32 := 0
  deriving DecidableEq, Repr

/-- The time printed, in units of 100 ns. -/
def tsDiff (prevTs rxTs : U32) : U32 :=
  let rxTs' := if rxTs < prevTs then rxTs + 3276800000 else rxTs
  rxTs' - prevTs

/-- What a callback prints. -/
inductive CallbackOutput
  | none
  /-- an LE promiscuous mode state change -/
  | lePromisc (state : U8) (value : List U8)
  /-- a packet: its frequency, the time since the one before, and its octets -/
  | packet (freq : ℕ) (diff : U32) (octets : List U8)
  deriving DecidableEq, Repr

/-- `*val`, as wide as the state is printed. -/
def lePromiscValue (state : U8) (rx : UsbPktRx) : List U8 :=
  let width :=
    if state = 0 ∨ state = 1 then 4 else if state = 2 then 2 else if state = 3 then 1 else 0
  (rx.data.toList.drop 1).take width

/-- The end of the octets printed, `data[5]` giving the length. -/
def btleLen (rx : UsbPktRx) : ℕ := min ((rx.data.toList.getD 5 0 &&& 0x3f).toNat + 6 + 3) 50

/-- `allowed` is the number of access address errors that the options allow, if there are any, and
`offenses` how many the decoded packet has. -/
def cbBtle (offenses : UsbPktRx → ℕ) (allowed : Option ℕ) (rx : UsbPktRx) (c : CallbackState) :
    CallbackOutput × CallbackState :=
  -- display LE promiscuous mode state changes
  if rx.pktType = UsbPktType.lePromisc.toU8 then
    let state := rx.data.toList.getD 0 0
    (.lePromisc state (lePromiscValue state rx), c)
  -- Sanity check
  else if numBredrChannels - 1 < rx.channel.toNat then (.none, c)
  -- do nothing further if filtered due to bad AA
  else if allowed.any fun n => decide (n < offenses rx) then (.none, c)
  else
    (.packet (rx.channel.toNat + 2402) (tsDiff c.btlePrevTs rx.clk100ns)
        ((rx.data.toList.take (btleLen rx)).drop 4),
      { c with btlePrevTs := rx.clk100ns })

/-- Sniff E-GO packets -/
def cbEgo (rx : UsbPktRx) (c : CallbackState) : CallbackOutput × CallbackState :=
  (.packet (rx.channel.toNat + 2402) (tsDiff c.egoPrevTs rx.clk100ns) (rx.data.toList.take 36),
    { c with egoPrevTs := rx.clk100ns })

/-! ## Signal and noise -/

/-- models the cc2400 datasheet fig 22 for 1M as piece-wise linear -/
def cc2400RssiToDbm (rssi : U8) : U8 :=
  let rssi := rssi.toInt
  if rssi < -48 then -120
  else if rssi ≤ -45 then BitVec.ofInt 8 (6 * (rssi + 28))
  else if rssi ≤ 30 then BitVec.ofInt 8 ((99 * (rssi - 62)).tdiv 110)
  else if rssi ≤ 35 then BitVec.ofInt 8 ((60 * (rssi - 35)).tdiv 11)
  else 0

/-- `RSSI_HISTORY_LEN` -/
abbrev rssiHistoryLen : ℕ := 10

/-- `rssi_history` -/
abbrev RssiHistory := Fin numBredrChannels → Fin rssiHistoryLen → U8

/-- `{{INT8_MIN}}`: the first entry of the first channel, and zeros. -/
def initialHistory : RssiHistory := fun c i => if c = 0 ∧ i = 0 then -128 else 0

/-- Shift rssi max history and append current max -/
def shiftHistory (history : Fin rssiHistoryLen → U8) (rssiMax : U8) : Fin rssiHistoryLen → U8 :=
  fun i => if h : i.val + 1 < rssiHistoryLen then history ⟨i.val + 1, h⟩ else rssiMax

/-- `MAX` of two `int8_t` -/
def max8 (a b : U8) : U8 := if b.toInt < a.toInt then a else b

/-- use all banks in history -/
def historyMax (history : Fin rssiHistoryLen → U8) : U8 :=
  (List.finRange rssiHistoryLen).tail.foldl (fun rssi i => max8 rssi (history i)) (history 0)

/-- A packet on one of the channels, as the callbacks make sure of. -/
abbrev BredrPkt := { rx : UsbPktRx // rx.channel.toNat < numBredrChannels }

/-- `rx->channel` as a subscript -/
def BredrPkt.channel (rx : BredrPkt) : Fin numBredrChannels := ⟨rx.val.channel.toNat, rx.property⟩

/-- `*sig` and `*noise`, and the history after the call. -/
def determineSignalAndNoise (rx : BredrPkt) (history : RssiHistory) : (U8 × U8) × RssiHistory :=
  let shifted := shiftHistory (history rx.channel) rx.val.rssiMax
  ((cc2400RssiToDbm (historyMax shifted), cc2400RssiToDbm rx.val.rssiAvg),
    Function.update history rx.channel shifted)

end Ubertooth.Host
