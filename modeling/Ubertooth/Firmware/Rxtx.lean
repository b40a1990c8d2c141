import Ubertooth.Firmware.UsbQueue

/-!
# `bluetooth_rxtx.c`: the clock interrupt, hopping, and the packet callbacks

The interrupt handler of TIMER0, `hop`, and the functions `bt_le_sync` calls through `packet_cb`
for every received packet: `connection_follow_cb` while a connection is followed, and the three
callbacks that recover the parameters of a connection already under way. LED writes and the radio
strobes have no effect on any of the state and are left out.
-/

namespace Ubertooth.Firmware

/-- `LE_BASECLK`: 1.25 ms in units of 100ns -/
abbrev leBaseclk : U32 := 12500

/-- `JAM_COUNT_DEFAULT` -/
def jamCountDefault : ℤ := 40

/-! ## Squelch -/

def csThresholdSet (level : U8) (s : Fw) : Fw :=
  let level := min (max level.toInt (-120)) (-20)
  { s with csThresholdCur := BitVec.ofInt 8 level, csNoSquelch := decide (level ≤ -120) }

def csThresholdCalcAndSet (s : Fw) : Fw :=
  if s.hopMode ≠ .none ∧ 0 < s.csThresholdReq.toInt then
    let rssi := s.rssiRounded (s.channel.toNat - 2402)
    csThresholdSet (BitVec.ofInt 8 (rssi.toInt - 54 + s.csThresholdReq.toInt)) s
  else csThresholdSet s.csThresholdReq s

/-! ## The clock interrupt -/

/-- The branch of `TIMER0_IRQHandler` for a connection being followed: count down the interval
timer, and at zero hop, count the interval and reload the timer. -/
def countInterval (s : Fw) : Fw :=
  let timer := s.le.intervalTimer - 1
  if timer = 0 then
    { s with
      doHop := true
      le := { s.le with connCount := s.le.connCount + 1, intervalTimer := s.le.connInterval } }
  else { s with le := { s.le with intervalTimer := timer } }

/-- Update CLKN. -/
def advanceClkn (s : Fw) : Fw :=
  { s with clkn := s.clkn + (s.clknOffset + 1), clknOffset := 0 }

/-- Trigger hop based on mode. -/
def triggerHop (s : Fw) : Fw :=
  let leClk := (s.clkn - s.le.connEpoch) &&& 0x03
  match s.hopMode with
  | .none | .sweep => if s.clkn &&& 0x7f = 0 then { s with doHop := true } else s
  | .bluetooth => if s.clkn &&& 0x1 = 0 then { s with doHop := true } else s
  | .btle =>
    -- Only hop if connected
    if s.le.linkState = .connected ∧ leClk = 0 then countInterval s else s
  | .afh =>
    if s.lastHop + s.hopTimeout.setWidth 32 = s.clkn then { s with doHop := true } else s
  | .direct => s

/-- `TIMER0_IRQHandler`, on a match interrupt. -/
def timer0IRQHandler (s : Fw) : Fw :=
  let s := triggerHop (advanceClkn s)
  { s with t0mr0 := 3124 + s.clk100nsOffset.setWidth 32, clk100nsOffset := 0 }

/-! ## Hopping -/

/-- One step of the channel search: 32 channels up, wrapping at the end of the band. -/
def sweepNext (channel : U16) : U16 :=
  let channel := channel + 32
  if 2480 < channel then channel - 79 else channel

/-- `afh_map[i/8] & 0x1<<(i%8)`. The code does not check the subscript; outside the map the model
reads a clear bit. -/
def HopVars.afhMapBit (h : HopVars) (i : ℤ) : Bool :=
  if hi : 0 ≤ i ∧ i < 80 then (h.afhMap.get ⟨i.toNat / 8, by omega⟩).getLsbD (i.toNat % 8)
  else false

/-- The do-while loops of `hop`: search on while `again` holds of the channel. The channel is a
16-bit word and alone decides how the search goes on, so a search that has not ended after `2^16`
steps never ends. -/
def hopSearch (again : U16 → Bool) : ℕ → U16 → Except Fault U16
  | 0, _ => .error .hang
  | n + 1, channel =>
    let channel := sweepNext channel
    if again channel then hopSearch again n channel else .ok channel

/-- The channel `hop` moves to, by `hop_mode`. -/
def hopChannel (s : Fw) : Except Fault Fw :=
  match s.hopMode with
  | .none => .ok s
  | .sweep => do
    -- only hop to currently used channels if AFH is enabled
    let channel ← hopSearch (fun channel => decide (s.hopVars.usedChannels ≠ 0) &&
      s.hopVars.afhEnabled && !s.hopVars.afhMapBit (channel.toNat - 2402)) (2 ^ 16) s.channel
    return { s with channel := channel }
  | .afh => do
    -- only hop to currently unused channels
    let channel ← hopSearch (fun channel => decide (s.hopVars.usedChannels ≠ 79) &&
      s.hopVars.afhMapBit (channel.toNat - 2402)) (2 ^ 16) s.channel
    return { s with channel := channel }
  | .bluetooth => do
    let channel ← nextHop s.hopVars s.clkn
    return { s with channel := channel }
  | .btle => .ok { s with channel := (btleNextHop s.le).1, le := (btleNextHop s.le).2 }
  | .direct => .ok { s with channel := s.hopDirectChannel }

/-- Retune, and update the squelch if hopping. -/
def retune (s : Fw) : Fw :=
  let s := { s with fsdiv := s.channel - 1 }
  let s := if s.hopMode ≠ .none then csThresholdCalcAndSet s else s
  { s with dmaDiscard := true }

def hop (s : Fw) : Except Fault Fw := do
  let s := { s with doHop := false, lastHop := s.clkn }
  -- No hopping, if channel is set correctly, do nothing
  if s.hopMode = .none ∧ s.fsdiv.toNat + 1 = s.channel.toNat then return s
  let s ← hopChannel s
  return retune s

/-! ## The link state -/

/-- set LE access address -/
def leSetAccessAddress (aa : U32) (le : LeState) : LeState :=
  let aaRev := aa.reverse
  { le with
    accessAddress := aa
    syncl := (aaRev &&& 0xffff).setWidth 16
    synch := (aaRev >>> 16).setWidth 16 }

/-- The assignments of `reset_le` to `le`. The target, and `win_offset_update` (which is named in
a statement without effect), keep their values. -/
def LeState.reset (le : LeState) : LeState :=
  { leSetAccessAddress 0x8e89bed6 le with
    crcInit := 0x555555
    crcInitReversed := 0xAAAAAA
    crcVerify := true
    lastPacket := 0
    linkState := .inactive
    channelIdx := 0
    channelIncrement := 0
    connEpoch := 0
    intervalTimer := 0
    connInterval := 0
    connCount := 0
    winSize := 0
    winOffset := 0
    updatePending := false
    updateInstant := 0
    intervalUpdate := 0
    winSizeUpdate := 0 }

def resetLe (s : Fw) : Fw := { s with le := s.le.reset, doHop := false }

def resetLePromisc (s : Fw) : Fw :=
  { s with lePromisc := { smallestHopInterval := 0xffffffff } }

/-! ## The CRC check of `bt_le_sync` -/

/-- `len` in `bt_le_sync`: the header and the payload. -/
def pduLen (p : Packet) : ℕ := (p[5] &&& 0x3f).toNat + 2

/-- `p + 4`: the octets from the header on. -/
def pdu (p : Packet) : List U8 := p.octets.toList.drop 4

/-- `wire_crc`: the three octets after the payload, low octet first. -/
def wireCrc (p : Packet) : U32 :=
  let octet : ℕ → U32 := fun i => p[i].setWidth 32
  (octet (4 + pduLen p + 2) <<< 16) ||| (octet (4 + pduLen p + 1) <<< 8) |||
    octet (4 + pduLen p)

/-- The packets `bt_le_sync` hands to `packet_cb`. -/
def btLeSyncAccepts (le : LeState) (p : Packet) : Bool :=
  decide (pduLen p ≤ 39) &&
    (!le.crcVerify ||
      decide (btleCrcgenLut le.crcInitReversed (pdu p) (pduLen p) = wireCrc p))

/-! ## Following a connection -/

/-- `lo + ((u16)hi << 8)` -/
def u16le (lo hi : U8) : U16 := lo.setWidth 16 + (hi.setWidth 16 <<< 8)

/-- `InitA`, octets 6 to 11. -/
def initA (packet : Packet) : Vector U8 6 :=
  #v[packet[6], packet[7], packet[8], packet[9], packet[10], packet[11]]

/-- `AdvA`, octets 12 to 17. -/
def advA (packet : Packet) : Vector U8 6 :=
  #v[packet[12], packet[13], packet[14], packet[15], packet[16], packet[17]]

/-- We received a packet in the connection pending state, so now the device *should* be
connected. -/
def enterConnected (s : Fw) : Fw :=
  { s with
    le := { s.le with
      linkState := .connected
      connEpoch := s.clkn
      intervalTimer := s.le.connInterval - 1
      connCount := 0
      updatePending := false }
    leJamCount := if s.jamMode ≠ jamNone then jamCountDefault else s.leJamCount }

/-- Whether a pending update takes effect at this packet. -/
def LeState.UpdateDue (le : LeState) : Prop :=
  le.updatePending = true ∧ le.connCount = le.updateInstant

instance (le : LeState) : Decidable le.UpdateDue := instDecidableAnd

/-- Apply any connection parameter update if necessary. -/
def LeState.applyUpdate (clkn : U32) (le : LeState) : LeState :=
  if le.UpdateDue then
    { le with
      connEpoch := clkn
      connInterval := le.intervalUpdate
      intervalTimer := le.intervalUpdate - 1
      winSize := le.winSizeUpdate
      winOffset := le.winOffsetUpdate
      updatePending := false }
  else le

/-- `llid == 0x03 && data[0] == 0x00` -/
def isConnectionUpdateReq (packet : Packet) : Bool :=
  packet[4] &&& 0x03 = 0x03 && packet[6] = 0x00

/-- `le.update_instant - le.conn_count < 32767`: the difference of the two 16-bit counters is an
`int`. -/
def InstantAhead (updateInstant connCount : U16) : Prop :=
  (updateInstant.toNat : ℤ) - connCount.toNat < 32767

instance (updateInstant connCount : U16) : Decidable (InstantAhead updateInstant connCount) :=
  inferInstanceAs (Decidable (_ < _))

/-- The host is changing the connection parameters. -/
def LeState.recordUpdate (packet : Packet) (le : LeState) : LeState :=
  { le with
    winSizeUpdate := packet[7]
    winOffsetUpdate := u16le packet[8] packet[9]
    intervalUpdate := u16le packet[10] packet[11]
    updateInstant := u16le packet[16] packet[17]
    updatePending :=
      if InstantAhead (u16le packet[16] packet[17]) le.connCount then true else le.updatePending }

/-- if we have a target, see if InitA or AdvA matches -/
def targetMismatch (le : LeState) (packet : Packet) : Bool :=
  le.targetSet && le.target != initA packet && le.target != advA packet

/-- The access address of a CONNECT_REQ, octets 18 to 21. -/
def connectAccessAddress (packet : Packet) : U32 :=
  packet[18].setWidth 32 ||| (packet[19].setWidth 32 <<< 8) |||
    (packet[20].setWidth 32 <<< 16) ||| (packet[21].setWidth 32 <<< 24)

/-- The CRCInit of a CONNECT_REQ, octets 22 to 24. -/
def connectCrcInit (packet : Packet) : U32 :=
  (packet[24].setWidth 32 <<< 16) ||| (packet[23].setWidth 32 <<< 8) ||| packet[22].setWidth 32

/-- This is a connect packet, for us. -/
def followConnect (packet : Packet) (s : Fw) : Fw :=
  let le := leSetAccessAddress (connectAccessAddress packet)
    { s.le with linkState := .connPending, crcVerify := false }
  { s with
    le := { le with
      crcInit := connectCrcInit packet
      crcInitReversed := (connectCrcInit packet).reverse
      winSize := packet[25]
      winOffset := packet[26].setWidth 16
      connInterval := packet[28].setWidth 16
      channelIncrement := packet[39] &&& 0x1f
      channelIdx := packet[39] &&& 0x1f }
    -- Hop to the initial channel immediately
    doHop := true }

/-- Called when we receive a packet in connection following mode. -/
def connectionFollowCb (packet : Packet) (s : Fw) : Fw :=
  match s.le.linkState with
  | .connPending => enterConnected s
  | .connected =>
    let le := s.le.applyUpdate s.clkn
    { s with le := if isConnectionUpdateReq packet then le.recordUpdate packet else le }
  | .listening =>
    if packet[4] &&& 0x0f = 0x05 then
      if targetMismatch s.le packet then s else followConnect packet s
    else s
  | .inactive => s

/-! ## Recovering the parameters of a connection -/

/-- The `n` low octets of a word in memory. -/
def octetsOf (x : U32) (n : ℕ) : List U8 :=
  (List.range n).map fun i => (x >>> (8 * i)).setWidth 8

/-- `buf` in `le_promisc_state`. -/
def lePromiscBuf (type : U8) (data : List U8) : Vector U8 dmaSize :=
  Vector.ofFn fun i => if i.val = 0 then type else (data.take 49).getD (i.val - 1) 0

/-- issue state change message -/
def lePromiscState (type : U8) (data : List U8) (s : Fw) : Fw :=
  (enqueue .lePromisc (lePromiscBuf type data) s).2

/-- divide, rounding to the nearest integer: round up at 0.5. -/
def divideRound (n d : U32) : U32 := (n + d / 2) / d

/-- Get the hop increment based on the number of channels hopped, and move on to regular
connection following. -/
def recoverIncrement (channelsHopped : Fin 37) (s : Fw) : Fw :=
  let increment := hopIntervalLut[channelsHopped]
  lePromiscState 3 (octetsOf (increment.setWidth 32) 1) { s with
    le := { s.le with
      channelIncrement := increment
      intervalTimer := s.le.connInterval / 2
      connCount := 0
      connEpoch := 0
      channelIdx := BitVec.ofNat 8 ((1 + increment.toNat) % 37)
      linkState := .connected
      crcVerify := false }
    doHop := false
    hopMode := .btle
    packetCb := .connectionFollow
    leJamCount := if s.jamMode ≠ jamNone then jamCountDefault else s.leJamCount }

/-- Number of channels hopped between previous and current timestamp. For a connection interval of 0
the processor's division gives 0. -/
def channelsHopped (s : Fw) : U32 :=
  let secondTs := s.clk100ns
  let secondTs := if secondTs < s.firstTs then secondTs + 3276800000 else secondTs
  divideRound (secondTs - s.firstTs) (s.le.connInterval.setWidth 32 * leBaseclk)

def promiscRecoverHopIncrement (s : Fw) : Fw :=
  if s.channel = 2404 then
    { s with firstTs := s.clk100ns, hopDirectChannel := 2406, doHop := true }
  else if s.channel = 2406 then
    if h : (channelsHopped s).toNat < 37 then recoverIncrement ⟨(channelsHopped s).toNat, h⟩ s
    else { s with hopDirectChannel := 2404, doHop := true }
  else { s with hopDirectChannel := 2404, doHop := true }

/-- What follows the fifth observation of the same hop interval. -/
def hopIntervalFound (s : Fw) : Fw :=
  lePromiscState 2 (octetsOf (s.le.connInterval.setWidth 32) 2) { s with
    packetCb := .promiscRecoverHopIncrement
    hopDirectChannel := 2404
    hopMode := .direct
    doHop := true }

/-- The hop interval observed. -/
def obsvHopInterval (s : Fw) : U16 :=
  (divideRound s.lePromisc.smallestHopInterval (37 * leBaseclk)).setWidth 16

/-- Compare the hop interval observed now with the one observed before. -/
def observeHopInterval (s : Fw) : Fw :=
  if s.le.connInterval = obsvHopInterval s then
    let consec := s.lePromisc.consecIntervals + 1
    let s := { s with lePromisc := { s.lePromisc with consecIntervals := consec } }
    -- 5 consecutive hop intervals: consider it legit and move on
    if consec = 5 then hopIntervalFound s else s
  else
    { s with
      le := { s.le with connInterval := obsvHopInterval s }
      lePromisc := { s.lePromisc with consecIntervals := 0 } }

/-- `cur_clk`, with rollover handled. -/
def recoverCurClk (s : Fw) : U32 :=
  if s.clk100ns < s.prevClk then s.clk100ns + 3267800000 else s.clk100ns

/-- Keep the smallest time between two hops. -/
def noteClkDiff (clkDiff : U32) (s : Fw) : Fw :=
  if clkDiff < s.lePromisc.smallestHopInterval then
    { s with lePromisc := { s.lePromisc with smallestHopInterval := clkDiff } }
  else s

def promiscRecoverHopInterval (s : Fw) : Fw :=
  let clkDiff := recoverCurClk s - s.prevClk
  -- probably consecutive data packets on the same channel
  if clkDiff < 2 * leBaseclk then s
  else { observeHopInterval (noteClkDiff clkDiff s) with prevClk := recoverCurClk s }

/-- The CRC of an empty data PDU, octets 6 to 8. -/
def emptyPduCrc (packet : Packet) : U32 :=
  (packet[8].setWidth 32 <<< 16) ||| (packet[7].setWidth 32 <<< 8) ||| packet[6].setWidth 32

/-- Get the CRCInit from an empty data PDU. -/
def recoverCrcInit (packet : Packet) (s : Fw) : Fw :=
  let crcInit := btleReverseCrc (emptyPduCrc packet) (pdu packet) 2
  lePromiscState 1 (octetsOf crcInit 3) { s with
    le := { s.le with
      crcInit := crcInit
      crcInitReversed := reverse24 crcInit
      crcVerify := true }
    packetCb := .promiscRecoverHopInterval }

def promiscFollowCb (packet : Packet) (s : Fw) : Fw :=
  if !s.le.crcVerify && packet[4] = 0x01 && packet[5] = 0x00 then recoverCrcInit packet s else s

/-- `packet_cb(packet)` -/
def packetCallback (packet : Packet) (s : Fw) : Fw :=
  match s.packetCb with
  | .null => s
  | .connectionFollow => connectionFollowCb packet s
  | .promiscFollow => promiscFollowCb packet s
  | .promiscRecoverHopInterval => promiscRecoverHopInterval s
  | .promiscRecoverHopIncrement => promiscRecoverHopIncrement s

/-! ## Into and out of `bt_le_sync` -/

/-- What `bt_le_sync` does before its loop. -/
def enterLeSync (s : Fw) : Fw := queueInit { s with le := { s.le with linkState := .listening } }

/-- The request `UBERTOOTH_BTLE_SNIFFING`. -/
def btleSniffing (s : Fw) : Fw :=
  csThresholdCalcAndSet (queueInit { s with doHop := false, hopMode := .btle })

/-- `bt_follow_le`, up to the loop of `bt_le_sync`. -/
def btFollowLe (s : Fw) : Fw := enterLeSync { resetLe s with packetCb := .connectionFollow }

/-- `bt_generic_le(MODE_BT_PROMISC_LE)` as far as the link goes: listen until the access address
`aa` has been seen often enough. -/
def listenForAddress (aa : U32) (s : Fw) : Fw :=
  let s := queueInit (resetLe s)
  lePromiscState 0 (octetsOf aa 4) { s with
    le := { leSetAccessAddress aa s.le with crcVerify := false }
    packetCb := .promiscFollow }

/-- `bt_promisc_le`, up to the loop of `bt_le_sync`; `aa` is the address heard if the PC hasn't
given us one. -/
def btPromiscLe (aa : U32) (s : Fw) : Fw :=
  let s := resetLePromisc s
  -- jump to a random data channel and turn up the squelch
  let s := if s.channel &&& 1 = 1 then { s with channel := 2440 } else s
  let s := if s.le.targetSet then s else listenForAddress aa (csThresholdCalcAndSet s)
  let s := lePromiscState 0 (octetsOf s.le.accessAddress 4) s
  enterLeSync { s with packetCb := .promiscFollow, le := { s.le with crcVerify := false } }

/-- The connection has timed out, or jamming has finished, and `bt_le_sync` listens again on
`savedRequest`, or on the first advertising channel. -/
def connectionLost (savedRequest : U16) (s : Fw) : Fw :=
  let s := resetLe s
  { s with
    leJamCount := 0
    le := { s.le with linkState := .listening }
    channel := if savedRequest ≠ 0 then savedRequest else 2402 }

/-- The same, where `bt_le_sync` returns: after jamming once, or in promiscuous mode. -/
def connectionLeft (s : Fw) : Fw :=
  let s := resetLe s
  { s with
    leJamCount := 0
    jamMode := if s.jamMode = jamOnce then jamNone else s.jamMode }

end Ubertooth.Firmware
