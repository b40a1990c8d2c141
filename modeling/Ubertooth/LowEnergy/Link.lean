import Ubertooth.Firmware.Frames

/-!
# The steps of a followed link

What each function that touches `le` does, stated once: the branches of `connection_follow_cb`
(`connectionFollowCb_pending` and its neighbours), the tick of TIMER0 in `HOP_BTLE`
(`timer0IRQHandler_of_counts` and its neighbours), and a hop in `HOP_BTLE` (`hop_btle`). The
invariants of the later modules are derived from these and unfold nothing.

`LeEvent` is what happens to the firmware while it runs `bt_le_sync`, and `leStep` the state it
leaves.
-/

namespace Ubertooth.LowEnergy

open Firmware

/-! ## `connection_follow_cb` -/

/-- The packets `connection_follow_cb` follows in `s`: a CONNECT_REQ, while listening, for us. -/
def AcceptsConnect (p : Packet) (s : Fw) : Prop :=
  s.le.linkState = .listening ∧ p[4] &&& 0x0f = 0x05 ∧ targetMismatch s.le p = false

instance (p : Packet) (s : Fw) : Decidable (AcceptsConnect p s) :=
  inferInstanceAs (Decidable (_ ∧ _))

/-- What a packet makes of `le` on a connection. -/
def connectedLe (p : Packet) (clkn : U32) (le : LeState) : LeState :=
  if isConnectionUpdateReq p then (le.applyUpdate clkn).recordUpdate p else le.applyUpdate clkn

theorem connectionFollowCb_pending {p : Packet} {s : Fw} (h : s.le.linkState = .connPending) :
    connectionFollowCb p s = enterConnected s := by
  unfold connectionFollowCb
  rw [h]

theorem connectionFollowCb_connected {p : Packet} {s : Fw} (h : s.le.linkState = .connected) :
    connectionFollowCb p s = { s with le := connectedLe p s.clkn s.le } := by
  unfold connectionFollowCb
  rw [h]
  rfl

theorem connectionFollowCb_of_acceptsConnect {p : Packet} {s : Fw} (h : AcceptsConnect p s) :
    connectionFollowCb p s = followConnect p s := by
  obtain ⟨hl, h4, ht⟩ := h
  unfold connectionFollowCb
  rw [hl]
  show (if p[4] &&& 0x0f = 0x05 then if targetMismatch s.le p = true then s else followConnect p s
    else s) = followConnect p s
  rw [if_pos h4, if_neg (by rw [ht]; decide)]

/-- Off a connection, any other packet is ignored. -/
theorem connectionFollowCb_ignored {p : Packet} {s : Fw} (hp : s.le.linkState ≠ .connPending)
    (hc : s.le.linkState ≠ .connected) (ha : ¬AcceptsConnect p s) : connectionFollowCb p s = s := by
  unfold connectionFollowCb
  split
  case h_1 h => exact absurd h hp
  case h_2 h => exact absurd h hc
  case h_3 hl =>
    split
    case isTrue h4 =>
      split
      case isTrue => rfl
      case isFalse ht => exact absurd ⟨hl, h4, Bool.eq_false_iff.2 ht⟩ ha
    case isFalse => rfl
  case h_4 => rfl

/-! ### Updates -/

/-- Once the update that is due has been applied, a packet touches the recorded one only. -/
theorem connectedLe_frame (p : Packet) (clkn : U32) (le : LeState) :
    ∃ w o i n u, connectedLe p clkn le = { le.applyUpdate clkn with
      winSizeUpdate := w
      winOffsetUpdate := o
      intervalUpdate := i
      updateInstant := n
      updatePending := u } := by
  unfold connectedLe
  split
  · exact ⟨_, _, _, _, _, rfl⟩
  · exact ⟨(le.applyUpdate clkn).winSizeUpdate, (le.applyUpdate clkn).winOffsetUpdate,
      (le.applyUpdate clkn).intervalUpdate, (le.applyUpdate clkn).updateInstant,
      (le.applyUpdate clkn).updatePending, rfl⟩

theorem connectedLe_of_not_req {p : Packet} (h : isConnectionUpdateReq p = false) (clkn : U32)
    (le : LeState) : connectedLe p clkn le = le.applyUpdate clkn := by
  rw [connectedLe, h]
  rfl

theorem applyUpdate_of_not_due {le : LeState} (clkn : U32) (h : ¬le.UpdateDue) :
    le.applyUpdate clkn = le := if_neg h

theorem applyUpdate_of_due {le : LeState} (clkn : U32) (h : le.UpdateDue) :
    le.applyUpdate clkn = { le with
      connEpoch := clkn
      connInterval := le.intervalUpdate
      intervalTimer := le.intervalUpdate - 1
      winSize := le.winSizeUpdate
      winOffset := le.winOffsetUpdate
      updatePending := false } := if_pos h

/-! ## The clock interrupt in `HOP_BTLE` -/

/-- The next interrupt counts down the interval timer: the link is connected and the clock it
advances to is a whole number of intervals of 1.25 ms after the epoch. -/
def Counts (s : Fw) : Prop :=
  s.le.linkState = .connected ∧ (s.clkn + (s.clknOffset + 1) - s.le.connEpoch) &&& 0x03 = 0

instance (s : Fw) : Decidable (Counts s) := instDecidableAnd

/-- A counting interrupt that raises `do_hop`. -/
def Hops (s : Fw) : Prop := Counts s ∧ s.le.intervalTimer = 1

instance (s : Fw) : Decidable (Hops s) := instDecidableAnd

theorem and_three_eq_zero_iff (d : U32) : d &&& 0x03 = 0 ↔ d.toNat % 4 = 0 := by
  rw [← BitVec.toNat_inj, BitVec.toNat_and]
  show d.toNat &&& 2 ^ 2 - 1 = 0 ↔ d.toNat % 4 = 0
  rw [Nat.and_two_pow_sub_one_eq_mod]

/-- A timer that is not at zero counts down without a wrap. -/
theorem toNat_sub_one {x : U16} (hx : 1 ≤ x.toNat) : (x - 1).toNat = x.toNat - 1 :=
  BitVec.toNat_sub_of_le (by simpa [BitVec.le_def] using hx)

theorem sub_one_eq_zero_iff (x : U16) : x - 1 = 0 ↔ x = 1 := by
  constructor <;> intro h <;> bv_omega

/-- In `HOP_BTLE` the branches for the other modes are dead. -/
theorem triggerHop_advanceClkn {s : Fw} (hm : s.hopMode = .btle) :
    triggerHop (advanceClkn s) = if Counts s then countInterval (advanceClkn s)
      else advanceClkn s := by
  have hm' : (advanceClkn s).hopMode = .btle := hm
  unfold triggerHop
  rw [hm']
  rfl

/-- An interrupt that does not count moves the clock on and changes nothing else of the link. -/
theorem timer0IRQHandler_of_not_counts {s : Fw} (hm : s.hopMode = .btle) (h : ¬Counts s) :
    timer0IRQHandler s = { s with
      clkn := s.clkn + (s.clknOffset + 1)
      clknOffset := 0
      t0mr0 := 3124 + s.clk100nsOffset.setWidth 32
      clk100nsOffset := 0 } := by
  rw [timer0IRQHandler, triggerHop_advanceClkn hm, if_neg h]
  rfl

/-- A counting interrupt that does not hop counts the timer down. -/
theorem timer0IRQHandler_of_counts {s : Fw} (hm : s.hopMode = .btle) (h : Counts s)
    (ht : s.le.intervalTimer ≠ 1) :
    timer0IRQHandler s = { s with
      clkn := s.clkn + (s.clknOffset + 1)
      clknOffset := 0
      le := { s.le with intervalTimer := s.le.intervalTimer - 1 }
      t0mr0 := 3124 + s.clk100nsOffset.setWidth 32
      clk100nsOffset := 0 } := by
  have htimer : ¬(advanceClkn s).le.intervalTimer - 1 = 0 := (sub_one_eq_zero_iff _).not.2 ht
  rw [timer0IRQHandler, triggerHop_advanceClkn hm, if_pos h, countInterval, if_neg htimer]
  rfl

/-- A hopping interrupt counts the interval and reloads the timer. -/
theorem timer0IRQHandler_of_hops {s : Fw} (hm : s.hopMode = .btle) (h : Hops s) :
    timer0IRQHandler s = { s with
      clkn := s.clkn + (s.clknOffset + 1)
      clknOffset := 0
      doHop := true
      le := { s.le with
        connCount := s.le.connCount + 1
        intervalTimer := s.le.connInterval }
      t0mr0 := 3124 + s.clk100nsOffset.setWidth 32
      clk100nsOffset := 0 } := by
  have htimer : (advanceClkn s).le.intervalTimer - 1 = 0 := (sub_one_eq_zero_iff _).2 h.2
  rw [timer0IRQHandler, triggerHop_advanceClkn hm, if_pos h.1, countInterval, if_pos htimer]
  rfl

/-- Whatever the mode, an interrupt touches at most the count and the timer of the link. -/
theorem timer0IRQHandler_frame (s : Fw) :
    (timer0IRQHandler s).hopMode = s.hopMode ∧ (timer0IRQHandler s).packetCb = s.packetCb ∧
      (timer0IRQHandler s).clknOffset = 0 ∧
      ∃ c t, (timer0IRQHandler s).le = { s.le with connCount := c, intervalTimer := t } := by
  obtain ⟨d, c, t, h⟩ := timer0IRQHandler_eq s
  rw [h]
  exact ⟨rfl, rfl, rfl, c, t, rfl⟩

/-! ## A hop -/

/-- A hop in `HOP_BTLE` tunes to the channel of the index and moves the index on. -/
theorem hop_btle {s : Fw} (hm : s.hopMode = .btle) :
    ∃ a b, hop s = .ok { s with
      doHop := false
      lastHop := s.clkn
      channel := btleChannelIndexToPhys s.le.channelIdx
      fsdiv := btleChannelIndexToPhys s.le.channelIdx - 1
      le := { s.le with
        channelIdx :=
          BitVec.ofNat 8 ((s.le.channelIdx.toNat + s.le.channelIncrement.toNat) % 37) }
      csThresholdCur := a
      csNoSquelch := b
      dmaDiscard := true } := by
  obtain ⟨a, b, hab⟩ := retune_frame { s with
    doHop := false
    lastHop := s.clkn
    channel := btleChannelIndexToPhys s.le.channelIdx
    le := { s.le with
      channelIdx :=
        BitVec.ofNat 8 ((s.le.channelIdx.toNat + s.le.channelIncrement.toNat) % 37) } }
  refine ⟨a, b, ?_⟩
  rw [hop]
  simp only [hopChannel, hm, btleNextHop]
  show Except.ok (retune _) = _
  simp only [hm] at hab ⊢
  rw [hab]

/-! ## Packets -/

/-- The packet with the octets given, by their place, and zeros. -/
def packetOf (octets : List (ℕ × U8)) : Packet :=
  ⟨octets.foldl (fun v o => v.setIfInBounds o.1 o.2) (Vector.replicate 52 0)⟩

/-- An empty data packet. -/
def emptyPacket : Packet := packetOf []

/-! ## Events -/

/-- What happens to the firmware while it runs `bt_le_sync`. -/
inductive LeEvent
  /-- a match interrupt of TIMER0 -/
  | timer0
  /-- `bt_le_sync` looks at `do_hop` -/
  | hop
  /-- `bt_le_sync` hands a packet to `packet_cb`, when TIMER0 reads `t0tc` -/
  | packet (t0tc : U32) (p : Packet)

/-- A hop that does not return leaves the state as it was. -/
def serveHop (s : Fw) : Fw :=
  if s.doHop then
    match hop s with
    | .ok s' => s'
    | .error _ => s
  else s

theorem serveHop_frame (s : Fw) :
    (serveHop s).hopMode = s.hopMode ∧ (serveHop s).packetCb = s.packetCb ∧
      (serveHop s).clkn = s.clkn ∧ (serveHop s).clknOffset = s.clknOffset ∧
      ∃ i, (serveHop s).le = { s.le with channelIdx := i } := by
  have hsame : s.hopMode = s.hopMode ∧ s.packetCb = s.packetCb ∧ s.clkn = s.clkn ∧
      s.clknOffset = s.clknOffset ∧ ∃ i, s.le = { s.le with channelIdx := i } :=
    ⟨rfl, rfl, rfl, rfl, s.le.channelIdx, rfl⟩
  unfold serveHop
  split
  case isFalse => exact hsame
  case isTrue =>
    split
    case h_2 => exact hsame
    case h_1 s' hs' =>
      obtain ⟨c, i, f, a, b, d, rfl⟩ := hop_eq hs'
      exact ⟨rfl, rfl, rfl, rfl, i, rfl⟩

def leStep (s : Fw) : LeEvent → Fw
  | .timer0 => timer0IRQHandler s
  | .hop => serveHop s
  | .packet t0tc p => packetCallback p { s with t0tc := t0tc }

/-- The firmware at power on, told to follow connections. -/
def listening : Fw := btFollowLe (btleSniffing powerOn)

theorem packetCallback_follow {p : Packet} {s : Fw} (h : s.packetCb = .connectionFollow) :
    packetCallback p s = connectionFollowCb p s := by
  unfold packetCallback
  rw [h]

theorem leStep_packet_follow {s : Fw} (h : s.packetCb = .connectionFollow) (t : U32) (p : Packet) :
    leStep s (.packet t p) = connectionFollowCb p { s with t0tc := t } :=
  @packetCallback_follow p { s with t0tc := t } h

/-- A packet of a connection, without an update that is due or asked for, leaves the link alone. -/
theorem leStep_packet_data {s : Fw} (hcb : s.packetCb = .connectionFollow)
    (hl : s.le.linkState = .connected) (hdue : ¬s.le.UpdateDue) (t : U32) {p : Packet}
    (hp : isConnectionUpdateReq p = false) : leStep s (.packet t p) = { s with t0tc := t } := by
  have hl' : ({ s with t0tc := t } : Fw).le.linkState = .connected := hl
  rw [leStep_packet_follow hcb, connectionFollowCb_connected hl', connectedLe_of_not_req hp,
    applyUpdate_of_not_due _ hdue]

end Ubertooth.LowEnergy
