import Ubertooth.Foundations.Countdown
import Ubertooth.Foundations.Runs
import Ubertooth.LowEnergy.Link

/-!
# A followed link in lock-step with the hop sequence

From the CONNECT_REQ on, the firmware keeps four numbers in step: the clock since the epoch, the
interval timer, the interval count and the channel index. `InStep` says how they stand `n` clock
interrupts after the first data packet: the timer and the count are those of a divider by the
connection interval that has ticked once for every fourth interrupt, and the channel is the one
the hop sequence has for that count. Every step of an undisturbed link keeps it (`inStep_step`),
and `lockStep` reads the count and the frequency off it.
-/

namespace Ubertooth.LowEnergy

open Firmware Foundations

/-! ## Channels -/

/-- The channel of the `k`-th hop. -/
def hopChannelIdx (hopIncrement k : ℕ) : U8 := BitVec.ofNat 8 (k * hopIncrement % 37)

theorem toNat_hopChannelIdx (h k : ℕ) : (hopChannelIdx h k).toNat = k * h % 37 := by
  have hlt : k * h % 37 < 37 := Nat.mod_lt _ (by omega)
  rw [hopChannelIdx, BitVec.toNat_ofNat]
  exact Nat.mod_eq_of_lt (by omega)

/-- `btle_next_hop` moves the index along the hop sequence. -/
theorem hopChannelIdx_succ (h k : ℕ) :
    BitVec.ofNat 8 (((hopChannelIdx h k).toNat + h) % 37) = hopChannelIdx h (k + 1) := by
  rw [toNat_hopChannelIdx, hopChannelIdx, Nat.mod_add_mod, Nat.succ_mul]

/-- The advertising frequencies. -/
def IsAdvertising (frequency : U16) : Prop :=
  frequency = 2402 ∨ frequency = 2426 ∨ frequency = 2480

instance (frequency : U16) : Decidable (IsAdvertising frequency) := instDecidableOr

theorem not_isAdvertising_phys (h k : ℕ) :
    ¬IsAdvertising (btleChannelIndexToPhys (hopChannelIdx h k)) := by
  have hall : ∀ i : Fin 37, ¬IsAdvertising (btleChannelIndexToPhys (BitVec.ofNat 8 i)) := by decide
  exact hall ⟨k * h % 37, Nat.mod_lt _ (by omega)⟩

/-- The frequency the radio is tuned to. -/
def tuned (s : Fw) : U16 := s.fsdiv + 1

/-- The hop after the `k`-th interval has been served, or is raised. -/
def OnSchedule (hopIncrement k : ℕ) (s : Fw) : Prop :=
  if s.doHop then s.le.channelIdx = hopChannelIdx hopIncrement (k + 1)
  else s.le.channelIdx = hopChannelIdx hopIncrement (k + 2) ∧
    tuned s = btleChannelIndexToPhys (hopChannelIdx hopIncrement (k + 1))

/-- Serving a raised hop keeps the schedule. -/
theorem onSchedule_serveHop {h k : ℕ} {s : Fw} (hm : s.hopMode = .btle)
    (hinc : s.le.channelIncrement.toNat = h) (hs : OnSchedule h k s) :
    OnSchedule h k (serveHop s) ∧ (serveHop s).doHop = false := by
  unfold serveHop
  cases hdo : s.doHop with
  | false => exact ⟨hs, hdo⟩
  | true =>
    obtain ⟨a, b, hhop⟩ := hop_btle hm
    have hidx : s.le.channelIdx = hopChannelIdx h (k + 1) := by
      rw [OnSchedule, hdo] at hs
      exact hs
    rw [if_pos rfl, hhop]
    refine ⟨⟨?_, ?_⟩, rfl⟩
    · show BitVec.ofNat 8 ((s.le.channelIdx.toNat + s.le.channelIncrement.toNat) % 37) = _
      rw [hidx, hinc, hopChannelIdx_succ]
    · show btleChannelIndexToPhys s.le.channelIdx - 1 + 1 = _
      rw [hidx, BitVec.sub_add_cancel]

theorem tuned_serveHop {h k : ℕ} {s : Fw} (hm : s.hopMode = .btle)
    (hinc : s.le.channelIncrement.toNat = h) (hs : OnSchedule h k s) :
    tuned (serveHop s) = btleChannelIndexToPhys (hopChannelIdx h (k + 1)) := by
  obtain ⟨hsched, hdo⟩ := onSchedule_serveHop hm hinc hs
  rw [OnSchedule, hdo] at hsched
  exact hsched.2

/-! ## The clock -/

/-- The interrupts of a run. -/
def clockTicks : LeEvent → ℕ
  | .timer0 => 1
  | _ => 0

/-- A difference of clocks is a multiple of four as its distance is, across the wrap. -/
theorem sub_and_three_eq_zero_iff (epoch : U32) (n : ℕ) :
    (epoch + BitVec.ofNat 32 n - epoch) &&& 0x03 = 0 ↔ n % 4 = 0 := by
  have hsub : epoch + BitVec.ofNat 32 n - epoch = BitVec.ofNat 32 n := by
    rw [BitVec.add_comm, BitVec.add_sub_cancel]
  rw [hsub, and_three_eq_zero_iff, BitVec.toNat_ofNat]
  omega

/-! ## The invariant -/

/-- The link after an accepted CONNECT_REQ, before the first data packet. -/
structure Pending (interval hopIncrement : ℕ) (s : Fw) : Prop where
  hopMode : s.hopMode = .btle
  packetCb : s.packetCb = .connectionFollow
  clknOffset : s.clknOffset = 0
  linkState : s.le.linkState = .connPending
  connInterval : s.le.connInterval.toNat = interval
  channelIncrement : s.le.channelIncrement.toNat = hopIncrement
  schedule : OnSchedule hopIncrement 0 s

/-- The link `n` interrupts after the first data packet. -/
structure InStep (interval hopIncrement n : ℕ) (s : Fw) : Prop where
  hopMode : s.hopMode = .btle
  packetCb : s.packetCb = .connectionFollow
  clknOffset : s.clknOffset = 0
  linkState : s.le.linkState = .connected
  updatePending : s.le.updatePending = false
  connInterval : s.le.connInterval.toNat = interval
  channelIncrement : s.le.channelIncrement.toNat = hopIncrement
  clkn : s.clkn = s.le.connEpoch + BitVec.ofNat 32 n
  timer : s.le.intervalTimer.toNat = (Divider.inStep interval (n / 4)).timer
  connCount : s.le.connCount = BitVec.ofNat 16 (Divider.inStep interval (n / 4)).count
  schedule : OnSchedule hopIncrement (Divider.inStep interval (n / 4)).count s

/-- Every hop raised is served before the next is raised, and no packet asks for an update. -/
def Undisturbed (s : Fw) : LeEvent → Prop
  | .timer0 => Hops s → s.doHop = false
  | .hop => True
  | .packet _ p => isConnectionUpdateReq p = false

instance (s : Fw) : (e : LeEvent) → Decidable (Undisturbed s e)
  | .timer0 => inferInstanceAs (Decidable (_ → _))
  | .hop => inferInstanceAs (Decidable True)
  | .packet _ _ => inferInstanceAs (Decidable (_ = _))

/-- The events of the wait for the first data packet. -/
def NoPacket (_ : Fw) : LeEvent → Prop
  | .packet _ _ => False
  | _ => True

instance (s : Fw) : (e : LeEvent) → Decidable (NoPacket s e)
  | .timer0 => inferInstanceAs (Decidable True)
  | .hop => inferInstanceAs (Decidable True)
  | .packet _ _ => inferInstanceAs (Decidable False)

variable {I h n : ℕ} {s : Fw}

/-! ### The wait for the first data packet -/

theorem pending_followConnect {p : Packet} (hm : s.hopMode = .btle)
    (hcb : s.packetCb = .connectionFollow) (hoff : s.clknOffset = 0) :
    Pending p[28].toNat (p[39] &&& 0x1f).toNat (followConnect p s) := by
  have hlt : (p[39] &&& 0x1f).toNat < 37 := by
    rw [BitVec.toNat_and]
    exact Nat.lt_of_le_of_lt Nat.and_le_right (by simp)
  refine ⟨hm, hcb, hoff, rfl, ?_, rfl, ?_⟩
  · show (p[28].setWidth 16).toNat = p[28].toNat
    exact BitVec.toNat_setWidth_of_le (by omega)
  · show p[39] &&& 0x1f = hopChannelIdx _ (0 + 1)
    rw [hopChannelIdx, Nat.zero_add, Nat.one_mul, Nat.mod_eq_of_lt hlt, BitVec.ofNat_toNat,
      BitVec.setWidth_eq]

theorem pending_step (hs : Pending I h s) {e : LeEvent} (he : NoPacket s e) :
    Pending I h (leStep s e) := by
  cases e with
  | timer0 =>
    have hidle : ¬Counts s := by
      rintro ⟨hl, -⟩
      rw [hs.linkState] at hl
      exact absurd hl (by simp)
    show Pending I h (timer0IRQHandler s)
    rw [timer0IRQHandler_of_not_counts hs.hopMode hidle]
    exact ⟨hs.hopMode, hs.packetCb, rfl, hs.linkState, hs.connInterval, hs.channelIncrement,
      hs.schedule⟩
  | hop =>
    obtain ⟨hmode, hcb, -, hoff, i, hle⟩ := serveHop_frame s
    have hsched := (onSchedule_serveHop hs.hopMode hs.channelIncrement hs.schedule).1
    show Pending I h (serveHop s)
    refine ⟨hmode.trans hs.hopMode, hcb.trans hs.packetCb, hoff.trans hs.clknOffset, ?_, ?_, ?_,
      hsched⟩
    · rw [hle]
      exact hs.linkState
    · rw [hle]
      exact hs.connInterval
    · rw [hle]
      exact hs.channelIncrement
  | packet t p => exact absurd he id

/-- The first data packet moves the link to `LINK_CONNECTED`, in step. -/
theorem inStep_of_pending (hI : 2 ≤ I) (hs : Pending I h s) (t : U32) (q : Packet) :
    InStep I h 0 (leStep s (.packet t q)) := by
  have hstep : leStep s (.packet t q) = enterConnected { s with t0tc := t } := by
    rw [leStep_packet_follow hs.packetCb]
    exact connectionFollowCb_pending hs.linkState
  have hpos : 1 ≤ s.le.connInterval.toNat := by
    rw [hs.connInterval]
    omega
  have hzero := Divider.inStep_zero hI
  rw [hstep]
  refine ⟨hs.hopMode, hs.packetCb, hs.clknOffset, rfl, rfl, hs.connInterval, hs.channelIncrement,
    ?_, ?_, ?_, ?_⟩
  · exact (BitVec.add_zero s.clkn).symm
  · show (s.le.connInterval - 1).toNat = (Divider.inStep I 0).timer
    rw [hzero, toNat_sub_one hpos, hs.connInterval]
  · show (0 : U16) = BitVec.ofNat 16 (Divider.inStep I 0).count
    rw [hzero]
    rfl
  · show OnSchedule h (Divider.inStep I 0).count s
    rw [hzero]
    exact hs.schedule

/-! ### The steps of a connection -/

theorem clkn_succ (hs : InStep I h n s) :
    s.clkn + (s.clknOffset + 1) = s.le.connEpoch + BitVec.ofNat 32 (n + 1) := by
  have hsucc : BitVec.ofNat 32 (n + 1) = BitVec.ofNat 32 n + 1 := BitVec.ofNat_add n 1
  have hone : (0 : U32) + 1 = 1 := by simp
  rw [hs.clkn, hs.clknOffset, hone, hsucc, BitVec.add_assoc]

theorem counts_iff (hs : InStep I h n s) : Counts s ↔ (n + 1) % 4 = 0 := by
  unfold Counts
  rw [clkn_succ hs, sub_and_three_eq_zero_iff]
  exact and_iff_right hs.linkState

/-- An interrupt between two whole intervals of 1.25 ms. -/
theorem inStep_timer0_of_not_counts (hs : InStep I h n s) (hc : ¬Counts s) :
    InStep I h (n + 1) (timer0IRQHandler s) := by
  have hmod := (counts_iff hs).not.1 hc
  have hdiv : (n + 1) / 4 = n / 4 := by omega
  rw [timer0IRQHandler_of_not_counts hs.hopMode hc]
  refine ⟨hs.hopMode, hs.packetCb, rfl, hs.linkState, hs.updatePending, hs.connInterval,
    hs.channelIncrement, clkn_succ hs, ?_, ?_, ?_⟩
  · rw [hdiv]
    exact hs.timer
  · rw [hdiv]
    exact hs.connCount
  · rw [hdiv]
    exact hs.schedule

/-- An interrupt that counts the timer down, short of the last time. -/
theorem inStep_timer0_of_counts (hI : 2 ≤ I) (hs : InStep I h n s) (hc : Counts s)
    (ht : s.le.intervalTimer ≠ 1) : InStep I h (n + 1) (timer0IRQHandler s) := by
  have hmod := (counts_iff hs).1 hc
  have hdiv : (n + 1) / 4 = n / 4 + 1 := by omega
  have hlast : ¬(Divider.inStep I (n / 4)).timer = 1 := by
    rw [← hs.timer]
    exact fun h1 => ht (BitVec.eq_of_toNat_eq h1)
  have hpos : 1 ≤ s.le.intervalTimer.toNat := by
    rw [hs.timer]
    exact Divider.inStep_timer_pos (by omega) _
  have htick := Divider.tick_inStep hI (n / 4)
  rw [Divider.tick, if_neg hlast] at htick
  rw [timer0IRQHandler_of_counts hs.hopMode hc ht]
  refine ⟨hs.hopMode, hs.packetCb, rfl, hs.linkState, hs.updatePending, hs.connInterval,
    hs.channelIncrement, clkn_succ hs, ?_, ?_, ?_⟩
  · rw [hdiv, ← htick]
    show (s.le.intervalTimer - 1).toNat = _
    rw [toNat_sub_one hpos, hs.timer]
  · rw [hdiv, ← htick]
    exact hs.connCount
  · rw [hdiv, ← htick]
    exact hs.schedule

/-- An interrupt that hops, with the hop before it served. -/
theorem inStep_timer0_of_hops (hI : 2 ≤ I) (hs : InStep I h n s) (hhops : Hops s)
    (hserved : s.doHop = false) : InStep I h (n + 1) (timer0IRQHandler s) := by
  have hmod := (counts_iff hs).1 hhops.1
  have hdiv : (n + 1) / 4 = n / 4 + 1 := by omega
  have hlast : (Divider.inStep I (n / 4)).timer = 1 := by
    rw [← hs.timer, hhops.2]
    rfl
  have htick := Divider.tick_inStep hI (n / 4)
  rw [Divider.tick, if_pos hlast] at htick
  have hsched := hs.schedule
  rw [OnSchedule, hserved] at hsched
  rw [timer0IRQHandler_of_hops hs.hopMode hhops]
  refine ⟨hs.hopMode, hs.packetCb, rfl, hs.linkState, hs.updatePending, hs.connInterval,
    hs.channelIncrement, clkn_succ hs, ?_, ?_, ?_⟩
  · rw [hdiv, ← htick]
    exact hs.connInterval
  · rw [hdiv, ← htick]
    show s.le.connCount + 1 = BitVec.ofNat 16 (_ + 1)
    rw [hs.connCount]
    exact (BitVec.ofNat_add _ 1).symm
  · rw [hdiv, ← htick]
    exact hsched.1

theorem inStep_timer0 (hI : 2 ≤ I) (hs : InStep I h n s) (hserved : Hops s → s.doHop = false) :
    InStep I h (n + 1) (timer0IRQHandler s) := by
  by_cases hc : Counts s
  · by_cases ht : s.le.intervalTimer = 1
    · exact inStep_timer0_of_hops hI hs ⟨hc, ht⟩ (hserved ⟨hc, ht⟩)
    · exact inStep_timer0_of_counts hI hs hc ht
  · exact inStep_timer0_of_not_counts hs hc

theorem inStep_serveHop (hs : InStep I h n s) : InStep I h n (serveHop s) := by
  obtain ⟨hmode, hcb, hclkn, hoff, i, hle⟩ := serveHop_frame s
  have hsched := (onSchedule_serveHop hs.hopMode hs.channelIncrement hs.schedule).1
  refine ⟨hmode.trans hs.hopMode, hcb.trans hs.packetCb, hoff.trans hs.clknOffset, ?_, ?_, ?_, ?_,
    ?_, ?_, ?_, hsched⟩
  · rw [hle]
    exact hs.linkState
  · rw [hle]
    exact hs.updatePending
  · rw [hle]
    exact hs.connInterval
  · rw [hle]
    exact hs.channelIncrement
  · rw [hle, hclkn]
    exact hs.clkn
  · rw [hle]
    exact hs.timer
  · rw [hle]
    exact hs.connCount

theorem inStep_packet (hs : InStep I h n s) (t : U32) {q : Packet}
    (hq : isConnectionUpdateReq q = false) : InStep I h n (leStep s (.packet t q)) := by
  have hdue : ¬s.le.UpdateDue := by
    rintro ⟨hp, -⟩
    rw [hs.updatePending] at hp
    exact absurd hp (by simp)
  rw [leStep_packet_data hs.packetCb hs.linkState hdue t hq]
  exact ⟨hs.hopMode, hs.packetCb, hs.clknOffset, hs.linkState, hs.updatePending, hs.connInterval,
    hs.channelIncrement, hs.clkn, hs.timer, hs.connCount, hs.schedule⟩

/-- Every step of an undisturbed connection keeps it in step. -/
theorem inStep_step (hI : 2 ≤ I) (hs : InStep I h n s) {e : LeEvent} (he : Undisturbed s e) :
    InStep I h (n + clockTicks e) (leStep s e) := by
  cases e with
  | timer0 => exact inStep_timer0 hI hs he
  | hop => exact inStep_serveHop hs
  | packet t q => exact inStep_packet hs t he

/-! ## Lock-step -/

/-- The count and the frequency of a link in step. -/
theorem inStep_lockStep (hs : InStep I h n s) :
    s.le.connCount = BitVec.ofNat 16 ((n / 4 + 1) / I) ∧
      tuned (serveHop s) =
        btleChannelIndexToPhys (hopChannelIdx h ((n / 4 + 1) / I + 1)) :=
  ⟨hs.connCount, tuned_serveHop hs.hopMode hs.channelIncrement hs.schedule⟩

/-- **Lock-step.** After an accepted CONNECT_REQ with interval `I` and increment `h`, any wait, and
a first data packet, `n` clock interrupts of an undisturbed connection have counted
`k = (n / 4 + 1) / I` intervals, and the frequency tuned once the raised hop is served is that of
channel `(k + 1) * h mod 37`, which is never an advertising one. -/
theorem lockStep {s : Fw} {p : Packet} (hm : s.hopMode = .btle)
    (hcb : s.packetCb = .connectionFollow) (hoff : s.clknOffset = 0) (hp : AcceptsConnect p s)
    (hI : 2 ≤ p[28].toNat) (t₀ t₁ : U32) (q : Packet) (wait es : List LeEvent)
    (hwait : Along leStep NoPacket (leStep s (.packet t₀ p)) wait)
    (hes : Along leStep Undisturbed
      (leStep (run leStep (leStep s (.packet t₀ p)) wait) (.packet t₁ q)) es) :
    let s' := run leStep s (.packet t₀ p :: (wait ++ .packet t₁ q :: es))
    let k := ((es.map clockTicks).sum / 4 + 1) / p[28].toNat
    let frequency :=
      btleChannelIndexToPhys (BitVec.ofNat 8 ((k + 1) * (p[39] &&& 0x1f).toNat % 37))
    s'.le.connCount = BitVec.ofNat 16 k ∧ tuned (leStep s' .hop) = frequency ∧
      ¬IsAdvertising frequency := by
  have hfollow : leStep s (.packet t₀ p) = followConnect p { s with t0tc := t₀ } := by
    rw [leStep_packet_follow hcb]
    exact connectionFollowCb_of_acceptsConnect hp
  have hpending : Pending p[28].toNat (p[39] &&& 0x1f).toNat (leStep s (.packet t₀ p)) := by
    rw [hfollow]
    exact pending_followConnect hm hcb hoff
  have hwaited := run_invariant (I := Pending _ _) (fun s e hs he => pending_step hs he)
    hpending hwait
  have hconn := inStep_of_pending hI hwaited t₁ q
  have hrun := run_invariant_counted (J := InStep _ _) (fun n s e hs he => inStep_step hI hs he)
    hconn hes
  rw [Nat.zero_add] at hrun
  rw [run_cons, run_append, run_cons]
  obtain ⟨hcount, hfreq⟩ := inStep_lockStep hrun
  exact ⟨hcount, hfreq, not_isAdvertising_phys _ _⟩

/-- A CONNECT_REQ with interval 2 and hop increment 7. -/
def connectReqTwo : Packet :=
  packetOf [(4, 0x05), (28, 0x02), (39, 0x07)]

theorem lockStep_connectReqTwo :
    let s' := run leStep listening [.packet 0 connectReqTwo, .hop, .timer0,
      .packet 0 emptyPacket, .timer0, .timer0, .timer0, .timer0, .hop, .timer0]
    s'.le.connCount = 1 ∧ tuned (leStep s' .hop) = 2434 := by
  obtain ⟨hcount, hfreq, -⟩ := lockStep (s := listening) (p := connectReqTwo) rfl rfl rfl
    (by decide +kernel) (by decide) 0 0 emptyPacket [.hop, .timer0]
    [.timer0, .timer0, .timer0, .timer0, .hop, .timer0] (by decide +kernel) (by decide +kernel)
  exact ⟨hcount, hfreq⟩

end Ubertooth.LowEnergy
