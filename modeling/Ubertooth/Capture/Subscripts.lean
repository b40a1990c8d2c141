import Ubertooth.Firmware.Rounds
import Ubertooth.Hopping.Selection

/-!
# The subscripts of the RSSI averages

`rssi_iir` has one slot for each of the 79 channels of the band, and is subscripted with
`channel - 2402` or `idle_buf_channel - 2402` in every hop mode but `HOP_NONE`. A fixed channel may
lie outside the band, and the hop modes are switched on by requests that do not look at the channel.
`subscripts_in_range_iff` says over all runs when the subscripts stay in range.
-/

namespace Ubertooth.Capture

open Firmware Foundations Hopping

/-! ## What happens to a device -/

/-- Requests, interrupts, and the rounds of the receive loops, in any order. -/
inductive DeviceEvent
  | setChannel (param : U16)
  | setSquelch (param : U16)
  | startHopping (data : ℕ → U8)
  | afh
  | btleSniffing
  | btlePromisc
  | hopRequest
  | timer0
  | eint3
  /-- a DMA transfer is complete -/
  | terminalCount
  | hop
  | streamBlock (samples : List U8) (buf : Vector U8 dmaSize)
  | genericBlock (samples : List U8) (bufs : List (Vector U8 dmaSize))
  | addressHeard (aa : U32)
  | lePacket (rssi : U8) (t0tc : U32) (p : Packet)
  | leTimeout
  | takeRequest
  | rxContinue
  | enter

/-- One event of a device that has not met a fault. -/
def deviceEvent (d : Device) : DeviceEvent → Except Fault Device
  | .setChannel param => .ok (vendorRequestHandler d (.setChannel param))
  | .setSquelch param => .ok (vendorRequestHandler d (.setSquelch param))
  | .startHopping data => .ok (vendorRequestHandler d (.startHopping data))
  | .afh => .ok (vendorRequestHandler d .afh)
  | .btleSniffing => .ok (vendorRequestHandler d .btleSniffing)
  | .btlePromisc => .ok (vendorRequestHandler d .btlePromisc)
  | .hopRequest => .ok (vendorRequestHandler d .hop)
  | .timer0 => .ok { d with fw := timer0IRQHandler d.fw }
  | .eint3 => .ok (eint3IRQHandler d)
  | .terminalCount => .ok (dmaIRQHandler d)
  | .hop => do
    let s ← Firmware.hop d.fw
    return { d with fw := s }
  | .streamBlock samples buf => .ok (streamBlock samples buf d)
  | .genericBlock samples bufs => .ok (genericBlock samples bufs d)
  | .addressHeard aa => .ok (addressHeard aa d)
  | .lePacket rssi t0tc p => .ok (lePacket rssi t0tc p d)
  | .leTimeout => .ok (leTimeout d)
  | .takeRequest => .ok (takeRequest d)
  | .rxContinue => .ok (rxContinue d)
  | .enter => .ok (enter d)

/-- After a fault nothing more happens. -/
def deviceStep : Except Fault Device → DeviceEvent → Except Fault Device
  | .error f, _ => .error f
  | .ok d, e => deviceEvent d e

/-! ## The subscripts -/

/-- The subscript of `rssi_iir` in `enqueue`. -/
def enqueueSubscript (s : Fw) : ℤ :=
  if s.hopMode ≠ .none then (s.idleBufChannel.toNat : ℤ) - 2402 else 0

/-- The subscripts of `rssi_iir` and `afh_map`, as the functions that use them compute them in this
state. `enqueue` is called for a packet only after a DMA transfer. -/
structure InRange (d : Device) : Prop where
  iir : 0 ≤ iirSubscript d.fw ∧ iirSubscript d.fw ≤ 78
  enqueue : d.dma.rxTc ≠ 0 → 0 ≤ enqueueSubscript d.fw ∧ enqueueSubscript d.fw ≤ 78
  afhMap : Searches d.fw → ∀ k, 1 ≤ k →
    0 ≤ ((sweepNext^[k] d.fw.channel).toNat : ℤ) - 2402 ∧
      ((sweepNext^[k] d.fw.channel).toNat : ℤ) - 2402 ≤ 78

/-- The same, until a fault. -/
def SubscriptsInRange : Except Fault Device → Prop
  | .ok d => InRange d
  | .error _ => True

/-- The channel, and the channel of a block that waits, are in the band. -/
def Tuned (d : Device) : Prop :=
  InBand d.fw.channel ∧ (d.dma.rxTc ≠ 0 → InBand d.fw.idleBufChannel)

theorem inBand_iff_subscript (channel : U16) :
    InBand channel ↔ 0 ≤ (channel.toNat : ℤ) - 2402 ∧ (channel.toNat : ℤ) - 2402 ≤ 78 := by
  unfold InBand
  omega

theorem inBand_iterate {channel : U16} (h : InBand channel) (k : ℕ) :
    InBand (sweepNext^[k] channel) := by
  induction k with
  | zero => exact h
  | succ k ih =>
    rw [Function.iterate_succ_apply']
    exact inBand_sweepNext ih

/-- A device that does not hop is in range, and one that hops if it is tuned. -/
theorem inRange_iff (d : Device) : InRange d ↔ (d.fw.hopMode ≠ .none → Tuned d) := by
  constructor
  · intro h hm
    refine ⟨(inBand_iff_subscript _).2 ?_, fun htc => (inBand_iff_subscript _).2 ?_⟩
    · simpa only [iirSubscript, if_pos hm] using h.iir
    · simpa only [enqueueSubscript, if_pos hm] using h.enqueue htc
  · intro h
    by_cases hm : d.fw.hopMode = .none
    · refine ⟨?_, fun _ => ?_, fun hs => ?_⟩
      · simp [iirSubscript, hm]
      · simp [enqueueSubscript, hm]
      · exact absurd hs (by simp [Searches, hm])
    · obtain ⟨hchannel, hidle⟩ := h hm
      refine ⟨?_, fun htc => ?_, fun _ k _ => ?_⟩
      · simpa only [iirSubscript, if_pos hm] using (inBand_iff_subscript _).1 hchannel
      · simpa only [enqueueSubscript, if_pos hm] using (inBand_iff_subscript _).1 (hidle htc)
      · exact (inBand_iff_subscript _).1 (inBand_iterate hchannel k)

/-! ## The requests that switch hopping on -/

/-- What has to be tuned when: a request that switches hopping on, or a packet that does in
promiscuous mode, comes to a device that is tuned; a sweep is requested with no block waiting from
outside the band, and while a connection is followed, which leaves the channel as it is, with the
channel in the band too; and a connection times out back to a channel of the band. -/
def SwitchesTuned : Except Fault Device → DeviceEvent → Prop
  | .ok d, .setChannel param => maxFreq < param →
    (d.mode = .btFollowLe → InBand d.fw.channel) ∧
      (d.dma.rxTc ≠ 0 → InBand d.fw.idleBufChannel)
  | .ok d, .startHopping _ => Tuned d
  | .ok d, .afh => Tuned d
  | .ok d, .btleSniffing => Tuned d
  | .ok d, .lePacket rssi t0tc p =>
    d.fw.hopMode = .none → (lePacket rssi t0tc p d).fw.hopMode ≠ .none → Tuned d
  | .ok d, .leTimeout => d.fw.hopMode ≠ .none → d.mode ≠ .btPromiscLe → d.savedRequest ≠ 0 →
    InBand d.savedRequest
  | _, _ => True

/-- The invariant: a device that hops is tuned; the hop tables and the channel of a direct hop are
in the band; and the PC has given no access address. -/
structure Tracked (d : Device) : Prop where
  tuned : d.fw.hopMode ≠ .none → Tuned d
  tables : TablesInBand d.fw.hopVars
  direct : d.fw.hopMode = .direct → InBand d.fw.hopDirectChannel
  targetSet : d.fw.le.targetSet = false

def TrackedOk : Except Fault Device → Prop
  | .ok d => Tracked d
  | .error _ => True

variable {d d' : Device}

/-! ## Functions that leave the tuning alone -/

/-- The hop mode, and what it is tuned by. -/
def tuning (s : Fw) : HopMode × U16 × U16 × HopVars × U16 × Bool :=
  (s.hopMode, s.channel, s.idleBufChannel, s.hopVars, s.hopDirectChannel, s.le.targetSet)

abbrev SameTuning (s s' : Fw) : Prop := Kept tuning s s'

namespace SameTuning

theorem iff_fields {s s' : Fw} : SameTuning s s' ↔
    s'.hopMode = s.hopMode ∧ s'.channel = s.channel ∧ s'.idleBufChannel = s.idleBufChannel ∧
      s'.hopVars = s.hopVars ∧ s'.hopDirectChannel = s.hopDirectChannel ∧
      s'.le.targetSet = s.le.targetSet := by
  simp only [SameTuning, Kept, tuning, Prod.mk.injEq]

theorem csThreshold (s : Fw) : SameTuning s (csThresholdCalcAndSet s) :=
  Kept.csThreshold tuning (fun _ _ _ => rfl) s

theorem enqueueSlot (ws : List SlotWrite) (s : Fw) : SameTuning s (enqueueSlot ws s).2 :=
  Kept.enqueueSlot tuning (fun _ _ _ => rfl) ws s

theorem of_message {s t : Fw} (h : SameTuning s t) (type : U8) (data : List U8) :
    SameTuning s (lePromiscState type data t) := h.trans (enqueueSlot _ t)

theorem timer0 (s : Fw) : SameTuning s (timer0IRQHandler s) :=
  Kept.timer0 tuning (fun _ _ _ _ _ _ _ _ => rfl) s

theorem raiseIf (p : Bool) (flag : StatusFlag) (s : Fw) : SameTuning s (raiseIf p flag s) :=
  Kept.raiseIf tuning (fun _ _ => rfl) p flag s

end SameTuning

/-- The same for a device: what waits is still there, or taken away. -/
structure Undisturbed (d d' : Device) : Prop where
  fw : SameTuning d.fw d'.fw
  rxTc : d'.dma.rxTc = 0 ∨ d'.dma.rxTc = d.dma.rxTc

namespace Undisturbed

theorem refl (d : Device) : Undisturbed d d := ⟨Kept.refl d.fw, Or.inr rfl⟩

theorem trans {d e f : Device} (h : Undisturbed d e) (h' : Undisturbed e f) : Undisturbed d f := by
  refine ⟨h.fw.trans h'.fw, ?_⟩
  rcases h'.rxTc with hzero | hsame
  · exact Or.inl hzero
  · rw [hsame]
    exact h.rxTc

theorem of_fw {s : Fw} (h : SameTuning d.fw s) : Undisturbed d { d with fw := s } :=
  ⟨h, Or.inr rfl⟩

/-- Processing a block. -/
theorem of_block (h : BlockOnly d d') : Undisturbed d d' := by
  obtain ⟨_, _, _, _, _, _, _, _, _, rfl⟩ := h
  exact ⟨rfl, Or.inr rfl⟩

theorem enterPromiscSync (d : Device) : Undisturbed d (enterPromiscSync d) := by
  have hsame : SameTuning d.fw (lePromiscState 0 (octetsOf d.fw.le.accessAddress 4) d.fw) :=
    SameTuning.enqueueSlot _ _
  exact ⟨hsame.trans rfl, Or.inl rfl⟩

theorem addressHeard (aa : U32) (d : Device) : Undisturbed d (addressHeard aa d) := by
  dsimp only [Firmware.addressHeard]
  split
  · exact refl d
  · have hset : SameTuning d.fw { d.fw with
        le := { leSetAccessAddress aa d.fw.le with crcVerify := false }
        packetCb := .promiscFollow } := rfl
    exact (of_fw (hset.trans (SameTuning.enqueueSlot _ _))).trans (enterPromiscSync _)

theorem takeRequest (d : Device) : Undisturbed d (takeRequest d) := by
  unfold Firmware.takeRequest
  split
  · exact ⟨Kept.refl d.fw, Or.inr rfl⟩
  · exact refl d

end Undisturbed

/-! ## What keeps a device tuned -/

theorem Tracked.of_undisturbed (h : Tracked d) (hd : Undisturbed d d') : Tracked d' := by
  obtain ⟨hsame, htc⟩ := hd
  obtain ⟨hmode, hchannel, hidle, hvars, hdirect, htarget⟩ := SameTuning.iff_fields.1 hsame
  refine ⟨fun hm => ?_, ?_, fun hm => ?_, ?_⟩
  · obtain ⟨hband, hwaits⟩ := h.tuned (hmode ▸ hm)
    refine ⟨hchannel ▸ hband, fun hne => ?_⟩
    rw [hidle]
    rcases htc with hzero | hsame
    · exact absurd hzero hne
    · exact hwaits (hsame ▸ hne)
  · exact hvars ▸ h.tables
  · rw [hdirect]
    exact h.direct (hmode ▸ hm)
  · rw [htarget]
    exact h.targetSet

/-- A step that leaves what waits, and ends tuned if it hops. -/
theorem Tracked.of_tuned (h : Tracked d) (htuned : d'.fw.hopMode ≠ .none → Tuned d')
    (hvars : TablesInBand d'.fw.hopVars)
    (hdirect : d'.fw.hopMode = .direct → InBand d'.fw.hopDirectChannel)
    (htarget : d'.fw.le.targetSet = d.fw.le.targetSet) : Tracked d' :=
  ⟨htuned, hvars, hdirect, htarget.trans h.targetSet⟩

/-! ### A hop -/

theorem nextHop_inBand {h : HopVars} (hh : TablesInBand h) {clock : U32} {c : U16}
    (hc : nextHop h clock = .ok c) : InBand c := by
  cases hafh : h.afhEnabled with
  | false =>
    rw [nextHop_of_disabled hafh clock] at hc
    exact Except.ok.inj hc ▸ inBand_of_place (hh.bank _)
  | true =>
    by_cases hused : h.usedChannels = 0
    · rw [nextHop_of_none_used hafh hused] at hc
      exact absurd hc (by simp)
    · rw [nextHop_of_used hafh hused, HopVars.afhBankAt] at hc
      split at hc
      · exact Except.ok.inj hc ▸ inBand_of_place (hh.afhBank ⟨_, ‹_›⟩)
      · exact absurd hc (by simp [Except.map])

theorem hopSearch_inBand {again : U16 → Bool} {n : ℕ} {channel c : U16} (h : InBand channel)
    (hc : hopSearch again n channel = .ok c) : InBand c := by
  induction n generalizing channel with
  | zero => exact absurd hc (by simp [hopSearch])
  | succ n ih =>
    dsimp only [hopSearch] at hc
    split at hc
    · exact ih (inBand_sweepNext h) hc
    · exact Except.ok.inj hc ▸ inBand_sweepNext h

theorem btleChannelIndexToPhys_inBand (idx : U8) : InBand (btleChannelIndexToPhys idx) := by
  revert idx
  decide +kernel

/-- Wherever `hop` moves, it is in the band if it was, or if it does not search. -/
theorem hopChannel_inBand {s u : Fw} (htables : TablesInBand s.hopVars)
    (hband : s.hopMode ≠ .none → InBand s.channel)
    (hdirect : s.hopMode = .direct → InBand s.hopDirectChannel) (h : hopChannel s = .ok u) :
    s.hopMode ≠ .none → InBand u.channel := by
  intro hm
  have hsearch : ∀ hs : Searches s, InBand u.channel := by
    intro hs
    rw [hopChannel_of_searches hs] at h
    cases hc : hopSearch (loopCondition s) (2 ^ 16) s.channel with
    | error f =>
      rw [hc] at h
      exact absurd h (by simp [Except.map])
    | ok c =>
      rw [hc] at h
      rw [← Except.ok.inj h]
      exact hopSearch_inBand (hband hm) hc
  cases hmode : s.hopMode with
  | none => exact absurd hmode hm
  | sweep => exact hsearch (Or.inl hmode)
  | afh => exact hsearch (Or.inr hmode)
  | bluetooth =>
    simp only [hopChannel, hmode] at h
    cases hc : nextHop s.hopVars s.clkn with
    | error f =>
      rw [hc] at h
      exact absurd h (by simp [bind, Except.bind])
    | ok c =>
      rw [hc] at h
      rw [← Except.ok.inj h]
      exact nextHop_inBand htables hc
  | btle =>
    simp only [hopChannel, hmode] at h
    rw [← Except.ok.inj h]
    exact btleChannelIndexToPhys_inBand s.le.channelIdx
  | direct =>
    simp only [hopChannel, hmode] at h
    rw [← Except.ok.inj h]
    exact hdirect hmode

theorem tracked_hop (h : Tracked d) {s : Fw} (hs : Firmware.hop d.fw = .ok s) :
    Tracked { d with fw := s } := by
  obtain ⟨hnone, rfl⟩ | ⟨u, hu, rfl⟩ := hop_cases hs
  · exact h.of_undisturbed ⟨rfl, Or.inr rfl⟩
  · have hchannel := hopChannel_inBand (s := { d.fw with doHop := false, lastHop := d.fw.clkn })
      h.tables (fun hm => (h.tuned hm).1) h.direct hu
    obtain ⟨c, i, rfl⟩ := hopChannel_frame hu
    obtain ⟨a, b, hretune⟩ := retune_frame { d.fw with
      doHop := false
      lastHop := d.fw.clkn
      channel := c
      le := { d.fw.le with channelIdx := i } }
    rw [hretune]
    exact h.of_tuned (fun hm => ⟨hchannel hm, (h.tuned hm).2⟩) h.tables h.direct rfl

/-! ### A DMA transfer -/

theorem tracked_dmaIRQHandler (h : Tracked d) : Tracked (dmaIRQHandler d) := by
  unfold dmaIRQHandler
  split
  · obtain ⟨a, l, e, hdone⟩ := transferDone_frame d.dma
    split
    · have htc : d.dma.transferDone.intTcStat = true := by rw [hdone]
      obtain ⟨e', n, hhandler⟩ := btStreamDmaHandler_of_tc d.fw htc
      rw [hhandler]
      exact h.of_tuned (fun hm => ⟨(h.tuned hm).1, fun _ => (h.tuned hm).1⟩) h.tables h.direct rfl
    · rw [hdone]
      exact h.of_undisturbed ⟨Kept.refl d.fw, Or.inr rfl⟩
  · exact h

/-! ### Packets -/

/-- What a packet callback does to the tuning: it keeps the channel, and a direct hop goes to a
channel of the band. -/
structure CallbackTuning (s s' : Fw) : Prop where
  channel : s'.channel = s.channel
  idleBufChannel : s'.idleBufChannel = s.idleBufChannel
  hopVars : s'.hopVars = s.hopVars
  targetSet : s'.le.targetSet = s.le.targetSet
  direct : (s.hopMode = .direct → InBand s.hopDirectChannel) →
    s'.hopMode = .direct → InBand s'.hopDirectChannel

theorem CallbackTuning.of_same {s s' : Fw} (h : SameTuning s s') : CallbackTuning s s' := by
  obtain ⟨hmode, hchannel, hidle, hvars, hdirect, htarget⟩ := SameTuning.iff_fields.1 h
  refine ⟨hchannel, hidle, hvars, htarget, fun hs hm => ?_⟩
  rw [hdirect]
  exact hs (hmode ▸ hm)

theorem CallbackTuning.trans {s t u : Fw} (h : CallbackTuning s t) (h' : CallbackTuning t u) :
    CallbackTuning s u :=
  ⟨h'.channel.trans h.channel, h'.idleBufChannel.trans h.idleBufChannel,
    h'.hopVars.trans h.hopVars, h'.targetSet.trans h.targetSet,
    fun hs => h'.direct (h.direct hs)⟩

theorem recordUpdate_targetSet (p : Packet) (le : LeState) :
    (le.recordUpdate p).targetSet = le.targetSet := rfl

theorem applyUpdate_targetSet (clkn : U32) (le : LeState) :
    (le.applyUpdate clkn).targetSet = le.targetSet := by
  unfold LeState.applyUpdate
  split <;> rfl

theorem connectionFollowCb_same (p : Packet) (s : Fw) : SameTuning s (connectionFollowCb p s) := by
  unfold connectionFollowCb
  split
  · exact rfl
  · refine SameTuning.iff_fields.2 ⟨rfl, rfl, rfl, rfl, rfl, ?_⟩
    dsimp only
    split
    · rw [recordUpdate_targetSet, applyUpdate_targetSet]
    · exact applyUpdate_targetSet s.clkn s.le
  · split
    · split
      · exact Kept.refl s
      · exact rfl
    · exact Kept.refl s
  · exact Kept.refl s

theorem promiscFollowCb_same (p : Packet) (s : Fw) : SameTuning s (promiscFollowCb p s) := by
  unfold promiscFollowCb
  split
  · unfold recoverCrcInit
    refine SameTuning.of_message ?_ _ _
    exact rfl
  · exact Kept.refl s

theorem CallbackTuning.of_message {s t : Fw} (h : CallbackTuning s t) (type : U8)
    (data : List U8) : CallbackTuning s (lePromiscState type data t) :=
  h.trans (of_same (SameTuning.enqueueSlot _ t))

/-- A jump to one of the two channels of the search for the hop increment. -/
theorem callbackTuning_direct {s s' : Fw} (hchannel : s'.channel = s.channel)
    (hidle : s'.idleBufChannel = s.idleBufChannel) (hvars : s'.hopVars = s.hopVars)
    (htarget : s'.le.targetSet = s.le.targetSet)
    (hdirect : s'.hopDirectChannel = 2404 ∨ s'.hopDirectChannel = 2406) :
    CallbackTuning s s' := by
  refine ⟨hchannel, hidle, hvars, htarget, fun _ _ => ?_⟩
  rcases hdirect with h | h
  · rw [h]
    decide
  · rw [h]
    decide

/-- Whatever interval is observed. -/
theorem setInterval_same (s : Fw) (interval : U16) (consec : ℤ) : SameTuning s { s with
    le := { s.le with connInterval := interval }
    lePromisc := { s.lePromisc with consecIntervals := consec } } :=
  rfl

theorem observeHopInterval_tuning (s : Fw) : CallbackTuning s (observeHopInterval s) := by
  obtain ⟨-, -, q, st, hfound⟩ | ⟨-, -, hagain⟩ | ⟨-, hnew⟩ := observeHopInterval_cases s
  · rw [hfound]
    exact callbackTuning_direct rfl rfl rfl rfl (Or.inl rfl)
  · rw [hagain]
    exact CallbackTuning.of_same rfl
  · rw [hnew]
    exact CallbackTuning.of_same (setInterval_same s _ 0)

theorem promiscRecoverHopInterval_tuning (s : Fw) :
    CallbackTuning s (promiscRecoverHopInterval s) := by
  have hnote : ∀ clkDiff, SameTuning s (noteClkDiff clkDiff s) := by
    intro clkDiff
    obtain ⟨w, hnoted, -⟩ := noteClkDiff_eq clkDiff s
    rw [hnoted]
    exact rfl
  dsimp only [promiscRecoverHopInterval]
  split
  · exact CallbackTuning.of_same (Kept.refl s)
  · have hobserve := (CallbackTuning.of_same (hnote (recoverCurClk s - s.prevClk))).trans
      (observeHopInterval_tuning _)
    exact ⟨hobserve.channel, hobserve.idleBufChannel, hobserve.hopVars, hobserve.targetSet,
      hobserve.direct⟩

theorem promiscRecoverHopIncrement_tuning (s : Fw) :
    CallbackTuning s (promiscRecoverHopIncrement s) := by
  unfold promiscRecoverHopIncrement
  split
  · exact callbackTuning_direct rfl rfl rfl rfl (Or.inr rfl)
  · split
    · split
      · unfold recoverIncrement
        refine CallbackTuning.of_message ?_ _ _
        exact ⟨rfl, rfl, rfl, rfl, fun _ hm => absurd hm (by simp)⟩
      · exact callbackTuning_direct rfl rfl rfl rfl (Or.inl rfl)
    · exact callbackTuning_direct rfl rfl rfl rfl (Or.inl rfl)

theorem packetCallback_tuning (p : Packet) (s : Fw) : CallbackTuning s (packetCallback p s) := by
  unfold packetCallback
  split
  · exact CallbackTuning.of_same (Kept.refl s)
  · exact CallbackTuning.of_same (connectionFollowCb_same p s)
  · exact CallbackTuning.of_same (promiscFollowCb_same p s)
  · exact promiscRecoverHopInterval_tuning s
  · exact promiscRecoverHopIncrement_tuning s

theorem lePacket_tuning (rssi : U8) (t0tc : U32) (p : Packet) (d : Device) :
    CallbackTuning d.fw (lePacket rssi t0tc p d).fw ∧
      (lePacket rssi t0tc p d).dma = d.dma := by
  dsimp only [lePacket]
  split
  · exact ⟨CallbackTuning.of_same (Kept.refl d.fw), rfl⟩
  · refine ⟨?_, rfl⟩
    have hstart : SameTuning d.fw { d.fw with t0tc := t0tc, rssiMin := rssi, rssiMax := rssi } :=
      rfl
    have hcallback := (CallbackTuning.of_same (hstart.trans (SameTuning.raiseIf
      (decide (d.dma.rxErr ≠ 0)) .dmaError _))).trans (packetCallback_tuning p _)
    have hqueued := hcallback.trans (CallbackTuning.of_same
      (SameTuning.enqueueSlot (enqueueWrites .lePacket (packetBuf p)) _))
    exact ⟨hqueued.channel, hqueued.idleBufChannel, hqueued.hopVars, hqueued.targetSet,
      hqueued.direct⟩

theorem tracked_lePacket (h : Tracked d) (rssi : U8) (t0tc : U32) (p : Packet)
    (hc : SwitchesTuned (.ok d) (.lePacket rssi t0tc p)) : Tracked (lePacket rssi t0tc p d) := by
  obtain ⟨⟨hchannel, hidle, hvars, htarget, hdirect⟩, hdma⟩ := lePacket_tuning rssi t0tc p d
  refine h.of_tuned (fun hm => ?_) (hvars ▸ h.tables) (hdirect h.direct) htarget
  have htuned : Tuned d := by
    by_cases hnone : d.fw.hopMode = .none
    · exact hc hnone hm
    · exact h.tuned hnone
  rw [Tuned, hchannel, hidle, hdma]
  exact htuned

/-! ### Requests -/

theorem tracked_setChannel (h : Tracked d) (param : U16)
    (hc : SwitchesTuned (.ok d) (.setChannel param)) : Tracked (setChannel param d) := by
  have hsweep : askedMode param ≠ .none → maxFreq < param := by
    unfold askedMode
    split
    · exact fun _ => ‹_›
    · exact fun hm => absurd rfl hm
  have hdirect : askedMode param ≠ .direct := askedMode_ne param (by simp) (by simp)
  by_cases hmode : d.mode = .btFollowLe
  · rw [setChannel_of_follow param hmode]
    refine h.of_tuned (fun hm => ?_) h.tables (fun hm => absurd hm hdirect) rfl
    obtain ⟨hchannel, hidle⟩ := hc (hsweep hm)
    exact ⟨hchannel hmode, hidle⟩
  · rw [setChannel_of_tune param hmode]
    obtain ⟨a, b, hframe⟩ := csThresholdCalcAndSet_frame
      { d.fw with hopMode := askedMode param, channel := askedChannel param }
    rw [hframe]
    refine h.of_tuned (fun hm => ?_) h.tables (fun hm => absurd hm hdirect) rfl
    have hparam := hsweep hm
    refine ⟨?_, (hc hparam).2⟩
    show InBand (askedChannel param)
    rw [askedChannel, if_pos hparam]
    decide

theorem tracked_btlePromisc (h : Tracked d) :
    Tracked (vendorRequestHandler d .btlePromisc) := by
  obtain ⟨a, b, hframe⟩ := csThresholdCalcAndSet_frame (queueInit { d.fw with hopMode := .none })
  dsimp only [vendorRequestHandler, btlePromisc]
  rw [hframe]
  exact h.of_tuned (fun hm => absurd rfl hm) h.tables
    (fun hm => absurd hm (by simp [queueInit])) rfl

theorem tracked_btleSniffing (h : Tracked d) (hc : Tuned d) :
    Tracked (vendorRequestHandler d .btleSniffing) := by
  obtain ⟨a, b, hframe⟩ := csThresholdCalcAndSet_frame
    (queueInit { d.fw with doHop := false, hopMode := .btle })
  dsimp only [vendorRequestHandler, btleSniffing]
  rw [hframe]
  exact h.of_tuned (fun _ => hc) h.tables (fun hm => absurd hm (by simp [queueInit])) rfl

theorem tracked_afh (h : Tracked d) (hc : Tuned d) : Tracked (vendorRequestHandler d .afh) :=
  h.of_tuned (fun _ => hc)
    ⟨h.tables.bank, h.tables.afhBank, by simp [vendorRequestHandler, startAfh]⟩
    (fun hm => absurd hm (by simp [vendorRequestHandler, startAfh])) rfl

theorem tracked_startHopping (h : Tracked d) (data : ℕ → U8) (hc : Tuned d) :
    Tracked (startHopping data d) :=
  h.of_tuned (fun _ => hc) h.tables (fun hm => absurd hm (by simp [startHopping])) rfl

theorem tracked_leTimeout (h : Tracked d) (hc : SwitchesTuned (.ok d) .leTimeout) :
    Tracked (leTimeout d) := by
  unfold leTimeout
  split
  case isTrue => exact h.of_undisturbed ⟨rfl, Or.inr rfl⟩
  case isFalse hmode =>
    refine h.of_tuned (fun hm => ⟨?_, (h.tuned hm).2⟩) h.tables h.direct rfl
    show InBand (if d.savedRequest ≠ 0 then d.savedRequest else 2402)
    split
    case isTrue hsaved => exact hc hm hmode hsaved
    case isFalse => decide

/-! ### Into the loops -/

theorem tracked_enterPromisc (h : Tracked d) : Tracked (enterPromisc d) := by
  have hready : Tracked { d with fw := jumpToDataChannel (resetLePromisc d.fw) } := by
    unfold jumpToDataChannel
    split
    · have h2440 : InBand 2440 := by decide
      exact h.of_tuned (fun hm => ⟨h2440, (h.tuned hm).2⟩) h.tables h.direct rfl
    · exact h.of_undisturbed (Undisturbed.of_fw rfl)
  dsimp only [enterPromisc]
  split
  · exact hready.of_undisturbed (Undisturbed.enterPromiscSync _)
  · refine (hready.of_undisturbed (Undisturbed.of_fw (SameTuning.csThreshold _))).of_undisturbed ?_
    exact ⟨rfl, Or.inl rfl⟩

theorem tracked_enter (h : Tracked d) : Tracked (enter d) := by
  have hstop : Tracked { d with dma := dioSspStop d.dma } :=
    h.of_undisturbed ⟨Kept.refl d.fw, Or.inr rfl⟩
  unfold enter
  dsimp only
  split
  · exact h.of_undisturbed ⟨rfl, Or.inl rfl⟩
  · exact h.of_undisturbed ⟨rfl, Or.inl rfl⟩
  · exact h.of_undisturbed ⟨rfl, Or.inl rfl⟩
  · exact h.of_undisturbed ⟨rfl, Or.inl rfl⟩
  · exact tracked_enterPromisc hstop
  · exact hstop

/-! ## Over all runs -/

theorem trackedOk_step {x : Except Fault Device} (h : TrackedOk x) (e : DeviceEvent)
    (hc : SwitchesTuned x e) : TrackedOk (deviceStep x e) := by
  cases x with
  | error f => trivial
  | ok d =>
    have h : Tracked d := h
    cases e with
    | setChannel param => exact tracked_setChannel h param hc
    | setSquelch param =>
      have hset : SameTuning d.fw { d.fw with csThresholdReq := param.setWidth 8 } :=
        rfl
      exact h.of_undisturbed (Undisturbed.of_fw (hset.trans (SameTuning.csThreshold _)))
    | startHopping data => exact tracked_startHopping h data hc
    | afh => exact tracked_afh h hc
    | btleSniffing => exact tracked_btleSniffing h hc
    | btlePromisc => exact tracked_btlePromisc h
    | hopRequest => exact h.of_undisturbed ⟨rfl, Or.inr rfl⟩
    | timer0 => exact h.of_undisturbed (Undisturbed.of_fw (SameTuning.timer0 d.fw))
    | eint3 => exact h.of_undisturbed ⟨rfl, Or.inr rfl⟩
    | terminalCount => exact tracked_dmaIRQHandler h
    | hop =>
      dsimp only [deviceStep, deviceEvent]
      cases hs : Firmware.hop d.fw with
      | error f => trivial
      | ok s => exact tracked_hop h hs
    | streamBlock samples buf =>
      exact h.of_undisturbed (Undisturbed.of_block (streamBlock_blockOnly samples buf d))
    | genericBlock samples bufs =>
      exact h.of_undisturbed (Undisturbed.of_block (genericBlock_blockOnly samples bufs d))
    | addressHeard aa => exact h.of_undisturbed (Undisturbed.addressHeard aa d)
    | lePacket rssi t0tc p => exact tracked_lePacket h rssi t0tc p hc
    | leTimeout => exact tracked_leTimeout h hc
    | takeRequest => exact h.of_undisturbed (Undisturbed.takeRequest d)
    | rxContinue => exact h.of_undisturbed ⟨Kept.refl d.fw, Or.inl rfl⟩
    | enter => exact tracked_enter h

theorem TrackedOk.inRange {x : Except Fault Device} (h : TrackedOk x) : SubscriptsInRange x := by
  cases x with
  | error f => trivial
  | ok d => exact (inRange_iff d).2 (Tracked.tuned h)

/-! ### The condition is exact -/

theorem switchesTuned_of_setChannel (param : U16)
    (h : (setChannel param d).fw.hopMode ≠ .none → Tuned (setChannel param d)) :
    SwitchesTuned (.ok d) (.setChannel param) := by
  intro hparam
  have hsweep : askedMode param ≠ .none := by
    rw [askedMode, if_pos hparam]
    simp
  by_cases hmode : d.mode = .btFollowLe
  · rw [setChannel_of_follow param hmode] at h
    obtain ⟨hchannel, hidle⟩ := h hsweep
    exact ⟨fun _ => hchannel, hidle⟩
  · rw [setChannel_of_tune param hmode] at h
    obtain ⟨a, b, hframe⟩ := csThresholdCalcAndSet_frame
      { d.fw with hopMode := askedMode param, channel := askedChannel param }
    rw [hframe] at h
    exact ⟨fun hfollow => absurd hfollow hmode, (h hsweep).2⟩

theorem tuned_of_btleSniffing
    (h : (vendorRequestHandler d .btleSniffing).fw.hopMode ≠ .none →
      Tuned (vendorRequestHandler d .btleSniffing)) : Tuned d := by
  obtain ⟨a, b, hframe⟩ := csThresholdCalcAndSet_frame
    (queueInit { d.fw with doHop := false, hopMode := .btle })
  dsimp only [vendorRequestHandler, btleSniffing] at h
  rw [hframe] at h
  have hbtle : (HopMode.btle : HopMode) ≠ .none := by simp
  exact h hbtle

/-- A step that switches hopping on untuned ends out of range. -/
theorem not_inRange {x : Except Fault Device} (h : TrackedOk x) {e : DeviceEvent}
    (hc : ¬SwitchesTuned x e) : ¬SubscriptsInRange (deviceStep x e) := by
  cases x with
  | error f => exact absurd trivial hc
  | ok d =>
    have h : Tracked d := h
    cases e with
    | setChannel param =>
      exact fun hrange => hc (switchesTuned_of_setChannel param ((inRange_iff _).1 hrange))
    | startHopping data =>
      have hm : (startHopping data d).fw.hopMode ≠ .none := by simp [startHopping]
      exact fun hrange => hc ((inRange_iff (startHopping data d)).1 hrange hm)
    | afh =>
      have hm : (startAfh d).fw.hopMode ≠ .none := by simp [startAfh]
      exact fun hrange => hc ((inRange_iff (startAfh d)).1 hrange hm)
    | btleSniffing =>
      exact fun hrange => hc (tuned_of_btleSniffing ((inRange_iff _).1 hrange))
    | lePacket rssi t0tc p =>
      intro hrange
      refine hc fun _ hm => ?_
      obtain ⟨⟨hchannel, hidle, -, -, -⟩, hdma⟩ := lePacket_tuning rssi t0tc p d
      have htuned : Tuned (lePacket rssi t0tc p d) := (inRange_iff _).1 hrange hm
      rwa [Tuned, hchannel, hidle, hdma] at htuned
    | leTimeout =>
      intro hrange
      refine hc fun hm hmode hsaved => ?_
      have htimeout : InRange (leTimeout d) := hrange
      rw [leTimeout, if_neg hmode] at htimeout
      obtain ⟨hchannel, -⟩ := (inRange_iff _).1 htimeout hm
      change InBand (if d.savedRequest ≠ 0 then d.savedRequest else 2402) at hchannel
      rwa [if_pos hsaved] at hchannel
    | _ => exact absurd trivial hc

theorem trackedOk_deviceOn : TrackedOk (.ok deviceOn) := by
  have htables : TablesInBand deviceOn.fw.hopVars := Following.tables followingOk_deviceOn
  exact ⟨fun hm => absurd rfl hm, htables, fun hm => absurd hm (by simp [deviceOn]), rfl⟩

/-- **The subscripts.** In every run from power on, the subscripts of `rssi_iir` and `afh_map` are
in range in every state exactly if hopping is only ever switched on with the channel, and the
channel of a block that waits, in the band, and connections time out to a channel of the band. -/
theorem subscripts_in_range_iff (es : List DeviceEvent) :
    Throughout deviceStep SubscriptsInRange (.ok deviceOn) es ↔
      Along deviceStep SwitchesTuned (.ok deviceOn) es :=
  throughout_iff_of_invariant (I := TrackedOk) (fun _ h => h.inRange)
    (fun _ e h hc => trackedOk_step h e hc) (fun _ _ h hc => not_inRange h hc) trackedOk_deviceOn

/-- A fixed channel below the band, and then a piconet to follow: the first block, or a squelch
relative to the average, is looked up at -102. -/
theorem not_inRange_start_below_band :
    ¬Throughout deviceStep SubscriptsInRange (.ok deviceOn)
      [.setChannel 2300, .startHopping fun _ => 0] := by
  intro h
  have hrange : SubscriptsInRange (run deviceStep (.ok deviceOn)
      [.setChannel 2300, .startHopping fun _ => 0]) := h _ (List.prefix_refl _)
  exact absurd hrange.iir.1 (by decide +kernel)

end Ubertooth.Capture
