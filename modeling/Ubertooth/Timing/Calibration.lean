import Ubertooth.Foundations.Runs
import Ubertooth.Host.Control
import Ubertooth.Timing.AccessCode

/-!
# The calibration of the clock

The host measures at which phase of the clock an access code arrives, and sends a trim with which
TIMER0 once counts further than to its period, so that the next access codes arrive at the phase
`CLK_TUNE_TIME`. `corrected` is the clock with the trims that are under way already taken off: it
goes up by one with every unit of TIMER0 (`corrected_tick`), and a trim request takes the trim off
(`sendTrims_trimFor`). Where no trim is under way it is the clock.

* `calibration_closes`: one trim is enough, for every phase and every state of the clock.
-/

namespace Ubertooth.Timing

open Foundations Firmware Host Usb

/-! ## TIMER0 -/

/-- A unit of TIMER0: it counts, or starts again at its match and interrupts. -/
def timer0Tick (s : Fw) : Fw :=
  if s.t0tc = s.t0mr0 then timer0IRQHandler { s with t0tc := 0 } else { s with t0tc := s.t0tc + 1 }

/-- What happens to the clock: time passes, or other code runs, which leaves `w`. -/
inductive ClockEvent
  | tick
  | elsewhere (w : Fw)

/-- The counters, and the corrections asked for, are `s`'s. -/
def keepClock (s w : Fw) : Fw :=
  { w with
    clkn := s.clkn
    clknOffset := s.clknOffset
    clk100nsOffset := s.clk100nsOffset
    t0tc := s.t0tc
    t0mr0 := s.t0mr0 }

def clockStep (s : Fw) : ClockEvent → Fw
  | .tick => timer0Tick s
  | .elsewhere w => keepClock s w

/-- The time that has passed, in units of 100 ns. -/
def ticks (es : List ClockEvent) : ℕ :=
  (es.map fun e => match e with | .tick => 1 | .elsewhere _ => 0).sum

theorem ticks_replicate (n : ℕ) : ticks (List.replicate n .tick) = n := by
  simp [ticks, List.map_replicate, List.sum_replicate]

/-! ## The clock and its corrections -/

/-- TIMER0 is running, with a trim of 16 bits at most. -/
structure Running (s : Fw) : Prop where
  le_match : 3124 ≤ s.t0mr0.toNat
  match_le : s.t0mr0.toNat ≤ 3124 + 0xffff
  counts : s.t0tc.toNat ≤ s.t0mr0.toNat
  noOffset : s.clknOffset = 0

/-- No correction of the clock is under way. -/
structure Settled (s : Fw) : Prop extends Running s where
  noTrim : s.clk100nsOffset = 0
  period : s.t0mr0 = 3124

/-- The clock, less the trims that are under way. -/
def corrected (s : Fw) : ℤ :=
  3125 * s.clkn.toNat + s.t0tc.toNat - (s.t0mr0.toNat - 3124) - s.clk100nsOffset.toNat

/-- The time until no trim is under way. -/
def toSettle (s : Fw) : ℕ :=
  if s.clk100nsOffset.toNat ≠ 0 then
    s.t0mr0.toNat - s.t0tc.toNat + 1 + (3125 + s.clk100nsOffset.toNat)
  else if s.t0mr0.toNat ≠ 3124 then s.t0mr0.toNat - s.t0tc.toNat + 1
  else 0

theorem settled_iff {s : Fw} : Settled s ↔ Running s ∧ toSettle s = 0 := by
  constructor
  · intro h
    exact ⟨h.toRunning, by simp [toSettle, h.noTrim, h.period]⟩
  · rintro ⟨h, hzero⟩
    unfold toSettle at hzero
    have htrim : s.clk100nsOffset.toNat = 0 := by
      by_contra hne
      rw [if_pos hne] at hzero
      omega
    rw [if_neg (not_not.2 htrim)] at hzero
    have hperiod : s.t0mr0.toNat = 3124 := by
      by_contra hne
      rw [if_pos hne] at hzero
      omega
    exact ⟨h, BitVec.eq_of_toNat_eq htrim, BitVec.eq_of_toNat_eq hperiod⟩

theorem toNat_match (trim : U16) : (3124 + trim.setWidth 32 : U32).toNat = 3124 + trim.toNat := by
  have h3124 : (3124 : U32).toNat = 3124 := rfl
  rw [BitVec.toNat_add, BitVec.toNat_setWidth, h3124]
  omega

/-- At the match it starts again, and interrupts. -/
theorem timer0Tick_match {s : Fw} (h : Running s) (hmatch : s.t0tc = s.t0mr0) :
    (timer0Tick s).clkn.toNat = (s.clkn.toNat + 1) % 2 ^ 32 ∧ (timer0Tick s).clknOffset = 0 ∧
      (timer0Tick s).t0tc.toNat = 0 ∧ (timer0Tick s).t0mr0.toNat = 3124 + s.clk100nsOffset.toNat ∧
      (timer0Tick s).clk100nsOffset.toNat = 0 := by
  obtain ⟨d, c, t, hirq⟩ := timer0IRQHandler_eq { s with t0tc := 0 }
  rw [timer0Tick, if_pos hmatch, hirq]
  refine ⟨?_, rfl, rfl, toNat_match s.clk100nsOffset, rfl⟩
  show (s.clkn + (s.clknOffset + 1)).toNat = _
  rw [h.noOffset, BitVec.toNat_add]
  rfl

/-- Below the match it counts. -/
theorem timer0Tick_count {s : Fw} (h : Running s) (hmatch : s.t0tc ≠ s.t0mr0) :
    s.t0tc.toNat < s.t0mr0.toNat ∧ (s.t0tc + 1).toNat = s.t0tc.toNat + 1 ∧
      timer0Tick s = { s with t0tc := s.t0tc + 1 } := by
  have hne : s.t0tc.toNat ≠ s.t0mr0.toNat := fun heq => hmatch (BitVec.eq_of_toNat_eq heq)
  have hlt : s.t0tc.toNat < s.t0mr0.toNat := Nat.lt_of_le_of_ne h.counts hne
  have hone : (1 : U32).toNat = 1 := rfl
  refine ⟨hlt, ?_, if_neg hmatch⟩
  rw [BitVec.toNat_add, hone]
  have := s.t0mr0.isLt
  omega

theorem Running.tick {s : Fw} (h : Running s) : Running (timer0Tick s) := by
  by_cases hmatch : s.t0tc = s.t0mr0
  · obtain ⟨-, hoffset, htc, hmr, -⟩ := timer0Tick_match h hmatch
    have htrim := s.clk100nsOffset.isLt
    exact ⟨by omega, by omega, by omega, hoffset⟩
  · obtain ⟨hlt, hnext, hcount⟩ := timer0Tick_count h hmatch
    rw [hcount]
    exact ⟨h.le_match, h.match_le, by dsimp only; omega, h.noOffset⟩

/-- The corrected clock goes up by one. -/
theorem corrected_tick {s : Fw} (h : Running s) :
    corrected (timer0Tick s) ≡ corrected s + 1 [ZMOD 6250] := by
  by_cases hmatch : s.t0tc = s.t0mr0
  · obtain ⟨hclkn, -, htc, hmr, htrim⟩ := timer0Tick_match h hmatch
    unfold corrected Int.ModEq
    rw [hclkn, htc, hmr, htrim, hmatch]
    omega
  · obtain ⟨-, hnext, hcount⟩ := timer0Tick_count h hmatch
    rw [hcount]
    unfold corrected Int.ModEq
    dsimp only
    rw [hnext]
    omega

/-- A correction under way is one unit nearer to its end. -/
theorem toSettle_tick {s : Fw} (h : Running s) : toSettle (timer0Tick s) = toSettle s - 1 := by
  by_cases hmatch : s.t0tc = s.t0mr0
  · obtain ⟨-, -, htc, hmr, htrim⟩ := timer0Tick_match h hmatch
    unfold toSettle
    rw [htc, hmr, htrim, hmatch]
    split_ifs <;> omega
  · obtain ⟨hlt, hnext, hcount⟩ := timer0Tick_count h hmatch
    rw [hcount]
    unfold toSettle
    dsimp only
    rw [hnext]
    split_ifs <;> omega

/-! ## Runs -/

variable {s : Fw}

theorem Running.elsewhere (h : Running s) (w : Fw) : Running (keepClock s w) :=
  ⟨h.le_match, h.match_le, h.counts, h.noOffset⟩

/-- **The corrected clock keeps the time**, and a correction comes to its end. -/
theorem run_clockStep (es : List ClockEvent) (h : Running s) :
    Running (run clockStep s es) ∧
      corrected (run clockStep s es) ≡ corrected s + ticks es [ZMOD 6250] ∧
      toSettle (run clockStep s es) = toSettle s - ticks es := by
  induction es generalizing s with
  | nil => exact ⟨h, by simp [ticks], by simp [ticks]⟩
  | cons e es ih =>
    cases e with
    | tick =>
      have hticks : ticks (.tick :: es) = 1 + ticks es := by simp [ticks]
      obtain ⟨hrun, hclock, hsettle⟩ := ih h.tick
      refine ⟨hrun, ?_, ?_⟩
      · have hnext := (corrected_tick h).add_right (ticks es : ℤ)
        rw [hticks, Nat.cast_add, ← Int.add_assoc]
        exact hclock.trans hnext
      · rw [hticks, ← Nat.sub_sub, ← toSettle_tick h]
        exact hsettle
    | elsewhere w =>
      have hticks : ticks (.elsewhere w :: es) = ticks es := by simp [ticks]
      rw [hticks]
      exact ih (h.elsewhere w)

theorem Settled.run (es : List ClockEvent) (h : Settled s) : Settled (run clockStep s es) := by
  obtain ⟨hrun, -, hsettle⟩ := run_clockStep es h.toRunning
  refine settled_iff.2 ⟨hrun, ?_⟩
  rw [hsettle, (settled_iff.1 h).2, Nat.zero_sub]

/-- So it is from power on until the first request for a correction. -/
theorem settled_powerOn (es : List ClockEvent) : Settled (run clockStep powerOn es) :=
  Settled.run es ⟨⟨by decide, by decide, by decide, rfl⟩, rfl, rfl⟩

/-! ## What the host measures -/

variable {π κ : Type*} {lib : Btbb π κ}

/-- `cb_rx` finds an access code at symbol `offset` of the block that ended in state `s`, and
measures `clkOffset`. -/
structure Measured (lib : Btbb π κ) (live : Bool) (nowNs : U64) (s : Fw) (rb : Ringbuffer)
    (x : Sniffer κ) (offset : ℕ) (clkOffset : U16) : Prop where
  captured : Captured s rb.bottomUsb
  found : (lib.findAc rb.symsCell bankLen (x.pn.bind lib.lap)).1 = offset
  line : ∃ clkn, .line clkn clkOffset ∈ (cbRx lib live nowNs rb x).1

/-- The time of symbol `offset` of a block that ended at time `t`. -/
def arrival (t : ℤ) (offset : ℕ) : ℤ := t - 4000 + 10 * offset

variable {live : Bool} {nowNs : U64} {rb : Ringbuffer} {x : Sniffer κ} {offset : ℕ}
  {clkOffset : U16}

theorem Measured.eq (h : Measured lib live nowNs s rb x offset clkOffset) :
    clkOffset = clkOffsetOf rb.bottomUsb offset := by
  obtain ⟨clkn, hline⟩ := h.line
  obtain ⟨offset', hfound, heq⟩ := line_mem_cbRx hline
  have hoffset : offset' = offset := Int.ofNat.inj (hfound.symm.trans h.found)
  rw [heq, hoffset]

/-- The words of 32 and of 16 bits are wide enough for the phase. -/
theorem phase_eq {y : ℕ} (hy : y < 3276810000) :
    (2 ^ 32 - 4000 + ((y % 2 ^ 32 + 6250) % 2 ^ 32)) % 2 ^ 32 % 6250 % 2 ^ 16 =
      (y + 2250) % 6250 := by
  omega

/-- Where no trim is under way, the offset measured is the phase of the clock at the symbol. -/
theorem Measured.phase (h : Measured lib live nowNs s rb x offset clkOffset) (hset : Settled s)
    (hoffset : offset < 400) :
    clkOffset.toNat < 6250 ∧ (clkOffset.toNat : ℤ) ≡ arrival (corrected s) offset [ZMOD 6250] := by
  have hphase : s.t0tc.toNat ≤ 3124 + 0xffff := hset.counts.trans hset.match_le
  obtain ⟨-, hclk⟩ := h.captured.clocks
  have hperiod : s.t0mr0.toNat = 3124 := by rw [hset.period]; rfl
  have hcounts := hset.counts
  have hclk' := toNat_clk100ns hphase
  have h6250 : (6250 : U32).toNat = 6250 := rfl
  have h4000 : (4000 : U32).toNat = 4000 := rfl
  have hvalue : clkOffset.toNat =
      (3125 * (s.clkn.toNat % 2 ^ 20) + s.t0tc.toNat + offset * 10 + 2250) % 6250 := by
    rw [h.eq, clkOffsetOf, BitVec.toNat_setWidth, BitVec.toNat_umod, BitVec.toNat_sub,
      BitVec.toNat_add, BitVec.toNat_add, hclk, hclk', toNat_symbolTicks hoffset, h6250, h4000]
    exact phase_eq (by omega)
  have htrim : s.clk100nsOffset.toNat = 0 := by rw [hset.noTrim]; rfl
  refine ⟨by omega, ?_⟩
  unfold arrival corrected Int.ModEq
  rw [hvalue, hperiod, htrim]
  omega

/-! ## The trim -/

/-- What the device does with the trims among the host's actions. -/
def sendTrims (stale : ℕ → U8) (actions : List SniffAction) (s : Fw) : Fw :=
  actions.foldl (fun s a => match a with
    | .trimClock offset =>
      (vendorRequestHandler { fw := s } ((cmdTrimClock offset).received stale)).fw
    | _ => s) s

theorem sendTrims_trimClock (stale : ℕ → U8) (offset : U16) (s : Fw) :
    sendTrims stale [.trimClock offset] s = { s with clk100nsOffset := offset } := by
  have hstored := trimClock_stored stale { fw := s } offset
  show { s with clk100nsOffset := _ } = _
  exact congrArg (fun trim => { s with clk100nsOffset := trim }) hstored

/-- A trim that is right modulo two periods does what the difference would do. -/
theorem Settled.trim (hset : Settled s) {k : U16} {d : ℤ} (hk : k.toNat < 6250)
    (hmod : (k.toNat : ℤ) ≡ d [ZMOD 6250]) :
    Running { s with clk100nsOffset := k } ∧
      corrected { s with clk100nsOffset := k } ≡ corrected s - d [ZMOD 6250] ∧
      toSettle { s with clk100nsOffset := k } ≤ 12499 := by
  have hnone : s.clk100nsOffset.toNat = 0 := by rw [hset.noTrim]; rfl
  have hperiod : s.t0mr0.toNat = 3124 := by rw [hset.period]; rfl
  refine ⟨⟨hset.le_match, hset.match_le, hset.counts, hset.noOffset⟩, ?_, ?_⟩
  · have heq : corrected { s with clk100nsOffset := k } = corrected s - k.toNat := by
      unfold corrected
      dsimp only
      rw [hnone]
      push_cast
      ring
    rw [heq]
    exact hmod.neg.add_left (corrected s)
  · unfold toSettle
    dsimp only
    rw [hperiod]
    split_ifs <;> omega

/-- The trim sent for a measured offset is the distance to `CLK_TUNE_TIME`. -/
theorem sendTrims_trimFor (stale : ℕ → U8) (hset : Settled s) (hlt : clkOffset.toNat < 6250) :
    ∃ k : U16, sendTrims stale (trimFor clkOffset) s = { s with clk100nsOffset := k } ∧
      k.toNat < 6250 ∧ (k.toNat : ℤ) ≡ clkOffset.toNat - 2250 [ZMOD 6250] := by
  have h2250 : (2250 : U16).toNat = 2250 := rfl
  have h6250 : (6250 : U16).toNat = 6250 := rfl
  unfold trimFor Int.ModEq
  by_cases hbelow : clkOffset < clkTuneTime
  · have hbelow' : clkOffset.toNat < 2250 := hbelow
    have hk : (6250 + clkOffset - clkTuneTime).toNat = 4000 + clkOffset.toNat := by
      rw [BitVec.toNat_sub, BitVec.toNat_add, h2250, h6250]
      omega
    rw [if_pos hbelow]
    exact ⟨_, sendTrims_trimClock stale _ s, by omega, by rw [hk]; omega⟩
  · rw [if_neg hbelow]
    by_cases habove : clkTuneTime < clkOffset
    · have habove' : 2250 < clkOffset.toNat := habove
      have hk : (clkOffset - clkTuneTime).toNat = clkOffset.toNat - 2250 := by
        rw [BitVec.toNat_sub, h2250]
        omega
      rw [if_pos habove]
      exact ⟨_, sendTrims_trimClock stale _ s, by omega, by rw [hk]; omega⟩
    · have hlow : ¬clkOffset.toNat < 2250 := hbelow
      have hhigh : ¬2250 < clkOffset.toNat := habove
      have hzero : (0 : U16).toNat = 0 := rfl
      rw [if_neg habove]
      exact ⟨0, by rw [← hset.noTrim]; rfl, by omega, by rw [hzero]; omega⟩

/-- The first time, `cb_rx` sends the trim for the offset it measures, and no other. -/
theorem sendTrims_cbRx (stale : ℕ → U8) (hx : x.calibrated = false)
    (h : Measured lib true nowNs s rb x offset clkOffset) (s' : Fw) :
    sendTrims stale (cbRx lib true nowNs rb x).1 s' = sendTrims stale (trimFor clkOffset) s' := by
  obtain ⟨clkn, hline⟩ := h.line
  obtain hnil | ⟨offset', hfound, more, hcons, hmore⟩ := cbRx_cases lib true nowNs rb x
  · rw [hnil] at hline
    exact absurd hline List.not_mem_nil
  · have hoffset : offset' = offset := Int.ofNat.inj (hfound.symm.trans h.found)
    have hfirst : (true && !x.calibrated) = true := by rw [hx]; rfl
    rw [if_pos hfirst, hoffset, ← h.eq] at hmore
    rw [hcons, hmore]
    rfl

/-! ## The loop -/

/-- **The calibration closes in one step.** `cb_rx` measures an access code and trims the clock: no
trim is under way 12499 units after the request at the latest, and from then on an access code that
arrives at the same phase is measured at `CLK_TUNE_TIME`. -/
theorem calibration_closes (lib : Btbb π κ)
    (hlib : ∀ stream length lap, (lib.findAc stream length lap).1 < length) (stale : ℕ → U8)
    {s₁ : Fw} {nowNs₁ : U64} {rb₁ : Ringbuffer} {x₁ : Sniffer κ} {offset₁ : ℕ} {clkOffset₁ : U16}
    (hset : Settled s₁) (hx : x₁.calibrated = false)
    (h₁ : Measured lib true nowNs₁ s₁ rb₁ x₁ offset₁ clkOffset₁) (before after : List ClockEvent) :
    let trimmed := sendTrims stale (cbRx lib true nowNs₁ rb₁ x₁).1 (run clockStep s₁ before)
    let s₂ := run clockStep trimmed after
    (12499 ≤ ticks after → Settled s₂) ∧
      (Settled s₂ → ∀ live nowNs₂ rb₂ x₂ offset₂ clkOffset₂,
        Measured lib live nowNs₂ s₂ rb₂ x₂ offset₂ clkOffset₂ →
        arrival (ticks before + ticks after) offset₂ ≡ arrival 0 offset₁ [ZMOD 6250] →
        clkOffset₂ = clkTuneTime) := by
  intro trimmed s₂
  have hinside : ∀ {live nowNs s rb x offset clkOffset},
      Measured lib live nowNs s rb x offset clkOffset → offset < 400 := by
    intro live nowNs s rb x offset clkOffset h
    have hlt := hlib rb.symsCell bankLen (x.pn.bind lib.lap)
    rw [h.found] at hlt
    exact Int.ofNat_lt.1 hlt
  obtain ⟨hlt₁, hphase₁⟩ := h₁.phase hset (hinside h₁)
  obtain ⟨-, hclock, -⟩ := run_clockStep before hset.toRunning
  obtain ⟨k, hk, hklt, hkmod⟩ := sendTrims_trimFor stale (hset.run before) hlt₁
  obtain ⟨hrun, htrim, hsettle⟩ := (hset.run before).trim hklt hkmod
  rw [← hk, ← sendTrims_cbRx stale hx h₁] at hrun htrim hsettle
  obtain ⟨hrun₂, hclock₂, hsettle₂⟩ := run_clockStep after hrun
  refine ⟨fun hlong => settled_iff.2 ⟨hrun₂, ?_⟩, ?_⟩
  · rw [hsettle₂]
    omega
  · intro hset₂ live nowNs₂ rb₂ x₂ offset₂ clkOffset₂ h₂ hsame
    obtain ⟨hlt₂, hphase₂⟩ := h₂.phase hset₂ (hinside h₂)
    have h2250 : clkOffset₂.toNat = 2250 := by
      change corrected s₂ ≡ corrected trimmed + ticks after [ZMOD 6250] at hclock₂
      change corrected trimmed ≡ _ [ZMOD 6250] at htrim
      unfold arrival Int.ModEq at *
      omega
    exact BitVec.eq_of_toNat_eq h2250

/-! ## A calibration -/

/-- The firmware when it puts a block that ended in state `s` in the queue. -/
def stamping (s : Fw) : Fw :=
  { idleBufClknHigh := (btStreamDmaHandler s { intTcStat := true }).1.idleBufClknHigh
    idleBufClk100ns := (btStreamDmaHandler s { intTcStat := true }).1.idleBufClk100ns
    idleBufChannel := 2441 }

def stamped (s : Fw) : UsbPktRx :=
  fillSlot (stamping s) {} (enqueueWrites .brPacket inquiryPacket.data)

/-- The block in all banks. -/
def stampedBanks (s : Fw) : Ringbuffer :=
  ringbufferInit (Vector.replicate numBanks (stamped s))
    (Vector.replicate numBanks (unpackSymbols inquiryPacket.data))

/-- Its first symbol is found to be the first of an access code. -/
theorem measured_stamped (s : Fw) : Measured foundAtOnce true 0 s (stampedBanks s) {} 0
    (clkOffsetOf (stamped s) 0) := by
  have hstatus : (stampedBanks s).bottomUsb.status &&& StatusFlag.discard.mask = 0 := by
    have hzero : (stamped s).status = 0 := by
      rw [stamped, enqueueWrites, fillSlot_append, fillSlot_status]
      rfl
    show (stamped s).status &&& _ = 0
    rw [hzero]
    exact BitVec.zero_and
  have hchannel : (stampedBanks s).bottomUsb.channel = 39 := by
    show (stamped s).channel = 39
    rw [stamped, enqueueWrites, fillSlot_append, fillSlot_append, fillSlot_status]
    dsimp only
    rw [fillSlot_dataWrites UsbPktRx.channel (fun _ _ => rfl), if_neg (by simp)]
    show (((2441 : U16) - 2402).setWidth 8 : U8) = 39
    decide
  refine ⟨⟨{ intTcStat := true }, stamping s, {}, _, rfl, rfl, rfl, rfl⟩, rfl, ?_⟩
  refine ⟨clknOfRx (stamped s) 0, ?_⟩
  unfold cbRx
  dsimp only
  rw [if_neg (not_not.2 hstatus), if_neg (by rw [hchannel]; decide)]
  exact List.mem_cons_of_mem _ List.mem_cons_self

/-- Measured at 2350, and two periods later at 2250. -/
theorem calibration_closes_inquiry :
    let s₁ : Fw := { clkn := 2, t0tc := 100 }
    let s₂ := run clockStep (sendTrims (fun _ => 0)
      (cbRx foundAtOnce true 0 (stampedBanks s₁) {}).1 s₁) (List.replicate 12500 .tick)
    clkOffsetOf (stamped s₁) 0 = 2350 ∧ clkOffsetOf (stamped s₂) 0 = 2250 := by
  intro s₁ s₂
  have hset : Settled s₁ := ⟨⟨by decide, by decide, by decide, rfl⟩, rfl, rfl⟩
  have hlib : ∀ stream length lap, (foundAtOnce.findAc stream length lap).1 < length := by
    intro stream length lap
    show (if length = 0 then (-1 : ℤ) else 0) < length
    split_ifs <;> omega
  have hticks := ticks_replicate 12500
  obtain ⟨hsettled, hmeasured⟩ := calibration_closes foundAtOnce hlib (fun _ => 0) hset rfl
    (measured_stamped s₁) [] (List.replicate 12500 .tick)
  refine ⟨by decide +kernel, ?_⟩
  refine hmeasured (hsettled (by rw [hticks]; decide)) true 0 _ {} 0 _ (measured_stamped s₂) ?_
  rw [hticks]
  decide

end Ubertooth.Timing
