import Ubertooth.Firmware.Clock
import Ubertooth.LowEnergy.Link

/-!
# Recovering the hop increment

A connection moves up by its hop increment at every interval, modulo the 37 data channels. From
data channel 0 it comes to data channel 1 after as many intervals as the inverse of the increment
says, and `promisc_recover_hop_increment` measures that number: it waits on 2404 MHz, then on
2406 MHz, and divides the time between the two packets by the interval. `recover_hop_increment` says
that the measurement is right under any jitter below half an interval and across a wrap of the
clock, that the table inverts it, and that the firmware takes up the sequence where it stands.
-/

namespace Ubertooth.LowEnergy

open Firmware Foundations

/-! ## Rounding -/

/-- `DIVIDE_ROUND` gives the number of times the divisor goes into the dividend, give or take less
than half a divisor. -/
theorem toNat_divideRound {n d : U32} {q : ℕ} (hfit : n.toNat + d.toNat / 2 < 2 ^ 32)
    (hlo : q * d.toNat ≤ n.toNat + d.toNat / 2) (hhi : n.toNat + d.toNat / 2 < (q + 1) * d.toNat) :
    (divideRound n d).toNat = q := by
  have hhalf : (d / 2).toNat = d.toNat / 2 := by
    rw [BitVec.toNat_udiv]
    rfl
  rw [divideRound, BitVec.toNat_udiv, BitVec.toNat_add, hhalf, Nat.mod_eq_of_lt hfit]
  exact Nat.div_eq_of_lt_le hlo hhi

/-! ## The number of channels hopped -/

theorem channelsHopped_eq (s : Fw) :
    channelsHopped s = divideRound (elapsed clk100nsPeriod s.firstTs s.clk100ns)
      (s.le.connInterval.setWidth 32 * leBaseclk) := rfl

/-- An interval in ticks of 100 ns fits the word. -/
theorem toNat_intervalTicks (interval : U16) :
    (interval.setWidth 32 * leBaseclk : U32).toNat = interval.toNat * 12500 := by
  have hlt := interval.isLt
  have hb : (leBaseclk : U32).toNat = 12500 := rfl
  rw [BitVec.toNat_mul, BitVec.toNat_setWidth, hb]
  omega

/-- The number measured is the number hopped. -/
theorem toNat_channelsHopped {s : Fw} {m d : ℕ} {j : ℤ} (hfirst : s.firstTs < clk100nsPeriod)
    (hd : d < clk100nsPeriod.toNat)
    (hclk : s.clk100ns.toNat = (s.firstTs.toNat + d) % clk100nsPeriod.toNat)
    (hdist : (d : ℤ) = m * (s.le.connInterval.toNat * 12500) + j)
    (hj : |j| < s.le.connInterval.toNat * 6250) : (channelsHopped s).toNat = m := by
  have hlt := s.le.connInterval.isLt
  have hperiod : clk100nsPeriod.toNat = 3276800000 := rfl
  obtain ⟨hj1, hj2⟩ := abs_lt.1 hj
  rw [channelsHopped_eq]
  apply toNat_divideRound
  · rw [toNat_elapsed hfirst hd hclk, toNat_intervalTicks]
    omega
  · rw [toNat_elapsed hfirst hd hclk, toNat_intervalTicks]
    zify
    omega
  · rw [toNat_elapsed hfirst hd hclk, toNat_intervalTicks]
    zify
    rw [add_mul]
    omega

/-! ## The table -/

/-- The table holds the inverses modulo 37. -/
theorem hopIntervalLut_inverse :
    ∀ k inc : Fin 37, k.val * inc.val % 37 = 1 → (hopIntervalLut.get k).toNat = inc.val := by
  decide +kernel

/-! ## The two calls -/

/-- On data channel 0 the callback notes the time and goes on to data channel 1. -/
theorem promiscRecoverHopIncrement_first {s : Fw} (h : s.channel = 2404) :
    promiscRecoverHopIncrement s =
      { s with firstTs := s.clk100ns, hopDirectChannel := 2406, doHop := true } := by
  rw [promiscRecoverHopIncrement, if_pos h]

/-- On data channel 1, within one cycle of the sequence, it has the increment. -/
theorem promiscRecoverHopIncrement_found {s : Fw} (h : s.channel = 2406)
    (hk : (channelsHopped s).toNat < 37) :
    promiscRecoverHopIncrement s = recoverIncrement ⟨(channelsHopped s).toNat, hk⟩ s := by
  rw [promiscRecoverHopIncrement, if_neg (by rw [h]; decide), if_pos h, dif_pos hk]

/-- After more than one cycle it goes back to data channel 0. -/
theorem promiscRecoverHopIncrement_back {s : Fw} (h : s.channel = 2406)
    (hk : ¬(channelsHopped s).toNat < 37) :
    promiscRecoverHopIncrement s = { s with hopDirectChannel := 2404, doHop := true } := by
  rw [promiscRecoverHopIncrement, if_neg (by rw [h]; decide), if_pos h, dif_neg hk]

theorem recoverIncrement_le (k : Fin 37) (s : Fw) :
    (recoverIncrement k s).le = { s.le with
      channelIncrement := hopIntervalLut.get k
      intervalTimer := s.le.connInterval / 2
      connCount := 0
      connEpoch := 0
      channelIdx := BitVec.ofNat 8 ((1 + (hopIntervalLut.get k).toNat) % 37)
      linkState := .connected
      crcVerify := false } := by
  rw [recoverIncrement, lePromiscState_le]
  rfl

/-- The link after both calls, `k` being the inverse of the increment. -/
theorem recovered_link {s : Fw} {k inc : ℕ} (hchannel : s.channel = 2406)
    (hmeasured : (channelsHopped s).toNat = k) (hk : k < 37) (hinc : inc < 37)
    (hinverse : k * inc % 37 = 1) :
    (promiscRecoverHopIncrement s).le.linkState = .connected ∧
      (promiscRecoverHopIncrement s).le.channelIncrement.toNat = inc ∧
      (promiscRecoverHopIncrement s).le.channelIdx = BitVec.ofNat 8 ((1 + inc) % 37) := by
  subst hmeasured
  have hlut := hopIntervalLut_inverse ⟨(channelsHopped s).toNat, hk⟩ ⟨inc, hinc⟩ hinverse
  rw [promiscRecoverHopIncrement_found hchannel hk, recoverIncrement_le]
  refine ⟨rfl, hlut, ?_⟩
  dsimp only
  rw [hlut]

/-! ## The hop sequence -/

/-- The frequency of data channel `d`, in MHz: 2426 MHz is left to advertising. -/
def dataChannelMHz (d : ℕ) : ℕ := if d < 11 then 2404 + 2 * d else 2406 + 2 * d

theorem toNat_btleChannelIndexToPhys (d : Fin 37) :
    (btleChannelIndexToPhys (BitVec.ofNat 8 d)).toNat = dataChannelMHz d := by
  revert d
  decide

/-- The state after `n` calls of `btle_next_hop`. -/
def hopped (n : ℕ) (le : LeState) : LeState := (fun le => (btleNextHop le).2)^[n] le

theorem hopped_succ (n : ℕ) (le : LeState) : hopped (n + 1) le = (btleNextHop (hopped n le)).2 :=
  Function.iterate_succ_apply' ..

/-- From the index `i` mod 37 on, the index moves up by the increment at every call. -/
theorem hopped_eq {le : LeState} {i inc : ℕ} (hidx : le.channelIdx = BitVec.ofNat 8 (i % 37))
    (hinc : le.channelIncrement.toNat = inc) (n : ℕ) :
    hopped n le = { le with channelIdx := BitVec.ofNat 8 ((i + n * inc) % 37) } := by
  induction n with
  | zero =>
    rw [Nat.zero_mul, Nat.add_zero, ← hidx]
    rfl
  | succ n ih =>
    have hlt : (i + n * inc) % 37 < 37 := Nat.mod_lt _ (by omega)
    have hnat : (BitVec.ofNat 8 ((i + n * inc) % 37)).toNat = (i + n * inc) % 37 := by
      rw [BitVec.toNat_ofNat]
      exact Nat.mod_eq_of_lt (by omega)
    rw [hopped_succ, ih]
    dsimp only [btleNextHop]
    rw [hnat, hinc, Nat.mod_add_mod, Nat.add_assoc, ← Nat.succ_mul]

/-- The frequency `btle_next_hop` returns after `n` calls. -/
theorem btleNextHop_hopped {le : LeState} {i inc : ℕ}
    (hidx : le.channelIdx = BitVec.ofNat 8 (i % 37)) (hinc : le.channelIncrement.toNat = inc)
    (n : ℕ) : (btleNextHop (hopped n le)).1.toNat = dataChannelMHz ((i + n * inc) % 37) := by
  rw [hopped_eq hidx hinc n]
  exact toNat_btleChannelIndexToPhys ⟨(i + n * inc) % 37, Nat.mod_lt _ (by omega)⟩

/-! ## Both calls together -/

/-- In `HOP_DIRECT` a hop moves to `hop_direct_channel`. -/
theorem hop_direct {s : Fw} (h : s.hopMode = .direct) :
    ∃ t, hop s = .ok t ∧ t.channel = s.hopDirectChannel := by
  obtain ⟨a, b, hretune⟩ := retune_frame { s with
    doHop := false
    lastHop := s.clkn
    channel := s.hopDirectChannel }
  refine ⟨_, ?_, congrArg Fw.channel hretune⟩
  rw [hop]
  simp only [hopChannel, h]
  rfl

/-- **Recovery of the hop increment.** Two calls, on data channels 0 and 1, of which the second sees
the clock `(k + 37 * c)` intervals later, up to a jitter below half an interval, where `k` is the
inverse of the increment: the link is connected exactly if no cycle was missed, and then follows
the hop sequence of the increment from data channel 1 on; otherwise it goes back to data channel 0
with the link as it was. -/
theorem recover_hop_increment {s₁ s₂ : Fw} {inc k c d : ℕ} {j : ℤ}
    (hchannel₁ : s₁.channel = 2404) (hchannel₂ : s₂.channel = 2406)
    (hfirst : s₂.firstTs = (promiscRecoverHopIncrement s₁).firstTs)
    (hclk₁ : s₁.clk100ns.toNat < 3276800000)
    (hclk₂ : s₂.clk100ns.toNat = (s₁.clk100ns.toNat + d) % 3276800000)
    (hdist : (d : ℤ) = (k + 37 * c) * s₂.le.connInterval.toNat * 12500 + j)
    (hjitter : |j| < s₂.le.connInterval.toNat * 6250) (hd : d < 3276800000)
    (hk : 1 ≤ k ∧ k ≤ 36) (hinc : 1 ≤ inc ∧ inc ≤ 36) (hinverse : k * inc % 37 = 1) :
    (s₂.le.linkState ≠ .connected →
      ((promiscRecoverHopIncrement s₂).le.linkState = .connected ↔ c = 0)) ∧
    (c = 0 →
      (promiscRecoverHopIncrement s₂).le.linkState = .connected ∧
      (promiscRecoverHopIncrement s₂).le.channelIncrement.toNat = inc ∧
      ∀ n, (btleNextHop (hopped n (promiscRecoverHopIncrement s₂).le)).1.toNat =
        dataChannelMHz ((1 + (n + 1) * inc) % 37)) ∧
    (0 < c →
      (promiscRecoverHopIncrement s₂).le = s₂.le ∧
      (promiscRecoverHopIncrement s₂).hopDirectChannel = 2404 ∧
      (promiscRecoverHopIncrement s₂).doHop = true ∧
      (s₂.hopMode = .direct →
        ∃ t, hop (promiscRecoverHopIncrement s₂) = .ok t ∧ t.channel = 2404)) := by
  rw [promiscRecoverHopIncrement_first hchannel₁] at hfirst
  have hmeasured : (channelsHopped s₂).toNat = k + 37 * c := by
    apply toNat_channelsHopped (d := d) (j := j)
    · rw [hfirst]
      exact BitVec.lt_def.2 hclk₁
    · exact hd
    · rw [hfirst]
      exact hclk₂
    · push_cast
      rw [hdist]
      ring
    · exact hjitter
  rcases Nat.eq_zero_or_pos c with hc | hc
  · rw [hc, Nat.mul_zero, Nat.add_zero] at hmeasured
    obtain ⟨hlink, hincrement, hidx⟩ :=
      recovered_link hchannel₂ hmeasured (by omega) (by omega) hinverse
    refine ⟨fun _ => iff_of_true hlink hc, fun _ => ⟨hlink, hincrement, fun n => ?_⟩,
      fun hpos => absurd hc hpos.ne'⟩
    rw [btleNextHop_hopped hidx hincrement n, Nat.succ_mul, Nat.add_assoc, Nat.add_comm inc]
  · have hback := promiscRecoverHopIncrement_back hchannel₂ (by omega)
    rw [hback]
    exact ⟨fun hlink => iff_of_false hlink hc.ne', fun h0 => absurd h0 hc.ne',
      fun _ => ⟨rfl, rfl, rfl, fun hdirect => hop_direct hdirect⟩⟩

/-- The clock wraps between the two packets, which are 16 intervals of 7.5 ms apart: the fifth hop
after them is to data channel 36. -/
theorem recover_hop_increment_seven :
    (btleNextHop (hopped 4 (promiscRecoverHopIncrement { powerOn with
        channel := 2406, clkn := 383, t0tc := 2999, firstTs := 3276799999
        le := { powerOn.le with connInterval := 6 } }).le)).1.toNat = dataChannelMHz 36 :=
  ((@recover_hop_increment { powerOn with channel := 2404, clkn := 0xfffff, t0tc := 3124 } _
    7 16 0 1199875 (-125) rfl rfl (by decide +kernel) (by decide +kernel) (by decide +kernel)
    (by decide +kernel) (by decide +kernel) (by decide) (by decide) (by decide)
    (by decide)).2.1 rfl).2.2 4

end Ubertooth.LowEnergy
