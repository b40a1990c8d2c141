import Ubertooth.Firmware.Frames
import Ubertooth.Firmware.Requests
import Ubertooth.Foundations.CyclicWalk
import Ubertooth.Foundations.Runs

/-!
# The channel search of `hop`

In `HOP_SWEEP` and `HOP_AFH` mode `hop` steps through the band, 32 channels at a time, until the AFH
map lets it stop. The step is coprime to the 79 channels of the band, so the search comes by all of
them, and it ends within 79 steps or never (`hopSearch_iff`).

Whether there is a channel to stop at depends on `used_channels` and on `afh_map`, which different
requests write. `search_ends_iff` says when the search ends, over all sequences of requests and
hops.
-/

namespace Ubertooth.Hopping

open Firmware Foundations

/-! ## Devices that hop -/

/-- What happens to a device: requests, clock interrupts, calls of `hop`, and anything else the
firmware does, which leaves the hop variables alone and switches the hop mode only to one of the
modes of Bluetooth Low Energy. -/
inductive HopEvent
  | request (r : VendorRequest)
  | timer0
  | hop
  | elsewhere (d : Device)

/-- The hop mode after something else has run. -/
def elsewhereMode (before after : HopMode) : HopMode :=
  match after with
  | .btle => .btle
  | .direct => .direct
  | _ => before

/-- One event. After a fault nothing more happens. -/
def hopStep : Except Fault Device → HopEvent → Except Fault Device
  | .error f, _ => .error f
  | .ok d, .request r => .ok (vendorRequestHandler d r)
  | .ok d, .timer0 => .ok { d with fw := timer0IRQHandler d.fw }
  | .ok d, .hop => do
    let s ← Firmware.hop d.fw
    return { d with fw := s }
  | .ok d, .elsewhere d' => .ok { d' with fw := { d'.fw with
      hopVars := d.fw.hopVars
      hopMode := elsewhereMode d.fw.hopMode d'.fw.hopMode } }

/-! ## `UBERTOOTH_SET_CHANNEL` -/

/-- The hop mode `SET_CHANNEL` sets. -/
def askedMode (param : U16) : HopMode := if maxFreq < param then .sweep else .none

/-- The channel `SET_CHANNEL` asks for. -/
def askedChannel (param : U16) : U16 :=
  if maxFreq < param then 2402 else if minFreq < param then param else minFreq

variable {d : Device}

/-- While a connection is followed the channel is left to `bt_le_sync`. -/
theorem setChannel_of_follow (param : U16) (hmode : d.mode = .btFollowLe) :
    setChannel param d = { d with
      fw := { d.fw with hopMode := askedMode param }
      requestedChannel := askedChannel param } := by
  dsimp only [setChannel, askedMode, askedChannel]
  by_cases hparam : maxFreq < param
  · simp only [if_pos hparam, hmode, ne_eq, not_true_eq_false, if_false]
  · simp only [if_neg hparam, hmode, ne_eq, not_true_eq_false, if_false]

theorem setChannel_of_tune (param : U16) (hmode : d.mode ≠ .btFollowLe) :
    setChannel param d = { d with
      fw := csThresholdCalcAndSet { d.fw with
        hopMode := askedMode param
        channel := askedChannel param }
      requestedChannel := 0 } := by
  dsimp only [setChannel, askedMode, askedChannel]
  by_cases hparam : maxFreq < param
  · simp only [if_pos hparam, hmode, ne_eq, not_false_eq_true, if_true]
  · simp only [if_neg hparam, hmode, ne_eq, not_false_eq_true, if_true]

/-- The hop mode asked for is a sweep or none. -/
theorem askedMode_ne (param : U16) {m : HopMode} (hsweep : m ≠ .sweep) (hnone : m ≠ .none) :
    askedMode param ≠ m := by
  unfold askedMode
  split
  · exact hsweep.symm
  · exact hnone.symm

/-- The request touches the hop mode, the channel, the squelch, and the channel asked for. -/
theorem setChannel_frame (param : U16) (d : Device) :
    ∃ channel a b requested, setChannel param d = { d with
      fw := { d.fw with
        hopMode := askedMode param
        channel := channel
        csThresholdCur := a
        csNoSquelch := b }
      requestedChannel := requested } := by
  by_cases hmode : d.mode = .btFollowLe
  · rw [setChannel_of_follow param hmode]
    exact ⟨d.fw.channel, d.fw.csThresholdCur, d.fw.csNoSquelch, _, rfl⟩
  · obtain ⟨a, b, h⟩ := csThresholdCalcAndSet_frame
      { d.fw with hopMode := askedMode param, channel := askedChannel param }
    rw [setChannel_of_tune param hmode, h]
    exact ⟨_, a, b, 0, rfl⟩

/-! ## The band -/

/-- The channel is one of the 79 of the band. -/
def InBand (channel : U16) : Prop := 2402 ≤ channel.toNat ∧ channel.toNat ≤ 2480

instance (channel : U16) : Decidable (InBand channel) := instDecidableAnd

/-- The channel `j` places into the band. -/
def channelAt (j : ℕ) : U16 := BitVec.ofNat 16 (2402 + j)

theorem toNat_channelAt {j : ℕ} (hj : j < 79) : (channelAt j).toNat = 2402 + j := by
  rw [channelAt, BitVec.toNat_ofNat, Nat.mod_eq_of_lt (by omega)]

theorem inBand_channelAt {j : ℕ} (hj : j < 79) : InBand (channelAt j) := by
  rw [InBand, toNat_channelAt hj]
  omega

theorem inBand_iff {channel : U16} : InBand channel ↔ ∃ j < 79, channel = channelAt j := by
  constructor
  · rintro ⟨hlo, hhi⟩
    refine ⟨channel.toNat - 2402, by omega, BitVec.eq_of_toNat_eq ?_⟩
    rw [toNat_channelAt (by omega)]
    omega
  · rintro ⟨j, hj, rfl⟩
    exact inBand_channelAt hj

/-- One step of the search goes 32 places on, around the band. -/
theorem sweepNext_channelAt {j : ℕ} (hj : j < 79) :
    sweepNext (channelAt j) = channelAt ((j + 32) % 79) := by
  have hnext : (channelAt j + 32).toNat = 2402 + j + 32 := by
    rw [BitVec.toNat_add, toNat_channelAt hj]
    show (2402 + j + 32) % 2 ^ 16 = 2402 + j + 32
    omega
  apply BitVec.eq_of_toNat_eq
  rw [toNat_channelAt (Nat.mod_lt _ (by omega)), sweepNext]
  by_cases hwrap : (2480 : U16) < channelAt j + 32
  · have h2480 : 2480 < (channelAt j + 32).toNat := hwrap
    rw [if_pos hwrap, BitVec.toNat_sub, hnext]
    show (2 ^ 16 - 79 + (2402 + j + 32)) % 2 ^ 16 = 2402 + (j + 32) % 79
    omega
  · have h2480 : ¬2480 < (channelAt j + 32).toNat := hwrap
    rw [if_neg hwrap, hnext]
    omega

theorem iterate_sweepNext {j : ℕ} (hj : j < 79) (k : ℕ) :
    sweepNext^[k] (channelAt j) = channelAt (CyclicWalk.place 79 32 j k) := by
  induction k with
  | zero => rw [Function.iterate_zero_apply, CyclicWalk.place_zero 32 hj]
  | succ k ih =>
    have hlt := CyclicWalk.place_lt (n := 79) (by omega) 32 j k
    rw [Function.iterate_succ_apply', ih, sweepNext_channelAt hlt, CyclicWalk.place_succ]

theorem inBand_sweepNext {channel : U16} (h : InBand channel) : InBand (sweepNext channel) := by
  obtain ⟨j, hj, rfl⟩ := inBand_iff.1 h
  rw [sweepNext_channelAt hj]
  exact inBand_channelAt (Nat.mod_lt _ (by omega))

/-! ## The search -/

/-- The search ends within `n` steps exactly if one of the first `n` channels ends it. -/
theorem hopSearch_ok_iff (again : U16 → Bool) (n : ℕ) (channel : U16) :
    (∃ c, hopSearch again n channel = .ok c) ↔
      ∃ k, 1 ≤ k ∧ k ≤ n ∧ again (sweepNext^[k] channel) = false := by
  induction n generalizing channel with
  | zero =>
    refine iff_of_false (by simp [hopSearch]) ?_
    rintro ⟨k, h1, h0, -⟩
    omega
  | succ n ih =>
    dsimp only [hopSearch]
    cases hagain : again (sweepNext channel) with
    | false => exact iff_of_true ⟨_, rfl⟩ ⟨1, Nat.le_refl 1, by omega, hagain⟩
    | true =>
      rw [if_pos rfl, ih]
      constructor
      · rintro ⟨k, h1, hn, hk⟩
        exact ⟨k + 1, by omega, by omega, hk⟩
      · rintro ⟨k, h1, hn, hk⟩
        -- the first step does not end the search
        obtain ⟨m, rfl⟩ : ∃ m, k = m + 1 := ⟨k - 1, by omega⟩
        rcases Nat.eq_zero_or_pos m with rfl | hm
        · rw [Function.iterate_one, hagain] at hk
          exact absurd hk (by simp)
        · exact ⟨m, hm, by omega, hk⟩

/-- More steps give the same channel. -/
theorem hopSearch_mono {again : U16 → Bool} {n m : ℕ} (hnm : n ≤ m) {channel c : U16}
    (h : hopSearch again n channel = .ok c) : hopSearch again m channel = .ok c := by
  induction n generalizing m channel with
  | zero => exact absurd h (by simp [hopSearch])
  | succ n ih =>
    obtain ⟨m, rfl⟩ : ∃ k, m = k + 1 := ⟨m - 1, by omega⟩
    dsimp only [hopSearch] at h ⊢
    split at h
    · rw [if_pos ‹_›]
      exact ih (by omega) h
    · rw [if_neg ‹_›]
      exact h

/-- **The search ends within 79 steps** exactly if some channel of the band ends it; with more than
79 steps it ends no more often. -/
theorem hopSearch_iff (again : U16 → Bool) {channel : U16} (h : InBand channel) {n : ℕ}
    (hn : 79 ≤ n) :
    (∃ c, hopSearch again n channel = .ok c) ↔ ∃ j < 79, again (channelAt j) = false := by
  obtain ⟨i, hi, rfl⟩ := inBand_iff.1 h
  rw [hopSearch_ok_iff]
  constructor
  · rintro ⟨k, -, -, hk⟩
    rw [iterate_sweepNext hi] at hk
    exact ⟨_, CyclicWalk.place_lt (by omega) 32 i k, hk⟩
  · rintro ⟨j, hj, hagain⟩
    have hcoprime : Nat.Coprime 32 79 := by decide
    obtain ⟨k, h1, h79, hk⟩ := CyclicWalk.exists_visit (by omega) hcoprime i hj
    refine ⟨k, h1, by omega, ?_⟩
    rw [iterate_sweepNext hi, hk]
    exact hagain

/-! ## The loops of `hop` -/

/-- The condition on which the do-while loop of the hop mode goes on. -/
def loopCondition (s : Fw) : U16 → Bool :=
  match s.hopMode with
  | .sweep => fun channel => decide (s.hopVars.usedChannels ≠ 0) && s.hopVars.afhEnabled &&
      !s.hopVars.afhMapBit (channel.toNat - 2402)
  | .afh => fun channel => decide (s.hopVars.usedChannels ≠ 79) &&
      s.hopVars.afhMapBit (channel.toNat - 2402)
  | _ => fun _ => false

/-- The hop mode is one of the two that search. -/
def Searches (s : Fw) : Prop := s.hopMode = .sweep ∨ s.hopMode = .afh

theorem hopChannel_of_searches {s : Fw} (h : Searches s) :
    hopChannel s = (hopSearch (loopCondition s) (2 ^ 16) s.channel).map
      fun channel => { s with channel := channel } := by
  obtain h | h := h <;> simp only [hopChannel, loopCondition, h] <;> rfl

/-- The channels of the band the AFH map has. -/
def mapHas (h : HopVars) (j : ℕ) : Bool := h.afhMapBit j

theorem afhMapBit_channelAt (h : HopVars) {j : ℕ} (hj : j < 79) :
    h.afhMapBit ((channelAt j).toNat - 2402) = mapHas h j := by
  rw [toNat_channelAt hj, mapHas]
  congr 1
  omega

/-- There is a channel the loop may stop at: in a sweep any channel unless AFH is enabled and counts
channels, and then a used one; in AFH detection any channel if all are counted, and else an unused
one. -/
def HasTarget (s : Fw) : Prop :=
  match s.hopMode with
  | .sweep => s.hopVars.usedChannels = 0 ∨ s.hopVars.afhEnabled = false ∨
      ∃ j < 79, mapHas s.hopVars j = true
  | .afh => s.hopVars.usedChannels = 79 ∨ ∃ j < 79, mapHas s.hopVars j = false
  | _ => True

theorem hasTarget_iff (s : Fw) : HasTarget s ↔ ∃ j < 79, loopCondition s (channelAt j) = false := by
  have hany : ∃ j : ℕ, j < 79 := ⟨0, by omega⟩
  unfold HasTarget loopCondition
  cases s.hopMode with
  | sweep =>
    simp only [Bool.and_eq_false_iff, decide_eq_false_iff_not, not_not, Bool.not_eq_false']
    constructor
    · rintro (h | h | ⟨j, hj, h⟩)
      · exact hany.imp fun j hj => ⟨hj, Or.inl (Or.inl h)⟩
      · exact hany.imp fun j hj => ⟨hj, Or.inl (Or.inr h)⟩
      · exact ⟨j, hj, Or.inr ((afhMapBit_channelAt s.hopVars hj).trans h)⟩
    · rintro ⟨j, hj, (h | h) | h⟩
      · exact Or.inl h
      · exact Or.inr (Or.inl h)
      · exact Or.inr (Or.inr ⟨j, hj, (afhMapBit_channelAt s.hopVars hj).symm.trans h⟩)
  | afh =>
    simp only [Bool.and_eq_false_iff, decide_eq_false_iff_not, not_not]
    constructor
    · rintro (h | ⟨j, hj, h⟩)
      · exact hany.imp fun j hj => ⟨hj, Or.inl h⟩
      · exact ⟨j, hj, Or.inr ((afhMapBit_channelAt s.hopVars hj).trans h)⟩
    · rintro ⟨j, hj, h | h⟩
      · exact Or.inl h
      · exact Or.inr ⟨j, hj, (afhMapBit_channelAt s.hopVars hj).symm.trans h⟩
  | _ => exact iff_of_true trivial (hany.imp fun j hj => ⟨hj, rfl⟩)

/-! ## Over all runs -/

/-- If the event is a call of `hop` that searches from inside the band, the loop exits after at most
79 iterations. -/
def SearchEnds : Except Fault Device → HopEvent → Prop
  | .ok d, .hop => Searches d.fw → InBand d.fw.channel →
      ∃ c, hopSearch (loopCondition d.fw) 79 d.fw.channel = .ok c
  | _, _ => True

/-- If the event is a call of `hop` that searches from inside the band, there is a channel it may
stop at. -/
def SearchHasTarget : Except Fault Device → HopEvent → Prop
  | .ok d, .hop => Searches d.fw → InBand d.fw.channel → HasTarget d.fw
  | _, _ => True

/-- **The search of `hop`.** In every run of requests and hops from power on, the loops exit after
at most 79 iterations exactly if at every search there is a channel of the band to stop at. -/
theorem search_ends_iff (es : List HopEvent) :
    Along hopStep SearchEnds (.ok deviceOn) es ↔
      Along hopStep SearchHasTarget (.ok deviceOn) es := by
  apply along_congr
  rintro (f | d) e
  · exact Iff.rfl
  · cases e with
    | hop =>
      refine forall_congr' fun _ => forall_congr' fun hband => ?_
      rw [hasTarget_iff]
      exact hopSearch_iff (loopCondition d.fw) hband (Nat.le_refl 79)
    | _ => exact Iff.rfl

/-- AFH detection with a map of all channels, as the host sends when it has seen them all: the
search does not end. -/
theorem not_searchEnds_all_channels :
    ¬Along hopStep SearchEnds (.ok deviceOn)
      [.request .afh, .request (.setAfhmap fun _ => 0xff), .hop] := by
  rintro ⟨-, -, h, -⟩
  obtain ⟨c, hc⟩ := h (Or.inr rfl) (by decide +kernel)
  have hhang : hopSearch (fun channel => decide ((0 : U8) ≠ 79) &&
      HopVars.afhMapBit { afhMap := Vector.ofFn fun _ => 0xff } (channel.toNat - 2402)) 79 2441 =
      .error .hang := by decide +kernel
  exact absurd (hhang.symm.trans hc) (by simp)

end Ubertooth.Hopping
