import Ubertooth.Firmware.Frames
import Ubertooth.Hopping.Search

/-!
# The sweep is fair

In `HOP_SWEEP`, `hop` goes on to the next used channel of a walk around the band, or to the next
channel at all while AFH is off. Each of the `k` channels it may stop at is tuned once in `k` calls,
wherever the sweep starts, and then the channels come again in the same order (`sweep_fair`).
-/

namespace Ubertooth.Hopping

open Firmware Foundations

/-! ## One call -/

/-- The channels the sweep stops at: the used ones, or all while AFH is off. -/
def SweepStop (h : HopVars) (j : ℕ) : Prop := h.afhEnabled = true → mapHas h j = true

instance (h : HopVars) : DecidablePred (SweepStop h) := fun _ =>
  inferInstanceAs (Decidable (_ → _))

/-- The search ends at the first channel of the walk that ends it. -/
theorem hopSearch_eq_ok {again : U16 → Bool} {n : ℕ} {channel c : U16}
    (h : hopSearch again n channel = .ok c) :
    ∃ m, 1 ≤ m ∧ c = sweepNext^[m] channel ∧ again c = false ∧
      ∀ l, 1 ≤ l → l < m → again (sweepNext^[l] channel) = true := by
  induction n generalizing channel with
  | zero => exact absurd h (by simp [hopSearch])
  | succ n ih =>
    dsimp only [hopSearch] at h
    cases hagain : again (sweepNext channel) with
    | false =>
      rw [hagain, if_neg (by simp)] at h
      obtain rfl := Except.ok.inj h
      exact ⟨1, Nat.le_refl 1, rfl, hagain, fun l hl hl' => absurd hl' (by omega)⟩
    | true =>
      rw [hagain, if_pos rfl] at h
      obtain ⟨m, hm, hc, hend, hbefore⟩ := ih h
      refine ⟨m + 1, by omega, hc, hend, fun l hl hl' => ?_⟩
      obtain ⟨k, rfl⟩ : ∃ k, l = k + 1 := ⟨l - 1, by omega⟩
      rcases Nat.eq_zero_or_pos k with rfl | hk
      · exact hagain
      · exact hbefore k hk (by omega)

/-- The place of the channel that follows the one at place `i` in the sweep. -/
def nextStop (h : HopVars) (i : ℕ) : ℕ :=
  match hopSearch (fun channel => h.afhEnabled && !h.afhMapBit (channel.toNat - 2402)) 79
    (channelAt i) with
  | .ok channel => channel.toNat - 2402
  | .error _ => i

variable {h : HopVars}

theorem again_channelAt_iff {j : ℕ} (hj : j < 79) :
    (h.afhEnabled && !h.afhMapBit ((channelAt j).toNat - 2402)) = false ↔ SweepStop h j := by
  rw [afhMapBit_channelAt h hj, SweepStop]
  cases h.afhEnabled <;> cases mapHas h j <;> simp

/-- From anywhere in the band the search of a sweep ends at the first stop of the walk. -/
theorem exists_nextStop (hstop : ∃ j < 79, SweepStop h j) {i : ℕ} (hi : i < 79) :
    ∃ m, 1 ≤ m ∧ nextStop h i = CyclicWalk.place 79 32 i m ∧
      hopSearch (fun channel => h.afhEnabled && !h.afhMapBit (channel.toNat - 2402)) 79
        (channelAt i) = .ok (channelAt (CyclicWalk.place 79 32 i m)) ∧
      SweepStop h (CyclicWalk.place 79 32 i m) ∧
      ∀ l, 1 ≤ l → l < m → ¬SweepStop h (CyclicWalk.place 79 32 i l) := by
  have hlt : ∀ l, CyclicWalk.place 79 32 i l < 79 := CyclicWalk.place_lt (by omega) 32 i
  obtain ⟨c, hc⟩ := (hopSearch_iff
    (fun channel => h.afhEnabled && !h.afhMapBit (channel.toNat - 2402))
    (inBand_channelAt hi) (Nat.le_refl 79)).2
    (hstop.imp fun j hj => ⟨hj.1, (again_channelAt_iff hj.1).2 hj.2⟩)
  obtain ⟨m, hm, rfl, hend, hbefore⟩ := hopSearch_eq_ok hc
  rw [iterate_sweepNext hi] at hc hend
  refine ⟨m, hm, ?_, hc, (again_channelAt_iff (hlt m)).1 hend, fun l hl hl' hplace => ?_⟩
  · rw [nextStop, hc]
    dsimp only
    rw [toNat_channelAt (hlt m), Nat.add_sub_cancel_left]
  · have hgoes := hbefore l hl hl'
    rw [iterate_sweepNext hi, (again_channelAt_iff (hlt l)).2 hplace] at hgoes
    exact absurd hgoes (by simp)

theorem goesOn_nextStop (hstop : ∃ j < 79, SweepStop h j) :
    CyclicWalk.GoesOn 79 32 (SweepStop h) (nextStop h) := by
  intro i hi
  obtain ⟨m, hm, hnext, -, hend, hbefore⟩ := exists_nextStop hstop hi
  exact ⟨m, hm, hnext, by rwa [hnext], hbefore⟩

/-- The device sweeps, at place `i` of the band. -/
structure SweepsAt (h : HopVars) (i : ℕ) (s : Fw) : Prop where
  hopMode : s.hopMode = .sweep
  hopVars : s.hopVars = h
  channel : s.channel = channelAt i

/-- The frequency the CC2400 is tuned to. -/
def tuned (s : Fw) : U16 := s.fsdiv + 1

theorem loopCondition_of_sweepsAt (hcount : h.afhEnabled = true → h.usedChannels ≠ 0) {i : ℕ}
    {s : Fw} (hs : SweepsAt h i s) :
    loopCondition s = fun channel => h.afhEnabled && !h.afhMapBit (channel.toNat - 2402) := by
  obtain ⟨hmode, hvars, -⟩ := hs
  funext channel
  simp only [loopCondition, hmode, hvars]
  cases hafh : h.afhEnabled with
  | false => simp
  | true =>
    have hused : decide (h.usedChannels ≠ 0) = true := decide_eq_true (hcount hafh)
    rw [hused, Bool.true_and]

theorem hopChannel_of_sweepsAt (hcount : h.afhEnabled = true → h.usedChannels ≠ 0)
    (hstop : ∃ j < 79, SweepStop h j) {i : ℕ} (hi : i < 79) {s : Fw} (hs : SweepsAt h i s) :
    hopChannel s = .ok { s with channel := channelAt (nextStop h i) } := by
  obtain ⟨m, -, hnext, hsearch, -⟩ := exists_nextStop hstop hi
  rw [← hnext] at hsearch
  rw [hopChannel_of_searches (Or.inl hs.hopMode), loopCondition_of_sweepsAt hcount hs, hs.channel,
    hopSearch_mono (by omega) hsearch]
  rfl

/-- One call goes on to the next stop, and tunes it. -/
theorem hop_of_sweepsAt (hcount : h.afhEnabled = true → h.usedChannels ≠ 0)
    (hstop : ∃ j < 79, SweepStop h j) {i : ℕ} (hi : i < 79) {s : Fw} (hs : SweepsAt h i s) :
    ∃ s', Firmware.hop s = .ok s' ∧ SweepsAt h (nextStop h i) s' ∧
      tuned s' = channelAt (nextStop h i) := by
  obtain ⟨hmode, hvars, hchannel⟩ := hs
  have hmoves := hopChannel_of_sweepsAt hcount hstop hi
    (s := { s with doHop := false, lastHop := s.clkn }) ⟨hmode, hvars, hchannel⟩
  have hne : ¬(s.hopMode = .none ∧ s.fsdiv.toNat + 1 = s.channel.toNat) := by
    rw [hmode]
    simp
  have hhop : Firmware.hop s = .ok (retune
      { s with doHop := false, lastHop := s.clkn, channel := channelAt (nextStop h i) }) := by
    unfold Firmware.hop
    dsimp only
    rw [if_neg hne, hmoves]
    rfl
  obtain ⟨a, b, hretune⟩ := retune_frame
    { s with doHop := false, lastHop := s.clkn, channel := channelAt (nextStop h i) }
  refine ⟨_, hhop, ?_, ?_⟩
  · rw [hretune]
    exact ⟨hmode, hvars, rfl⟩
  · rw [hretune, tuned]
    exact BitVec.sub_add_cancel _ _

/-! ## Calls one after the other -/

/-- What happens to the device between the calls. -/
structure KeepsSweep (between : ℕ → Fw → Fw) : Prop where
  hopMode : ∀ t s, (between t s).hopMode = s.hopMode
  hopVars : ∀ t s, (between t s).hopVars = s.hopVars
  channel : ∀ t s, (between t s).channel = s.channel

theorem SweepsAt.keeps {i : ℕ} {s : Fw} (hs : SweepsAt h i s) {between : ℕ → Fw → Fw}
    (hb : KeepsSweep between) (t : ℕ) : SweepsAt h i (between t s) :=
  ⟨(hb.hopMode t s).trans hs.hopMode, (hb.hopVars t s).trans hs.hopVars,
    (hb.channel t s).trans hs.channel⟩

/-- So many calls of `hop`, with `between` going on before each. -/
def hops (between : ℕ → Fw → Fw) (s : Fw) : ℕ → Except Fault Fw
  | 0 => .ok s
  | t + 1 => do
    let s' ← hops between s t
    Firmware.hop (between t s')

/-- The frequency tuned after so many calls. -/
def tunedAfter (between : ℕ → Fw → Fw) (s : Fw) (t : ℕ) : Except Fault U16 :=
  (hops between s t).map tuned

theorem hops_of_sweepsAt {between : ℕ → Fw → Fw} (hb : KeepsSweep between)
    (hcount : h.afhEnabled = true → h.usedChannels ≠ 0) (hstop : ∃ j < 79, SweepStop h j) {i : ℕ}
    (hi : i < 79) {s : Fw} (hs : SweepsAt h i s) (t : ℕ) :
    ∃ s', hops between s t = .ok s' ∧ SweepsAt h ((nextStop h)^[t] i) s' := by
  induction t with
  | zero => exact ⟨s, rfl, hs⟩
  | succ t ih =>
    obtain ⟨s', hs', hat⟩ := ih
    obtain ⟨s'', hhop, hnext, -⟩ := hop_of_sweepsAt hcount hstop
      ((goesOn_nextStop hstop).iterate_lt hi t) (hat.keeps hb t)
    refine ⟨s'', ?_, by rwa [Function.iterate_succ_apply']⟩
    rw [hops, hs']
    exact hhop

/-- From the first call on the channel is tuned. -/
theorem tunedAfter_of_sweepsAt {between : ℕ → Fw → Fw} (hb : KeepsSweep between)
    (hcount : h.afhEnabled = true → h.usedChannels ≠ 0) (hstop : ∃ j < 79, SweepStop h j) {i : ℕ}
    (hi : i < 79) {s : Fw} (hs : SweepsAt h i s) (t : ℕ) :
    tunedAfter between s (t + 1) = .ok (channelAt ((nextStop h)^[t + 1] i)) := by
  obtain ⟨s', hs', hat⟩ := hops_of_sweepsAt hb hcount hstop hi hs t
  obtain ⟨s'', hhop, -, htuned⟩ := hop_of_sweepsAt hcount hstop
    ((goesOn_nextStop hstop).iterate_lt hi t) (hat.keeps hb t)
  rw [tunedAfter, hops, hs', Function.iterate_succ_apply', ← htuned]
  exact congrArg (Except.map tuned) hhop

theorem channelAt_injOn {i j : ℕ} (hi : i < 79) (hj : j < 79) (h : channelAt i = channelAt j) :
    i = j := by
  have htoNat := congrArg BitVec.toNat h
  rw [toNat_channelAt hi, toNat_channelAt hj] at htoNat
  exact Nat.add_left_cancel htoNat

/-- The places of the channels the sweep stops at. -/
def sweepStops (h : HopVars) : Finset ℕ := (Finset.range 79).filter (SweepStop h)

theorem mem_sweepStops {j : ℕ} : j ∈ sweepStops h ↔ j < 79 ∧ SweepStop h j := by
  rw [sweepStops, Finset.mem_filter, Finset.mem_range]

/-- **The sweep is fair.** From any channel of the band, with AFH off or with channels counted and
at least one in use, every call of `hop` tunes a channel that is to be used, the first `k` calls
tune each of these `k` channels exactly once, and the channels tuned repeat with period `k`,
whatever happens between the calls. -/
theorem sweep_fair {s : Fw} (hmode : s.hopMode = .sweep) (hband : InBand s.channel)
    (hcount : s.hopVars.afhEnabled = true → s.hopVars.usedChannels ≠ 0)
    (hstop : (sweepStops s.hopVars).Nonempty) {between : ℕ → Fw → Fw} (hb : KeepsSweep between) :
    (∀ t, ∃ j ∈ sweepStops s.hopVars, tunedAfter between s (t + 1) = .ok (channelAt j)) ∧
    (∀ j ∈ sweepStops s.hopVars, ∃! t, t < (sweepStops s.hopVars).card ∧
      tunedAfter between s (t + 1) = .ok (channelAt j)) ∧
    ∀ t, tunedAfter between s (t + 1 + (sweepStops s.hopVars).card) =
      tunedAfter between s (t + 1) := by
  obtain ⟨i, hi, hchannel⟩ := inBand_iff.1 hband
  have hstop' : ∃ j < 79, SweepStop s.hopVars j := hstop.imp fun j hj => mem_sweepStops.1 hj
  have hgoes := goesOn_nextStop hstop'
  have hcoprime : Nat.Coprime 32 79 := by decide
  have htuned := tunedAfter_of_sweepsAt hb hcount hstop' hi ⟨hmode, rfl, hchannel⟩
  refine ⟨fun t => ?_, fun j hj => ?_, fun t => ?_⟩
  · exact ⟨_, mem_sweepStops.2 ⟨hgoes.iterate_lt hi _, hgoes.stop_iterate hi t⟩, htuned t⟩
  · obtain ⟨hj, hstops⟩ := mem_sweepStops.1 hj
    have hiff : ∀ t, tunedAfter between s (t + 1) = .ok (channelAt j) ↔
        (nextStop s.hopVars)^[t + 1] i = j := by
      intro t
      rw [htuned t]
      refine ⟨fun heq => ?_, fun heq => by rw [heq]⟩
      exact channelAt_injOn (hgoes.iterate_lt hi _) hj (Except.ok.inj heq)
    simp only [hiff]
    exact hgoes.existsUnique_stop hcoprime hi hj hstops
  · have hround := hgoes.iterate_add_card hcoprime hi t
    have hlate := htuned (t + (sweepStops s.hopVars).card)
    rw [Nat.add_right_comm] at hlate
    rw [hlate, htuned t, sweepStops, hround]

/-- A sweep of channels 0 and 1 alone, from channel 39. -/
theorem sweep_fair_two_channels :
    let s : Fw := { powerOn with
      hopMode := .sweep
      hopVars := { powerOn.hopVars with
        afhMap := Vector.ofFn fun i => if i.val = 0 then 3 else 0
        usedChannels := 2
        afhEnabled := true } }
    ∀ t, tunedAfter (fun _ s => s) s (t + 1 + (sweepStops s.hopVars).card) =
      tunedAfter (fun _ s => s) s (t + 1) := by
  intro s
  have hband : InBand s.channel := by decide
  have hstop : (sweepStops s.hopVars).Nonempty := ⟨0, by decide +kernel⟩
  exact (sweep_fair rfl hband (fun _ => by decide) hstop
    ⟨fun _ _ => rfl, fun _ _ => rfl, fun _ _ => rfl⟩).2.2

end Ubertooth.Hopping
