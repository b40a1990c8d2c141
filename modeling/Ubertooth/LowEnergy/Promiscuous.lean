import Ubertooth.LowEnergy.HopInterval

/-!
# The divisor of the promiscuous pipeline

`promisc_recover_hop_increment` divides by the interval that `promisc_recover_hop_interval` has
settled. `Measured` is the invariant of the whole pipeline: once the interval is settled it is the
one of the smallest gap since `reset_le_promisc`. The interval of a gap below half of
`37 * LE_BASECLK` is 0, and so is that of a gap so large that the rounding leaves the word.
`nonzero_divisor_iff` says that these gaps, and no others, make the divisor 0.
-/

namespace Ubertooth.LowEnergy

open Firmware Foundations

/-! ## The pipeline -/

/-- The firmware in promiscuous mode, with the gaps that `promisc_recover_hop_interval` has measured
in this session. -/
structure Pipeline where
  fw : Fw
  gaps : List U32 := []

/-- A packet, and the channel and the clock it is received at. -/
structure Heard where
  arrival : Arrival
  channel : U16
  packet : Packet

/-- The state in which `packet_cb` is called. -/
def Heard.receivedIn (e : Heard) (s : Fw) : Fw :=
  { s with clkn := e.arrival.clkn, t0tc := e.arrival.t0tc, channel := e.channel }

/-- The gap that a packet ends, if `promisc_recover_hop_interval` takes it for one. -/
def gapMeasured (s : Fw) : List U32 :=
  if s.packetCb = .promiscRecoverHopInterval ∧ ¬recoverCurClk s - s.prevClk < 2 * leBaseclk then
    [recoverCurClk s - s.prevClk]
  else []

def pipelineStep (x : Pipeline) (e : Heard) : Pipeline :=
  { fw := packetCallback e.packet (e.receivedIn x.fw)
    gaps := gapMeasured (e.receivedIn x.fw) ++ x.gaps }

/-- `reset_le` and `reset_le_promisc`, and what `bt_promisc_le` does before it enters
`bt_le_sync`. -/
def pipelineStart (s : Fw) : Pipeline :=
  let s := resetLe (resetLePromisc s)
  { fw := { s with packetCb := .promiscFollow, le := { s.le with crcVerify := false } } }

/-- The packet makes `promisc_recover_hop_increment` evaluate `channels_hopped`. -/
def Divides (x : Pipeline) (e : Heard) : Prop :=
  x.fw.packetCb = .promiscRecoverHopIncrement ∧ e.channel = 2406

/-- The divisor is not 0. -/
def NonzeroDivisor (x : Pipeline) (e : Heard) : Prop :=
  Divides x e → 1 ≤ x.fw.le.connInterval.toNat

/-- Every gap of the session is at least half of `37 * LE_BASECLK`, and some gap is below the word
by more than that. -/
def GapsInRange (x : Pipeline) (e : Heard) : Prop :=
  Divides x e → (∀ g ∈ x.gaps, 231250 ≤ g.toNat) ∧ ∃ g ∈ x.gaps, g.toNat + 231250 < 2 ^ 32

instance (x : Pipeline) (e : Heard) : Decidable (Divides x e) := instDecidableAnd

instance (x : Pipeline) (e : Heard) : Decidable (NonzeroDivisor x e) :=
  inferInstanceAs (Decidable (_ → _))

/-! ## The smallest gap -/

/-- The smallest of the gaps; without a gap, what `reset_le_promisc` sets. -/
def smallestGap (gaps : List U32) : ℕ := (gaps.map BitVec.toNat).foldr min 0xffffffff

@[simp] theorem smallestGap_nil : smallestGap [] = 0xffffffff := rfl

@[simp] theorem smallestGap_cons (g : U32) (gaps : List U32) :
    smallestGap (g :: gaps) = min g.toNat (smallestGap gaps) := rfl

theorem le_smallestGap_iff {gaps : List U32} {n : ℕ} (hn : n ≤ 0xffffffff) :
    n ≤ smallestGap gaps ↔ ∀ g ∈ gaps, n ≤ g.toNat := by
  induction gaps with
  | nil => simp [hn]
  | cons g gaps ih => simp [ih]

theorem smallestGap_lt_iff {gaps : List U32} {n : ℕ} (hn : n ≤ 0xffffffff) :
    smallestGap gaps < n ↔ ∃ g ∈ gaps, g.toNat < n := by
  induction gaps with
  | nil => simp [hn]
  | cons g gaps ih => simp [ih]

/-- The interval observed is 0 for the smallest of gaps, and for those whose rounding leaves the
word. -/
theorem one_le_obsvHopInterval_iff (s : Fw) :
    1 ≤ (obsvHopInterval s).toNat ↔ 231250 ≤ s.lePromisc.smallestHopInterval.toNat ∧
      s.lePromisc.smallestHopInterval.toNat + 231250 < 2 ^ 32 := by
  rcases Nat.lt_or_ge (s.lePromisc.smallestHopInterval.toNat + 231250) (2 ^ 32) with hfit | hfit
  · rw [toNat_obsvHopInterval hfit, intervalOf, Nat.one_le_div_iff (by omega)]
    omega
  · have hlt := s.lePromisc.smallestHopInterval.isLt
    have hhalf : ((37 * leBaseclk) / 2 : U32).toNat = 231250 := rfl
    have hd : (37 * leBaseclk : U32).toNat = 462500 := rfl
    have hzero : (obsvHopInterval s).toNat = 0 := by
      rw [obsvHopInterval, divideRound, BitVec.toNat_setWidth, BitVec.toNat_udiv,
        BitVec.toNat_add, hhalf, hd]
      omega
    omega

/-! ## The invariant -/

/-- The smallest gap is known, and a settled interval is the one of the smallest gap. -/
structure Measured (x : Pipeline) : Prop where
  smallest : x.fw.lePromisc.smallestHopInterval.toNat = smallestGap x.gaps
  settled : x.fw.packetCb = .promiscRecoverHopIncrement →
    x.fw.le.connInterval = obsvHopInterval x.fw

theorem measured_pipelineStart (s : Fw) : Measured (pipelineStart s) :=
  ⟨rfl, fun h => absurd h (by simp [pipelineStart])⟩

/-- What a packet leaves alone if it does not end a gap: the smallest gap, and a settled interval.
-/
structure KeepsMeasure (s s' : Fw) : Prop where
  lePromisc : s'.lePromisc = s.lePromisc
  settled : s'.packetCb = .promiscRecoverHopIncrement →
    s.packetCb = .promiscRecoverHopIncrement ∧ s'.le.connInterval = s.le.connInterval

theorem obsvHopInterval_congr {s s' : Fw}
    (h : s'.lePromisc.smallestHopInterval = s.lePromisc.smallestHopInterval) :
    obsvHopInterval s' = obsvHopInterval s := by
  rw [obsvHopInterval, obsvHopInterval, h]

theorem Measured.of_keeps {x : Pipeline} (hx : Measured x) {s' : Fw} (h : KeepsMeasure x.fw s') :
    Measured { x with fw := s' } := by
  refine ⟨?_, fun hcb => ?_⟩
  · show s'.lePromisc.smallestHopInterval.toNat = smallestGap x.gaps
    rw [h.lePromisc]
    exact hx.smallest
  · obtain ⟨hold, hinterval⟩ := h.settled hcb
    show s'.le.connInterval = obsvHopInterval s'
    rw [hinterval, hx.settled hold, obsvHopInterval_congr (by rw [h.lePromisc])]

/-! ## The callbacks -/

theorem keepsMeasure_connectionFollowCb (p : Packet) {s : Fw} (h : s.packetCb = .connectionFollow) :
    KeepsMeasure s (connectionFollowCb p s) := by
  obtain ⟨l, d, j, heq⟩ := connectionFollowCb_frame p s
  rw [heq]
  exact ⟨rfl, fun hcb => absurd (h.symm.trans hcb) (by simp)⟩

theorem keepsMeasure_promiscFollowCb (p : Packet) {s : Fw} (h : s.packetCb = .promiscFollow) :
    KeepsMeasure s (promiscFollowCb p s) := by
  unfold promiscFollowCb
  split
  · dsimp only [recoverCrcInit]
    refine ⟨lePromiscState_lePromisc _ _ _, fun hcb => ?_⟩
    rw [lePromiscState_packetCb] at hcb
    exact absurd hcb (by simp)
  · exact ⟨rfl, fun hcb => absurd (h.symm.trans hcb) (by simp)⟩

theorem keepsMeasure_promiscRecoverHopIncrement {s : Fw}
    (h : s.packetCb = .promiscRecoverHopIncrement) :
    KeepsMeasure s (promiscRecoverHopIncrement s) := by
  unfold promiscRecoverHopIncrement
  split
  · exact ⟨rfl, fun _ => ⟨h, rfl⟩⟩
  · split
    · split
      case isTrue hk =>
        dsimp only [recoverIncrement]
        refine ⟨lePromiscState_lePromisc _ _ _, fun hcb => ?_⟩
        rw [lePromiscState_packetCb] at hcb
        exact absurd hcb (by simp)
      case isFalse => exact ⟨rfl, fun _ => ⟨h, rfl⟩⟩
    · exact ⟨rfl, fun _ => ⟨h, rfl⟩⟩

/-- Whatever the clock, an observation settles the interval observed, or does not settle any. -/
theorem measured_observeHopInterval {u : Fw} {gaps : List U32}
    (h : u.packetCb = .promiscRecoverHopInterval)
    (hleast : u.lePromisc.smallestHopInterval.toNat = smallestGap gaps) (cur : U32) :
    Measured { fw := { observeHopInterval u with prevClk := cur }, gaps := gaps } := by
  -- stated for any next state: it is the fields that matter, and not the record they are in
  have hnext : ∀ v : Fw, v.lePromisc.smallestHopInterval = u.lePromisc.smallestHopInterval →
      (v.packetCb = .promiscRecoverHopIncrement → v.le.connInterval = obsvHopInterval u) →
      Measured { fw := v, gaps := gaps } := by
    intro v hsmallest hsettled
    exact ⟨(congrArg BitVec.toNat hsmallest).trans hleast,
      fun hcb => (hsettled hcb).trans (obsvHopInterval_congr hsmallest).symm⟩
  obtain ⟨hsame, -, q, st, heq⟩ | ⟨-, -, heq⟩ | ⟨-, heq⟩ := observeHopInterval_cases u
  · rw [heq]
    exact hnext _ rfl fun _ => hsame
  · rw [heq]
    exact hnext _ rfl fun hcb => absurd (h.symm.trans hcb) (by simp)
  · rw [heq]
    exact hnext _ rfl fun _ => rfl

/-- A packet that `promisc_recover_hop_interval` handles is dropped, or ends a gap. -/
theorem measured_promiscRecoverHopInterval {s : Fw} {gaps : List U32}
    (hx : Measured { fw := s, gaps := gaps }) (h : s.packetCb = .promiscRecoverHopInterval) :
    Measured { fw := promiscRecoverHopInterval s, gaps := gapMeasured s ++ gaps } := by
  dsimp only [promiscRecoverHopInterval]
  by_cases hnear : recoverCurClk s - s.prevClk < 2 * leBaseclk
  · rw [if_pos hnear, gapMeasured, if_neg (fun hc => hc.2 hnear)]
    exact hx
  · rw [if_neg hnear, gapMeasured, if_pos ⟨h, hnear⟩]
    obtain ⟨w, hnote, hw⟩ := noteClkDiff_eq (recoverCurClk s - s.prevClk) s
    have hcb : (noteClkDiff (recoverCurClk s - s.prevClk) s).packetCb =
        .promiscRecoverHopInterval := by
      rw [hnote]
      exact h
    have hleast :
        (noteClkDiff (recoverCurClk s - s.prevClk) s).lePromisc.smallestHopInterval.toNat =
        smallestGap ([recoverCurClk s - s.prevClk] ++ gaps) := by
      rw [hnote, List.singleton_append, smallestGap_cons]
      exact hw.trans (congrArg _ hx.smallest)
    exact measured_observeHopInterval hcb hleast (recoverCurClk s)

/-- Only `promisc_recover_hop_interval` measures gaps. -/
theorem gapMeasured_of_ne {s : Fw} (h : s.packetCb ≠ .promiscRecoverHopInterval) :
    gapMeasured s = [] := if_neg fun hc => h hc.1

theorem measured_step {x : Pipeline} (hx : Measured x) (e : Heard) :
    Measured (pipelineStep x e) := by
  have hr : Measured { x with fw := e.receivedIn x.fw } :=
    hx.of_keeps ⟨rfl, fun hcb => ⟨hcb, rfl⟩⟩
  have hkeeps : ∀ s' : Fw, (e.receivedIn x.fw).packetCb ≠ .promiscRecoverHopInterval →
      KeepsMeasure (e.receivedIn x.fw) s' →
      Measured { fw := s', gaps := gapMeasured (e.receivedIn x.fw) ++ x.gaps } := by
    intro s' hne h
    rw [gapMeasured_of_ne hne]
    exact hr.of_keeps h
  unfold pipelineStep packetCallback
  split
  case h_1 hcb =>
    exact hkeeps _ (by rw [hcb]; decide) ⟨rfl, fun h => ⟨h, rfl⟩⟩
  case h_2 hcb => exact hkeeps _ (by rw [hcb]; decide) (keepsMeasure_connectionFollowCb _ hcb)
  case h_3 hcb => exact hkeeps _ (by rw [hcb]; decide) (keepsMeasure_promiscFollowCb _ hcb)
  case h_4 hcb => exact measured_promiscRecoverHopInterval hr hcb
  case h_5 hcb => exact hkeeps _ (by rw [hcb]; decide) (keepsMeasure_promiscRecoverHopIncrement hcb)

/-! ## The divisor -/

theorem nonzeroDivisor_iff {x : Pipeline} (hx : Measured x) (e : Heard) :
    NonzeroDivisor x e ↔ GapsInRange x e := by
  refine forall_congr' fun hd => ?_
  rw [hx.settled hd.1, one_le_obsvHopInterval_iff, hx.smallest]
  refine and_congr (le_smallestGap_iff (by omega)) ?_
  rw [show smallestGap x.gaps + 231250 < 2 ^ 32 ↔ smallestGap x.gaps < 2 ^ 32 - 231250 by omega,
    smallestGap_lt_iff (by omega)]
  refine exists_congr fun g => and_congr_right fun _ => ?_
  omega

/-- **The divisor.** Over any packets at any clock times from `reset_le` and `reset_le_promisc` on,
the pipeline never divides by 0 exactly if at every division all gaps of the session are at least
half of `37 * LE_BASECLK`, and one of them is below the word by more than that. -/
theorem nonzero_divisor_iff (s : Fw) (es : List Heard) :
    Along pipelineStep NonzeroDivisor (pipelineStart s) es ↔
      Along pipelineStep GapsInRange (pipelineStart s) es :=
  along_iff_of_invariant (fun _ e hx => measured_step hx e) (fun _ e hx => nonzeroDivisor_iff hx e)
    (measured_pipelineStart s)

/-- An empty data packet, five gaps of 10 ms, and a packet on data channel 1. -/
def packetsEveryTenMs : List Heard :=
  ⟨arrivalAt 0, 2404, packetOf [(4, 0x01)]⟩ ::
    ((List.range 5).map fun i => ⟨arrivalAt ((i + 1) * 100000), 2404, emptyPacket⟩) ++
      [⟨arrivalAt 600000, 2406, emptyPacket⟩]

theorem not_nonzeroDivisor_every_ten_ms :
    ¬Along pipelineStep NonzeroDivisor (pipelineStart powerOn) packetsEveryTenMs := by
  decide +kernel

end Ubertooth.LowEnergy
