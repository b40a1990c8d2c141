import Ubertooth.Foundations.Runs
import Ubertooth.LowEnergy.HopIncrement

/-!
# Recovering the hop interval

On one data channel a connection is heard once in every 37 intervals, so the smallest time between
two packets tells the interval. `Recovery.packet` is that measurement over the packets of one
session, each gap from one packet to the next. `promisc_recover_hop_interval` measures from the
packet in `prev_clk`, which is not always the packet before and outlives the session
(`Recovery.packetKept`): as long as the clock does not wrap, this is what the firmware does
(`tracks_run`). `session_measured_alone` says which beginnings leave no trace once the session has
had a gap of its own, and which later packets make no difference.
-/

namespace Ubertooth.LowEnergy

open Firmware Foundations

/-! ## The measurement -/

/-- `2 * LE_BASECLK`: packets closer together are of the same connection event. -/
def shortestGap : ℕ := 25000

/-- The number of intervals of which 37 fill the gap best. -/
def intervalOf (gap : ℕ) : ℕ := (gap + 231250) / 462500

theorem intervalOf_mono : Monotone intervalOf := fun _ _ h =>
  Nat.div_le_div_right (Nat.add_le_add_right h _)

/-- What the packets of a session have shown. -/
structure Recovery where
  /-- the packet the next gap begins with -/
  since : Option ℕ := none
  /-- the smallest gap -/
  smallest : Option ℕ := none
  interval : ℕ := 0
  /-- how often the interval has been confirmed -/
  confirmed : ℕ := 0
  movedOn : Bool := false
  deriving DecidableEq

namespace Recovery

/-- A gap ends at time `t`: five gaps that confirm the interval settle it. -/
def gapEnds (x : Recovery) (gap t : ℕ) : Recovery :=
  let least := x.smallest.elim gap (min gap)
  if x.interval = intervalOf least then
    { since := some t
      smallest := some least
      interval := x.interval
      confirmed := x.confirmed + 1
      movedOn := decide (x.confirmed + 1 = 5) }
  else { since := some t, smallest := some least, interval := intervalOf least }

/-- A packet comes at time `t`. -/
def packet (x : Recovery) (t : ℕ) : Recovery :=
  match x.since with
  | none => { x with since := some t }
  | some l =>
    if x.movedOn ∨ t - l < shortestGap then { x with since := some t } else x.gapEnds (t - l) t

/-- A packet comes at time `t`, and the next gap begins with it only if one ends with it. -/
def packetKept (x : Recovery) (t : ℕ) : Recovery :=
  match x.since with
  | none => { x with since := some t }
  | some k => if x.movedOn ∨ t - k < shortestGap then x else x.gapEnds (t - k) t

variable {x y : Recovery} {k l m g t B : ℕ}

theorem packet_of_none (h : x.since = none) (t : ℕ) : x.packet t = { x with since := some t } := by
  unfold packet
  rw [h]

theorem packet_of_near (hl : x.since = some l) (h : t - l < shortestGap) :
    x.packet t = { x with since := some t } := by
  simp only [packet, hl, h, or_true, if_true]

theorem packet_of_movedOn (h : x.movedOn = true) (t : ℕ) :
    x.packet t = { x with since := some t } := by
  unfold packet
  cases x.since with
  | none => rfl
  | some l => simp only [h, true_or, if_true]

theorem packet_of_gap (hl : x.since = some l) (hm : x.movedOn = false) (h : ¬t - l < shortestGap) :
    x.packet t = x.gapEnds (t - l) t := by
  simp only [packet, hl, hm, h, Bool.false_eq_true, or_self, if_false]

theorem packetKept_of_movedOn (hk : x.since = some k) (h : x.movedOn = true) (t : ℕ) :
    x.packetKept t = x := by
  simp only [packetKept, hk, h, true_or, if_true]

theorem packetKept_of_near (hk : x.since = some k) (h : t - k < shortestGap) :
    x.packetKept t = x := by
  simp only [packetKept, hk, h, or_true, if_true]

theorem packetKept_of_gap (hk : x.since = some k) (hm : x.movedOn = false)
    (h : ¬t - k < shortestGap) : x.packetKept t = x.gapEnds (t - k) t := by
  simp only [packetKept, hk, hm, h, Bool.false_eq_true, or_self, if_false]

@[simp] theorem gapEnds_since : (x.gapEnds g t).since = some t := by
  unfold gapEnds
  dsimp only
  split <;> rfl

@[simp] theorem gapEnds_smallest :
    (x.gapEnds g t).smallest = some (x.smallest.elim g (min g)) := by
  unfold gapEnds
  dsimp only
  split <;> rfl

@[simp] theorem gapEnds_interval :
    (x.gapEnds g t).interval = intervalOf (x.smallest.elim g (min g)) := by
  unfold gapEnds
  dsimp only
  split
  case isTrue h => exact h
  case isFalse => rfl

/-- The next gap begins with the packet just come. -/
theorem packet_since (x : Recovery) (t : ℕ) : (x.packet t).since = some t := by
  unfold packet
  split
  · rfl
  · split
    · rfl
    · exact gapEnds_since

/-- The packet kept is the last one or the one before. -/
theorem packetKept_since (x : Recovery) (t : ℕ) :
    (x.packetKept t).since = x.since ∨ (x.packetKept t).since = some t := by
  unfold packetKept
  split
  · exact Or.inr rfl
  · split
    · exact Or.inl rfl
    · exact Or.inr gapEnds_since

/-- Packets of one connection event, each near to the one before, show nothing. -/
theorem run_packet_of_near (hl : x.since = some l) {ts : List ℕ}
    (hsorted : (l :: ts).Pairwise (· ≤ ·)) (h : ∀ t ∈ ts, t - l < shortestGap) :
    run packet x ts = { x with since := some (ts.getLastD l) } := by
  induction ts generalizing x l with
  | nil => simp [← hl]
  | cons t ts ih =>
    obtain ⟨hle, htail⟩ := List.pairwise_cons.1 hsorted
    have ht : l ≤ t := hle t List.mem_cons_self
    rw [run_cons, packet_of_near hl (h t List.mem_cons_self), ih rfl htail, List.getLastD_cons]
    intro u hu
    have := h u (List.mem_cons_of_mem t hu)
    omega

/-- Packets near to the one kept show nothing. -/
theorem run_packetKept_of_near (hk : x.since = some k) {ts : List ℕ}
    (h : ∀ t ∈ ts, t - k < shortestGap) : run packetKept x ts = x := by
  induction ts with
  | nil => rfl
  | cons t ts ih =>
    rw [run_cons, packetKept_of_near hk (h t List.mem_cons_self)]
    exact ih fun u hu => h u (List.mem_cons_of_mem t hu)

/-! ### What is measured -/

/-- The gaps of a list of packets, each from one packet to the next. -/
def gaps (ts : List ℕ) : List ℕ := List.zipWith (fun l t => t - l) ts ts.tail

theorem gaps_concat (ts : List ℕ) (l t : ℕ) :
    gaps (ts ++ [l] ++ [t]) = gaps (ts ++ [l]) ++ [t - l] := by
  induction ts with
  | nil => rfl
  | cons u ts ih =>
    cases ts with
    | nil => rfl
    | cons v ts => simpa [gaps] using ih

/-- The smallest of the gaps that are not within a connection event. -/
def smallestGap (ts : List ℕ) : Option ℕ := ((gaps ts).filter (shortestGap ≤ ·)).min?

theorem smallestGap_concat (ts : List ℕ) (l t : ℕ) :
    smallestGap (ts ++ [l] ++ [t]) = if t - l < shortestGap then smallestGap (ts ++ [l])
      else some ((smallestGap (ts ++ [l])).elim (t - l) (min (t - l))) := by
  rw [smallestGap, gaps_concat, List.filter_append, smallestGap]
  by_cases h : t - l < shortestGap
  · rw [if_pos h, List.filter_cons_of_neg (by simpa using h), List.filter_nil, List.append_nil]
  · rw [if_neg h, List.filter_cons_of_pos (by simpa using h), List.filter_nil]
    cases (gaps (ts ++ [l])).filter (shortestGap ≤ ·) with
    | nil => rfl
    | cons a as =>
      simp only [List.cons_append, List.min?_cons', List.foldl_append, List.foldl_cons,
        List.foldl_nil, Option.elim_some, min_comm]

/-- Until the interval is settled, it is the one of the smallest gap. -/
theorem run_packet_smallest {ts : List ℕ} (h : (run packet {} ts).movedOn = false) :
    (run packet {} ts).since = ts.getLast? ∧ (run packet {} ts).smallest = smallestGap ts ∧
      (run packet {} ts).interval = (smallestGap ts).elim 0 intervalOf := by
  induction ts using List.reverseRecOn with
  | nil => exact ⟨rfl, rfl, rfl⟩
  | append_singleton ts t ih =>
    rw [run_concat] at h ⊢
    set x := run packet {} ts
    have hm : x.movedOn = false := by
      by_contra hmoved
      rw [packet_of_movedOn (by simpa using hmoved)] at h
      exact hmoved h
    obtain ⟨hsince, hsmall, hinterval⟩ := ih hm
    refine ⟨by simp [packet_since], ?_⟩
    rcases List.eq_nil_or_concat ts with rfl | ⟨us, l, rfl⟩
    · exact ⟨rfl, rfl⟩
    · rw [List.concat_eq_append] at hsince hsmall hinterval ⊢
      have hl : x.since = some l := by rw [hsince, List.getLast?_concat]
      rw [smallestGap_concat]
      by_cases hnear : t - l < shortestGap
      · rw [packet_of_near hl hnear, if_pos hnear]
        exact ⟨hsmall, hinterval⟩
      · rw [packet_of_gap hl hm hnear, if_neg hnear, gapEnds_smallest, gapEnds_interval, hsmall,
          Option.elim_some]
        exact ⟨rfl, rfl⟩

/-! ### Measurements that go on alike -/

/-- The two have shown the same, and their smallest gaps are of the same interval. -/
structure Alike (x y : Recovery) : Prop where
  interval : x.interval = y.interval
  confirmed : x.confirmed = y.confirmed
  movedOn : x.movedOn = y.movedOn
  smallest : x.smallest.map intervalOf = y.smallest.map intervalOf

/-- The interval of the smallest gap, once another has come. -/
theorem intervalOf_least (s : Option ℕ) (g : ℕ) :
    intervalOf (s.elim g (min g)) =
      (s.map intervalOf).elim (intervalOf g) (min (intervalOf g)) := by
  cases s with
  | none => rw [Option.elim_none, Option.map_none, Option.elim_none]
  | some m =>
    rw [Option.elim_some, Option.map_some, Option.elim_some]
    exact intervalOf_mono.map_min

/-- Two gaps that make the same interval of the smallest go on alike. -/
theorem Alike.gapEnds {g' : ℕ} (h : Alike x y)
    (hg : intervalOf (x.smallest.elim g (min g)) = intervalOf (x.smallest.elim g' (min g'))) :
    Alike (x.gapEnds g t) (y.gapEnds g' t) := by
  have hleast : intervalOf (x.smallest.elim g (min g)) = intervalOf (y.smallest.elim g' (min g')) :=
    by rw [hg, intervalOf_least, intervalOf_least, h.smallest]
  have hsmallest : (some (x.smallest.elim g (min g))).map intervalOf =
      (some (y.smallest.elim g' (min g'))).map intervalOf := congrArg some hleast
  simp only [Recovery.gapEnds, h.interval, h.confirmed, hleast]
  split
  · exact ⟨rfl, rfl, rfl, hsmallest⟩
  · exact ⟨rfl, rfl, rfl, hsmallest⟩

/-- A packet at time `t` makes no difference, if the smallest gap is `m`, the packet kept came at
`k` and the one before at `l`: it ends no gap, or one of the same interval. -/
def SameGap (m k l t : ℕ) : Prop :=
  t - k < shortestGap ∨
    shortestGap ≤ t - l ∧ intervalOf (min (t - k) m) = intervalOf (min (t - l) m)

instance : Decidable (SameGap m k l t) := inferInstanceAs (Decidable (_ ∨ _))

theorem Alike.packet (h : Alike x y) (hx : x.since = some k) (hy : y.since = some l) (hkl : k ≤ l)
    (hm : x.smallest = some m) (hsame : x.movedOn = true ∨ SameGap m k l t) :
    Alike (x.packetKept t) (y.packet t) := by
  cases hmoved : x.movedOn with
  | true =>
    rw [packetKept_of_movedOn hx hmoved, packet_of_movedOn (h.movedOn ▸ hmoved)]
    exact ⟨h.interval, h.confirmed, h.movedOn, h.smallest⟩
  | false =>
    obtain hnear | ⟨hfar, hgap⟩ := hsame.resolve_left (by simp [hmoved])
    · rw [packetKept_of_near hx hnear, packet_of_near hy (by omega)]
      exact ⟨h.interval, h.confirmed, h.movedOn, h.smallest⟩
    · rw [packetKept_of_gap hx hmoved (by omega),
        packet_of_gap hy (h.movedOn ▸ hmoved) (Nat.not_lt.2 hfar)]
      refine h.gapEnds ?_
      rwa [hm, Option.elim_some, Option.elim_some]

/-! ### Measurements that come apart -/

/-- The times `t + g`, `t + 2 * g`, …, `t + n * g`. -/
def spaced (t g n : ℕ) : List ℕ := (List.range n).map fun i => t + (i + 1) * g

theorem spaced_succ (t g n : ℕ) : spaced t g (n + 1) = spaced t g n ++ [t + (n + 1) * g] := by
  simp [spaced, List.range_succ]

theorem mem_spaced {u n : ℕ} (h : u ∈ spaced t g n) : t ≤ u ∧ u ≤ t + n * g := by
  obtain ⟨i, hi, rfl⟩ := List.mem_map.1 h
  have hmul : (i + 1) * g ≤ n * g := Nat.mul_le_mul_right g (List.mem_range.1 hi)
  exact ⟨Nat.le_add_right _ _, Nat.add_le_add_left hmul t⟩

theorem pairwise_spaced (t g n : ℕ) : (spaced t g n).Pairwise (· ≤ ·) := by
  induction n with
  | zero => exact List.Pairwise.nil
  | succ n ih =>
    rw [spaced_succ, List.pairwise_append]
    refine ⟨ih, List.pairwise_singleton _ _, fun u hu v hv => ?_⟩
    obtain rfl := List.mem_singleton.1 hv
    have := (mem_spaced hu).2
    rw [Nat.succ_mul]
    omega

/-- A gap has been measured, of at most `B`, and the interval is the one of the smallest. -/
structure Measuring (B : ℕ) (x : Recovery) : Prop where
  smallest : ∃ m ≤ B, x.smallest = some m ∧ x.interval = intervalOf m
  confirmed : x.confirmed ≤ 5
  movedOn : x.movedOn = decide (x.confirmed = 5)

theorem Measuring.lt_five (h : Measuring B x) (hm : x.movedOn = false) : x.confirmed < 5 :=
  lt_of_le_of_ne h.confirmed (of_decide_eq_false (h.movedOn ▸ hm))

theorem Measuring.gapEnds (h : Measuring B x) (hm : x.movedOn = false) (g t : ℕ) :
    Measuring B (x.gapEnds g t) := by
  obtain ⟨m, hle, hsmall, -⟩ := h.smallest
  refine ⟨⟨min g m, (min_le_right g m).trans hle, ?_, ?_⟩, ?_, ?_⟩
  · rw [gapEnds_smallest, hsmall, Option.elim_some]
  · rw [gapEnds_interval, hsmall, Option.elim_some]
  · have hlt := h.lt_five hm
    unfold Recovery.gapEnds
    dsimp only
    split
    · exact hlt
    · exact Nat.zero_le 5
  · unfold Recovery.gapEnds
    dsimp only
    split <;> rfl

theorem Measuring.packet (h : Measuring B x) (t : ℕ) : Measuring B (x.packet t) := by
  unfold Recovery.packet
  split
  · exact ⟨h.smallest, h.confirmed, h.movedOn⟩
  · split
    · exact ⟨h.smallest, h.confirmed, h.movedOn⟩
    case isFalse hfar => exact h.gapEnds (by simpa using (not_or.1 hfar).1) _ t

theorem Measuring.packetKept (h : Measuring B x) (t : ℕ) : Measuring B (x.packetKept t) := by
  unfold Recovery.packetKept
  split
  · exact ⟨h.smallest, h.confirmed, h.movedOn⟩
  · split
    · exact h
    case isFalse hfar => exact h.gapEnds (by simpa using (not_or.1 hfar).1) _ t

/-- Gaps no smaller than the smallest confirm the interval, however they are measured. -/
theorem run_spaced {f : Recovery → ℕ → Recovery}
    (hf : ∀ x k t, x.since = some k → x.movedOn = false → ¬t - k < shortestGap →
      f x t = x.gapEnds (t - k) t)
    (h : Measuring B x) (hm : x.movedOn = false) (ht : x.since = some t) (hg : shortestGap ≤ g)
    (hB : B ≤ g) {n : ℕ} (hn : x.confirmed + n ≤ 5) :
    run f x (spaced t g n) = { x with
      since := some (t + n * g)
      confirmed := x.confirmed + n
      movedOn := decide (x.confirmed + n = 5) } := by
  induction n with
  | zero =>
    have hne : ¬x.confirmed = 5 := (h.lt_five hm).ne
    simp [spaced, ← ht, ← hm, hne]
  | succ n ih =>
    obtain ⟨m, hle, hsmall, hinterval⟩ := h.smallest
    have hne : ¬x.confirmed + n = 5 := by omega
    have hdiff : t + (n + 1) * g - (t + n * g) = g := by
      rw [Nat.succ_mul]
      omega
    rw [spaced_succ, run_concat, ih (by omega),
      hf _ _ _ rfl (decide_eq_false hne) (by rw [hdiff]; exact Nat.not_lt.2 hg), hdiff]
    simp only [Recovery.gapEnds, hsmall, Option.elim_some, min_eq_right (hle.trans hB), hinterval,
      if_true, Nat.add_assoc]

/-- The two show different intervals, or have decided differently. -/
def Differ (x y : Recovery) : Prop := ¬(x.interval = y.interval ∧ x.movedOn = y.movedOn)

/-- Where the intervals are different, or confirmed another number of times, the two show it at
once or after five packets at most. -/
theorem exists_differ (hx : Measuring B x) (hy : Measuring B y) (hxs : x.since = some t)
    (hys : y.since = some t) (hg : shortestGap ≤ g) (hB : B ≤ g)
    (hne : x.interval ≠ y.interval ∨ x.confirmed ≠ y.confirmed) :
    ∃ n ≤ 5, Differ (run packetKept x (spaced t g n)) (run packet y (spaced t g n)) := by
  by_cases hnow : Differ x y
  · exact ⟨0, Nat.zero_le 5, hnow⟩
  · obtain ⟨hinterval, hmoved⟩ := not_not.1 hnow
    have hconfirmed := hne.resolve_left (not_not.2 hinterval)
    have hm : x.movedOn = false := by
      cases hm : x.movedOn with
      | false => rfl
      | true =>
        have hx5 : x.confirmed = 5 := of_decide_eq_true (hx.movedOn ▸ hm)
        have hy5 : y.confirmed = 5 := of_decide_eq_true (hy.movedOn ▸ hmoved ▸ hm)
        exact absurd (hx5.trans hy5.symm) hconfirmed
    have hxc := hx.lt_five hm
    have hyc := hy.lt_five (hmoved ▸ hm)
    refine ⟨5 - max x.confirmed y.confirmed, Nat.sub_le _ _, fun hsame => ?_⟩
    rw [run_spaced (fun _ _ _ => packetKept_of_gap) hx hm hxs hg hB (by omega),
      run_spaced (fun _ _ _ => packet_of_gap) hy (hmoved ▸ hm) hys hg hB (by omega)] at hsame
    have hdecide := hsame.2
    rw [decide_eq_decide] at hdecide
    omega

/-- A packet that makes a difference shows it at once, or after five more at most. -/
theorem Alike.exists_differ (h : Alike x y) (hxm : Measuring B x) (hym : Measuring B y)
    (hx : x.since = some k) (hy : y.since = some l) (hm : x.smallest = some m)
    (hmoved : x.movedOn = false) (hsame : ¬SameGap m k l t) (hg : shortestGap ≤ g) (hB : B ≤ g) :
    ∃ n ≤ 5, Differ (run packetKept (x.packetKept t) (spaced t g n))
      (run Recovery.packet (y.packet t) (spaced t g n)) := by
  obtain ⟨hfar, hgap⟩ := not_or.1 hsame
  have hkept := packetKept_of_gap hx hmoved hfar
  refine Recovery.exists_differ (hxm.packetKept t) (hym.packet t) ?_ (packet_since y t) hg hB ?_
  · rw [hkept, gapEnds_since]
  · rw [hkept]
    by_cases hnear : t - l < shortestGap
    · rw [packet_of_near hy hnear, gapEnds_interval, hm, Option.elim_some]
      by_cases hi : x.interval = intervalOf (min (t - k) m)
      · right
        simp [Recovery.gapEnds, hm, hi, h.confirmed]
      · exact Or.inl fun heq => hi (h.interval.trans heq.symm)
    · left
      rw [packet_of_gap hy (h.movedOn ▸ hmoved) hnear, gapEnds_interval, gapEnds_interval,
        intervalOf_least y.smallest, ← h.smallest, ← intervalOf_least, hm]
      exact fun heq => hgap ⟨Nat.not_lt.1 hnear, heq⟩

end Recovery

/-! ## A measurement that begins before the session -/

/-- Before the first packet, with a packet of before the session at `p` and an interval of before.
-/
def staleRecovery (p interval : ℕ) : Recovery := { since := some p, interval := interval }

/-- A stale gap leaves no trace once the first gap of the session has come: that gap is `own`, and
`gap` where the firmware measures it, which is of the same interval and smaller than the stale one,
by an interval at least, and not taken for 0; or both are, and the interval of before was not. -/
def HarmlessStart (interval stale gap own : ℕ) : Prop :=
  1 ≤ intervalOf own ∧ intervalOf gap = intervalOf own ∧ intervalOf gap < intervalOf stale ∨
    intervalOf stale = 0 ∧ intervalOf own = 0 ∧ interval ≠ 0

instance (interval stale gap own : ℕ) : Decidable (HarmlessStart interval stale gap own) :=
  inferInstanceAs (Decidable (_ ∨ _))

section Beginning

open Recovery

variable {p interval first next : ℕ} {near : List ℕ}

theorem le_getLastD (hsorted : (first :: near).Pairwise (· ≤ ·)) : first ≤ near.getLastD first := by
  cases near with
  | nil => exact le_rfl
  | cons a as =>
    rw [List.getLastD_cons, ← List.getLast_eq_getLastD (List.cons_ne_nil a as)]
    exact (List.pairwise_cons.1 hsorted).1 _ (List.getLast_mem _)

/-- The session's own measurement, after its first gap. -/
theorem run_own (hsorted : (first :: near).Pairwise (· ≤ ·))
    (hnear : ∀ t ∈ near, t - first < shortestGap)
    (hgap : near.getLastD first + shortestGap ≤ next) :
    run packet {} (first :: near ++ [next]) =
      { since := some next
        smallest := some (next - near.getLastD first)
        interval := intervalOf (next - near.getLastD first)
        confirmed := if intervalOf (next - near.getLastD first) = 0 then 1 else 0 } := by
  have hfar : ¬next - near.getLastD first < shortestGap := by omega
  rw [List.cons_append, run_cons, packet_of_none rfl, run_append,
    run_packet_of_near rfl hsorted hnear, run_cons, run_nil, packet_of_gap rfl rfl hfar, gapEnds]
  generalize next - near.getLastD first = own
  by_cases h : intervalOf own = 0
  · simp [h]
  · simp [h, Ne.symm h]

/-- The measurement that begins with a stale gap, after the session's first. -/
theorem run_stale (hstale : p + shortestGap ≤ first)
    (hnear : ∀ t ∈ near, t - first < shortestGap) (hgap : first + shortestGap ≤ next) :
    run packetKept (staleRecovery p interval) (first :: near ++ [next]) =
      { since := some next
        smallest := some (min (next - first) (first - p))
        interval := intervalOf (min (next - first) (first - p))
        confirmed :=
          if intervalOf (first - p) = intervalOf (min (next - first) (first - p)) then
            (if interval = intervalOf (first - p) then 1 else 0) + 1
          else 0 } := by
  have hfirst : ¬first - p < shortestGap := by omega
  have hfar : ¬next - first < shortestGap := by omega
  have hone : packetKept (staleRecovery p interval) first =
      { since := some first
        smallest := some (first - p)
        interval := intervalOf (first - p)
        confirmed := if interval = intervalOf (first - p) then 1 else 0 } := by
    rw [packetKept_of_gap rfl rfl hfirst, gapEnds]
    by_cases h : interval = intervalOf (first - p) <;> simp [staleRecovery, h]
  rw [List.cons_append, run_cons, hone, run_append, run_packetKept_of_near rfl hnear, run_cons,
    run_nil, packetKept_of_gap rfl rfl hfar, gapEnds]
  by_cases h : intervalOf (first - p) = intervalOf (min (next - first) (first - p))
  · by_cases hi : interval = intervalOf (first - p) <;> simp [← h, hi]
  · simp [h]

section FirstGap

variable (hsorted : (first :: near).Pairwise (· ≤ ·)) (hstale : p + shortestGap ≤ first)
  (hnear : ∀ t ∈ near, t - first < shortestGap) (hgap : near.getLastD first + shortestGap ≤ next)
include hsorted hstale hnear hgap

theorem measuring_own : Measuring (next - p) (run packet {} (first :: near ++ [next])) := by
  have hle := le_getLastD hsorted
  rw [run_own hsorted hnear hgap]
  exact ⟨⟨_, by omega, rfl, rfl⟩, by dsimp only; split_ifs <;> omega,
    by dsimp only; split_ifs <;> rfl⟩

theorem measuring_stale :
    Measuring (next - p) (run packetKept (staleRecovery p interval) (first :: near ++ [next])) := by
  have hle := le_getLastD hsorted
  rw [run_stale hstale hnear (by omega)]
  exact ⟨⟨_, (min_le_right _ _).trans (by omega), rfl, rfl⟩, by dsimp only; split_ifs <;> omega,
    by dsimp only; split_ifs <;> rfl⟩

/-- A harmless beginning goes on like the session's own. -/
theorem alike_of_harmlessStart
    (h : HarmlessStart interval (first - p) (next - first) (next - near.getLastD first)) :
    Alike (run packetKept (staleRecovery p interval) (first :: near ++ [next]))
      (run packet {} (first :: near ++ [next])) := by
  have hle := le_getLastD hsorted
  rw [run_own hsorted hnear hgap, run_stale hstale hnear (by omega)]
  obtain ⟨hpos, hown, hlt⟩ | ⟨hs, hg, hi⟩ := h
  · have hmin : min (next - first) (first - p) = next - first := by
      refine min_eq_left (Nat.le_of_not_lt fun hlt' => ?_)
      exact absurd (intervalOf_mono hlt'.le) (Nat.not_le.2 hlt)
    have h0 : ¬intervalOf (next - near.getLastD first) = 0 := by omega
    simp only [hmin, if_neg hlt.ne', if_neg h0]
    exact ⟨hown, rfl, rfl, congrArg some hown⟩
  · have hmin : intervalOf (min (next - first) (first - p)) = 0 :=
      Nat.le_zero.1 (hs ▸ intervalOf_mono (min_le_right _ _))
    have hne : ¬interval = intervalOf (first - p) := hs ▸ hi
    simp only [hmin, hs, hg, if_neg (hs ▸ hne), if_true]
    exact ⟨rfl, rfl, rfl, congrArg some (hmin.trans hg.symm)⟩

/-- Any other beginning comes apart from the session's own at the first gap, or within five packets
after it. -/
theorem differ_of_not_harmlessStart
    (h : ¬HarmlessStart interval (first - p) (next - first) (next - near.getLastD first)) :
    ∃ n ≤ 5, Differ
      (run packetKept (staleRecovery p interval)
        (first :: near ++ [next] ++ spaced next (next - p) n))
      (run packet {} (first :: near ++ [next] ++ spaced next (next - p) n)) := by
  have hle := le_getLastD hsorted
  have hx : Measuring (next - p)
      (run packetKept (staleRecovery p interval) (first :: near ++ [next])) :=
    measuring_stale hsorted hstale hnear hgap
  have hy := measuring_own hsorted hstale hnear hgap
  have hg : shortestGap ≤ next - p := by omega
  simp only [run_append _ _ (first :: near ++ [next])]
  refine Recovery.exists_differ hx hy ?_ ?_ hg le_rfl ?_
  · rw [run_stale hstale hnear (by omega)]
  · rw [run_own hsorted hnear hgap]
  · rw [run_own hsorted hnear hgap, run_stale hstale hnear (by omega)]
    dsimp only
    rw [intervalOf_mono.map_min]
    rw [HarmlessStart] at h
    by_cases hmin : min (intervalOf (next - first)) (intervalOf (first - p)) =
        intervalOf (next - near.getLastD first)
    · right
      rw [hmin]
      rcases Nat.le_total (intervalOf (next - first)) (intervalOf (first - p)) with hc | hc
      · rw [min_eq_left hc] at hmin
        split_ifs <;> omega
      · rw [min_eq_right hc] at hmin
        split_ifs <;> omega
    · exact Or.inl hmin

end FirstGap

end Beginning

/-! ## The firmware makes the measurement -/

/-- The clock at which a packet arrives on the channel. -/
structure Arrival where
  clkn : U32
  t0tc : U32

/-- `CLK100NS` -/
def Arrival.time (a : Arrival) : ℕ := (3125 * (a.clkn &&& 0xfffff) + a.t0tc).toNat

/-- A packet, as long as `promisc_recover_hop_interval` waits for it. -/
def intervalStep (s : Fw) (a : Arrival) : Fw :=
  let s := { s with clkn := a.clkn, t0tc := a.t0tc }
  if s.packetCb = .promiscRecoverHopInterval then promiscRecoverHopInterval s else s

/-- The firmware has made the measurement `x`. -/
structure Tracks (s : Fw) (x : Recovery) : Prop where
  since : x.since = some s.prevClk.toNat
  smallest : s.lePromisc.smallestHopInterval.toNat = x.smallest.getD 0xffffffff
  interval : s.le.connInterval.toNat = x.interval
  confirmed : s.lePromisc.consecIntervals = x.confirmed
  packetCb : s.packetCb =
    if x.movedOn then .promiscRecoverHopIncrement else .promiscRecoverHopInterval

/-- The interval observed is the one of the smallest gap. -/
theorem toNat_obsvHopInterval {s : Fw}
    (h : s.lePromisc.smallestHopInterval.toNat + 231250 < 2 ^ 32) :
    (obsvHopInterval s).toNat = intervalOf s.lePromisc.smallestHopInterval.toNat := by
  have hd : (37 * leBaseclk : U32).toNat = 462500 := rfl
  have hlt : intervalOf s.lePromisc.smallestHopInterval.toNat < 2 ^ 16 :=
    (Nat.div_lt_iff_lt_mul (by omega)).2 (h.trans (by omega))
  rw [obsvHopInterval, BitVec.toNat_setWidth,
    toNat_divideRound (q := intervalOf s.lePromisc.smallestHopInterval.toNat) _ _ _]
  · exact Nat.mod_eq_of_lt hlt
  · rw [hd]
    exact h
  · rw [hd]
    exact Nat.div_mul_le_self _ _
  · rw [hd, Nat.mul_comm]
    exact Nat.lt_mul_div_succ _ (by omega)

/-- A gap ends: the firmware sees what the measurement sees. -/
theorem tracks_gapEnds {s : Fw} {x : Recovery} (h : Tracks s x) (hmoved : x.movedOn = false)
    {clkDiff cur : U32} (hfit : clkDiff.toNat < 3276800000) :
    Tracks { observeHopInterval (noteClkDiff clkDiff s) with prevClk := cur }
      (x.gapEnds clkDiff.toNat cur.toNat) := by
  obtain ⟨w, hnote, hw⟩ := noteClkDiff_eq clkDiff s
  have hleast : w.toNat = x.smallest.elim clkDiff.toNat (min clkDiff.toNat) := by
    rw [hw, h.smallest]
    cases x.smallest with
    | none => exact min_eq_left (by simp; omega)
    | some m => rfl
  have hwlt : w.toNat + 231250 < 2 ^ 32 := by
    have := min_le_left clkDiff.toNat s.lePromisc.smallestHopInterval.toNat
    omega
  have hcb : s.packetCb = .promiscRecoverHopInterval := by rw [h.packetCb, hmoved]; rfl
  set u : Fw := { s with lePromisc := { s.lePromisc with smallestHopInterval := w } } with hu
  have hobs : (obsvHopInterval u).toNat = intervalOf w.toNat := toNat_obsvHopInterval hwlt
  have hiff : s.le.connInterval = obsvHopInterval u ↔ x.interval = intervalOf w.toNat := by
    rw [← BitVec.toNat_inj, hobs, h.interval]
  have hcount : s.lePromisc.consecIntervals + 1 = ((x.confirmed + 1 : ℕ) : ℤ) := by
    rw [h.confirmed]
    rfl
  rw [hnote]
  dsimp only [Recovery.gapEnds]
  rw [← hleast]
  obtain ⟨hsame, hfive, q, st, heq⟩ | ⟨hsame, hfive, heq⟩ | ⟨hnew, heq⟩ :=
    observeHopInterval_cases u
  · have hc : x.confirmed + 1 = 5 := by
      have hc' : s.lePromisc.consecIntervals + 1 = 5 := hfive
      omega
    rw [heq, if_pos (hiff.1 hsame)]
    exact ⟨rfl, rfl, h.interval, hcount, by simp [hc]⟩
  · have hc : ¬x.confirmed + 1 = 5 := by
      have hc' : s.lePromisc.consecIntervals + 1 ≠ 5 := hfive
      omega
    rw [heq, if_pos (hiff.1 hsame)]
    exact ⟨rfl, rfl, h.interval, hcount, by simp [hc, hu, hcb]⟩
  · rw [heq, if_neg (mt hiff.2 hnew)]
    exact ⟨rfl, rfl, hobs, rfl, hcb⟩

/-- Without a wrap, the firmware takes a packet as the measurement does. -/
theorem tracks_step {s : Fw} {x : Recovery} (h : Tracks s x) {a : Arrival}
    (hle : s.prevClk.toNat ≤ a.time) (hlt : a.time < 3276800000) :
    Tracks (intervalStep s a) (x.packetKept a.time) := by
  have hu : Tracks { s with clkn := a.clkn, t0tc := a.t0tc } x :=
    ⟨h.since, h.smallest, h.interval, h.confirmed, h.packetCb⟩
  cases hmoved : x.movedOn with
  | true =>
    have hcb : s.packetCb = .promiscRecoverHopIncrement := by rw [h.packetCb, hmoved]; rfl
    rw [Recovery.packetKept_of_movedOn h.since hmoved]
    dsimp only [intervalStep]
    rwa [if_neg (by rw [hcb]; decide)]
  | false =>
    have hcb : s.packetCb = .promiscRecoverHopInterval := by rw [h.packetCb, hmoved]; rfl
    set u : Fw := { s with clkn := a.clkn, t0tc := a.t0tc } with hudef
    have hcur : recoverCurClk u = u.clk100ns :=
      if_neg (BitVec.not_lt.2 (BitVec.le_def.2 hle))
    have hdiff : (u.clk100ns - u.prevClk).toNat = a.time - s.prevClk.toNat :=
      BitVec.toNat_sub_of_le (BitVec.le_def.2 hle)
    have hshort : (2 * leBaseclk : U32).toNat = shortestGap := rfl
    have hstep : intervalStep s a = promiscRecoverHopInterval u := if_pos hcb
    rw [hstep]
    dsimp only [promiscRecoverHopInterval]
    rw [hcur]
    by_cases hnear : u.clk100ns - u.prevClk < 2 * leBaseclk
    · rw [if_pos hnear]
      rw [BitVec.lt_def, hdiff, hshort] at hnear
      rw [Recovery.packetKept_of_near h.since hnear]
      exact hu
    · rw [if_neg hnear]
      rw [BitVec.lt_def, hdiff, hshort] at hnear
      rw [Recovery.packetKept_of_gap h.since hmoved hnear, ← hdiff]
      exact tracks_gapEnds hu hmoved (by omega)

/-- The clock does not wrap from the reading `p` to the last packet. -/
def NoWrap (p : ℕ) (as : List Arrival) : Prop :=
  (p :: as.map Arrival.time).Pairwise (· ≤ ·) ∧ ∀ a ∈ as, a.time < 3276800000

instance (p : ℕ) (as : List Arrival) : Decidable (NoWrap p as) := instDecidableAnd

/-- **The firmware makes the measurement**, over any packets up to a wrap of the clock. -/
theorem tracks_run {s : Fw} {x : Recovery} (h : Tracks s x) {as : List Arrival}
    (hw : NoWrap s.prevClk.toNat as) :
    Tracks (run intervalStep s as) (run Recovery.packetKept x (as.map Arrival.time)) := by
  induction as generalizing s x with
  | nil => exact h
  | cons a as ih =>
    obtain ⟨hsorted, hlt⟩ := hw
    obtain ⟨hle, htail⟩ := List.pairwise_cons.1 hsorted
    have ha : s.prevClk.toNat ≤ a.time := hle a.time List.mem_cons_self
    have hstep := tracks_step h ha (hlt a List.mem_cons_self)
    refine ih hstep ⟨List.pairwise_cons.2 ⟨fun t ht => ?_, (List.pairwise_cons.1 htail).2⟩,
      fun b hb => hlt b (List.mem_cons_of_mem a hb)⟩
    have hkept : (intervalStep s a).prevClk.toNat = s.prevClk.toNat ∨
        (intervalStep s a).prevClk.toNat = a.time := by
      have hk := x.packetKept_since a.time
      rwa [hstep.since, h.since, Option.some_inj, Option.some_inj] at hk
    rcases hkept with hk | hk
    · rw [hk]
      exact hle t (List.mem_cons_of_mem a.time ht)
    · rw [hk]
      exact (List.pairwise_cons.1 htail).1 t ht

/-! ### Packets that make no difference -/

/-- The packet makes no difference in the state it comes in: the interval is settled, or what the
firmware measures from `prev_clk` ends no gap, or one of the same interval as the gap since the
packet before. -/
def NoDifference (s : Fw) (a : Arrival) : Prop :=
  s.packetCb ≠ .promiscRecoverHopInterval ∨
    Recovery.SameGap s.lePromisc.smallestHopInterval.toNat s.prevClk.toNat s.clk100ns.toNat a.time

instance (s : Fw) (a : Arrival) : Decidable (NoDifference s a) :=
  inferInstanceAs (Decidable (_ ∨ _))

theorem clk100ns_intervalStep (s : Fw) (a : Arrival) :
    (intervalStep s a).clk100ns.toNat = a.time := by
  have hclk : (intervalStep s a).clkn = a.clkn ∧ (intervalStep s a).t0tc = a.t0tc := by
    dsimp only [intervalStep]
    split
    · dsimp only [promiscRecoverHopInterval]
      split
      · exact ⟨rfl, rfl⟩
      · obtain ⟨w, hnote, -⟩ := noteClkDiff_eq
          (recoverCurClk { s with clkn := a.clkn, t0tc := a.t0tc } - s.prevClk)
          { s with clkn := a.clkn, t0tc := a.t0tc }
        dsimp only at hnote ⊢
        rw [hnote]
        obtain ⟨-, -, q, st, h⟩ | ⟨-, -, h⟩ | ⟨-, h⟩ := observeHopInterval_cases
          { s with
            clkn := a.clkn
            t0tc := a.t0tc
            lePromisc := { s.lePromisc with smallestHopInterval := w } }
        all_goals
          rw [h]
          exact ⟨rfl, rfl⟩
    · exact ⟨rfl, rfl⟩
  rw [Fw.clk100ns, hclk.1, hclk.2]
  rfl

/-- The firmware has made a measurement `x` that goes on like the session's own, `y`. -/
structure Together (B : ℕ) (s : Fw) (x y : Recovery) : Prop where
  tracks : Tracks s x
  alike : Recovery.Alike x y
  kept : Recovery.Measuring B x
  own : Recovery.Measuring B y
  last : y.since = some s.clk100ns.toNat
  le : s.prevClk.toNat ≤ s.clk100ns.toNat

variable {s : Fw} {x y : Recovery} {B : ℕ}

theorem Together.smallest (h : Together B s x y) :
    x.smallest = some s.lePromisc.smallestHopInterval.toNat := by
  obtain ⟨m, -, hm, -⟩ := h.kept.smallest
  rw [h.tracks.smallest, hm, Option.getD_some]

theorem Together.movedOn_iff (h : Together B s x y) :
    x.movedOn = true ↔ s.packetCb ≠ .promiscRecoverHopInterval := by
  rw [h.tracks.packetCb]
  cases x.movedOn <;> simp

theorem Together.step (h : Together B s x y) {a : Arrival} (hle : s.clk100ns.toNat ≤ a.time)
    (hlt : a.time < 3276800000) (ha : NoDifference s a) :
    Together B (intervalStep s a) (x.packetKept a.time) (y.packet a.time) := by
  have htracks := tracks_step h.tracks (h.le.trans hle) hlt
  refine ⟨htracks, ?_, h.kept.packetKept _, h.own.packet _, ?_, ?_⟩
  · exact h.alike.packet h.tracks.since h.last h.le h.smallest (ha.imp_left h.movedOn_iff.2)
  · rw [clk100ns_intervalStep, Recovery.packet_since]
  · rw [clk100ns_intervalStep]
    have hkept := x.packetKept_since a.time
    rw [htracks.since, h.tracks.since, Option.some_inj, Option.some_inj] at hkept
    have := h.le
    omega

/-- Packets that make no difference, over any run of them. -/
theorem Together.run (h : Together B s x y) {as : List Arrival}
    (hw : NoWrap s.clk100ns.toNat as) (hsame : Along intervalStep NoDifference s as) :
    Together B (run intervalStep s as) (run Recovery.packetKept x (as.map Arrival.time))
      (run Recovery.packet y (as.map Arrival.time)) := by
  induction as generalizing s x y with
  | nil => exact h
  | cons a as ih =>
    obtain ⟨hsorted, hlt⟩ := hw
    obtain ⟨hle, htail⟩ := List.pairwise_cons.1 hsorted
    have hstep := h.step (hle a.time List.mem_cons_self) (hlt a List.mem_cons_self) hsame.1
    refine ih hstep ⟨?_, fun b hb => hlt b (List.mem_cons_of_mem a hb)⟩ hsame.2
    rwa [clk100ns_intervalStep]

/-! ## Sessions -/

/-- A session, after any history of the device, once `promisc_follow_cb` has handed over. -/
def sessionStart (history : Fw) : Fw :=
  { resetLePromisc history with packetCb := .promiscRecoverHopInterval }

theorem tracks_sessionStart (history : Fw) : Tracks (sessionStart history)
    (staleRecovery history.prevClk.toNat history.le.connInterval.toNat) :=
  ⟨rfl, rfl, rfl, rfl, rfl⟩

/-- The firmware has recovered what the measurement shows. -/
def Agrees (s : Fw) (x : Recovery) : Prop :=
  s.le.connInterval.toNat = x.interval ∧
    (s.packetCb = .promiscRecoverHopIncrement ↔ x.movedOn = true)

theorem Tracks.agrees_iff {s : Fw} {x y : Recovery} (h : Tracks s x) :
    Agrees s y ↔ x.interval = y.interval ∧ x.movedOn = y.movedOn := by
  rw [Agrees, h.interval, h.packetCb]
  cases x.movedOn <;> cases y.movedOn <;> simp

/-- The packet that arrives at time `t`. -/
def arrivalAt (t : ℕ) : Arrival := ⟨BitVec.ofNat 32 (t / 3125), BitVec.ofNat 32 (t % 3125)⟩

theorem time_arrivalAt {t : ℕ} (h : t < 3276800000) : (arrivalAt t).time = t :=
  (toNat_clk100ns_atTime t powerOn).trans (Nat.mod_eq_of_lt h)

theorem NoWrap.of_concat {p : ℕ} {as : List Arrival} {last : Arrival}
    (h : NoWrap p (as ++ [last])) : NoWrap p as ∧ p ≤ last.time := by
  obtain ⟨hsorted, hlt⟩ := h
  have hfront : p :: as.map Arrival.time <+: p :: (as ++ [last]).map Arrival.time :=
    ⟨[last.time], by simp⟩
  exact ⟨⟨hsorted.sublist hfront.sublist, fun a ha => hlt a (List.mem_append_left _ ha)⟩,
    (List.pairwise_cons.1 hsorted).1 _ (by simp)⟩

theorem NoWrap.of_append {p : ℕ} {as bs : List Arrival} {last : Arrival}
    (h : NoWrap p (as ++ [last] ++ bs)) : NoWrap p (as ++ [last]) ∧ NoWrap last.time bs := by
  obtain ⟨hsorted, hlt⟩ := h
  have happ : (p :: (as ++ [last] ++ bs).map Arrival.time) =
      (p :: as.map Arrival.time) ++ (last.time :: bs.map Arrival.time) := by
    simp
  have hfront : p :: (as ++ [last]).map Arrival.time <+:
      p :: (as ++ [last] ++ bs).map Arrival.time := ⟨bs.map Arrival.time, by simp⟩
  refine ⟨⟨hsorted.sublist hfront.sublist, fun a ha => hlt a (List.mem_append_left bs ha)⟩, ?_,
    fun a ha => hlt a (List.mem_append_right _ ha)⟩
  rw [happ] at hsorted
  exact (List.pairwise_append.1 hsorted).2.1

/-- The clock does not wrap while packets come `g` apart. -/
theorem NoWrap.spaced {p g n : ℕ} {as : List Arrival} {last : Arrival}
    (h : NoWrap p (as ++ [last])) (hfit : last.time + n * g < 3276800000) :
    ((Recovery.spaced last.time g n).map arrivalAt).map Arrival.time =
        Recovery.spaced last.time g n ∧
      NoWrap p (as ++ [last] ++ (Recovery.spaced last.time g n).map arrivalAt) := by
  have htime : ((Recovery.spaced last.time g n).map arrivalAt).map Arrival.time =
      Recovery.spaced last.time g n := by
    rw [List.map_map]
    exact List.map_congr_left (fun t ht => time_arrivalAt
      ((Recovery.mem_spaced ht).2.trans_lt hfit)) |>.trans (List.map_id _)
  refine ⟨htime, ?_, fun a ha => ?_⟩
  · rw [List.map_append, htime, ← List.cons_append, List.pairwise_append]
    refine ⟨h.1, Recovery.pairwise_spaced _ _ _, fun u hu v hv => ?_⟩
    have hlast : u ≤ last.time := by
      have hsorted := h.1
      rw [List.map_append, ← List.cons_append] at hsorted hu
      rcases List.mem_append.1 hu with hu | hu
      · exact (List.pairwise_append.1 hsorted).2.2 u hu last.time List.mem_cons_self
      · exact (List.mem_singleton.1 hu).le
    exact hlast.trans (Recovery.mem_spaced hv).1
  · rcases List.mem_append.1 ha with ha | ha
    · exact h.2 a ha
    · obtain ⟨t, ht, rfl⟩ := List.mem_map.1 ha
      have htfit := (Recovery.mem_spaced ht).2.trans_lt hfit
      rwa [time_arrivalAt htfit]

/-- The firmware has recovered what the session's own packets show. -/
def MeasuredAlone (history : Fw) (as : List Arrival) : Prop :=
  Agrees (run intervalStep (sessionStart history) as)
    (run Recovery.packet {} (as.map Arrival.time))

instance (history : Fw) (as : List Arrival) : Decidable (MeasuredAlone history as) :=
  instDecidableAnd

/-- A session up to its first gap: a packet, those near to it, and the next. -/
def firstGap (first : Arrival) (near : List Arrival) (next : Arrival) : List Arrival :=
  first :: near ++ [next]

/-- What the history has left is harmless for a session that begins so. -/
def HarmlessHistory (history : Fw) (first : Arrival) (near : List Arrival) (next : Arrival) :
    Prop :=
  HarmlessStart history.le.connInterval.toNat (first.time - history.prevClk.toNat)
    (next.time - first.time) (next.time - (near.getLastD first).time)

instance (history : Fw) (first : Arrival) (near : List Arrival) (next : Arrival) :
    Decidable (HarmlessHistory history first near next) :=
  inferInstanceAs (Decidable (HarmlessStart _ _ _ _))

section Session

variable {history : Fw} {first next : Arrival} {near : List Arrival}

theorem map_time_firstGap (first next : Arrival) (near more : List Arrival) :
    (firstGap first near next ++ more).map Arrival.time =
      first.time :: near.map Arrival.time ++ [next.time] ++ more.map Arrival.time := by
  simp [firstGap]

/-- A continuation that the two measurements differ on. -/
theorem exists_not_measuredAlone {as : List Arrival} {last : Arrival} {g : ℕ}
    (hw : NoWrap history.prevClk.toNat (as ++ [last]))
    (hroom : last.time + 5 * g < 3276800000)
    (h : ∃ n ≤ 5, Recovery.Differ
      (run Recovery.packetKept
        (staleRecovery history.prevClk.toNat history.le.connInterval.toNat)
        ((as ++ [last]).map Arrival.time ++ Recovery.spaced last.time g n))
      (run Recovery.packet {} ((as ++ [last]).map Arrival.time ++
        Recovery.spaced last.time g n))) :
    ∃ more, more.length ≤ 5 ∧ NoWrap history.prevClk.toNat (as ++ [last] ++ more) ∧
      ¬MeasuredAlone history (as ++ [last] ++ more) := by
  obtain ⟨n, hn, hdiffer⟩ := h
  have hfit : last.time + n * g < 3276800000 :=
    (Nat.add_le_add_left (Nat.mul_le_mul_right _ hn) _).trans_lt hroom
  obtain ⟨htime, hwrap⟩ := hw.spaced hfit
  refine ⟨_, ?_, hwrap, fun halone => hdiffer ?_⟩
  · simpa [Recovery.spaced] using hn
  · have hsame := (tracks_run (tracks_sessionStart history) hwrap).agrees_iff.1 halone
    rwa [List.map_append, htime] at hsame

section FirstGap

variable (hstale : history.prevClk.toNat + 25000 ≤ first.time)
  (hnear : ∀ a ∈ near, a.time - first.time < 25000)
  (hgap : (near.getLastD first).time + 25000 ≤ next.time)
include hstale hnear hgap

/-- The times of the beginning of a session are those the measurements are made of. -/
theorem times_firstGap (hw : NoWrap history.prevClk.toNat (firstGap first near next)) :
    (first.time :: near.map Arrival.time).Pairwise (· ≤ ·) ∧
      history.prevClk.toNat + shortestGap ≤ first.time ∧
      (∀ t ∈ near.map Arrival.time, t - first.time < shortestGap) ∧
      (near.map Arrival.time).getLastD first.time + shortestGap ≤ next.time := by
  refine ⟨?_, hstale, fun t ht => ?_, ?_⟩
  · have hsub : (first.time :: near.map Arrival.time).Sublist
        (history.prevClk.toNat :: (firstGap first near next).map Arrival.time) := by
      refine List.Sublist.cons _ (List.IsPrefix.sublist ⟨[next.time], ?_⟩)
      simp [firstGap]
    exact hw.1.sublist hsub
  · obtain ⟨a, ha, rfl⟩ := List.mem_map.1 ht
    exact hnear a ha
  · rw [List.getLastD_map]
    exact hgap

/-- After the first gap of a session that begins harmlessly. -/
theorem together_firstGap (hw : NoWrap history.prevClk.toNat (firstGap first near next))
    (hharmless : HarmlessHistory history first near next) :
    Together (next.time - history.prevClk.toNat)
      (run intervalStep (sessionStart history) (firstGap first near next))
      (run Recovery.packetKept
        (staleRecovery history.prevClk.toNat history.le.connInterval.toNat)
        ((firstGap first near next).map Arrival.time))
      (run Recovery.packet {} ((firstGap first near next).map Arrival.time)) := by
  obtain ⟨hsorted, hst, hnr, hgp⟩ := times_firstGap hstale hnear hgap hw
  have htracks := tracks_run (tracks_sessionStart history) hw
  have hmap := map_time_firstGap first next near []
  rw [List.append_nil, List.map_nil, List.append_nil] at hmap
  rw [hmap] at htracks ⊢
  rw [HarmlessHistory, ← List.getLastD_map (f := Arrival.time)] at hharmless
  have hclk : (run intervalStep (sessionStart history) (firstGap first near next)).clk100ns.toNat =
      next.time := by
    rw [firstGap, run_concat, clk100ns_intervalStep]
  refine ⟨htracks, alike_of_harmlessStart hsorted hst hnr hgp hharmless,
    measuring_stale hsorted hst hnr hgp, measuring_own hsorted hst hnr hgp, ?_, ?_⟩
  · rw [run_own hsorted hnr hgp, hclk]
  · have hsince := htracks.since
    have hle := le_getLastD hsorted
    rw [run_stale hst hnr (by omega)] at hsince
    rw [hclk, ← Option.some_inj.1 hsince]

/-- As long as the packets after the first gap make no difference. -/
theorem together_session {more : List Arrival}
    (hw : NoWrap history.prevClk.toNat (firstGap first near next ++ more))
    (hharmless : HarmlessHistory history first near next)
    (hsame : Along intervalStep NoDifference
      (run intervalStep (sessionStart history) (firstGap first near next)) more) :
    Together (next.time - history.prevClk.toNat)
      (run intervalStep (sessionStart history) (firstGap first near next ++ more))
      (run Recovery.packetKept
        (staleRecovery history.prevClk.toNat history.le.connInterval.toNat)
        ((firstGap first near next ++ more).map Arrival.time))
      (run Recovery.packet {} ((firstGap first near next ++ more).map Arrival.time)) := by
  obtain ⟨hfront, hback⟩ := hw.of_append
  have hclk : (run intervalStep (sessionStart history)
      (firstGap first near next)).clk100ns.toNat = next.time := by
    rw [firstGap, run_concat, clk100ns_intervalStep]
  have hrun := (together_firstGap hstale hnear hgap hfront hharmless).run (hclk ▸ hback) hsame
  rwa [← run_append, ← run_append, ← run_append, ← List.map_append] at hrun

/-- **A session measured alone.** A session of packets `first`, `near` to it, `next`, and any
others, after any history whose last packet kept is `prev_clk`, without a wrap of the clock. If what
the history leaves is harmless, and as long as the packets after the first gap make no difference,
the firmware has the interval and the decision of the session's own measurement. If a packet makes a
difference, or what the history leaves is not harmless, there is a session that begins so and goes
on for at most five packets, after which it has another interval or has decided otherwise. -/
theorem session_measured_alone :
    (HarmlessHistory history first near next → ∀ more,
      NoWrap history.prevClk.toNat (firstGap first near next ++ more) →
      Along intervalStep NoDifference
        (run intervalStep (sessionStart history) (firstGap first near next)) more →
      MeasuredAlone history (firstGap first near next ++ more)) ∧
    (HarmlessHistory history first near next → ∀ more last,
      NoWrap history.prevClk.toNat (firstGap first near next ++ more ++ [last]) →
      Along intervalStep NoDifference
        (run intervalStep (sessionStart history) (firstGap first near next)) more →
      ¬NoDifference (run intervalStep (sessionStart history) (firstGap first near next ++ more))
        last →
      last.time + 5 * (last.time - history.prevClk.toNat) < 3276800000 →
      ∃ others, others.length ≤ 5 ∧
        NoWrap history.prevClk.toNat (firstGap first near next ++ more ++ [last] ++ others) ∧
        ¬MeasuredAlone history (firstGap first near next ++ more ++ [last] ++ others)) ∧
    (¬HarmlessHistory history first near next →
      NoWrap history.prevClk.toNat (firstGap first near next) →
      next.time + 5 * (next.time - history.prevClk.toNat) < 3276800000 →
      ∃ others, others.length ≤ 5 ∧
        NoWrap history.prevClk.toNat (firstGap first near next ++ others) ∧
        ¬MeasuredAlone history (firstGap first near next ++ others)) := by
  refine ⟨fun hharmless more hw hsame => ?_, fun hharmless more last hw hsame hdiff hroom => ?_,
    fun hharm hw hroom => ?_⟩
  · have h := together_session hstale hnear hgap hw hharmless hsame
    exact h.tracks.agrees_iff.2 ⟨h.alike.interval, h.alike.movedOn⟩
  · refine exists_not_measuredAlone hw hroom ?_
    obtain ⟨hmore, -⟩ := hw.of_concat
    have h := together_session hstale hnear hgap hmore hharmless hsame
    obtain ⟨hcb, hgaps⟩ := not_or.1 hdiff
    have hmoved : (run Recovery.packetKept
        (staleRecovery history.prevClk.toNat history.le.connInterval.toNat)
        ((firstGap first near next ++ more).map Arrival.time)).movedOn = false := by
      simpa using mt h.movedOn_iff.1 hcb
    have hnext : next.time ≤ last.time := by
      rw [firstGap, List.append_assoc] at hw
      exact hw.of_append.2.of_concat.2
    have hfirst : first.time ≤ (near.getLastD first).time := by
      have hsorted := (times_firstGap hstale hnear hgap hmore.of_append.1).1
      rw [← List.getLastD_map (f := Arrival.time)]
      exact le_getLastD hsorted
    have hg : shortestGap ≤ last.time - history.prevClk.toNat := by
      rw [shortestGap]
      omega
    have hdiffer := h.alike.exists_differ h.kept h.own h.tracks.since h.last h.smallest hmoved
      hgaps hg (Nat.sub_le_sub_right hnext _)
    simpa only [List.map_append, List.map_cons, List.map_nil, run_append, run_cons, run_nil]
      using hdiffer
  · refine exists_not_measuredAlone hw hroom ?_
    obtain ⟨hsorted, hst, hnr, hgp⟩ := times_firstGap hstale hnear hgap hw
    have hmap := map_time_firstGap first next near []
    rw [List.append_nil, List.map_nil, List.append_nil, firstGap] at hmap
    rw [HarmlessHistory, ← List.getLastD_map (f := Arrival.time)] at hharm
    rw [hmap]
    exact differ_of_not_harmlessStart hsorted hst hnr hgp hharm

end FirstGap

end Session

/-- After power on: two packets of one connection event, and then one at every second interval; and
a session whose fourth packet is near to the third, but not to the one kept. -/
theorem session_measured_alone_powerOn :
    MeasuredAlone powerOn (firstGap (arrivalAt 10000000) [arrivalAt 10020000]
      (arrivalAt 10925000) ++ (Recovery.spaced 10925000 925000 5).map arrivalAt) ∧
    ∃ others, others.length ≤ 5 ∧
      NoWrap powerOn.prevClk.toNat (firstGap (arrivalAt 10000000) [] (arrivalAt 10925000) ++
        [arrivalAt 10945000] ++ [arrivalAt 10965000] ++ others) ∧
      ¬MeasuredAlone powerOn (firstGap (arrivalAt 10000000) [] (arrivalAt 10925000) ++
        [arrivalAt 10945000] ++ [arrivalAt 10965000] ++ others) :=
  ⟨(@session_measured_alone powerOn (arrivalAt 10000000) (arrivalAt 10925000)
      [arrivalAt 10020000] (by decide +kernel) (by decide +kernel) (by decide +kernel)).1
      (by decide +kernel) _ (by decide +kernel) (by decide +kernel),
    (@session_measured_alone powerOn (arrivalAt 10000000) (arrivalAt 10925000) []
      (by decide +kernel) (by decide +kernel) (by decide +kernel)).2.1 (by decide +kernel)
      [arrivalAt 10945000] (arrivalAt 10965000) (by decide +kernel) (by decide +kernel)
      (by decide +kernel) (by decide +kernel)⟩

/-! ### Two histories -/

/-- A session of seven packets, at two intervals of 37 hops each. -/
def sevenPackets : List Arrival := (List.range 7).map fun i => arrivalAt (10000000 + i * 925000)

/-- A device on which a session has ended with a packet at time 9537500. -/
def afterSession : Fw := resetLe (intervalStep (sessionStart powerOn) (arrivalAt 9537500))

/-- The packets of a session, heard after power on and after another session. -/
theorem not_session_alone :
    ¬∀ (h₁ h₂ : Fw) (as : List Arrival),
      NoWrap h₁.prevClk.toNat as → NoWrap h₂.prevClk.toNat as →
        (run intervalStep (sessionStart (resetLe h₁)) as).le.connInterval =
          (run intervalStep (sessionStart (resetLe h₂)) as).le.connInterval := by
  intro h
  have h' := h powerOn afterSession sevenPackets (by decide +kernel) (by decide +kernel)
  exact absurd h' (by decide +kernel)

end Ubertooth.LowEnergy
