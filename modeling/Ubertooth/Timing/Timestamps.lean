import Ubertooth.Firmware.Clock
import Ubertooth.Host.Sniffing

/-!
# The host's time stamps

`now_ns_from_clk100ns` extends the readings of `CLK100NS` by a count of its roll-overs, as if each
of them were worth 2^32 units, and takes a first reading of 0 for none. So the time stamps of
packets are right up to the first roll-over and no longer, and only if the first reading is not 0,
or no time passes (`timestamps_right_iff`).
-/

namespace Ubertooth.Timing

open Firmware Host

variable (times : ℕ → ℕ) (hostNs : ℕ → U64)

/-- What the host has noted before packet `i`, if the packets are stamped at `times`, and `now_ns`
would return `hostNs`. -/
def trackingBefore : ℕ → ClockTracking
  | 0 => {}
  | i + 1 => (nowNsFromClk100ns (hostNs i) (clockReading (times i)) (trackingBefore i)).2

/-- The time stamp of packet `i`. -/
def timestamp (i : ℕ) : U64 :=
  (nowNsFromClk100ns (hostNs i) (clockReading (times i)) (trackingBefore times hostNs i)).1

/-- The time stamp of packet `i` is the host's start and the time since the first packet. -/
def Dated (i : ℕ) : Prop :=
  timestamp times hostNs i =
    (trackingBefore times hostNs (i + 1)).absStartNs + BitVec.ofNat 64 (100 * (times i - times 0))

/-- Up to packet `n` the clock has not rolled over, and if its first reading was 0 no time has
passed. -/
def Unrolled (n : ℕ) : Prop :=
  times n / 3276800000 = times 0 / 3276800000 ∧
    (times 0 % 3276800000 = 0 → times n = times 0)

instance (i : ℕ) : Decidable (Dated times hostNs i) := inferInstanceAs (Decidable (_ = _))

/-- What the host has noted after a packet, as long as the clock has not rolled over. -/
def unrolledTracking (n : ℕ) : ClockTracking :=
  { absStartNs := if times 0 % 3276800000 = 0 then hostNs n else hostNs 0
    startClk100ns := clockReading (times 0)
    lastClk100ns := (clockReading (times n)).setWidth 64
    clk100nsUpper := 0 }

variable {times hostNs}

/-! ## One packet -/

theorem clockReading_eq_zero_iff (t : ℕ) : clockReading t = 0 ↔ t % 3276800000 = 0 := by
  rw [← BitVec.toNat_inj, toNat_clockReading]
  rfl

theorem toNat_setWidth_clockReading (t : ℕ) :
    ((clockReading t).setWidth 64 : U64).toNat = t % 3276800000 := by
  have hlt := (clockReading t).isLt
  rw [BitVec.toNat_setWidth, Nat.mod_eq_of_lt (by omega), toNat_clockReading]

/-- The roll-over that the host sees. -/
theorem setWidth_clockReading_lt_iff (t s : ℕ) :
    ((clockReading t).setWidth 64 : U64) < (clockReading s).setWidth 64 ↔
      t % 3276800000 < s % 3276800000 := by
  rw [BitVec.lt_def, toNat_setWidth_clockReading, toNat_setWidth_clockReading]

/-- The host starts at a packet. -/
theorem trackClk100ns_start {nowNs : U64} {r : U32} {c : ClockTracking}
    (h : c.startClk100ns = 0) : trackClk100ns nowNs r c =
      { c with lastClk100ns := r.setWidth 64, startClk100ns := r, absStartNs := nowNs } := by
  unfold trackClk100ns
  dsimp only
  rw [if_pos h, if_neg (BitVec.lt_irrefl _)]

/-- It has started. -/
theorem trackClk100ns_started {nowNs : U64} {r : U32} {c : ClockTracking}
    (h : c.startClk100ns ≠ 0) : trackClk100ns nowNs r c =
      { c with
        clk100nsUpper :=
          if r.setWidth 64 < c.lastClk100ns then c.clk100nsUpper + 1 else c.clk100nsUpper
        lastClk100ns := r.setWidth 64 } := by
  unfold trackClk100ns
  dsimp only
  rw [if_neg h]
  split <;> rfl

theorem hundred_shiftLeft (u : ℕ) :
    (100 * BitVec.ofNat 64 u) <<< 32 = BitVec.ofNat 64 (100 * (u * 2 ^ 32)) := by
  rw [BitVec.shiftLeft_eq_mul_twoPow, BitVec.mul_assoc, BitVec.ofNat_mul, BitVec.ofNat_mul]
  rfl

/-- The time since the start, with roll-overs of 2^32 units. -/
theorem nowNs_fst (nowNs : U64) (r : U32) (c : ClockTracking) {u : ℕ}
    (hu : (trackClk100ns nowNs r c).clk100nsUpper = BitVec.ofNat 64 u) :
    (nowNsFromClk100ns nowNs r c).1 = (trackClk100ns nowNs r c).absStartNs +
      BitVec.ofNat 64
        (100 * ((r - (trackClk100ns nowNs r c).startClk100ns).toNat + u * 2 ^ 32)) := by
  have hmask : (r - (trackClk100ns nowNs r c).startClk100ns) &&& 0xffffffff =
      r - (trackClk100ns nowNs r c).startClk100ns := BitVec.and_allOnes
  unfold nowNsFromClk100ns
  dsimp only
  rw [hmask, hu, hundred_shiftLeft, BitVec.add_assoc, ← BitVec.ofNat_toNat, Nat.mul_add,
    BitVec.ofNat_add, BitVec.ofNat_mul 100 (BitVec.toNat _)]
  rfl

/-- Times that the host computes without overflow. -/
theorem add_ofNat_inj {a : U64} {x y : ℕ} (hx : x < 2 ^ 50) (hy : y < 2 ^ 50) :
    a + BitVec.ofNat 64 (100 * x) = a + BitVec.ofNat 64 (100 * y) ↔ x = y := by
  rw [BitVec.add_right_inj, ← BitVec.toNat_inj, BitVec.toNat_ofNat, BitVec.toNat_ofNat,
    Nat.mod_eq_of_lt (by omega), Nat.mod_eq_of_lt (by omega)]
  omega

/-- What a right time stamp comes down to. -/
theorem dated_iff {n u : ℕ} (hu : (trackingBefore times hostNs (n + 1)).clk100nsUpper =
      BitVec.ofNat 64 u) (hu2 : u < 2) (hlt : times n - times 0 < 2 ^ 50) :
    Dated times hostNs n ↔
      (clockReading (times n) - (trackingBefore times hostNs (n + 1)).startClk100ns).toNat +
        u * 2 ^ 32 = times n - times 0 := by
  have hafter : trackClk100ns (hostNs n) (clockReading (times n)) (trackingBefore times hostNs n) =
      trackingBefore times hostNs (n + 1) := rfl
  have hsmall := (clockReading (times n) -
    (trackingBefore times hostNs (n + 1)).startClk100ns).isLt
  rw [Dated, timestamp, nowNs_fst _ _ _ hu, hafter]
  exact add_ofNat_inj (by omega) hlt

/-! ## The packets before the first roll-over -/

theorem Unrolled.of_succ (hmono : Monotone times) {n : ℕ} (h : Unrolled times (n + 1)) :
    Unrolled times n := by
  obtain ⟨hperiod, hzero⟩ := h
  have hle : times 0 ≤ times n := hmono (Nat.zero_le n)
  have hle' : times n ≤ times (n + 1) := hmono (Nat.le_succ n)
  refine ⟨?_, fun h0 => ?_⟩
  · exact le_antisymm (hperiod ▸ Nat.div_le_div_right hle') (Nat.div_le_div_right hle)
  · have := hzero h0
    omega

/-- Before the first roll-over the host has noted what it should. -/
theorem trackingBefore_succ (hostNs : ℕ → U64) (hmono : Monotone times) {n : ℕ}
    (h : Unrolled times n) :
    trackingBefore times hostNs (n + 1) = unrolledTracking times hostNs n := by
  induction n with
  | zero =>
    show trackClk100ns (hostNs 0) (clockReading (times 0)) {} = _
    rw [trackClk100ns_start rfl, unrolledTracking, ite_self]
  | succ n ih =>
    have hle : times n ≤ times (n + 1) := hmono (Nat.le_succ n)
    have hbefore := h.of_succ hmono
    obtain ⟨hperiod, hzero⟩ := h
    have hperiod' := hbefore.1
    show trackClk100ns (hostNs (n + 1)) (clockReading (times (n + 1)))
      (trackingBefore times hostNs (n + 1)) = _
    rw [ih hbefore]
    by_cases h0 : times 0 % 3276800000 = 0
    · -- the host starts again
      rw [trackClk100ns_start ((clockReading_eq_zero_iff (times 0)).2 h0), hzero h0]
      simp only [unrolledTracking, h0, if_true, hzero h0]
    · have hroll := (setWidth_clockReading_lt_iff (times (n + 1)) (times n)).not.2 (by omega)
      rw [trackClk100ns_started ((clockReading_eq_zero_iff (times 0)).not.2 h0)]
      simp only [unrolledTracking, h0, if_false, hroll]

theorem dated_of_unrolled (hmono : Monotone times) {n : ℕ} (h : Unrolled times n) :
    Dated times hostNs n := by
  have hle : times 0 ≤ times n := hmono (Nat.zero_le n)
  have htracking := trackingBefore_succ hostNs hmono h
  obtain ⟨hperiod, -⟩ := h
  have hupper : (trackingBefore times hostNs (n + 1)).clk100nsUpper = BitVec.ofNat 64 0 := by
    rw [htracking]
    rfl
  rw [dated_iff hupper (by omega) (by omega), htracking]
  show (clockReading (times n) - clockReading (times 0)).toNat + 0 * 2 ^ 32 = _
  have hlt := (clockReading (times 0)).isLt
  rw [BitVec.toNat_sub, toNat_clockReading, toNat_clockReading]
  omega

/-! ## The first packet that is not dated right -/

/-- A roll-over is not worth 2^32 units. -/
theorem rollOver_ne {r s : U32} (hr : r < clk100nsPeriod) (hs : s < clk100nsPeriod) :
    (r - s).toNat + 1 * 2 ^ 32 ≠ r.toNat + 3276800000 - s.toNat := by
  have hr' : r.toNat < 3276800000 := hr
  have hs' : s.toNat < 3276800000 := hs
  rw [BitVec.toNat_sub]
  omega

/-- A roll-over is counted as 2^32 units, and after a first reading of 0 the host starts again. -/
theorem not_dated_succ (hmono : Monotone times)
    (hgap : ∀ i, times (i + 1) - times i < 3276800000) {n : ℕ} (h : Unrolled times n)
    (h' : ¬Unrolled times (n + 1)) : ¬Dated times hostNs (n + 1) := by
  have hle0 : times 0 ≤ times n := hmono (Nat.zero_le n)
  have hle : times n ≤ times (n + 1) := hmono (Nat.le_succ n)
  have hlt := hgap n
  have htracking := trackingBefore_succ hostNs hmono h
  obtain ⟨hperiod, hzero⟩ := h
  by_cases h0 : times 0 % 3276800000 = 0
  · have hstart := (clockReading_eq_zero_iff (times 0)).2 h0
    have hafter : trackingBefore times hostNs (n + 2) =
        { absStartNs := hostNs (n + 1)
          startClk100ns := clockReading (times (n + 1))
          lastClk100ns := (clockReading (times (n + 1))).setWidth 64
          clk100nsUpper := 0 } := by
      show trackClk100ns (hostNs (n + 1)) (clockReading (times (n + 1)))
        (trackingBefore times hostNs (n + 1)) = _
      rw [htracking, trackClk100ns_start hstart]
      rfl
    have hmoved : times (n + 1) ≠ times 0 := fun heq => h' ⟨by rw [heq], fun _ => heq⟩
    have hsame := hzero h0
    rw [dated_iff (u := 0) (by rw [hafter]; rfl) (by omega) (by omega), hafter, BitVec.sub_self]
    show ¬(0 + 0 * 2 ^ 32 = _)
    omega
  · have hstart := (clockReading_eq_zero_iff (times 0)).not.2 h0
    have hnext : times (n + 1) / 3276800000 ≠ times 0 / 3276800000 :=
      fun heq => h' ⟨heq, fun h => absurd h h0⟩
    have hroll := (setWidth_clockReading_lt_iff (times (n + 1)) (times n)).2 (by omega)
    have hafter : trackingBefore times hostNs (n + 2) =
        { absStartNs := hostNs 0
          startClk100ns := clockReading (times 0)
          lastClk100ns := (clockReading (times (n + 1))).setWidth 64
          clk100nsUpper := 1 } := by
      show trackClk100ns (hostNs (n + 1)) (clockReading (times (n + 1)))
        (trackingBefore times hostNs (n + 1)) = _
      rw [htracking, trackClk100ns_started hstart]
      simp only [unrolledTracking, h0, if_false, hroll, if_true]
      rfl
    rw [dated_iff (u := 1) (by rw [hafter]; rfl) (by omega) (by omega), hafter]
    have hsince : times (n + 1) - times 0 =
        times (n + 1) % 3276800000 + 3276800000 - times 0 % 3276800000 := by
      clear hroll hafter htracking
      omega
    rw [hsince, ← toNat_clockReading, ← toNat_clockReading]
    exact rollOver_ne (clockReading_lt _) (clockReading_lt _)

/-- **The host's time stamps.** Of packets less than a period apart, all up to packet `n` are dated
right exactly if the device's clock does not roll over between the first and packet `n`, and its
first reading is not 0 unless no time passes. -/
theorem timestamps_right_iff (hmono : Monotone times)
    (hgap : ∀ i, times (i + 1) - times i < 3276800000) (n : ℕ) :
    (∀ i ≤ n, Dated times hostNs i) ↔ Unrolled times n := by
  induction n with
  | zero =>
    have h : Unrolled times 0 := ⟨rfl, fun _ => rfl⟩
    refine iff_of_true (fun i hi => ?_) h
    rw [Nat.le_zero.1 hi]
    exact dated_of_unrolled hmono h
  | succ n ih =>
    refine ⟨fun hall => ?_, fun h i hi => ?_⟩
    · by_contra h'
      have hbefore := ih.1 fun i hi => hall i (Nat.le_succ_of_le hi)
      exact not_dated_succ hmono hgap hbefore h' (hall (n + 1) le_rfl)
    · obtain hi | rfl := Nat.le_succ_iff.1 hi
      · exact ih.2 (h.of_succ hmono) i hi
      · exact dated_of_unrolled hmono h

/-- One packet each second. -/
theorem timestamps_right_seconds : (∀ i ≤ 100, Dated (fun i => 5 + 10000000 * i) (fun _ => 0) i) ↔
    Unrolled (fun i => 5 + 10000000 * i) 100 :=
  timestamps_right_iff (fun i j hij => by omega) (fun i => by omega) 100

/-- Two packets 1 µs apart, the second one after a roll-over. -/
theorem not_dated_across_rollOver :
    ¬∀ i ≤ 1, Dated (fun i => 3276799990 + 10 * i) (fun _ => 0) i := by
  decide +kernel

end Ubertooth.Timing
