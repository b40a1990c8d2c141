import Ubertooth.Foundations.WrappingClock
import Ubertooth.Firmware.State

/-!
# The clock

`CLK100NS` is put together from `clkn`, the low 20 bits of which count the interrupts of TIMER0,
and from TIMER0 itself, which counts 3125 units of 100 ns from one interrupt to the next. So it
resets every 2^15 * 10^5 units (`toNat_clk100ns_atTime`).
-/

namespace Ubertooth.Firmware

/-- The period of `CLK100NS`. -/
def clk100nsPeriod : U32 := 3276800000

/-- The two counters at time `t`, in units of 100 ns. -/
def Fw.atTime (t : ℕ) (s : Fw) : Fw :=
  { s with clkn := BitVec.ofNat 32 (t / 3125), t0tc := BitVec.ofNat 32 (t % 3125) }

/-- What `CLK100NS` reads at time `t`. -/
def clockReading (t : ℕ) : U32 := BitVec.ofNat 32 (t % 3276800000)

theorem toNat_clockReading (t : ℕ) : (clockReading t).toNat = t % 3276800000 := by
  have hlt : t % 3276800000 < 3276800000 := Nat.mod_lt t (by omega)
  rw [clockReading, BitVec.toNat_ofNat]
  exact Nat.mod_eq_of_lt (hlt.trans (by omega))

theorem clockReading_lt (t : ℕ) : clockReading t < clk100nsPeriod := by
  rw [BitVec.lt_def, toNat_clockReading]
  exact Nat.mod_lt t (by omega)

theorem toNat_clk100ns_atTime (t : ℕ) (s : Fw) :
    (s.atTime t).clk100ns.toNat = t % 3276800000 := by
  have hand : (BitVec.ofNat 32 (t / 3125) &&& 0xfffff).toNat = t / 3125 % 2 ^ 20 := by
    rw [BitVec.toNat_and, BitVec.toNat_ofNat]
    exact (Nat.and_two_pow_sub_one_eq_mod _ 20).trans (Nat.mod_mod_of_dvd _ (by omega))
  have hconst : (3125 : U32).toNat = 3125 := rfl
  have hresets : t / 3276800000 = t / 3125 / 2 ^ 20 :=
    (Nat.div_div_eq_div_mul t 3125 (2 ^ 20)).symm
  rw [Fw.clk100ns, Fw.atTime, BitVec.toNat_add, BitVec.toNat_mul, hand, hconst,
    BitVec.toNat_ofNat]
  omega

@[simp] theorem clk100ns_atTime (t : ℕ) (s : Fw) : (s.atTime t).clk100ns = clockReading t := by
  apply BitVec.eq_of_toNat_eq
  rw [toNat_clk100ns_atTime, toNat_clockReading]

/-- However often the clock has wrapped, the correction by the period gives the distance up to
whole periods. -/
theorem toNat_elapsed_clockReading_mod {since now : ℕ} (hle : since ≤ now) :
    (Foundations.elapsed clk100nsPeriod (clockReading since) (clockReading now)).toNat =
      (now - since) % 3276800000 := by
  have hperiod : clk100nsPeriod.toNat = 3276800000 := rfl
  refine Foundations.toNat_elapsed (clockReading_lt since) (Nat.mod_lt _ (by omega)) ?_
  rw [toNat_clockReading, toNat_clockReading, hperiod, ← Nat.add_mod]
  congr 1
  omega

/-- **The clock's own period.** Between readings less than a period apart, the distance is what the
correction by the period gives. -/
theorem toNat_elapsed_clockReading {since now : ℕ} (hle : since ≤ now)
    (hlt : now - since < 3276800000) :
    (Foundations.elapsed clk100nsPeriod (clockReading since) (clockReading now)).toNat =
      now - since := by
  rw [toNat_elapsed_clockReading_mod hle, Nat.mod_eq_of_lt hlt]

end Ubertooth.Firmware
