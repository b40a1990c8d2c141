import Ubertooth.Firmware.Receive

/-!
# The RSSI of a block

While a block is awaited, `rssi_add` sums up as many samples as there is time for, and counts them
in an octet. `rssi_iir_update` divides the sum by the count and filters the quotient. Up to 255
samples the quotient lies between the least and the greatest of them and the filter stays within its
16 bits; one sample more, and the count starts again from zero (`rssi_faithful_iff`).
-/

namespace Ubertooth.Capture

open Firmware

/-! ## Sums and counts -/

/-- The samples of a block. -/
def sampled (samples : List U8) (d : Device) : Device := samples.foldl rssiAdd (rssiReset d)

/-- `avg` in `rssi_iir_update` -/
def rssiAverage (d : Device) : ℤ :=
  if d.fw.rssiCount ≠ 0 then (d.rssiSum.toInt + 128).tdiv d.fw.rssiCount.toNat else 0

/-- What `rssi_iir_update` stores, before it is cut to 16 bits. -/
def rssiFiltered (d : Device) : ℤ :=
  (d.fw.rssiIirAt (iirSubscript d.fw) * (256 - 3) + rssiAverage d * 3 + 128).tdiv 256

/-- The sum of the samples. -/
def sampleSum (samples : List U8) : ℤ := (samples.map BitVec.toInt).sum

/-- Adding samples to a sum that is there already. -/
theorem foldl_rssiAdd (samples : List U8) (d : Device) :
    (samples.foldl rssiAdd d).rssiSum = d.rssiSum + BitVec.ofInt 32 (sampleSum samples * 256) ∧
      (samples.foldl rssiAdd d).fw.rssiCount =
        d.fw.rssiCount + BitVec.ofNat 8 samples.length := by
  induction samples generalizing d with
  | nil => simp [sampleSum]
  | cons v samples ih =>
    obtain ⟨hsum, hcount⟩ := ih (rssiAdd d v)
    rw [List.foldl_cons, hsum, hcount]
    constructor
    · rw [sampleSum, sampleSum, List.map_cons, List.sum_cons, Int.add_mul, BitVec.ofInt_add,
        ← BitVec.add_assoc]
      rfl
    · rw [List.length_cons, Nat.add_comm, BitVec.ofNat_add, ← BitVec.add_assoc]
      rfl

theorem rssiCount_sampled (samples : List U8) (d : Device) :
    (sampled samples d).fw.rssiCount = BitVec.ofNat 8 samples.length := by
  rw [sampled, (foldl_rssiAdd samples _).2]
  exact BitVec.zero_add _

theorem rssiSum_sampled (samples : List U8) (d : Device) :
    (sampled samples d).rssiSum = BitVec.ofInt 32 (sampleSum samples * 256) := by
  rw [sampled, (foldl_rssiAdd samples _).1]
  exact BitVec.zero_add _

/-- Samples change neither the filter nor what chooses its entry. -/
theorem iir_sampled (samples : List U8) (d : Device) :
    (sampled samples d).fw.rssiIir = d.fw.rssiIir ∧
      iirSubscript (sampled samples d).fw = iirSubscript d.fw := by
  have hfold : ∀ d : Device, (samples.foldl rssiAdd d).fw.rssiIir = d.fw.rssiIir ∧
      iirSubscript (samples.foldl rssiAdd d).fw = iirSubscript d.fw := by
    induction samples with
    | nil => exact fun _ => ⟨rfl, rfl⟩
    | cons v samples ih => exact fun d => ih (rssiAdd d v)
  exact hfold (rssiReset d)

/-! ## Bounds -/

/-- The average is no less than the least sample and no more than a half over the greatest, both in
256ths, and the filtered value is stored as it is, whatever stood in its slot. -/
structure FaithfulStatistics (samples : List U8) : Prop where
  least : ∀ d, ∀ lo ∈ (samples.map BitVec.toInt).min?, 256 * lo ≤ rssiAverage (sampled samples d)
  greatest : ∀ d, ∀ hi ∈ (samples.map BitVec.toInt).max?,
    rssiAverage (sampled samples d) ≤ 256 * hi + 128
  stored : ∀ d, 0 ≤ iirSubscript d.fw → iirSubscript d.fw < 79 →
    (rssiIirUpdate (sampled samples d)).fw.rssiIirAt (iirSubscript d.fw) =
      rssiFiltered (sampled samples d)

theorem sample_le (v : U8) : v.toInt ≤ 127 := Int.le_of_lt_add_one BitVec.toInt_lt

theorem sampleSum_ge {samples : List U8} {lo : ℤ} (h : ∀ v ∈ samples, lo ≤ v.toInt) :
    samples.length * lo ≤ sampleSum samples := by
  have hsum := List.card_nsmul_le_sum (samples.map BitVec.toInt) lo (by simpa using h)
  rwa [List.length_map, nsmul_eq_mul] at hsum

theorem sampleSum_le {samples : List U8} {hi : ℤ} (h : ∀ v ∈ samples, v.toInt ≤ hi) :
    sampleSum samples ≤ samples.length * hi := by
  have hsum := List.sum_le_card_nsmul (samples.map BitVec.toInt) hi (by simpa using h)
  rwa [List.length_map, nsmul_eq_mul] at hsum

/-- The average, as long as the sum fits. -/
theorem rssiAverage_sampled {samples : List U8} {d : Device}
    (hlo : -2147483648 ≤ sampleSum samples * 256) (hhi : sampleSum samples * 256 < 2147483648)
    (hr : samples.length % 256 ≠ 0) :
    rssiAverage (sampled samples d) =
      (sampleSum samples * 256 + 128).tdiv (samples.length % 256 : ℕ) := by
  have hcount : (sampled samples d).fw.rssiCount.toNat = samples.length % 256 := by
    rw [rssiCount_sampled, BitVec.toNat_ofNat]
  have hne : (sampled samples d).fw.rssiCount ≠ 0 := by
    intro h0
    rw [h0] at hcount
    exact hr hcount.symm
  have hsum : (sampled samples d).rssiSum.toInt = sampleSum samples * 256 := by
    rw [rssiSum_sampled, BitVec.toInt_ofInt, Int.bmod_def]
    omega
  rw [rssiAverage, if_pos hne, hsum, hcount]

/-- A count that has wrapped to zero gives no average. -/
theorem rssiAverage_wrapped {samples : List U8} {d : Device} (hr : samples.length % 256 = 0) :
    rssiAverage (sampled samples d) = 0 := by
  have hcount : (sampled samples d).fw.rssiCount = 0 := by
    rw [rssiCount_sampled]
    exact BitVec.eq_of_toNat_eq (by simpa using hr)
  rw [rssiAverage, if_neg (not_not_intro hcount)]

/-- Up to 255 samples, the average lies between any bounds of them. -/
theorem rssiAverage_between {samples : List U8} {lo hi : ℤ} (d : Device) (hne : samples ≠ [])
    (hlen : samples.length ≤ 255) (hlo : ∀ v ∈ samples, lo ≤ v.toInt)
    (hhi : ∀ v ∈ samples, v.toInt ≤ hi) :
    256 * lo ≤ rssiAverage (sampled samples d) ∧
      rssiAverage (sampled samples d) ≤ 256 * hi + 128 := by
  have hpos : 0 < samples.length := List.length_pos_of_ne_nil hne
  have hmod : samples.length % 256 = samples.length := Nat.mod_eq_of_lt (by omega)
  have hleast : samples.length * (-128) ≤ sampleSum samples :=
    sampleSum_ge fun v _ => BitVec.le_toInt v
  have hgreatest : sampleSum samples ≤ samples.length * 127 :=
    sampleSum_le fun v _ => sample_le v
  rw [rssiAverage_sampled (by omega) (by omega) (by omega), hmod]
  have hlow := sampleSum_ge hlo
  have hhigh := sampleSum_le hhi
  have hn : (0 : ℤ) < samples.length := by omega
  constructor
  · refine Int.le_tdiv_of_mul_le hn ?_
    linarith [mul_comm lo (samples.length : ℤ)]
  · have hnum : sampleSum samples * 256 + 128 ≤ (256 * hi + 128) * samples.length := by
      linarith [mul_comm hi (samples.length : ℤ)]
    have hdiv := Int.tdiv_le_tdiv hn hnum
    rwa [Int.mul_tdiv_cancel _ hn.ne'] at hdiv

/-- The filter stays within 16 bits while the average stays in the range of the samples. -/
theorem rssiFiltered_fits {d : Device} (hlo : -32768 ≤ rssiAverage d)
    (hhi : rssiAverage d ≤ 32640) : -32768 ≤ rssiFiltered d ∧ rssiFiltered d < 32768 := by
  have hiir : -32768 ≤ d.fw.rssiIirAt (iirSubscript d.fw) ∧
      d.fw.rssiIirAt (iirSubscript d.fw) < 32768 := by
    unfold Fw.rssiIirAt
    split_ifs
    · exact ⟨BitVec.le_toInt _, BitVec.toInt_lt⟩
    · decide
  constructor
  · exact Int.le_tdiv_of_mul_le (by omega) (by omega)
  · refine Int.lt_of_le_of_lt (Int.tdiv_le_tdiv (b := 32767 * 256) (by omega) (by omega)) ?_
    rw [Int.mul_tdiv_cancel _ (by omega)]
    decide

/-- In range of the array, the slot gets the filtered value cut to 16 bits. -/
theorem rssiIirAt_rssiIirUpdate {d : Device} (h0 : 0 ≤ iirSubscript d.fw)
    (h79 : iirSubscript d.fw < 79) :
    (rssiIirUpdate d).fw.rssiIirAt (iirSubscript d.fw) =
      (BitVec.ofInt 16 (rssiFiltered d)).toInt := by
  have hupdate : rssiIirUpdate d = { d with fw := { d.fw with
      rssiIir := d.fw.rssiIir.setIfInBounds (iirSubscript d.fw).toNat
        (BitVec.ofInt 16 (rssiFiltered d)) } } := if_neg (not_lt.2 h0)
  rw [hupdate, Fw.rssiIirAt, dif_pos ⟨h0, h79⟩]
  exact congrArg BitVec.toInt (Vector.getElem_setIfInBounds_self (by omega))

/-- Up to 255 samples. -/
theorem faithfulStatistics_of_length_le {samples : List U8} (hne : samples ≠ [])
    (hlen : samples.length ≤ 255) : FaithfulStatistics samples := by
  constructor
  · intro d lo hlo
    obtain ⟨hmem, hall⟩ := List.min?_eq_some_iff.1 hlo
    have hlower : ∀ v ∈ samples, lo ≤ v.toInt := fun v hv =>
      hall v.toInt (List.mem_map_of_mem hv)
    exact (rssiAverage_between d hne hlen hlower fun v _ => sample_le v).1
  · intro d hi hhi
    obtain ⟨hmem, hall⟩ := List.max?_eq_some_iff.1 hhi
    have hupper : ∀ v ∈ samples, v.toInt ≤ hi := fun v hv =>
      hall v.toInt (List.mem_map_of_mem hv)
    exact (rssiAverage_between d hne hlen (fun v _ => BitVec.le_toInt v) hupper).2
  · intro d h0 h79
    have hbetween := rssiAverage_between d hne hlen (fun v _ => BitVec.le_toInt v)
      fun v _ => sample_le v
    have hfits := rssiFiltered_fits (d := sampled samples d) (by simpa using hbetween.1)
      (by simpa using hbetween.2)
    rw [← (iir_sampled samples d).2] at h0 h79 ⊢
    rw [rssiIirAt_rssiIirUpdate h0 h79, BitVec.toInt_ofInt, Int.bmod_def]
    omega

/-! ## One sample more -/

/-- For each length past 255, samples with a wrong average: ones alone if the count wraps to zero,
and otherwise 256 more ones than the count reads, followed by zeros. -/
def misleading (n : ℕ) : List U8 :=
  if n % 256 = 0 then List.replicate n 1
  else List.replicate (256 + n % 256) 1 ++ List.replicate (n - (256 + n % 256)) 0

theorem length_misleading {n : ℕ} (h : 255 < n) : (misleading n).length = n := by
  unfold misleading
  split_ifs
  · exact List.length_replicate
  · rw [List.length_append, List.length_replicate, List.length_replicate]
    omega

theorem not_faithfulStatistics_misleading {n : ℕ} (h : 255 < n) :
    ¬FaithfulStatistics (misleading n) := by
  intro hfaithful
  by_cases hr : n % 256 = 0
  · have hmin : (1 : ℤ) ∈ ((misleading n).map BitVec.toInt).min? := by
      rw [misleading, if_pos hr, List.map_replicate]
      exact List.min?_replicate_of_pos (by omega)
    have havg := hfaithful.least deviceOn 1 hmin
    rw [rssiAverage_wrapped (by rwa [length_misleading h])] at havg
    exact absurd havg (by omega)
  · have hmax : (1 : ℤ) ∈ ((misleading n).map BitVec.toInt).max? := by
      rw [misleading, if_neg hr, List.map_append, List.map_replicate, List.map_replicate]
      refine List.max?_eq_some_iff.2
        ⟨List.mem_append_left _ (List.mem_replicate.2 ⟨by omega, rfl⟩), fun b hb => ?_⟩
      rcases List.mem_append.1 hb with hone | hzero
      · exact (List.eq_of_mem_replicate hone).le
      · exact (List.eq_of_mem_replicate hzero).trans_le (by simp)
    have hsum : sampleSum (misleading n) = 256 + n % 256 := by
      rw [misleading, if_neg hr, sampleSum, List.map_append, List.map_replicate,
        List.map_replicate, List.sum_append, List.sum_replicate, List.sum_replicate]
      simp
    have havg := hfaithful.greatest deviceOn 1 hmax
    rw [rssiAverage_sampled (by omega) (by omega) (by rwa [length_misleading h]), hsum,
      length_misleading h] at havg
    have hlow : 513 ≤ ((256 + (n : ℤ) % 256) * 256 + 128).tdiv (n % 256 : ℕ) :=
      Int.le_tdiv_of_mul_le (by omega) (by omega)
    omega

/-- **The statistics of a block.** Whatever the samples of that number, the average and the filtered
value are right exactly up to 255 samples. -/
theorem rssi_faithful_iff (n : ℕ) :
    (∀ samples : List U8, samples ≠ [] → samples.length = n → FaithfulStatistics samples) ↔
      n ≤ 255 := by
  constructor
  · intro hall
    by_contra hn
    have h : 255 < n := not_le.1 hn
    have hne : misleading n ≠ [] := by
      intro hnil
      have hlen := length_misleading h
      rw [hnil, List.length_nil] at hlen
      omega
    exact not_faithfulStatistics_misleading h (hall _ hne (length_misleading h))
  · intro hn samples hne hlen
    exact faithfulStatistics_of_length_le hne (hlen.trans_le hn)

/-- 256 samples of 1: the count is zero, and so is the average. -/
theorem not_faithfulStatistics_256 :
    ¬∀ samples : List U8, samples ≠ [] → FaithfulStatistics samples := by
  intro hall
  have havg := (hall (List.replicate 256 1) (by decide)).least deviceOn 1 (by decide +kernel)
  exact absurd havg (by decide +kernel)

end Ubertooth.Capture
