import Ubertooth.Firmware.Receive

/-!
# The relative squelch

A positive `cs_threshold_req` is relative to the filtered RSSI of the channel. The sum is cut to an
octet before it is clamped, so that it comes out at the other end of the range when it does not fit:
the threshold is the clamped sum exactly where the sum fits an octet (`squelch_saturates_iff`).
-/

namespace Ubertooth.Capture

open Firmware

variable {s s' : Fw}

/-- `rssi` as a number: the rounded IIR value of the channel. -/
def channelRssi (s : Fw) : ℤ := (s.rssiIirAt (s.channel.toNat - 2402) + 128).tdiv 256

/-- `rssi - 54 + cs_threshold_req` -/
def relativeLevel (s : Fw) : ℤ := channelRssi s - 54 + s.csThresholdReq.toInt

/-- The range of `cs_threshold_cur`. -/
def clampLevel (level : ℤ) : ℤ := min (max level (-120)) (-20)

/-- The request is relative to a filtered RSSI. -/
structure RelativeSquelch (s : Fw) : Prop where
  hopMode : s.hopMode ≠ .none
  request : 0 < s.csThresholdReq.toInt

/-- The threshold is the clamped sum, and all packets are let through at its lower end. -/
structure Saturates (s : Fw) : Prop where
  threshold : (csThresholdCalcAndSet s).csThresholdCur.toInt = clampLevel (relativeLevel s)
  noSquelch : (csThresholdCalcAndSet s).csNoSquelch = decide (clampLevel (relativeLevel s) = -120)

/-- The sum fits an octet. -/
def LevelFits (s : Fw) : Prop := -128 ≤ relativeLevel s ∧ relativeLevel s ≤ 127

theorem clampLevel_mono {a b : ℤ} (h : a ≤ b) : clampLevel a ≤ clampLevel b :=
  min_le_min_right _ (max_le_max_right _ h)

theorem clampLevel_range (a : ℤ) : -120 ≤ clampLevel a ∧ clampLevel a ≤ -20 := by
  unfold clampLevel
  omega

/-! ## The sum -/

theorem rssiIirAt_range (s : Fw) (i : ℤ) : -32768 ≤ s.rssiIirAt i ∧ s.rssiIirAt i < 32768 := by
  unfold Fw.rssiIirAt
  split_ifs
  · exact ⟨BitVec.le_toInt _, BitVec.toInt_lt⟩
  · simp

/-- A filtered value of 16 bits, rounded. -/
theorem channelRssi_range (s : Fw) : -128 ≤ channelRssi s ∧ channelRssi s ≤ 128 := by
  obtain ⟨hlo, hhi⟩ := rssiIirAt_range s (s.channel.toNat - 2402)
  constructor
  · exact Int.le_tdiv_of_mul_le (by omega) (by omega)
  · refine Int.le_of_lt_add_one (Int.lt_of_le_of_lt
      (Int.tdiv_le_tdiv (b := 128 * 256 + 127) (by omega) (by omega)) ?_)
    simp

/-- Cutting the rounded value, and then the sum, to an octet is cutting the sum. -/
theorem toInt_level (s : Fw) :
    (BitVec.ofInt 8 ((s.rssiRounded (s.channel.toNat - 2402)).toInt - 54 +
      s.csThresholdReq.toInt)).toInt = (relativeLevel s).bmod 256 := by
  have hrssi : (s.rssiRounded (s.channel.toNat - 2402)).toInt = (channelRssi s).bmod 256 :=
    BitVec.toInt_ofInt _
  rw [BitVec.toInt_ofInt, hrssi, relativeLevel]
  simp only [Int.bmod_def]
  omega

/-! ## The threshold -/

theorem toInt_csThresholdSet (level : U8) (s : Fw) :
    (csThresholdSet level s).csThresholdCur.toInt = clampLevel level.toInt := by
  obtain ⟨hlo, hhi⟩ := clampLevel_range level.toInt
  have hset : (csThresholdSet level s).csThresholdCur = BitVec.ofInt 8 (clampLevel level.toInt) :=
    rfl
  rw [hset, BitVec.toInt_ofInt, Int.bmod_def]
  omega

theorem csNoSquelch_csThresholdSet (level : U8) (s : Fw) :
    (csThresholdSet level s).csNoSquelch = decide (clampLevel level.toInt = -120) := by
  have hset : (csThresholdSet level s).csNoSquelch = decide (clampLevel level.toInt ≤ -120) := rfl
  obtain ⟨hlo, -⟩ := clampLevel_range level.toInt
  rw [hset, decide_eq_decide]
  omega

/-- A relative request, with the sum cut to an octet. -/
theorem csThresholdCalcAndSet_relative (h : RelativeSquelch s) :
    (csThresholdCalcAndSet s).csThresholdCur.toInt = clampLevel ((relativeLevel s).bmod 256) ∧
      (csThresholdCalcAndSet s).csNoSquelch =
        decide (clampLevel ((relativeLevel s).bmod 256) = -120) := by
  unfold csThresholdCalcAndSet
  rw [if_pos ⟨h.hopMode, h.request⟩, toInt_csThresholdSet, csNoSquelch_csThresholdSet,
    toInt_level]
  exact ⟨rfl, rfl⟩

/-- Past either end of an octet the sum comes out beyond the other end of the range. -/
theorem clampLevel_bmod_iff (h : RelativeSquelch s) :
    clampLevel ((relativeLevel s).bmod 256) = clampLevel (relativeLevel s) ↔ LevelFits s := by
  obtain ⟨hlo, hhi⟩ := channelRssi_range s
  have hreq := h.request
  have hmax : s.csThresholdReq.toInt < 128 := BitVec.toInt_lt
  unfold LevelFits clampLevel relativeLevel
  rw [Int.bmod_def]
  omega

theorem saturates_iff (h : RelativeSquelch s) : Saturates s ↔ LevelFits s := by
  obtain ⟨hcur, hno⟩ := csThresholdCalcAndSet_relative h
  constructor
  · intro hsaturates
    exact (clampLevel_bmod_iff h).1 (hcur.symm.trans hsaturates.threshold)
  · intro hfits
    rw [(clampLevel_bmod_iff h).2 hfits] at hcur hno
    exact ⟨hcur, hno⟩

/-- **The relative squelch.** The threshold is the clamped sum exactly where the sum fits an octet;
and there it is monotone in the request and in the RSSI. -/
theorem squelch_saturates_iff (h : RelativeSquelch s) :
    (Saturates s ↔ LevelFits s) ∧
      ∀ s', RelativeSquelch s' → LevelFits s → LevelFits s' →
        channelRssi s ≤ channelRssi s' → s.csThresholdReq.toInt ≤ s'.csThresholdReq.toInt →
        (csThresholdCalcAndSet s).csThresholdCur.toInt ≤
          (csThresholdCalcAndSet s').csThresholdCur.toInt := by
  refine ⟨saturates_iff h, fun s' h' hfits hfits' hrssi hreq => ?_⟩
  rw [((saturates_iff h).2 hfits).threshold, ((saturates_iff h').2 hfits').threshold]
  exact clampLevel_mono (by unfold relativeLevel; omega)

/-- A channel at an RSSI of `rssi`, and a request. -/
def sweptAt (rssi : ℤ) (req : U8) : Fw :=
  { hopMode := .sweep, channel := 2402, csThresholdReq := req
    rssiIir := Vector.replicate 79 (BitVec.ofInt 16 (rssi * 256)) }

/-- Requests of 20 at -60 and of 30 at -50. -/
theorem squelch_saturates_iff_swept : Saturates (sweptAt (-60) 20) ∧
    (csThresholdCalcAndSet (sweptAt (-60) 20)).csThresholdCur.toInt ≤
      (csThresholdCalcAndSet (sweptAt (-50) 30)).csThresholdCur.toInt := by
  have hfits : LevelFits (sweptAt (-60) 20) := ⟨by decide +kernel, by decide +kernel⟩
  have hfits' : LevelFits (sweptAt (-50) 30) := ⟨by decide +kernel, by decide +kernel⟩
  obtain ⟨hiff, hmono⟩ := squelch_saturates_iff (s := sweptAt (-60) 20) ⟨by decide, by decide⟩
  exact ⟨hiff.2 hfits, hmono (sweptAt (-50) 30) ⟨by decide, by decide⟩ hfits hfits'
    (by decide +kernel) (by decide)⟩

/-- Where a channel has been as faint as can be for 80 blocks, the least request above zero gives
the highest threshold, in place of the lowest. -/
def faintBlocks : Device := rssiIirUpdate^[80] {
  fw := { hopMode := .sweep, channel := 2402, rssiCount := 1 }
  rssiSum := BitVec.ofInt 32 (-128 * 256) }

theorem not_saturates_faintBlocks :
    RelativeSquelch { faintBlocks.fw with csThresholdReq := 1 } ∧
      relativeLevel { faintBlocks.fw with csThresholdReq := 1 } = -130 ∧
      (vendorRequestHandler faintBlocks (.setSquelch 1)).fw.csThresholdCur.toInt = -20 ∧
      ¬∀ s, RelativeSquelch s → Saturates s := by
  have hrelative : RelativeSquelch { faintBlocks.fw with csThresholdReq := 1 } :=
    ⟨by decide +kernel, by decide +kernel⟩
  refine ⟨hrelative, by decide +kernel, by decide +kernel, fun hall => ?_⟩
  exact absurd (hall _ hrelative).threshold (by decide +kernel)

end Ubertooth.Capture
