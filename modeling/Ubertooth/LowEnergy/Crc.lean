import Ubertooth.Foundations.ShiftRegister
import Ubertooth.Firmware.BluetoothLe

/-!
# The CRC routines are one shift register

The three routines of `bluetooth_le.c` work on 32-bit words and differ in their masks and in the
order of octets and bits. Each is the 24-bit shift register with taps `0xda6000`, seen through
`setWidth 32`: `btle_calc_crc` feeds it the octets least significant bit first
(`btleCalcCrc_eq_feed`), `btle_crcgen_lut` feeds it an octet at a time from its table
(`btleCrcgenLut_eq_feed`), and `btle_reverse_crc` takes the same bits back out and reverses the
register (`btleReverseCrc_eq_unfeed`). What the routines have to do with each other then follows
from the register alone.
-/

namespace Ubertooth.LowEnergy

open Firmware Foundations.ShiftRegister

/-- The taps: bit 23, which `btle_calc_crc` sets by an OR, and its mask `0x5a6000`. -/
def crcTaps : BitVec 24 := 0xda6000

theorem msb_crcTaps : crcTaps.msb = true := by decide

/-- The bits of a list of octets in on-air order. -/
def onAirBits (data : List U8) : List Bool := data.flatMap (bits 8)

@[simp] theorem onAirBits_nil : onAirBits [] = [] := rfl

@[simp] theorem onAirBits_cons (c : U8) (data : List U8) :
    onAirBits (c :: data) = bits 8 c ++ onAirBits data := rfl

/-! ## One bit -/

theorem lsb_word (s : BitVec 24) (c : U8) :
    (s.setWidth 32 ^^^ c.setWidth 32) &&& 1 =
      (BitVec.ofBool (s.getLsbD 0 ^^ c.getLsbD 0)).setWidth 32 := by
  have h := BitVec.and_one_eq_setWidth_ofBool_getLsbD (x := s.setWidth 32 ^^^ c.setWidth 32)
  rw [BitVec.getLsbD_xor, BitVec.getLsbD_setWidth, BitVec.getLsbD_setWidth] at h
  simpa using h

/-- Setting bit 23 of a register whose bit 23 is clear, then adding the mask, adds the taps. -/
theorem or_top_xor_mask (x : BitVec 24) (hx : x.getLsbD 23 = false) :
    (x.setWidth 32 ||| ((1 : U32) <<< 23)) ^^^ (0x5a6000 : U32) = (x ^^^ crcTaps).setWidth 32 := by
  have hor : x.setWidth 32 ||| ((1 : U32) <<< 23) = x.setWidth 32 ^^^ (0x800000 : U32) := by
    apply BitVec.eq_of_getLsbD_eq
    intro i hi
    have htop : (0x800000 : U32).getLsbD i = decide (i = 23) := by
      rw [show (0x800000 : U32) = BitVec.twoPow 32 23 from rfl, BitVec.getLsbD_twoPow]
      simp [eq_comm]
    rw [show ((1 : U32) <<< 23) = 0x800000 from rfl, BitVec.getLsbD_or, BitVec.getLsbD_xor, htop,
      BitVec.getLsbD_setWidth]
    by_cases h23 : i = 23
    · subst h23
      simp only [hx, Bool.and_false, Bool.false_or, Bool.false_xor]
    · simp [h23]
  rw [hor, BitVec.xor_assoc, BitVec.setWidth_xor]
  rfl

theorem calcCrcBit_eq (s : BitVec 24) (c : U8) :
    calcCrcBit (s.setWidth 32, c) = ((shiftIn crcTaps s (c.getLsbD 0)).setWidth 32, c >>> 1) := by
  have hshift : s.setWidth 32 >>> 1 = (s >>> 1).setWidth 32 := by
    rw [BitVec.setWidth_ushiftRight (by omega)]
  have htop : (s >>> 1).getLsbD 23 = false := by simp
  simp only [calcCrcBit, shiftIn, lsb_word, hshift]
  cases s.getLsbD 0 ^^ c.getLsbD 0 with
  | false => simp
  | true => simpa using or_top_xor_mask (s >>> 1) htop

/-- The word that carries one bit. -/
theorem top_word (s : BitVec 24) : s.setWidth 32 >>> 23 = (BitVec.ofBool s.msb).setWidth 32 := by
  apply BitVec.eq_of_getLsbD_eq
  intro i hi
  rw [BitVec.getLsbD_ushiftRight, BitVec.getLsbD_setWidth, BitVec.getLsbD_setWidth,
    BitVec.msb_eq_getLsbD_last]
  cases i with
  | zero => simp
  | succ i =>
    rw [BitVec.getLsbD_of_ge s _ (by omega), BitVec.getLsbD_of_ge _ _ (by omega)]
    simp

theorem bit_word (c : U8) (i : ℕ) :
    ((c >>> i) &&& 1).setWidth 32 = (BitVec.ofBool (c.getLsbD i)).setWidth 32 := by
  have h := BitVec.and_one_eq_setWidth_ofBool_getLsbD (x := c >>> i)
  rw [BitVec.getLsbD_ushiftRight, Nat.add_zero] at h
  rw [show (1 : U8) = 1#8 from rfl, h]
  cases c.getLsbD i <;> rfl

theorem shl_word (s : BitVec 24) :
    (s.setWidth 32 <<< 1) &&& (0xffffff : U32) = (s <<< 1).setWidth 32 := by
  have hmask : (0xffffff : U32) = (BitVec.allOnes 24).setWidth 32 := rfl
  apply BitVec.eq_of_getLsbD_eq
  intro i hi
  rw [hmask, BitVec.getLsbD_and, BitVec.getLsbD_setWidth, BitVec.getLsbD_shiftLeft,
    BitVec.getLsbD_setWidth, BitVec.getLsbD_setWidth, BitVec.getLsbD_shiftLeft,
    BitVec.getLsbD_allOnes]
  by_cases h24 : i < 24
  · simp [hi, h24, show i - 1 < 32 by omega]
  · simp [h24]

theorem reverseCrcBit_eq (s : BitVec 24) (c : U8) (j : ℕ) :
    reverseCrcBit c (s.setWidth 32) j =
      (shiftOut crcTaps s (c.getLsbD (7 - j))).setWidth 32 := by
  have hmask : (0xb4c000 : U32) = (crcTaps <<< 1).setWidth 32 := by decide
  have hadd : (s ^^^ crcTaps) <<< 1 = (s <<< 1) ^^^ (crcTaps <<< 1) :=
    BitVec.shiftLeft_xor_distrib s crcTaps 1
  simp only [reverseCrcBit, shiftOut, top_word, bit_word, shl_word, hmask]
  generalize c.getLsbD (7 - j) = b
  cases hs : s.msb with
  | false => cases b <;> simp [BitVec.setWidth_or]
  | true =>
    -- the mask has a clear bit 0, so it may be added before or after that bit is set
    have hlow : ∀ x y : U32, y[0] = false → (x ||| 1#32) ^^^ y = (x ^^^ y) ||| 1#32 := by
      intro x y hy
      apply BitVec.eq_of_getLsbD_eq
      intro i hi
      cases i <;> simp [hy, BitVec.getLsbD_one]
    simp only [if_true, hadd]
    cases b <;> simp [BitVec.setWidth_or, BitVec.setWidth_xor, hlow]

/-! ## One octet -/

theorem calcCrcBit_iterate (n : ℕ) (s : BitVec 24) (c : U8) :
    calcCrcBit^[n] (s.setWidth 32, c) =
      ((feed crcTaps s (bits n c)).setWidth 32, c >>> n) := by
  induction n generalizing s c with
  | zero => simp [bits]
  | succ n ih =>
    rw [Function.iterate_succ_apply, calcCrcBit_eq, ih, bits_succ, feed_cons,
      ← BitVec.shiftRight_add, Nat.add_comm 1 n]

theorem calcCrcByte_eq (s : BitVec 24) (c : U8) :
    calcCrcByte (s.setWidth 32) c = (feed crcTaps s (bits 8 c)).setWidth 32 := by
  rw [calcCrcByte, calcCrcBit_iterate]

theorem foldl_reverseCrcBit (s : BitVec 24) (c : U8) (js : List ℕ) :
    js.foldl (reverseCrcBit c) (s.setWidth 32) =
      (unfeed crcTaps s (js.map fun j => c.getLsbD (7 - j))).setWidth 32 := by
  induction js generalizing s with
  | nil => rfl
  | cons j js ih =>
    rw [List.foldl_cons, reverseCrcBit_eq, ih, List.map_cons]
    rfl

theorem reverseCrcByte_eq (s : BitVec 24) (c : U8) :
    reverseCrcByte (s.setWidth 32) c = (unfeed crcTaps s (bits 8 c).reverse).setWidth 32 :=
  foldl_reverseCrcBit s c (List.range 8)

/-- The table is what the register makes of each octet. -/
theorem btleCrcLut_get (k : Fin 256) :
    btleCrcLut.get k = (feed crcTaps 0#24 (bits 8 (BitVec.ofFin k : U8))).setWidth 32 := by
  revert k
  decide +kernel

theorem crcgenLutByte_eq (s : BitVec 24) (c : U8) :
    crcgenLutByte (s.setWidth 32) c = (feed crcTaps s (bits 8 c)).setWidth 32 := by
  have hshift : s.setWidth 32 >>> 8 = (s >>> 8).setWidth 32 := by
    rw [BitVec.setWidth_ushiftRight (by omega)]
  have hlow : (s.setWidth 32 &&& (0xff : U32)).setWidth 8 = s.setWidth 8 := by
    have hmask : (0xff : U32).setWidth 8 = BitVec.allOnes 8 := rfl
    rw [BitVec.setWidth_and, hmask, BitVec.and_allOnes,
      BitVec.setWidth_setWidth_of_le s (by omega)]
  rw [crcgenLutByte, hlow, hshift, btleCrcLut_get, feed_bits_table s c, BitVec.setWidth_xor,
    BitVec.xor_comm c]

/-! ## Whole packets -/

/-- A word and its low 24 bits. -/
theorem and_mask24 (x : U32) : x &&& 0xffffff = (x.setWidth 24).setWidth 32 := by
  apply BitVec.eq_of_getLsbD_eq
  intro i hi
  have hmask : (0xffffff : U32) = (BitVec.allOnes 24).setWidth 32 := rfl
  rw [hmask, BitVec.getLsbD_and, BitVec.getLsbD_setWidth, BitVec.getLsbD_allOnes,
    BitVec.getLsbD_setWidth, BitVec.getLsbD_setWidth]
  simp [hi, Bool.and_comm]

theorem setWidth_setWidth_word (s : BitVec 24) : (s.setWidth 32).setWidth 24 = s := by
  rw [BitVec.setWidth_setWidth_of_le s (by omega), BitVec.setWidth_eq]

/-- A loop over octets that feeds the register one octet at a time feeds it all their bits. -/
theorem foldl_feed {f : U32 → U8 → U32}
    (hf : ∀ (s : BitVec 24) c, f (s.setWidth 32) c = (feed crcTaps s (bits 8 c)).setWidth 32)
    (s : BitVec 24) (data : List U8) :
    data.foldl f (s.setWidth 32) = (feed crcTaps s (onAirBits data)).setWidth 32 := by
  induction data generalizing s with
  | nil => rfl
  | cons c data ih => rw [List.foldl_cons, hf, ih, onAirBits_cons, feed_append]

/-- `btle_calc_crc` feeds the register. -/
theorem btleCalcCrc_eq_feed (x : U32) (data : List U8) (len : ℕ) :
    btleCalcCrc x data len =
      (feed crcTaps (x.setWidth 24) (onAirBits (data.take len))).setWidth 32 := by
  rw [btleCalcCrc, and_mask24, foldl_feed calcCrcByte_eq]

/-- `btle_crcgen_lut` feeds the register. -/
theorem btleCrcgenLut_eq_feed (x : U32) (data : List U8) (len : ℕ) :
    btleCrcgenLut x data len =
      (feed crcTaps (x.setWidth 24) (onAirBits (data.take len))).setWidth 32 := by
  rw [btleCrcgenLut, and_mask24, foldl_feed crcgenLutByte_eq]

theorem foldl_reverseCrcByte (s : BitVec 24) (data : List U8) :
    data.reverse.foldl reverseCrcByte (s.setWidth 32) =
      (unfeed crcTaps s (onAirBits data).reverse).setWidth 32 := by
  induction data generalizing s with
  | nil => rfl
  | cons c data ih =>
    rw [List.reverse_cons, List.foldl_append, ih, List.foldl_cons, List.foldl_nil,
      reverseCrcByte_eq, onAirBits_cons, List.reverse_append, unfeed_append]

/-- The first `n` passes of the loop of `reverse24`. -/
theorem getLsbD_reverse24_pass (x : U32) {n : ℕ} (hn : n ≤ 24) (i : ℕ) :
    ((List.range n).foldl
      (fun (ret : U32) (i : ℕ) => ret ||| (((x >>> i) &&& 1) <<< (23 - i))) 0).getLsbD i =
      (decide (i < 24 ∧ 24 - n ≤ i) && x.getLsbD (23 - i)) := by
  induction n with
  | zero =>
    have hnone : ¬(i < 24 ∧ 24 ≤ i) := by omega
    simp [hnone]
  | succ n ih =>
    have hbit : (x >>> n) &&& (1 : U32) = (BitVec.ofBool (x.getLsbD n)).setWidth 32 := by
      have h := BitVec.and_one_eq_setWidth_ofBool_getLsbD (x := x >>> n)
      rwa [BitVec.getLsbD_ushiftRight, Nat.add_zero] at h
    rw [List.range_succ, List.foldl_append, List.foldl_cons, List.foldl_nil, BitVec.getLsbD_or,
      ih (by omega), hbit, BitVec.getLsbD_shiftLeft, BitVec.getLsbD_setWidth]
    by_cases hi : i = 23 - n
    · subst hi
      have hlt : 23 - n < 24 ∧ 24 - (n + 1) ≤ 23 - n := by omega
      have hback : 23 - (23 - n) = n := by omega
      simp [hlt, hback, show 23 - n < 32 by omega]
    · have hiff : decide (i < 24 ∧ 24 - (n + 1) ≤ i) = decide (i < 24 ∧ 24 - n ≤ i) :=
        decide_eq_decide.2 (by omega)
      have hzero : (BitVec.ofBool (x.getLsbD n)).getLsbD (i - (23 - n)) = false ∨ i < 23 - n := by
        rcases Nat.lt_or_ge i (23 - n) with hlt | hge
        · exact Or.inr hlt
        · exact Or.inl (BitVec.getLsbD_of_ge _ _ (by omega))
      rw [hiff]
      rcases hzero with hzero | hzero <;> simp [hzero]

/-- The last loop of `btle_reverse_crc` reverses the low 24 bits. -/
theorem reverse24_eq (x : U32) : reverse24 x = ((x.setWidth 24).reverse).setWidth 32 := by
  apply BitVec.eq_of_getLsbD_eq
  intro i hi
  rw [reverse24, getLsbD_reverse24_pass x (Nat.le_refl 24), BitVec.getLsbD_setWidth,
    BitVec.getLsbD_reverse, BitVec.getMsbD_eq_getLsbD, BitVec.getLsbD_setWidth]
  by_cases h24 : i < 24
  · simp [h24, hi, show 23 - i < 24 by omega]
  · simp [h24]

/-- `btle_reverse_crc` takes the bits back out of the register, and reverses it. -/
theorem btleReverseCrc_eq_unfeed (c : BitVec 24) (data : List U8) (len : ℕ) :
    btleReverseCrc (c.setWidth 32) data len =
      (unfeed crcTaps c (onAirBits (data.take len)).reverse).reverse.setWidth 32 := by
  rw [btleReverseCrc, foldl_reverseCrcByte, reverse24_eq, setWidth_setWidth_word]

/-- **The table and the bitwise loop compute the same CRC**, from every seed and over any number of
octets. -/
theorem btleCrcgenLut_eq_btleCalcCrc (x : U32) (data : List U8) (len : ℕ) :
    btleCrcgenLut x data len = btleCalcCrc x data len := by
  rw [btleCrcgenLut_eq_feed, btleCalcCrc_eq_feed]

/-- Running backwards undoes running forwards. -/
theorem btleReverseCrc_btleCalcCrc (s : BitVec 24) (data : List U8) (len : ℕ) :
    btleReverseCrc (btleCalcCrc (s.setWidth 32) data len) data len = s.reverse.setWidth 32 := by
  rw [btleCalcCrc_eq_feed, btleReverseCrc_eq_unfeed, setWidth_setWidth_word,
    unfeed_feed msb_crcTaps]

/-- Running forwards from the register recovered undoes running backwards. -/
theorem btleCalcCrc_btleReverseCrc (c : BitVec 24) (data : List U8) (len : ℕ) :
    btleCalcCrc (reverse24 (btleReverseCrc (c.setWidth 32) data len)) data len =
      c.setWidth 32 := by
  rw [btleReverseCrc_eq_unfeed, reverse24_eq, setWidth_setWidth_word, BitVec.reverse_reverse_eq,
    btleCalcCrc_eq_feed, setWidth_setWidth_word, feed_unfeed msb_crcTaps]

end Ubertooth.LowEnergy
