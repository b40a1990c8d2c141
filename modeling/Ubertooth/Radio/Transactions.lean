import Ubertooth.Firmware.Spi
import Ubertooth.Foundations.Runs
import Ubertooth.Foundations.SerialWord

/-!
# Transactions with the radio

On the wires of the CC2400 a transaction is a period in which CSN is low, and its word is the level
of MOSI at each rising edge of SCLK. `cc2400_spi` has one shift register for both directions: the
bits received enter it at the bottom as the bits sent leave at the top (`spiLoop_eq`), so that each
call is one transaction with the word it was given and returns the levels of MISO
(`cc2400Spi_exact`). Whatever is called one after the other, the radio sees the words of the calls
(`words_run_calls`).
-/

namespace Ubertooth.Radio

open Firmware Foundations

/-! ## The wires -/

/-- The wires as the radio sees them. -/
structure Wires where
  csn : Bool := true
  sclk : Bool := false
  mosi : Bool := false
  /-- the bits of the transaction under way -/
  word : List Bool := []
  /-- the words of the transactions that are over -/
  words : List (List Bool) := []
  deriving DecidableEq, Repr

/-- What the radio makes of what is done to a pin. -/
def Wires.drive (x : Wires) : PinOp → Wires
  | .csn false => { x with csn := false }
  | .csn true =>
    { x with csn := true, word := [], words := if x.csn then x.words else x.words ++ [x.word] }
  | .sclk level =>
    { x with
      sclk := level
      word := if level && !x.sclk && !x.csn then x.word ++ [x.mosi] else x.word }
  | .mosi level => { x with mosi := level }
  | .miso _ => x

/-- No transaction is under way. -/
structure Wires.Idle (x : Wires) : Prop where
  csn : x.csn = true
  sclk : x.sclk = false
  word : x.word = []

/-- A pulse of the clock, with the bit sent and the bit received. -/
def pulse (bit : Bool × Bool) : List PinOp :=
  [.mosi bit.1, .sclk true, .miso bit.2, .sclk false]

/-- A pulse of the clock, with a bit sent. -/
def pulseOut (bit : Bool) : List PinOp := [.mosi bit, .sclk true, .sclk false]

/-- A transaction of so many pulses. -/
def transfer (bits : List (Bool × Bool)) : List PinOp :=
  .csn false :: bits.flatMap pulse ++ [.csn true]

/-- The radio takes a bit for each pulse. -/
theorem run_flatMap_pulse {β : Type*} {p : β → List PinOp} {bit : β → Bool}
    (hp : ∀ b (x : Wires), x.csn = false → x.sclk = false →
      run Wires.drive x (p b) = { x with mosi := bit b, word := x.word ++ [bit b] })
    (bs : List β) (x : Wires) (hcsn : x.csn = false) (hsclk : x.sclk = false) :
    run Wires.drive x (bs.flatMap p) =
      { x with mosi := (bs.map bit).getLastD x.mosi, word := x.word ++ bs.map bit } := by
  induction bs generalizing x with
  | nil => simp
  | cons b bs ih =>
    have hrest := ih { x with mosi := bit b, word := x.word ++ [bit b] } hcsn hsclk
    rw [List.flatMap_cons, run_append, hp b x hcsn hsclk, hrest, List.map_cons,
      List.getLastD_cons]
    simp only [List.append_assoc, List.singleton_append]

theorem run_pulse (bit : Bool × Bool) (x : Wires) (hcsn : x.csn = false) (hsclk : x.sclk = false) :
    run Wires.drive x (pulse bit) = { x with mosi := bit.1, word := x.word ++ [bit.1] } := by
  simp [pulse, Wires.drive, hcsn, hsclk]

theorem run_pulseOut (bit : Bool) (x : Wires) (hcsn : x.csn = false) (hsclk : x.sclk = false) :
    run Wires.drive x (pulseOut bit) = { x with mosi := bit, word := x.word ++ [bit] } := by
  simp [pulseOut, Wires.drive, hcsn, hsclk]

/-- The radio sees one transaction, with the word `sent`. -/
structure Sends (ops : List PinOp) (sent : List Bool) : Prop where
  idle : ∀ x : Wires, x.Idle → (run Wires.drive x ops).Idle
  words : ∀ x : Wires, x.Idle → (run Wires.drive x ops).words = x.words ++ [sent]

/-- What happens between the edges of CSN is one transaction. -/
theorem sends_of_run {ops : List PinOp} {sent : List Bool}
    (h : ∀ x : Wires, x.csn = false → x.sclk = false →
      ∃ level, run Wires.drive x ops = { x with mosi := level, word := x.word ++ sent }) :
    Sends (.csn false :: ops ++ [.csn true]) sent := by
  have hrun : ∀ x : Wires, x.Idle → ∃ level, run Wires.drive x (.csn false :: ops ++ [.csn true]) =
      { x with mosi := level, words := x.words ++ [sent] } := by
    intro x hx
    obtain ⟨level, hops⟩ := h (x.drive (.csn false)) rfl hx.sclk
    refine ⟨level, ?_⟩
    rw [List.cons_append, run_cons, run_append, hops, run_cons, run_nil]
    simp [Wires.drive, hx.csn, hx.word]
  constructor
  · intro x hx
    obtain ⟨level, hrun⟩ := hrun x hx
    rw [hrun]
    exact ⟨hx.csn, hx.sclk, hx.word⟩
  · intro x hx
    obtain ⟨level, hrun⟩ := hrun x hx
    rw [hrun]

theorem sends_transfer (bits : List (Bool × Bool)) :
    Sends (transfer bits) (bits.map Prod.fst) :=
  sends_of_run fun x hcsn hsclk => ⟨_, run_flatMap_pulse run_pulse bits x hcsn hsclk⟩

/-! ## The shift register -/

/-- The levels of MISO at the first readings. -/
def levels (miso : ℕ → Bool) (n : ℕ) : List Bool := (List.range n).map miso

@[simp] theorem length_levels (miso : ℕ → Bool) (n : ℕ) : (levels miso n).length = n := by
  simp [levels]

theorem levels_succ (miso : ℕ → Bool) (n : ℕ) :
    levels miso (n + 1) = levels miso n ++ [miso n] := by
  simp [levels, List.range_succ]

theorem levels_add (miso : ℕ → Bool) (a b : ℕ) :
    levels miso (a + b) = levels miso a ++ levels (fun k => miso (a + k)) b := by
  simp [levels, List.range_add]

theorem shiftConcat_eq (data : U32) (b : Bool) :
    (if b then (data <<< 1) ||| 1 else data <<< 1) = data.shiftConcat b := by
  apply BitVec.eq_of_getLsbD_eq
  intro i hi
  rw [BitVec.getLsbD_shiftConcat]
  cases b <;> cases i <;> simp [hi, BitVec.getLsbD_eq_getElem, Nat.lt_of_succ_lt]

/-- The mask picks one bit. -/
theorem and_msb {w : ℕ} (data : BitVec w) (j : ℕ) (hj : j < w) :
    decide (data &&& ((1 : BitVec w) <<< j) ≠ 0) = data.getLsbD j := by
  have htwo : (1 : BitVec w) <<< j = BitVec.twoPow w j := (BitVec.twoPow_eq w j).symm
  rw [htwo, BitVec.and_twoPow]
  have hne : BitVec.twoPow w j ≠ 0 := by
    intro h
    have hbit := congrArg (fun c => c.getLsbD j) h
    simp [hj] at hbit
  cases data.getLsbD j
  case false => simp
  case true => simpa using hne

/-- After `k` rounds the register holds the levels of MISO below the bits that are still to be
sent; the rest of the loop sends those. -/
theorem spiLoop_eq (miso : ℕ → Bool) (data : U32) {len : ℕ} (hlen : len ≤ 32) (n k : ℕ)
    (hk : k + n = len) :
    spiLoop miso ((1 : U32) <<< (len - 1)) n k ((levels miso k).foldl BitVec.shiftConcat data) =
      (((msbFirst n data).zip (levels (fun i => miso (k + i)) n)).flatMap pulse,
        (levels miso len).foldl BitVec.shiftConcat data) := by
  induction n generalizing k with
  | zero => rw [spiLoop, ← hk]; rfl
  | succ n ih =>
    have hbit : decide ((levels miso k).foldl BitVec.shiftConcat data &&& ((1 : U32) <<< (len - 1))
        ≠ 0) = data.getLsbD n := by
      rw [and_msb _ _ (by omega), show len - 1 = n + (levels miso k).length by simp; omega,
        getLsbD_foldl_shiftConcat _ _ (by simp; omega)]
    have hnext : ((levels miso k).foldl BitVec.shiftConcat data).shiftConcat (miso k) =
        (levels miso (k + 1)).foldl BitVec.shiftConcat data := by
      rw [levels_succ, List.foldl_append, List.foldl_cons, List.foldl_nil]
    have hlevels : levels (fun i => miso (k + i)) (n + 1) =
        miso k :: levels (fun i => miso (k + 1 + i)) n := by
      rw [Nat.add_comm n 1, levels_add]
      simp [levels, Nat.add_assoc]
    rw [spiLoop, hbit, shiftConcat_eq, hnext, ih (k + 1) (by omega), hlevels, msbFirst_succ,
      List.zip_cons_cons, List.flatMap_cons, pulse]

theorem cc2400Spi_eq (miso : ℕ → Bool) (len : U8) (data : U32) (hlen : len.toNat ≤ 32) :
    cc2400Spi miso len data =
      (transfer ((msbFirst len.toNat data).zip (levels miso len.toNat)),
        (levels miso len.toNat).foldl BitVec.shiftConcat data) := by
  have hloop := spiLoop_eq miso data hlen len.toNat 0 (by omega)
  simp only [Nat.zero_add] at hloop
  rw [cc2400Spi]
  change (_, _) = _
  rw [show data = (levels miso 0).foldl BitVec.shiftConcat data from rfl, hloop]
  rfl

/-- The operations are one transaction, in which `sent` goes out and `received` comes in. -/
structure IsTransaction (ops : List PinOp) (sent received : List Bool) : Prop extends
    Sends ops sent where
  pulses : ops = transfer (sent.zip received)

theorem isTransaction_transfer {sent received : List Bool} (h : sent.length = received.length) :
    IsTransaction (transfer (sent.zip received)) sent received where
  toSends := by
    have hsends := sends_transfer (sent.zip received)
    rwa [List.map_fst_zip h.le] at hsends
  pulses := rfl

theorem cc2400Spi_transaction (miso : ℕ → Bool) (len : U8) (data : U32) (hlen : len.toNat ≤ 32) :
    IsTransaction (cc2400Spi miso len data).1 (msbFirst len.toNat data)
      (levels miso len.toNat) := by
  rw [cc2400Spi_eq miso len data hlen]
  exact isTransaction_transfer (by simp)

/-- What is returned ends with the levels of MISO. -/
theorem msbFirst_cc2400Spi (miso : ℕ → Bool) (len : U8) (data : U32) (hlen : len.toNat ≤ 32) :
    msbFirst len.toNat (cc2400Spi miso len data).2 = levels miso len.toNat := by
  have h := msbFirst_foldl_shiftConcat data (levels miso len.toNat) (by simpa using hlen)
  rw [length_levels] at h
  rw [cc2400Spi_eq miso len data hlen, h]

/-! ## Registers -/

/-- A register octet, and the value after it. -/
theorem msbFirst_append {v w m : ℕ} (a : ℕ) (reg : BitVec v) (val : BitVec w) (hm : v + w ≤ m) :
    msbFirst (a + w) ((reg.setWidth m <<< w) ||| val.setWidth m) =
      msbFirst a reg ++ msbFirst w val := by
  rw [msbFirst_add]
  congr 1
  · refine msbFirst_congr fun i _ => ?_
    rw [BitVec.getLsbD_ushiftRight, BitVec.getLsbD_or, BitVec.getLsbD_shiftLeft,
      BitVec.getLsbD_setWidth, BitVec.getLsbD_setWidth, BitVec.getLsbD_of_ge val (w + i) (by omega)]
    by_cases hi : i < v
    · simp [show w + i < m by omega, show i < m by omega]
    · simp [BitVec.getLsbD_of_ge reg i (by omega)]
  · refine msbFirst_congr fun i hi => ?_
    rw [BitVec.getLsbD_or, BitVec.getLsbD_shiftLeft, BitVec.getLsbD_setWidth]
    simp [hi, show i < m by omega]

theorem msbFirst_zero_word {w : ℕ} (n : ℕ) :
    msbFirst n (0 : BitVec w) = List.replicate n false := by
  induction n with
  | zero => rfl
  | succ n ih => rw [msbFirst_succ, ih, List.replicate_succ, BitVec.ofNat_eq_ofNat,
      BitVec.getLsbD_zero]

/-- What goes out to read a register: its octet with bit 7 set, and zeros. -/
theorem msbFirst_read {m n : ℕ} (reg : U8) (hm : 8 + n ≤ m) :
    msbFirst (8 + n) ((reg.setWidth m ||| 0x80) <<< n) =
      msbFirst 8 (reg ||| 0x80) ++ List.replicate n false := by
  have hreg : (reg.setWidth m ||| 0x80) <<< n =
      ((reg ||| 0x80).setWidth m <<< n) ||| (0 : BitVec n).setWidth m := by
    have hbit : (0x80 : U8).setWidth m = 0x80 :=
      BitVec.eq_of_toNat_eq (by simp [BitVec.toNat_setWidth])
    rw [BitVec.setWidth_or, hbit]
    simp
  rw [hreg, msbFirst_append 8 _ _ hm, msbFirst_zero_word]

theorem cc2400Set_transaction (miso : ℕ → Bool) (reg : U8) (val : U16) :
    IsTransaction (cc2400Set miso reg val) (msbFirst 8 reg ++ msbFirst 16 val)
      (levels miso 24) := by
  have h := cc2400Spi_transaction miso 24 ((reg.setWidth 32 <<< 16) ||| val.setWidth 32) (by simp)
  rwa [show BitVec.toNat (24 : U8) = 8 + 16 from rfl, msbFirst_append 8 reg val (by omega)] at h

theorem cc2400Get_transaction (miso : ℕ → Bool) (reg : U8) :
    IsTransaction (cc2400Get miso reg).1
      (msbFirst 8 (reg ||| 0x80) ++ List.replicate 16 false) (levels miso 24) := by
  have h := cc2400Spi_transaction miso 24 ((reg.setWidth 32 ||| 0x80) <<< 16) (by simp)
  rwa [show BitVec.toNat (24 : U8) = 8 + 16 from rfl, msbFirst_read reg (by omega)] at h

/-- The last bits returned, as a number. -/
theorem toNat_cc2400Spi_mod (miso : ℕ → Bool) (len : U8) (data : U32) (hlen : len.toNat ≤ 32)
    {a b : ℕ} (hab : len.toNat = a + b) : (cc2400Spi miso len data).2.toNat % 2 ^ b =
      ofMsbFirst ((levels miso len.toNat).drop a) := by
  rw [← msbFirst_cc2400Spi miso len data hlen, hab, msbFirst_add,
    List.drop_left' (length_msbFirst a _), ofMsbFirst_msbFirst]

theorem toNat_cc2400Get (miso : ℕ → Bool) (reg : U8) :
    (cc2400Get miso reg).2.toNat = ofMsbFirst ((levels miso 24).drop 8) := by
  have h := toNat_cc2400Spi_mod miso 24 ((reg.setWidth 32 ||| 0x80) <<< 16) (by simp)
    (show BitVec.toNat (24 : U8) = 8 + 16 from rfl)
  rw [cc2400Get, BitVec.toNat_setWidth, BitVec.toNat_and]
  rw [show BitVec.toNat (0xffff : U32) = 2 ^ 16 - 1 from rfl, Nat.and_two_pow_sub_one_eq_mod,
    Nat.mod_mod]
  exact h

/-- **An exact transfer**, for every length up to the width of the register. -/
theorem cc2400Spi_exact (miso : ℕ → Bool) :
    (∀ (len : U8) (data : U32), 1 ≤ len.toNat → len.toNat ≤ 32 →
      IsTransaction (cc2400Spi miso len data).1 (msbFirst len.toNat data)
          (levels miso len.toNat) ∧
        msbFirst len.toNat (cc2400Spi miso len data).2 = levels miso len.toNat) ∧
    (∀ (reg : U8) (val : U16), IsTransaction (cc2400Set miso reg val)
      (msbFirst 8 reg ++ msbFirst 16 val) (levels miso 24)) ∧
    ∀ reg : U8, IsTransaction (cc2400Get miso reg).1
        (msbFirst 8 (reg ||| 0x80) ++ List.replicate 16 false) (levels miso 24) ∧
      (cc2400Get miso reg).2.toNat = ofMsbFirst ((levels miso 24).drop 8) :=
  ⟨fun len data _ hlen =>
      ⟨cc2400Spi_transaction miso len data hlen, msbFirst_cc2400Spi miso len data hlen⟩,
    cc2400Set_transaction miso,
    fun reg => ⟨cc2400Get_transaction miso reg, toNat_cc2400Get miso reg⟩⟩

theorem cc2400Spi_exact_octet :
    IsTransaction (cc2400Spi (fun k => decide (k % 3 = 0)) 8 0xa5).1
        [true, false, true, false, false, true, false, true]
        [true, false, false, true, false, false, true, false] ∧
      msbFirst 8 (cc2400Spi (fun k => decide (k % 3 = 0)) 8 0xa5).2 =
        [true, false, false, true, false, false, true, false] :=
  (cc2400Spi_exact fun k => decide (k % 3 = 0)).1 8 0xa5 (by simp) (by simp)

/-! ## Calls one after the other -/

theorem cc2400Set8_transaction (miso : ℕ → Bool) (reg val : U8) :
    IsTransaction (cc2400Set8 miso reg val) (msbFirst 8 reg ++ msbFirst 8 val)
      (levels miso 16) := by
  have h := cc2400Spi_transaction miso 16 ((reg.setWidth 32 <<< 8) ||| val.setWidth 32) (by simp)
  rwa [show BitVec.toNat (16 : U8) = 8 + 8 from rfl, msbFirst_append 8 reg val (by omega)] at h

theorem cc2400Get8_transaction (miso : ℕ → Bool) (reg : U8) :
    IsTransaction (cc2400Get8 miso reg).1
      (msbFirst 8 (reg ||| 0x80) ++ List.replicate 8 false) (levels miso 16) := by
  have h := cc2400Spi_transaction miso 16
    ((((reg.setWidth 16 ||| 0x80) <<< 8 : U16)).setWidth 32) (by simp)
  have hout : msbFirst (8 + 8) ((((reg.setWidth 16 ||| 0x80) <<< 8 : U16)).setWidth 32) =
      msbFirst (8 + 8) ((reg.setWidth 16 ||| 0x80) <<< 8 : U16) :=
    msbFirst_congr fun i hi => by
      rw [BitVec.getLsbD_setWidth, decide_eq_true (by omega), Bool.true_and]
  rwa [show BitVec.toNat (16 : U8) = 8 + 8 from rfl, hout, msbFirst_read reg (by omega)] at h

theorem cc2400Strobe_transaction (miso : ℕ → Bool) (reg : U8) :
    IsTransaction (cc2400Strobe miso reg).1 (msbFirst 8 reg) (levels miso 8) := by
  have h := cc2400Spi_transaction miso 8 (reg.setWidth 32) (by simp)
  have hreg : msbFirst 8 (reg.setWidth 32) = msbFirst 8 reg :=
    msbFirst_congr fun i hi => by
      rw [BitVec.getLsbD_setWidth, decide_eq_true (by omega), Bool.true_and]
  rwa [show BitVec.toNat (8 : U8) = 8 from rfl, hreg] at h

/-- An octet of `cc2400_spi_buf`, most significant bit first. -/
theorem octetLoop_eq (n : ℕ) (temp : U8) (hn : n ≤ 8) :
    octetLoop n temp = (msbFirst n (temp >>> (8 - n))).flatMap pulseOut := by
  induction n generalizing temp with
  | zero => rfl
  | succ n ih =>
    have hbit : decide (temp &&& 0x80 ≠ 0) = (temp >>> (8 - (n + 1))).getLsbD n := by
      rw [BitVec.getLsbD_ushiftRight, show 8 - (n + 1) + n = 7 by omega]
      exact and_msb temp 7 (by omega)
    have hrest : msbFirst n ((temp <<< 1) >>> (8 - n)) = msbFirst n (temp >>> (8 - (n + 1))) := by
      refine msbFirst_congr fun i hi => ?_
      rw [BitVec.getLsbD_ushiftRight, BitVec.getLsbD_ushiftRight, BitVec.getLsbD_shiftLeft,
        show 8 - n + i - 1 = 8 - (n + 1) + i by omega]
      simp [show 8 - n + i < 8 by omega, show 8 - n ≠ 0 by omega]
    rw [octetLoop, hbit, ih _ (by omega), hrest, msbFirst_succ, List.flatMap_cons, pulseOut]

/-- The clock without a change of MOSI: its level again, for each pulse. -/
theorem run_lastClocks (x : Wires) (hcsn : x.csn = false) (hsclk : x.sclk = false) :
    run Wires.drive x lastClocks = { x with word := x.word ++ List.replicate 8 x.mosi } := by
  simp [lastClocks, Wires.drive, hcsn, hsclk, List.replicate]

/-- The bits that `cc2400_spi_buf` sends before the last octet is clocked in. -/
def bufBits (reg : U8) (data : List U8) : List Bool := (reg :: data).flatMap (msbFirst 8)

theorem cc2400SpiBuf_sends (reg : U8) (data : List U8) : Sends (cc2400SpiBuf reg data)
    (bufBits reg data ++ List.replicate 8 ((bufBits reg data).getLastD false)) := by
  have hops : octetLoop 8 reg ++ data.flatMap (octetLoop 8) =
      (bufBits reg data).flatMap pulseOut := by
    have hoctet : octetLoop 8 = fun c => (msbFirst 8 c).flatMap pulseOut := by
      funext c
      exact octetLoop_eq 8 c (by omega)
    rw [hoctet, bufBits, List.flatMap_cons, List.flatMap_append, List.flatMap_assoc]
  have hlast : ∀ level, (bufBits reg data).getLastD level = (bufBits reg data).getLastD false := by
    intro level
    rw [bufBits, List.flatMap_cons, msbFirst_succ, List.cons_append, List.getLastD_cons,
      List.getLastD_cons]
  have hbuf : cc2400SpiBuf reg data =
      .csn false :: ((bufBits reg data).flatMap pulseOut ++ lastClocks) ++ [.csn true] := by
    rw [cc2400SpiBuf, ← hops]
    simp
  rw [hbuf]
  refine sends_of_run fun x hcsn hsclk => ⟨(bufBits reg data).getLastD x.mosi, ?_⟩
  have hbits := run_flatMap_pulse run_pulseOut (bufBits reg data) x hcsn hsclk
  rw [List.map_id'] at hbits
  have hclocks := run_lastClocks
    { x with mosi := (bufBits reg data).getLastD x.mosi, word := x.word ++ bufBits reg data }
    hcsn hsclk
  rw [run_append, hbits, hclocks, hlast, List.append_assoc]

/-- A call, with the levels of MISO that it reads. -/
inductive SpiCall
  | get (miso : ℕ → Bool) (reg : U8)
  | set (miso : ℕ → Bool) (reg : U8) (val : U16)
  | get8 (miso : ℕ → Bool) (reg : U8)
  | set8 (miso : ℕ → Bool) (reg val : U8)
  | strobe (miso : ℕ → Bool) (reg : U8)
  | status (miso : ℕ → Bool)
  | spiBuf (reg : U8) (data : List U8)

/-- What is done to the pins. -/
def SpiCall.ops : SpiCall → List PinOp
  | .get miso reg => (cc2400Get miso reg).1
  | .set miso reg val => cc2400Set miso reg val
  | .get8 miso reg => (cc2400Get8 miso reg).1
  | .set8 miso reg val => cc2400Set8 miso reg val
  | .strobe miso reg => (cc2400Strobe miso reg).1
  | .status miso => (cc2400Status miso).1
  | .spiBuf reg data => cc2400SpiBuf reg data

/-- The word that is meant for the radio. -/
def SpiCall.word : SpiCall → List Bool
  | .get _ reg => msbFirst 8 (reg ||| 0x80) ++ List.replicate 16 false
  | .set _ reg val => msbFirst 8 reg ++ msbFirst 16 val
  | .get8 _ reg => msbFirst 8 (reg ||| 0x80) ++ List.replicate 8 false
  | .set8 _ reg val => msbFirst 8 reg ++ msbFirst 8 val
  | .strobe _ reg => msbFirst 8 reg
  | .status _ => List.replicate 8 false
  | .spiBuf reg data =>
    bufBits reg data ++ List.replicate 8 ((bufBits reg data).getLastD false)

theorem SpiCall.sends (call : SpiCall) : Sends call.ops call.word := by
  cases call with
  | get miso reg => exact (cc2400Get_transaction miso reg).toSends
  | set miso reg val => exact (cc2400Set_transaction miso reg val).toSends
  | get8 miso reg => exact (cc2400Get8_transaction miso reg).toSends
  | set8 miso reg val => exact (cc2400Set8_transaction miso reg val).toSends
  | strobe miso reg => exact (cc2400Strobe_transaction miso reg).toSends
  | status miso => exact (cc2400Spi_transaction miso 8 0 (by simp)).toSends
  | spiBuf reg data => exact cc2400SpiBuf_sends reg data

/-- Whatever is called one after the other, the radio sees the words of the calls. -/
theorem words_run_calls (x : Wires) (hx : x.Idle) (calls : List SpiCall) :
    (run Wires.drive x (calls.flatMap SpiCall.ops)).Idle ∧
      (run Wires.drive x (calls.flatMap SpiCall.ops)).words =
        x.words ++ calls.map SpiCall.word := by
  induction calls generalizing x with
  | nil => exact ⟨hx, by simp⟩
  | cons call calls ih =>
    obtain ⟨hidle, hwords⟩ := ih _ (call.sends.idle x hx)
    rw [List.flatMap_cons, run_append]
    exact ⟨hidle, by rw [hwords, call.sends.words x hx]; simp⟩

end Ubertooth.Radio
