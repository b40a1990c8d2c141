import Ubertooth.Firmware.Frames
import Ubertooth.Hopping.Search

/-!
# Hop selection while a piconet is followed

`next_hop` divides by `used_channels` and subscripts `afh_bank` with the remainder whenever AFH is
enabled. It is safe at every clock exactly if AFH is off or between 1 and 79 channels are counted
(`nextHop_safe_iff`); that 80 is too many, and not only for some address, is because the five bit
permutation is one (`exists_perm5`).

`used_channels` is written by `SET_BDADDR` and `AFH`, and AFH is enabled by `AFH` and `SET_AFHMAP`.
`following_safe_iff` says over all sequences of requests when a device that follows a piconet is
safe.
-/

namespace Ubertooth.Hopping

open Firmware Foundations

/-! ## The five bit permutation -/

theorem foldl_injective {α β : Type*} {g : α → β → α}
    (hg : ∀ i, Function.Injective fun v => g v i) (l : List β) :
    Function.Injective fun v => l.foldl g v := by
  induction l with
  | nil => exact fun _ _ h => h
  | cons i l ih => exact fun v w h => hg i (ih h)

theorem exchange_injective {n : ℕ} (p : Bool) (i j : Fin n) :
    Function.Injective fun v : Vector Bool n => if p then v.swap i j else v := by
  intro v w h
  cases p with
  | false => exact h
  | true =>
    have hswap := congrArg (fun u : Vector Bool n => u.swap i j) h
    simpa using hswap

/-- The last loop of `perm5`. -/
def packBits (zBit : Vector Bool 5) : U8 :=
  (List.finRange 5).foldl
    (fun output i => output + ((BitVec.ofBool (zBit.get i)).setWidth 8 <<< i.val)) 0

/-- The output for five given bits. -/
theorem packBits_ofFn (f : Fin 5 → Bool) :
    ∀ i : Fin 5, (packBits (Vector.ofFn f)).getLsbD i = f i := by
  have hbits : ∀ a b c d e : Bool, ∀ i : Fin 5,
      (packBits #v[a, b, c, d, e]).getLsbD i = #v[a, b, c, d, e].get i := by decide +kernel
  have hf : Vector.ofFn f = #v[f 0, f 1, f 2, f 3, f 4] := by
    ext i hi
    interval_cases i <;> simp
  intro i
  rw [hf, hbits, ← hf, Vector.get_ofFn]

theorem packBits_injective : Function.Injective packBits := by
  intro v w h
  have hof : ∀ u : Vector Bool 5, Vector.ofFn u.get = u := by
    intro u
    ext i hi
    simp [Vector.get]
  have hget : ∀ i : Fin 5, v.get i = w.get i := by
    intro i
    rw [← packBits_ofFn v.get i, ← packBits_ofFn w.get i, hof, hof, h]
  rw [← hof v, ← hof w]
  exact congrArg _ (funext hget)

/-- The butterfly operations of `perm5`, under the control bits `p`. -/
def butterflies (p : Fin 14 → Bool) (zBit : Vector Bool 5) : Vector Bool 5 :=
  (List.finRange 14).reverse.foldl
    (fun zBit i =>
      if p i then zBit.swap (perm5Index1.get i) (perm5Index2.get i) else zBit) zBit

theorem butterflies_injective (p : Fin 14 → Bool) : Function.Injective (butterflies p) :=
  foldl_injective (fun i => exchange_injective (p i) (perm5Index1.get i) (perm5Index2.get i)) _

theorem perm5_eq (z pHigh : U8) (pLow : U16) :
    perm5 z pHigh pLow =
      packBits (butterflies
        (fun i => if i < 9 then pLow.getLsbD i else pHigh.getLsbD (i - 9))
        (Vector.ofFn fun i => z.getLsbD i)) := rfl

/-- The permutation loses none of the five bits. -/
theorem perm5_injective {z z' : U8} (pHigh : U8) (pLow : U16)
    (h : perm5 z pHigh pLow = perm5 z' pHigh pLow) (i : Fin 5) : z.getLsbD i = z'.getLsbD i := by
  rw [perm5_eq, perm5_eq] at h
  have hbits := butterflies_injective _ (packBits_injective h)
  have hget := congrArg (fun u : Vector Bool 5 => u.get i) hbits
  simpa only [Vector.get_ofFn] using hget

theorem packBits_lt (v : Vector Bool 5) : (packBits v).toNat < 32 := by
  have hbits : ∀ a b c d e : Bool, (packBits #v[a, b, c, d, e]).toNat < 32 := by decide +kernel
  have hv : v = #v[v[0], v[1], v[2], v[3], v[4]] := by
    ext i hi
    interval_cases i <;> simp
  rw [hv]
  exact hbits _ _ _ _ _

/-- Two words below 32 with the same five low bits are the same. -/
theorem eq_of_low_bits {u v : U8} (hu : u.toNat < 32) (hv : v.toNat < 32)
    (h : ∀ i : Fin 5, u.getLsbD i = v.getLsbD i) : u = v := by
  apply BitVec.eq_of_getLsbD_eq
  intro i _
  by_cases hi : i < 5
  · exact h ⟨i, hi⟩
  · have hpow : 2 ^ 5 ≤ 2 ^ i := Nat.pow_le_pow_right (by omega) (by omega)
    have hfalse : ∀ w : U8, w.toNat < 32 → w.getLsbD i = false := fun w hw =>
      Nat.testBit_lt_two_pow (Nat.lt_of_lt_of_le hw hpow)
    rw [hfalse u hu, hfalse v hv]

/-- The input of the permutation for the five clock bits `x`. -/
def permInput (a b x : U8) : U8 := ((x + a) % 32) ^^^ b

theorem permInput_inj {a b x y : U8} (hx : x.toNat < 32) (hy : y.toNat < 32)
    (h : ∀ i : Fin 5, (permInput a b x).getLsbD i = (permInput a b y).getLsbD i) : x = y := by
  have hmod : ∀ w : U8, ((w + a) % 32).toNat = (w.toNat + a.toNat) % 32 := by
    intro w
    rw [BitVec.toNat_umod, BitVec.toNat_add]
    show (w.toNat + a.toNat) % 2 ^ 8 % 32 = _
    omega
  have hsum : (x + a) % 32 = (y + a) % 32 := by
    apply eq_of_low_bits
    · rw [hmod]
      omega
    · rw [hmod]
      omega
    · intro i
      have hi := h i
      rw [permInput, permInput, BitVec.getLsbD_xor, BitVec.getLsbD_xor] at hi
      exact Bool.xor_right_inj.1 (by rw [Bool.xor_comm, hi, Bool.xor_comm])
  apply BitVec.eq_of_toNat_eq
  have htoNat := congrArg BitVec.toNat hsum
  rw [hmod, hmod] at htoNat
  omega

/-- **Every output is reached**: under any control bits, the five clock bits can be chosen to make
the permutation give any number below 32. -/
theorem exists_perm5 (a b pHigh : U8) (pLow : U16) {t : ℕ} (ht : t < 32) :
    ∃ x < 32, (perm5 (permInput a b (BitVec.ofNat 8 x)) pHigh pLow).toNat = t := by
  let output : Fin 32 → Fin 32 := fun x =>
    ⟨(perm5 (permInput a b (BitVec.ofNat 8 x)) pHigh pLow).toNat, packBits_lt _⟩
  have hoct : ∀ x : Fin 32, (BitVec.ofNat 8 x.val : U8).toNat = x.val := fun x => by
    rw [BitVec.toNat_ofNat, Nat.mod_eq_of_lt (by omega)]
  have hinj : Function.Injective output := by
    intro x y hxy
    have htoNat : (output x).val = (output y).val := by rw [hxy]
    have hoctets := permInput_inj (by rw [hoct]; exact x.isLt) (by rw [hoct]; exact y.isLt)
      (perm5_injective pHigh pLow (BitVec.eq_of_toNat_eq htoNat))
    have hval := congrArg BitVec.toNat hoctets
    rw [hoct, hoct] at hval
    exact Fin.ext hval
  obtain ⟨x, hx⟩ := Finite.surjective_of_injective hinj ⟨t, ht⟩
  exact ⟨x, x.isLt, congrArg Fin.val hx⟩

/-! ## One call of `next_hop` -/

/-- The sum of permutation, `e` and `y2` that both channel tables are read with. -/
def hopSum (h : HopVars) (clock : U32) : ℕ :=
  let x : U8 := ((clock >>> 2) &&& 0x1f).setWidth 8
  let y1 : U8 := ((clock >>> 1) &&& 0x01).setWidth 8
  let y2 : U16 := y1.setWidth 16 <<< 5
  let a : U8 := ((h.a1.setWidth 32 ^^^ (clock >>> 21)) &&& 0x1f).setWidth 8
  let c : U8 := ((h.c1.setWidth 32 ^^^ (clock >>> 16)) &&& 0x1f).setWidth 8
  let d : U16 := ((h.d1.setWidth 32 ^^^ (clock >>> 7)) &&& 0x1ff).setWidth 16
  (perm5 (permInput a h.b x) ((y1 * 0x1f) ^^^ c) d).toNat + h.e.toNat + y2.toNat

/-- `base_f` -/
def baseF (clock : U32) : ℕ := ((clock >>> 3) &&& 0x1fffff0).toNat

/-- The subscript of `afh_bank`. -/
def afhIndex (h : HopVars) (clock : U32) : ℕ :=
  (hopSum h clock + baseF clock % h.usedChannels.toNat) % h.usedChannels.toNat

/-- The subscript of `bank`. -/
def bankIndex (h : HopVars) (clock : U32) : Fin channels :=
  ⟨(hopSum h clock + baseF clock % 79) % channels, Nat.mod_lt _ (by decide)⟩

theorem nextHop_of_disabled {h : HopVars} (hafh : h.afhEnabled = false) (clock : U32) :
    nextHop h clock = .ok (2402 + (h.bank.get (bankIndex h clock)).setWidth 16) := by
  simp only [nextHop, hafh]
  rfl

theorem nextHop_of_none_used {h : HopVars} (hafh : h.afhEnabled = true)
    (hused : h.usedChannels = 0) (clock : U32) : nextHop h clock = .error .divideByZero := by
  simp only [nextHop, hafh, hused, if_true]

theorem nextHop_of_used {h : HopVars} (hafh : h.afhEnabled = true) (hused : h.usedChannels ≠ 0)
    (clock : U32) : nextHop h clock = (h.afhBankAt (afhIndex h clock)).map
      fun nextChannel => 2402 + nextChannel.setWidth 16 := by
  simp only [nextHop, hafh, hused, if_true, if_false]
  rfl

/-! ## What `precalc` leaves -/

/-- The tables hold places of the band, and no more channels are counted than the map has bits. -/
structure TablesInBand (h : HopVars) : Prop where
  bank : ∀ i, (h.bank.get i).toNat ≤ 78
  afhBank : ∀ i, (h.afhBank.get i).toNat ≤ 78
  usedChannels : h.usedChannels.toNat ≤ 80

theorem countBits_le (octet : U8) : (countBits (octet.setWidth 64)).toNat ≤ 8 := by
  revert octet
  decide +kernel

/-- The octets are counted one by one, and 80 is not too many for an octet. -/
theorem toNat_countMap (afhMap : Vector U8 10) :
    (countMap afhMap).toNat =
      (afhMap.toList.map fun octet => (countBits (octet.setWidth 64)).toNat).sum := by
  have hfold : ∀ (octets : List U8) (used : U8), used.toNat + 8 * octets.length < 256 →
      (octets.foldl (fun used octet => used + countBits (octet.setWidth 64)) used).toNat =
        used.toNat + (octets.map fun octet => (countBits (octet.setWidth 64)).toNat).sum := by
    intro octets
    induction octets with
    | nil => exact fun used _ => rfl
    | cons octet octets ih =>
      intro used hlt
      have hbits := countBits_le octet
      rw [List.length_cons] at hlt
      have hsum : (used + countBits (octet.setWidth 64)).toNat =
          used.toNat + (countBits (octet.setWidth 64)).toNat := by
        rw [BitVec.toNat_add]
        exact Nat.mod_eq_of_lt (by omega)
      rw [List.foldl_cons, ih _ (by omega), hsum, List.map_cons, List.sum_cons, Nat.add_assoc]
  have hlength : afhMap.toList.length = 10 := by simp
  have hmap := hfold afhMap.toList 0 (by rw [hlength]; decide)
  exact hmap.trans (Nat.zero_add _)

theorem countMap_le (afhMap : Vector U8 10) : (countMap afhMap).toNat ≤ 80 := by
  have hsum := List.sum_le_card_nsmul
    (afhMap.toList.map fun octet => (countBits (octet.setWidth 64)).toNat) 8 (by
      intro n hn
      obtain ⟨octet, -, rfl⟩ := List.mem_map.1 hn
      exact countBits_le octet)
  rw [toNat_countMap]
  simpa using hsum

theorem bank_setIfInBounds {bank : Vector U8 channels} (h : ∀ i, (bank.get i).toNat ≤ 78) {v : U8}
    (hv : v.toNat ≤ 78) (j : ℕ) : ∀ i, ((bank.setIfInBounds j v).get i).toNat ≤ 78 := by
  intro i
  have hget : (bank.setIfInBounds j v).get i = if j = i.val then v else bank.get i :=
    Vector.getElem_setIfInBounds i.isLt
  rw [hget]
  split
  · exact hv
  · exact h i

theorem tablesInBand_precalcAfh {h : HopVars} (hh : TablesInBand h) :
    TablesInBand (precalcAfh h) := by
  refine ⟨?_, hh.afhBank, countMap_le h.afhMap⟩
  dsimp only [precalcAfh]
  split
  · exact bank_setIfInBounds hh.bank (by decide +kernel) 0
  · exact hh.bank

theorem tablesInBand_precalc {h : HopVars} (hh : TablesInBand h) (address : BitVec 64) :
    TablesInBand (precalc address h) := by
  have hbank : ∀ i : Fin channels, ((Vector.ofFn fun i : Fin channels =>
      (BitVec.ofNat 8 (i.val * 2 % channels) : U8)).get i).toNat ≤ 78 := by
    intro i
    have hplace : i.val * 2 % channels < 79 := Nat.mod_lt _ (by simp)
    rw [Vector.get_ofFn, BitVec.toNat_ofNat, Nat.mod_eq_of_lt (by omega)]
    omega
  dsimp only [precalc]
  split
  · exact tablesInBand_precalcAfh ⟨hbank, hh.afhBank, hh.usedChannels⟩
  · exact ⟨hbank, hh.afhBank, hh.usedChannels⟩

theorem precalc_afhEnabled (h : HopVars) (address : BitVec 64) :
    (precalc address h).afhEnabled = h.afhEnabled := by
  dsimp only [precalc]
  split <;> rfl

/-- While AFH is enabled `precalc` counts the channels of the map. -/
theorem precalc_usedChannels {h : HopVars} (hafh : h.afhEnabled = true) (address : BitVec 64) :
    (precalc address h).usedChannels = countMap h.afhMap := by
  simp only [precalc, hafh, if_true, precalcAfh]

/-! ## The safe hop variables -/

/-- `next_hop` returns a channel of the band, without a fault, whatever the clock. -/
def SafeHop (h : HopVars) : Prop := ∀ clock, ∃ c, nextHop h clock = .ok c ∧ InBand c

/-- AFH is off, or counts some of the channels but not more than there are. -/
def Counted (h : HopVars) : Prop :=
  h.afhEnabled = true → 1 ≤ h.usedChannels.toNat ∧ h.usedChannels.toNat ≤ 79

theorem inBand_of_place {v : U8} (hv : v.toNat ≤ 78) : InBand (2402 + v.setWidth 16) := by
  have hsum : (2402 + v.setWidth 16 : U16).toNat = 2402 + v.toNat := by
    rw [BitVec.toNat_add, BitVec.toNat_setWidth_of_le (by omega)]
    show (2402 + v.toNat) % 2 ^ 16 = _
    omega
  rw [InBand, hsum]
  omega

theorem safeHop_of_counted {h : HopVars} (hh : TablesInBand h) (hc : Counted h) : SafeHop h := by
  intro clock
  cases hafh : h.afhEnabled with
  | false =>
    exact ⟨_, nextHop_of_disabled hafh clock, inBand_of_place (hh.bank _)⟩
  | true =>
    obtain ⟨hpos, hle⟩ := hc hafh
    have hused : h.usedChannels ≠ 0 := by
      intro h0
      rw [h0] at hpos
      exact absurd hpos (by simp)
    have hindex : afhIndex h clock < channels := by
      have hmod : afhIndex h clock < h.usedChannels.toNat := Nat.mod_lt _ hpos
      exact Nat.lt_of_lt_of_le hmod hle
    refine ⟨2402 + (h.afhBank.get ⟨_, hindex⟩).setWidth 16, ?_, inBand_of_place (hh.afhBank _)⟩
    rw [nextHop_of_used hafh hused, HopVars.afhBankAt, dif_pos hindex]
    rfl

/-- The clock with the given five bits `x`, and `m` in the bits from 7 on. -/
def clockOf (m x : ℕ) : U32 := BitVec.ofNat 32 (128 * m + 4 * x)

theorem exists_hopSum (h : HopVars) (m : Fin 5) {t : ℕ} (ht : t < 32) :
    ∃ x < 32, hopSum h (clockOf m x) = t + h.e.toNat := by
  have hx : ∀ m : Fin 5, ∀ x : Fin 32,
      ((clockOf m x >>> 2) &&& 0x1f).setWidth 8 = (BitVec.ofNat 8 x : U8) := by decide +kernel
  have hy : ∀ m : Fin 5, ∀ x : Fin 32,
      ((clockOf m x >>> 1) &&& 0x01).setWidth 8 = (0 : U8) := by decide +kernel
  have hhigh : ∀ m : Fin 5, ∀ x : Fin 32, clockOf m x >>> 21 = 0 ∧ clockOf m x >>> 16 = 0 ∧
      clockOf m x >>> 7 = BitVec.ofNat 32 m := by decide +kernel
  let a : U8 := ((h.a1.setWidth 32 ^^^ (0 : U32)) &&& 0x1f).setWidth 8
  let c : U8 := ((h.c1.setWidth 32 ^^^ (0 : U32)) &&& 0x1f).setWidth 8
  let d : U16 := ((h.d1.setWidth 32 ^^^ BitVec.ofNat 32 m) &&& 0x1ff).setWidth 16
  obtain ⟨x, hlt, hperm⟩ := exists_perm5 a h.b ((0 * 0x1f) ^^^ c) d ht
  refine ⟨x, hlt, ?_⟩
  obtain ⟨h21, h16, h7⟩ := hhigh m ⟨x, hlt⟩
  have hsum : hopSum h (clockOf m x) =
      (perm5 (permInput a h.b (BitVec.ofNat 8 x)) ((0 * 0x1f) ^^^ c) d).toNat + h.e.toNat + 0 := by
    simp only [hopSum, hx m ⟨x, hlt⟩, hy m ⟨x, hlt⟩, h21, h16, h7]
    rfl
  rw [hsum, hperm, Nat.add_zero]

/-- With 80 channels counted, at some clock the subscript is past the end of `afh_bank`. -/
theorem exists_afhIndex {h : HopVars} (hused : h.usedChannels.toNat = 80) :
    ∃ clock, afhIndex h clock = 79 := by
  have hbase : ∀ m : Fin 5, ∀ x : Fin 32, baseF (clockOf m x) = 16 * m.val := by decide +kernel
  -- what is left to add to `e`, split into a multiple of 16 for `base_f` and a rest
  let t := (399 - h.e.toNat) % 80
  have he := h.e.isLt
  obtain ⟨x, hlt, hsum⟩ := exists_hopSum h ⟨t / 16, by omega⟩ (t := t % 16) (by omega)
  refine ⟨clockOf (t / 16) x, ?_⟩
  rw [afhIndex, hused, hbase ⟨t / 16, by omega⟩ ⟨x, hlt⟩, hsum]
  show (t % 16 + h.e.toNat + 16 * (t / 16) % 80) % 80 = 79
  omega

/-- **The safe hop variables.** Whatever the clock, `next_hop` neither divides by zero nor leaves
its tables, and returns a channel of the band, exactly if AFH is off or between 1 and 79 channels
are counted. -/
theorem nextHop_safe_iff {h : HopVars} (hh : TablesInBand h) : SafeHop h ↔ Counted h := by
  refine ⟨fun hsafe hafh => ?_, safeHop_of_counted hh⟩
  have hused : h.usedChannels ≠ 0 := by
    intro h0
    obtain ⟨c, hc, -⟩ := hsafe 0
    rw [nextHop_of_none_used hafh h0] at hc
    exact absurd hc (by simp)
  have h80 : h.usedChannels.toNat ≠ 80 := by
    intro h80
    obtain ⟨clock, hindex⟩ := exists_afhIndex h80
    obtain ⟨c, hc, -⟩ := hsafe clock
    rw [nextHop_of_used hafh hused, hindex, HopVars.afhBankAt, dif_neg (by simp)] at hc
    exact absurd hc (by simp [Except.map])
  have hpos : h.usedChannels.toNat ≠ 0 := fun h0 => hused (BitVec.eq_of_toNat_eq h0)
  have hle := hh.usedChannels
  omega

/-! ## Over all runs -/

/-- While the device follows a piconet `next_hop` is safe. -/
def FollowsSafely : Except Fault Device → Prop
  | .ok d => d.fw.hopMode = .bluetooth → SafeHop d.fw.hopVars
  | .error _ => True

/-- The requests by which a device begins to follow a piconet, or changes its hop variables while it
does, leave between 1 and 79 channels counted, or AFH off. -/
def KeepsCount : Except Fault Device → HopEvent → Prop
  | .ok d, .request (.startHopping _) => Counted d.fw.hopVars
  | .ok d, .request (.setAfhmap _) => d.fw.hopMode = .bluetooth →
    1 ≤ d.fw.hopVars.usedChannels.toNat ∧ d.fw.hopVars.usedChannels.toNat ≤ 79
  | .ok d, .request (.setBdaddr _) => d.fw.hopMode = .bluetooth → d.fw.hopVars.afhEnabled = true →
    1 ≤ (countMap d.fw.hopVars.afhMap).toNat ∧ (countMap d.fw.hopVars.afhMap).toNat ≤ 79
  | _, _ => True

/-- The tables are in the band, and while a piconet is followed the channels are counted. -/
structure Following (d : Device) : Prop where
  tables : TablesInBand d.fw.hopVars
  counted : d.fw.hopMode = .bluetooth → Counted d.fw.hopVars

/-- The same, until a fault. -/
def FollowingOk : Except Fault Device → Prop
  | .ok d => Following d
  | .error _ => True

variable {d d' : Device}

theorem Following.of_same (h : Following d) (hvars : d'.fw.hopVars = d.fw.hopVars)
    (hmode : d'.fw.hopMode = .bluetooth → d.fw.hopMode = .bluetooth) : Following d' := by
  refine ⟨?_, fun hm => ?_⟩
  · rw [hvars]
    exact h.tables
  · rw [hvars]
    exact h.counted (hmode hm)

/-- The squelch is updated last. -/
theorem Following.of_squelch (h : Following d) {s : Fw} (hfw : d'.fw = csThresholdCalcAndSet s)
    (hvars : s.hopVars = d.fw.hopVars)
    (hmode : s.hopMode = .bluetooth → d.fw.hopMode = .bluetooth) : Following d' := by
  apply h.of_same
  · rw [hfw, csThresholdCalcAndSet_hopVars, hvars]
  · rw [hfw, csThresholdCalcAndSet_hopMode]
    exact hmode

theorem following_setAfhmap (h : Following d) (data : ℕ → U8)
    (hc : KeepsCount (.ok d) (.request (.setAfhmap data))) :
    Following (vendorRequestHandler d (.setAfhmap data)) :=
  ⟨⟨h.tables.bank, h.tables.afhBank, h.tables.usedChannels⟩, fun hm _ => hc hm⟩

theorem following_setBdaddr (h : Following d) (data : ℕ → U8)
    (hc : KeepsCount (.ok d) (.request (.setBdaddr data))) :
    Following (vendorRequestHandler d (.setBdaddr data)) := by
  refine ⟨tablesInBand_precalc h.tables _, fun hm hafh => ?_⟩
  change (precalc _ d.fw.hopVars).afhEnabled = true at hafh
  rw [precalc_afhEnabled] at hafh
  have hused := precalc_usedChannels hafh (joinLow 8 data)
  show 1 ≤ (precalc (joinLow 8 data) d.fw.hopVars).usedChannels.toNat ∧
    (precalc (joinLow 8 data) d.fw.hopVars).usedChannels.toNat ≤ 79
  rw [hused]
  exact hc hm hafh

theorem following_request (h : Following d) (r : VendorRequest)
    (hc : KeepsCount (.ok d) (.request r)) : Following (vendorRequestHandler d r) := by
  cases r with
  | setChannel param =>
    have hasked : askedMode param ≠ .bluetooth := askedMode_ne param (by simp) (by simp)
    obtain ⟨_, _, _, _, hset⟩ := setChannel_frame param d
    have hvars : (setChannel param d).fw.hopVars = d.fw.hopVars := by rw [hset]
    have hmode : (setChannel param d).fw.hopMode = askedMode param := by rw [hset]
    exact h.of_same hvars fun hm => absurd (hmode.symm.trans hm) hasked
  | setSquelch param => exact h.of_squelch rfl rfl fun hm => hm
  | setBdaddr data => exact following_setBdaddr h data hc
  | startHopping data => exact ⟨h.tables, fun _ => hc⟩
  | afh =>
    refine ⟨⟨h.tables.bank, h.tables.afhBank, ?_⟩, fun hm => ?_⟩
    · simp [vendorRequestHandler, startAfh]
    · exact absurd hm (by simp [vendorRequestHandler, startAfh])
  | setClock data => exact h.of_squelch rfl rfl fun hm => hm
  | setAfhmap data => exact following_setAfhmap h data hc
  | clearAfhmap =>
    exact ⟨⟨h.tables.bank, h.tables.afhBank, h.tables.usedChannels⟩, fun _ hafh =>
      absurd hafh (by simp [vendorRequestHandler])⟩
  | btleSniffing => exact h.of_squelch rfl rfl fun hm => absurd hm (by simp [queueInit])
  | btlePromisc =>
    exact h.of_squelch (s := queueInit { d.fw with hopMode := .none }) rfl rfl
      fun hm => absurd hm (by simp [queueInit])
  | poll =>
    obtain ⟨_, hpoll⟩ := dequeuePkt_frame d.fw
    have hvars : (dequeuePkt d.fw).2.hopVars = d.fw.hopVars := by rw [hpoll]
    have hmode : (dequeuePkt d.fw).2.hopMode = d.fw.hopMode := by rw [hpoll]
    exact h.of_same hvars fun hm => hmode.symm.trans hm
  | _ => exact h.of_same rfl fun hm => hm

theorem followingOk_step {x : Except Fault Device} (h : FollowingOk x) (e : HopEvent)
    (hc : KeepsCount x e) : FollowingOk (hopStep x e) := by
  cases x with
  | error f => trivial
  | ok d =>
    cases e with
    | request r => exact following_request h r hc
    | timer0 =>
      obtain ⟨a, c, t, heq⟩ := timer0IRQHandler_eq d.fw
      refine Following.of_same h ?_ fun hm => ?_
      · rw [heq]
      · rw [heq] at hm
        exact hm
    | hop =>
      dsimp only [hopStep]
      cases hs : Firmware.hop d.fw with
      | error f => trivial
      | ok s =>
        obtain ⟨hmode, hvars, -⟩ := hop_frame hs
        exact Following.of_same h hvars fun hm => hmode.symm.trans hm
    | elsewhere d' =>
      refine Following.of_same h rfl fun hm => ?_
      change elsewhereMode d.fw.hopMode d'.fw.hopMode = .bluetooth at hm
      unfold elsewhereMode at hm
      split at hm
      · exact absurd hm (by simp)
      · exact absurd hm (by simp)
      · exact hm

theorem FollowingOk.followsSafely {x : Except Fault Device} (h : FollowingOk x) :
    FollowsSafely x := by
  cases x with
  | error f => trivial
  | ok d => exact fun hm => safeHop_of_counted h.tables (h.counted hm)

/-- A request that spoils the count ends in a state that is not safe. -/
theorem not_followsSafely {x : Except Fault Device} (h : FollowingOk x) {e : HopEvent}
    (hc : ¬KeepsCount x e) : ¬FollowsSafely (hopStep x e) := by
  cases x with
  | error f => exact absurd trivial hc
  | ok d =>
    have htables : TablesInBand d.fw.hopVars := Following.tables h
    cases e with
    | request r =>
      cases r with
      | startHopping data => exact fun hsafe => hc ((nextHop_safe_iff htables).1 (hsafe rfl))
      | setAfhmap data =>
        intro hsafe
        refine hc fun hm => ?_
        have hafter : TablesInBand (vendorRequestHandler d (.setAfhmap data)).fw.hopVars :=
          ⟨htables.bank, htables.afhBank, htables.usedChannels⟩
        have hcounted : Counted (vendorRequestHandler d (.setAfhmap data)).fw.hopVars :=
          (nextHop_safe_iff hafter).1 (hsafe hm)
        exact hcounted rfl
      | setBdaddr data =>
        intro hsafe
        refine hc fun hm hafh => ?_
        have hcounted := (nextHop_safe_iff (tablesInBand_precalc htables _)).1 (hsafe hm)
        have hused := hcounted ((precalc_afhEnabled _ _).trans hafh)
        rwa [precalc_usedChannels hafh] at hused
      | _ => exact absurd trivial hc
    | _ => exact absurd trivial hc

theorem followingOk_deviceOn : FollowingOk (.ok deviceOn) := by
  have hzero : ∀ i : Fin channels,
      ((Vector.replicate channels (0 : U8)).get i).toNat ≤ 78 := by
    intro i
    simp [Vector.get]
  exact ⟨⟨hzero, hzero, by decide⟩, fun hm => absurd hm (by simp [deviceOn])⟩

/-- **Following a piconet.** In every run from power on, `next_hop` is safe at every clock in every
state that follows a piconet exactly if every request that begins to follow, enables AFH or counts
anew leaves between 1 and 79 channels counted, or AFH off. -/
theorem following_safe_iff (es : List HopEvent) :
    Throughout hopStep FollowsSafely (.ok deviceOn) es ↔
      Along hopStep KeepsCount (.ok deviceOn) es :=
  throughout_iff_of_invariant (I := FollowingOk) (fun _ h => h.followsSafely)
    (fun _ e h hc => followingOk_step h e hc) (fun _ _ h hc => not_followsSafely h hc)
    followingOk_deviceOn

/-- The order in which the host tool follows a piconet with AFH: no channel is counted when the
map arrives, and the first hop divides by zero. -/
theorem not_followsSafely_with_afh :
    ¬Throughout hopStep FollowsSafely (.ok deviceOn)
      [.request (.setBdaddr fun _ => 0), .request (.setAfhmap fun _ => 0xff),
        .request (.startHopping fun _ => 0)] := by
  intro h
  obtain ⟨c, hc, -⟩ := h _ (List.prefix_refl _) rfl 0
  rw [nextHop_of_none_used rfl (by decide +kernel)] at hc
  exact absurd hc (by simp)

end Ubertooth.Hopping
