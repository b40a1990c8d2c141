import Ubertooth.Foundations.ShiftRegister
import Ubertooth.Host.Suffix

/-!
# What `check_suffix` accepts

The return value of `check_suffix` depends on the suffix it has in its memory, on the octets it
takes the CRC of, and on whether `malloc` finds room for them (`checkSuffix_eq_zero_iff`). In a file
of at least 16 octets the suffix is the file's own; in a shorter one the seek to it fails, nothing
is read, and the suffix is what the memory held before. The number of octets is computed in 32 bits.
`checkSuffix_decides_iff` says of which files `check_suffix` therefore decides the format, and
`decidesFormat_length_iff` of which lengths it decides the format of all files.
-/

namespace Ubertooth.Host

open Foundations Foundations.ShiftRegister

/-! ## The CRC -/

/-- The taps of the register: what the table has for the top bit alone. -/
def crc32Taps : BitVec 32 := 0xedb88320

theorem msb_crc32Taps : crc32Taps.msb = true := by decide

/-- The bits of a file, octets in order, least significant bit first. -/
def fileBits (content : List U8) : List Bool := content.flatMap (bits 8)

theorem fileBits_append (a b : List U8) : fileBits (a ++ b) = fileBits a ++ fileBits b :=
  List.flatMap_append

theorem length_fileBits (content : List U8) : (fileBits content).length = 8 * content.length :=
  length_flatMap_bits content

theorem fileBits_injective : Function.Injective fileBits := flatMap_bits_injective (by decide)

/-- The table is what the register makes of each octet. -/
theorem crcTable_getD (k : Fin 256) :
    crcTable.getD k.val 0 = feed crc32Taps 0#32 (bits 8 (BitVec.ofFin k : U8)) := by
  revert k
  decide +kernel

theorem crc32Step_eq (crc : U32) (octet : U8) :
    crc32Step crc octet = feed crc32Taps crc (bits 8 octet) := by
  have hindex : ((crc ^^^ octet.setWidth 32) &&& 0xff).toNat =
      (crc.setWidth 8 ^^^ octet).toFin.val := by
    have hmask : (0xff : U32) = (BitVec.allOnes 8).setWidth 32 := rfl
    have hword : (crc ^^^ octet.setWidth 32) &&& 0xff = (crc.setWidth 8 ^^^ octet).setWidth 32 := by
      apply BitVec.eq_of_getLsbD_eq
      intro i hi
      rw [hmask, BitVec.getLsbD_and, BitVec.getLsbD_setWidth, BitVec.getLsbD_allOnes,
        BitVec.getLsbD_setWidth, BitVec.getLsbD_xor, BitVec.getLsbD_xor, BitVec.getLsbD_setWidth,
        BitVec.getLsbD_setWidth]
      by_cases h8 : i < 8
      · simp [hi, h8]
      · simp [h8, BitVec.getLsbD_of_ge octet i (by omega)]
    rw [hword, BitVec.toNat_setWidth_of_le (by omega)]
    rfl
  rw [crc32Step, hindex, crcTable_getD, feed_bits_table crc octet]

theorem crc32_eq_feed (octets : List U8) :
    crc32 octets = feed crc32Taps 0xffffffff (fileBits octets) := by
  have hfold : ∀ s : U32, octets.foldl crc32Step s = feed crc32Taps s (fileBits octets) := by
    induction octets with
    | nil => exact fun _ => rfl
    | cons c octets ih =>
      intro s
      rw [List.foldl_cons, ih, crc32Step_eq, ← feed_append]
      rfl
  exact hfold _

/-- One octet more or less changed shows in the CRC. -/
theorem crc32_octet_injective (a b : List U8) :
    Function.Injective fun octet => crc32 (a ++ octet :: b) := by
  intro x y h
  have hsplit : ∀ octet, fileBits (a ++ octet :: b) =
      fileBits a ++ (bits 8 octet ++ fileBits b) := fun octet => by
    rw [fileBits_append]
    rfl
  dsimp only at h
  rw [crc32_eq_feed, crc32_eq_feed, hsplit, hsplit, feed_append, feed_append, feed_append,
    feed_append] at h
  exact bits_injective 8 (eq_of_feed_eq msb_crc32Taps _ (by simp) (by simp)
    (feed_injective msb_crc32Taps _ h))

/-! ## The format -/

/-- The last 16 octets of a file, as a record. -/
def lastSuffix (content : List U8) : DfuSuffix :=
  suffixAt (fun i => content.getD (content.length - 16 + i) 0) 0

/-- The fields `check_suffix` knows. -/
structure FieldsKnown (suffix : DfuSuffix) : Prop where
  bLength : suffix.bLength = 16
  bcdDfu : suffix.bcdDfu = 0x0100 ∨ suffix.bcdDfu = 0x0101
  ucDfuSig : suffix.ucDfuSig = [0x55, 0x46, 0x44]

instance (suffix : DfuSuffix) : Decidable (FieldsKnown suffix) :=
  decidable_of_iff (suffix.bLength = 16 ∧ (suffix.bcdDfu = 0x0100 ∨ suffix.bcdDfu = 0x0101) ∧
    suffix.ucDfuSig = [0x55, 0x46, 0x44])
    ⟨fun h => ⟨h.1, h.2.1, h.2.2⟩, fun h => ⟨h.bLength, h.bcdDfu, h.ucDfuSig⟩⟩

/-- A file with a suffix at its end, and with the CRC of what lies before that. -/
structure DfuFormat (content : List U8) : Prop where
  length_le : 16 ≤ content.length
  fields : FieldsKnown (lastSuffix content)
  dwCrc : (lastSuffix content).dwCrc = crc32 (content.take (content.length - 4))

/-- `data_length` for a file of `n` octets -/
def dataLength (n : ℕ) : ℕ := (BitVec.ofNat 32 n - 4 : U32).toNat

theorem dataLength_eq {n : ℕ} (h : 4 ≤ n) (h' : n < 2 ^ 32 + 4) : dataLength n = n - 4 := by
  unfold dataLength
  bv_omega

theorem dataLength_eq_mod {n : ℕ} (h : 4 ≤ n) : dataLength n = (n - 4) % 2 ^ 32 := by
  unfold dataLength
  rw [BitVec.toNat_sub, BitVec.toNat_ofNat]
  change (2 ^ 32 - 4 + n % 2 ^ 32) % 2 ^ 32 = (n - 4) % 2 ^ 32
  omega

theorem dataLength_lt (n : ℕ) : dataLength n < 2 ^ 32 := BitVec.isLt _

/-! ## The suffix in memory -/

theorem suffixAt_congr {m m' : ℕ → U8} {a b : ℕ} (h : ∀ i < 16, m (a + i) = m' (b + i)) :
    suffixAt m a = suffixAt m' b := by
  have hload : load m (a + 8) 3 = load m' (b + 8) 3 := by
    apply List.map_congr_left
    intro k hk
    have hk' : k < 3 := List.mem_range.1 hk
    rw [Nat.add_assoc, Nat.add_assoc]
    exact h _ (by omega)
  have h16 : ∀ k < 15, word16 m (a + k) = word16 m' (b + k) := by
    intro k hk
    simp only [word16, Nat.add_assoc, h k (by omega), h (k + 1) (by omega)]
  have h32 : word32 m (a + 12) = word32 m' (b + 12) := by
    simp only [word32, Nat.add_assoc, Nat.reduceAdd, h 12 (by omega), h 13 (by omega),
      h 14 (by omega), h 15 (by omega)]
  have hfirst : word16 m a = word16 m' b := h16 0 (by omega)
  rw [suffixAt, suffixAt, hload, hfirst, h16 2 (by omega), h16 4 (by omega), h16 6 (by omega),
    h 11 (by omega), h32]

/-- The suffix `check_suffix` judges. -/
def judgedSuffix (content : List U8) (memory : ℕ → U8) : DfuSuffix :=
  if 16 ≤ content.length then lastSuffix content else suffixAt memory 0

/-- The octets read after the seek to the suffix. -/
theorem fread_seek_end (content : List U8) (pos : ℕ) :
    (((CFile.fseek { content := content, pos := pos } 0 .fromEnd).fseek (-16) .fromEnd).fread
      16).1 = if 16 ≤ content.length then content.drop (content.length - 16) else [] := by
  rw [CFile.fseek_end]
  split
  case isTrue h =>
    have hseek := CFile.fseek_before_end (f := { content := content, pos := content.length }) h
    rw [Nat.cast_ofNat] at hseek
    rw [hseek]
    apply List.take_of_length_le
    rw [List.length_drop]
    dsimp only
    omega
  case isFalse h =>
    have hneg : (-16 : ℤ) + (content.length : ℤ) < 0 := by omega
    unfold CFile.fseek
    dsimp only
    rw [if_pos hneg]
    simp [CFile.fread]

theorem suffixAt_store_read (content : List U8) (memory : ℕ → U8) :
    suffixAt (store memory 0
      (if 16 ≤ content.length then content.drop (content.length - 16) else [])) 0 =
      judgedSuffix content memory := by
  unfold judgedSuffix
  split
  case isTrue h =>
    apply suffixAt_congr
    intro i hi
    have hlt : i < (content.drop (content.length - 16)).length := by
      rw [List.length_drop]
      omega
    rw [store_add hlt, List.getElem_drop, Nat.zero_add, List.getD_eq_getElem]
  case isFalse h =>
    apply suffixAt_congr
    intro i _
    exact store_of_le (Nat.zero_le _)

/-- The octets read from the beginning, and where `data` then holds them. -/
theorem load_fread_set (f : CFile) (data : ℕ → U8) (n : ℕ) :
    load (store data 0 ((f.fseek 0 .set).fread n).1) 0 ((f.fseek 0 .set).fread n).1.length =
      f.content.take n := by
  rw [load_store rfl]
  rfl

/-- What `check_suffix` accepts. -/
structure Accepted (malloc : Malloc) (content : List U8) (memory : ℕ → U8) : Prop where
  fields : FieldsKnown (judgedSuffix content memory)
  malloc_isSome : (malloc (dataLength content.length)).isSome
  dwCrc : crc32 (content.take (dataLength content.length)) = (judgedSuffix content memory).dwCrc

theorem accepted_iff {malloc : Malloc} {content : List U8} {memory : ℕ → U8} :
    Accepted malloc content memory ↔
      FieldsKnown (judgedSuffix content memory) ∧ (malloc (dataLength content.length)).isSome ∧
        crc32 (content.take (dataLength content.length)) = (judgedSuffix content memory).dwCrc :=
  ⟨fun h => ⟨h.fields, h.malloc_isSome, h.dwCrc⟩, fun h => ⟨h.1, h.2.1, h.2.2⟩⟩

instance (malloc : Malloc) (content : List U8) (memory : ℕ → U8) :
    Decidable (Accepted malloc content memory) := decidable_of_iff _ accepted_iff.symm

/-- **The return value.** -/
theorem checkSuffix_eq (malloc : Malloc) (content : List U8) (pos : ℕ) (memory : ℕ → U8) :
    (checkSuffix malloc { content := content, pos := pos } memory).1 =
      if Accepted malloc content memory then 0 else 1 := by
  simp only [accepted_iff]
  have htell : (CFile.fseek { content := content, pos := pos } 0 .fromEnd).ftell =
      content.length := by
    rw [CFile.fseek_end]
    rfl
  have hlength : (BitVec.ofNat 32 content.length - 4 : U32).toNat = dataLength content.length := rfl
  unfold checkSuffix
  simp only [fread_seek_end, suffixAt_store_read, htell, hlength, load_fread_set,
    CFile.content_fread, CFile.content_fseek]
  generalize judgedSuffix content memory = suffix
  by_cases hlen : suffix.bLength = 16
  case neg => rw [if_pos hlen, if_neg fun h => hlen h.1.bLength]
  rw [if_neg (not_not_intro hlen)]
  by_cases hversion : suffix.bcdDfu = 0x0100 ∨ suffix.bcdDfu = 0x0101
  case neg => rw [if_pos (not_or.1 hversion), if_neg fun h => hversion h.1.bcdDfu]
  rw [if_neg fun h => hversion.elim h.1 h.2]
  by_cases hsig : suffix.ucDfuSig = [0x55, 0x46, 0x44]
  case neg => rw [if_pos hsig, if_neg fun h => hsig h.1.ucDfuSig]
  rw [if_neg (not_not_intro hsig)]
  have hfields : FieldsKnown suffix := ⟨hlen, hversion, hsig⟩
  cases hmalloc : malloc (dataLength content.length) with
  | none => simp
  | some data =>
    simp only [hfields, Option.isSome_some, true_and]
    by_cases hcrc : crc32 (content.take (dataLength content.length)) = suffix.dwCrc
    · rw [if_neg (not_not_intro hcrc), if_pos hcrc]
    · rw [if_pos hcrc, if_neg hcrc]

theorem checkSuffix_eq_zero_iff (malloc : Malloc) (content : List U8) (pos : ℕ)
    (memory : ℕ → U8) :
    (checkSuffix malloc { content := content, pos := pos } memory).1 = 0 ↔
      Accepted malloc content memory := by
  rw [checkSuffix_eq]
  by_cases h : Accepted malloc content memory
  · simp [h]
  · simp [h]

/-! ## Files made up -/

/-- A suffix with the fields `check_suffix` knows, and a CRC of any value. -/
theorem suffixAt_of_octets {m : ℕ → U8} {a : ℕ} {idVendor idProduct : U16} {crc : U32}
    (h : load m a 16 = suffixHead idVendor idProduct ++ octets32 crc) :
    FieldsKnown (suffixAt m a) ∧ (suffixAt m a).dwCrc = crc := by
  rw [load_append a 12 4] at h
  obtain ⟨hhead, hcrc⟩ := List.append_inj h (length_load a 12)
  rw [load_append a 11 1, load_append a 8 3, load_append a 6 2] at hhead
  obtain ⟨hhead, hlen⟩ := List.append_inj hhead rfl
  obtain ⟨hhead, hsig⟩ := List.append_inj hhead rfl
  obtain ⟨-, hversion⟩ := List.append_inj hhead rfl
  refine ⟨⟨List.singleton_inj.1 hlen, Or.inl (word16_of_load hversion), hsig⟩,
    word32_of_load hcrc⟩

/-- A file that ends with such a suffix. -/
def madeUp (body : List U8) (crc : U32) : List U8 := body ++ (suffixHead 0 0 ++ octets32 crc)

/-- A memory that holds such a suffix. -/
def staleMemory (crc : U32) : ℕ → U8 := store (fun _ => 0) 0 (suffixHead 0 0 ++ octets32 crc)

@[simp] theorem length_madeUp (body : List U8) (crc : U32) :
    (madeUp body crc).length = body.length + 16 := by
  simp [madeUp]

theorem suffixAt_staleMemory (crc : U32) :
    FieldsKnown (suffixAt (staleMemory crc) 0) ∧ (suffixAt (staleMemory crc) 0).dwCrc = crc :=
  suffixAt_of_octets (load_store (by simp))

/-- The last octets of a file, as memory. -/
theorem load_getD {content : List U8} {k n : ℕ} (h : k + n = content.length) :
    load (fun i => content.getD (k + i) 0) 0 n = content.drop k := by
  apply List.ext_getElem
  · rw [length_load, List.length_drop]
    omega
  · intro i hi hi'
    rw [length_load] at hi
    rw [getElem_load, List.getElem_drop, Nat.zero_add, List.getD_eq_getElem]

theorem lastSuffix_madeUp (body : List U8) (crc : U32) :
    FieldsKnown (lastSuffix (madeUp body crc)) ∧ (lastSuffix (madeUp body crc)).dwCrc = crc := by
  have hoctets : load (fun i => (madeUp body crc).getD ((madeUp body crc).length - 16 + i) 0) 0 16 =
      suffixHead 0 0 ++ octets32 crc := by
    rw [load_getD (by rw [length_madeUp]; omega), length_madeUp, Nat.add_sub_cancel, madeUp,
      List.drop_left]
  exact suffixAt_of_octets hoctets

theorem judgedSuffix_of_le {content : List U8} (h : 16 ≤ content.length) (memory : ℕ → U8) :
    judgedSuffix content memory = lastSuffix content := if_pos h

theorem judgedSuffix_of_lt {content : List U8} (h : content.length < 16) (memory : ℕ → U8) :
    judgedSuffix content memory = suffixAt memory 0 := if_neg (Nat.not_le.2 h)

theorem take_madeUp (body : List U8) (crc : U32) :
    (madeUp body crc).take ((madeUp body crc).length - 4) = body ++ suffixHead 0 0 := by
  have hassoc : madeUp body crc = (body ++ suffixHead 0 0) ++ octets32 crc := by
    rw [madeUp, List.append_assoc]
  rw [hassoc, List.length_append, length_octets32, Nat.add_sub_cancel, List.take_left]

/-- Any file can be made up to have the format. -/
theorem dfuFormat_madeUp_iff (body : List U8) (crc : U32) :
    DfuFormat (madeUp body crc) ↔ crc = crc32 (body ++ suffixHead 0 0) := by
  obtain ⟨hfields, hcrc⟩ := lastSuffix_madeUp body crc
  constructor
  · intro h
    rw [← hcrc, h.dwCrc, take_madeUp]
  · intro h
    refine ⟨by rw [length_madeUp]; omega, hfields, ?_⟩
    rw [hcrc, take_madeUp, h]

/-- A file of fewer than 16 octets is accepted by a memory made up for it. -/
theorem accepted_staleMemory {malloc : Malloc} {content : List U8} (h : content.length < 16)
    (hmalloc : (malloc (dataLength content.length)).isSome) :
    Accepted malloc content (staleMemory (crc32 (content.take (dataLength content.length)))) := by
  obtain ⟨hfields, hcrc⟩ :=
    suffixAt_staleMemory (crc32 (content.take (dataLength content.length)))
  refine ⟨?_, hmalloc, ?_⟩
  · rw [judgedSuffix_of_lt h]
    exact hfields
  · rw [judgedSuffix_of_lt h, hcrc]

/-- A file of at least 16 octets is accepted if its CRC is that of the octets read. -/
theorem accepted_madeUp_iff {malloc : Malloc} {body : List U8} {crc : U32} {memory : ℕ → U8} :
    Accepted malloc (madeUp body crc) memory ↔
      (malloc (dataLength (body.length + 16))).isSome ∧
        crc32 ((madeUp body crc).take (dataLength (body.length + 16))) = crc := by
  have hle : 16 ≤ (madeUp body crc).length := by
    rw [length_madeUp]
    omega
  obtain ⟨hfields, hcrc⟩ := lastSuffix_madeUp body crc
  constructor
  · rintro ⟨-, hmalloc, hread⟩
    rw [judgedSuffix_of_le hle, hcrc, length_madeUp] at hread
    rw [length_madeUp] at hmalloc
    exact ⟨hmalloc, hread⟩
  · rintro ⟨hmalloc, hread⟩
    refine ⟨?_, ?_, ?_⟩
    · rwa [judgedSuffix_of_le hle]
    · rwa [length_madeUp]
    · rwa [judgedSuffix_of_le hle, hcrc, length_madeUp]

/-! ## Deciding the format -/

/-- `check_suffix` returns 0 for a file exactly if it has the format, and what it returns does not
depend on anything but the file. -/
structure DecidesFormat (malloc : Malloc) (content : List U8) : Prop where
  eq_zero_iff : ∀ pos memory,
    (checkSuffix malloc { content := content, pos := pos } memory).1 = 0 ↔ DfuFormat content
  eq : ∀ pos memory pos' memory',
    (checkSuffix malloc { content := content, pos := pos } memory).1 =
      (checkSuffix malloc { content := content, pos := pos' } memory').1

theorem decidesFormat_iff (malloc : Malloc) (content : List U8) :
    DecidesFormat malloc content ↔
      ∀ memory, Accepted malloc content memory ↔ DfuFormat content := by
  constructor
  · intro h memory
    rw [← checkSuffix_eq_zero_iff malloc content 0 memory]
    exact h.eq_zero_iff 0 memory
  · intro h
    refine ⟨fun pos memory => (checkSuffix_eq_zero_iff ..).trans (h memory), ?_⟩
    intro pos memory pos' memory'
    have hsame : Accepted malloc content memory ↔ Accepted malloc content memory' :=
      (h memory).trans (h memory').symm
    rw [checkSuffix_eq, checkSuffix_eq]
    simp only [hsame]

/-! ### Lengths -/

/-- The format is decided where the length is computed as it should be. -/
theorem decidesFormat_of_length {malloc : Malloc} {content : List U8} (h : 16 ≤ content.length)
    (h' : content.length < 2 ^ 32 + 4) (hmalloc : (malloc (content.length - 4)).isSome) :
    DecidesFormat malloc content := by
  have hlen : dataLength content.length = content.length - 4 := dataLength_eq (by omega) h'
  rw [decidesFormat_iff]
  intro memory
  rw [accepted_iff, judgedSuffix_of_le h, hlen]
  exact ⟨fun ha => ⟨h, ha.1, ha.2.2.symm⟩, fun hf => ⟨hf.fields, hmalloc, hf.dwCrc.symm⟩⟩

/-- If no memory is found nothing is accepted. -/
theorem not_accepted_of_malloc {malloc : Malloc} {content : List U8}
    (h : malloc (dataLength content.length) = none) (memory : ℕ → U8) :
    ¬Accepted malloc content memory := by
  intro ha
  have hsome := ha.malloc_isSome
  rw [h] at hsome
  exact absurd hsome (by simp)

/-- Some file of a length that is too short is accepted by some memory. -/
theorem not_decidesFormat_of_short {malloc : Malloc} {content : List U8}
    (h : content.length < 16) (hmalloc : (malloc (dataLength content.length)).isSome) :
    ¬DecidesFormat malloc content := by
  intro hd
  have hformat := ((decidesFormat_iff malloc content).1 hd _).1 (accepted_staleMemory h hmalloc)
  exact absurd hformat.length_le (by omega)

/-- A body whose octet after the first `d` is `x`. -/
def bodyWith (n d : ℕ) (x : U8) : List U8 :=
  List.replicate d 0 ++ x :: List.replicate (n - 17 - d) 0

theorem length_bodyWith {n d : ℕ} (h : d + 17 ≤ n) (x : U8) :
    (bodyWith n d x).length + 16 = n := by
  simp only [bodyWith, List.length_append, List.length_replicate, List.length_cons]
  omega

theorem take_madeUp_bodyWith (n d : ℕ) (x : U8) (crc : U32) :
    (madeUp (bodyWith n d x) crc).take d = List.replicate d 0 := by
  rw [madeUp, bodyWith, List.append_assoc, List.take_left' List.length_replicate]

/-- Past `2^32 + 3` octets the CRC is taken of the first ones only. -/
theorem dataLength_add_le {n : ℕ} (h : 2 ^ 32 + 4 ≤ n) : dataLength n + 17 ≤ n := by
  have hlt := dataLength_lt n
  rw [dataLength_eq_mod (by omega)]
  omega

theorem not_decidesFormat_of_long {malloc : Malloc} {n : ℕ} (h : 2 ^ 32 + 4 ≤ n) :
    ¬∀ content : List U8, content.length = n → DecidesFormat malloc content := by
  intro hall
  have hd := dataLength_add_le h
  have hlen : ∀ x, (bodyWith n (dataLength n) x).length + 16 = n := length_bodyWith hd
  -- two files that have the format, and one CRC of the octets read
  have hcrc : ∀ x, crc32 (List.replicate (dataLength n) 0) =
      crc32 (bodyWith n (dataLength n) x ++ suffixHead 0 0) := by
    intro x
    have hformat := (dfuFormat_madeUp_iff (bodyWith n (dataLength n) x) _).2 rfl
    have hdecides := hall (madeUp (bodyWith n (dataLength n) x)
      (crc32 (bodyWith n (dataLength n) x ++ suffixHead 0 0)))
      ((length_madeUp _ _).trans (hlen x))
    have haccepted := ((decidesFormat_iff malloc _).1 hdecides fun _ => 0).2 hformat
    have hread := (accepted_madeUp_iff.1 haccepted).2
    rwa [hlen, take_madeUp_bodyWith] at hread
  have hsame := (hcrc 0).symm.trans (hcrc 1)
  rw [bodyWith, bodyWith, List.append_assoc, List.append_assoc] at hsame
  exact absurd (crc32_octet_injective _ _ hsame) (by simp)

/-- The format of all files of a length is decided exactly when this lies from 16 to `2^32 + 3` and
there is memory for the check, or lies below 16 and there is no memory for it. -/
theorem decidesFormat_length_iff (malloc : Malloc) (n : ℕ) :
    (∀ content : List U8, content.length = n → DecidesFormat malloc content) ↔
      16 ≤ n ∧ n < 2 ^ 32 + 4 ∧ (malloc (n - 4)).isSome ∨
        n < 16 ∧ malloc (dataLength n) = none := by
  constructor
  · intro hall
    rcases Nat.lt_or_ge n 16 with hshort | hge
    · refine Or.inr ⟨hshort, ?_⟩
      by_contra hsome
      have hlen : (List.replicate n (0 : U8)).length = n := List.length_replicate
      refine not_decidesFormat_of_short (by rwa [hlen]) ?_ (hall _ hlen)
      rw [hlen]
      exact Option.isSome_iff_ne_none.2 hsome
    · have hlt : n < 2 ^ 32 + 4 := by
        by_contra hlong
        exact not_decidesFormat_of_long (Nat.not_lt.1 hlong) hall
      refine Or.inl ⟨hge, hlt, ?_⟩
      have hlen : (List.replicate (n - 16) (0 : U8)).length + 16 = n := by
        rw [List.length_replicate, Nat.sub_add_cancel hge]
      have hformat := (dfuFormat_madeUp_iff (List.replicate (n - 16) 0) _).2 rfl
      have hdecides := hall (madeUp (List.replicate (n - 16) 0)
        (crc32 (List.replicate (n - 16) 0 ++ suffixHead 0 0)))
        ((length_madeUp _ _).trans hlen)
      have haccepted := ((decidesFormat_iff malloc _).1 hdecides fun _ => 0).2 hformat
      have hmalloc := (accepted_madeUp_iff.1 haccepted).1
      rwa [hlen, dataLength_eq (by omega) hlt] at hmalloc
  · rintro (⟨hge, hlt, hmalloc⟩ | ⟨hshort, hnone⟩)
    · rintro content rfl
      exact decidesFormat_of_length hge hlt hmalloc
    · rintro content rfl
      rw [decidesFormat_iff]
      intro memory
      exact iff_of_false (not_accepted_of_malloc hnone memory)
        fun hformat => absurd hformat.length_le (by omega)

/-! ### Files -/

/-- What `check_suffix` makes of the CRC of a file with a suffix: it is right and covers what the
suffix says, for which there is memory, or it is wrong and does not happen to be that of what is
read. -/
def JudgesCrc (malloc : Malloc) (content : List U8) : Prop :=
  if (lastSuffix content).dwCrc = crc32 (content.take (content.length - 4)) then
    (malloc (dataLength content.length)).isSome ∧
      (lastSuffix content).dwCrc = crc32 (content.take (dataLength content.length))
  else
    malloc (dataLength content.length) = none ∨
      (lastSuffix content).dwCrc ≠ crc32 (content.take (dataLength content.length))

/-- Of a file of at most `2^32 + 3` octets it misjudges only a right CRC, for want of memory. -/
theorem judgesCrc_iff_of_length {malloc : Malloc} {content : List U8} (h : 4 ≤ content.length)
    (h' : content.length < 2 ^ 32 + 4) :
    JudgesCrc malloc content ↔
      ((lastSuffix content).dwCrc = crc32 (content.take (content.length - 4)) →
        (malloc (content.length - 4)).isSome) := by
  rw [JudgesCrc, dataLength_eq h h']
  split
  case isTrue hright => simp [hright]
  case isFalse hwrong => simp [hwrong]

/-- **When the format is decided.** Of a file of fewer than 16 octets, exactly when there is no
memory for the check; of a longer one, exactly when its last octets are no suffix that is known, or
the CRC is judged as it should be. -/
theorem checkSuffix_decides_iff (malloc : Malloc) (content : List U8) :
    DecidesFormat malloc content ↔
      content.length < 16 ∧ malloc (dataLength content.length) = none ∨
        16 ≤ content.length ∧
          (¬FieldsKnown (lastSuffix content) ∨ JudgesCrc malloc content) := by
  rcases Nat.lt_or_ge content.length 16 with hshort | hge
  · constructor
    · intro hdecides
      refine Or.inl ⟨hshort, ?_⟩
      by_contra hsome
      exact not_decidesFormat_of_short hshort (Option.isSome_iff_ne_none.2 hsome) hdecides
    · rintro (⟨-, hnone⟩ | ⟨hge, -⟩)
      · rw [decidesFormat_iff]
        intro memory
        exact iff_of_false (not_accepted_of_malloc hnone memory)
          fun hformat => absurd hformat.length_le (by omega)
      · omega
  · have haccepted : ∀ memory, Accepted malloc content memory ↔
        FieldsKnown (lastSuffix content) ∧ (malloc (dataLength content.length)).isSome ∧
          crc32 (content.take (dataLength content.length)) = (lastSuffix content).dwCrc := by
      intro memory
      rw [accepted_iff, judgedSuffix_of_le hge]
    have hformat : DfuFormat content ↔ FieldsKnown (lastSuffix content) ∧
        (lastSuffix content).dwCrc = crc32 (content.take (content.length - 4)) :=
      ⟨fun h => ⟨h.fields, h.dwCrc⟩, fun h => ⟨hge, h.1, h.2⟩⟩
    rw [decidesFormat_iff, or_iff_right (fun h => absurd h.1 (Nat.not_lt.2 hge)),
      and_iff_right hge]
    simp only [haccepted, hformat, forall_const, JudgesCrc]
    by_cases hfields : FieldsKnown (lastSuffix content)
    case neg => simp only [hfields, false_and, iff_self, not_false_eq_true, true_or]
    simp only [hfields, true_and, not_true_eq_false, false_or]
    rw [eq_comm (a := crc32 (content.take (dataLength content.length)))]
    split
    case isTrue hright => simp only [hright, iff_true]
    case isFalse hwrong =>
      simp only [hwrong, iff_false, not_and_or, Option.not_isSome_iff_eq_none, ne_eq]

/-- Four octets, and a suffix left over in memory. -/
theorem not_decidesFormat_four_octets :
    ¬DecidesFormat (fun _ => some fun _ => 0) [0, 0, 0, 0] := by
  intro h
  have hzero : (checkSuffix (fun _ => some fun _ => 0) { content := [0, 0, 0, 0] }
      (staleMemory 0xffffffff)).1 = 0 := by decide +kernel
  exact absurd ((h.eq_zero_iff 0 _).1 hzero).length_le (by simp)

end Ubertooth.Host
