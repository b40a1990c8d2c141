import Ubertooth.Host.UbertoothDfu

/-!
# Signing and checking agree

What `sign` appends are the 12 octets of `suffixHead` and the CRC of everything before it. The
reader finds them although it counts differently: the CRC covers what lies before the last four
octets, and the suffix begins 16 octets from the end (`checkSuffix_sign`).
-/

namespace Ubertooth.Host

open Foundations

/-- The octets of the suffix that its CRC covers. -/
def suffixHead (idVendor idProduct : U16) : List U8 :=
  octets16 0 ++ octets16 idProduct ++ octets16 idVendor ++ octets16 0x0100 ++
    [0x55, 0x46, 0x44] ++ [16]

/-- The suffix of a file. -/
def suffixOf (content : List U8) (idVendor idProduct : U16) : List U8 :=
  suffixHead idVendor idProduct ++ octets32 (crc32 (content ++ suffixHead idVendor idProduct))

@[simp] theorem length_suffixHead (idVendor idProduct : U16) :
    (suffixHead idVendor idProduct).length = 12 := rfl

@[simp] theorem length_suffixOf (content : List U8) (idVendor idProduct : U16) :
    (suffixOf content idVendor idProduct).length = 16 := rfl

/-! ## The writer -/

/-- The fields of the suffix but the CRC, written after `n` octets. -/
def storeHead (buffer : ℕ → U8) (n : ℕ) (idVendor idProduct : U16) : ℕ → U8 :=
  store (store (store (store (store (store buffer (n + 4) (octets16 idVendor))
    (n + 2) (octets16 idProduct)) n (octets16 0)) (n + 6) (octets16 0x0100))
    (n + 8) [0x55, 0x46, 0x44]) (n + 11) [16]

theorem load_storeHead (buffer : ℕ → U8) (n : ℕ) (idVendor idProduct : U16) :
    load (storeHead buffer n idVendor idProduct) n 12 = suffixHead idVendor idProduct := by
  unfold storeHead
  rw [load_append n 11 1, load_append n 8 3, load_append n 6 2, load_append n 4 2,
    load_append n 2 2]
  simp (disch := simp) only [load_store, load_store_of_le, load_store_of_lt]
  rfl

theorem load_storeHead_of_le (buffer : ℕ → U8) (n : ℕ) (idVendor idProduct : U16) :
    load (storeHead buffer n idVendor idProduct) 0 n = load buffer 0 n := by
  unfold storeHead
  simp (disch := simp) only [load_store_of_le]

theorem toNat_length {n : ℕ} (h : n + 16 < 2 ^ 31) : (BitVec.ofNat 32 n).toNat = n := by
  rw [BitVec.toNat_ofNat]
  exact Nat.mod_eq_of_lt (by omega)

theorem toNat_length_add {n : ℕ} (h : n + 16 < 2 ^ 31) :
    (BitVec.ofNat 32 n + BitVec.ofNat 32 dfuSuffixSize).toNat = n + 16 := by
  rw [← BitVec.ofNat_add, BitVec.toNat_ofNat]
  exact Nat.mod_eq_of_lt (show n + 16 < 2 ^ 32 by omega)

/-- What `sign` appends to the output. -/
theorem sign_spec {malloc : Malloc} {buffer : ℕ → U8} {infile : CFile} (outfile : CFile)
    (idVendor idProduct : U16) (hlength : infile.content.length + 16 < 2 ^ 31)
    (hmalloc : malloc (infile.content.length + 16) = some buffer)
    (hout : outfile.pos = outfile.content.length) :
    (sign malloc infile outfile idVendor idProduct).1 = 0 ∧
      (sign malloc infile outfile idVendor idProduct).2.2.content = outfile.content ++
        (infile.content ++ suffixOf infile.content idVendor idProduct) := by
  obtain ⟨content, pos⟩ := infile
  dsimp only at hlength hmalloc
  have hread := CFile.fread_head content []
  rw [List.append_nil] at hread
  let head := storeHead (store buffer 0 content) content.length idVendor idProduct
  have hhead : load head 0 (content.length + 12) = content ++ suffixHead idVendor idProduct := by
    rw [load_append, Nat.zero_add, load_storeHead, load_storeHead_of_le, load_store rfl]
  have hall : load (store head (content.length + 12) (octets32 (crc32
      (load head 0 (content.length + 12))))) 0 (content.length + 16) =
        content ++ suffixOf content idVendor idProduct := by
    rw [load_append 0 (content.length + 12) 4, load_store_of_le (by omega), Nat.zero_add,
      load_store (length_octets32 _), hhead, List.append_assoc]
    rfl
  unfold sign
  simp only [CFile.fseek_end, CFile.fseek_set, CFile.ftell, toNat_length_add hlength,
    toNat_length hlength, hmalloc, hread]
  refine ⟨trivial, (CFile.fwrite_at_end hout).trans ?_⟩
  rw [← hall]
  rfl

/-! ## The reader -/

/-- The suffix of a file, as a record. -/
def suffixRecord (content : List U8) (idVendor idProduct : U16) : DfuSuffix :=
  { bcdDevice := 0
    idProduct := idProduct
    idVendor := idVendor
    bcdDfu := 0x0100
    ucDfuSig := [0x55, 0x46, 0x44]
    bLength := 16
    dwCrc := crc32 (content ++ suffixHead idVendor idProduct) }

/-- The reader finds the fields of the suffix. -/
theorem suffixAt_store (memory : ℕ → U8) (content : List U8) (idVendor idProduct : U16) :
    suffixAt (store memory 0 (suffixOf content idVendor idProduct)) 0 =
      suffixRecord content idVendor idProduct := by
  unfold suffixAt suffixRecord
  congr 1
  · exact word16_of_load rfl
  · exact word16_of_load rfl
  · exact word16_of_load rfl
  · exact word16_of_load rfl
  · exact word32_of_load rfl

/-- A file that ends with its suffix is accepted. -/
theorem checkSuffix_spec {malloc : Malloc} {data : ℕ → U8} {content : List U8}
    (idVendor idProduct : U16) (hlength : content.length + 16 < 2 ^ 31)
    (hmalloc : malloc (content.length + 12) = some data) (pos : ℕ) (memory : ℕ → U8) :
    let signedfile : CFile :=
      { content := content ++ suffixOf content idVendor idProduct, pos := pos }
    (checkSuffix malloc signedfile memory).1 = 0 ∧
      (checkSuffix malloc signedfile memory).2.1 = suffixRecord content idVendor idProduct := by
  have hlen : (content ++ suffixOf content idVendor idProduct).length = content.length + 16 := by
    rw [List.length_append, length_suffixOf]
  have hdata : (BitVec.ofNat 32 (content.length + 16) - 4 : U32).toNat = content.length + 12 := by
    bv_omega
  have htail : ∀ pos, (CFile.fseek { content := content ++ suffixOf content idVendor idProduct
                                     pos := pos } (-16) .fromEnd).fread 16 = _ :=
    CFile.fread_tail content (suffixOf content idVendor idProduct)
  have hhead : CFile.fread { content := content ++ suffixOf content idVendor idProduct }
      (content.length + 12) = (content ++ suffixHead idVendor idProduct,
        { content := content ++ suffixOf content idVendor idProduct
          pos := content.length + 12 }) := by
    have h := CFile.fread_head (content ++ suffixHead idVendor idProduct)
      (octets32 (crc32 (content ++ suffixHead idVendor idProduct)))
    rwa [List.append_assoc, List.length_append, length_suffixHead] at h
  have hcrc : crc32 (load (store data 0 (content ++ suffixHead idVendor idProduct)) 0
      (content ++ suffixHead idVendor idProduct).length) =
        (suffixRecord content idVendor idProduct).dwCrc :=
    congrArg crc32 (load_store rfl)
  intro signedfile
  have hcheck : checkSuffix malloc signedfile memory = (0, suffixRecord content idVendor idProduct,
      { content := content ++ suffixOf content idVendor idProduct
        pos := content.length + 12 }) := by
    unfold checkSuffix
    simp only [signedfile, CFile.fseek_end, CFile.fseek_set, CFile.ftell, hlen, hdata, hmalloc,
      htail, suffixAt_store, hhead, hcrc]
    rw [if_neg (fun h => h rfl), if_neg (fun h => h.1 rfl), if_neg (fun h => h rfl),
      if_neg (fun h => h rfl)]
  rw [hcheck]
  exact ⟨rfl, rfl⟩

/-! ## The round trip -/

/-- `check_suffix` accepts a file and reads the ids back, wherever the file position is. -/
def Accepts (malloc : Malloc) (content : List U8) (idVendor idProduct : U16) : Prop :=
  ∀ pos memory,
    let c := checkSuffix malloc { content := content, pos := pos } memory
    c.1 = 0 ∧ c.2.1.idVendor = idVendor ∧ c.2.1.idProduct = idProduct

/-- **Signing and checking agree.** The output of `sign` is the input and 16 octets, and
`check_suffix` accepts it and reads the ids back, if the memory they ask for is found. -/
theorem checkSuffix_sign {malloc : Malloc} {infile : CFile} (idVendor idProduct : U16)
    (hlength : infile.content.length + 16 < 2 ^ 31)
    (hsign : (malloc (infile.content.length + 16)).isSome)
    (hcheck : (malloc (infile.content.length + 12)).isSome) :
    let r := sign malloc infile { content := [] } idVendor idProduct
    r.1 = 0 ∧ (∃ suffix : List U8, suffix.length = 16 ∧
      r.2.2.content = infile.content ++ suffix) ∧
      Accepts malloc r.2.2.content idVendor idProduct := by
  obtain ⟨buffer, hbuffer⟩ := Option.isSome_iff_exists.1 hsign
  obtain ⟨data, hdata⟩ := Option.isSome_iff_exists.1 hcheck
  obtain ⟨hzero, hcontent⟩ := sign_spec { content := [] } idVendor idProduct hlength hbuffer rfl
  rw [List.nil_append] at hcontent
  refine ⟨hzero, ⟨suffixOf infile.content idVendor idProduct, rfl, hcontent⟩, ?_⟩
  intro pos memory
  obtain ⟨haccepted, hsuffix⟩ := checkSuffix_spec idVendor idProduct hlength hdata pos memory
  dsimp only at haccepted hsuffix ⊢
  rw [hcontent, haccepted, hsuffix]
  exact ⟨rfl, rfl, rfl⟩

/-- A file of three octets is signed and checked, the file position being at its end. -/
theorem checkSuffix_sign_octets :
    let r := sign (fun _ => some fun _ => 0) { content := [0x12, 0x34, 0x56], pos := 3 }
      { content := [] } 0x1d50 0x6003
    r.1 = 0 ∧ (∃ suffix : List U8, suffix.length = 16 ∧
      r.2.2.content = [0x12, 0x34, 0x56] ++ suffix) ∧
      Accepts (fun _ => some fun _ => 0) r.2.2.content 0x1d50 0x6003 := by
  have hlength :
      ({ content := [0x12, 0x34, 0x56], pos := 3 } : CFile).content.length + 16 < 2 ^ 31 := by
    decide
  exact checkSuffix_sign 0x1d50 0x6003 hlength rfl rfl

end Ubertooth.Host
