import Ubertooth.Interface
import Ubertooth.Foundations.Stdio

/-!
# `ubertooth-dfu.c`: the firmware update tool

The suffix of a DFU file (`sign`, `check_suffix`), and the transfers that read the firmware back and
write it (`upload`, `download`). What is at the other end of the bus is a parameter: a `Bus` answers
a control transfer, in whatever state it is. `malloc` is a parameter too, by what it finds in the
memory.
-/

namespace Ubertooth.Host

open Foundations

/-! ## `dfu.h` -/

/-- `crc_table` -/
def crcTable : List U32 := [
  0x00000000, 0x77073096, 0xee0e612c, 0x990951ba, 0x076dc419, 0x706af48f, 0xe963a535,
  0x9e6495a3, 0x0edb8832, 0x79dcb8a4, 0xe0d5e91e, 0x97d2d988, 0x09b64c2b, 0x7eb17cbd,
  0xe7b82d07, 0x90bf1d91, 0x1db71064, 0x6ab020f2, 0xf3b97148, 0x84be41de, 0x1adad47d,
  0x6ddde4eb, 0xf4d4b551, 0x83d385c7, 0x136c9856, 0x646ba8c0, 0xfd62f97a, 0x8a65c9ec,
  0x14015c4f, 0x63066cd9, 0xfa0f3d63, 0x8d080df5, 0x3b6e20c8, 0x4c69105e, 0xd56041e4,
  0xa2677172, 0x3c03e4d1, 0x4b04d447, 0xd20d85fd, 0xa50ab56b, 0x35b5a8fa, 0x42b2986c,
  0xdbbbc9d6, 0xacbcf940, 0x32d86ce3, 0x45df5c75, 0xdcd60dcf, 0xabd13d59, 0x26d930ac,
  0x51de003a, 0xc8d75180, 0xbfd06116, 0x21b4f4b5, 0x56b3c423, 0xcfba9599, 0xb8bda50f,
  0x2802b89e, 0x5f058808, 0xc60cd9b2, 0xb10be924, 0x2f6f7c87, 0x58684c11, 0xc1611dab,
  0xb6662d3d, 0x76dc4190, 0x01db7106, 0x98d220bc, 0xefd5102a, 0x71b18589, 0x06b6b51f,
  0x9fbfe4a5, 0xe8b8d433, 0x7807c9a2, 0x0f00f934, 0x9609a88e, 0xe10e9818, 0x7f6a0dbb,
  0x086d3d2d, 0x91646c97, 0xe6635c01, 0x6b6b51f4, 0x1c6c6162, 0x856530d8, 0xf262004e,
  0x6c0695ed, 0x1b01a57b, 0x8208f4c1, 0xf50fc457, 0x65b0d9c6, 0x12b7e950, 0x8bbeb8ea,
  0xfcb9887c, 0x62dd1ddf, 0x15da2d49, 0x8cd37cf3, 0xfbd44c65, 0x4db26158, 0x3ab551ce,
  0xa3bc0074, 0xd4bb30e2, 0x4adfa541, 0x3dd895d7, 0xa4d1c46d, 0xd3d6f4fb, 0x4369e96a,
  0x346ed9fc, 0xad678846, 0xda60b8d0, 0x44042d73, 0x33031de5, 0xaa0a4c5f, 0xdd0d7cc9,
  0x5005713c, 0x270241aa, 0xbe0b1010, 0xc90c2086, 0x5768b525, 0x206f85b3, 0xb966d409,
  0xce61e49f, 0x5edef90e, 0x29d9c998, 0xb0d09822, 0xc7d7a8b4, 0x59b33d17, 0x2eb40d81,
  0xb7bd5c3b, 0xc0ba6cad, 0xedb88320, 0x9abfb3b6, 0x03b6e20c, 0x74b1d29a, 0xead54739,
  0x9dd277af, 0x04db2615, 0x73dc1683, 0xe3630b12, 0x94643b84, 0x0d6d6a3e, 0x7a6a5aa8,
  0xe40ecf0b, 0x9309ff9d, 0x0a00ae27, 0x7d079eb1, 0xf00f9344, 0x8708a3d2, 0x1e01f268,
  0x6906c2fe, 0xf762575d, 0x806567cb, 0x196c3671, 0x6e6b06e7, 0xfed41b76, 0x89d32be0,
  0x10da7a5a, 0x67dd4acc, 0xf9b9df6f, 0x8ebeeff9, 0x17b7be43, 0x60b08ed5, 0xd6d6a3e8,
  0xa1d1937e, 0x38d8c2c4, 0x4fdff252, 0xd1bb67f1, 0xa6bc5767, 0x3fb506dd, 0x48b2364b,
  0xd80d2bda, 0xaf0a1b4c, 0x36034af6, 0x41047a60, 0xdf60efc3, 0xa867df55, 0x316e8eef,
  0x4669be79, 0xcb61b38c, 0xbc66831a, 0x256fd2a0, 0x5268e236, 0xcc0c7795, 0xbb0b4703,
  0x220216b9, 0x5505262f, 0xc5ba3bbe, 0xb2bd0b28, 0x2bb45a92, 0x5cb36a04, 0xc2d7ffa7,
  0xb5d0cf31, 0x2cd99e8b, 0x5bdeae1d, 0x9b64c2b0, 0xec63f226, 0x756aa39c, 0x026d930a,
  0x9c0906a9, 0xeb0e363f, 0x72076785, 0x05005713, 0x95bf4a82, 0xe2b87a14, 0x7bb12bae,
  0x0cb61b38, 0x92d28e9b, 0xe5d5be0d, 0x7cdcefb7, 0x0bdbdf21, 0x86d3d2d4, 0xf1d4e242,
  0x68ddb3f8, 0x1fda836e, 0x81be16cd, 0xf6b9265b, 0x6fb077e1, 0x18b74777, 0x88085ae6,
  0xff0f6a70, 0x66063bca, 0x11010b5c, 0x8f659eff, 0xf862ae69, 0x616bffd3, 0x166ccf45,
  0xa00ae278, 0xd70dd2ee, 0x4e048354, 0x3903b3c2, 0xa7672661, 0xd06016f7, 0x4969474d,
  0x3e6e77db, 0xaed16a4a, 0xd9d65adc, 0x40df0b66, 0x37d83bf0, 0xa9bcae53, 0xdebb9ec5,
  0x47b2cf7f, 0x30b5ffe9, 0xbdbdf21c, 0xcabac28a, 0x53b39330, 0x24b4a3a6, 0xbad03605,
  0xcdd70693, 0x54de5729, 0x23d967bf, 0xb3667a2e, 0xc4614ab8, 0x5d681b02, 0x2a6f2b94,
  0xb40bbe37, 0xc30c8ea1, 0x5a05df1b, 0x2d02ef8d]

/-- `DFU_suffix`, as it lies in memory -/
structure DfuSuffix where
  bcdDevice : U16
  idProduct : U16
  idVendor : U16
  bcdDfu : U16
  ucDfuSig : List U8
  bLength : U8
  dwCrc : U32
  deriving DecidableEq

/-- `sizeof(DFU_suffix)` -/
abbrev dfuSuffixSize : ℕ := 16

/-- The suffix at an address. -/
def suffixAt (m : ℕ → U8) (a : ℕ) : DfuSuffix :=
  { bcdDevice := word16 m a
    idProduct := word16 m (a + 2)
    idVendor := word16 m (a + 4)
    bcdDfu := word16 m (a + 6)
    ucDfuSig := load m (a + 8) 3
    bLength := m (a + 11)
    dwCrc := word32 m (a + 12) }

abbrev bootloaderOffset : ℕ := 0x0

abbrev bootloaderSize : ℕ := 0x4000

abbrev blockSize : ℕ := 1 <<< 8

abbrev sectorSize : ℕ := 1 <<< 12

/-! ## The suffix -/

def crc32Step (crc : U32) (octet : U8) : U32 :=
  (crc >>> 8) ^^^ crcTable.getD ((crc ^^^ octet.setWidth 32) &&& 0xff).toNat 0

/-- CRC32 implementation for DFU suffix -/
def crc32 (octets : List U8) : U32 := octets.foldl crc32Step 0xffffffff

/-- `malloc`, with what the memory holds that it finds. -/
abbrev Malloc := ℕ → Option (ℕ → U8)

/-- `check_suffix`; `memory` is what `suffix` points to. -/
def checkSuffix (malloc : Malloc) (signedfile : CFile) (memory : ℕ → U8) :
    ℤ × DfuSuffix × CFile :=
  let signedfile := signedfile.fseek 0 .fromEnd
  let dataLength : U32 := BitVec.ofNat 32 signedfile.ftell - 4 -- Ignore 4 byte CRC
  let r := (signedfile.fseek (-16) .fromEnd).fread 16
  let signedfile := r.2
  let suffix := suffixAt (store memory 0 r.1) 0
  if suffix.bLength ≠ 16 then (1, suffix, signedfile)
  -- We only know about dfu version 1.0/1.1
  else if suffix.bcdDfu ≠ 0x0100 ∧ suffix.bcdDfu ≠ 0x0101 then (1, suffix, signedfile)
  else if suffix.ucDfuSig ≠ [0x55, 0x46, 0x44] then (1, suffix, signedfile)
  else
    let signedfile := signedfile.fseek 0 .set
    match malloc dataLength.toNat with
    | none => (1, suffix, signedfile)
    | some data =>
      let r := signedfile.fread dataLength.toNat
      let crc := crc32 (load (store data 0 r.1) 0 r.1.length)
      if crc ≠ suffix.dwCrc then (1, suffix, r.2) else (0, suffix, r.2)

/-- Add a DFU suffix to `infile` and write to `outfile`, which are returned. -/
def sign (malloc : Malloc) (infile outfile : CFile) (idVendor idProduct : U16) :
    ℤ × CFile × CFile :=
  let infile := infile.fseek 0 .fromEnd
  let dataLength : U32 := BitVec.ofNat 32 infile.ftell
  let bufferLength : U32 := dataLength + BitVec.ofNat 32 dfuSuffixSize -- Add suffix
  match malloc bufferLength.toNat with
  | none => (1, infile, outfile)
  | some buffer =>
    let r := (infile.fseek 0 .set).fread dataLength.toNat
    let dataLength := r.1.length
    let buffer := store buffer 0 r.1
    let suffix := dataLength
    let buffer := store buffer (suffix + 4) (octets16 idVendor)
    let buffer := store buffer (suffix + 2) (octets16 idProduct)
    let buffer := store buffer suffix (octets16 0)
    let buffer := store buffer (suffix + 6) (octets16 0x0100)
    let buffer := store buffer (suffix + 8) [0x55, 0x46, 0x44]
    let buffer := store buffer (suffix + 11) [16]
    let buffer := store buffer (suffix + 12) (octets32 (crc32 (load buffer 0 (dataLength + 12))))
    (0, r.2, outfile.fwrite (load buffer 0 bufferLength.toNat))

/-! ## Control transfers -/

/-- The arguments of `libusb_control_transfer`; `data` is what the host sends. -/
structure ControlTransfer where
  /-- `DFU_IN` or `DFU_OUT` -/
  toHost : Bool
  bRequest : U8
  wValue : U16
  data : ℕ → U8
  wLength : U16

/-- What `libusb_control_transfer` returns, and what is then in the host's buffer. -/
structure Response where
  rv : ℤ
  data : ℕ → U8

/-- The device, as the host sees it. -/
abbrev Bus (δ : Type*) := ControlTransfer → δ → Response × δ

/-- `LIBUSB_ERROR_PIPE` -/
abbrev errorPipe : ℤ := -9

def dfuIn (bRequest : U8) (wValue : U16) (wLength : U16) : ControlTransfer :=
  { toHost := true, bRequest := bRequest, wValue := wValue, data := fun _ => 0, wLength := wLength }

def dfuOut (bRequest : U8) (wValue : U16) (octets : List U8) : ControlTransfer :=
  { toHost := false, bRequest := bRequest, wValue := wValue, data := fun i => octets.getD i 0
    wLength := BitVec.ofNat 16 octets.length }

section Transfers

variable {δ : Type*} (bus : Bus δ)

/-- The state the device reports, or an error. -/
def dfuGetState (d : δ) : ℤ × δ :=
  let r := bus (dfuIn 5 0 1) d
  if r.1.rv < 0 then (r.1.rv, r.2) else ((r.1.data 0).toNat, r.2)

def dfuClearStatus (d : δ) : ℤ × δ :=
  let r := bus (dfuOut 4 0 []) d
  if r.1.rv < 0 then (r.1.rv, r.2) else (0, r.2)

def dfuAbort (d : δ) : ℤ × δ :=
  let r := bus (dfuOut 6 0 []) d
  if r.1.rv < 0 then (r.1.rv, r.2) else (0, r.2)

/-- Its loop ends when the device is idle, or refuses to abort; `none` if it takes longer than the
first argument allows. -/
def enterDfuMode : ℕ → δ → Option (ℤ × δ)
  | 0, _ => none
  | fuel + 1, d =>
    let r := dfuGetState bus d
    let state : U8 := BitVec.ofInt 8 r.1
    if state = 2 then some (0, r.2)
    -- download, manifestation or upload under way
    else if state ∈ [3, 5, 6, 9, 7] then
      let a := dfuAbort bus r.2
      if a.1 < 0 then some a else enterDfuMode fuel a.2
    -- in error
    else if state = 10 then enterDfuMode fuel (dfuClearStatus bus r.2).2
    -- detaching, busy, to be reset, an application, or no state at all
    else enterDfuMode fuel r.2

/-- The loop of `upload`, for `length` octets more. -/
def uploadBlocks (block length : ℕ) (upfile : CFile) (d : δ) : ℤ × CFile × δ :=
  if hlength : 0 < length then
    let r := bus (dfuIn 2 (BitVec.ofNat 16 block) (BitVec.ofNat 16 blockSize)) d
    if r.1.rv < 0 ∧ r.1.rv ≠ errorPipe then (r.1.rv, upfile, r.2)
    else if r.1.rv = blockSize then
      uploadBlocks (block + 1) (length - blockSize)
        (upfile.fwrite (load r.1.data 0 blockSize)) r.2
    else (-1, upfile, r.2)
  else (0, upfile, d)
termination_by length

def upload (fuel : ℕ) (upfile : CFile) (d : δ) : Option (ℤ × CFile × δ) :=
  let address := bootloaderOffset + bootloaderSize
  let length := 256 * 1024 - address
  let block := address / blockSize
  if address &&& (blockSize - 1) ≠ 0 then some (-1, upfile, d)
  else
    match enterDfuMode bus fuel d with
    | none => none
    | some (rv, d) =>
      if rv < 0 then some (rv, upfile, d) else some (uploadBlocks bus block length upfile d)

def dfuGetStatus (d : δ) : ℤ × δ :=
  let r := bus (dfuIn 3 0 6) d
  if r.1.rv < 0 ∧ r.1.rv ≠ errorPipe then (r.1.rv, r.2) else (0, r.2)

/-- `buffer`, filled up with `0xFF`. -/
def padBlock (octets : List U8) : List U8 :=
  octets ++ List.replicate (blockSize - octets.length) 0xFF

/-- The loop of `download`, from the file position on. -/
def downloadBlocks (block : ℕ) (downfile : CFile) (d : δ) : ℤ × CFile × δ :=
  let f := downfile.fread blockSize
  if hread : f.1 ≠ [] then
    let r := bus (dfuOut 1 (BitVec.ofNat 16 block) (padBlock f.1)) d
    if r.1.rv < 0 ∧ r.1.rv ≠ errorPipe then (r.1.rv, f.2, r.2)
    else downloadBlocks (block + 1) f.2 (dfuGetStatus bus r.2).2
  else (0, f.2, d)
termination_by downfile.content.length - downfile.pos
decreasing_by
  have hpos : 0 < f.1.length := List.length_pos_of_ne_nil hread
  have hle : f.1.length ≤ (downfile.content.drop downfile.pos).length := List.length_take_le' _ _
  rw [List.length_drop] at hle
  show downfile.content.length - (downfile.pos + f.1.length) < _
  omega

def download (fuel : ℕ) (downfile : CFile) (d : δ) : Option (ℤ × CFile × δ) :=
  let address := bootloaderOffset + bootloaderSize
  let block := address / blockSize
  let downfile := downfile.fseek 0 .set
  if address &&& (sectorSize - 1) ≠ 0 then some (-1, downfile, d)
  else
    match enterDfuMode bus fuel d with
    | none => none
    | some (rv, d) =>
      if rv < 0 then some (rv, downfile, d) else some (downloadBlocks bus block downfile d)

/-- The part of `main` that handles `-d`. -/
def mainDownload (malloc : Malloc) (fuel : ℕ) (downfile : CFile) (memory : ℕ → U8) (d : δ) :
    Option (ℤ × δ) :=
  let c := checkSuffix malloc downfile memory
  -- Signature check failed, firmware will not be update
  if c.1 ≠ 0 then some (c.1, d)
  else (download bus fuel c.2.2 d).map fun r => (r.1, r.2.2)

end Transfers

/-! ## The loop of `download` -/

/-- The blocks from the file position on. -/
def blocksLeft (f : CFile) : ℕ := (f.content.length - f.pos + (blockSize - 1)) / blockSize

theorem fread_ne_nil_iff {f : CFile} : (f.fread blockSize).1 ≠ [] ↔ f.pos < f.content.length := by
  unfold CFile.fread
  dsimp only
  rw [← List.length_pos_iff, List.length_take, List.length_drop]
  show 0 < min 256 _ ↔ _
  omega

theorem pos_fread {f : CFile} (h : f.pos ≤ f.content.length) :
    (f.fread blockSize).2 = { f with pos := min (f.pos + 256) f.content.length } := by
  unfold CFile.fread
  dsimp only
  rw [List.length_take, List.length_drop]
  congr 1
  show f.pos + min 256 _ = _
  omega

/-- A block is read. -/
theorem blocksLeft_fread {f : CFile} (h : f.pos < f.content.length) :
    blocksLeft f = blocksLeft (f.fread blockSize).2 + 1 := by
  rw [pos_fread h.le]
  show (f.content.length - f.pos + 255) / 256 =
    (f.content.length - min (f.pos + 256) f.content.length + 255) / 256 + 1
  omega

theorem blocksLeft_of_succ {f : CFile} {n : ℕ} (h : blocksLeft f = n + 1) :
    f.pos < f.content.length ∧ blocksLeft (f.fread blockSize).2 = n := by
  have hlt : f.pos < f.content.length := by
    change (f.content.length - f.pos + 255) / 256 = n + 1 at h
    omega
  refine ⟨hlt, ?_⟩
  have := blocksLeft_fread hlt
  omega

theorem le_of_blocksLeft {f : CFile} (h : blocksLeft f = 0) : f.content.length ≤ f.pos := by
  change (f.content.length - f.pos + 255) / 256 = 0 at h
  omega

section Loop

variable {δ : Type*} {bus : Bus δ} {block : ℕ} {f : CFile} {d : δ}

/-- The transfer of a block. -/
def blockTransfer (block : ℕ) (f : CFile) : ControlTransfer :=
  dfuOut 1 (BitVec.ofNat 16 block) (padBlock (f.fread blockSize).1)

theorem downloadBlocks_of_le (h : f.content.length ≤ f.pos) :
    downloadBlocks bus block f d = (0, (f.fread blockSize).2, d) := by
  have hnil : ¬(f.fread blockSize).1 ≠ [] := fun hne => absurd (fread_ne_nil_iff.1 hne) (by omega)
  rw [downloadBlocks, dif_neg hnil]

theorem downloadBlocks_of_lt (h : f.pos < f.content.length) :
    downloadBlocks bus block f d =
      let r := bus (blockTransfer block f) d
      if r.1.rv < 0 ∧ r.1.rv ≠ errorPipe then (r.1.rv, (f.fread blockSize).2, r.2)
      else downloadBlocks bus (block + 1) (f.fread blockSize).2 (dfuGetStatus bus r.2).2 := by
  rw [downloadBlocks, dif_pos (fread_ne_nil_iff.2 h)]
  rfl

theorem dfuGetStatus_snd (bus : Bus δ) (d : δ) :
    (dfuGetStatus bus d).2 = (bus (dfuIn 3 0 6) d).2 := by
  unfold dfuGetStatus
  dsimp only
  split <;> rfl

end Loop

/-! ## Entering DFU mode -/

section Enter

variable {δ : Type*} {bus : Bus δ}

theorem dfuGetState_snd (d : δ) : (dfuGetState bus d).2 = (bus (dfuIn 5 0 1) d).2 := by
  unfold dfuGetState
  dsimp only
  split <;> rfl

theorem dfuClearStatus_snd (d : δ) : (dfuClearStatus bus d).2 = (bus (dfuOut 4 0 []) d).2 := by
  unfold dfuClearStatus
  dsimp only
  split <;> rfl

theorem dfuAbort_snd (d : δ) : (dfuAbort bus d).2 = (bus (dfuOut 6 0 []) d).2 := by
  unfold dfuAbort
  dsimp only
  split <;> rfl

/-- What its three requests keep, `enter_dfu_mode` keeps. -/
theorem enterDfuMode_invariant {I : δ → Prop}
    (hbus : ∀ t d, t.bRequest ∈ [4, 5, 6] → I d → I (bus t d).2) {fuel : ℕ} {d : δ} {r : ℤ × δ}
    (h : enterDfuMode bus fuel d = some r) (hd : I d) : I r.2 := by
  induction fuel generalizing d with
  | zero => exact absurd h (by simp [enterDfuMode])
  | succ fuel ih =>
    have hstate : I (dfuGetState bus d).2 := by
      rw [dfuGetState_snd]
      exact hbus _ _ (by simp [dfuIn]) hd
    have habort : I (dfuAbort bus (dfuGetState bus d).2).2 := by
      rw [dfuAbort_snd]
      exact hbus _ _ (by simp [dfuOut]) hstate
    have hclear : I (dfuClearStatus bus (dfuGetState bus d).2).2 := by
      rw [dfuClearStatus_snd]
      exact hbus _ _ (by simp [dfuOut]) hstate
    rw [enterDfuMode] at h
    dsimp only at h
    split_ifs at h
    · rw [← Option.some.inj h]
      exact hstate
    · rw [← Option.some.inj h]
      exact habort
    · exact ih h habort
    · exact ih h hclear
    · exact ih h hstate

/-- More fuel changes nothing. -/
theorem enterDfuMode_mono {fuel : ℕ} {d : δ} {r : ℤ × δ} (h : enterDfuMode bus fuel d = some r)
    (more : ℕ) : enterDfuMode bus (fuel + more) d = some r := by
  induction fuel generalizing d with
  | zero => exact absurd h (by simp [enterDfuMode])
  | succ fuel ih =>
    rw [Nat.add_right_comm, enterDfuMode]
    rw [enterDfuMode] at h
    dsimp only at h ⊢
    split_ifs at h ⊢
    · exact h
    · exact h
    · exact ih h
    · exact ih h
    · exact ih h

theorem enterDfuMode_unique {fuel fuel' : ℕ} {d : δ} {r r' : ℤ × δ}
    (h : enterDfuMode bus fuel d = some r) (h' : enterDfuMode bus fuel' d = some r') : r = r' := by
  have h1 := enterDfuMode_mono h fuel'
  have h2 := enterDfuMode_mono h' fuel
  rw [Nat.add_comm, h1] at h2
  exact Option.some.inj h2

/-- The file is read from its beginning, and the first block is the one after the bootloader. -/
theorem download_eq (bus : Bus δ) (fuel : ℕ) (f : CFile) (d : δ) : download bus fuel f d =
    match enterDfuMode bus fuel d with
    | none => none
    | some (rv, d) =>
      if rv < 0 then some (rv, f.fseek 0 .set, d)
      else some (downloadBlocks bus 0x40 (f.fseek 0 .set) d) := by
  unfold download
  rw [if_neg (by decide)]
  rfl

/-- All of the flash after the bootloader is read. -/
theorem upload_eq (bus : Bus δ) (fuel : ℕ) (f : CFile) (d : δ) : upload bus fuel f d =
    match enterDfuMode bus fuel d with
    | none => none
    | some (rv, d) =>
      if rv < 0 then some (rv, f, d)
      else some (uploadBlocks bus 0x40 (0x40000 - 0x4000) f d) := by
  unfold upload
  rw [if_neg (by decide)]
  rfl

/-- Only the contents of the file matter. -/
theorem download_congr {f f' : CFile} (h : f.content = f'.content) (bus : Bus δ) (fuel : ℕ)
    (d : δ) :
    download bus fuel f d = download bus fuel f' d := by
  rw [download_eq, download_eq, CFile.fseek_set, CFile.fseek_set, h]

theorem download_unique {fuel fuel' : ℕ} {f : CFile} {d : δ} {r r' : ℤ × CFile × δ}
    (h : download bus fuel f d = some r) (h' : download bus fuel' f d = some r') : r = r' := by
  rw [download_eq] at h h'
  split at h
  case h_1 => exact absurd h (by simp)
  case h_2 henter =>
    split at h'
    case h_1 => exact absurd h' (by simp)
    case h_2 henter' =>
      obtain ⟨rfl, rfl⟩ := Prod.mk.inj (enterDfuMode_unique henter henter')
      exact Option.some.inj (h.symm.trans h')

end Enter

/-- `check_suffix` only reads. -/
theorem content_checkSuffix (malloc : Malloc) (f : CFile) (memory : ℕ → U8) :
    (checkSuffix malloc f memory).2.2.content = f.content := by
  unfold checkSuffix
  dsimp only
  split_ifs
  · simp
  · simp
  · simp
  · split
    · simp
    · split <;> simp

end Ubertooth.Host
