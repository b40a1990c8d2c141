import Ubertooth.Bootloader.Programming
import Ubertooth.Host.UbertoothDfu

/-!
# A firmware update, from the host to the flash

The host's tool and the bootloader run in lock-step: a control transfer is one call of
`request_handler`, with the data the host sends in `dfu_buffer`. From any state of the bootloader in
DFU mode a download writes the file and an upload reads it back (`download_upload`).
-/

namespace Ubertooth.Bootloader

open Foundations
open Host (Bus ControlTransfer Response errorPipe dfuIn dfuOut)

variable {ρ : Type*}

/-! ## The bus -/

/-- The bootloader at the control endpoint, with `dfu_buffer`. -/
structure Endpoint (ρ : Type*) where
  dfu : Dfu ρ
  dfuBuffer : ℕ → U8

/-- What can be read of the flash. -/
def Endpoint.flash (rom : Rom ρ) (b : Endpoint ρ) : ℕ → U8 := rom.flash b.dfu.flash.rom

def setupOf (t : ControlTransfer) : Setup :=
  { bRequest := t.bRequest, wValue := t.wValue, wLength := t.wLength }

/-- `dfu_buffer` when the request is handled; what the host sends is stored first. -/
def received (t : ControlTransfer) (b : Endpoint ρ) : ℕ → U8 :=
  if t.toHost then b.dfuBuffer
  else fun i => if i < t.wLength.toNat then t.data i else b.dfuBuffer i

/-- `USBHandleControlTransfer`, for a class request; a request that fails is stalled. -/
def bootloaderBus (rom : Rom ρ) : Bus (Endpoint ρ) := fun t b =>
  let r := requestHandler rom (setupOf t) (received t b) b.dfu
  match r.1 with
  | some reply =>
    ({ rv := if t.toHost then (min reply.length t.wLength.toNat : ℕ) else (t.wLength.toNat : ℕ)
       data := reply.data }, { dfu := r.2, dfuBuffer := reply.data })
  | none => ({ rv := errorPipe, data := t.data }, { dfu := r.2, dfuBuffer := received t b })

variable {rom : Rom ρ} {b : Endpoint ρ}

/-- A request that is answered. -/
theorem bootloaderBus_of_some {t : ControlTransfer} {reply : Reply} {d : Dfu ρ}
    (h : requestHandler rom (setupOf t) (received t b) b.dfu = (some reply, d)) :
    bootloaderBus rom t b =
      ({ rv := if t.toHost then (min reply.length t.wLength.toNat : ℕ) else (t.wLength.toNat : ℕ)
         data := reply.data }, { dfu := d, dfuBuffer := reply.data }) := by
  unfold bootloaderBus
  rw [h]

/-! ## Entering DFU mode -/

theorem dfuGetState_bootloader (rom : Rom ρ) (b : Endpoint ρ) :
    (Host.dfuGetState (bootloaderBus rom) b).1 = (b.dfu.state.toU8.toNat : ℤ) ∧
      (Host.dfuGetState (bootloaderBus rom) b).2.dfu = b.dfu := ⟨rfl, rfl⟩

theorem dfuAbort_bootloader (rom : Rom ρ) (h : b.dfu.state ≠ .dfuError) :
    (Host.dfuAbort (bootloaderBus rom) b).1 = 0 ∧
      (Host.dfuAbort (bootloaderBus rom) b).2.dfu = b.dfu.setState .dfuIdle := by
  have hhandler : requestHandler rom (setupOf (dfuOut 6 0 [])) (received (dfuOut 6 0 []) b) b.dfu =
      (b.dfu.setState .dfuIdle).accept (setupOf (dfuOut 6 0 [])) (received (dfuOut 6 0 []) b) :=
    if_pos h
  unfold Host.dfuAbort
  rw [bootloaderBus_of_some hhandler]
  exact ⟨rfl, rfl⟩

theorem dfuClearStatus_bootloader (rom : Rom ρ) (h : b.dfu.state = .dfuError) :
    (Host.dfuClearStatus (bootloaderBus rom) b).2.dfu =
      (b.dfu.setStatus .ok).setState .dfuIdle := by
  have hhandler : requestHandler rom (setupOf (dfuOut 4 0 [])) (received (dfuOut 4 0 []) b) b.dfu =
      ((b.dfu.setStatus .ok).setState .dfuIdle).accept (setupOf (dfuOut 4 0 []))
        (received (dfuOut 4 0 []) b) := if_pos h
  rw [Host.dfuClearStatus_snd, bootloaderBus_of_some hhandler]

/-- A state that `enter_dfu_mode` gets out of. -/
def State.Recoverable (st : State) : Prop :=
  2 ≤ st.toU8.toNat ∧ st ≠ .dfuDnbusy ∧ st ≠ .dfuManifestWaitReset

/-- What the host does about such a state. -/
theorem State.Recoverable.cases {st : State} (h : st.Recoverable) : st = .dfuIdle ∨ st = .dfuError ∨
    st ≠ .dfuError ∧ BitVec.ofInt 8 (st.toU8.toNat : ℤ) ≠ 2 ∧
      BitVec.ofInt 8 (st.toU8.toNat : ℤ) ∈ ([3, 5, 6, 9, 7] : List U8) := by
  obtain ⟨hmode, hbusy, hreset⟩ := h
  cases st with
  | appIdle => exact absurd hmode (by decide)
  | appDetach => exact absurd hmode (by decide)
  | dfuIdle => exact Or.inl rfl
  | dfuDnbusy => exact absurd rfl hbusy
  | dfuManifestWaitReset => exact absurd rfl hreset
  | dfuError => exact Or.inr (Or.inl rfl)
  | _ => exact Or.inr (Or.inr (by decide))

/-- From the idle state one request is enough. -/
theorem enterDfuMode_idle (rom : Rom ρ) (h : b.dfu.state = .dfuIdle) (fuel : ℕ) : ∃ b',
    Host.enterDfuMode (bootloaderBus rom) (fuel + 1) b = some (0, b') ∧ b'.dfu = b.dfu := by
  obtain ⟨hstate, hdfu⟩ := dfuGetState_bootloader rom b
  refine ⟨_, ?_, hdfu⟩
  rw [Host.enterDfuMode]
  dsimp only
  rw [hstate, h]
  rfl

/-- From any other state it takes one more round. -/
theorem enterDfuMode_bootloader (rom : Rom ρ) (h : b.dfu.state.Recoverable) (fuel : ℕ) : ∃ b',
    Host.enterDfuMode (bootloaderBus rom) (fuel + 2) b = some (0, b') ∧
      b'.dfu.state = .dfuIdle ∧ b'.flash rom = b.flash rom := by
  obtain ⟨hstate, hdfu⟩ := dfuGetState_bootloader rom b
  obtain hidle | herror | ⟨herror, hne, hmem⟩ := h.cases
  · obtain ⟨b', henter, hb'⟩ := enterDfuMode_idle rom hidle (fuel + 1)
    exact ⟨b', henter, by rw [hb', hidle], by rw [Endpoint.flash, hb', Endpoint.flash]⟩
  · have hclear := dfuClearStatus_bootloader rom
      (b := (Host.dfuGetState (bootloaderBus rom) b).2) (by rw [hdfu, herror])
    obtain ⟨b', henter, hb'⟩ := enterDfuMode_idle rom
      (b := (Host.dfuClearStatus (bootloaderBus rom) (Host.dfuGetState (bootloaderBus rom) b).2).2)
      (by rw [hclear]; rfl) fuel
    refine ⟨b', ?_, by rw [hb', hclear]; rfl, by rw [Endpoint.flash, hb', hclear, hdfu]; rfl⟩
    rw [Host.enterDfuMode]
    dsimp only
    rw [hstate, herror]
    exact henter
  · obtain ⟨hzero, habort⟩ := dfuAbort_bootloader rom
      (b := (Host.dfuGetState (bootloaderBus rom) b).2) (by rw [hdfu]; exact herror)
    obtain ⟨b', henter, hb'⟩ := enterDfuMode_idle rom
      (b := (Host.dfuAbort (bootloaderBus rom) (Host.dfuGetState (bootloaderBus rom) b).2).2)
      (by rw [habort]; rfl) fuel
    refine ⟨b', ?_, by rw [hb', habort]; rfl, by rw [Endpoint.flash, hb', habort, hdfu]; rfl⟩
    rw [Host.enterDfuMode]
    dsimp only
    rw [hstate, if_neg hne, if_pos hmem, if_neg (by rw [hzero]; decide)]
    exact henter

/-! ## A block -/

/-- What a file leaves at an address. -/
def fileOctet (content : List U8) (a : ℕ) : U8 := (content[a - 0x4000]?).getD 0xFF

theorem length_padBlock {octets : List U8} (h : octets.length ≤ transferSize) :
    (Host.padBlock octets).length = transferSize := by
  unfold Host.padBlock
  rw [List.length_append, List.length_replicate]
  exact Nat.add_sub_of_le h

theorem getD_padBlock {octets : List U8} {i : ℕ} (hi : i < transferSize) :
    (Host.padBlock octets).getD i 0 = (octets[i]?).getD 0xFF := by
  unfold Host.padBlock
  by_cases hlt : i < octets.length
  · rw [List.getD_append _ _ _ _ hlt, List.getD_eq_getElem _ _ hlt, List.getElem?_eq_getElem hlt,
      Option.getD_some]
  · rw [List.getD_append_right _ _ _ _ (not_lt.1 hlt), List.getElem?_eq_none (not_lt.1 hlt),
      Option.getD_none, List.getD_replicate]
    show i - octets.length < 256 - octets.length
    change i < 256 at hi
    omega

/-- What a block holds is what the file leaves there. -/
theorem blockTransfer_data {f : CFile} {k i : ℕ} (hpos : f.pos = transferSize * k)
    (hi : i < transferSize) : (Host.blockTransfer (0x40 + k) f).data i =
      fileOctet f.content ((0x40 + k) * transferSize + i) := by
  have hplace : (0x40 + k) * transferSize + i - 0x4000 = transferSize * k + i := by
    change (0x40 + k) * 256 + i - 0x4000 = 256 * k + i
    omega
  show (Host.padBlock (f.fread Host.blockSize).1).getD i 0 = _
  rw [getD_padBlock hi, fileOctet, hplace]
  show (((f.content.drop f.pos).take transferSize)[i]?).getD 0xFF = _
  rw [List.getElem?_take_of_lt hi, List.getElem?_drop, hpos]

/-- The setup packet of a block. -/
theorem setupOf_blockTransfer (block : ℕ) (f : CFile) :
    setupOf (Host.blockTransfer block f) =
      { bRequest := Request.dnload.toU8, wValue := BitVec.ofNat 16 block, wLength := 0x100 } := by
  have hlength := length_padBlock (CFile.length_fread_le Host.blockSize (f := f))
  unfold setupOf Host.blockTransfer dfuOut
  rw [hlength]
  rfl

/-- The bootloader takes a block and writes it. -/
theorem dnload_works {prepared : ρ → ℕ → Prop} (hrom : rom.Works prepared) {old : ℕ → U8} {k : ℕ}
    {f : CFile} (hpos : f.pos = transferSize * k)
    (hhi : (0x40 + k) * transferSize + transferSize ≤ 0x40000)
    (hstate : b.dfu.state = .dfuIdle ∨ b.dfu.state = .dfuDnloadIdle)
    (hw : Written sectorStart 0xFF (sectorStart 4) old (fileOctet f.content)
      ((0x40 + k) * transferSize) (b.flash rom)) :
    let r := bootloaderBus rom (Host.blockTransfer (0x40 + k) f) b
    r.1.rv = 0x100 ∧ r.2.dfu.state = .dfuDnloadSync ∧
      Written sectorStart 0xFF (sectorStart 4) old (fileOctet f.content)
        ((0x40 + (k + 1)) * transferSize) (r.2.flash rom) := by
  have hsetup := setupOf_blockTransfer (0x40 + k) f
  have haddress : (setupOf (Host.blockTransfer (0x40 + k) f)).flashAddress =
      (0x40 + k) * transferSize := by
    rw [hsetup]
    show (BitVec.ofNat 16 (0x40 + k)).toNat * transferSize = _
    rw [BitVec.toNat_ofNat, Nat.mod_eq_of_lt]
    change (0x40 + k) * 256 + 256 ≤ 0x40000 at hhi
    omega
  have hlo : 0x4000 ≤ (0x40 + k) * transferSize := by
    change 0x4000 ≤ (0x40 + k) * 256
    omega
  have hwrites : WritesBlock (setupOf (Host.blockTransfer (0x40 + k) f)) b.dfu := by
    refine ⟨by rw [hsetup], by rw [hsetup]; rfl, hstate, ?_⟩
    rw [haddress]
    exact hlo
  have hsource : ∀ i < transferSize, received (Host.blockTransfer (0x40 + k) f) b i =
      fileOctet f.content ((0x40 + k) * transferSize + i) := by
    intro i hi
    have hlength : (Host.blockTransfer (0x40 + k) f).wLength.toNat = transferSize :=
      congrArg (fun p => p.wLength.toNat) hsetup
    rw [← blockTransfer_data hpos hi]
    exact if_pos (hlength ▸ hi)
  obtain ⟨htrue, hwritten⟩ := write_works hrom (Nat.dvd_mul_left _ _) hlo hhi hsource hw
  have hhandler := requestHandler_of_writesBlock rom hwrites
    (received (Host.blockTransfer (0x40 + k) f) b)
  dsimp only at hhandler
  rw [haddress, if_pos htrue] at hhandler
  intro r
  have hr : r = _ := bootloaderBus_of_some hhandler
  rw [hr]
  refine ⟨congrArg (fun p : Setup => (p.wLength.toNat : ℤ)) hsetup, rfl, ?_⟩
  rw [← Nat.add_assoc, Nat.succ_mul]
  exact hwritten

theorem dfuGetStatus_bootloader (rom : Rom ρ) (b : Endpoint ρ) :
    (Host.dfuGetStatus (bootloaderBus rom) b).2.dfu = b.dfu.polled := by
  rw [Host.dfuGetStatus_snd]
  rfl

/-- After its status is asked for the bootloader waits for the next block. -/
theorem block_works {prepared : ρ → ℕ → Prop} (hrom : rom.Works prepared) {old : ℕ → U8} {k : ℕ}
    {f : CFile} (hpos : f.pos = transferSize * k)
    (hhi : (0x40 + k) * transferSize + transferSize ≤ 0x40000)
    (hstate : b.dfu.state = .dfuIdle ∨ b.dfu.state = .dfuDnloadIdle)
    (hw : Written sectorStart 0xFF (sectorStart 4) old (fileOctet f.content)
      ((0x40 + k) * transferSize) (b.flash rom)) :
    let r := bootloaderBus rom (Host.blockTransfer (0x40 + k) f) b
    let b' := (Host.dfuGetStatus (bootloaderBus rom) r.2).2
    r.1.rv = 0x100 ∧ b'.dfu.state = .dfuDnloadIdle ∧
      Written sectorStart 0xFF (sectorStart 4) old (fileOctet f.content)
        ((0x40 + (k + 1)) * transferSize) (b'.flash rom) := by
  intro r b'
  obtain ⟨hrv, hsync, hwritten⟩ := dnload_works hrom hpos hhi hstate hw
  have hidle : b'.dfu = r.2.dfu.setState .dfuDnloadIdle := by
    refine (dfuGetStatus_bootloader rom r.2).trans ?_
    unfold Dfu.polled
    rw [hsync]
  refine ⟨hrv, by rw [hidle]; rfl, ?_⟩
  have hflash : b'.flash rom = r.2.flash rom := by
    rw [Endpoint.flash, hidle, Dfu.flash_setState, Endpoint.flash]
  rw [hflash]
  exact hwritten

/-! ## The download -/

/-- All blocks of a file are taken and written. -/
theorem downloadBlocks_works {prepared : ρ → ℕ → Prop} (hrom : rom.Works prepared) {old : ℕ → U8}
    {n k : ℕ} {f : CFile} (hn : Host.blocksLeft f = n)
    (hpos : f.pos = min (transferSize * k) f.content.length)
    (hsize : f.content.length ≤ 0x40000 - 0x4000)
    (hstate : b.dfu.state = .dfuIdle ∨ b.dfu.state = .dfuDnloadIdle)
    (hw : Written sectorStart 0xFF (sectorStart 4) old (fileOctet f.content)
      ((0x40 + k) * transferSize) (b.flash rom)) :
    let r := Host.downloadBlocks (bootloaderBus rom) (0x40 + k) f b
    r.1 = 0 ∧ (r.2.2.dfu.state = .dfuIdle ∨ r.2.2.dfu.state = .dfuDnloadIdle) ∧
      Written sectorStart 0xFF (sectorStart 4) old (fileOctet f.content)
        ((0x40 + (k + n)) * transferSize) (r.2.2.flash rom) := by
  induction n generalizing k f b with
  | zero =>
    rw [Host.downloadBlocks_of_le (Host.le_of_blocksLeft hn)]
    exact ⟨rfl, hstate, hw⟩
  | succ n ih =>
    obtain ⟨hlt, hleft⟩ := Host.blocksLeft_of_succ hn
    have hblock : transferSize * k < f.content.length := by omega
    have hpos' : f.pos = transferSize * k := hpos.trans (min_eq_left hblock.le)
    have hhi : (0x40 + k) * transferSize + transferSize ≤ 0x40000 := by
      change 256 * k < _ at hblock
      change (0x40 + k) * 256 + 256 ≤ 0x40000
      omega
    obtain ⟨hrv, hidle, hwritten⟩ := block_works hrom hpos' hhi hstate hw
    have hnext : (f.fread Host.blockSize).2.pos =
        min (transferSize * (k + 1)) (f.fread Host.blockSize).2.content.length := by
      rw [Host.pos_fread hlt.le, hpos']
      rfl
    have hrest := ih hleft hnext hsize (Or.inr hidle) hwritten
    have hcount : k + 1 + n = k + (n + 1) := by omega
    rw [hcount] at hrest
    rw [Host.downloadBlocks_of_lt hlt]
    dsimp only
    rw [if_neg (by rw [hrv]; decide)]
    exact hrest

/-- `content`, filled up with `0xFF` to whole blocks. -/
def padFile (content : List U8) : List U8 :=
  content ++ List.replicate ((transferSize - content.length % transferSize) % transferSize) 0xFF

/-- The blocks of a file. -/
theorem length_padFile (f : CFile) :
    (padFile f.content).length = transferSize * Host.blocksLeft (f.fseek 0 .set) := by
  rw [padFile, List.length_append, List.length_replicate]
  show f.content.length + (256 - f.content.length % 256) % 256 =
    256 * ((f.content.length - 0 + 255) / 256)
  omega

theorem getElem_padFile {content : List U8} {k : ℕ} (hk : k < (padFile content).length) :
    (padFile content)[k] = (content[k]?).getD 0xFF := by
  simp only [padFile, List.getElem_append, List.getElem_replicate]
  split
  · rename_i hlt
    rw [List.getElem?_eq_getElem hlt, Option.getD_some]
  · rename_i hge
    rw [List.getElem?_eq_none (not_lt.1 hge), Option.getD_none]

/-- The flash holds the file. -/
theorem load_of_written {old m : ℕ → U8} {content : List U8} {pos : ℕ}
    (hpos : 0x4000 + (padFile content).length ≤ pos)
    (hw : Written sectorStart 0xFF (sectorStart 4) old (fileOctet content) pos m) :
    load m 0x4000 (padFile content).length = padFile content := by
  refine List.ext_getElem (length_load _ _) fun k hk hk' => ?_
  have hbase : sectorStart 4 ≤ 0x4000 + k := Nat.le_add_right _ _
  rw [getElem_load, hw.written _ hbase (by omega), getElem_padFile, fileOctet,
    Nat.add_sub_cancel_left]

theorem State.recoverable_of_inDfuMode {d : Dfu ρ} (hmode : d.inDfuMode = true)
    (h : d.state.Assigned) : d.state.Recoverable :=
  ⟨of_decide_eq_true hmode, h⟩

/-- A download writes the file and nothing below it. -/
theorem download_works {prepared : ρ → ℕ → Prop} (hrom : rom.Works prepared)
    (hstate : b.dfu.state.Recoverable) {f : CFile} (hsize : f.content.length ≤ 0x40000 - 0x4000)
    (fuel : ℕ) : ∃ f' b',
      Host.download (bootloaderBus rom) (fuel + 2) f b = some (0, f', b') ∧
        b'.dfu.state.Recoverable ∧
        load (b'.flash rom) 0x4000 (padFile f.content).length = padFile f.content ∧
        ∀ a < 0x4000, b'.flash rom a = b.flash rom a := by
  obtain ⟨b₁, henter, hidle, hflash⟩ := enterDfuMode_bootloader rom hstate fuel
  have hw : Written sectorStart 0xFF (sectorStart 4) (b.flash rom) (fileOctet f.content)
      ((0x40 + 0) * transferSize) (b₁.flash rom) := by
    rw [hflash]
    exact written_base monotone_sectorStart 4
  obtain ⟨hzero, hend, hwritten⟩ := downloadBlocks_works hrom (f := f.fseek 0 .set) (k := 0) rfl
    (Nat.zero_min _).symm hsize (Or.inl hidle) hw
  refine ⟨(Host.downloadBlocks (bootloaderBus rom) 0x40 (f.fseek 0 .set) b₁).2.1, _, ?_, ?_,
    load_of_written (le_of_eq ?_) hwritten, hwritten.below⟩
  · rw [Host.download_eq, henter]
    exact congrArg some (Prod.ext hzero rfl)
  · obtain h | h := hend <;> rw [h] <;> unfold State.Recoverable <;> decide
  · rw [length_padFile]
    show 0x4000 + 256 * _ = (0x40 + (0 + _)) * 256
    omega

/-! ## The upload -/

/-- The transfer that reads a block back. -/
def readTransfer (block : ℕ) : ControlTransfer :=
  dfuIn 2 (BitVec.ofNat 16 block) (BitVec.ofNat 16 Host.blockSize)

/-- The bootloader answers with a block of the flash. -/
theorem upload_works (rom : Rom ρ) {block : ℕ}
    (hhi : block * transferSize + transferSize ≤ 0x80000) (hidle : b.dfu.state = .dfuIdle) :
    let r := bootloaderBus rom (readTransfer block) b
    r.1.rv = Host.blockSize ∧
      load r.1.data 0 Host.blockSize = load (b.flash rom) (block * transferSize) transferSize ∧
      r.2.dfu.state = .dfuIdle ∧ r.2.flash rom = b.flash rom := by
  have haddress : (setupOf (readTransfer block)).flashAddress = block * transferSize := by
    show (BitVec.ofNat 16 block).toNat * transferSize = _
    rw [BitVec.toNat_ofNat, Nat.mod_eq_of_lt]
    change block * 256 + 256 ≤ 0x80000 at hhi
    omega
  have hvalid : validAddress (setupOf (readTransfer block)).flashAddress ∧
      validAddress ((setupOf (readTransfer block)).flashAddress + transferSize - 1) := by
    rw [haddress]
    unfold validAddress
    rw [decide_eq_true_iff, decide_eq_true_iff]
    change block * 256 + 256 ≤ 0x80000 at hhi
    show block * 256 < 0x80000 ∧ block * 256 + 256 - 1 < 0x80000
    omega
  have hstate : ¬(b.dfu.state ≠ .dfuIdle ∧ b.dfu.state ≠ .dfuUploadIdle) := fun h => h.1 hidle
  have hhandler : requestHandler rom (setupOf (readTransfer block))
      (received (readTransfer block) b) b.dfu = (some
        { length := transferSize
          data := fun i =>
            if i < transferSize then
              rom.flash b.dfu.flash.rom ((setupOf (readTransfer block)).flashAddress + i)
            else received (readTransfer block) b i }, b.dfu.setState .dfuIdle) := by
    have hrequest : (setupOf (readTransfer block)).bRequest = Request.upload.toU8 := rfl
    have hlength : (setupOf (readTransfer block)).wLength.toNat = transferSize := rfl
    rw [requestHandler_upload hrequest]
    unfold requestUpload
    rw [hlength, if_pos rfl, if_neg hstate]
    exact if_pos hvalid
  intro r
  have hr : r = _ := bootloaderBus_of_some hhandler
  rw [hr]
  refine ⟨rfl, List.map_congr_left fun i hi => ?_, rfl, rfl⟩
  rw [Nat.zero_add, haddress]
  exact if_pos (List.mem_range.1 hi)

/-- Blocks are appended to the output as they come. -/
theorem uploadBlocks_works (rom : Rom ρ) (n block : ℕ) (upfile : CFile)
    (hpos : upfile.pos = upfile.content.length)
    (hhi : block * transferSize + transferSize * n ≤ 0x80000) (hidle : b.dfu.state = .dfuIdle) :
    let r := Host.uploadBlocks (bootloaderBus rom) block (transferSize * n) upfile b
    r.1 = 0 ∧ r.2.1.content = upfile.content ++
        load (b.flash rom) (block * transferSize) (transferSize * n) ∧
      r.2.2.flash rom = b.flash rom := by
  induction n generalizing block upfile b with
  | zero =>
    rw [Nat.mul_zero, Host.uploadBlocks, dif_neg (Nat.lt_irrefl 0)]
    exact ⟨rfl, (List.append_nil _).symm, rfl⟩
  | succ n ih =>
    have hsucc : transferSize * (n + 1) = transferSize * n + transferSize := Nat.mul_succ _ _
    have hsucc' : (block + 1) * transferSize = block * transferSize + transferSize :=
      Nat.succ_mul _ _
    rw [hsucc] at hhi
    have hblock : block * transferSize + transferSize ≤ 0x80000 :=
      (Nat.add_le_add_left (Nat.le_add_left _ _) _).trans hhi
    have hrest : (block + 1) * transferSize + transferSize * n ≤ 0x80000 := by
      rw [hsucc', Nat.add_assoc, Nat.add_comm transferSize]
      exact hhi
    obtain ⟨hrv, hdata, hidle', hflash⟩ := upload_works rom hblock hidle
    have hwritten : (upfile.fwrite (load (bootloaderBus rom (readTransfer block) b).1.data 0
        Host.blockSize)).content =
          upfile.content ++ load (b.flash rom) (block * transferSize) transferSize := by
      rw [CFile.fwrite_at_end hpos, hdata]
    have hend : (upfile.fwrite (load (bootloaderBus rom (readTransfer block) b).1.data 0
        Host.blockSize)).pos =
          (upfile.fwrite (load (bootloaderBus rom (readTransfer block) b).1.data 0
            Host.blockSize)).content.length := by
      rw [hwritten, CFile.pos_fwrite, List.length_append, length_load, length_load, hpos]
      rfl
    obtain ⟨hzero, hcontent, hsame⟩ := ih _ _ hend hrest hidle'
    have hsub : transferSize * n + transferSize - Host.blockSize = transferSize * n :=
      Nat.add_sub_cancel _ _
    have hload : load (b.flash rom) (block * transferSize) (transferSize * n + transferSize) =
        load (b.flash rom) (block * transferSize) transferSize ++
          load (b.flash rom) (block * transferSize + transferSize) (transferSize * n) := by
      rw [Nat.add_comm, load_append]
    have hmore : 0 < transferSize * n + transferSize := Nat.add_pos_right _ (by simp)
    have hgoes : ¬((bootloaderBus rom (readTransfer block) b).1.rv < 0 ∧
        (bootloaderBus rom (readTransfer block) b).1.rv ≠ errorPipe) := by
      rw [hrv]
      exact fun h => absurd h.1 (by omega)
    rw [hsucc, Host.uploadBlocks, dif_pos hmore, hsub, hload]
    dsimp only
    rw [show dfuIn 2 _ _ = readTransfer block from rfl, if_neg hgoes, if_pos hrv]
    refine ⟨hzero, ?_, hsame.trans hflash⟩
    rw [hcontent, hwritten, hflash, hsucc', List.append_assoc]

/-- An upload reads all of the flash after the bootloader. -/
theorem upload_reads (rom : Rom ρ) (hstate : b.dfu.state.Recoverable) (fuel : ℕ) : ∃ f' b',
    Host.upload (bootloaderBus rom) (fuel + 2) { content := [] } b = some (0, f', b') ∧
      f'.content = load (b.flash rom) 0x4000 (0x40000 - 0x4000) ∧
      b'.flash rom = b.flash rom := by
  obtain ⟨b₁, henter, hidle, hflash⟩ := enterDfuMode_bootloader rom hstate fuel
  obtain ⟨hzero, hcontent, hsame⟩ := uploadBlocks_works rom 960 0x40
    { content := [] } rfl (by decide) hidle
  have hstart : 0x40 * transferSize = 0x4000 := by decide
  have hall : 0x40000 - 0x4000 = transferSize * 960 := by omega
  refine ⟨(Host.uploadBlocks (bootloaderBus rom) 0x40 (transferSize * 960)
    { content := [] } b₁).2.1, _, ?_, ?_, hsame.trans hflash⟩
  · rw [Host.upload_eq, henter, hall]
    exact congrArg some (Prod.ext hzero rfl)
  · rw [hcontent, hstart, hflash, hall]
    exact List.nil_append _

/-! ## A download and an upload -/

/-- **A firmware update writes the file and reads it back.** From every state that requests lead to
and that is one of DFU mode, and whatever the flash holds, a download of a file that fits succeeds
and leaves the file, filled up to whole blocks, after the bootloader, which it does not touch; an
upload then succeeds, and the file is a prefix of what it reads. Fuel is spent by `enter_dfu_mode`
only, and two rounds are enough. -/
theorem download_upload {prepared : ρ → ℕ → Prop} (hrom : rom.Works prepared) (s : ρ)
    (rs : List ClassRequest) (hmode : (run (handle rom) (powerOn s) rs).inDfuMode = true)
    (dfuBuffer : ℕ → U8) (f : CFile) (hsize : f.content.length ≤ 256 * 1024 - 0x4000) (fuel : ℕ)
    (hfuel : 2 ≤ fuel) :
    let b : Endpoint ρ := { dfu := run (handle rom) (powerOn s) rs, dfuBuffer := dfuBuffer }
    ∃ f₁ b₁, Host.download (bootloaderBus rom) fuel f b = some (0, f₁, b₁) ∧
      load (b₁.flash rom) 0x4000 (padFile f.content).length = padFile f.content ∧
      (∀ a < 0x4000, b₁.flash rom a = b.flash rom a) ∧
      ∃ f₂ b₂, Host.upload (bootloaderBus rom) fuel { content := [] } b₁ = some (0, f₂, b₂) ∧
        f₂.content = load (b₁.flash rom) 0x4000 (0x40000 - 0x4000) ∧
        b₂.flash rom = b₁.flash rom ∧ f.content <+: f₂.content := by
  intro b
  obtain ⟨fuel, rfl⟩ := Nat.exists_eq_add_of_le' hfuel
  have hstate := State.recoverable_of_inDfuMode hmode (assigned_run rom s rs)
  obtain ⟨f₁, b₁, hdownload, hstate₁, hfile, hbelow⟩ :=
    download_works (b := b) hrom hstate hsize fuel
  obtain ⟨f₂, b₂, hupload, hcontent, hsame⟩ := upload_reads rom hstate₁ fuel
  refine ⟨f₁, b₁, hdownload, hfile, hbelow, f₂, b₂, hupload, hcontent, hsame, ?_⟩
  have hfit : (padFile f.content).length ≤ 0x40000 - 0x4000 := by
    rw [length_padFile]
    show 256 * ((f.content.length - 0 + 255) / 256) ≤ _
    omega
  have hprefix : padFile f.content <+: f₂.content := by
    rw [hcontent, ← Nat.add_sub_of_le hfit, load_append, hfile]
    exact List.prefix_append _ _
  exact (List.prefix_append _ _).trans hprefix

/-- After a request that was refused, so that the host has to clear the status first. -/
theorem download_upload_lpcRom :
    let b : Endpoint LpcState :=
      { dfu := run (handle lpcRom) (powerOn { flash := fun _ => 0x11 }) [downloadZeros 0x3f 0x100]
        dfuBuffer := fun _ => 0 }
    ∃ f₁ b₁, Host.download (bootloaderBus lpcRom) 2 { content := [1, 2, 3] } b =
        some (0, f₁, b₁) ∧
      load (b₁.flash lpcRom) 0x4000 (padFile [1, 2, 3]).length = padFile [1, 2, 3] ∧
      (∀ a < 0x4000, b₁.flash lpcRom a = b.flash lpcRom a) ∧
      ∃ f₂ b₂, Host.upload (bootloaderBus lpcRom) 2 { content := [] } b₁ = some (0, f₂, b₂) ∧
        f₂.content = load (b₁.flash lpcRom) 0x4000 (0x40000 - 0x4000) ∧
        b₂.flash lpcRom = b₁.flash lpcRom ∧ [1, 2, 3] <+: f₂.content :=
  download_upload works_lpcRom { flash := fun _ => 0x11 } [downloadZeros 0x3f 0x100] (by decide)
    (fun _ => 0) { content := [1, 2, 3] } (by decide) 2 le_rfl

end Ubertooth.Bootloader
