import Ubertooth.Foundations.Runs
import Ubertooth.Foundations.SectorMemory
import Ubertooth.Bootloader.Dfu

/-!
# The bootloader protects itself

Whatever codes the ROM returns, the commands given to it name nothing below `0x4000`, an erase hits
the sector that starts at the block of the request, and only a block in the right state changes the
flash (`guarded_along`).
-/

namespace Ubertooth.Bootloader

open Foundations

variable {ρ : Type*} {rom : Rom ρ}

/-! ## The sectors of the LPC17xx -/

/-- 16 sectors of 4 KiB, and above them sectors of 32 KiB. -/
def sectorStart (n : ℕ) : ℕ := if n < 16 then 0x1000 * n else 0x10000 + 0x8000 * (n - 16)

theorem monotone_sectorStart : Monotone sectorStart := by
  refine monotone_nat_of_le_succ fun n => ?_
  unfold sectorStart
  split_ifs <;> omega

theorem sectorNumber_eq (address : ℕ) : sectorNumber address =
    if address < 0x10000 then address / 0x1000 else 14 + address / 0x8000 := by
  unfold sectorNumber
  rw [Nat.shiftRight_eq_div_pow, Nat.shiftRight_eq_div_pow]

/-- An address lies in the sector with its number. -/
theorem inSector_sectorNumber (address : ℕ) :
    InSector sectorStart (sectorNumber address) address := by
  unfold InSector sectorStart
  rw [sectorNumber_eq]
  split_ifs <;> omega

theorem atSectorBoundary_iff (address : ℕ) :
    atSectorBoundary address = true ↔ sectorStart (sectorNumber address) = address := by
  have hland : address &&& (sectorSize address - 1) = address % sectorSize address := by
    unfold sectorSize
    split
    · exact Nat.and_two_pow_sub_one_eq_mod address 12
    · exact Nat.and_two_pow_sub_one_eq_mod address 15
  unfold atSectorBoundary
  rw [decide_eq_true_iff, hland, sectorNumber_eq]
  unfold sectorSize sectorStart
  split_ifs <;> omega

/-- A block lies in one sector. -/
theorem block_le_sectorStart {address : ℕ} (h : transferSize ∣ address) :
    address + transferSize ≤ sectorStart (sectorNumber address + 1) := by
  obtain ⟨k, hk⟩ : 256 ∣ address := h
  show address + 256 ≤ _
  unfold sectorStart
  rw [sectorNumber_eq]
  split_ifs <;> omega

theorem le_sectorStart {address : ℕ} (h : 0x4000 ≤ address) :
    0x4000 ≤ sectorStart (sectorNumber address) := by
  unfold sectorStart
  rw [sectorNumber_eq]
  split_ifs <;> omega

/-! ## What commands may touch -/

/-- The octets a command names. -/
def IapCommand.Names : IapCommand → ℕ → Prop
  | .prepareSectorsForWriteOperation _ _, _ => False
  | .copyRamToFlash destination _ bytes _, a => destination ≤ a ∧ a < destination + bytes
  | .eraseSectors startSector endSector _, a =>
    ∃ n, startSector ≤ n ∧ n ≤ endSector ∧ InSector sectorStart n a

/-- Commands change only what they name. -/
def Rom.Confined (rom : Rom ρ) : Prop :=
  ∀ c s a, ¬c.Names a → rom.flash (rom.entryPoint c s).2 a = rom.flash s a

/-- The commands a block needs. -/
def neededCommands (flashAddress : ℕ) (source : ℕ → U8) (length : ℕ) : List IapCommand :=
  preparations flashAddress ++ [.copyRamToFlash flashAddress source length cclkKhz]

/-- `Flash::write` keeps what the commands it needs keep. -/
theorem write_invariant {I : Iap ρ → Prop} {flashAddress : ℕ} {source : ℕ → U8} {length : ℕ}
    (hcall : ∀ c ∈ neededCommands flashAddress source length, ∀ f, I f → I (call rom c f).2)
    {f : Iap ρ} (h : I f) : I (write rom flashAddress source length f).2 := by
  have hprepared : I (issue rom (preparations flashAddress) f).2 :=
    chain_invariant (fun c hc => hcall c (List.mem_append_left _ hc)) h
  rw [write_eq]
  dsimp only
  split
  · exact hcall _ (List.mem_append_right _ List.mem_cons_self) _ hprepared
  · exact hprepared

theorem mem_neededCommands {c : IapCommand} {flashAddress : ℕ} {source : ℕ → U8} {length : ℕ}
    (h : c ∈ neededCommands flashAddress source length) :
    c = .prepareSectorsForWriteOperation (sectorNumber flashAddress) (sectorNumber flashAddress) ∨
      c = .copyRamToFlash flashAddress source length cclkKhz ∨
      c = .eraseSectors (sectorNumber flashAddress) (sectorNumber flashAddress) cclkKhz ∧
        sectorStart (sectorNumber flashAddress) = flashAddress := by
  unfold neededCommands preparations at h
  by_cases hboundary : atSectorBoundary flashAddress = true
  · have hstart := (atSectorBoundary_iff flashAddress).1 hboundary
    rw [if_pos hboundary] at h
    simp only [List.cons_append, List.nil_append, List.mem_cons, List.not_mem_nil, or_false] at h
    obtain h | h | h | h := h
    · exact Or.inl h
    · exact Or.inr (Or.inr ⟨h, hstart⟩)
    · exact Or.inl h
    · exact Or.inr (Or.inl h)
  · rw [if_neg hboundary] at h
    simp only [List.nil_append, List.cons_append, List.mem_cons, List.not_mem_nil, or_false] at h
    exact h.imp_right Or.inl

/-- What a block names lies in its sector. -/
theorem inSector_of_names {c : IapCommand} {flashAddress a : ℕ} {source : ℕ → U8}
    (hblock : transferSize ∣ flashAddress)
    (hc : c ∈ neededCommands flashAddress source transferSize) (ha : c.Names a) :
    InSector sectorStart (sectorNumber flashAddress) a := by
  obtain rfl | rfl | ⟨rfl, -⟩ := mem_neededCommands hc
  · exact ha.elim
  · obtain ⟨hle, hlt⟩ := ha
    exact ⟨(inSector_sectorNumber flashAddress).1.trans hle,
      lt_of_lt_of_le hlt (block_le_sectorStart hblock)⟩
  · obtain ⟨n, h1, h2, hin⟩ := ha
    rwa [Nat.le_antisymm h2 h1] at hin

/-! ## What a request does to the flash -/

/-- The request is a block that gets as far as `Flash::write`. -/
def WritesBlock (p : Setup) (d : Dfu ρ) : Prop :=
  p.bRequest = Request.dnload.toU8 ∧ p.wLength.toNat = transferSize ∧
    (d.state = .dfuIdle ∨ d.state = .dfuDnloadIdle) ∧ 0x4000 ≤ p.flashAddress

instance (p : Setup) (d : Dfu ρ) : Decidable (WritesBlock p d) := instDecidableAnd

@[simp] theorem Dfu.flash_setState (newState : State) (d : Dfu ρ) :
    (d.setState newState).flash = d.flash := rfl

@[simp] theorem Dfu.flash_error (newStatus : Status) (d : Dfu ρ) :
    (d.error newStatus).2.flash = d.flash := by
  unfold Dfu.error
  dsimp only
  split <;> rfl

@[simp] theorem Dfu.flash_accept (p : Setup) (pbData : ℕ → U8) (d : Dfu ρ) :
    (d.accept p pbData).2.flash = d.flash := rfl

@[simp] theorem Dfu.flash_polled (d : Dfu ρ) : d.polled.flash = d.flash := by
  unfold Dfu.polled
  split <;> rfl

theorem transferSize_dvd (p : Setup) : transferSize ∣ p.flashAddress := Nat.dvd_mul_left _ _

/-- A block that is written. -/
theorem requestHandler_of_writesBlock (rom : Rom ρ) {p : Setup} {d : Dfu ρ} (h : WritesBlock p d)
    (pbData : ℕ → U8) : requestHandler rom p pbData d =
      let r := write rom p.flashAddress pbData transferSize d.flash
      let d := { d with flash := r.2 }
      if r.1 then (d.setState .dfuDnloadSync).accept p pbData else d.error .errProg := by
  obtain ⟨hrequest, hlength, hstate, hpermitted⟩ := h
  have hne : p.wLength ≠ 0 := by
    intro h0
    rw [h0] at hlength
    exact absurd hlength (by simp)
  have hstate' : ¬(d.state ≠ .dfuIdle ∧ d.state ≠ .dfuDnloadIdle) :=
    fun hboth => hstate.elim hboth.1 hboth.2
  have hpolicy : writePermitted p.flashAddress = true := decide_eq_true hpermitted
  rw [requestHandler_dnload hrequest]
  unfold requestDnload
  rw [if_neg hne, if_pos hlength, if_neg hstate', if_pos hpolicy, hlength]

theorem flash_of_writesBlock {p : Setup} {d : Dfu ρ} (h : WritesBlock p d) {pbData : ℕ → U8} :
    (requestHandler rom p pbData d).2.flash =
      (write rom p.flashAddress pbData transferSize d.flash).2 := by
  rw [requestHandler_of_writesBlock _ h]
  dsimp only
  split
  · rfl
  · exact Dfu.flash_error _ _

/-- Any other request leaves the flash alone. -/
theorem flash_requestHandler_of_not {p : Setup} {d : Dfu ρ} (h : ¬WritesBlock p d)
    (pbData : ℕ → U8) : (requestHandler rom p pbData d).2.flash = d.flash := by
  unfold requestHandler
  split_ifs with h0 h1 h2 h3 h4 h5 h6
  · unfold requestDetach
    split <;> simp
  · unfold requestDnload
    split_ifs with hzero hidle hlength hstate hpolicy
    · simp
    · simp
    · simp
    · refine absurd ⟨h1, hlength, ?_, of_decide_eq_true hpolicy⟩ h
      rwa [not_and_or, not_not, not_not] at hstate
    · simp
    · simp
  · unfold requestUpload
    dsimp only
    split_ifs <;> simp
  · unfold requestGetStatus
    split <;> simp
  · unfold requestClrStatus
    split_ifs <;> simp [Dfu.setStatus]
  · unfold requestGetState
    split <;> simp
  · unfold requestAbort
    split_ifs <;> simp
  · rfl

/-! ## What a request does to the flash memory -/

/-- An octet of the flash. -/
def Dfu.octet (rom : Rom ρ) (d : Dfu ρ) (a : ℕ) : U8 := rom.flash d.flash.rom a

/-- The commands that are given while a request is handled. -/
def commandsOf (rom : Rom ρ) (d : Dfu ρ) (r : ClassRequest) : List IapCommand :=
  ((handle rom d r).flash.issued.drop d.flash.issued.length).map Prod.fst

/-- Only the commands a block needs are given. -/
theorem mem_commandsOf {d : Dfu ρ} {r : ClassRequest} {c : IapCommand}
    (h : c ∈ commandsOf rom d r) : WritesBlock r.setup d ∧
      c ∈ neededCommands r.setup.flashAddress r.pbData transferSize := by
  by_cases hwrites : WritesBlock r.setup d
  · refine ⟨hwrites, ?_⟩
    let I : Iap ρ → Prop := fun f => ∃ more, f.issued = d.flash.issued ++ more ∧
      ∀ x ∈ more, x.1 ∈ neededCommands r.setup.flashAddress r.pbData transferSize
    have hI : I (write rom r.setup.flashAddress r.pbData transferSize d.flash).2 := by
      refine write_invariant (fun c hc f hf => ?_) ⟨[], by simp, by simp⟩
      obtain ⟨more, hissued, hmore⟩ := hf
      refine ⟨more ++ [(c, (rom.entryPoint c f.rom).1)], ?_, fun x hx => ?_⟩
      · show f.issued ++ [_] = _
        rw [hissued, List.append_assoc]
      · obtain hx | hx := List.mem_append.1 hx
        · exact hmore x hx
        · rw [List.mem_singleton.1 hx]
          exact hc
    obtain ⟨more, hissued, hmore⟩ := hI
    unfold commandsOf handle at h
    rw [flash_of_writesBlock hwrites, hissued, List.drop_left] at h
    obtain ⟨x, hx, rfl⟩ := List.mem_map.1 h
    exact hmore x hx
  · unfold commandsOf handle at h
    rw [flash_requestHandler_of_not hwrites, List.drop_length] at h
    exact absurd h List.not_mem_nil

/-- A request changes the flash only inside the sector of the block it writes. -/
theorem inSector_of_octet_ne (hrom : rom.Confined) {d : Dfu ρ} {r : ClassRequest} {a : ℕ}
    (h : (handle rom d r).octet rom a ≠ d.octet rom a) : WritesBlock r.setup d ∧
      InSector sectorStart (sectorNumber r.setup.flashAddress) a := by
  by_cases hwrites : WritesBlock r.setup d
  · refine ⟨hwrites, ?_⟩
    by_contra hout
    let I : Iap ρ → Prop := fun f => rom.flash f.rom a = rom.flash d.flash.rom a
    have hI : I (write rom r.setup.flashAddress r.pbData transferSize d.flash).2 := by
      refine write_invariant (fun c hc f hf => ?_) rfl
      have hnames : ¬c.Names a := fun ha => hout (inSector_of_names (transferSize_dvd _) hc ha)
      exact (hrom c f.rom a hnames).trans hf
    refine h ?_
    unfold Dfu.octet handle
    rw [flash_of_writesBlock hwrites]
    exact hI
  · refine absurd ?_ h
    unfold Dfu.octet handle
    rw [flash_requestHandler_of_not hwrites]

/-! ## The bootloader protects itself -/

/-- What the bootloader guarantees of a request. -/
structure Guarded (rom : Rom ρ) (d : Dfu ρ) (r : ClassRequest) : Prop where
  /-- Nothing below `0x4000` is erased or programmed. -/
  protects : ∀ c ∈ commandsOf rom d r, ∀ a < 0x4000, ¬c.Names a
  /-- An erase hits the one sector that starts where the block does. -/
  erases : ∀ startSector endSector khz,
    .eraseSectors startSector endSector khz ∈ commandsOf rom d r →
      endSector = startSector ∧ sectorStart startSector = r.setup.flashAddress
  /-- Only a block of 256 octets in one of two states changes the flash, in the block's sector. -/
  confined : ∀ a, (handle rom d r).octet rom a ≠ d.octet rom a →
    (r.setup.bRequest = Request.dnload.toU8 ∧ r.setup.wLength = 256 ∧
      (d.state = .dfuIdle ∨ d.state = .dfuDnloadIdle)) ∧
    ∃ n, InSector sectorStart n r.setup.flashAddress ∧ InSector sectorStart n a

theorem guarded (hrom : rom.Confined) (d : Dfu ρ) (r : ClassRequest) : Guarded rom d r := by
  refine ⟨fun c hc a ha hnames => ?_, fun startSector endSector khz hc => ?_, fun a ha => ?_⟩
  · obtain ⟨⟨-, -, -, hpermitted⟩, hneeded⟩ := mem_commandsOf hc
    have hin := inSector_of_names (transferSize_dvd _) hneeded hnames
    have := (le_sectorStart hpermitted).trans hin.1
    omega
  · obtain ⟨-, hneeded⟩ := mem_commandsOf hc
    obtain h | h | ⟨h, hstart⟩ := mem_neededCommands hneeded
    · exact absurd h (by simp)
    · exact absurd h (by simp)
    · injection h with h1 h2
      rw [h1, h2]
      exact ⟨rfl, hstart⟩
  · obtain ⟨⟨hrequest, hlength, hstate, -⟩, hin⟩ := inSector_of_octet_ne hrom ha
    exact ⟨⟨hrequest, BitVec.eq_of_toNat_eq hlength, hstate⟩, _, inSector_sectorNumber _, hin⟩

/-- **The bootloader protects itself.** In every run of class requests from the start, whatever the
ROM returns, each request is guarded, and no octet below `0x4000` ever changes. -/
theorem guarded_along (hrom : rom.Confined) (s : ρ) (rs : List ClassRequest) :
    Along (handle rom) (Guarded rom) (powerOn s) rs ∧
      Throughout (handle rom) (fun d => ∀ a < 0x4000, d.octet rom a = rom.flash s a)
        (powerOn s) rs := by
  have hall : Along (handle rom) (Guarded rom) (powerOn s) rs := along_of_all (guarded hrom) _ rs
  refine ⟨hall, throughout_of_along (fun d r hd hr a ha => ?_) (fun _ _ => rfl) hall⟩
  by_contra hne
  have hchanged : (handle rom d r).octet rom a ≠ d.octet rom a := fun h => hne (h.trans (hd a ha))
  obtain ⟨⟨-, -, -, hpermitted⟩, hin⟩ := inSector_of_octet_ne hrom hchanged
  have := (le_sectorStart hpermitted).trans hin.1
  omega

end Ubertooth.Bootloader
