import Ubertooth.Bootloader.LpcRom

/-!
# The flash is programmed block by block

`Rom.Works` says what the ROM does for commands that keep its rules, as far as the bootloader relies
on it. Under it `Flash::write` is the writer of a memory that is erased by sectors (`write_works`):
it erases a sector when its first block comes, so that every block finds what it programs blank.
-/

namespace Ubertooth.Bootloader

open Foundations

variable {ρ : Type*}

/-- A sector has to be prepared, is erased as a whole, and a block of it programmed where it is
blank. -/
structure Rom.Works (rom : Rom ρ) (prepared : ρ → ℕ → Prop) : Prop where
  prepare : ∀ n s, n < lpcSectors →
    (rom.entryPoint (.prepareSectorsForWriteOperation n n) s).1 = cmdSuccess ∧
      rom.flash (rom.entryPoint (.prepareSectorsForWriteOperation n n) s).2 = rom.flash s ∧
      prepared (rom.entryPoint (.prepareSectorsForWriteOperation n n) s).2 n
  erase : ∀ n s, n < lpcSectors → prepared s n →
    (rom.entryPoint (.eraseSectors n n cclkKhz) s).1 = cmdSuccess ∧
      rom.flash (rom.entryPoint (.eraseSectors n n cclkKhz) s).2 =
        eraseSector sectorStart 0xFF n (rom.flash s)
  copy : ∀ destination source s, transferSize ∣ destination → destination + transferSize ≤ 0x40000 →
    prepared s (sectorNumber destination) →
    (∀ a, destination ≤ a → a < destination + transferSize → rom.flash s a = 0xFF) →
    (rom.entryPoint (.copyRamToFlash destination source transferSize cclkKhz) s).1 = cmdSuccess ∧
      rom.flash (rom.entryPoint (.copyRamToFlash destination source transferSize cclkKhz) s).2 =
        program destination transferSize source (rom.flash s)

theorem sectorNumber_lt {address : ℕ} (h : address < 0x40000) :
    sectorNumber address < lpcSectors := by
  show sectorNumber address < 22
  rw [sectorNumber_eq]
  split_ifs <;> omega

theorem sectorStart_four : sectorStart 4 = 0x4000 := rfl

variable {rom : Rom ρ} {prepared : ρ → ℕ → Prop} {address : ℕ} {old contents source : ℕ → U8}
  {f : Iap ρ}

namespace Rom.Works

variable {n : ℕ}

theorem call_prepare (hrom : rom.Works prepared) (hn : n < lpcSectors) (f : Iap ρ) :
    (call rom (.prepareSectorsForWriteOperation n n) f).1 = cmdSuccess ∧
      rom.flash (call rom (.prepareSectorsForWriteOperation n n) f).2.rom = rom.flash f.rom ∧
      prepared (call rom (.prepareSectorsForWriteOperation n n) f).2.rom n :=
  hrom.prepare n f.rom hn

theorem call_erase (hrom : rom.Works prepared) (hn : n < lpcSectors)
    (hprepared : prepared f.rom n) :
    (call rom (.eraseSectors n n cclkKhz) f).1 = cmdSuccess ∧
      rom.flash (call rom (.eraseSectors n n cclkKhz) f).2.rom =
        eraseSector sectorStart 0xFF n (rom.flash f.rom) :=
  hrom.erase n f.rom hn hprepared

theorem flash_call_copy (hrom : rom.Works prepared) (source : ℕ → U8)
    (hdvd : transferSize ∣ address)
    (hhi : address + transferSize ≤ 0x40000) (hprepared : prepared f.rom (sectorNumber address))
    (hblank : ∀ a, address ≤ a → a < address + transferSize → rom.flash f.rom a = 0xFF) :
    rom.flash (call rom (.copyRamToFlash address source transferSize cclkKhz) f).2.rom =
      program address transferSize source (rom.flash f.rom) :=
  (hrom.copy address source f.rom hdvd hhi hprepared hblank).2

end Rom.Works

/-- The sector of a block is ready: all before the block is written, and the rest is blank. -/
structure Ready (address : ℕ) (old contents m : ℕ → U8) : Prop where
  written : Written sectorStart 0xFF (sectorStart 4) old contents address m
  blank : ∀ a, address ≤ a → a < sectorStart (sectorNumber address + 1) → m a = 0xFF

/-- A sector is erased when its first block comes. -/
theorem ready_erase (hlo : 0x4000 ≤ address) (hboundary : atSectorBoundary address = true)
    {m : ℕ → U8} (hw : Written sectorStart 0xFF (sectorStart 4) old contents address m) :
    Ready address old contents (eraseSector sectorStart 0xFF (sectorNumber address) m) := by
  have hstart := (atSectorBoundary_iff address).1 hboundary
  have hbase : sectorStart 4 ≤ sectorStart (sectorNumber address) := by
    rw [hstart, sectorStart_four]
    exact hlo
  have herased := Written.erase hbase (hstart.symm ▸ hw)
  rw [hstart] at herased
  exact ⟨herased, fun a ha ha' =>
    eraseSector_of_mem ⟨(inSector_sectorNumber address).1.trans ha, ha'⟩⟩

/-- A sector that has been begun is blank from the next block on. -/
theorem ready_of_not_boundary (hboundary : ¬atSectorBoundary address = true) {m : ℕ → U8}
    (hw : Written sectorStart 0xFF (sectorStart 4) old contents address m) :
    Ready address old contents m := by
  have hin := inSector_sectorNumber address
  have hlt : sectorStart (sectorNumber address) < address :=
    lt_of_le_of_ne hin.1 fun h => hboundary ((atSectorBoundary_iff address).2 h)
  exact ⟨hw, fun a ha ha' => hw.rest _ a hlt ⟨hin.1.trans ha, ha'⟩ ha⟩

/-- The preparations succeed. -/
theorem preparations_work (hrom : rom.Works prepared) (hlo : 0x4000 ≤ address)
    (hhi : address < 0x40000)
    (hw : Written sectorStart 0xFF (sectorStart 4) old contents address (rom.flash f.rom)) :
    (issue rom (preparations address) f).1 = cmdSuccess ∧
      Ready address old contents (rom.flash (issue rom (preparations address) f).2.rom) ∧
      prepared (issue rom (preparations address) f).2.rom (sectorNumber address) := by
  have hn := sectorNumber_lt hhi
  unfold issue preparations
  by_cases hboundary : atSectorBoundary address = true
  · -- prepare, erase, prepare
    obtain ⟨hcode1, hflash1, hprepared1⟩ := hrom.call_prepare hn f
    obtain ⟨hcode2, hflash2⟩ := hrom.call_erase hn hprepared1
    obtain ⟨hcode3, hflash3, hprepared3⟩ := hrom.call_prepare hn (call rom (.eraseSectors
      (sectorNumber address) (sectorNumber address) cclkKhz) (call rom
        (.prepareSectorsForWriteOperation (sectorNumber address) (sectorNumber address)) f).2).2
    rw [if_pos hboundary, List.cons_append, List.cons_append, List.nil_append, chain_cons,
      if_pos hcode1, chain_cons, if_pos hcode2, chain_singleton]
    refine ⟨hcode3, ?_, hprepared3⟩
    rw [hflash3, hflash2, hflash1]
    exact ready_erase hlo hboundary hw
  · obtain ⟨hcode, hflash, hprepared⟩ := hrom.call_prepare hn f
    rw [if_neg hboundary, List.nil_append, chain_singleton]
    refine ⟨hcode, ?_, hprepared⟩
    rw [hflash]
    exact ready_of_not_boundary hboundary hw

/-- A block is written after those before it. -/
theorem write_works (hrom : rom.Works prepared) (hdvd : transferSize ∣ address)
    (hlo : 0x4000 ≤ address) (hhi : address + transferSize ≤ 0x40000)
    (hsource : ∀ k < transferSize, source k = contents (address + k))
    (hw : Written sectorStart 0xFF (sectorStart 4) old contents address (rom.flash f.rom)) :
    (write rom address source transferSize f).1 = true ∧
      Written sectorStart 0xFF (sectorStart 4) old contents (address + transferSize)
        (rom.flash (write rom address source transferSize f).2.rom) := by
  have hfit := block_le_sectorStart hdvd
  have hlt : address < 0x40000 := lt_of_lt_of_le (Nat.lt_add_of_pos_right (by simp)) hhi
  obtain ⟨hcode, hready, hprepared⟩ := preparations_work hrom hlo hlt hw
  have hflash := hrom.flash_call_copy source hdvd hhi hprepared
    fun a ha ha' => hready.blank a ha (ha'.trans_le hfit)
  rw [write_eq]
  dsimp only
  rw [if_pos hcode]
  refine ⟨rfl, ?_⟩
  have hbase : sectorStart 4 ≤ address := hlo
  rw [hflash]
  exact hready.written.program monotone_sectorStart hbase hready.blank hfit hsource

/-! ## A ROM that works -/

theorem inSector_iff (n a : ℕ) : InSector sectorStart n a ↔ sectorNumber a = n :=
  ⟨fun h => (inSector_sectorNumber a).unique monotone_sectorStart h,
    fun h => h ▸ inSector_sectorNumber a⟩

theorem eraseSectors_self (n : ℕ) (m : ℕ → U8) :
    eraseSectors n n m = eraseSector sectorStart 0xFF n m := by
  funext a
  have hiff : n ≤ sectorNumber a ∧ sectorNumber a ≤ n ↔ InSector sectorStart n a := by
    rw [inSector_iff]
    omega
  exact if_congr hiff rfl rfl

/-- Clearing bits programs what is blank. -/
theorem clearBits_of_blank {m : ℕ → U8} {bytes : ℕ}
    (h : ∀ a, address ≤ a → a < address + bytes → m a = 0xFF) :
    clearBits address source bytes m = program address bytes source m := by
  funext a
  refine ite_congr rfl (fun hin => ?_) fun _ => rfl
  rw [h a hin.1 hin.2]
  exact BitVec.allOnes_and

theorem works_lpcRom : lpcRom.Works fun s n => s.prepared n = true := by
  refine ⟨fun n s hn => ?_, fun n s hn hprepared => ?_, fun destination source s hdvd hhi hprepared
    hblank => ?_⟩
  · show (lpcEntryPoint _ s).1 = _ ∧ (lpcEntryPoint _ s).2.flash = _ ∧
      (lpcEntryPoint _ s).2.prepared n = true
    unfold lpcEntryPoint
    dsimp only
    rw [if_neg (by omega)]
    exact ⟨rfl, rfl, by simp⟩
  · show (lpcEntryPoint _ s).1 = _ ∧ (lpcEntryPoint _ s).2.flash = _
    have hall : (List.range' n (n + 1 - n)).all s.prepared = true := by
      rw [Nat.add_sub_cancel_left]
      simpa using hprepared
    unfold lpcEntryPoint
    dsimp only
    rw [if_neg (by omega), if_pos hall]
    exact ⟨rfl, eraseSectors_self n s.flash⟩
  · show (lpcEntryPoint _ s).1 = _ ∧ (lpcEntryPoint _ s).2.flash = _
    have hmod : ¬destination % 256 ≠ 0 := not_not.2 (Nat.mod_eq_zero_of_dvd hdvd)
    unfold lpcEntryPoint
    dsimp only
    rw [if_neg hmod, if_neg (not_lt.2 hhi), if_neg (by simp), if_pos hprepared]
    exact ⟨rfl, clearBits_of_blank hblank⟩

end Ubertooth.Bootloader
