import Ubertooth.Bootloader.Protection

/-!
# A ROM of an LPC1756

An IAP with 22 sectors, 256 KiB of flash, that keeps the rules of the ROM: a sector has to be
prepared before each command that changes it, and programming only clears bits. It is confined
(`confined_lpcRom`). The results on the bootloader hold of any ROM; this one shows that there is
one.
-/

namespace Ubertooth.Bootloader

open Foundations

/-- The flash, and the sectors that are prepared. -/
structure LpcState where
  flash : ℕ → U8
  prepared : ℕ → Bool := fun _ => false

/-- The sectors of 256 KiB. -/
abbrev lpcSectors : ℕ := 22

def LpcState.unprepare (s : LpcState) (startSector endSector : ℕ) : LpcState :=
  { s with prepared := fun n => s.prepared n && !(startSector ≤ n && n ≤ endSector) }

/-- The octets of sectors are set to `0xFF`. -/
def eraseSectors (startSector endSector : ℕ) (m : ℕ → U8) : ℕ → U8 := fun a =>
  if startSector ≤ sectorNumber a ∧ sectorNumber a ≤ endSector then 0xFF else m a

/-- Bits are cleared, never set. -/
def clearBits (destination : ℕ) (source : ℕ → U8) (bytes : ℕ) (m : ℕ → U8) : ℕ → U8 := fun a =>
  if destination ≤ a ∧ a < destination + bytes then m a &&& source (a - destination) else m a

def lpcEntryPoint : IapCommand → LpcState → ReturnCode × LpcState
  | .prepareSectorsForWriteOperation startSector endSector, s =>
    if endSector < startSector ∨ lpcSectors ≤ endSector then (7, s)
    else (0, { s with prepared := fun n => s.prepared n || (startSector ≤ n && n ≤ endSector) })
  | .eraseSectors startSector endSector _, s =>
    if endSector < startSector ∨ lpcSectors ≤ endSector then (7, s)
    else if (List.range' startSector (endSector + 1 - startSector)).all s.prepared then
      (0, { s with flash := eraseSectors startSector endSector s.flash }.unprepare
        startSector endSector)
    else (9, s)
  | .copyRamToFlash destination source bytes _, s =>
    if destination % 256 ≠ 0 then (3, s)
    else if 0x40000 < destination + bytes then (5, s)
    else if bytes ∉ [256, 512, 1024, 4096] then (6, s)
    else if s.prepared (sectorNumber destination) then
      (0, { s with flash := clearBits destination source bytes s.flash }.unprepare
        (sectorNumber destination) (sectorNumber destination))
    else (9, s)

def lpcRom : Rom LpcState := { entryPoint := lpcEntryPoint, flash := LpcState.flash }

theorem confined_lpcRom : lpcRom.Confined := by
  intro c s a hnames
  show (lpcEntryPoint c s).2.flash a = s.flash a
  cases c with
  | prepareSectorsForWriteOperation startSector endSector =>
    unfold lpcEntryPoint
    dsimp only
    split <;> rfl
  | eraseSectors startSector endSector khz =>
    have hout : ¬(startSector ≤ sectorNumber a ∧ sectorNumber a ≤ endSector) :=
      fun h => hnames ⟨sectorNumber a, h.1, h.2, inSector_sectorNumber a⟩
    unfold lpcEntryPoint
    dsimp only
    split_ifs
    · rfl
    · exact if_neg hout
    · rfl
  | copyRamToFlash destination source bytes khz =>
    unfold lpcEntryPoint
    dsimp only
    split_ifs
    · rfl
    · rfl
    · exact if_neg hnames
    · rfl
    · rfl

/-- A download of `n` octets of zeros to a block. -/
def downloadZeros (block : U16) (n : U16) : ClassRequest :=
  { setup := { bRequest := Request.dnload.toU8, wValue := block, wLength := n }
    pbData := fun _ => 0 }

/-- A block of the bootloader is refused, one after it is written. -/
theorem guarded_along_lpcRom :
    Along (handle lpcRom) (Guarded lpcRom) (powerOn { flash := fun _ => 0x11 })
        [downloadZeros 0x3f 0x100, downloadZeros 0x40 0x100] ∧
      Throughout (handle lpcRom) (fun d => ∀ a < 0x4000, d.octet lpcRom a = 0x11)
        (powerOn { flash := fun _ => 0x11 })
        [downloadZeros 0x3f 0x100, downloadZeros 0x40 0x100] :=
  guarded_along confined_lpcRom { flash := fun _ => 0x11 } _

end Ubertooth.Bootloader
