import Ubertooth.Interface
import Ubertooth.Foundations.Chain

/-!
# `iap.cpp` and `flash.h`: writing the flash

The flash is written by the IAP code in ROM, which is not part of the sources: `Rom` is what can be
seen of it. `Iap.issued` is the history of the commands given and the codes returned for them.
`Flash::write` issues the commands a block needs one after the other (`write_eq`).
-/

namespace Ubertooth.Bootloader

open Foundations

variable {ρ : Type*}

/-! ## `iap.cpp` -/

/-- `IAP::ReturnCode`, cast from whatever the ROM leaves in `output[0]` -/
abbrev ReturnCode := U32

/-- `CMD_SUCCESS` -/
abbrev cmdSuccess : ReturnCode := 0

/-- The commands as `input` has them; of the source address it matters what the RAM holds there. -/
inductive IapCommand
  | prepareSectorsForWriteOperation (startSector endSector : ℕ)
  | copyRamToFlash (destination : ℕ) (source : ℕ → U8) (bytes khz : ℕ)
  | eraseSectors (startSector endSector khz : ℕ)

/-- `entry_point`, on states of the ROM code, and the flash in such a state. -/
structure Rom (ρ : Type*) where
  entryPoint : IapCommand → ρ → ReturnCode × ρ
  flash : ρ → ℕ → U8

/-- The ROM code's state, with the commands it was given. -/
structure Iap (ρ : Type*) where
  rom : ρ
  issued : List (IapCommand × ReturnCode) := []

variable (rom : Rom ρ)

/-- Fill in `input`, call `entry_point` and return `output[0]`. -/
def call (c : IapCommand) (f : Iap ρ) : ReturnCode × Iap ρ :=
  let r := rom.entryPoint c f.rom
  (r.1, { rom := r.2, issued := f.issued ++ [(c, r.1)] })

/-! ## `flash.h` -/

/-- `cclk_khz` -/
abbrev cclkKhz : ℕ := 100000

def sectorSize (address : ℕ) : ℕ := if address < 0x10000 then 4096 else 32768

def sectorNumber (address : ℕ) : ℕ :=
  if address < 0x10000 then address >>> 12 else 14 + (address >>> 15)

def atSectorBoundary (address : ℕ) : Bool := address &&& (sectorSize address - 1) = 0

def validAddress (address : ℕ) : Bool := address < 0x80000

/-- `Flash::write` -/
def write (flashAddress : ℕ) (source : ℕ → U8) (length : ℕ) (f : Iap ρ) : Bool × Iap ρ :=
  let sector := sectorNumber flashAddress
  let prepare : Iap ρ → ReturnCode × Iap ρ :=
    call rom (.prepareSectorsForWriteOperation sector sector)
  let r :=
    if atSectorBoundary flashAddress then
      let r := prepare f
      if r.1 = cmdSuccess then call rom (.eraseSectors sector sector cclkKhz) r.2 else r
    else (cmdSuccess, f)
  let r := if r.1 = cmdSuccess then prepare r.2 else r
  if r.1 = cmdSuccess then
    -- the code that is returned here is dropped
    (true, (call rom (.copyRamToFlash flashAddress source length cclkKhz) r.2).2)
  else (false, r.2)

/-! ## The commands a block needs -/

/-- What has to succeed before a block is copied. -/
def preparations (flashAddress : ℕ) : List IapCommand :=
  (if atSectorBoundary flashAddress then
    [.prepareSectorsForWriteOperation (sectorNumber flashAddress) (sectorNumber flashAddress),
      .eraseSectors (sectorNumber flashAddress) (sectorNumber flashAddress) cclkKhz]
  else []) ++
    [.prepareSectorsForWriteOperation (sectorNumber flashAddress) (sectorNumber flashAddress)]

/-- Commands are issued until one fails. -/
def issue : List IapCommand → Iap ρ → ReturnCode × Iap ρ := chain (call rom) cmdSuccess

variable {rom}

/-- The preparations, and the copy if they succeed. -/
theorem write_eq (flashAddress : ℕ) (source : ℕ → U8) (length : ℕ) (f : Iap ρ) :
    write rom flashAddress source length f =
      let r := issue rom (preparations flashAddress) f
      if r.1 = cmdSuccess then
        (true, (call rom (.copyRamToFlash flashAddress source length cclkKhz) r.2).2)
      else (false, r.2) := by
  dsimp only [write, preparations, issue]
  rw [chain_append]
  cases atSectorBoundary flashAddress with
  | false => rw [if_neg Bool.false_ne_true, if_neg Bool.false_ne_true, chain_nil, chain_singleton]
  | true => rw [if_pos rfl, if_pos rfl, chain_cons, chain_singleton, chain_singleton]

end Ubertooth.Bootloader
