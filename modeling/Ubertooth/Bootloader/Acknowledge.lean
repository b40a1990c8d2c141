import Ubertooth.Bootloader.Protection

/-!
# What the bootloader acknowledges

A block needs up to four commands, and `Flash::write` looks at the codes of all but the last. So a
download is acknowledged although it failed exactly if the preparations succeed and the copy does
not (`acknowledges_iff`).
-/

namespace Ubertooth.Bootloader

open Foundations

variable {ρ : Type*} (rom : Rom ρ)

/-- Every command a block needs succeeds. -/
def AllSucceed (flashAddress : ℕ) (source : ℕ → U8) (length : ℕ) (f : Iap ρ) : Prop :=
  AllGood (call rom) cmdSuccess (neededCommands flashAddress source length) f

/-- The ROM lets the block be prepared, and fails to copy it. -/
def CopyFails (flashAddress : ℕ) (source : ℕ → U8) (length : ℕ) (f : Iap ρ) : Prop :=
  AllGood (call rom) cmdSuccess (preparations flashAddress) f ∧
    (call rom (.copyRamToFlash flashAddress source length cclkKhz)
      (issue rom (preparations flashAddress) f).2).1 ≠ cmdSuccess

/-- A download is acknowledged only if its block is written, and answered with an error if not. -/
structure Honest (p : Setup) (pbData : ℕ → U8) (d : Dfu ρ) : Prop where
  acknowledged : p.bRequest = Request.dnload.toU8 → (requestHandler rom p pbData d).1.isSome →
    (requestHandler rom p pbData d).2.state = .dfuDnloadSync →
      AllSucceed rom p.flashAddress pbData transferSize d.flash
  refused : WritesBlock p d → ¬AllSucceed rom p.flashAddress pbData transferSize d.flash →
    (requestHandler rom p pbData d).1 = none ∧
      (requestHandler rom p pbData d).2.state = .dfuError ∧
      (requestHandler rom p pbData d).2.status = .errProg

variable {rom} {p : Setup} {pbData : ℕ → U8} {d : Dfu ρ}

/-! ## `Flash::write` -/

section Write

variable {flashAddress : ℕ} {source : ℕ → U8} {length : ℕ} {f : Iap ρ}

theorem write_fst_iff : (write rom flashAddress source length f).1 = true ↔
    AllGood (call rom) cmdSuccess (preparations flashAddress) f := by
  rw [← chain_fst_iff, write_eq]
  dsimp only [issue]
  split
  case isTrue h => exact iff_of_true rfl h
  case isFalse h => exact iff_of_false Bool.false_ne_true h

theorem allSucceed_iff : AllSucceed rom flashAddress source length f ↔
    AllGood (call rom) cmdSuccess (preparations flashAddress) f ∧
      ¬CopyFails rom flashAddress source length f := by
  unfold AllSucceed neededCommands CopyFails
  rw [allGood_append, allGood_cons, and_iff_left (allGood_nil _)]
  refine and_congr_right fun hprepared => ?_
  rw [and_iff_right hprepared, ne_eq, not_not]
  rfl

theorem write_only_iff : ((write rom flashAddress source length f).1 = true →
    AllSucceed rom flashAddress source length f) ↔ ¬CopyFails rom flashAddress source length f := by
  rw [write_fst_iff, allSucceed_iff]
  exact ⟨fun h hfails => (h hfails.1).2 hfails, fun h hprepared => ⟨hprepared, h⟩⟩

end Write

/-! ## A download -/

theorem Dfu.error_of_dfu {s : Status} (hidle : d.state ≠ .appIdle)
    (hdetach : d.state ≠ .appDetach) :
    (d.error s).1 = none ∧ (d.error s).2.state = .dfuError ∧ (d.error s).2.status = s := by
  unfold Dfu.error
  dsimp only
  rw [if_pos ⟨hidle, hdetach⟩]
  exact ⟨rfl, rfl, rfl⟩

theorem state_of_writesBlock (h : WritesBlock p d) :
    d.state ≠ .appIdle ∧ d.state ≠ .appDetach := by
  obtain ⟨-, -, hstate | hstate, -⟩ := h
  all_goals
    rw [hstate]
    decide

/-- A download that does not get as far as `Flash::write` is not acknowledged as a block. -/
theorem not_acknowledged (h : ¬WritesBlock p d) (hrequest : p.bRequest = Request.dnload.toU8)
    (hsome : (requestHandler rom p pbData d).1.isSome) :
    (requestHandler rom p pbData d).2.state ≠ .dfuDnloadSync := by
  rw [requestHandler_dnload hrequest] at hsome ⊢
  unfold requestDnload at hsome ⊢
  split_ifs at hsome ⊢ with hzero hidle hlength hstate hpolicy
  · exact absurd hsome Bool.false_ne_true
  · exact nofun
  · exact absurd hsome Bool.false_ne_true
  · refine absurd ⟨hrequest, hlength, ?_, of_decide_eq_true hpolicy⟩ h
    rwa [not_and_or, not_not, not_not] at hstate
  · exact absurd hsome Bool.false_ne_true
  · exact absurd hsome Bool.false_ne_true

theorem honest_iff : Honest rom p pbData d ↔
    ¬(WritesBlock p d ∧ CopyFails rom p.flashAddress pbData transferSize d.flash) := by
  by_cases hwrites : WritesBlock p d
  case neg =>
    exact iff_of_true ⟨fun hrequest hsome hsync =>
      absurd hsync (not_acknowledged hwrites hrequest hsome), fun h => absurd h hwrites⟩
      fun h => hwrites h.1
  rw [and_iff_right hwrites]
  have hhandler := requestHandler_of_writesBlock rom hwrites pbData
  dsimp only at hhandler
  by_cases hwritten : (write rom p.flashAddress pbData transferSize d.flash).1 = true
  · rw [if_pos hwritten] at hhandler
    have hprepared := write_fst_iff.1 hwritten
    constructor
    · intro h
      refine (allSucceed_iff.1 (h.acknowledged hwrites.1 ?_ ?_)).2
      · rw [hhandler]
        rfl
      · rw [hhandler]
        rfl
    · intro h
      have hall := allSucceed_iff.2 ⟨hprepared, h⟩
      exact ⟨fun _ _ _ => hall, fun _ hnot => absurd hall hnot⟩
  · rw [if_neg hwritten] at hhandler
    obtain ⟨hidle, hdetach⟩ := state_of_writesBlock hwrites
    obtain ⟨hnone, hstate, hstatus⟩ := Dfu.error_of_dfu (s := .errProg) (d := { d with
      flash := (write rom p.flashAddress pbData transferSize d.flash).2 }) hidle hdetach
    refine iff_of_true ⟨fun _ hsome _ => ?_, fun _ _ => ?_⟩
      fun hfails => hwritten (write_fst_iff.2 hfails.1)
    · rw [hhandler, hnone] at hsome
      exact absurd hsome Bool.false_ne_true
    · rw [hhandler]
      exact ⟨hnone, hstate, hstatus⟩

/-- **What is acknowledged.** `Flash::write` returns `true` only if every command the block needs
succeeds, and the bootloader is honest about the download, exactly if it is not the copy that
fails. -/
theorem acknowledges_iff (rom : Rom ρ) :
    (∀ flashAddress source length f, ((write rom flashAddress source length f).1 = true →
      AllSucceed rom flashAddress source length f) ↔
        ¬CopyFails rom flashAddress source length f) ∧
    ∀ p pbData d, Honest rom p pbData d ↔
      ¬(WritesBlock p d ∧ CopyFails rom p.flashAddress pbData transferSize d.flash) :=
  ⟨fun _ _ _ _ => write_only_iff, fun _ _ _ => honest_iff⟩

/-- A ROM that is busy whenever it should copy. -/
def busyRom : Rom Unit :=
  { entryPoint := fun c s =>
      match c with
      | .copyRamToFlash _ _ _ _ => (11, s)
      | _ => (cmdSuccess, s)
    flash := fun _ _ => 0xFF }

/-- The first block of an update is acknowledged although the copy fails. -/
theorem not_honest_busyRom : ¬Honest busyRom
    { bRequest := Request.dnload.toU8, wValue := 0x40, wLength := 0x100 } (fun _ => 0)
    (powerOn ()) := by
  rw [honest_iff, not_not]
  refine ⟨by decide, ?_, by decide +kernel⟩
  exact chain_fst_iff.1 (by decide +kernel)

end Ubertooth.Bootloader
