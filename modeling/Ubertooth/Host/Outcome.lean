import Ubertooth.Host.UbertoothDfu

/-!
# What an update reports

The device is a sequence of responses, of which each control transfer takes the next, and `Script`
keeps the exchanges. `download` ends early only on an error other than a stall, and never looks at
the status it asks for. `reportsHonestly_iff` says for which responses it nevertheless returns 0
only if the device took every block.
-/

namespace Ubertooth.Host

open Foundations

/-- A device that answers from a sequence of responses, and what has been exchanged with it. -/
structure Script where
  responses : ℕ → Response
  log : List (ControlTransfer × Response) := []

def script : Bus Script := fun t s =>
  (s.responses 0,
    { responses := fun n => s.responses (n + 1), log := s.log ++ [(t, s.responses 0)] })

/-- An error that ends a download. -/
def Response.Aborts (r : Response) : Prop := r.rv < 0 ∧ r.rv ≠ errorPipe

/-- The answer to a status request names `dfuERROR`. -/
def Response.ReportsError (r : Response) : Prop := 5 ≤ r.rv ∧ r.data 4 = 10

/-- A download that is accepted, or a status that is no error; or something else. -/
def Good (e : ControlTransfer × Response) : Prop :=
  (e.1.bRequest = 1 → 0 ≤ e.2.rv) ∧ (e.1.bRequest = 3 → ¬e.2.ReportsError)

/-- The blocks that were sent. -/
def blocksSent (log : List (ControlTransfer × Response)) : List U16 :=
  (log.filter fun e => e.1.bRequest = 1).map fun e => e.1.wValue

/-- The device took a whole file of `n` blocks, and reported no error. -/
def Taken (n : ℕ) (log : List (ControlTransfer × Response)) : Prop :=
  blocksSent log = (List.range n).map (fun k => BitVec.ofNat 16 (0x40 + k)) ∧ ∀ e ∈ log, Good e

/-- The blocks of a file. -/
def blocksOf (f : CFile) : ℕ := blocksLeft (f.fseek 0 .set)

/-- `download` returns, and returns 0 only if the device took the file. -/
def ReportsHonestly (f : CFile) (responses : ℕ → Response) : Prop :=
  ∃ fuel r, download script fuel f { responses := responses } = some r ∧
    (r.1 = 0 → Taken (blocksOf f) r.2.2.log)

/-- The device lets `enter_dfu_mode` come to an end, and after it fails, or answers a block with an
error other than a stall, or accepts every block and reports no error after any. -/
def Settles (f : CFile) (responses : ℕ → Response) : Prop :=
  ∃ fuel rv s, enterDfuMode script fuel { responses := responses } = some (rv, s) ∧
    (rv < 0 ∨ (∃ j < blocksOf f, (s.responses (2 * j)).Aborts) ∨
      ∀ j < blocksOf f,
        0 ≤ (s.responses (2 * j)).rv ∧ ¬(s.responses (2 * j + 1)).ReportsError)

/-! ## The loop of `download` -/

theorem blocksSent_append (log more : List (ControlTransfer × Response)) :
    blocksSent (log ++ more) = blocksSent log ++ blocksSent more := by
  simp [blocksSent]

/-- The state after a block and its status. -/
def Script.afterBlock (s : Script) (block : ℕ) (f : CFile) : Script :=
  { responses := fun n => s.responses (n + 2)
    log := s.log ++ [(blockTransfer block f, s.responses 0), (dfuIn 3 0 6, s.responses 1)] }

theorem afterBlock_eq (s : Script) (block : ℕ) (f : CFile) :
    (dfuGetStatus script (script (blockTransfer block f) s).2).2 = s.afterBlock block f := by
  rw [dfuGetStatus_snd]
  unfold script Script.afterBlock
  simp

theorem blocksSent_afterBlock (s : Script) (block : ℕ) (f : CFile) :
    blocksSent (s.afterBlock block f).log = blocksSent s.log ++ [BitVec.ofNat 16 block] := by
  unfold Script.afterBlock
  rw [blocksSent_append]
  rfl

theorem good_afterBlock_iff (s : Script) (block : ℕ) (f : CFile) :
    (∀ e ∈ (s.afterBlock block f).log, Good e) ↔ (∀ e ∈ s.log, Good e) ∧
      0 ≤ (s.responses 0).rv ∧ ¬(s.responses 1).ReportsError := by
  have hblock : Good (blockTransfer block f, s.responses 0) ↔ 0 ≤ (s.responses 0).rv := by
    simp [Good, blockTransfer, dfuOut]
  have hstatus : Good (dfuIn 3 0 6, s.responses 1) ↔ ¬(s.responses 1).ReportsError := by
    simp [Good, dfuIn]
  unfold Script.afterBlock
  rw [List.forall_mem_append, List.forall_mem_cons, List.forall_mem_singleton, hblock, hstatus]

theorem downloadBlocks_of_not_aborts {block : ℕ} {f : CFile} {s : Script}
    (hlt : f.pos < f.content.length) (h : ¬(s.responses 0).Aborts) :
    downloadBlocks script block f s =
      downloadBlocks script (block + 1) (f.fread blockSize).2 (s.afterBlock block f) := by
  rw [downloadBlocks_of_lt hlt, ← afterBlock_eq]
  exact if_neg h

/-- The loop, if no block is answered with an error that ends it. -/
theorem downloadBlocks_spec {n : ℕ} (block : ℕ) {f : CFile} {s : Script} (hn : blocksLeft f = n)
    (h : ∀ j < n, ¬(s.responses (2 * j)).Aborts) :
    (downloadBlocks script block f s).1 = 0 ∧
      blocksSent (downloadBlocks script block f s).2.2.log =
        blocksSent s.log ++ (List.range n).map (fun k => BitVec.ofNat 16 (block + k)) ∧
      ((∀ e ∈ (downloadBlocks script block f s).2.2.log, Good e) ↔ (∀ e ∈ s.log, Good e) ∧
        ∀ j < n, 0 ≤ (s.responses (2 * j)).rv ∧ ¬(s.responses (2 * j + 1)).ReportsError) := by
  induction n generalizing block f s with
  | zero =>
    rw [downloadBlocks_of_le (le_of_blocksLeft hn)]
    simp
  | succ n ih =>
    obtain ⟨hlt, hleft⟩ := blocksLeft_of_succ hn
    obtain ⟨hzero, hsent, hgood⟩ := @ih (block + 1) _ (s.afterBlock block f) hleft
      fun j hj => h (j + 1) (Nat.succ_lt_succ hj)
    rw [downloadBlocks_of_not_aborts hlt (h 0 (Nat.succ_pos n))]
    refine ⟨hzero, ?_, ?_⟩
    · rw [hsent, blocksSent_afterBlock, List.append_assoc, List.range_succ_eq_map, List.map_cons,
        List.map_map, Nat.add_zero]
      refine congrArg (blocksSent s.log ++ BitVec.ofNat 16 block :: ·) ?_
      refine List.map_congr_left fun k _ => ?_
      show BitVec.ofNat 16 (block + 1 + k) = BitVec.ofNat 16 (block + (k + 1))
      rw [Nat.add_assoc, Nat.add_comm 1 k]
    · rw [hgood, good_afterBlock_iff, and_assoc, Nat.forall_lt_succ_left']
      rfl

/-- An error other than a stall ends the loop, and is returned. -/
theorem downloadBlocks_neg {n block : ℕ} {f : CFile} {s : Script} (hn : blocksLeft f = n)
    (h : ∃ j < n, (s.responses (2 * j)).Aborts) : (downloadBlocks script block f s).1 < 0 := by
  induction n generalizing block f s with
  | zero =>
    obtain ⟨j, hj, -⟩ := h
    exact absurd hj (Nat.not_lt_zero j)
  | succ n ih =>
    obtain ⟨hlt, hleft⟩ := blocksLeft_of_succ hn
    by_cases hends : (s.responses 0).Aborts
    · have hloop : downloadBlocks script block f s = ((s.responses 0).rv, (f.fread blockSize).2,
          (script (blockTransfer block f) s).2) := by
        rw [downloadBlocks_of_lt hlt]
        exact if_pos hends
      rw [hloop]
      exact hends.1
    · obtain ⟨j, hj, haborts⟩ := h
      rw [downloadBlocks_of_not_aborts hlt hends]
      cases j with
      | zero => exact absurd haborts hends
      | succ j => exact ih hleft ⟨j, Nat.lt_of_succ_lt_succ hj, haborts⟩

/-! ## The whole update -/

/-- Entering DFU mode sends no block and asks for no status. -/
theorem log_enterDfuMode {fuel : ℕ} {responses : ℕ → Response} {r : ℤ × Script}
    (h : enterDfuMode script fuel { responses := responses } = some r) :
    blocksSent r.2.log = [] ∧ ∀ e ∈ r.2.log, Good e := by
  refine enterDfuMode_invariant (I := fun s => blocksSent s.log = [] ∧ ∀ e ∈ s.log, Good e)
    (fun t s ht hs => ?_) h ⟨rfl, fun e he => absurd he List.not_mem_nil⟩
  have hne : t.bRequest ≠ 1 ∧ t.bRequest ≠ 3 := by
    simp only [List.mem_cons, List.not_mem_nil, or_false] at ht
    obtain ht | ht | ht := ht
    all_goals
      rw [ht]
      decide
  obtain ⟨hsent, hgood⟩ := hs
  unfold script
  refine ⟨?_, List.forall_mem_append.2 ⟨hgood, List.forall_mem_singleton.2 ?_⟩⟩
  · rw [blocksSent_append, hsent]
    simpa [blocksSent] using hne.1
  · exact ⟨fun h1 => absurd h1 hne.1, fun h3 => absurd h3 hne.2⟩

/-- After DFU mode is entered, a file is taken if the responses say so. -/
theorem taken_iff {fuel : ℕ} {f : CFile} {responses : ℕ → Response} {rv : ℤ} {s : Script}
    (h : enterDfuMode script fuel { responses := responses } = some (rv, s))
    (hgoes : ∀ j < blocksOf f, ¬(s.responses (2 * j)).Aborts) :
    Taken (blocksOf f) (downloadBlocks script 0x40 (f.fseek 0 .set) s).2.2.log ↔
      ∀ j < blocksOf f, 0 ≤ (s.responses (2 * j)).rv ∧ ¬(s.responses (2 * j + 1)).ReportsError := by
  obtain ⟨hsent, hgood⟩ := log_enterDfuMode h
  have hblocks : blocksLeft (f.fseek 0 .set) = blocksOf f := rfl
  obtain ⟨-, hsent', hgood'⟩ := downloadBlocks_spec 0x40 hblocks hgoes
  dsimp only at hsent hgood
  rw [hsent, List.nil_append] at hsent'
  unfold Taken
  rw [and_iff_right hsent', hgood', and_iff_right hgood]

theorem reportsHonestly_of_settles {f : CFile} {responses : ℕ → Response}
    (h : Settles f responses) : ReportsHonestly f responses := by
  obtain ⟨fuel, rv, s, henter, hcases⟩ := h
  have hdownload := download_eq script fuel f { responses := responses }
  rw [henter] at hdownload
  dsimp only at hdownload
  by_cases hrv : rv < 0
  · rw [if_pos hrv] at hdownload
    exact ⟨fuel, _, hdownload, fun hzero => absurd hzero hrv.ne⟩
  · rw [if_neg hrv] at hdownload
    refine ⟨fuel, _, hdownload, fun hzero => ?_⟩
    obtain hneg | haborts | htaken := hcases
    · exact absurd hneg hrv
    · exact absurd hzero (downloadBlocks_neg rfl haborts).ne
    · exact (taken_iff henter fun j hj hends => absurd (htaken j hj).1 (not_le.2 hends.1)).2 htaken

theorem settles_of_reportsHonestly {f : CFile} {responses : ℕ → Response}
    (h : ReportsHonestly f responses) : Settles f responses := by
  obtain ⟨fuel, r, hdownload, htaken⟩ := h
  rw [download_eq] at hdownload
  split at hdownload
  case h_1 => exact absurd hdownload (by simp)
  case h_2 rv s henter =>
    refine ⟨fuel, rv, s, henter, ?_⟩
    by_cases hrv : rv < 0
    · exact Or.inl hrv
    rw [if_neg hrv] at hdownload
    obtain rfl := Option.some.inj hdownload
    by_cases haborts : ∃ j < blocksOf f, (s.responses (2 * j)).Aborts
    · exact Or.inr (Or.inl haborts)
    · have hgoes : ∀ j < blocksOf f, ¬(s.responses (2 * j)).Aborts :=
        fun j hj hends => haborts ⟨j, hj, hends⟩
      have hblocks : blocksLeft (f.fseek 0 .set) = blocksOf f := rfl
      have hzero := (downloadBlocks_spec 0x40 hblocks hgoes).1
      exact Or.inr (Or.inr ((taken_iff henter hgoes).1 (htaken hzero)))

/-- `main` succeeds only where `download` returns 0. -/
theorem download_of_mainDownload {malloc : Malloc} {fuel : ℕ} {f : CFile} {memory : ℕ → U8}
    {s s' : Script} (h : mainDownload script malloc fuel f memory s = some (0, s')) :
    ∃ f', download script fuel f s = some (0, f', s') := by
  unfold mainDownload at h
  dsimp only at h
  split at h
  case isTrue hrefused => exact absurd (congrArg Prod.fst (Option.some.inj h)) hrefused
  case isFalse =>
    rw [download_congr (content_checkSuffix malloc f memory)] at h
    obtain ⟨⟨rv, f', t⟩, hdownload, hr⟩ := Option.map_eq_some_iff.1 h
    obtain ⟨rfl, rfl⟩ := Prod.mk.inj hr
    exact ⟨f', hdownload⟩

/-- **What an update reports.** For every file and every sequence of responses, `download` returns,
and returns 0 only if the device took every block and reported no error, exactly if the responses
settle it; and then `main` does not succeed otherwise either. -/
theorem reportsHonestly_iff (f : CFile) (responses : ℕ → Response) :
    (ReportsHonestly f responses ↔ Settles f responses) ∧
    (Settles f responses → ∀ malloc fuel memory s,
      mainDownload script malloc fuel f memory { responses := responses } = some (0, s) →
        Taken (blocksOf f) s.log) := by
  refine ⟨⟨settles_of_reportsHonestly, reportsHonestly_of_settles⟩, fun h => ?_⟩
  intro malloc fuel memory s hmain
  obtain ⟨fuel', r, hdownload, htaken⟩ := reportsHonestly_of_settles h
  obtain ⟨f', hdownload'⟩ := download_of_mainDownload hmain
  rw [download_unique hdownload hdownload'] at htaken
  exact htaken rfl

/-- A device that is idle answers a block and the status after it. -/
def answerBlock (rv : ℤ) (state : U8) : ℕ → Response
  | 0 => { rv := 1, data := fun _ => 2 }
  | 1 => { rv := rv, data := fun _ => 0 }
  | _ => { rv := 6, data := fun i => if i = 4 then state else 0 }

/-- The script of such a device when it has been entered. -/
theorem enterDfuMode_answerBlock {rv : ℤ} {state : U8} {fuel : ℕ} {r : ℤ × Script}
    (h : enterDfuMode script fuel { responses := answerBlock rv state } = some r) :
    r.1 = 0 ∧ r.2.responses = fun n => answerBlock rv state (n + 1) := by
  have hone : enterDfuMode script 1 { responses := answerBlock rv state } =
      some (0, (script (dfuIn 5 0 1) { responses := answerBlock rv state }).2) := rfl
  rw [enterDfuMode_unique h hone]
  exact ⟨rfl, rfl⟩

/-- A block that is accepted and followed by a status of `dfuDNLOAD-IDLE` is reported as taken. -/
theorem reportsHonestly_iff_accepted :
    ReportsHonestly { content := [0] } (answerBlock 0x100 5) := by
  refine (reportsHonestly_iff { content := [0] } (answerBlock 0x100 5)).1.2 ?_
  refine ⟨1, 0, _, rfl, Or.inr (Or.inr fun j hj => ?_)⟩
  have hj0 : j = 0 := Nat.lt_one_iff.1 hj
  subst hj0
  refine ⟨by decide, fun herror => ?_⟩
  exact absurd herror.2 (by decide)

/-- A block that is refused, with `dfuERROR` reported after it, is reported as taken. -/
theorem not_reportsHonestly_refused :
    ¬ReportsHonestly { content := [0] } (answerBlock errorPipe 10) := by
  intro h
  obtain ⟨fuel, rv, s, henter, hcases⟩ := settles_of_reportsHonestly h
  obtain ⟨hrv, hresponses⟩ := enterDfuMode_answerBlock henter
  change rv = 0 at hrv
  change s.responses = _ at hresponses
  rw [hresponses] at hcases
  obtain hneg | ⟨j, hj, haborts⟩ | htaken := hcases
  · omega
  · have hj0 : j = 0 := Nat.lt_one_iff.1 hj
    subst hj0
    exact haborts.2 rfl
  · exact absurd (htaken 0 (by decide)).1 (by decide)

end Ubertooth.Host
