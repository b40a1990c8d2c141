import Ubertooth.Firmware.SyncLoop
import Ubertooth.Foundations.Runs

/-!
# DMA errors in `bt_le_sync`

An error stops the DMA channel, and only `dma_init_le` and `dio_ssp_start` at the end of a round
start it again. A round that has seen an error but no terminal count, and has no hop to serve, is
left by `continue`, where `bt_stream_rx` and `bt_generic_le` have `goto rx_continue`: nothing is
restarted, nothing is cleared, and the loop spins. An error that comes after the restart and before
`rx_err = 0` is forgotten, and a round that jams does not restart the DMA. In the runs without these
three, every error is followed by a restart before the loop waits (`recovered_of_heals`).
-/

namespace Ubertooth.LowEnergy

open Firmware Foundations

/-! ## What has become of the errors -/

/-- The errors so far. -/
structure ErrorRecord where
  /-- the loop has seen an error, and `rx_err` has not been cleared since -/
  seen : Bool := false
  /-- an error has come, and the DMA has not been restarted since -/
  outstanding : Bool := false

def recordErrors (g : ErrorRecord) (x : SyncLoop) : SyncEvent → ErrorRecord
  | .dmaError => { g with outstanding := g.outstanding || x.dev.dma.enabled }
  | .step _ =>
    match x.place with
    | .noteError => { g with seen := g.seen || decide (x.dev.dma.rxErr ≠ 0) }
    | .restart => if 0 < x.dev.fw.leJamCount then g else {}
    | .clear => { g with seen := false }
    | _ => g
  | _ => g

/-- A step, and the record beside it. -/
def recordedStep : SyncLoop × ErrorRecord → SyncEvent → SyncLoop × ErrorRecord :=
  ghostStep syncStep recordErrors

/-- The loop waits for the next packet. -/
def Waits (x : SyncLoop) : Prop := x.place = .waiting ∧ NothingToDo x.dev

instance (x : SyncLoop) : Decidable (Waits x) := instDecidableAnd

/-- The waiting loop is not entered with `rx_err` set from an error that has been seen, and while
the loop waits, the DMA has been restarted since the last error; `rx_tc` and `rx_err` are 0 then. -/
def Recovered (y : SyncLoop × ErrorRecord) : Prop :=
  (y.1.place = .waiting → ¬(y.2.seen = true ∧ y.1.dev.dma.rxErr ≠ 0)) ∧
    (Waits y.1 → y.2.outstanding = false)

/-- The step goes none of the three wrong ways: no error comes between the restart of the DMA and
the clearing, no round that has seen an error is left for want of a terminal count, and none that
follows an error jams. -/
def Heals (y : SyncLoop × ErrorRecord) : SyncEvent → Prop
  | .dmaError => y.1.dev.dma.enabled = true → y.1.place ≠ .receive ∧ y.1.place ≠ .clear
  | .step _ =>
    (y.1.place = .testTc → y.1.dev.dma.rxTc = 0 → y.2.seen = false) ∧
      (y.1.place = .restart → y.2.outstanding = true → ¬0 < y.1.dev.fw.leJamCount)
  | _ => True

instance (y : SyncLoop × ErrorRecord) (e : SyncEvent) : Decidable (Heals y e) := by
  cases e <;> unfold Heals <;> infer_instance

/-! ## The handlers -/

/-- A terminal count interrupt leaves the errors alone, and does not start the channel. -/
theorem dmaIRQHandler_errors {d : Device} (hmode : d.mode.handlesDma = true)
    (h : d.dma.intErrStat = false) :
    (dmaIRQHandler d).mode = d.mode ∧ (dmaIRQHandler d).dma.intErrStat = false ∧
      (dmaIRQHandler d).dma.rxErr = d.dma.rxErr ∧
      (d.dma.enabled = false → (dmaIRQHandler d).dma.enabled = false) := by
  obtain ⟨a, l, e, hdone⟩ := transferDone_frame d.dma
  unfold dmaIRQHandler
  by_cases hon : d.dma.enabled = true
  · rw [if_pos hon, if_pos hmode, hdone]
    simp [btStreamDmaHandler, streamTc, h, hon]
  · rw [if_neg hon]
    exact ⟨rfl, h, rfl, id⟩

/-- An error interrupt counts the error; the channel is off. -/
theorem dmaErrorIRQHandler_errors {d : Device} (hmode : d.mode.handlesDma = true)
    (hon : d.dma.enabled = true) :
    (dmaErrorIRQHandler d).mode = d.mode ∧ (dmaErrorIRQHandler d).dma.intErrStat = false ∧
      (dmaErrorIRQHandler d).dma.rxErr = d.dma.rxErr + 1 ∧
      (dmaErrorIRQHandler d).dma.enabled = false := by
  unfold dmaErrorIRQHandler
  rw [if_pos hon, if_pos hmode]
  cases htc : d.dma.intTcStat <;>
    simp [btStreamDmaHandler, Dma.transferError, streamTc, htc]

/-! ## The invariant -/

/-- Where no error can have been seen: the round has not looked yet. -/
def beforeLook : SyncPlace → Bool
  | .head | .retune | .saveRequest | .dropRequest | .waiting | .woken | .noteError => true
  | _ => false

/-- Where the DMA has been restarted, and the flags not been cleared. -/
def dmaRestarted : SyncPlace → Bool
  | .receive | .clear => true
  | _ => false

/-- `rx_err` counts the error that is outstanding, which has stopped the channel. -/
structure Accounted (y : SyncLoop × ErrorRecord) : Prop where
  mode : y.1.dev.mode.handlesDma = true
  served : y.1.dev.dma.intErrStat = false
  counted : y.2.outstanding = true → y.1.dev.dma.rxErr = 1 ∧ y.1.dev.dma.enabled = false
  none : y.2.outstanding = false → y.1.dev.dma.rxErr = 0
  seen : y.2.seen = true → y.2.outstanding = true
  unseen : beforeLook y.1.place = true → y.2.seen = false
  restarted : dmaRestarted y.1.place = true → y.2.outstanding = false

theorem accounted_enter {active : Mode} (h : active.handlesDma = true) (d : Device) :
    Accounted (enterSyncLoop active d, {}) where
  mode := h
  served := rfl
  counted := fun h => absurd h (by simp)
  none := fun _ => rfl
  seen := fun h => absurd h (by simp)
  unseen := fun _ => rfl
  restarted := fun _ => rfl

/-- The loop is where it was, and the DMA and the mode are too. -/
theorem Accounted.of_same {y : SyncLoop × ErrorRecord} (h : Accounted y) {x : SyncLoop}
    (hmode : x.dev.mode = y.1.dev.mode) (hdma : x.dev.dma = y.1.dev.dma)
    (hplace : (beforeLook x.place = true → y.2.seen = false) ∧
      (dmaRestarted x.place = true → y.2.outstanding = false)) : Accounted (x, y.2) where
  mode := by
    rw [hmode]
    exact h.mode
  served := by
    rw [hdma]
    exact h.served
  counted := by
    rw [hdma]
    exact h.counted
  none := by
    rw [hdma]
    exact h.none
  seen := h.seen
  unseen := hplace.1
  restarted := hplace.2

/-- The end of `bt_le_sync`. -/
theorem Accounted.cleanup {y : SyncLoop × ErrorRecord} (h : Accounted y) {x : SyncLoop}
    (hmode : x.dev.mode = y.1.dev.mode) (hdma : x.dev.dma = y.1.dev.dma) :
    Accounted (x.cleanup, y.2) where
  mode := by
    show x.dev.mode.handlesDma = true
    rw [hmode]
    exact h.mode
  served := rfl
  counted := by
    intro hout
    refine ⟨?_, rfl⟩
    show x.dev.dma.rxErr = 1
    rw [hdma]
    exact (h.counted hout).1
  none := by
    show y.2.outstanding = false → x.dev.dma.rxErr = 0
    rw [hdma]
    exact h.none
  seen := h.seen
  unseen := fun hplace => absurd hplace (by simp [SyncLoop.cleanup, beforeLook])
  restarted := fun hplace => absurd hplace (by simp [SyncLoop.cleanup, dmaRestarted])

/-! ## A step -/

/-- The timeout leads to the hop, or out of `bt_le_sync`. -/
theorem Accounted.timeOut {y : SyncLoop × ErrorRecord} (h : Accounted y) {x : SyncLoop}
    (hmode : x.dev.mode = y.1.dev.mode) (hdma : x.dev.dma = y.1.dev.dma) :
    Accounted (x.timeOut, y.2) := by
  unfold SyncLoop.timeOut
  split
  · exact h.cleanup hmode hdma
  · split
    · exact h.cleanup hmode hdma
    · exact h.of_same hmode hdma ⟨fun hp => absurd hp (by simp [beforeLook]),
        fun hp => absurd hp (by simp [dmaRestarted])⟩

/-- The loop looks at `rx_err`: what it sees is an error that is outstanding. -/
theorem accounted_noteError {x : SyncLoop} {g : ErrorRecord} {i : SyncInput}
    (hy : Accounted (x, g)) (hplace : x.place = .noteError) :
    Accounted (recordedStep (x, g) (.step i)) := by
  obtain ⟨dev, modulation, restartJamming, place⟩ := x
  obtain rfl : place = .noteError := hplace
  have hseen : (g.seen || decide (dev.dma.rxErr ≠ 0)) = true → g.outstanding = true := by
    intro hlook
    cases hout : g.outstanding with
    | true => rfl
    | false =>
      have hunseen : g.seen = false := hy.unseen rfl
      have hnone : dev.dma.rxErr = 0 := hy.none hout
      rw [hunseen, hnone] at hlook
      exact absurd hlook (by simp)
  exact {
    mode := hy.mode
    served := hy.served
    counted := hy.counted
    none := hy.none
    seen := hseen
    unseen := fun hp => absurd hp Bool.false_ne_true
    restarted := fun hp => absurd hp Bool.false_ne_true }

/-- The DMA is restarted, or a round without an error jams. -/
theorem accounted_restart {x : SyncLoop} {g : ErrorRecord} {i : SyncInput} (hy : Accounted (x, g))
    (hplace : x.place = .restart) (hjam : g.outstanding = true → ¬0 < x.dev.fw.leJamCount) :
    Accounted (recordedStep (x, g) (.step i)) := by
  obtain ⟨dev, modulation, restartJamming, place⟩ := x
  obtain rfl : place = .restart := hplace
  dsimp only [recordedStep, ghostStep, recordErrors, syncStep, syncMain]
  split
  case isTrue hcount =>
    have hout : g.outstanding = false := by
      cases hout : g.outstanding with
      | true => exact absurd hcount (hjam hout)
      | false => rfl
    exact hy.of_same rfl rfl ⟨fun hp => absurd hp Bool.false_ne_true, fun _ => hout⟩
  case isFalse =>
    exact {
      mode := hy.mode
      served := rfl
      counted := fun hp => absurd hp Bool.false_ne_true
      none := fun _ => rfl
      seen := fun hp => absurd hp Bool.false_ne_true
      unseen := fun _ => rfl
      restarted := fun _ => rfl }

/-- The flags are cleared. -/
theorem accounted_clear {x : SyncLoop} {g : ErrorRecord} {i : SyncInput} (hy : Accounted (x, g))
    (hplace : x.place = .clear) : Accounted (recordedStep (x, g) (.step i)) := by
  obtain ⟨dev, modulation, restartJamming, place⟩ := x
  obtain rfl : place = .clear := hplace
  have hout : g.outstanding = false := hy.restarted rfl
  exact {
    mode := hy.mode
    served := hy.served
    counted := fun h => absurd (hout.symm.trans h) (by simp)
    none := fun _ => rfl
    seen := fun hp => absurd hp Bool.false_ne_true
    unseen := fun _ => rfl
    restarted := fun hp => absurd hp Bool.false_ne_true }

/-- The loop executes a statement. -/
theorem accounted_main {x : SyncLoop} {g : ErrorRecord} {i : SyncInput} (hy : Accounted (x, g))
    (he : Heals (x, g) (.step i)) : Accounted (recordedStep (x, g) (.step i)) := by
  obtain ⟨dev, modulation, restartJamming, place⟩ := x
  obtain ⟨hcontinue, hjam⟩ := he
  -- statements that leave the DMA alone and lead to a place about which nothing is said
  have hon : ∀ {place' : SyncPlace}, beforeLook place' = false → dmaRestarted place' = false →
      ∀ {s : Fw} {restartJamming : Bool}, Accounted
        (⟨{ dev with fw := s }, modulation, restartJamming, place'⟩, g) :=
    fun hbefore hrestarted _ _ => hy.of_same rfl rfl
      ⟨fun hp => absurd (hbefore.symm.trans hp) (by simp),
        fun hp => absurd (hrestarted.symm.trans hp) (by simp)⟩
  cases place with
  | head =>
    dsimp only [recordedStep, ghostStep, recordErrors, syncStep, syncMain]
    split
    · exact hy.of_same rfl rfl ⟨fun _ => hy.unseen rfl, fun hp => by split at hp <;> cases hp⟩
    · exact hy.cleanup rfl rfl
  | retune | saveRequest | dropRequest =>
    exact hy.of_same rfl rfl ⟨fun _ => hy.unseen rfl, fun hp => absurd hp Bool.false_ne_true⟩
  | waiting =>
    dsimp only [recordedStep, ghostStep, recordErrors, syncStep, syncMain]
    split
    · exact hy
    · exact hy.of_same rfl rfl ⟨fun _ => hy.unseen rfl, fun hp => absurd hp Bool.false_ne_true⟩
  | woken =>
    dsimp only [recordedStep, ghostStep, recordErrors, syncStep, syncMain]
    split
    · exact hy.of_same rfl rfl ⟨fun _ => hy.unseen rfl, fun hp => absurd hp Bool.false_ne_true⟩
    · exact hy.cleanup rfl rfl
  | noteError => exact accounted_noteError hy rfl
  | testHop =>
    dsimp only [recordedStep, ghostStep, recordErrors, syncStep, syncMain]
    split <;> exact hon rfl rfl
  | testTc =>
    dsimp only [recordedStep, ghostStep, recordErrors, syncStep, syncMain]
    split
    case isTrue htc =>
      exact hy.of_same rfl rfl
        ⟨fun _ => hcontinue rfl htc, fun hp => absurd hp Bool.false_ne_true⟩
    case isFalse => exact hon rfl rfl
  | packet =>
    dsimp only [recordedStep, ghostStep, recordErrors, syncStep, syncMain]
    split <;> exact hon rfl rfl
  | flush =>
    dsimp only [recordedStep, ghostStep, recordErrors, syncStep, syncMain]
    split
    · exact hy.timeOut rfl rfl
    · exact hon rfl rfl
  | hop =>
    dsimp only [recordedStep, ghostStep, recordErrors, syncStep, syncMain]
    split
    · split <;> exact hon rfl rfl
    · exact hon rfl rfl
  | restart => exact accounted_restart hy rfl (hjam rfl)
  | receive =>
    dsimp only [recordedStep, ghostStep, recordErrors, syncStep, syncMain]
    split <;> exact hy.of_same rfl rfl
      ⟨fun hp => absurd hp Bool.false_ne_true, fun _ => hy.restarted rfl⟩
  | clear => exact accounted_clear hy rfl
  | hung => exact hy
  | ended => exact hy

/-- A terminal count. -/
theorem accounted_terminalCount {x : SyncLoop} {g : ErrorRecord} (hy : Accounted (x, g)) :
    Accounted (recordedStep (x, g) .terminalCount) := by
  obtain ⟨hmode, hserved, hcount, hoff⟩ := dmaIRQHandler_errors hy.mode hy.served
  exact {
    mode := (congrArg Mode.handlesDma hmode).trans hy.mode
    served := hserved
    counted := fun hout => ⟨hcount.trans (hy.counted hout).1, hoff (hy.counted hout).2⟩
    none := fun hout => hcount.trans (hy.none hout)
    seen := hy.seen
    unseen := hy.unseen
    restarted := hy.restarted }

/-- An error, which is the first since the restart: an earlier one has stopped the channel. -/
theorem accounted_dmaError {x : SyncLoop} {g : ErrorRecord} (hy : Accounted (x, g))
    (hon : x.dev.dma.enabled = true) (hplace : x.place ≠ .receive ∧ x.place ≠ .clear) :
    Accounted (recordedStep (x, g) .dmaError) := by
  obtain ⟨hmode, hserved, hcount, hoff⟩ := dmaErrorIRQHandler_errors hy.mode hon
  have hfirst : g.outstanding = false := by
    cases hout : g.outstanding with
    | true => exact absurd (hon.symm.trans (hy.counted hout).2) (by simp)
    | false => rfl
  have hzero : x.dev.dma.rxErr = 0 := hy.none hfirst
  have hone : (g.outstanding || x.dev.dma.enabled) = true := by rw [hon, Bool.or_true]
  have hnot : dmaRestarted x.place = false := by
    obtain ⟨hreceive, hclear⟩ := hplace
    cases h : x.place <;> first | rfl | contradiction
  exact {
    mode := (congrArg Mode.handlesDma hmode).trans hy.mode
    served := hserved
    counted := fun _ => ⟨hcount.trans (congrArg (· + 1) hzero), hoff⟩
    none := fun h => absurd (hone.symm.trans h) (by simp)
    seen := fun _ => hone
    unseen := hy.unseen
    restarted := fun hp => absurd (hnot.symm.trans hp) (by simp) }

/-- **A step.** What goes none of the three wrong ways keeps the account. -/
theorem accounted_step (y : SyncLoop × ErrorRecord) (e : SyncEvent) (hy : Accounted y)
    (he : Heals y e) : Accounted (recordedStep y e) := by
  obtain ⟨x, g⟩ := y
  -- a handler that leaves the DMA and the mode alone
  have hquiet : ∀ d : Device, d.mode = x.dev.mode → d.dma = x.dev.dma →
      Accounted ({ x with dev := d }, g) :=
    fun d hmode hdma => hy.of_same hmode hdma ⟨hy.unseen, hy.restarted⟩
  cases e with
  | step i => exact accounted_main hy he
  | terminalCount => exact accounted_terminalCount hy
  | dmaError =>
    by_cases hon : x.dev.dma.enabled = true
    · exact accounted_dmaError hy hon (he hon)
    · have hoff : x.dev.dma.enabled = false := Bool.eq_false_iff.2 hon
      have hsame : recordedStep (x, g) .dmaError = (x, g) := by
        simp only [recordedStep, ghostStep, recordErrors, syncStep, dmaErrorIRQHandler, hoff,
          Bool.or_false, Bool.false_eq_true, if_false]
      rw [hsame]
      exact hy
  | timer0 => exact hquiet _ rfl rfl
  | eint3 => exact hquiet _ rfl rfl
  | request r =>
    obtain ⟨hdma, hmode, -, -⟩ := vendorRequestHandler_kept x.dev r
    exact hquiet _ hmode hdma
  | setMod param => exact hy.of_same rfl rfl ⟨hy.unseen, hy.restarted⟩

/-- The account says that the errors have been dealt with. -/
theorem Accounted.recovered {y : SyncLoop × ErrorRecord} (hy : Accounted y) : Recovered y := by
  constructor
  · intro hplace hseen
    have hunseen : y.2.seen = false := hy.unseen (by rw [hplace]; rfl)
    exact absurd (hunseen.symm.trans hseen.1) (by simp)
  · intro hwaits
    cases hout : y.2.outstanding with
    | false => rfl
    | true =>
      have hone := (hy.counted hout).1
      rw [hwaits.2.2.1] at hone
      exact absurd hone (by simp)

/-! ## Runs -/

/-- **DMA errors.** In every run whose steps go none of the three wrong ways, the waiting loop is
never entered with an error that has been seen, and the DMA has been restarted since the last error
whenever the loop waits. -/
theorem recovered_of_heals {active : Mode} (hactive : active = .btFollowLe ∨ active = .btPromiscLe)
    (d : Device) {es : List SyncEvent}
    (h : Along recordedStep Heals (enterSyncLoop active d, {}) es) :
    Throughout recordedStep Recovered (enterSyncLoop active d, {}) es := by
  have hhandles : active.handlesDma = true := by rcases hactive with rfl | rfl <;> rfl
  exact fun pre hp => (run_invariant accounted_step (accounted_enter hhandles d)
    (h.of_prefix hp)).recovered

/-- The device as it follows connections, when nothing comes in. -/
def followingDevice : Device := { requestedMode := .btFollowLe }

/-- Nothing is received. -/
def silence : SyncEvent :=
  .step { rssi := 0, t0tc := 0, stack := ⟨Vector.replicate 52 0⟩, rxbuf1 := fun _ => 0 }

/-- An error while the loop waits, together with a hop to serve. -/
def errorWithHop : List SyncEvent :=
  [silence, .request .hop, .dmaError] ++ List.replicate 10 silence

theorem recovered_errorWithHop :
    Throughout recordedStep Recovered (enterSyncLoop .btFollowLe followingDevice, {})
      errorWithHop :=
  recovered_of_heals (Or.inl rfl) followingDevice (by decide +kernel)

/-- The same without a hop. -/
def errorAlone : List SyncEvent := [silence, .dmaError] ++ List.replicate 6 silence

theorem not_recovered_errorAlone :
    ¬Throughout recordedStep Recovered (enterSyncLoop .btFollowLe followingDevice, {})
      errorAlone := by
  intro h
  have hend := (h errorAlone List.prefix_rfl).1
  have hwaiting : (run recordedStep (enterSyncLoop .btFollowLe followingDevice, {})
      errorAlone).1.place = .waiting := by decide +kernel
  exact hend hwaiting (by decide +kernel)

end Ubertooth.LowEnergy
