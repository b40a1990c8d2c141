import Ubertooth.Host.Delivery

/-!
# Waiting for a transfer

`stream_rx_usb` waits in `ubertooth_bulk_wait` until a transfer has filled a buffer, so libusb must
have one. `cb_xfer` gives the transfer up in several places without a word to the loop: when
`stop_ubertooth` is set, on an error, and when libusb does not take it back. `waitsForData_iff` says
which steps leave the loop waiting for nothing.
-/

namespace Ubertooth.Host

open Foundations

variable {σ : Type*}

/-- `ubertooth_bulk_wait` is about to wait. -/
def Waits (x : Stream σ) : Prop := x.phase = .idle ∧ x.ut.usbReallyFull = false

/-- libusb has the transfer. -/
def Outstanding (ut : UbertoothT σ) : Prop :=
  ∃ buffer, ut.rxXfer = some { buffer := buffer, submitted := true }

/-- Where the host is about to wait, a transfer is outstanding. -/
def WaitsForData (x : Stream σ) : Prop := Waits x → Outstanding x.ut

/-- While the host waits a transfer completes before `stop_ubertooth` is set, or it times out and is
taken back; and when a buffer has been emptied without a stop, a transfer is outstanding. -/
def KeepsGoing (x : Stream σ) : StreamEvent → Prop
  | .transfer status _ _ accepted => Waits x →
    status = .completed ∧ x.ut.stopUbertooth = false ∨ status = .timedOut ∧ accepted = true
  | .advance => ∀ i, x.phase = .stopCheck i → i.val + 1 = pktsPerXfer →
    x.ut.stopUbertooth = false → Outstanding x.ut
  | _ => True

/-- Inside the loop the buffer is full. -/
structure Awake (x : Stream σ) : Prop where
  waits : WaitsForData x
  full : x.phase ≠ .idle → x.ut.usbReallyFull = true

variable {cb : RxCallback σ} {x : Stream σ} {data : List U8}

/-! ## A transfer ends -/

section

variable (status : TransferStatus) (accepted : Bool)

/-- While the buffer is full, a transfer that ends leaves it full. -/
theorem usbReallyFull_cbXfer {ut : UbertoothT σ} (hfull : ut.usbReallyFull = true) :
    (cbXfer status accepted ut).usbReallyFull = true := by
  by_cases hs : status = .completed
  · rw [hs, cbXfer_of_full accepted hfull]
    exact hfull
  · obtain ⟨xfer, hend, -⟩ := @cbXfer_of_not_completed _ ut accepted _ hs
    rw [hend]
    exact hfull

/-- While the host waits, a transfer that ends fills a buffer, or libusb has it back, or it is
lost. -/
theorem cbXfer_of_waits (ut : UbertoothT σ) {xfer : Transfer} (hxfer : ut.rxXfer = some xfer)
    (hend : xfer.submitted = false) (hfull : ut.usbReallyFull = false) :
    (cbXfer status accepted ut).usbReallyFull = false ∧
        ¬Outstanding (cbXfer status accepted ut) ↔
      ¬(status = .completed ∧ ut.stopUbertooth = false ∨
        status = .timedOut ∧ accepted = true) := by
  by_cases hs : status = .completed
  · subst hs
    cases hstop : ut.stopUbertooth with
    | false =>
      rw [cbXfer_swap accepted hfull hstop]
      exact iff_of_false (fun h => absurd h.1 (by simp)) (fun h => h (.inl ⟨rfl, rfl⟩))
    | true =>
      rw [cbXfer_of_stop accepted hfull hstop]
      refine iff_of_true ⟨hfull, ?_⟩ (by simp)
      rintro ⟨buffer, hsome⟩
      obtain rfl := Option.some.inj (hxfer.symm.trans hsome)
      exact absurd hend (by simp)
  · by_cases htimed : status = .timedOut
    · subst htimed
      have hcb : cbXfer .timedOut accepted ut =
          { ut with rxXfer := some { xfer with submitted := accepted } } := by
        simp [cbXfer, submitTransfer, hxfer]
      rw [hcb]
      cases accepted with
      | false =>
        refine iff_of_true ⟨hfull, ?_⟩ (by simp)
        rintro ⟨buffer, hsome⟩
        exact absurd (congrArg Transfer.submitted (Option.some.inj hsome)) (by simp)
      | true =>
        exact iff_of_false (fun h => h.2 ⟨xfer.buffer, rfl⟩) (fun h => h (.inr ⟨rfl, rfl⟩))
    · have hcb : cbXfer status accepted ut = { ut with rxXfer := none } := by
        simp [cbXfer, hs, htimed]
      rw [hcb]
      refine iff_of_true ⟨hfull, ?_⟩ (by simp [hs, htimed])
      rintro ⟨buffer, hsome⟩
      exact absurd hsome (by simp)

/-- What a transfer that ends leaves of the place and the buffer. -/
theorem streamStep_transfer_fields (cb : RxCallback σ) (hdata : data.length ≤ xferLen)
    {buffer : RxBuf}
    (hxfer : x.ut.rxXfer = some { buffer := buffer, submitted := true }) :
    (streamStep cb x (.transfer status data hdata accepted)).phase = x.phase ∧
      (streamStep cb x (.transfer status data hdata accepted)).ut =
        cbXfer status accepted (libusbReceived buffer data x.ut) := by
  rw [streamStep_transfer accepted cb hdata hxfer]
  dsimp only
  split
  · exact ⟨rfl, rfl⟩
  · exact ⟨rfl, rfl⟩

theorem streamStep_transfer_of_not_outstanding (hdata : data.length ≤ xferLen)
    (hnone : ¬Outstanding x.ut) :
    streamStep cb x (.transfer status data hdata accepted) = x := by
  cases hxfer : x.ut.rxXfer with
  | none => simp only [streamStep, hxfer]
  | some xfer =>
    obtain ⟨buffer, submitted⟩ := xfer
    cases submitted with
    | false => simp only [streamStep, hxfer]
    | true => exact absurd ⟨buffer, hxfer⟩ hnone

/-- A transfer that ends leaves the host waiting for nothing exactly where the condition says. -/
theorem waitsForData_transfer (hx : Awake x) (hdata : data.length ≤ xferLen) :
    WaitsForData (streamStep cb x (.transfer status data hdata accepted)) ↔
      KeepsGoing x (.transfer status data hdata accepted) := by
  by_cases hout : Outstanding x.ut
  · obtain ⟨buffer, hxfer⟩ := hout
    obtain ⟨hphase, hut⟩ := streamStep_transfer_fields status accepted cb hdata hxfer
    unfold WaitsForData Waits KeepsGoing Waits
    rw [hphase, hut]
    cases hfull : x.ut.usbReallyFull with
    | true =>
      have hstill : (cbXfer status accepted (libusbReceived buffer data x.ut)).usbReallyFull =
        true := usbReallyFull_cbXfer status accepted hfull
      exact iff_of_true (fun h => absurd (hstill.symm.trans h.2) (by simp))
        (fun h => absurd h.2 (by simp))
    | false =>
      have hlost := cbXfer_of_waits status accepted (libusbReceived buffer data x.ut) rfl rfl hfull
      constructor
      · intro h hwaits
        by_contra hnot
        have hbad := hlost.2 hnot
        exact hbad.2 (h ⟨hwaits.1, hbad.1⟩)
      · intro h hwaits
        by_contra hnot
        exact hlost.1 ⟨hwaits.2, hnot⟩ (h ⟨hwaits.1, rfl⟩)
  · have hwaits : ¬Waits x := fun h => hout (hx.waits h)
    rw [streamStep_transfer_of_not_outstanding status accepted hdata hout]
    exact iff_of_true hx.waits fun h => absurd h hwaits

end

/-! ## The loop -/

/-- At the last test the buffer is given back, and the host waits. -/
theorem streamStep_stopCheck_last {i : Fin pktsPerXfer} (hphase : x.phase = .stopCheck i)
    (hstop : x.ut.stopUbertooth = false) (hlast : ¬i.val + 1 < pktsPerXfer) :
    streamStep cb x .advance =
      { x with ut := { x.ut with usbReallyFull := false }, phase := .idle } := by
  rw [streamStep_advance_stopCheck cb hphase, if_neg (by simp [hstop]), dif_neg hlast]

theorem awake_advance (hx : Awake x) (he : KeepsGoing x .advance) :
    Awake (streamStep cb x .advance) := by
  cases hphase : x.phase with
  | idle =>
    simp only [streamStep, hphase]
    exact hx
  | block i =>
    have hfull := hx.full (by simp [hphase])
    obtain ⟨packets, args, stop, hframe⟩ := receiveBlock_frame cb i x.ut
    rw [streamStep_advance_block cb hphase, hframe]
    exact ⟨fun h => absurd h.1 (by simp), fun _ => hfull⟩
  | stopCheck i =>
    have hfull := hx.full (by simp [hphase])
    cases hstop : x.ut.stopUbertooth with
    | true =>
      rw [streamStep_advance_stopCheck cb hphase, if_pos hstop]
      exact ⟨fun h => absurd (hfull.symm.trans h.2) (by simp), fun h => absurd rfl h⟩
    | false =>
      by_cases hnext : i.val + 1 < pktsPerXfer
      · rw [streamStep_advance_stopCheck cb hphase, if_neg (by simp [hstop]), dif_pos hnext]
        exact ⟨fun h => absurd h.1 (by simp), fun _ => hfull⟩
      · rw [streamStep_stopCheck_last hphase hstop hnext]
        have hout := he i hphase (by omega) hstop
        exact ⟨fun _ => hout, fun h => absurd rfl h⟩

theorem awake_step (hx : Awake x) (e : StreamEvent) (he : KeepsGoing x e) :
    Awake (streamStep cb x e) := by
  cases e with
  | transfer status data h accepted =>
    refine ⟨(waitsForData_transfer status accepted hx h).2 he, ?_⟩
    by_cases hout : Outstanding x.ut
    · obtain ⟨buffer, hxfer⟩ := hout
      obtain ⟨hphase, hut⟩ := streamStep_transfer_fields status accepted cb h hxfer
      rw [hphase, hut]
      exact fun hne => usbReallyFull_cbXfer status accepted (hx.full hne)
    · rw [streamStep_transfer_of_not_outstanding status accepted h hout]
      exact hx.full
  | receive =>
    dsimp only [streamStep]
    split
    · split
      case isTrue hfull => exact ⟨fun h => absurd h.1 (by simp), fun _ => hfull⟩
      case isFalse => exact hx
    · exact hx
  | advance => exact awake_advance hx he
  | stop => exact ⟨hx.waits, hx.full⟩

/-- A step outside the condition leaves the host waiting for nothing. -/
theorem not_waitsForData (hx : Awake x) {e : StreamEvent} (he : ¬KeepsGoing x e) :
    ¬WaitsForData (streamStep cb x e) := by
  cases e with
  | transfer status data h accepted => exact (waitsForData_transfer status accepted hx h).not.2 he
  | receive => exact absurd trivial he
  | stop => exact absurd trivial he
  | advance =>
    simp only [KeepsGoing, not_forall] at he
    obtain ⟨i, hphase, hlast, hstop, hout⟩ := he
    rw [streamStep_stopCheck_last hphase hstop (by omega)]
    exact fun h => hout (h ⟨rfl, rfl⟩)

/-- **Waiting for data.** From `ubertooth_bulk_init` on, in a run in which transfers end in any way
and at any place, and signals and callbacks set `stop_ubertooth`, there is a transfer outstanding
whenever the host is about to wait, exactly if the run has no step outside the condition. -/
theorem waitsForData_iff (cb : RxCallback σ) (ut : UbertoothT σ) (es : List StreamEvent) :
    Throughout (streamStep cb) WaitsForData { ut := (ubertoothBulkInit true ut).2 } es ↔
      Along (streamStep cb) KeepsGoing { ut := (ubertoothBulkInit true ut).2 } es := by
  have hstart : Awake { ut := (ubertoothBulkInit true ut).2 } :=
    ⟨fun _ => ⟨.rxBuf1, rfl⟩, fun h => absurd rfl h⟩
  exact throughout_iff_of_invariant (I := Awake) (fun _ hx => hx.waits)
    (fun _ e hx he => awake_step hx e he) (fun _ _ hx he => not_waitsForData hx he) hstart

/-- The timer of `ubertooth_set_timeout` goes off while the host waits, and the transfer completes
after that. -/
theorem not_waitsForData_sigalrm :
    ¬Throughout (streamStep fun _ args => (false, args)) WaitsForData
      { ut := (ubertoothBulkInit true {
          packets := ringbufferInit (Vector.replicate _ {}) (Vector.replicate _ (.replicate _ 0))
          rxXfer := none
          emptyUsbBuf := .rxBuf1
          fullUsbBuf := .rxBuf2
          usbReallyFull := false
          stopUbertooth := false
          mem := fun _ _ => 0
          args := () }).2 }
      [.stop, .transfer .completed [] (by decide) true] := by
  intro h
  obtain ⟨buffer, hsome⟩ := h _ List.prefix_rfl ⟨rfl, rfl⟩
  have hfalse : some false = some true := congrArg (Option.map Transfer.submitted) hsome
  exact absurd hfalse (by decide)

end Ubertooth.Host
