import Mathlib.Logic.Function.Basic
import Ubertooth.Host.Stream

/-!
# `ubertooth.c`: the transfers of several streams

Each `ubertooth_bulk_init` allocates a transfer of its own, and libusb reports the end of a transfer
at any time after it was submitted or cancelled, also when the next stream has begun. Here transfers
have an identity, and `ut->rx_xfer` points to one of them or is `NULL`. A transfer is known by the
stream that allocated it, counted from 0; a buffer is one of the two of the stream it belongs to.

For one stream this is `cb_xfer` of the stream model (`Matches.cbXfer`).
-/

namespace Ubertooth.Host

/-- What libusb and the host have done with a transfer. -/
inductive XferState
  | idle | outstanding | freed
  deriving DecidableEq

/-- `struct libusb_transfer`: its `buffer`, and the one libusb was given when it was submitted. -/
structure Xfer where
  state : XferState
  buffer : Option RxBuf
  target : Option RxBuf

/-- The pointers and flags of `ubertooth_t`, the transfers of all streams begun so far, and whether
a transfer has been reached through a pointer that was `NULL` or freed. -/
structure Streams where
  streams : ℕ
  xfers : ℕ → Xfer
  rxXfer : Option ℕ
  emptyUsbBuf : Option RxBuf
  fullUsbBuf : Option RxBuf
  usbReallyFull : Bool
  stopUbertooth : Bool
  faulted : Bool

namespace Streams

/-- `ubertooth_init`. -/
def ubertoothInit : Streams where
  streams := 0
  xfers := fun _ => ⟨.idle, none, none⟩
  rxXfer := none
  emptyUsbBuf := none
  fullUsbBuf := none
  usbReallyFull := false
  stopUbertooth := false
  faulted := false

def setXfer (j : ℕ) (xfer : Xfer) (x : Streams) : Streams :=
  { x with xfers := Function.update x.xfers j xfer }

/-- `libusb_submit_transfer(ut->rx_xfer)`. A transfer that is outstanding is busy, and stays as it
is; libusb may refuse one that is not. -/
def submitTransfer (accepted : Bool) (x : Streams) : Streams :=
  match x.rxXfer with
  | none => { x with faulted := true }
  | some j =>
    match (x.xfers j).state with
    | .freed => { x with faulted := true }
    | .outstanding => x
    | .idle =>
      if accepted then
        x.setXfer j { x.xfers j with state := .outstanding, target := (x.xfers j).buffer }
      else x

/-- `ut->rx_xfer->buffer = ut->empty_usb_buf` -/
def setBuffer (x : Streams) : Streams :=
  match x.rxXfer with
  | none => { x with faulted := true }
  | some j =>
    if (x.xfers j).state = .freed then { x with faulted := true }
    else x.setXfer j { x.xfers j with buffer := x.emptyUsbBuf }

/-- `libusb_cancel_transfer(ut->rx_xfer)`, if there is one: it shows when the transfer ends. -/
def cancelTransfer (x : Streams) : Streams :=
  match x.rxXfer with
  | none => x
  | some j => if (x.xfers j).state = .freed then { x with faulted := true } else x

/-- `ubertooth_bulk_init`, up to `libusb_submit_transfer`. -/
def fillTransfer (x : Streams) : Streams :=
  { x.setXfer x.streams ⟨.idle, some .rxBuf1, none⟩ with
    streams := x.streams + 1
    emptyUsbBuf := some .rxBuf1
    fullUsbBuf := some .rxBuf2
    usbReallyFull := false
    rxXfer := some x.streams }

/-- `ubertooth_bulk_init`. -/
def ubertoothBulkInit (accepted : Bool) (x : Streams) : ℤ × Streams :=
  (if accepted then 0 else -1, submitTransfer accepted (fillTransfer x))

/-- The buffers change places. -/
def swapBuffers (x : Streams) : Streams :=
  { x with
    fullUsbBuf := x.emptyUsbBuf
    emptyUsbBuf := x.fullUsbBuf
    usbReallyFull := true }

/-- `cb_xfer`, for the transfer `j`. Everywhere but in `libusb_free_transfer` it is `ut->rx_xfer`
that is used, whichever transfer has ended. -/
def cbXfer (j : ℕ) (status : TransferStatus) (accepted : Bool) (x : Streams) : Streams :=
  if status ≠ .completed then
    if status = .timedOut then submitTransfer accepted x
    else { x.setXfer j { x.xfers j with state := .freed } with rxXfer := none }
  else
    let x := if x.usbReallyFull then { x with stopUbertooth := true } else x
    if x.stopUbertooth then x
    else submitTransfer accepted (setBuffer (swapBuffers x))

/-- libusb is done with the transfer `j`. -/
def done (j : ℕ) (x : Streams) : Streams := x.setXfer j { x.xfers j with state := .idle }

/-- The transfer `j` ends. -/
def endTransfer (j : ℕ) (status : TransferStatus) (accepted : Bool) (x : Streams) : Streams :=
  if (x.xfers j).state = .outstanding then cbXfer j status accepted (done j x) else x

/-- `ubertooth_bulk_receive`; `stops` if the callback or a signal sets `stop_ubertooth` before one
of its tests. The events it lets libusb handle first end transfers. -/
def ubertoothBulkReceive (stops : Bool) (x : Streams) : ℤ × Streams :=
  if x.usbReallyFull then
    let x := { x with stopUbertooth := x.stopUbertooth || stops }
    if x.stopUbertooth then (1, cancelTransfer x) else (0, { x with usbReallyFull := false })
  else (-1, x)

end Streams

/-- What happens to the transfers: a stream begins, `rx_live` clears both flags, the host takes the
packets, `stop_ubertooth` is set, and a transfer ends. -/
inductive StreamsEvent
  | bulkInit (accepted : Bool)
  | clear
  | receive (stops : Bool)
  | stop
  | complete (j : ℕ) (status : TransferStatus) (accepted : Bool)

def streamsStep (x : Streams) : StreamsEvent → Streams
  | .bulkInit accepted => (x.ubertoothBulkInit accepted).2
  | .clear => { x with stopUbertooth := false, usbReallyFull := false }
  | .receive stops => (x.ubertoothBulkReceive stops).2
  | .stop => { x with stopUbertooth := true }
  | .complete j status accepted => x.endTransfer j status accepted

/-! ## What `cb_xfer` does -/

namespace Streams

variable {x : Streams} (accepted : Bool)

/-- What becomes of a transfer that has ended, by its status and the flags. -/
theorem cbXfer_cases (j : ℕ) (status : TransferStatus) (x : Streams) :
    (status = .completed ∧ x.usbReallyFull = true ∧
      x.cbXfer j status accepted = { x with stopUbertooth := true }) ∨
    (status = .completed ∧ x.usbReallyFull = false ∧ x.stopUbertooth = true ∧
      x.cbXfer j status accepted = x) ∨
    (status = .completed ∧ x.usbReallyFull = false ∧ x.stopUbertooth = false ∧
      x.cbXfer j status accepted = submitTransfer accepted (setBuffer (swapBuffers x))) ∨
    (status = .timedOut ∧ x.cbXfer j status accepted = submitTransfer accepted x) ∨
    (status ≠ .completed ∧ status ≠ .timedOut ∧ x.cbXfer j status accepted =
      { x.setXfer j { x.xfers j with state := .freed } with rxXfer := none }) := by
  by_cases hs : status = .completed
  · cases hfull : x.usbReallyFull with
    | true => exact .inl ⟨hs, rfl, by simp [Streams.cbXfer, hs, hfull]⟩
    | false =>
      cases hstop : x.stopUbertooth with
      | true => exact .inr (.inl ⟨hs, rfl, rfl, by simp [Streams.cbXfer, hs, hfull, hstop]⟩)
      | false =>
        exact .inr (.inr (.inl ⟨hs, rfl, rfl, by simp [Streams.cbXfer, hs, hfull, hstop]⟩))
  · by_cases htimed : status = .timedOut
    · exact .inr (.inr (.inr (.inl ⟨htimed, by simp [Streams.cbXfer, htimed]⟩)))
    · exact .inr (.inr (.inr (.inr ⟨hs, htimed, by simp [Streams.cbXfer, hs, htimed]⟩)))

theorem submitTransfer_busy {j : ℕ} (hj : x.rxXfer = some j)
    (hout : (x.xfers j).state = .outstanding) : x.submitTransfer accepted = x := by
  simp [Streams.submitTransfer, hj, hout]

/-- After the swap, `rx_xfer` gets the buffer that is empty now. -/
theorem setBuffer_swapBuffers {j : ℕ} (hj : x.rxXfer = some j)
    (hstate : (x.xfers j).state ≠ .freed) :
    setBuffer (swapBuffers x) =
      (swapBuffers x).setXfer j { x.xfers j with buffer := x.fullUsbBuf } := by
  simp [setBuffer, swapBuffers, hj, hstate]

end Streams

/-! ## One stream -/

/-- What the stream model keeps of a transfer. -/
def Xfer.Matches (xfer : Xfer) (transfer : Transfer) : Prop :=
  xfer.buffer = some transfer.buffer ∧
    xfer.state = if transfer.submitted then .outstanding else .idle

variable {σ : Type*}

/-- The stream model sees the transfer of the stream `j`. -/
structure Matches (j : ℕ) (x : Streams) (ut : UbertoothT σ) : Prop where
  pointer : x.rxXfer = ut.rxXfer.map fun _ => j
  xfer : ∀ transfer, ut.rxXfer = some transfer → (x.xfers j).Matches transfer
  emptyUsbBuf : x.emptyUsbBuf = some ut.emptyUsbBuf
  fullUsbBuf : x.fullUsbBuf = some ut.fullUsbBuf
  usbReallyFull : x.usbReallyFull = ut.usbReallyFull
  stopUbertooth : x.stopUbertooth = ut.stopUbertooth

namespace Matches

open Streams (setBuffer swapBuffers setBuffer_swapBuffers)

variable {j : ℕ} {x : Streams} {ut : UbertoothT σ}

theorem submitTransfer (h : Matches j x ut) (accepted : Bool) {buffer : RxBuf}
    (hxfer : ut.rxXfer = some { buffer := buffer, submitted := false }) :
    Matches j (x.submitTransfer accepted) (Host.submitTransfer accepted ut) := by
  obtain ⟨hbuffer, hstate⟩ := h.xfer _ hxfer
  have hpointer : x.rxXfer = some j := by rw [h.pointer, hxfer]; rfl
  have hidle : (x.xfers j).state = .idle := by simpa using hstate
  have hut : Host.submitTransfer accepted ut =
      { ut with rxXfer := some { buffer := buffer, submitted := accepted } } := by
    simp [Host.submitTransfer, hxfer]
  rw [hut]
  simp only [Streams.submitTransfer, hpointer, hidle]
  cases accepted with
  | false =>
    refine ⟨hpointer, ?_, h.emptyUsbBuf, h.fullUsbBuf, h.usbReallyFull, h.stopUbertooth⟩
    intro transfer htransfer
    obtain rfl := Option.some.inj htransfer
    exact ⟨hbuffer, hidle⟩
  | true =>
    refine ⟨hpointer, ?_, h.emptyUsbBuf, h.fullUsbBuf, h.usbReallyFull, h.stopUbertooth⟩
    intro transfer htransfer
    obtain rfl := Option.some.inj htransfer
    simp [Streams.setXfer, Xfer.Matches, hbuffer]

/-- **One stream.** While there is one transfer, and it has ended, `cb_xfer` is what it is in the
stream model. -/
theorem cbXfer (h : Matches j x ut) (status : TransferStatus) (accepted : Bool) {buffer : RxBuf}
    (hxfer : ut.rxXfer = some { buffer := buffer, submitted := false }) :
    Matches j (x.cbXfer j status accepted) (Host.cbXfer status accepted ut) := by
  have hpointer : x.rxXfer = some j := by rw [h.pointer, hxfer]; rfl
  have hidle : (x.xfers j).state = .idle := by simpa using (h.xfer _ hxfer).2
  rcases Streams.cbXfer_cases accepted j status x with ⟨rfl, hfull, hx⟩ | ⟨rfl, hfull, hstop, hx⟩ |
    ⟨rfl, hfull, hstop, hx⟩ | ⟨rfl, hx⟩ | ⟨hs, htimed, hx⟩
  · have hut : Host.cbXfer .completed accepted ut = { ut with stopUbertooth := true } := by
      simp [Host.cbXfer, ← h.usbReallyFull, hfull]
    rw [hx, hut]
    exact ⟨h.pointer, h.xfer, h.emptyUsbBuf, h.fullUsbBuf, h.usbReallyFull, rfl⟩
  · have hut : Host.cbXfer .completed accepted ut = ut := by
      simp [Host.cbXfer, ← h.usbReallyFull, ← h.stopUbertooth, hfull, hstop]
    rw [hx, hut]
    exact h
  · have hut : Host.cbXfer .completed accepted ut =
        Host.submitTransfer accepted
          { ut with
            rxXfer := some { buffer := ut.fullUsbBuf, submitted := false }
            fullUsbBuf := ut.emptyUsbBuf
            emptyUsbBuf := ut.fullUsbBuf
            usbReallyFull := true } := by
      simp [Host.cbXfer, ← h.usbReallyFull, ← h.stopUbertooth, hfull, hstop, hxfer]
    have hswap : Matches j (setBuffer (swapBuffers x))
        { ut with
          rxXfer := some { buffer := ut.fullUsbBuf, submitted := false }
          fullUsbBuf := ut.emptyUsbBuf
          emptyUsbBuf := ut.fullUsbBuf
          usbReallyFull := true } := by
      rw [setBuffer_swapBuffers hpointer (by simp [hidle])]
      refine ⟨hpointer, ?_, h.fullUsbBuf, h.emptyUsbBuf, rfl, h.stopUbertooth⟩
      intro transfer htransfer
      obtain rfl := Option.some.inj htransfer
      simp [Streams.setXfer, swapBuffers, Xfer.Matches, h.fullUsbBuf, hidle]
    rw [hx, hut]
    exact hswap.submitTransfer accepted rfl
  · have hut : Host.cbXfer .timedOut accepted ut = Host.submitTransfer accepted ut := by
      simp [Host.cbXfer]
    rw [hx, hut]
    exact h.submitTransfer accepted hxfer
  · have hut : Host.cbXfer status accepted ut = { ut with rxXfer := none } := by
      simp [Host.cbXfer, hs, htimed]
    rw [hx, hut]
    exact ⟨rfl, fun _ hnone => absurd hnone (by simp), h.emptyUsbBuf, h.fullUsbBuf,
      h.usbReallyFull, h.stopUbertooth⟩

end Matches

end Ubertooth.Host
