import Ubertooth.Foundations.Runs
import Ubertooth.Host.Transfers

/-!
# Who owns a transfer

`cb_xfer` works on `ut->rx_xfer` whichever transfer has ended. That is the transfer of the current
stream, unless an earlier stream's transfer ends after the next stream has begun, as the one
`rx_live` cancels may: then the current transfer is lost, or given the buffer the host is reading.
`owned_iff` says at which of these ends ownership is lost, and `owned_of_drained` that it never is
when a stream begins only after the transfers of the earlier ones have ended.
-/

namespace Ubertooth.Host

open Foundations Streams

/-- The transfer of the current stream is outstanding. -/
def CurrentOutstanding (x : Streams) : Prop :=
  ∃ j, j + 1 = x.streams ∧ (x.xfers j).state = .outstanding

/-- While the transfer of the current stream is outstanding `rx_xfer` points to it, libusb fills the
empty buffer, and the host reads the other one; and no `NULL` or freed transfer has been used. -/
structure Owned (x : Streams) : Prop where
  sound : x.faulted = false
  current : ∀ j, j + 1 = x.streams → (x.xfers j).state = .outstanding →
    x.rxXfer = some j ∧ (x.xfers j).buffer = x.emptyUsbBuf ∧
      (x.xfers j).target = x.emptyUsbBuf ∧ x.emptyUsbBuf ≠ x.fullUsbBuf

/-- What holds whatever ends when. -/
structure Wired (x : Streams) : Prop where
  begun : 0 < x.streams → x.emptyUsbBuf ≠ x.fullUsbBuf
  pointer : ∀ j, x.rxXfer = some j →
    j + 1 = x.streams ∧ (x.xfers j).state ≠ .freed ∧ (x.xfers j).buffer = x.emptyUsbBuf
  fresh : ∀ j, x.streams ≤ j → (x.xfers j).state ≠ .outstanding

/-- What `cb_xfer` needs to find, whichever transfer has ended with this status. -/
def CbXferKeeps (x : Streams) : TransferStatus → Prop
  | .completed => x.usbReallyFull = true ∨ x.stopUbertooth = true ∨
      x.rxXfer ≠ none ∧ ¬CurrentOutstanding x
  | .timedOut => x.rxXfer ≠ none
  | _ => ¬CurrentOutstanding x

/-- An earlier stream's transfer ends with an error or cancelled only while the current stream's is
not outstanding, times out only while `rx_xfer` points to a transfer, and completes only where both
hold, or `cb_xfer` stops before it touches `rx_xfer`. -/
def EndsInTime (x : Streams) : StreamsEvent → Prop
  | .complete j status _ => (x.xfers j).state = .outstanding → j + 1 ≠ x.streams →
    CbXferKeeps x status
  | _ => True

variable {x : Streams} {j : ℕ} {xfer : Xfer} {status : TransferStatus} {accepted : Bool}

@[simp] theorem xfers_setXfer_self : (x.setXfer j xfer).xfers j = xfer :=
  Function.update_self ..

theorem xfers_setXfer_of_ne {k : ℕ} (hk : k ≠ j) : (x.setXfer j xfer).xfers k = x.xfers k :=
  Function.update_of_ne hk ..

/-! ## Where the pointers point -/

theorem Wired.setXfer (hx : Wired x)
    (hpointer : x.rxXfer = some j → xfer.state ≠ .freed ∧ xfer.buffer = x.emptyUsbBuf)
    (hfresh : x.streams ≤ j → xfer.state ≠ .outstanding) : Wired (x.setXfer j xfer) := by
  refine ⟨hx.begun, fun k hk => ?_, fun k hk => ?_⟩
  · by_cases hkj : k = j
    · subst hkj
      rw [xfers_setXfer_self]
      exact ⟨(hx.pointer k hk).1, hpointer hk⟩
    · rw [xfers_setXfer_of_ne hkj]
      exact hx.pointer k hk
  · by_cases hkj : k = j
    · subst hkj
      rw [xfers_setXfer_self]
      exact hfresh hk
    · rw [xfers_setXfer_of_ne hkj]
      exact hx.fresh k hk

theorem Wired.lt_streams (hx : Wired x) (hj : x.rxXfer = some j) : j < x.streams :=
  Nat.lt_of_succ_le (hx.pointer j hj).1.le

/-- `rx_xfer` is not freed, so submitting it fails only where there is none. -/
theorem Wired.submitTransfer_cases (hx : Wired x) (accepted : Bool) :
    (x.rxXfer = none ∧ x.submitTransfer accepted = { x with faulted := true }) ∨
    ∃ j, x.rxXfer = some j ∧ (x.submitTransfer accepted = x ∨ x.submitTransfer accepted =
      x.setXfer j { x.xfers j with state := .outstanding, target := (x.xfers j).buffer }) := by
  cases hj : x.rxXfer with
  | none => exact .inl ⟨rfl, by simp [Streams.submitTransfer, hj]⟩
  | some j =>
    refine .inr ⟨j, rfl, ?_⟩
    cases hstate : (x.xfers j).state with
    | freed => exact absurd hstate (hx.pointer j hj).2.1
    | outstanding => exact .inl (submitTransfer_busy accepted hj hstate)
    | idle =>
      cases accepted with
      | false => exact .inl (by simp [Streams.submitTransfer, hj, hstate])
      | true => exact .inr (by simp [Streams.submitTransfer, hj, hstate])

theorem Wired.submitTransfer (hx : Wired x) : Wired (x.submitTransfer accepted) := by
  rcases hx.submitTransfer_cases accepted with ⟨-, h⟩ | ⟨j, hj, h | h⟩ <;> rw [h]
  · exact ⟨hx.begun, hx.pointer, hx.fresh⟩
  · exact hx
  · have hlt := hx.lt_streams hj
    exact hx.setXfer (fun _ => ⟨by simp, (hx.pointer j hj).2.2⟩) fun hle => absurd hlt (by omega)

theorem Wired.swap (hx : Wired x) : Wired (setBuffer (swapBuffers x)) := by
  cases hj : x.rxXfer with
  | none =>
    have hnone : setBuffer (swapBuffers x) = { swapBuffers x with faulted := true } := by
      simp [setBuffer, swapBuffers, hj]
    rw [hnone]
    exact ⟨fun h => (hx.begun h).symm, fun k hk => absurd (hj.symm.trans hk) (by simp), hx.fresh⟩
  | some j =>
    obtain ⟨hcur, hfreed, -⟩ := hx.pointer j hj
    rw [setBuffer_swapBuffers hj hfreed]
    refine ⟨fun h => (hx.begun h).symm, fun k hk => ?_, fun k hk => ?_⟩
    · obtain rfl := Option.some.inj (hj.symm.trans hk)
      rw [xfers_setXfer_self]
      exact ⟨hcur, hfreed, rfl⟩
    · have hle : x.streams ≤ k := hk
      rw [xfers_setXfer_of_ne (by omega)]
      exact hx.fresh k hk

theorem Wired.cbXfer (hx : Wired x) : Wired (x.cbXfer j status accepted) := by
  rcases Streams.cbXfer_cases accepted j status x with ⟨-, -, hcb⟩ | ⟨-, -, -, hcb⟩ |
    ⟨-, -, -, hcb⟩ | ⟨-, hcb⟩ | ⟨-, -, hcb⟩ <;> rw [hcb]
  · exact ⟨hx.begun, hx.pointer, hx.fresh⟩
  · exact hx
  · exact hx.swap.submitTransfer
  · exact hx.submitTransfer
  · refine ⟨hx.begun, fun k hk => absurd hk (by simp), fun k hk => ?_⟩
    by_cases hkj : k = j
    · subst hkj
      simp
    · have hne := hx.fresh k hk
      rwa [← xfers_setXfer_of_ne hkj] at hne

theorem Wired.done (hx : Wired x) : Wired (x.done j) :=
  hx.setXfer (fun hj => ⟨by simp, (hx.pointer j hj).2.2⟩) fun _ => by simp

theorem Wired.fillTransfer (hx : Wired x) : Wired x.fillTransfer := by
  refine ⟨fun _ => by simp [Streams.fillTransfer], fun k hk => ?_, fun k hk => ?_⟩
  · obtain rfl := Option.some.inj hk
    simp [Streams.fillTransfer, Streams.setXfer]
  · have hle : x.streams + 1 ≤ k := hk
    have hne := hx.fresh k (by omega)
    rwa [← xfers_setXfer_of_ne (x := x) (j := x.streams) (by omega)] at hne

/-- `ubertooth_bulk_receive` leaves the transfers and the pointers alone. -/
theorem Wired.bulkReceive (hx : Wired x) (stops : Bool) : ∃ stop full,
    (x.ubertoothBulkReceive stops).2 = { x with usbReallyFull := full, stopUbertooth := stop } := by
  have hcancel : ∀ stop, Streams.cancelTransfer { x with stopUbertooth := stop } =
      { x with stopUbertooth := stop } := by
    intro stop
    cases hj : x.rxXfer with
    | none => simp [Streams.cancelTransfer]
    | some j => simp [Streams.cancelTransfer, (hx.pointer j hj).2.1]
  unfold Streams.ubertoothBulkReceive
  dsimp only
  split
  · split
    · exact ⟨_, _, hcancel _⟩
    · exact ⟨_, _, rfl⟩
  · exact ⟨_, _, rfl⟩

theorem wired_step (hx : Wired x) (e : StreamsEvent) : Wired (streamsStep x e) := by
  cases e with
  | bulkInit accepted => exact hx.fillTransfer.submitTransfer
  | clear => exact ⟨hx.begun, hx.pointer, hx.fresh⟩
  | receive stops =>
    obtain ⟨stop, full, hreceive⟩ := hx.bulkReceive stops
    dsimp only [streamsStep]
    rw [hreceive]
    exact ⟨hx.begun, hx.pointer, hx.fresh⟩
  | stop => exact ⟨hx.begun, hx.pointer, hx.fresh⟩
  | complete j status accepted =>
    dsimp only [streamsStep]
    unfold Streams.endTransfer
    split
    · exact hx.done.cbXfer
    · exact hx

/-! ## What `cb_xfer` keeps -/

/-- Where the pointers point as they should, it is left to see that `rx_xfer` points to the current
transfer while that is outstanding, and that libusb fills the empty buffer. -/
theorem Wired.owned (hx : Wired x) (hsound : x.faulted = false)
    (hcur : ∀ j, j + 1 = x.streams → (x.xfers j).state = .outstanding →
      x.rxXfer = some j ∧ (x.xfers j).target = x.emptyUsbBuf) : Owned x := by
  refine ⟨hsound, fun j hj hout => ?_⟩
  obtain ⟨hpointer, htarget⟩ := hcur j hj hout
  exact ⟨hpointer, (hx.pointer j hpointer).2.2, htarget, hx.begun (by omega)⟩

theorem Wired.owned_of_not_currentOutstanding (hx : Wired x) (hsound : x.faulted = false)
    (hnone : ¬CurrentOutstanding x) : Owned x :=
  hx.owned hsound fun j hj hout => absurd ⟨j, hj, hout⟩ hnone

/-- Submitting again keeps ownership as long as there is a transfer to submit. -/
theorem owned_submitTransfer (hx : Wired x) (ho : Owned x) :
    Owned (x.submitTransfer accepted) ↔ x.rxXfer ≠ none := by
  rcases hx.submitTransfer_cases accepted with ⟨hnone, h⟩ | ⟨j, hj, h | h⟩ <;> rw [h]
  · exact iff_of_false (fun hfault => absurd hfault.sound (by simp)) fun hne => hne hnone
  · exact iff_of_true ho (by simp [hj])
  · refine iff_of_true ((h ▸ hx.submitTransfer).owned ho.sound fun k hk _ => ?_) (by simp [hj])
    obtain ⟨hcur, -, hbuffer⟩ := hx.pointer j hj
    have hk' : k + 1 = x.streams := hk
    obtain rfl : k = j := by omega
    rw [xfers_setXfer_self]
    exact ⟨hj, hbuffer⟩

/-- Swapping the buffers keeps ownership exactly if `rx_xfer` points to a transfer that is not
outstanding. -/
theorem owned_swap (hx : Wired x) (ho : Owned x) :
    Owned ((setBuffer (swapBuffers x)).submitTransfer accepted) ↔
      x.rxXfer ≠ none ∧ ¬CurrentOutstanding x := by
  cases hj : x.rxXfer with
  | none =>
    refine iff_of_false (fun h => ?_) (by simp)
    have hsound := h.sound
    simp [Streams.submitTransfer, setBuffer, swapBuffers, hj] at hsound
  | some j =>
    obtain ⟨hcur, hfreed, hbuffer⟩ := hx.pointer j hj
    have hset := setBuffer_swapBuffers hj hfreed
    by_cases hout : (x.xfers j).state = .outstanding
    · refine iff_of_false (fun h => ?_) (fun h => h.2 ⟨j, hcur, hout⟩)
      have hstill : (((swapBuffers x).setXfer j { x.xfers j with buffer := x.fullUsbBuf }).xfers
          j).state = .outstanding := by simpa using hout
      rw [hset, submitTransfer_busy (x := (swapBuffers x).setXfer j _) accepted hj hstill] at h
      have htarget := (h.current j hcur (by simpa using hout)).2.2.1
      rw [xfers_setXfer_self] at htarget
      exact hx.begun (by omega) ((ho.current j hcur hout).2.2.1.symm.trans htarget)
    · refine iff_of_true ?_ ⟨by simp, ?_⟩
      · have hsound : (setBuffer (swapBuffers x)).faulted = false := by
          rw [hset]
          exact ho.sound
        have hidle : ¬CurrentOutstanding (setBuffer (swapBuffers x)) := by
          rw [hset]
          rintro ⟨k, hk, hstate⟩
          have hk' : k + 1 = x.streams := hk
          obtain rfl : k = j := by omega
          rw [xfers_setXfer_self] at hstate
          exact hout hstate
        refine (owned_submitTransfer hx.swap
          (hx.swap.owned_of_not_currentOutstanding hsound hidle)).2 ?_
        rw [hset]
        exact fun hnone => absurd (hj.symm.trans hnone) (by simp)
      · rintro ⟨k, hk, hstate⟩
        obtain rfl : k = j := by omega
        exact hout hstate

/-- A transfer that is lost takes `rx_xfer` with it. -/
theorem owned_lost (ho : Owned x) (hj : (x.xfers j).state ≠ .outstanding) :
    Owned { x.setXfer j { x.xfers j with state := .freed } with rxXfer := none } ↔
      ¬CurrentOutstanding x := by
  have hne : ∀ k, (x.xfers k).state = .outstanding → k ≠ j := fun k hk hkj => hj (hkj ▸ hk)
  constructor
  · rintro h ⟨k, hk, hout⟩
    have hcur := h.current k hk (by rwa [← xfers_setXfer_of_ne (hne k hout)] at hout)
    exact absurd hcur.1 (by simp)
  · intro hnone
    refine ⟨ho.sound, fun k hk hout => ?_⟩
    by_cases hkj : k = j
    · subst hkj
      exact absurd hout (by simp)
    · have hout' : ((x.setXfer j { x.xfers j with state := .freed }).xfers k).state =
        .outstanding := hout
      rw [xfers_setXfer_of_ne hkj] at hout'
      exact absurd ⟨k, hk, hout'⟩ hnone

theorem owned_cbXfer (hx : Wired x) (ho : Owned x) (hj : (x.xfers j).state ≠ .outstanding) :
    Owned (x.cbXfer j status accepted) ↔ CbXferKeeps x status := by
  rcases Streams.cbXfer_cases accepted j status x with ⟨rfl, hfull, hcb⟩ |
    ⟨rfl, hfull, hstop, hcb⟩ | ⟨rfl, hfull, hstop, hcb⟩ | ⟨rfl, hcb⟩ | ⟨hs, htimed, hcb⟩ <;>
    rw [hcb]
  · exact iff_of_true ⟨ho.sound, ho.current⟩ (.inl hfull)
  · exact iff_of_true ho (.inr (.inl hstop))
  · rw [owned_swap hx ho]
    simp [CbXferKeeps, hfull, hstop]
  · exact owned_submitTransfer hx ho
  · rw [owned_lost ho hj]
    cases status <;> first | rfl | contradiction

/-! ## Runs -/

theorem Owned.done (ho : Owned x) : Owned (x.done j) := by
  refine ⟨ho.sound, fun k hk hout => ?_⟩
  by_cases hkj : k = j
  · subst hkj
    exact absurd hout (by simp [Streams.done])
  · have hsame : (x.done j).xfers k = x.xfers k := xfers_setXfer_of_ne hkj
    rw [hsame] at hout ⊢
    exact ho.current k hk hout

/-- Of an earlier stream's transfer `cb_xfer` asks what the condition says, of the current one's
nothing. -/
theorem cbXferKeeps_done (ho : Owned x) (hout : (x.xfers j).state = .outstanding) :
    CbXferKeeps (x.done j) status ↔ (j + 1 ≠ x.streams → CbXferKeeps x status) := by
  by_cases hj : j + 1 = x.streams
  · refine iff_of_true ?_ fun hne => absurd hj hne
    have hpointer : (x.done j).rxXfer ≠ none := by
      have hsome := (ho.current j hj hout).1
      exact fun hnone => absurd (hsome.symm.trans hnone) (by simp)
    have hnone : ¬CurrentOutstanding (x.done j) := by
      rintro ⟨k, hk, hstate⟩
      have hk' : k + 1 = x.streams := hk
      obtain rfl : k = j := by omega
      exact absurd hstate (by simp [Streams.done])
    cases status with
    | completed => exact .inr (.inr ⟨hpointer, hnone⟩)
    | timedOut => exact hpointer
    | _ => exact hnone
  · have hsame : CurrentOutstanding (x.done j) ↔ CurrentOutstanding x := by
      refine exists_congr fun k => and_congr_right fun hk => ?_
      have hk' : k + 1 = x.streams := hk
      have hxfer : (x.done j).xfers k = x.xfers k := xfers_setXfer_of_ne (by omega)
      rw [hxfer]
    rw [forall_prop_of_true hj]
    cases status with
    | completed => exact or_congr_right (or_congr_right (and_congr_right fun _ => not_congr hsame))
    | timedOut => exact Iff.rfl
    | _ => exact not_congr hsame

/-- A stream begins with a transfer and buffers of its own. -/
theorem owned_bulkInit (hx : Wired x) (ho : Owned x) :
    Owned (x.ubertoothBulkInit accepted).2 := by
  have hidle : ¬CurrentOutstanding x.fillTransfer := by
    rintro ⟨k, hk, hstate⟩
    obtain rfl : k = x.streams := Nat.succ.inj hk
    exact absurd hstate (by simp [Streams.fillTransfer, Streams.setXfer])
  have hfill := hx.fillTransfer.owned_of_not_currentOutstanding ho.sound hidle
  exact (owned_submitTransfer hx.fillTransfer hfill).2 (by simp [Streams.fillTransfer])

theorem owned_step (hx : Wired x) (ho : Owned x) (e : StreamsEvent) :
    Owned (streamsStep x e) ↔ EndsInTime x e := by
  cases e with
  | bulkInit accepted => exact iff_of_true (owned_bulkInit hx ho) trivial
  | clear => exact iff_of_true ⟨ho.sound, ho.current⟩ trivial
  | receive stops =>
    obtain ⟨stop, full, hreceive⟩ := hx.bulkReceive stops
    dsimp only [streamsStep]
    rw [hreceive]
    exact iff_of_true ⟨ho.sound, ho.current⟩ trivial
  | stop => exact iff_of_true ⟨ho.sound, ho.current⟩ trivial
  | complete j status accepted =>
    dsimp only [streamsStep, EndsInTime]
    by_cases hout : (x.xfers j).state = .outstanding
    · have hend : x.endTransfer j status accepted = (x.done j).cbXfer j status accepted := by
        simp only [Streams.endTransfer, if_pos hout]
      rw [hend, owned_cbXfer hx.done ho.done (by simp [Streams.done]), cbXferKeeps_done ho hout,
        forall_prop_of_true hout]
    · have hend : x.endTransfer j status accepted = x := by
        simp only [Streams.endTransfer, if_neg hout]
      rw [hend]
      exact iff_of_true ho fun h => absurd h hout

theorem wired_ubertoothInit : Wired ubertoothInit :=
  ⟨fun h => absurd h (by simp [ubertoothInit]), fun _ hj => absurd hj (by simp [ubertoothInit]),
    fun _ _ => by simp [ubertoothInit]⟩

theorem owned_ubertoothInit : Owned ubertoothInit :=
  wired_ubertoothInit.owned rfl fun _ hj => absurd hj (by simp [ubertoothInit])

/-- **Ownership of the transfer.** Whatever streams begin, whatever the host receives and whenever
transfers end, the current transfer stays owned exactly if no transfer of an earlier stream ends
outside the condition. -/
theorem owned_iff (es : List StreamsEvent) :
    Throughout streamsStep Owned ubertoothInit es ↔
      Along streamsStep EndsInTime ubertoothInit es :=
  throughout_iff_of_invariant (I := fun x => Wired x ∧ Owned x) (fun _ h => h.2)
    (fun _ e h he => ⟨wired_step h.1 e, (owned_step h.1 h.2 e).2 he⟩)
    (fun _ e h he ho => he ((owned_step h.1 h.2 e).1 ho))
    ⟨wired_ubertoothInit, owned_ubertoothInit⟩

/-! ## Pending transfers finished first -/

/-- A stream begins while no transfer is outstanding. -/
def BeginsDrained (x : Streams) : StreamsEvent → Prop
  | .bulkInit _ => ∀ j, (x.xfers j).state ≠ .outstanding
  | _ => True

/-- No transfer of an earlier stream is outstanding. -/
def OnlyCurrent (x : Streams) : Prop :=
  ∀ j, (x.xfers j).state = .outstanding → j + 1 = x.streams

/-- Only the transfer `rx_xfer` points to becomes outstanding. -/
theorem Wired.onlyCurrent_submitTransfer (hx : Wired x) (hc : OnlyCurrent x) :
    OnlyCurrent (x.submitTransfer accepted) := by
  rcases hx.submitTransfer_cases accepted with ⟨-, h⟩ | ⟨j, hj, h | h⟩ <;> rw [h]
  · exact hc
  · exact hc
  · intro k hout
    by_cases hkj : k = j
    · exact hkj ▸ (hx.pointer j hj).1
    · rw [xfers_setXfer_of_ne hkj] at hout
      exact hc k hout

theorem Wired.onlyCurrent_swap (hx : Wired x) (hc : OnlyCurrent x) :
    OnlyCurrent (setBuffer (swapBuffers x)) := by
  cases hj : x.rxXfer with
  | none =>
    have hnone : setBuffer (swapBuffers x) = { swapBuffers x with faulted := true } := by
      simp [setBuffer, swapBuffers, hj]
    rw [hnone]
    exact hc
  | some j =>
    obtain ⟨hcur, hfreed, -⟩ := hx.pointer j hj
    rw [setBuffer_swapBuffers hj hfreed]
    intro k hout
    by_cases hkj : k = j
    · exact hkj ▸ hcur
    · rw [xfers_setXfer_of_ne hkj] at hout
      exact hc k hout

theorem OnlyCurrent.setXfer (hc : OnlyCurrent x) (hstate : xfer.state ≠ .outstanding) :
    OnlyCurrent (x.setXfer j xfer) := by
  intro k hout
  by_cases hkj : k = j
  · subst hkj
    rw [xfers_setXfer_self] at hout
    exact absurd hout hstate
  · rw [xfers_setXfer_of_ne hkj] at hout
    exact hc k hout

theorem Wired.onlyCurrent_cbXfer (hx : Wired x) (hc : OnlyCurrent x) :
    OnlyCurrent (x.cbXfer j status accepted) := by
  rcases Streams.cbXfer_cases accepted j status x with ⟨-, -, hcb⟩ | ⟨-, -, -, hcb⟩ |
    ⟨-, -, -, hcb⟩ | ⟨-, hcb⟩ | ⟨-, -, hcb⟩ <;> rw [hcb]
  · exact hc
  · exact hc
  · exact hx.swap.onlyCurrent_submitTransfer (hx.onlyCurrent_swap hc)
  · exact hx.onlyCurrent_submitTransfer hc
  · exact hc.setXfer (j := j) (by simp)

theorem onlyCurrent_step (hx : Wired x) (hc : OnlyCurrent x) {e : StreamsEvent}
    (he : BeginsDrained x e) : OnlyCurrent (streamsStep x e) := by
  cases e with
  | bulkInit accepted =>
    refine hx.fillTransfer.onlyCurrent_submitTransfer fun k hout => ?_
    by_cases hk : k = x.streams
    · rw [hk]
      rfl
    · have hsame : x.fillTransfer.xfers k = x.xfers k :=
        xfers_setXfer_of_ne (x := x) hk
      rw [hsame] at hout
      exact absurd hout (he k)
  | clear => exact hc
  | receive stops =>
    obtain ⟨stop, full, hreceive⟩ := hx.bulkReceive stops
    dsimp only [streamsStep]
    rw [hreceive]
    exact hc
  | stop => exact hc
  | complete j status accepted =>
    dsimp only [streamsStep]
    unfold Streams.endTransfer
    split
    · exact hx.done.onlyCurrent_cbXfer (hc.setXfer (by simp))
    · exact hc

/-- When every stream begins after the transfers of the earlier ones have ended, the transfer stays
owned. -/
theorem owned_of_drained (es : List StreamsEvent)
    (h : Along streamsStep BeginsDrained ubertoothInit es) :
    Throughout streamsStep Owned ubertoothInit es := by
  have hstart : OnlyCurrent ubertoothInit := fun _ hout => absurd hout (by simp [ubertoothInit])
  refine fun pre hp => (throughout_of_along (I := fun x => Wired x ∧ OnlyCurrent x ∧ Owned x) ?_
    ⟨wired_ubertoothInit, hstart, owned_ubertoothInit⟩ h pre hp).2.2
  rintro x e ⟨hx, hc, ho⟩ he
  refine ⟨wired_step hx e, onlyCurrent_step hx hc he, (owned_step hx ho e).2 ?_⟩
  cases e with
  | complete j status accepted => exact fun hout hne => absurd (hc j hout) hne
  | _ => trivial

/-- A stream fills a buffer and is stopped, and the next one begins; then the transfer that was
cancelled ends, which clears `rx_xfer`, and the new one completes. -/
theorem not_owned_second_stream :
    ¬Throughout streamsStep Owned ubertoothInit
      [.bulkInit true, .complete 0 .completed true, .receive true, .clear, .bulkInit true,
        .complete 0 .cancelled true, .complete 1 .completed true] := by
  intro h
  exact absurd (h _ List.prefix_rfl).sound (by decide +kernel)

end Ubertooth.Host
