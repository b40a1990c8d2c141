import Ubertooth.Foundations.Runs
import Ubertooth.Host.Stream

/-!
# What streaming delivers

`Stream` is the host with `ubertooth_bulk_receive` at some place of its loop, the packets received
in completed transfers and the packets seen by callbacks. A step ends a transfer, calls
`ubertooth_bulk_receive`, takes its loop one place further or sets `stop_ubertooth`, so transfers
may end anywhere inside the loop, as they do when a callback waits for an answer of the device.
Uninterrupted, the steps are the call (`run_receive_advance`).

`cb_xfer` forgets how much a transfer brought, and the loop always walks `PKTS_PER_XFER` blocks.
`delivers_iff`: until `stop_ubertooth` is set the callbacks see exactly the packets received as
long as every block the loop comes to was received whole by the last transfer or reads as a
`KEEP_ALIVE`, and only as long.
-/

namespace Ubertooth.Host

open Foundations

variable {σ : Type*}

/-! ## Packets of a transfer -/

/-- The packets of 64 octets that came in whole, keep-alives left out. -/
def completePkts (data : List U8) : List UsbPktRx :=
  ((List.range (data.length / pktLen)).map fun i =>
    ofOctets fun j => data.getD (pktLen * i + j.val) 0).filter
      fun rx => ¬IsKeepAlive rx

/-- The packets in the first `k` blocks of a buffer, keep-alives left out. -/
def firstPkts (buf : Buffer) (k : ℕ) : List UsbPktRx :=
  (((List.finRange pktsPerXfer).take k).map (block buf)).filter fun rx => ¬IsKeepAlive rx

@[simp] theorem firstPkts_zero (buf : Buffer) : firstPkts buf 0 = [] := rfl

theorem filter_singleton_isKeepAlive (rx : UsbPktRx) :
    [rx].filter (fun rx => ¬IsKeepAlive rx) = if IsKeepAlive rx then [] else [rx] := by
  by_cases hkeep : IsKeepAlive rx
  · simp [hkeep]
  · simp [hkeep]

theorem firstPkts_succ (buf : Buffer) (i : Fin pktsPerXfer) :
    firstPkts buf (i.val + 1) =
      firstPkts buf i.val ++ if IsKeepAlive (block buf i) then [] else [block buf i] := by
  have htake : (List.finRange pktsPerXfer).take (i.val + 1) =
      (List.finRange pktsPerXfer).take i.val ++ [i] := by
    rw [List.take_succ_eq_append_getElem (by simp), List.getElem_finRange]
    rfl
  rw [firstPkts, htake, List.map_append, List.filter_append, List.map_singleton,
    filter_singleton_isKeepAlive, firstPkts]

/-- The blocks received whole. -/
theorem lt_div_pktLen_iff {i n : ℕ} : i < n / pktLen ↔ pktLen * (i + 1) ≤ n := by
  rw [Nat.mul_comm]
  exact Nat.le_div_iff_mul_le (by simp)

theorem receiveInto_of_lt (buf : Buffer) {data : List U8} {k : Fin xferLen}
    (hk : k.val < data.length) : receiveInto buf data k = data.getD k.val 0 := by
  rw [receiveInto, List.getD_eq_getElem _ _ hk, List.getD_eq_getElem _ _ hk]

/-- A block that was filled whole reads as the octets that filled it. -/
theorem block_receiveInto (buf : Buffer) {data : List U8} {i : Fin pktsPerXfer}
    (hi : pktLen * (i.val + 1) ≤ data.length) :
    block (receiveInto buf data) i =
      ofOctets fun j => data.getD (pktLen * i.val + j.val) 0 := by
  unfold block
  congr 1
  funext j
  exact receiveInto_of_lt buf (offset_lt hi j)

/-- The blocks that a transfer filled hold the packets it brought. -/
theorem firstPkts_receiveInto (buf : Buffer) {data : List U8} (hdata : data.length ≤ xferLen) :
    firstPkts (receiveInto buf data) (data.length / pktLen) = completePkts data := by
  have hblocks : data.length / pktLen ≤ pktsPerXfer := Nat.div_le_of_le_mul hdata
  refine congrArg (List.filter _) (List.ext_getElem ?_ fun i hi _ => ?_)
  · rw [List.length_map, List.length_map, List.length_take, List.length_finRange,
      List.length_range, Nat.min_eq_left hblocks]
  · rw [List.length_map, List.length_take, List.length_finRange] at hi
    have hfilled : pktLen * (i + 1) ≤ data.length :=
      lt_div_pktLen_iff.1 (lt_of_lt_of_le hi (Nat.min_le_left _ _))
    rw [List.getElem_map, List.getElem_map, List.getElem_take, List.getElem_finRange,
      List.getElem_range]
    exact block_receiveInto buf hfilled

/-! ## The functions -/

theorem mem_libusbReceived_self (buffer : RxBuf) (data : List U8) (ut : UbertoothT σ) :
    (libusbReceived buffer data ut).mem buffer = receiveInto (ut.mem buffer) data :=
  Function.update_self _ _ _

theorem mem_libusbReceived_of_ne {buffer b : RxBuf} (hb : b ≠ buffer) (data : List U8)
    (ut : UbertoothT σ) : (libusbReceived buffer data ut).mem b = ut.mem b :=
  Function.update_of_ne hb _ _

variable {ut : UbertoothT σ} (accepted : Bool)

theorem cbXfer_of_not_completed {status : TransferStatus} (hs : status ≠ .completed) :
    ∃ xfer, cbXfer status accepted ut = { ut with rxXfer := xfer } ∧
      ∀ t, xfer = some t → ∃ t', ut.rxXfer = some t' ∧ t.buffer = t'.buffer := by
  by_cases htimed : status = .timedOut
  · refine ⟨_, (if_pos hs).trans (if_pos htimed), fun t ht => ?_⟩
    obtain ⟨t', ht', rfl⟩ := Option.map_eq_some_iff.1 ht
    exact ⟨t', ht', rfl⟩
  · exact ⟨none, (if_pos hs).trans (if_neg htimed), fun t ht => absurd ht (by simp)⟩

/-- A transfer that completes with the full buffer not emptied stops streaming. -/
theorem cbXfer_of_full (hfull : ut.usbReallyFull = true) :
    cbXfer .completed accepted ut = { ut with stopUbertooth := true } := by
  simp [cbXfer, hfull]

theorem cbXfer_of_stop (hfull : ut.usbReallyFull = false) (hstop : ut.stopUbertooth = true) :
    cbXfer .completed accepted ut = ut := by
  simp [cbXfer, hfull, hstop]

theorem cbXfer_swap (hfull : ut.usbReallyFull = false) (hstop : ut.stopUbertooth = false) :
    cbXfer .completed accepted ut = { ut with
      fullUsbBuf := ut.emptyUsbBuf
      emptyUsbBuf := ut.fullUsbBuf
      usbReallyFull := true
      rxXfer := ut.rxXfer.map fun _ => { buffer := ut.fullUsbBuf, submitted := accepted } } := by
  simp [cbXfer, submitTransfer, hfull, hstop, Function.comp_def]

variable (cb : RxCallback σ) {i : Fin pktsPerXfer}

theorem receiveBlock_of_keepAlive (hi : IsKeepAlive (block (ut.mem ut.fullUsbBuf) i)) :
    receiveBlock cb i ut = ut := by
  rw [receiveBlock, if_neg (not_not_intro hi)]

theorem receiveBlock_of_not_keepAlive (hi : ¬IsKeepAlive (block (ut.mem ut.fullUsbBuf) i)) :
    receiveBlock cb i ut = { ut with
      packets := ut.packets.add (block (ut.mem ut.fullUsbBuf) i)
      args := (cb (ut.packets.add (block (ut.mem ut.fullUsbBuf) i)) ut.args).2
      stopUbertooth := ut.stopUbertooth ||
        (cb (ut.packets.add (block (ut.mem ut.fullUsbBuf) i)) ut.args).1 } := by
  rw [receiveBlock, if_pos hi]

/-- A block is handed to the callback; nothing of the transfer or of the buffers changes. -/
theorem receiveBlock_frame (i : Fin pktsPerXfer) (ut : UbertoothT σ) :
    ∃ packets args stop, receiveBlock cb i ut = { ut with
      packets := packets
      args := args
      stopUbertooth := ut.stopUbertooth || stop } := by
  by_cases hkeep : IsKeepAlive (block (ut.mem ut.fullUsbBuf) i)
  · refine ⟨ut.packets, ut.args, false, ?_⟩
    rw [receiveBlock_of_keepAlive cb hkeep, Bool.or_false]
  · exact ⟨_, _, _, receiveBlock_of_not_keepAlive cb hkeep⟩

/-! ## Runs -/

/-- A place in `ubertooth_bulk_receive`. -/
inductive Phase
  /-- outside -/
  | idle
  /-- before block `i` -/
  | block (i : Fin pktsPerXfer)
  /-- before the test of `stop_ubertooth` that follows block `i` -/
  | stopCheck (i : Fin pktsPerXfer)

/-- The blocks done with. -/
def Phase.done : Phase → ℕ
  | .idle => 0
  | .block i => i.val
  | .stopCheck i => i.val + 1

structure Stream (σ : Type*) where
  ut : UbertoothT σ
  phase : Phase := .idle
  /-- `actual_length` of the last transfer completed -/
  actualLength : ℕ := 0
  /-- the packets of the transfers completed -/
  received : List UsbPktRx := []
  /-- what callbacks found in the ring buffer, called while `stop_ubertooth` was not set -/
  seen : List UsbPktRx := []

inductive StreamEvent
  /-- a transfer ends, and libusb accepts to be submitted it again or not -/
  | transfer (status : TransferStatus) (data : List U8) (h : data.length ≤ xferLen)
    (accepted : Bool)
  /-- `ubertooth_bulk_receive` is called -/
  | receive
  /-- `ubertooth_bulk_receive` goes on -/
  | advance
  /-- a signal sets `stop_ubertooth` -/
  | stop

def streamStep (cb : RxCallback σ) (x : Stream σ) : StreamEvent → Stream σ
  | .transfer status data _ accepted =>
    match x.ut.rxXfer with
    | some { submitted := true, .. } =>
      let x := { x with ut := endTransfer status data accepted x.ut }
      if status = .completed then
        { x with actualLength := data.length, received := x.received ++ completePkts data }
      else x
    | _ => x
  | .receive =>
    match x.phase with
    | .idle => if x.ut.usbReallyFull then { x with phase := .block 0 } else x
    | _ => x
  | .advance =>
    match x.phase with
    | .idle => x
    | .block i =>
      let ut := receiveBlock cb i x.ut
      let called := ¬IsKeepAlive (block (x.ut.mem x.ut.fullUsbBuf) i)
      { x with
        ut
        phase := .stopCheck i
        seen :=
          if x.ut.stopUbertooth = false ∧ called then x.seen ++ [ut.packets.topUsb] else x.seen }
    | .stopCheck i =>
      if x.ut.stopUbertooth then { x with phase := .idle }
      else if h : i.val + 1 < pktsPerXfer then { x with phase := .block ⟨i.val + 1, h⟩ }
      else { x with ut := { x.ut with usbReallyFull := false }, phase := .idle }
  | .stop => { x with ut := { x.ut with stopUbertooth := true } }

/-! ## Uninterrupted, the steps are the call -/

variable {x : Stream σ}

theorem streamStep_advance_block (hx : x.phase = .block i) :
    streamStep cb x .advance = { x with
      ut := receiveBlock cb i x.ut
      phase := .stopCheck i
      seen :=
        if x.ut.stopUbertooth = false ∧ ¬IsKeepAlive (block (x.ut.mem x.ut.fullUsbBuf) i) then
          x.seen ++ [(receiveBlock cb i x.ut).packets.topUsb]
        else x.seen } := by
  simp only [streamStep, hx]

theorem streamStep_advance_stopCheck (hx : x.phase = .stopCheck i) :
    streamStep cb x .advance =
      if x.ut.stopUbertooth then { x with phase := .idle }
      else if h : i.val + 1 < pktsPerXfer then { x with phase := .block ⟨i.val + 1, h⟩ }
      else { x with ut := { x.ut with usbReallyFull := false }, phase := .idle } := by
  simp only [streamStep, hx]

theorem run_advance_idle (hx : x.phase = .idle) (n : ℕ) :
    run (streamStep cb) x (List.replicate n .advance) = x := by
  have hstep : streamStep cb x .advance = x := by simp only [streamStep, hx]
  induction n with
  | zero => rfl
  | succ n ih => rw [List.replicate_succ, run_cons, hstep, ih]

theorem receiveBlocks_drop (i : Fin pktsPerXfer) (ut : UbertoothT σ) :
    (receiveBlocks cb ((List.finRange pktsPerXfer).drop i.val) ut).2 =
      if (receiveBlock cb i ut).stopUbertooth then receiveBlock cb i ut
      else (receiveBlocks cb ((List.finRange pktsPerXfer).drop (i.val + 1))
        (receiveBlock cb i ut)).2 := by
  have hi : i.val < (List.finRange pktsPerXfer).length := by simp
  rw [List.drop_eq_getElem_cons hi, List.getElem_finRange, receiveBlocks]
  exact apply_ite Prod.snd _ _ _

/-- From block `i` on, two steps for each block left. -/
theorem run_advance (k : ℕ) : ∀ (i : Fin pktsPerXfer) (x : Stream σ),
    i.val + k + 1 = pktsPerXfer → x.phase = .block i →
      (run (streamStep cb) x (List.replicate (2 * k + 2) .advance)).ut =
        (receiveBlocks cb ((List.finRange pktsPerXfer).drop i.val) x.ut).2 := by
  intro i x hk hx
  rw [List.replicate_succ, List.replicate_succ, run_cons, run_cons,
    streamStep_advance_block cb hx, streamStep_advance_stopCheck cb rfl, receiveBlocks_drop]
  by_cases hstop : (receiveBlock cb i x.ut).stopUbertooth = true
  · rw [if_pos hstop, if_pos hstop, run_advance_idle cb rfl]
  · rw [if_neg hstop, if_neg hstop]
    cases k with
    | zero =>
      have hlast : ¬i.val + 1 < pktsPerXfer := by omega
      have hdrop : (List.finRange pktsPerXfer).drop (i.val + 1) = [] :=
        List.drop_of_length_le (by simp; omega)
      rw [dif_neg hlast, hdrop, receiveBlocks]
      rfl
    | succ k =>
      have hnext : i.val + 1 < pktsPerXfer := by omega
      have hk : i.val + 1 + k + 1 = pktsPerXfer := by omega
      rw [dif_pos hnext]
      exact run_advance k ⟨i.val + 1, hnext⟩ _ hk rfl

/-- **Uninterrupted, the steps are the call.** With nothing in between, the loop leaves what
`ubertooth_bulk_receive` leaves. -/
theorem run_receive_advance (hx : x.phase = .idle) :
    (run (streamStep cb) x (.receive :: List.replicate (2 * pktsPerXfer) .advance)).ut =
      (ubertoothBulkReceive cb x.ut).2 := by
  rw [run_cons, ubertoothBulkReceive]
  cases hfull : x.ut.usbReallyFull with
  | false =>
    have hstep : streamStep cb x .receive = x := by simp [streamStep, hx, hfull]
    rw [hstep, run_advance_idle cb hx]
    rfl
  | true =>
    have hstep : streamStep cb x .receive = { x with phase := .block 0 } := by
      simp [streamStep, hx, hfull]
    rw [hstep, if_pos rfl]
    exact run_advance cb 7 0 { x with phase := .block 0 } rfl rfl

/-! ## The invariant -/

/-- A block the loop comes to was received whole by the last transfer, or reads as a
keep-alive. -/
def BlockFresh (x : Stream σ) : StreamEvent → Prop
  | .advance => ∀ i, x.phase = .block i → x.ut.stopUbertooth = false →
      pktLen * (i.val + 1) ≤ x.actualLength ∨ IsKeepAlive (block (x.ut.mem x.ut.fullUsbBuf) i)
  | _ => True

/-- The callbacks have seen the packets received, in order and each once; none is missing once the
full buffer has been emptied. -/
def Delivers (x : Stream σ) : Prop :=
  x.seen <+: x.received ∧
    (x.ut.stopUbertooth = false → x.ut.usbReallyFull = false → x.seen = x.received)

/-- The transfer writes to the empty buffer; of the last transfer, which is the one the full
buffer holds, the callbacks have seen the packets of the blocks done with. -/
structure Streaming (x : Stream σ) : Prop where
  apart : x.ut.fullUsbBuf ≠ x.ut.emptyUsbBuf
  target : ∀ xfer, x.ut.rxXfer = some xfer → xfer.buffer = x.ut.emptyUsbBuf
  in_order : x.seen <+: x.received
  emptied : x.ut.stopUbertooth = false → x.ut.usbReallyFull = false →
    x.phase = .idle ∧ x.seen = x.received
  filled : x.ut.stopUbertooth = false → x.ut.usbReallyFull = true →
    x.actualLength ≤ xferLen ∧ ∃ before,
      x.received = before ++
        firstPkts (x.ut.mem x.ut.fullUsbBuf) (x.actualLength / pktLen) ∧
      x.seen = before ++
        firstPkts (x.ut.mem x.ut.fullUsbBuf) (min x.phase.done (x.actualLength / pktLen))

theorem Streaming.delivers (hx : Streaming x) : Delivers x :=
  ⟨hx.in_order, fun hstop hfull => (hx.emptied hstop hfull).2⟩

/-- Inside the loop the full buffer has not been emptied. -/
theorem Streaming.really_full (hx : Streaming x) (hstop : x.ut.stopUbertooth = false)
    (hphase : x.phase ≠ .idle) : x.ut.usbReallyFull = true :=
  Bool.eq_true_of_not_eq_false fun hfull => hphase (hx.emptied hstop hfull).1

/-- Once `stop_ubertooth` is set only the order counts. -/
theorem streaming_of_stop (hapart : x.ut.fullUsbBuf ≠ x.ut.emptyUsbBuf)
    (htarget : ∀ xfer, x.ut.rxXfer = some xfer → xfer.buffer = x.ut.emptyUsbBuf)
    (horder : x.seen <+: x.received) (hstop : x.ut.stopUbertooth = true) : Streaming x where
  apart := hapart
  target := htarget
  in_order := horder
  emptied h := absurd h (by simp [hstop])
  filled h := absurd h (by simp [hstop])

theorem firstPkts_mono (buf : Buffer) {j k : ℕ} (h : j ≤ k) :
    firstPkts buf j <+: firstPkts buf k :=
  ((List.take_prefix_take_left h).map _).filter _

/-- Going past a block that was received whole, or that reads as a keep-alive. -/
theorem firstPkts_min_succ (buf : Buffer) {n : ℕ}
    (hi : i.val < n ∨ IsKeepAlive (block buf i)) :
    firstPkts buf (min (i.val + 1) n) =
      firstPkts buf (min i.val n) ++ if IsKeepAlive (block buf i) then [] else [block buf i] := by
  rcases Nat.lt_or_ge i.val n with hlt | hge
  · rw [Nat.min_eq_left hlt, Nat.min_eq_left hlt.le, firstPkts_succ]
  · have hkeep : IsKeepAlive (block buf i) := hi.resolve_left (by omega)
    rw [Nat.min_eq_right hge, Nat.min_eq_right (by omega), if_pos hkeep, List.append_nil]

/-- What the callback finds in the ring buffer is the block. -/
theorem seen_advance_block (hphase : x.phase = .block i) (hstop : x.ut.stopUbertooth = false) :
    (streamStep cb x .advance).seen = x.seen ++
      if IsKeepAlive (block (x.ut.mem x.ut.fullUsbBuf) i) then []
      else [block (x.ut.mem x.ut.fullUsbBuf) i] := by
  rw [streamStep_advance_block cb hphase]
  by_cases hkeep : IsKeepAlive (block (x.ut.mem x.ut.fullUsbBuf) i)
  · simp [hkeep]
  · simp [hkeep, hstop, receiveBlock_of_not_keepAlive cb hkeep]

theorem streaming_block (hx : Streaming x) (hphase : x.phase = .block i)
    (he : BlockFresh x .advance) : Streaming (streamStep cb x .advance) := by
  obtain ⟨packets, args, stop, hframe⟩ := receiveBlock_frame cb i x.ut
  cases hstop : x.ut.stopUbertooth with
  | true =>
    rw [streamStep_advance_block cb hphase, hframe]
    refine streaming_of_stop hx.apart hx.target ?_ ?_
    · simpa [hstop] using hx.in_order
    · simp [hstop]
  | false =>
    have hfull := hx.really_full hstop (by simp [hphase])
    obtain ⟨hlength, before, hreceived, hbefore⟩ := hx.filled hstop hfull
    have hfresh : i.val < x.actualLength / pktLen ∨
        IsKeepAlive (block (x.ut.mem x.ut.fullUsbBuf) i) :=
      (he i hphase hstop).imp_left lt_div_pktLen_iff.2
    have hseen : (streamStep cb x .advance).seen = before ++
        firstPkts (x.ut.mem x.ut.fullUsbBuf) (min (i.val + 1) (x.actualLength / pktLen)) := by
      rw [seen_advance_block cb hphase hstop, hbefore, firstPkts_min_succ _ hfresh, hphase,
        Phase.done, List.append_assoc]
    rw [streamStep_advance_block cb hphase, hframe] at hseen ⊢
    refine ⟨hx.apart, hx.target, ?_, fun _ h => ?_, fun _ _ => ?_⟩
    · rw [hseen, hreceived]
      exact (List.prefix_append_right_inj before).2
        (firstPkts_mono _ (Nat.min_le_right _ _))
    · exact absurd (hfull.symm.trans h) (by simp)
    · exact ⟨hlength, before, hreceived, hseen⟩

theorem streaming_stopCheck (hx : Streaming x) (hphase : x.phase = .stopCheck i) :
    Streaming (streamStep cb x .advance) := by
  rw [streamStep_advance_stopCheck cb hphase]
  split
  case isTrue hstop => exact streaming_of_stop hx.apart hx.target hx.in_order hstop
  case isFalse hstop =>
    have hstop : x.ut.stopUbertooth = false := by simpa using hstop
    have hfull := hx.really_full hstop (by simp [hphase])
    obtain ⟨hlength, before, hreceived, hbefore⟩ := hx.filled hstop hfull
    rw [hphase, Phase.done] at hbefore
    split
    case isTrue hnext =>
      refine ⟨hx.apart, hx.target, hx.in_order, fun _ h => ?_, fun _ _ => ?_⟩
      · exact absurd (hfull.symm.trans h) (by simp)
      · exact ⟨hlength, before, hreceived, hbefore⟩
    case isFalse hlast =>
      have hblocks : x.actualLength / pktLen ≤ i.val + 1 :=
        (Nat.div_le_of_le_mul hlength).trans (Nat.le_of_not_lt hlast)
      rw [Nat.min_eq_right hblocks, ← hreceived] at hbefore
      refine ⟨hx.apart, hx.target, hx.in_order, fun _ _ => ⟨rfl, hbefore⟩, fun _ h => ?_⟩
      exact absurd h (by simp)

theorem streaming_receive (hx : Streaming x) : Streaming (streamStep cb x .receive) := by
  dsimp only [streamStep]
  split
  case h_1 hphase =>
    split
    case isTrue hfull =>
      refine ⟨hx.apart, hx.target, hx.in_order, fun _ h => ?_, fun hstop _ => ?_⟩
      · exact absurd (hfull.symm.trans h) (by simp)
      · have hfilled := hx.filled hstop hfull
        rw [hphase] at hfilled
        exact hfilled
    case isFalse => exact hx
  case h_2 => exact hx

theorem streamStep_transfer {status : TransferStatus} {data : List U8} {buffer : RxBuf}
    (hdata : data.length ≤ xferLen)
    (hxfer : x.ut.rxXfer = some { buffer := buffer, submitted := true }) :
    streamStep cb x (.transfer status data hdata accepted) =
      let ut := cbXfer status accepted (libusbReceived buffer data x.ut)
      if status = .completed then
        { x with
          ut := ut
          actualLength := data.length
          received := x.received ++ completePkts data }
      else { x with ut := ut } := by
  simp only [streamStep, hxfer, endTransfer]

theorem streaming_transfer_not_completed (hx : Streaming x) {status : TransferStatus}
    {data : List U8} {buffer : RxBuf} (hs : status ≠ .completed)
    (hxfer : x.ut.rxXfer = some { buffer := buffer, submitted := true }) :
    Streaming { x with ut := cbXfer status accepted (libusbReceived buffer data x.ut) } := by
  obtain ⟨xfer, hend, hxfers⟩ :=
    @cbXfer_of_not_completed _ (libusbReceived buffer data x.ut) accepted _ hs
  have htarget : buffer = x.ut.emptyUsbBuf := hx.target _ hxfer
  have hmem := mem_libusbReceived_of_ne (htarget ▸ hx.apart) data x.ut
  rw [hend]
  refine ⟨hx.apart, fun t ht => ?_, hx.in_order, hx.emptied, fun hstop hfull => ?_⟩
  · obtain ⟨t', ht', hbuffer⟩ := hxfers t ht
    obtain rfl := Option.some.inj ht'
    exact hbuffer.trans htarget
  · have hfilled := hx.filled hstop hfull
    rw [← hmem] at hfilled
    exact hfilled

/-- A transfer completes with the full buffer emptied: the buffers swap, and the packets received
are those to be seen next. -/
theorem streaming_swap (hx : Streaming x) {data : List U8} {buffer : RxBuf}
    (hdata : data.length ≤ xferLen)
    (hxfer : x.ut.rxXfer = some { buffer := buffer, submitted := true })
    (hfull : x.ut.usbReallyFull = false) (hstop : x.ut.stopUbertooth = false) :
    Streaming { x with
      ut := cbXfer .completed accepted (libusbReceived buffer data x.ut)
      actualLength := data.length
      received := x.received ++ completePkts data } := by
  have htarget : buffer = x.ut.emptyUsbBuf := hx.target _ hxfer
  have hpkts : firstPkts ((libusbReceived buffer data x.ut).mem x.ut.emptyUsbBuf)
      (data.length / pktLen) = completePkts data := by
    rw [← htarget, mem_libusbReceived_self, firstPkts_receiveInto _ hdata]
  obtain ⟨hphase, hseen⟩ := hx.emptied hstop hfull
  rw [@cbXfer_swap _ (libusbReceived buffer data x.ut) accepted hfull hstop]
  refine ⟨hx.apart.symm, fun t ht => ?_, ?_, fun _ h => ?_, fun _ _ => ?_⟩
  · obtain rfl := Option.some.inj ht
    rfl
  · exact hx.in_order.trans (List.prefix_append _ _)
  · exact absurd h (by simp)
  · refine ⟨hdata, x.received, ?_, ?_⟩
    · exact congrArg (x.received ++ ·) hpkts.symm
    · rw [hphase, hseen, Phase.done, Nat.zero_min, firstPkts_zero, List.append_nil]

theorem streaming_transfer_completed (hx : Streaming x) {data : List U8} {buffer : RxBuf}
    (hdata : data.length ≤ xferLen)
    (hxfer : x.ut.rxXfer = some { buffer := buffer, submitted := true }) :
    Streaming { x with
      ut := cbXfer .completed accepted (libusbReceived buffer data x.ut)
      actualLength := data.length
      received := x.received ++ completePkts data } := by
  have htarget : buffer = x.ut.emptyUsbBuf := hx.target _ hxfer
  have horder : x.seen <+: x.received ++ completePkts data :=
    hx.in_order.trans (List.prefix_append _ _)
  cases hfull : x.ut.usbReallyFull with
  | true =>
    rw [@cbXfer_of_full _ (libusbReceived buffer data x.ut) accepted hfull]
    refine streaming_of_stop hx.apart (fun t ht => ?_) horder rfl
    obtain rfl := Option.some.inj ht
    exact htarget
  | false =>
    cases hstop : x.ut.stopUbertooth with
    | true =>
      rw [@cbXfer_of_stop _ (libusbReceived buffer data x.ut) accepted hfull hstop]
      refine streaming_of_stop hx.apart (fun t ht => ?_) horder hstop
      obtain rfl := Option.some.inj ht
      exact htarget
    | false => exact streaming_swap accepted hx hdata hxfer hfull hstop

theorem streaming_transfer (hx : Streaming x) (status : TransferStatus) {data : List U8}
    (hdata : data.length ≤ xferLen) :
    Streaming (streamStep cb x (.transfer status data hdata accepted)) := by
  cases hxfer : x.ut.rxXfer with
  | none =>
    simp only [streamStep, hxfer]
    exact hx
  | some xfer =>
    obtain ⟨buffer, submitted⟩ := xfer
    cases submitted with
    | false =>
      simp only [streamStep, hxfer]
      exact hx
    | true =>
      rw [streamStep_transfer accepted cb hdata hxfer]
      by_cases hs : status = .completed
      · subst hs
        exact streaming_transfer_completed accepted hx hdata hxfer
      · dsimp only
        rw [if_neg hs]
        exact streaming_transfer_not_completed accepted hx hs hxfer

theorem streaming_step (hx : Streaming x) (e : StreamEvent) (he : BlockFresh x e) :
    Streaming (streamStep cb x e) := by
  cases e with
  | transfer status data h accepted => exact streaming_transfer accepted cb hx status h
  | receive => exact streaming_receive cb hx
  | advance =>
    cases hphase : x.phase with
    | idle =>
      simp only [streamStep, hphase]
      exact hx
    | block i => exact streaming_block cb hx hphase he
    | stopCheck i => exact streaming_stopCheck cb hx hphase
  | stop => exact streaming_of_stop hx.apart hx.target hx.in_order rfl

/-- A stale block is a packet too many. -/
theorem not_delivers_of_not_blockFresh (hx : Streaming x) {e : StreamEvent}
    (he : ¬BlockFresh x e) : ¬Delivers (streamStep cb x e) := by
  cases e with
  | transfer status data h accepted => exact absurd trivial he
  | receive => exact absurd trivial he
  | stop => exact absurd trivial he
  | advance =>
    simp only [BlockFresh, not_forall, not_or] at he
    obtain ⟨i, hphase, hstop, hstale, hkeep⟩ := he
    have hfull := hx.really_full hstop (by simp [hphase])
    obtain ⟨-, before, hreceived, hbefore⟩ := hx.filled hstop hfull
    have hall : x.actualLength / pktLen ≤ i.val :=
      Nat.le_of_not_lt (lt_div_pktLen_iff.not.2 hstale)
    rw [hphase, Phase.done, Nat.min_eq_right hall, ← hreceived] at hbefore
    have hseen := seen_advance_block cb hphase hstop
    rw [if_neg hkeep, hbefore] at hseen
    intro hdelivers
    have hlength := hdelivers.1.length_le
    rw [hseen, streamStep_advance_block cb hphase, List.length_append] at hlength
    exact absurd hlength (by simp)

/-- **What streaming delivers.** From `ubertooth_bulk_init` on, in a run in which transfers end in
any way, with any number of octets and at any place of the loop, the packets callbacks see until
`stop_ubertooth` is set are at all times the first of those received in completed transfers, in
order and each once, and all of them whenever the full buffer has been emptied, if and only if
every block the loop comes to until then was received whole by the last transfer or reads as a
`KEEP_ALIVE`. -/
theorem delivers_iff (ut : UbertoothT σ) (es : List StreamEvent) :
    Throughout (streamStep cb) Delivers { ut := (ubertoothBulkInit accepted ut).2 } es ↔
      Along (streamStep cb) BlockFresh { ut := (ubertoothBulkInit accepted ut).2 } es := by
  have hstart : Streaming { ut := (ubertoothBulkInit accepted ut).2 } := by
    refine ⟨by simp [ubertoothBulkInit, submitTransfer], fun xfer hxfer => ?_,
      List.prefix_refl _, fun _ _ => ⟨rfl, rfl⟩, fun _ h => absurd h ?_⟩
    · obtain rfl := Option.some.inj hxfer
      rfl
    · simp [ubertoothBulkInit, submitTransfer]
  exact throughout_iff_of_invariant (I := Streaming) (fun _ hx => hx.delivers)
    (fun _ e hx he => streaming_step cb hx e he)
    (fun _ _ hx he => not_delivers_of_not_blockFresh cb hx he) hstart

/-- A transfer that brings `data`, and the call of `ubertooth_bulk_receive` that follows it. -/
def transferAndReceive (data : List U8) (h : data.length ≤ xferLen) : List StreamEvent :=
  .transfer .completed data h true :: .receive :: List.replicate (2 * pktsPerXfer) .advance

/-- Eight packets, then nothing but keep-alives: the second keep-alive comes in the buffer of the
eight packets, and seven of them are delivered again. -/
theorem not_delivers_packets_keepAlive_keepAlive :
    ¬Throughout (streamStep fun _ args => (false, args)) Delivers
      { ut := (ubertoothBulkInit true {
          packets := ringbufferInit (Vector.replicate _ {}) (Vector.replicate _ (.replicate _ 0))
          rxXfer := none
          emptyUsbBuf := .rxBuf1
          fullUsbBuf := .rxBuf2
          usbReallyFull := false
          stopUbertooth := false
          mem := fun _ _ => UsbPktType.keepAlive.toU8
          args := () }).2 }
      (transferAndReceive (List.replicate xferLen UsbPktType.brPacket.toU8)
          List.length_replicate.le ++
        transferAndReceive [UsbPktType.keepAlive.toU8] (by decide) ++
        transferAndReceive [UsbPktType.keepAlive.toU8] (by decide)) := by
  intro h
  have hdelivers := h _ (List.prefix_refl _)
  exact absurd hdelivers.1.length_le (by decide +kernel)

end Ubertooth.Host
