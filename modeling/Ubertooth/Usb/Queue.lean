import Ubertooth.Firmware.UsbQueue
import Ubertooth.Foundations.Ring
import Ubertooth.Foundations.Runs

/-!
# The packet queue

The queue of `ubertooth_usb.c` is a ring of 128 slots between two 32-bit counters that run freely
and wrap; one slot always stays empty. `outstanding` is the list of packets it holds, in order, and
what the functions do is said of that list: `usb_enqueue` reserves the slot after the last one
unless 127 are held (`usbEnqueue_of_lt`, `usbEnqueue_of_full`), `dequeue` takes the first
(`dequeue_of_pos`, `dequeue_of_empty`).

A run of complete calls is described by a `Ledger` of the packets accepted and returned since
`queue_init`, the flags raised since the last packet was accepted, and the calls refused since.
`queue_lossless` says that the queue is a FIFO of capacity 127 that loses nothing and reports its
overflows honestly.
-/

namespace Ubertooth.Usb

open Firmware Foundations

/-! ## The counters -/

instance neZeroSlots : NeZero 128 := ⟨by decide⟩

/-- The number of packets in the queue. -/
def count (q : UsbQueue) : ℕ := (q.tail - q.head).toNat

/-- The packets in the queue, oldest first. -/
def outstanding (q : UsbQueue) : List UsbPktRx := Ring.contents q.fifo q.head.toNat (count q)

@[simp] theorem length_outstanding (q : UsbQueue) : (outstanding q).length = count q :=
  Ring.length_contents _ _ _

theorem outstanding_empty : outstanding {} = [] := by
  apply List.length_eq_zero_iff.1
  rw [length_outstanding]
  decide

theorem toNat_masked (c : U32) : ((c &&& 0x7f).setWidth 8).toNat = c.toNat % 128 := by
  have hand : (c &&& 0x7f).toNat = c.toNat % 128 := by
    rw [BitVec.toNat_and]
    exact Nat.and_two_pow_sub_one_eq_mod c.toNat 7
  rw [BitVec.toNat_setWidth, hand]
  omega

theorem slotOf_eq (c : U32) : slotOf c = Ring.slot c.toNat := by
  apply Fin.ext
  show (c &&& 0x7f).toNat = c.toNat % 128
  rw [BitVec.toNat_and]
  exact Nat.and_two_pow_sub_one_eq_mod c.toNat 7

/-- The counters are the number of packets apart, up to a wrap, which is a whole number of
rings. -/
theorem tail_modEq (q : UsbQueue) : q.tail.toNat ≡ q.head.toNat + count q [MOD 128] := by
  have hhead := q.head.isLt
  have htail := q.tail.isLt
  show q.tail.toNat % 128 = (q.head.toNat + count q) % 128
  rw [count, BitVec.toNat_sub]
  omega

theorem succ_modEq (c : U32) : (c + 1).toNat ≡ c.toNat + 1 [MOD 128] := by
  have hc := c.isLt
  show (c + 1).toNat % 128 = (c.toNat + 1) % 128
  rw [BitVec.toNat_add]
  show (c.toNat + 1) % 2 ^ 32 % 128 = (c.toNat + 1) % 128
  omega

theorem slotOf_tail (q : UsbQueue) : slotOf q.tail = Ring.slot (q.head.toNat + count q) := by
  rw [slotOf_eq]
  exact Fin.ext (tail_modEq q)

/-! ## The queue functions -/

/-- The test of `usb_enqueue` for a full queue. -/
theorem full_iff {q : UsbQueue} (hq : count q ≤ 127) :
    (q.head &&& 0x7f).setWidth 8 = ((q.tail &&& 0x7f).setWidth 8 + 1) &&& (0x7f : U8) ↔
      count q = 127 := by
  have hmod : q.tail.toNat % 128 = (q.head.toNat + count q) % 128 := tail_modEq q
  have hnext : (((q.tail &&& 0x7f).setWidth 8 + 1) &&& (0x7f : U8)).toNat =
      (q.tail.toNat % 128 + 1) % 128 := by
    have hmask : ∀ c : U8, (c &&& 0x7f).toNat = c.toNat % 128 := by
      intro c
      rw [BitVec.toNat_and]
      exact Nat.and_two_pow_sub_one_eq_mod c.toNat 7
    rw [hmask, BitVec.toNat_add, toNat_masked]
    show (q.tail.toNat % 128 + 1) % 2 ^ 8 % 128 = _
    omega
  rw [← BitVec.toNat_inj, toNat_masked, hnext]
  omega

/-- The test of `dequeue` for an empty queue. -/
theorem empty_iff {q : UsbQueue} (hq : count q ≤ 127) :
    ((q.head &&& 0x7f).setWidth 8 : U8) = (q.tail &&& 0x7f).setWidth 8 ↔ count q = 0 := by
  have hmod : q.tail.toNat % 128 = (q.head.toNat + count q) % 128 := tail_modEq q
  rw [← BitVec.toNat_inj, toNat_masked, toNat_masked]
  omega

theorem usbEnqueue_of_full {q : UsbQueue} (hq : count q = 127) : usbEnqueue q = (none, q) :=
  if_pos ((full_iff (by omega)).2 hq)

theorem usbEnqueue_of_lt {q : UsbQueue} (hq : count q < 127) :
    usbEnqueue q =
      (some (Ring.slot (q.head.toNat + count q)), { q with tail := q.tail + 1 }) := by
  have hroom := (full_iff (show count q ≤ 127 by omega)).not.2 (by omega)
  rw [usbEnqueue, if_neg hroom, slotOf_tail]

theorem dequeue_of_empty {q : UsbQueue} (hq : count q = 0) : dequeue q = (none, q) :=
  if_pos ((empty_iff (by omega)).2 hq)

theorem dequeue_of_pos {q : UsbQueue} (hpos : 0 < count q) (hq : count q ≤ 127) :
    dequeue q = (some (Ring.slot q.head.toNat), { q with head := q.head + 1 }) := by
  have hsome := (empty_iff hq).not.2 (by omega)
  rw [dequeue, if_neg hsome, slotOf_eq]

theorem count_succ_tail {q : UsbQueue} (hq : count q < 127) (fifo : Fin 128 → UsbPktRx) :
    count { q with fifo := fifo, tail := q.tail + 1 } = count q + 1 := by
  have hhead := q.head.isLt
  have htail := q.tail.isLt
  have hone : (1 : U32).toNat = 1 := rfl
  show (q.tail + 1 - q.head).toNat = (q.tail - q.head).toNat + 1
  rw [count, BitVec.toNat_sub] at hq
  rw [BitVec.toNat_sub, BitVec.toNat_sub, BitVec.toNat_add, hone]
  omega

theorem count_succ_head {q : UsbQueue} (hpos : 0 < count q) :
    count { q with head := q.head + 1 } = count q - 1 := by
  have hhead := q.head.isLt
  have htail := q.tail.isLt
  have hone : (1 : U32).toNat = 1 := rfl
  show (q.tail - (q.head + 1)).toNat = (q.tail - q.head).toNat - 1
  rw [count, BitVec.toNat_sub] at hpos
  rw [BitVec.toNat_sub, BitVec.toNat_sub, BitVec.toNat_add, hone]
  omega

/-- Reserving a slot and filling it appends a packet. -/
theorem outstanding_push {q : UsbQueue} (hq : count q < 127) (f : UsbPktRx) :
    outstanding { q with
      fifo := Function.update q.fifo (Ring.slot (q.head.toNat + count q)) f
      tail := q.tail + 1 } = outstanding q ++ [f] := by
  unfold outstanding
  rw [count_succ_tail hq]
  exact Ring.contents_push q.fifo q.head.toNat (by omega) f

/-- Taking the oldest slot takes the first packet. -/
theorem outstanding_pop {q : UsbQueue} (hpos : 0 < count q) :
    outstanding q =
      q.fifo (Ring.slot q.head.toNat) :: outstanding { q with head := q.head + 1 } := by
  have hcount : count q = count q - 1 + 1 := by omega
  unfold outstanding
  rw [count_succ_head hpos]
  conv_lhs => rw [hcount, Ring.contents_succ]
  rw [Ring.contents_congr q.fifo (succ_modEq q.head)]

/-! ## The calls that fill the queue -/

/-- A call of `enqueue` or of `enqueue_with_ts`. -/
inductive EnqueueCall
  | plain (type : UsbPktType) (buf : Vector U8 dmaSize)
  | withTs (type : UsbPktType) (buf : Vector U8 dmaSize) (ts : U32)

namespace EnqueueCall

/-- The assignments of the call. -/
def writes : EnqueueCall → List SlotWrite
  | plain type buf => enqueueWrites type buf
  | withTs type buf ts => enqueueWithTsWrites type buf ts

/-- The packet the call puts in the queue, if it does, and the state it leaves. -/
def call (s : Fw) : EnqueueCall → Option UsbPktRx × Fw
  | plain type buf => enqueue type buf s
  | withTs type buf ts => enqueueWithTs type buf ts s

theorem call_eq (s : Fw) (c : EnqueueCall) : c.call s = enqueueSlot c.writes s := by
  cases c <;> rfl

/-- The status byte is stored last. -/
theorem writes_eq (c : EnqueueCall) : ∃ ws, c.writes = ws ++ [.status] := by
  cases c with
  | plain type buf => exact ⟨_, rfl⟩
  | withTs type buf ts => exact ⟨_, rfl⟩

end EnqueueCall

theorem fillSlot_concat (s : Fw) (f : UsbPktRx) (ws : List SlotWrite) (w : SlotWrite) :
    fillSlot s f (ws ++ [w]) = w.apply s (fillSlot s f ws) := by
  simp [fillSlot]

theorem status_fillSlot (s : Fw) (f : UsbPktRx) (c : EnqueueCall) :
    (fillSlot s f c.writes).status = s.status := by
  obtain ⟨ws, hws⟩ := c.writes_eq
  rw [hws, fillSlot_concat]
  rfl

/-- The packet a call makes of the slot it is given. -/
def filled (s : Fw) (c : EnqueueCall) : UsbPktRx :=
  fillSlot s (s.queue.fifo (Ring.slot (s.queue.head.toNat + count s.queue))) c.writes

theorem call_of_full {s : Fw} (c : EnqueueCall) (hq : count s.queue = 127) :
    c.call s = (none, { s with status := s.status ||| StatusFlag.fifoOverflow.mask }) := by
  rw [c.call_eq, enqueueSlot, usbEnqueue_of_full hq]

theorem call_of_lt {s : Fw} (c : EnqueueCall) (hq : count s.queue < 127) :
    c.call s = (some (filled s c), { s with
      queue := { s.queue with
        fifo := Function.update s.queue.fifo
          (Ring.slot (s.queue.head.toNat + count s.queue)) (filled s c)
        tail := s.queue.tail + 1 }
      status := 0 }) := by
  rw [c.call_eq, enqueueSlot, usbEnqueue_of_lt hq]
  rfl

theorem dequeuePkt_of_empty {s : Fw} (hq : count s.queue = 0) : dequeuePkt s = (none, s) := by
  rw [dequeuePkt, dequeue_of_empty hq]

theorem dequeuePkt_of_pos {s : Fw} (hpos : 0 < count s.queue) (hq : count s.queue ≤ 127) :
    dequeuePkt s = (some (s.queue.fifo (Ring.slot s.queue.head.toNat)),
      { s with queue := { s.queue with head := s.queue.head + 1 } }) := by
  rw [dequeuePkt, dequeue_of_pos hpos hq]

/-! ## Unions of flags -/

/-- The status byte with the flags raised. -/
def unionFlags (flags : List StatusFlag) : U8 := flags.foldl (fun u f => u ||| f.mask) 0

theorem unionFlags_concat (flags : List StatusFlag) (f : StatusFlag) :
    unionFlags (flags ++ [f]) = unionFlags flags ||| f.mask := by
  simp [unionFlags]

/-- A flag's bit is set exactly when the flag was raised. -/
theorem unionFlags_and_mask (flags : List StatusFlag) (f : StatusFlag) :
    unionFlags flags &&& f.mask = if f ∈ flags then f.mask else 0 := by
  induction flags using List.reverseRecOn with
  | nil => simp [unionFlags]
  | append_singleton flags g ih =>
    have hdistrib : (unionFlags flags ||| g.mask) &&& f.mask =
        (unionFlags flags &&& f.mask) ||| (g.mask &&& f.mask) := by
      apply BitVec.eq_of_getLsbD_eq
      intro i _
      simp only [BitVec.getLsbD_and, BitVec.getLsbD_or, Bool.and_or_distrib_right]
    rw [unionFlags_concat, hdistrib, ih, StatusFlag.mask_and_mask]
    by_cases hmem : f ∈ flags
    · by_cases hgf : g = f
      · simp [hmem, hgf]
      · simp [hmem, hgf]
    · by_cases hgf : g = f
      · simp [hmem, hgf]
      · have hfg : f ≠ g := fun h => hgf h.symm
        simp [hmem, hgf, hfg]

theorem unionFlags_and_mask_ne_zero_iff (flags : List StatusFlag) (f : StatusFlag) :
    unionFlags flags &&& f.mask ≠ 0 ↔ f ∈ flags := by
  have hmask : f.mask ≠ 0 := by cases f <;> decide
  rw [unionFlags_and_mask]
  split
  case isTrue h => exact iff_of_true hmask h
  case isFalse h => exact iff_of_false (fun h0 => h0 rfl) h

/-! ## Runs -/

/-- What has happened to the queue: the packets accepted and returned since `queue_init`, and the
flags raised and the calls refused since a packet was last accepted. -/
structure Ledger where
  accepted : List UsbPktRx := []
  returned : List UsbPktRx := []
  raised : List StatusFlag := []
  refused : ℕ := 0

structure Traced where
  fw : Fw
  ledger : Ledger := {}

/-- The calls, each complete before the next; `raise` is any other part of the firmware raising a
flag, and `world` anything that touches neither the queue nor the status byte. -/
inductive QueueEvent
  | queueInit
  | raise (flag : StatusFlag) (h : flag ≠ .fifoOverflow)
  | enqueue (c : EnqueueCall)
  | dequeue
  | world (s : Fw)

def queueStep (x : Traced) : QueueEvent → Traced
  | .queueInit => ⟨queueInit x.fw, { x.ledger with accepted := [], returned := [] }⟩
  | .raise flag _ =>
    ⟨{ x.fw with status := x.fw.status ||| flag.mask },
      { x.ledger with raised := x.ledger.raised ++ [flag] }⟩
  | .enqueue c =>
    match c.call x.fw with
    | (some f, s) =>
      ⟨s, { x.ledger with accepted := x.ledger.accepted ++ [f], raised := [], refused := 0 }⟩
    | (none, s) =>
      ⟨s, { x.ledger with
        raised := x.ledger.raised ++ [.fifoOverflow]
        refused := x.ledger.refused + 1 }⟩
  | .dequeue =>
    match dequeuePkt x.fw with
    | (some f, s) => ⟨s, { x.ledger with returned := x.ledger.returned ++ [f] }⟩
    | (none, s) => ⟨s, x.ledger⟩
  | .world s => ⟨{ s with queue := x.fw.queue, status := x.fw.status }, x.ledger⟩

/-- The queue holds what was accepted and not yet returned, and the status byte the flags. -/
structure Balanced (x : Traced) : Prop where
  count_le : count x.fw.queue ≤ 127
  accepted : x.ledger.accepted = x.ledger.returned ++ outstanding x.fw.queue
  status : x.fw.status = unionFlags x.ledger.raised
  refused : .fifoOverflow ∈ x.ledger.raised ↔ 0 < x.ledger.refused

theorem balanced_enqueue {x : Traced} (hx : Balanced x) (c : EnqueueCall) :
    Balanced (queueStep x (.enqueue c)) := by
  dsimp only [queueStep]
  rcases Nat.lt_or_ge (count x.fw.queue) 127 with hlt | hge
  · rw [call_of_lt c hlt]
    refine ⟨?_, ?_, rfl, by simp⟩
    · exact (count_succ_tail hlt _).trans_le (by omega)
    · show x.ledger.accepted ++ [filled x.fw c] = x.ledger.returned ++ outstanding _
      rw [outstanding_push hlt, hx.accepted, List.append_assoc]
  · rw [call_of_full c (Nat.le_antisymm hx.count_le hge)]
    refine ⟨hx.count_le, hx.accepted, ?_, by simp⟩
    show x.fw.status ||| StatusFlag.fifoOverflow.mask = unionFlags (x.ledger.raised ++ _)
    rw [unionFlags_concat, hx.status]

/-- A call that is not refused has its packet accepted. -/
theorem accepted_enqueue {x : Traced} (hx : Balanced x) {c : EnqueueCall}
    (h : (queueStep x (.enqueue c)).ledger.refused ≤ x.ledger.refused) :
    (queueStep x (.enqueue c)).ledger.accepted = x.ledger.accepted ++ [filled x.fw c] := by
  dsimp only [queueStep] at h ⊢
  rcases Nat.lt_or_ge (count x.fw.queue) 127 with hlt | hge
  · rw [call_of_lt c hlt]
  · rw [call_of_full c (Nat.le_antisymm hx.count_le hge)] at h
    exact absurd h (Nat.not_succ_le_self _)

theorem balanced_dequeue {x : Traced} (hx : Balanced x) : Balanced (queueStep x .dequeue) := by
  dsimp only [queueStep]
  rcases Nat.eq_zero_or_pos (count x.fw.queue) with hzero | hpos
  · rw [dequeuePkt_of_empty hzero]
    exact hx
  · rw [dequeuePkt_of_pos hpos hx.count_le]
    refine ⟨?_, ?_, hx.status, hx.refused⟩
    · exact (count_succ_head hpos).trans_le (by have := hx.count_le; omega)
    · show x.ledger.accepted = x.ledger.returned ++ [_] ++ outstanding _
      rw [hx.accepted, outstanding_pop hpos, List.append_assoc]
      rfl

theorem balanced_step {x : Traced} (hx : Balanced x) (e : QueueEvent) :
    Balanced (queueStep x e) := by
  cases e with
  | queueInit =>
    have hempty : count {} ≤ 127 := by decide
    refine ⟨hempty, ?_, hx.status, hx.refused⟩
    show [] = [] ++ outstanding {}
    rw [outstanding_empty, List.nil_append]
  | raise flag h =>
    refine ⟨hx.count_le, hx.accepted, ?_, ?_⟩
    · show x.fw.status ||| flag.mask = unionFlags (x.ledger.raised ++ [flag])
      rw [unionFlags_concat, hx.status]
    · show StatusFlag.fifoOverflow ∈ x.ledger.raised ++ [flag] ↔ 0 < x.ledger.refused
      rw [List.mem_append, List.mem_singleton, or_iff_left fun hf => h hf.symm]
      exact hx.refused
  | enqueue c => exact balanced_enqueue hx c
  | dequeue => exact balanced_dequeue hx
  | world s => exact ⟨hx.count_le, hx.accepted, hx.status, hx.refused⟩

theorem balanced_run (es : List QueueEvent) : Balanced (run queueStep ⟨powerOn, {}⟩ es) := by
  have hstart : Balanced ⟨powerOn, {}⟩ := ⟨by decide, outstanding_empty.symm, rfl, by simp⟩
  exact run_invariant (I := Balanced) (C := fun _ _ => True)
    (fun _ e hx _ => balanced_step hx e) hstart (along_of_forall fun _ _ => trivial)

/-! ## What a balanced queue does next -/

namespace Balanced

variable {x : Traced}

theorem length_accepted (hx : Balanced x) :
    x.ledger.accepted.length = x.ledger.returned.length + count x.fw.queue := by
  rw [hx.accepted, List.length_append, length_outstanding]

/-- The next packet returned is the first accepted and not yet returned. -/
theorem dequeuePkt_eq (hx : Balanced x) :
    (dequeuePkt x.fw).1 = x.ledger.accepted[x.ledger.returned.length]? := by
  have hlength := hx.length_accepted
  rcases Nat.eq_zero_or_pos (count x.fw.queue) with hzero | hpos
  · rw [dequeuePkt_of_empty hzero, List.getElem?_eq_none (by omega)]
  · rw [dequeuePkt_of_pos hpos hx.count_le, hx.accepted, outstanding_pop hpos]
    simp

theorem call_eq_none_iff (hx : Balanced x) (c : EnqueueCall) :
    (c.call x.fw).1 = none ↔ x.ledger.accepted.length = x.ledger.returned.length + 127 := by
  rw [hx.length_accepted]
  rcases Nat.lt_or_ge (count x.fw.queue) 127 with hlt | hge
  · rw [call_of_lt c hlt]
    exact iff_of_false (by simp) (by omega)
  · have hfull := Nat.le_antisymm hx.count_le hge
    rw [call_of_full c hfull]
    exact iff_of_true rfl (by omega)

theorem status_of_accepted (hx : Balanced x) {c : EnqueueCall} {f : UsbPktRx}
    (hf : (c.call x.fw).1 = some f) : f.status = unionFlags x.ledger.raised := by
  rcases Nat.lt_or_ge (count x.fw.queue) 127 with hlt | hge
  · rw [call_of_lt c hlt] at hf
    obtain rfl := Option.some.inj hf
    exact (status_fillSlot _ _ c).trans hx.status
  · rw [call_of_full c (Nat.le_antisymm hx.count_le hge)] at hf
    exact absurd hf (by simp)

end Balanced

/-- **The queue loses nothing.** After any run of complete calls from power on, the packets
returned are the first ones accepted, in order, and the next call of `dequeue` returns the next of
them if there is one; a call of `enqueue` or `enqueue_with_ts` is refused exactly when 127 accepted
packets have not been returned; and a packet accepted carries the union of the flags raised since
the one accepted before, among them `FIFO_OVERFLOW` exactly if a call was refused in between. -/
theorem queue_lossless (es : List QueueEvent) :
    let x := run queueStep ⟨powerOn, {}⟩ es
    x.ledger.returned <+: x.ledger.accepted ∧
      (dequeuePkt x.fw).1 = x.ledger.accepted[x.ledger.returned.length]? ∧
      (∀ c : EnqueueCall, (c.call x.fw).1 = none ↔
        x.ledger.accepted.length = x.ledger.returned.length + 127) ∧
      ∀ (c : EnqueueCall) (f : UsbPktRx), (c.call x.fw).1 = some f →
        f.status = unionFlags x.ledger.raised ∧
          (f.status &&& StatusFlag.fifoOverflow.mask ≠ 0 ↔ 0 < x.ledger.refused) := by
  intro x
  have hx : Balanced x := balanced_run es
  refine ⟨?_, hx.dequeuePkt_eq, hx.call_eq_none_iff, fun c f hf => ?_⟩
  · rw [hx.accepted]
    exact List.prefix_append _ _
  · have hstatus := hx.status_of_accepted hf
    refine ⟨hstatus, ?_⟩
    rw [hstatus, unionFlags_and_mask_ne_zero_iff]
    exact hx.refused

end Ubertooth.Usb
