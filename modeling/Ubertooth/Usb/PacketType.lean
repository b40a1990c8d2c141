import Ubertooth.Usb.Queue

/-!
# The packet type of a reused slot

`enqueue` and `enqueue_with_ts` fill slots of one ring, which are reused without being cleared.
`enqueue` stores its argument `type` in the slot (`pktType_filled_plain`); `enqueue_with_ts` stores
every field but that one, so the octet is the one the slot held before (`pktType_filled_withTs`).

A history of the queue is told with the call that produced each packet and the octet its slot held
before the call. `dequeued_type_iff` says exactly when every packet returned carries the type it was
enqueued with.
-/

namespace Ubertooth.Usb

open Firmware Foundations

/-! ## What the two producers store -/

/-- The argument `type` of the call. -/
def EnqueueCall.type : EnqueueCall → UsbPktType
  | plain type _ => type
  | withTs type _ _ => type

/-- Only one kind of assignment touches the packet type. -/
theorem pktType_apply (s : Fw) (f : UsbPktRx) {w : SlotWrite} (hw : ∀ type, w ≠ .pktType type) :
    (w.apply s f).pktType = f.pktType := by
  cases w with
  | pktType type => exact absurd rfl (hw type)
  | _ => rfl

theorem pktType_fillSlot (s : Fw) (f : UsbPktRx) {ws : List SlotWrite}
    (hws : ∀ w ∈ ws, ∀ type, w ≠ .pktType type) : (fillSlot s f ws).pktType = f.pktType := by
  induction ws generalizing f with
  | nil => rfl
  | cons w ws ih =>
    have hrest : (fillSlot s (w.apply s f) ws).pktType = (w.apply s f).pktType :=
      ih (w.apply s f) fun v hv => hws v (List.mem_cons_of_mem w hv)
    exact hrest.trans (pktType_apply s f (hws w List.mem_cons_self))

theorem dataWrites_ne_pktType (buf : Vector U8 dmaSize) :
    ∀ w ∈ dataWrites buf, ∀ type, w ≠ .pktType type := by
  intro w hw type
  obtain ⟨i, -, rfl⟩ := List.mem_map.1 hw
  simp

theorem pktType_enqueueWrites (s : Fw) (f : UsbPktRx) (type : UsbPktType)
    (buf : Vector U8 dmaSize) : (fillSlot s f (enqueueWrites type buf)).pktType = type.toU8 := by
  have hrest : ∀ w ∈ (if type = .specan then [SlotWrite.clknHigh .now, .clk100ns .now]
      else [.clknHigh .idleBuf, .clk100ns .idleBuf, .channelIdleBuf, .rssiMin, .rssiMax,
        .rssiAvg, .rssiCount]) ++ dataWrites buf ++ [.status],
      ∀ type, w ≠ .pktType type := by
    intro w hw
    simp only [List.mem_append, List.mem_singleton, or_assoc] at hw
    obtain hw | hw | rfl := hw
    · split at hw <;> simp only [List.mem_cons, List.not_mem_nil, or_false] at hw <;>
        rcases hw with rfl | rfl | rfl | rfl | rfl | rfl | rfl <;> simp
    · exact dataWrites_ne_pktType buf w hw
    · simp
  exact pktType_fillSlot s (SlotWrite.apply s f (.pktType type)) hrest

theorem pktType_enqueueWithTsWrites (s : Fw) (f : UsbPktRx) (type : UsbPktType)
    (buf : Vector U8 dmaSize) (ts : U32) :
    (fillSlot s f (enqueueWithTsWrites type buf ts)).pktType = f.pktType := by
  apply pktType_fillSlot
  intro w hw
  simp only [enqueueWithTsWrites, List.mem_append, List.mem_singleton, or_assoc] at hw
  obtain hw | hw | rfl := hw
  · simp only [List.mem_cons, List.not_mem_nil, or_false] at hw
    rcases hw with rfl | rfl | rfl | rfl | rfl <;> simp
  · exact dataWrites_ne_pktType buf w hw
  · simp

/-! ## Histories -/

/-- An accepted call, with the packet type its slot held before. -/
structure Producer where
  call : EnqueueCall
  old : U8

/-- The packet type the call leaves in its slot. -/
def Producer.stored (p : Producer) : U8 :=
  match p.call with
  | .plain type _ => type.toU8
  | .withTs _ _ _ => p.old

/-- The call is one of `enqueue`, or its slot held the type already. -/
def Producer.TypeInSlot (p : Producer) : Prop :=
  match p.call with
  | .plain _ _ => True
  | .withTs type _ _ => p.old = type.toU8

theorem Producer.stored_eq_iff (p : Producer) : p.stored = p.call.type.toU8 ↔ p.TypeInSlot := by
  obtain ⟨call, old⟩ := p
  cases call with
  | plain type buf => exact iff_of_true rfl trivial
  | withTs type buf ts => exact Iff.rfl

/-- A queue with the calls that produced the packets accepted since `queue_init`, in order. -/
structure Produced where
  traced : Traced
  producers : List Producer := []

/-- A call is entered with the packet type of the slot `usb_enqueue` gives it. -/
def producersStep (x : Produced) : QueueEvent → List Producer
  | .queueInit => []
  | .enqueue c =>
    match usbEnqueue x.traced.fw.queue with
    | (some i, _) => x.producers ++ [⟨c, (x.traced.fw.queue.fifo i).pktType⟩]
    | (none, _) => x.producers
  | _ => x.producers

def producedStep (x : Produced) (e : QueueEvent) : Produced :=
  ⟨queueStep x.traced e, producersStep x e⟩

/-- The call that produced the packet the next `dequeue` returns. -/
def nextProducer (x : Produced) : Option Producer :=
  x.producers[x.traced.ledger.returned.length]?

/-- If the event returns a packet, it was produced by some call and carries the type of that
call. -/
def TypeKept (x : Produced) : QueueEvent → Prop
  | .dequeue => ∀ f, (dequeuePkt x.traced.fw).1 = some f →
    ∃ p, nextProducer x = some p ∧ f.pktType = p.call.type.toU8
  | _ => True

/-- The packets `dequeue` returns were produced by `enqueue`, or by `enqueue_with_ts` in a slot that
held their type already. -/
def FromTypedSlot (x : Produced) : QueueEvent → Prop
  | .dequeue => ∀ p, nextProducer x = some p → p.TypeInSlot
  | _ => True

/-! ## The packets accepted and their producers -/

/-- The packets accepted carry the types their producers stored. -/
structure Attributed (x : Produced) : Prop where
  balanced : Balanced x.traced
  stored : x.traced.ledger.accepted.map UsbPktRx.pktType = x.producers.map Producer.stored

theorem pktType_filled (s : Fw) (c : EnqueueCall) :
    (filled s c).pktType = Producer.stored
      ⟨c, (s.queue.fifo (Ring.slot (s.queue.head.toNat + count s.queue))).pktType⟩ := by
  cases c with
  | plain type buf => exact pktType_enqueueWrites s _ type buf
  | withTs type buf ts => exact pktType_enqueueWithTsWrites s _ type buf ts

theorem attributed_enqueue {x : Produced} (hx : Attributed x) (c : EnqueueCall) :
    Attributed (producedStep x (.enqueue c)) := by
  refine ⟨balanced_enqueue hx.balanced c, ?_⟩
  dsimp only [producedStep, producersStep, queueStep]
  rcases Nat.lt_or_ge (count x.traced.fw.queue) 127 with hlt | hge
  · rw [call_of_lt c hlt, usbEnqueue_of_lt hlt]
    simp only [List.map_append, List.map_cons, List.map_nil, hx.stored, pktType_filled]
  · have hfull := Nat.le_antisymm hx.balanced.count_le hge
    rw [call_of_full c hfull, usbEnqueue_of_full hfull]
    exact hx.stored

theorem attributed_dequeue {x : Produced} (hx : Attributed x) :
    Attributed (producedStep x .dequeue) := by
  refine ⟨balanced_dequeue hx.balanced, ?_⟩
  have haccepted : (queueStep x.traced .dequeue).ledger.accepted = x.traced.ledger.accepted := by
    dsimp only [queueStep]
    split <;> rfl
  show (queueStep x.traced .dequeue).ledger.accepted.map UsbPktRx.pktType = _
  rw [haccepted]
  exact hx.stored

theorem attributed_step {x : Produced} (hx : Attributed x) (e : QueueEvent) :
    Attributed (producedStep x e) := by
  cases e with
  | queueInit => exact ⟨balanced_step hx.balanced .queueInit, rfl⟩
  | raise flag h => exact ⟨balanced_step hx.balanced (.raise flag h), hx.stored⟩
  | enqueue c => exact attributed_enqueue hx c
  | dequeue => exact attributed_dequeue hx
  | world s => exact ⟨balanced_step hx.balanced (.world s), hx.stored⟩

theorem attributed_start : Attributed ⟨⟨powerOn, {}⟩, []⟩ := ⟨balanced_run [], rfl⟩

namespace Attributed

variable {x : Produced}

/-- The packet returned next carries what its producer stored. -/
theorem dequeuePkt_pktType (hx : Attributed x) :
    (dequeuePkt x.traced.fw).1.map UsbPktRx.pktType =
      (nextProducer x).map Producer.stored := by
  rw [hx.balanced.dequeuePkt_eq, nextProducer, ← List.getElem?_map, ← List.getElem?_map, hx.stored]

theorem typeKept_iff (hx : Attributed x) (e : QueueEvent) : TypeKept x e ↔ FromTypedSlot x e := by
  cases e with
  | dequeue =>
    have hnext := hx.dequeuePkt_pktType
    dsimp only [TypeKept, FromTypedSlot]
    cases hf : (dequeuePkt x.traced.fw).1 with
    | none =>
      have hnone : nextProducer x = none := by simpa [hf] using hnext.symm
      simp [hnone]
    | some f =>
      rw [hf] at hnext
      obtain ⟨p, hp, hstored⟩ := Option.map_eq_some_iff.1 hnext.symm
      simp only [hp, Option.some.injEq, forall_eq', exists_eq_left', ← hstored]
      exact p.stored_eq_iff
  | _ => exact Iff.rfl

end Attributed

/-- **Packet types through the queue.** In every history from power on, all packets returned carry
the type of the call that produced them exactly when none of them comes from `enqueue_with_ts` in a
slot that held another type. -/
theorem dequeued_type_iff (es : List QueueEvent) :
    Along producedStep TypeKept ⟨⟨powerOn, {}⟩, []⟩ es ↔
      Along producedStep FromTypedSlot ⟨⟨powerOn, {}⟩, []⟩ es :=
  along_iff_of_invariant (I := Attributed) (fun _ e hx => attributed_step hx e)
    (fun _ e hx => hx.typeKept_iff e) attributed_start

/-- An E-GO packet captured after power on comes out as `BR_PACKET`. -/
theorem not_typeKept_egoPacket :
    ¬Along producedStep TypeKept ⟨⟨powerOn, {}⟩, []⟩
      [.enqueue (.withTs .egoPacket (Vector.replicate dmaSize 0) 0), .dequeue] := by
  rintro ⟨-, h, -⟩
  obtain ⟨p, hp, htype⟩ := h _ rfl
  obtain rfl := Option.some.inj hp
  exact absurd htype (by decide +kernel)

end Ubertooth.Usb
