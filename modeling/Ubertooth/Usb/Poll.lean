import Ubertooth.Usb.Queue

/-!
# Polling while a slot is being filled

In the LE modes `UBERTOOTH_POLL` takes packets out of the queue in the USB interrupt, while the
main loop may be anywhere inside `enqueue`. `usb_enqueue` moves `tail` past the slot it reserves, so
the slot can be polled before its fields are written. `Loop` is the main loop with the slot it is
filling and the assignments still to make, and a step makes one of them; uninterrupted, the steps
are the call (`run_reserve_write`).

`polled_prefix_iff`: the packets polled are the packets completed, in order and without a gap, as
long as no poll meets a slot being filled that is the only one in the queue, and only as long.
-/

namespace Ubertooth.Usb

open Firmware Foundations

/-! ## The main loop -/

/-- The firmware, with the slot being filled and the assignments left, the contents of the packets
completed, and the packets polled. -/
structure Loop where
  fw : Fw
  filling : Option (Fin 128 × List SlotWrite) := none
  completed : List UsbPktRx := []
  polled : List UsbPktRx := []

inductive LoopEvent
  /-- a call of `enqueue` or `enqueue_with_ts` reserves its slot -/
  | reserve (c : EnqueueCall)
  /-- the call makes its next assignment; after the last one it clears the status byte -/
  | write
  /-- `UBERTOOTH_POLL` -/
  | poll
  /-- anything else happens that does not touch the queue -/
  | world (s : Fw)

/-- The slot `i` assigned to. -/
def assign (s : Fw) (i : Fin 128) (w : SlotWrite) : Fw :=
  { s with queue := { s.queue with
    fifo := Function.update s.queue.fifo i (w.apply s (s.queue.fifo i)) } }

def loopStep (x : Loop) : LoopEvent → Loop
  | .reserve c =>
    match x.filling with
    | some _ => x
    | none =>
      match usbEnqueue x.fw.queue with
      | (none, q) =>
        { x with fw := { x.fw with
          queue := q
          status := x.fw.status ||| StatusFlag.fifoOverflow.mask } }
      | (some i, q) => { x with fw := { x.fw with queue := q }, filling := some (i, c.writes) }
  | .write =>
    match x.filling with
    | none => x
    | some (_, []) => x
    | some (i, [w]) =>
      { x with
        fw := { assign x.fw i w with status := 0 }
        filling := none
        completed := x.completed ++ [w.apply x.fw (x.fw.queue.fifo i)] }
    | some (i, w :: v :: ws) => { x with fw := assign x.fw i w, filling := some (i, v :: ws) }
  | .poll =>
    match dequeuePkt x.fw with
    | (none, s) => { x with fw := s }
    | (some f, s) => { x with fw := s, polled := x.polled ++ [f] }
  | .world s => { x with fw := { s with queue := x.fw.queue } }

/-- The content of the slot once it has been assigned to. -/
theorem fifo_assign (s : Fw) (i : Fin 128) (w : SlotWrite) :
    (assign s i w).queue.fifo i = w.apply s (s.queue.fifo i) := by
  simp [assign]

/-! ## Uninterrupted, the steps are the call -/

/-- What is assigned does not depend on the queue. -/
theorem apply_withQueue (s : Fw) (q : UsbQueue) (f : UsbPktRx) (w : SlotWrite) :
    w.apply { s with queue := q } f = w.apply s f := by
  cases w with
  | clknHigh c => cases c <;> rfl
  | clk100ns c => cases c <;> rfl
  | _ => rfl

theorem fillSlot_withQueue (s : Fw) (q : UsbQueue) (f : UsbPktRx) (ws : List SlotWrite) :
    fillSlot { s with queue := q } f ws = fillSlot s f ws := by
  induction ws generalizing f with
  | nil => rfl
  | cons w ws ih =>
    show fillSlot { s with queue := q } (w.apply { s with queue := q } f) ws =
      fillSlot s (w.apply s f) ws
    rw [apply_withQueue, ih]

/-- The assignments left, made one after the other, fill the slot. -/
theorem run_write {x : Loop} {i : Fin 128} {w : SlotWrite} {ws : List SlotWrite}
    (hx : x.filling = some (i, w :: ws)) :
    run loopStep x (List.replicate (w :: ws).length .write) = { x with
      fw := { x.fw with
        queue := { x.fw.queue with
          fifo := Function.update x.fw.queue.fifo i (fillSlot x.fw (x.fw.queue.fifo i) (w :: ws)) }
        status := 0 }
      filling := none
      completed := x.completed ++ [fillSlot x.fw (x.fw.queue.fifo i) (w :: ws)] } := by
  induction ws generalizing x w with
  | nil =>
    have hstep : loopStep x .write = { x with
        fw := { assign x.fw i w with status := 0 }
        filling := none
        completed := x.completed ++ [w.apply x.fw (x.fw.queue.fifo i)] } := by
      dsimp only [loopStep]
      rw [hx]
    show loopStep x .write = _
    rw [hstep]
    rfl
  | cons v ws ih =>
    have hstep : loopStep x .write =
        { x with fw := assign x.fw i w, filling := some (i, v :: ws) } := by
      dsimp only [loopStep]
      rw [hx]
    have hrest := @ih { x with fw := assign x.fw i w, filling := some (i, v :: ws) } v rfl
    have hfill : fillSlot (assign x.fw i w) ((assign x.fw i w).queue.fifo i) (v :: ws) =
        fillSlot x.fw (x.fw.queue.fifo i) (w :: v :: ws) := by
      rw [fifo_assign]
      exact fillSlot_withQueue x.fw _ _ (v :: ws)
    rw [List.length_cons, List.replicate_succ, run_cons, hstep, hrest, hfill]
    simp [assign, Function.update_idem]

/-- **Uninterrupted, the steps are the call.** A slot reserved and all its assignments, with
nothing in between, leave what the call leaves, and complete the packet it puts in the queue. -/
theorem run_reserve_write {x : Loop} (c : EnqueueCall) (hx : x.filling = none)
    (hq : count x.fw.queue < 127) :
    run loopStep x (.reserve c :: List.replicate c.writes.length .write) = { x with
      fw := (c.call x.fw).2
      completed := x.completed ++ [filled x.fw c] } := by
  have hreserve : loopStep x (.reserve c) = { x with
      fw := { x.fw with queue := { x.fw.queue with tail := x.fw.queue.tail + 1 } }
      filling :=
        some (Ring.slot (x.fw.queue.head.toNat + count x.fw.queue), c.writes) } := by
    dsimp only [loopStep]
    rw [hx, usbEnqueue_of_lt hq]
  cases hw : c.writes with
  | nil =>
    obtain ⟨ws, hws⟩ := c.writes_eq
    rw [hw] at hws
    exact absurd hws.symm (by simp)
  | cons w ws =>
    rw [hw] at hreserve
    rw [run_cons, hreserve, run_write rfl, call_of_lt c hq, filled, hw]
    simp only [fillSlot_withQueue, hx]

/-! ## The invariant -/

/-- A poll that falls inside a call finds an earlier packet in the queue. -/
def PollSafe (x : Loop) : LoopEvent → Prop
  | .poll => x.filling ≠ none → 1 < count x.fw.queue
  | _ => True

instance (x : Loop) : (e : LoopEvent) → Decidable (PollSafe x e)
  | .poll => inferInstanceAs (Decidable (_ → _))
  | .reserve _ | .write | .world _ => inferInstanceAs (Decidable True)

/-- The packets in the queue before the slot reserved last. -/
def settled (q : UsbQueue) : List UsbPktRx :=
  Ring.contents q.fifo q.head.toNat (count q - 1)

/-- Between calls the queue holds what was completed and not yet polled; inside a call it holds
that and, last, the slot being filled. -/
structure Consistent (x : Loop) : Prop where
  count_le : count x.fw.queue ≤ 127
  idle : x.filling = none → x.completed = x.polled ++ outstanding x.fw.queue
  busy : ∀ i ws, x.filling = some (i, ws) → ws ≠ [] ∧ 0 < count x.fw.queue ∧
    i = Ring.slot (x.fw.queue.head.toNat + (count x.fw.queue - 1)) ∧
    x.completed = x.polled ++ settled x.fw.queue

variable {x : Loop}

theorem consistent_reserve (hx : Consistent x) (c : EnqueueCall) :
    Consistent (loopStep x (.reserve c)) := by
  dsimp only [loopStep]
  cases hf : x.filling with
  | some a => exact hx
  | none =>
    have hidle := hx.idle hf
    rcases Nat.lt_or_ge (count x.fw.queue) 127 with hlt | hge
    · have hcount := count_succ_tail hlt x.fw.queue.fifo
      rw [usbEnqueue_of_lt hlt]
      refine ⟨?_, fun h => absurd h (by simp), fun i ws h => ?_⟩
      · exact hcount.trans_le hlt
      · obtain ⟨rfl, rfl⟩ := Prod.mk.inj (Option.some.inj h)
        have hne : c.writes ≠ [] := by
          obtain ⟨ws, hws⟩ := c.writes_eq
          rw [hws]
          simp
        refine ⟨hne, ?_, ?_, ?_⟩
        · exact Nat.lt_of_lt_of_eq (Nat.succ_pos _) hcount.symm
        · show _ = Ring.slot (x.fw.queue.head.toNat +
            (count { x.fw.queue with tail := x.fw.queue.tail + 1 } - 1))
          rw [hcount, Nat.add_sub_cancel]
        · show x.completed = x.polled ++ Ring.contents x.fw.queue.fifo x.fw.queue.head.toNat
            (count { x.fw.queue with tail := x.fw.queue.tail + 1 } - 1)
          rw [hcount, Nat.add_sub_cancel]
          exact hidle
    · rw [usbEnqueue_of_full (Nat.le_antisymm hx.count_le hge)]
      exact ⟨hx.count_le, fun _ => hidle, fun i ws h => absurd h (by simp)⟩

/-- An assignment to the slot reserved last leaves the packets before it. -/
theorem settled_assign {s : Fw} (hq : count s.queue ≤ 127) (hpos : 0 < count s.queue)
    (w : SlotWrite) :
    settled (assign s (Ring.slot (s.queue.head.toNat + (count s.queue - 1))) w).queue =
      settled s.queue :=
  Ring.contents_update_of_le s.queue.fifo s.queue.head.toNat (Nat.le_refl _) (by omega) _

/-- The last assignment adds its packet to those before it. -/
theorem outstanding_assign {s : Fw} (hq : count s.queue ≤ 127) (hpos : 0 < count s.queue)
    (w : SlotWrite) :
    outstanding (assign s (Ring.slot (s.queue.head.toNat + (count s.queue - 1))) w).queue =
      settled s.queue ++ [w.apply s
        (s.queue.fifo (Ring.slot (s.queue.head.toNat + (count s.queue - 1))))] := by
  have hcount : count s.queue = count s.queue - 1 + 1 := by omega
  show Ring.contents _ s.queue.head.toNat (count s.queue) = _
  conv_lhs => rw [hcount]
  exact Ring.contents_push s.queue.fifo s.queue.head.toNat (by omega) _

theorem consistent_write (hx : Consistent x) : Consistent (loopStep x .write) := by
  dsimp only [loopStep]
  split
  case h_1 => exact hx
  case h_2 => exact hx
  case h_3 i w hf =>
    obtain ⟨-, hpos, rfl, hcompleted⟩ := hx.busy _ _ hf
    refine ⟨hx.count_le, fun _ => ?_, fun i ws h => absurd h (by simp)⟩
    show x.completed ++ [_] = x.polled ++ outstanding (assign x.fw _ w).queue
    rw [outstanding_assign hx.count_le hpos, hcompleted, List.append_assoc]
  case h_4 i w v ws hf =>
    obtain ⟨-, hpos, rfl, hcompleted⟩ := hx.busy _ _ hf
    refine ⟨hx.count_le, fun h => absurd h (by simp), fun j us h => ?_⟩
    obtain ⟨rfl, rfl⟩ := Prod.mk.inj (Option.some.inj h)
    refine ⟨by simp, hpos, rfl, ?_⟩
    show x.completed = x.polled ++ settled (assign x.fw _ w).queue
    rw [settled_assign hx.count_le hpos]
    exact hcompleted

/-- Polling the first of several packets before a slot being filled takes it from those. -/
theorem settled_pop {q : UsbQueue} (hq : 1 < count q) :
    settled q =
      q.fifo (Ring.slot q.head.toNat) :: settled { q with head := q.head + 1 } := by
  have hpop := count_succ_head (q := q) (by omega)
  have hcount : count q - 1 = count q - 1 - 1 + 1 := by omega
  unfold settled
  rw [hpop]
  conv_lhs => rw [hcount, Ring.contents_succ]
  rw [Ring.contents_congr q.fifo (succ_modEq q.head)]

theorem consistent_poll (hx : Consistent x) (he : PollSafe x .poll) :
    Consistent (loopStep x .poll) := by
  dsimp only [loopStep]
  rcases Nat.eq_zero_or_pos (count x.fw.queue) with hzero | hpos
  · rw [dequeuePkt_of_empty hzero]
    exact hx
  · have hcount := count_succ_head hpos
    have hle := hx.count_le
    rw [dequeuePkt_of_pos hpos hle]
    refine ⟨?_, fun hf => ?_, fun i ws hf => ?_⟩
    · exact hcount.trans_le (by omega)
    · show x.completed = x.polled ++ [_] ++ outstanding _
      rw [hx.idle hf, outstanding_pop hpos, List.append_assoc]
      rfl
    · obtain ⟨hne, -, hi, hcompleted⟩ := hx.busy i ws hf
      have hmore : 1 < count x.fw.queue := he (by rw [show x.filling = _ from hf]; simp)
      refine ⟨hne, ?_, ?_, ?_⟩
      · exact Nat.lt_of_lt_of_eq (by omega) hcount.symm
      · rw [hi]
        apply Fin.ext
        have hsucc : (x.fw.queue.head + 1).toNat % 128 = (x.fw.queue.head.toNat + 1) % 128 :=
          succ_modEq x.fw.queue.head
        have hslot : (x.fw.queue.head.toNat + (count x.fw.queue - 1)) % 128 =
            ((x.fw.queue.head + 1).toNat + (count x.fw.queue - 1 - 1)) % 128 := by omega
        exact hslot.trans (congrArg (fun n => ((x.fw.queue.head + 1).toNat + (n - 1)) % 128)
          hcount.symm)
      · show x.completed = x.polled ++ [_] ++ settled _
        rw [hcompleted, settled_pop hmore, List.append_assoc]
        rfl

theorem consistent_step (hx : Consistent x) (e : LoopEvent) (he : PollSafe x e) :
    Consistent (loopStep x e) := by
  cases e with
  | reserve c => exact consistent_reserve hx c
  | write => exact consistent_write hx
  | poll => exact consistent_poll hx he
  | world s => exact ⟨hx.count_le, hx.idle, hx.busy⟩

theorem Consistent.polled_prefix (hx : Consistent x) : x.polled <+: x.completed := by
  cases hf : x.filling with
  | none =>
    rw [hx.idle hf]
    exact List.prefix_append _ _
  | some a =>
    obtain ⟨-, -, -, hcompleted⟩ := hx.busy a.1 a.2 hf
    rw [hcompleted]
    exact List.prefix_append _ _

/-- A poll that meets a slot being filled as the only one polls what no call has completed. -/
theorem not_polled_prefix_of_not_pollSafe (hx : Consistent x) {e : LoopEvent}
    (he : ¬PollSafe x e) : ¬(loopStep x e).polled <+: (loopStep x e).completed := by
  cases e with
  | reserve c => exact absurd trivial he
  | write => exact absurd trivial he
  | world s => exact absurd trivial he
  | poll =>
    cases hf : x.filling with
    | none => exact absurd (fun h => absurd hf h) he
    | some a =>
      obtain ⟨-, hpos, -, hcompleted⟩ := hx.busy a.1 a.2 hf
      have hone : count x.fw.queue = 1 := by
        have hnot : ¬1 < count x.fw.queue := fun h => he fun _ => h
        omega
      have hall : x.completed = x.polled := by
        rw [hcompleted, settled, hone]
        simp
      dsimp only [loopStep]
      rw [dequeuePkt_of_pos hpos hx.count_le]
      intro hprefix
      have hlength := hprefix.length_le
      simp only [List.length_append, List.length_singleton, hall] at hlength
      omega

/-- **Polling a queue that is being filled.** Along a run from power on, in which the assignments
of the calls, polls and the rest of the firmware interleave in any way, the packets polled are at
all times the first of the packets completed, whole, in order and each once, if and only if every
poll that falls inside a call finds an earlier packet in the queue. -/
theorem polled_prefix_iff (es : List LoopEvent) :
    Throughout loopStep (fun x => x.polled <+: x.completed) { fw := powerOn } es ↔
      Along loopStep PollSafe { fw := powerOn } es := by
  have hstart : Consistent { fw := powerOn } := by
    refine ⟨by decide, fun _ => ?_, fun i ws h => absurd h (by simp)⟩
    show [] = [] ++ outstanding {}
    rw [outstanding_empty, List.nil_append]
  exact throughout_iff_of_invariant (I := Consistent) (fun _ hx => hx.polled_prefix)
    (fun _ e hx he => consistent_step hx e he)
    (fun _ _ hx he => not_polled_prefix_of_not_pollSafe hx he) hstart

/-- A poll right after the first slot is reserved polls the slot as `queue_init` left it. -/
theorem not_polled_prefix_reserve_poll :
    ¬Throughout loopStep (fun x => x.polled <+: x.completed) { fw := powerOn }
      [.reserve (.plain .lePacket (Vector.replicate dmaSize 0)), .poll] := by
  intro h
  have hprefix := h _ (List.prefix_refl _)
  exact absurd hprefix.length_le (by decide +kernel)

end Ubertooth.Usb
