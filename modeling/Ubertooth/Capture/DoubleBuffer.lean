import Ubertooth.Firmware.Frames
import Ubertooth.Foundations.Runs

/-!
# Double buffering

The DMA controller follows its linked list from one buffer to the other, and the interrupt handler
swaps `active_rxbuf` and `idle_rxbuf` to keep up. The list is set up anew by every `dma_init`, and
starts with `rxbuf1`; the pointers are set once, at power on. `double_buffer_iff` says over all
sequences of capture sessions when the two agree: exactly when every `dma_init` comes after an even
number of interrupts.
-/

namespace Ubertooth.Capture

open Firmware Foundations

/-! ## Sessions -/

/-- The firmware, with what the sessions so far have done. -/
structure Session where
  fw : Fw
  dma : Dma := {}
  /-- Whether a session set up by `dma_init` is running. -/
  streaming : Bool := false
  /-- The buffer completed last in this session. -/
  filledLast : Option RxBuf := none
  /-- The terminal count interrupts handled since power on. -/
  handled : ℕ := 0

/-- What sessions are made of; `world` is any part of the firmware that leaves the DMA alone. -/
inductive SessionEvent
  | dmaInit
  | dmaInitLe
  | dioSspStart
  /-- the controller completes an item, and the interrupt is handled -/
  | terminalCount
  | dioSspStop
  | world (s : Fw)

def sessionStep (x : Session) : SessionEvent → Session
  | .dmaInit => { x with dma := dmaInit x.dma, streaming := true, filledLast := none }
  | .dmaInitLe => { x with dma := dmaInitLe x.dma, streaming := false, filledLast := none }
  | .dioSspStart => { x with dma := dioSspStart x.dma }
  | .terminalCount =>
    if x.dma.enabled then
      { x with
        fw := (btStreamDmaHandler x.fw x.dma.transferDone).1
        dma := (btStreamDmaHandler x.fw x.dma.transferDone).2
        filledLast := x.dma.destAddr
        handled := x.handled + 1 }
    else x
  | .dioSspStop => { x with dma := dioSspStop x.dma, streaming := false }
  | .world s => { x with fw := s }

/-- While a session set up by `dma_init` runs, the active buffer is the one being filled, and the
idle buffer the one completed last. -/
def InSync (x : Session) : Prop :=
  x.streaming = true →
    x.dma.destAddr = some x.dma.activeRxbuf ∧ ∀ b ∈ x.filledLast, x.dma.idleRxbuf = b

/-- A session is set up by `dma_init` after an even number of interrupts. -/
def EvenAtInit (x : Session) : SessionEvent → Prop
  | .dmaInit => Even x.handled
  | _ => True

/-! ## The ring of two items -/

/-- The items of the two buffers lead to each other. -/
def Ring (d : Dma) : Prop :=
  ∀ b : RxBuf, d.items b.item = some { dest := b, size := dmaSize, nextLli := some b.other.item }

/-- The channel is filling `b`, and goes on with the other buffer. -/
structure Filling (b : RxBuf) (d : Dma) : Prop where
  destAddr : d.destAddr = some b
  lli : d.lli = some b.other.item

theorem ring_dmaInit (d : Dma) : Ring (dmaInit d) := by
  intro b
  cases b <;> rfl

theorem filling_dmaInit (d : Dma) : Filling .rxbuf1 (dmaInit d) := ⟨rfl, rfl⟩

theorem transferDone_of_filling {b : RxBuf} {d : Dma} (hring : Ring d) (h : Filling b d) :
    d.transferDone = { d with
      intTcStat := true, destAddr := some b.other, lli := some b.item } := by
  have hitem : d.lli.bind d.items =
      some { dest := b.other, size := dmaSize, nextLli := some b.item } := by
    rw [h.lli, Option.bind_some, hring b.other, RxBuf.other_other]
  simp only [Dma.transferDone, hitem]

/-! ## The pointers count the interrupts -/

/-- The active buffer after `n` interrupts. -/
def activeAfter (n : ℕ) : RxBuf := if Even n then .rxbuf1 else .rxbuf2

theorem activeAfter_succ (n : ℕ) : activeAfter (n + 1) = (activeAfter n).other := by
  unfold activeAfter
  by_cases h : Even n
  · simp [h, Nat.even_add_one, RxBuf.other]
  · simp [h, Nat.even_add_one, RxBuf.other]

/-- The pointers have been swapped at every interrupt, and a running list is where they say. -/
structure Swapped (x : Session) : Prop where
  active : x.dma.activeRxbuf = activeAfter x.handled
  idle : x.dma.idleRxbuf = (activeAfter x.handled).other
  ring : x.streaming = true → Ring x.dma
  filling : x.streaming = true → Filling (activeAfter x.handled) x.dma
  filledLast : x.streaming = true → ∀ b ∈ x.filledLast, (activeAfter x.handled).other = b

variable {x : Session}

theorem Swapped.inSync (hx : Swapped x) : InSync x := by
  intro hs
  refine ⟨?_, fun b hb => ?_⟩
  · rw [(hx.filling hs).destAddr, hx.active]
  · rw [hx.idle]
    exact hx.filledLast hs b hb

theorem swapped_dmaInit (hx : Swapped x) (h : Even x.handled) :
    Swapped (sessionStep x .dmaInit) := by
  have hactive : activeAfter x.handled = .rxbuf1 := if_pos h
  refine ⟨hx.active, hx.idle, fun _ => ring_dmaInit x.dma, fun _ => ?_, fun _ b hb => ?_⟩
  · show Filling (activeAfter x.handled) (dmaInit x.dma)
    rw [hactive]
    exact filling_dmaInit x.dma
  · exact absurd hb (by simp [sessionStep])

theorem swapped_terminalCount (hx : Swapped x) : Swapped (sessionStep x .terminalCount) := by
  dsimp only [sessionStep]
  split
  case isFalse => exact hx
  case isTrue =>
    obtain ⟨a, l, e, hdone⟩ := transferDone_frame x.dma
    have htc : x.dma.transferDone.intTcStat = true := by rw [hdone]
    obtain ⟨e', n, hhandler⟩ := btStreamDmaHandler_of_tc x.fw htc
    refine ⟨?_, ?_, fun hs => ?_, fun hs => ?_, fun hs b hb => ?_⟩
    · rw [hhandler, hdone, activeAfter_succ]
      exact hx.idle
    · rw [hhandler, hdone, activeAfter_succ, RxBuf.other_other]
      exact hx.active
    · rw [hhandler, hdone]
      exact hx.ring hs
    · rw [hhandler, transferDone_of_filling (hx.ring hs) (hx.filling hs), activeAfter_succ]
      exact ⟨rfl, by rw [RxBuf.other_other]⟩
    · rw [activeAfter_succ, RxBuf.other_other]
      rw [(hx.filling hs).destAddr] at hb
      exact Option.mem_some_iff.1 hb

theorem swapped_step (hx : Swapped x) (e : SessionEvent) (h : EvenAtInit x e) :
    Swapped (sessionStep x e) := by
  cases e with
  | dmaInit => exact swapped_dmaInit hx h
  | dmaInitLe =>
    refine ⟨hx.active, hx.idle, ?_, ?_, ?_⟩ <;> intro hs <;> exact absurd hs (by simp [sessionStep])
  | dioSspStart =>
    exact ⟨hx.active, hx.idle, hx.ring, fun hs => ⟨(hx.filling hs).1, (hx.filling hs).2⟩,
      hx.filledLast⟩
  | terminalCount => exact swapped_terminalCount hx
  | dioSspStop =>
    refine ⟨hx.active, hx.idle, ?_, ?_, ?_⟩ <;> intro hs <;> exact absurd hs (by simp [sessionStep])
  | world s => exact ⟨hx.active, hx.idle, hx.ring, hx.filling, hx.filledLast⟩

/-- After an odd number of interrupts the list starts with the buffer that is read. -/
theorem not_inSync_of_odd (hx : Swapped x) {e : SessionEvent} (h : ¬EvenAtInit x e) :
    ¬InSync (sessionStep x e) := by
  cases e with
  | dmaInit =>
    have hactive : x.dma.activeRxbuf = .rxbuf2 := hx.active.trans (if_neg h)
    intro hsync
    have hdest : some RxBuf.rxbuf1 = some x.dma.activeRxbuf := (hsync rfl).1
    simp [hactive] at hdest
  | _ => exact absurd trivial h

theorem swapped_powerOn : Swapped { fw := powerOn } := by
  refine ⟨rfl, rfl, ?_, ?_, ?_⟩ <;> intro hs <;> exact absurd hs (by simp)

/-- **Double buffering.** Over any sequence of capture sessions from power on, the reader is never
handed the buffer being written exactly if every session of `dma_init` starts after an even number
of terminal count interrupts. -/
theorem double_buffer_iff (es : List SessionEvent) :
    Throughout sessionStep InSync { fw := powerOn } es ↔
      Along sessionStep EvenAtInit { fw := powerOn } es :=
  throughout_iff_of_invariant (fun _ hx => hx.inSync) (fun _ e hx h => swapped_step hx e h)
    (fun _ _ hx h => not_inSync_of_odd hx h) swapped_powerOn

/-- A stream of one block, and then another stream: the list starts with `rxbuf1`, which by now is
the idle buffer. -/
theorem not_inSync_second_stream :
    ¬Throughout sessionStep InSync { fw := powerOn }
      [.dmaInit, .dioSspStart, .terminalCount, .dioSspStop, .dmaInit, .dioSspStart] := by
  intro h
  obtain ⟨hdest, -⟩ := h _ (List.prefix_refl _) rfl
  exact absurd hdest (by decide +kernel)

end Ubertooth.Capture
