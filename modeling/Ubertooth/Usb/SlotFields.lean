import Ubertooth.Firmware.UsbQueue

/-!
# What a call leaves in its slot

The assignments of `enqueue` are made one after the other. A field holds what the last assignment to
it stored: the clocks saved at the end of the DMA block (`clocks_brPacket`), and the octets of the
buffer (`data_specan`).
-/

namespace Ubertooth.Usb

open Firmware

variable (s : Fw) (f : UsbPktRx)

theorem fillSlot_append (ws vs : List SlotWrite) :
    fillSlot s f (ws ++ vs) = fillSlot s (fillSlot s f ws) vs := List.foldl_append

theorem fillSlot_status : fillSlot s f [.status] = { f with status := s.status } := rfl

variable {s f}

/-- A field that no assignment touches is as it was. -/
theorem fillSlot_field {α : Type*} (get : UsbPktRx → α) {ws : List SlotWrite}
    (h : ∀ w ∈ ws, ∀ f, get (w.apply s f) = get f) : get (fillSlot s f ws) = get f := by
  induction ws generalizing f with
  | nil => rfl
  | cons w ws ih =>
    have hrest := @ih (w.apply s f) fun v hv => h v (List.mem_cons_of_mem w hv)
    exact hrest.trans (h w List.mem_cons_self f)

/-- `memcpy` touches the data only. -/
theorem fillSlot_dataWrites {α : Type*} (get : UsbPktRx → α)
    (h : ∀ f data, get { f with data := data } = get f) (buf : Vector U8 dmaSize) :
    get (fillSlot s f (dataWrites buf)) = get f := by
  refine fillSlot_field get fun w hw f => ?_
  obtain ⟨i, -, rfl⟩ := List.mem_map.1 hw
  exact h f _

/-- The packet is stamped with the clocks saved at the end of the block. -/
theorem clocks_brPacket (buf : Vector U8 dmaSize) :
    (fillSlot s f (enqueueWrites .brPacket buf)).clknHigh = s.idleBufClknHigh ∧
      (fillSlot s f (enqueueWrites .brPacket buf)).clk100ns = s.idleBufClk100ns := by
  unfold enqueueWrites
  rw [if_neg (by simp), fillSlot_append, fillSlot_append]
  rw [fillSlot_status]
  dsimp only
  rw [fillSlot_dataWrites UsbPktRx.clknHigh (fun _ _ => rfl),
    fillSlot_dataWrites UsbPktRx.clk100ns (fun _ _ => rfl)]
  exact ⟨rfl, rfl⟩

/-! ## The octets copied -/

/-- `memcpy` copies the octets of the positions it has come to. -/
theorem data_fillSlot_map (buf : Vector U8 dmaSize) (is : List (Fin dmaSize)) (i : Fin dmaSize) :
    (fillSlot s f (is.map fun i => .data i (buf.get i))).data.get i =
      if i ∈ is then buf.get i else f.data.get i := by
  induction is generalizing f with
  | nil => rfl
  | cons j is ih =>
    show (fillSlot s (SlotWrite.apply s f (.data j (buf.get j))) (is.map _)).data.get i = _
    rw [ih]
    by_cases hi : i ∈ is
    · simp [hi]
    · have hset : (SlotWrite.apply s f (.data j (buf.get j))).data.get i =
          if i = j then buf.get i else f.data.get i := by
        show (f.data.set j (buf.get j)).get i = _
        by_cases hij : i = j
        · rw [if_pos hij, hij]
          exact Vector.getElem_set_self _
        · rw [if_neg hij]
          exact Vector.getElem_set_ne _ _ fun h => hij (Fin.ext h.symm)
      rw [if_neg hi, hset]
      simp [hi]

theorem data_dataWrites (buf : Vector U8 dmaSize) :
    (fillSlot s f (dataWrites buf)).data = buf := by
  refine Vector.ext fun i hi => ?_
  have h := data_fillSlot_map (s := s) (f := f) buf (List.finRange dmaSize) ⟨i, hi⟩
  rw [if_pos (List.mem_finRange _)] at h
  exact h

/-- The packet carries the octets of the buffer. -/
theorem data_specan (buf : Vector U8 dmaSize) :
    (fillSlot s f (enqueueWrites .specan buf)).data = buf := by
  unfold enqueueWrites
  rw [if_pos rfl, fillSlot_append, fillSlot_append]
  rw [fillSlot_status]
  dsimp only
  rw [data_dataWrites]

theorem pktType_specan (buf : Vector U8 dmaSize) :
    (fillSlot s f (enqueueWrites .specan buf)).pktType = UsbPktType.specan.toU8 := by
  unfold enqueueWrites
  rw [if_pos rfl, fillSlot_append, fillSlot_append]
  rw [fillSlot_status]
  dsimp only
  rw [fillSlot_dataWrites UsbPktRx.pktType (fun _ _ => rfl)]
  rfl

end Ubertooth.Usb
