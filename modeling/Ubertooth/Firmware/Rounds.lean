import Ubertooth.Firmware.Frames

/-!
# What the rounds of the receive loops leave alone

A round that processes a block touches the statistics of the samples, the flags and the packet
queue, and nothing else (`BlockOnly`). The interrupt at the end of a DMA transfer touches the DMA,
and notes the time and the channel (`dmaIRQHandler_frame`).
-/

namespace Ubertooth.Firmware

/-! ## Blocks -/

/-- The devices differ at most in what the processing of a block touches. -/
def BlockOnly (d d' : Device) : Prop :=
  ∃ mx mn count iir discard st q sum trigger, d' = { d with
    fw := { d.fw with
      rssiMax := mx
      rssiMin := mn
      rssiCount := count
      rssiIir := iir
      dmaDiscard := discard
      status := st
      queue := q }
    rssiSum := sum
    csTrigger := trigger }

namespace BlockOnly

theorem refl (d : Device) : BlockOnly d d := ⟨_, _, _, _, _, _, _, _, _, rfl⟩

theorem trans {d e f : Device} (h : BlockOnly d e) (h' : BlockOnly e f) : BlockOnly d f := by
  obtain ⟨_, _, _, _, _, _, _, _, _, rfl⟩ := h
  obtain ⟨_, _, _, _, _, _, _, _, _, rfl⟩ := h'
  exact ⟨_, _, _, _, _, _, _, _, _, rfl⟩

end BlockOnly

theorem raiseDma_blockOnly (d : Device) : BlockOnly d (raiseDma d) := by
  obtain ⟨st, herror⟩ := raiseIf_frame (decide (d.dma.rxErr ≠ 0)) .dmaError d.fw
  obtain ⟨st', hoverflow⟩ := raiseIf_frame (decide (1 < d.dma.rxTc)) .dmaOverflow
    { d.fw with status := st }
  rw [raiseDma, herror, hoverflow]
  exact ⟨_, _, _, _, _, _, _, _, _, rfl⟩

theorem raiseTriggers_blockOnly (d : Device) : BlockOnly d (raiseTriggers d) := by
  obtain ⟨st, htrigger⟩ := raiseIf_frame (d.csTrigger || d.fw.csNoSquelch) .csTrigger d.fw
  obtain ⟨st', hrssi⟩ := raiseIf_frame (rssiTriggered { d.fw with status := st }) .rssiTrigger
    { d.fw with status := st }
  rw [raiseTriggers, htrigger, hrssi]
  exact ⟨_, _, _, _, _, _, _, _, _, rfl⟩

theorem rssiIirUpdate_blockOnly (d : Device) : BlockOnly d (rssiIirUpdate d) := by
  dsimp only [rssiIirUpdate]
  split
  · exact BlockOnly.refl d
  · exact ⟨_, _, _, _, _, _, _, _, _, rfl⟩

theorem foldl_rssiAdd_blockOnly (samples : List U8) (d : Device) :
    BlockOnly d (samples.foldl rssiAdd d) := by
  induction samples generalizing d with
  | nil => exact BlockOnly.refl d
  | cons v samples ih =>
    have hadd : BlockOnly d (rssiAdd d v) := ⟨_, _, _, _, _, _, _, _, _, rfl⟩
    exact hadd.trans (ih (rssiAdd d v))

/-- The readings are gathered, and the flags of the DMA raised. -/
theorem gather_blockOnly (samples : List U8) (d : Device) :
    BlockOnly d (raiseDma (samples.foldl rssiAdd (rssiReset d))) := by
  have hreset : BlockOnly d (rssiReset d) := ⟨_, _, _, _, _, _, _, _, _, rfl⟩
  exact (hreset.trans (foldl_rssiAdd_blockOnly samples _)).trans (raiseDma_blockOnly _)

theorem enqueueSlot_blockOnly (ws : List SlotWrite) (d : Device) :
    BlockOnly d { d with fw := (enqueueSlot ws d.fw).2 } := by
  obtain ⟨q, st, h⟩ := enqueueSlot_frame ws d.fw
  rw [h]
  exact ⟨_, _, _, _, _, _, _, _, _, rfl⟩

theorem enqueueAll_blockOnly (type : UsbPktType) (bufs : List (Vector U8 dmaSize)) (d : Device) :
    BlockOnly d { d with fw := bufs.foldl (fun s buf => (enqueue type buf s).2) d.fw } := by
  induction bufs generalizing d with
  | nil => exact BlockOnly.refl d
  | cons buf bufs ih =>
    exact (enqueueSlot_blockOnly _ d).trans (ih { d with fw := (enqueue type buf d.fw).2 })

/-- A round of `bt_stream_rx` -/
theorem streamBlock_blockOnly (samples : List U8) (buf : Vector U8 dmaSize) (d : Device) :
    BlockOnly d (streamBlock samples buf d) := by
  dsimp only [streamBlock]
  split
  · exact BlockOnly.refl d
  · have hdiscard : ∀ u : Device, BlockOnly u { u with
        fw := { raiseIf u.fw.dmaDiscard .discard u.fw with dmaDiscard := false } } := by
      intro u
      obtain ⟨st, h⟩ := raiseIf_frame u.fw.dmaDiscard .discard u.fw
      rw [h]
      exact ⟨_, _, _, _, _, _, _, _, _, rfl⟩
    exact ((((gather_blockOnly samples d).trans (hdiscard _)).trans
      (rssiIirUpdate_blockOnly _)).trans (raiseTriggers_blockOnly _)).trans
      (enqueueSlot_blockOnly _ _)

/-- A round of `bt_generic_le` -/
theorem genericBlock_blockOnly (samples : List U8) (bufs : List (Vector U8 dmaSize)) (d : Device) :
    BlockOnly d (genericBlock samples bufs d) := by
  dsimp only [genericBlock]
  split
  · exact BlockOnly.refl d
  · exact (((gather_blockOnly samples d).trans (rssiIirUpdate_blockOnly _)).trans
      (raiseTriggers_blockOnly _)).trans (enqueueAll_blockOnly _ bufs _)

/-! ## A DMA transfer -/

theorem dmaIRQHandler_frame (d : Device) : ∃ time high channel dma, dmaIRQHandler d = { d with
    fw := { d.fw with
      idleBufClk100ns := time
      idleBufClknHigh := high
      idleBufChannel := channel }
    dma := dma } := by
  unfold dmaIRQHandler
  split
  · obtain ⟨a, l, e, hdone⟩ := transferDone_frame d.dma
    split
    · have htc : d.dma.transferDone.intTcStat = true := by rw [hdone]
      obtain ⟨e', n, hhandler⟩ := btStreamDmaHandler_of_tc d.fw htc
      rw [hhandler]
      exact ⟨_, _, _, _, rfl⟩
    · exact ⟨d.fw.idleBufClk100ns, d.fw.idleBufClknHigh, d.fw.idleBufChannel, _, rfl⟩
  · exact ⟨d.fw.idleBufClk100ns, d.fw.idleBufClknHigh, d.fw.idleBufChannel, d.dma, rfl⟩

end Ubertooth.Firmware
