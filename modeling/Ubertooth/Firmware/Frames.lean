import Ubertooth.Firmware.Receive

/-!
# What the firmware functions leave alone

For the functions that every mode calls, the fields they touch: the squelch
(`csThresholdCalcAndSet_frame`), the clock interrupt (`timer0IRQHandler_eq`), `hop` (`hop_cases`,
`hop_eq`), the calls that fill the queue (`enqueueSlot_frame`) and the packet callbacks
(`connectionFollowCb_frame`, `promiscFollowCb_frame`, `observeHopInterval_cases`, and all of them
together in `packetCallback_frame`). Everything else is unchanged: what only reads other fields is
kept (`Kept`).
-/

namespace Ubertooth.Firmware

/-- What `f` reads is the same in both states. -/
def Kept {α : Type} (f : Fw → α) (s t : Fw) : Prop := f t = f s

namespace Kept

variable {α : Type} {f : Fw → α} {s t u : Fw}

theorem refl (s : Fw) : Kept f s s := rfl

theorem trans (h : Kept f s t) (h' : Kept f t u) : Kept f s u := Eq.trans h' h

end Kept

/-! ## Squelch -/

/-- The squelch is all `cs_threshold_calc_and_set` touches. -/
theorem csThresholdCalcAndSet_frame (s : Fw) :
    ∃ a b, csThresholdCalcAndSet s = { s with csThresholdCur := a, csNoSquelch := b } := by
  unfold csThresholdCalcAndSet
  split <;> exact ⟨_, _, rfl⟩

theorem Kept.csThreshold {α : Type} (f : Fw → α)
    (hf : ∀ s a b, Kept f s { s with csThresholdCur := a, csNoSquelch := b }) (s : Fw) :
    Kept f s (csThresholdCalcAndSet s) := by
  obtain ⟨a, b, h⟩ := csThresholdCalcAndSet_frame s
  rw [h]
  exact hf s a b

@[simp] theorem csThresholdCalcAndSet_clknOffset (s : Fw) :
    (csThresholdCalcAndSet s).clknOffset = s.clknOffset :=
  Kept.csThreshold Fw.clknOffset (fun _ _ _ => rfl) s

@[simp] theorem csThresholdCalcAndSet_clkn (s : Fw) :
    (csThresholdCalcAndSet s).clkn = s.clkn :=
  Kept.csThreshold Fw.clkn (fun _ _ _ => rfl) s

@[simp] theorem csThresholdCalcAndSet_hopMode (s : Fw) :
    (csThresholdCalcAndSet s).hopMode = s.hopMode :=
  Kept.csThreshold Fw.hopMode (fun _ _ _ => rfl) s

@[simp] theorem csThresholdCalcAndSet_hopVars (s : Fw) :
    (csThresholdCalcAndSet s).hopVars = s.hopVars :=
  Kept.csThreshold Fw.hopVars (fun _ _ _ => rfl) s

@[simp] theorem csThresholdCalcAndSet_queue (s : Fw) :
    (csThresholdCalcAndSet s).queue = s.queue :=
  Kept.csThreshold Fw.queue (fun _ _ _ => rfl) s

@[simp] theorem csThresholdCalcAndSet_status (s : Fw) :
    (csThresholdCalcAndSet s).status = s.status :=
  Kept.csThreshold Fw.status (fun _ _ _ => rfl) s

theorem retune_frame (s : Fw) :
    ∃ a b, retune s = { s with
      fsdiv := s.channel - 1
      csThresholdCur := a
      csNoSquelch := b
      dmaDiscard := true } := by
  obtain ⟨a, b, hab⟩ := csThresholdCalcAndSet_frame { s with fsdiv := s.channel - 1 }
  dsimp only [retune]
  by_cases hm : s.hopMode = .none
  · rw [if_neg (not_not.2 hm)]
    exact ⟨s.csThresholdCur, s.csNoSquelch, rfl⟩
  · rw [if_pos hm, hab]
    exact ⟨a, b, rfl⟩

/-! ## The clock interrupt -/

theorem triggerHop_eq (s : Fw) :
    ∃ d c t, triggerHop s = { s with
      doHop := d
      le := { s.le with connCount := c, intervalTimer := t } } := by
  have hsame : ∃ d c t, s = { s with
      doHop := d
      le := { s.le with connCount := c, intervalTimer := t } } :=
    ⟨s.doHop, s.le.connCount, s.le.intervalTimer, rfl⟩
  have hhop : ∃ d c t, { s with doHop := true } = { s with
      doHop := d
      le := { s.le with connCount := c, intervalTimer := t } } :=
    ⟨true, s.le.connCount, s.le.intervalTimer, rfl⟩
  unfold triggerHop
  dsimp only
  split
  case h_4 =>
    split
    · unfold countInterval
      dsimp only
      split
      · exact ⟨true, _, _, rfl⟩
      · exact ⟨s.doHop, s.le.connCount, _, rfl⟩
    · exact hsame
  case h_6 => exact hsame
  all_goals
    split
    · exact hhop
    · exact hsame

/-- Whatever the mode, an interrupt touches the clock, the request for a hop, and the count and the
timer of the link. -/
theorem timer0IRQHandler_eq (s : Fw) :
    ∃ d c t, timer0IRQHandler s = { s with
      clkn := s.clkn + (s.clknOffset + 1)
      clknOffset := 0
      doHop := d
      le := { s.le with connCount := c, intervalTimer := t }
      t0mr0 := 3124 + s.clk100nsOffset.setWidth 32
      clk100nsOffset := 0 } := by
  obtain ⟨d, c, t, h⟩ := triggerHop_eq (advanceClkn s)
  refine ⟨d, c, t, ?_⟩
  rw [timer0IRQHandler, h]
  rfl

theorem Kept.timer0 {α : Type} (f : Fw → α)
    (hf : ∀ s clkn offset d c t m c100, Kept f s { s with
      clkn := clkn
      clknOffset := offset
      doHop := d
      le := { s.le with connCount := c, intervalTimer := t }
      t0mr0 := m
      clk100nsOffset := c100 }) (s : Fw) : Kept f s (timer0IRQHandler s) := by
  obtain ⟨d, c, t, h⟩ := timer0IRQHandler_eq s
  rw [h]
  exact hf s _ _ d c t _ _

/-! ## A hop -/

/-- A call of `hop` finds the channel set, or moves to another and retunes. -/
theorem hop_cases {s s' : Fw} (h : hop s = .ok s') :
    s.hopMode = .none ∧ s' = { s with doHop := false, lastHop := s.clkn } ∨
      ∃ u, hopChannel { s with doHop := false, lastHop := s.clkn } = .ok u ∧ s' = retune u := by
  dsimp only [hop] at h
  split at h
  case isTrue hset => exact Or.inl ⟨hset.1, (Except.ok.inj h).symm⟩
  case isFalse =>
    cases hu : hopChannel { s with doHop := false, lastHop := s.clkn } with
    | error f =>
      rw [hu] at h
      exact absurd h (by simp [bind, Except.bind])
    | ok u =>
      rw [hu] at h
      exact Or.inr ⟨u, rfl, (Except.ok.inj h).symm⟩

/-- The channel and the channel index of the link are all a move touches. -/
theorem hopChannel_frame {s u : Fw} (h : hopChannel s = .ok u) :
    ∃ c i, u = { s with channel := c, le := { s.le with channelIdx := i } } := by
  have hbind : ∀ x : Except Fault U16,
      (do let channel ← x; return { s with channel := channel } : Except Fault Fw) = .ok u →
      ∃ c i, u = { s with channel := c, le := { s.le with channelIdx := i } } := by
    intro x hx
    cases x with
    | error f => exact absurd hx (by simp [bind, Except.bind])
    | ok c => exact ⟨c, s.le.channelIdx, (Except.ok.inj hx).symm⟩
  unfold hopChannel at h
  split at h
  · exact ⟨s.channel, s.le.channelIdx, (Except.ok.inj h).symm⟩
  · exact hbind _ h
  · exact hbind _ h
  · exact hbind _ h
  · exact ⟨_, _, (Except.ok.inj h).symm⟩
  · exact ⟨_, s.le.channelIdx, (Except.ok.inj h).symm⟩

/-- Beside the channel and the channel index of the link, a hop writes what retuning sets. -/
theorem hop_eq {s s' : Fw} (h : hop s = .ok s') : ∃ c i f a b d,
    s' = { s with
      doHop := false
      lastHop := s.clkn
      channel := c
      le := { s.le with channelIdx := i }
      fsdiv := f
      csThresholdCur := a
      csNoSquelch := b
      dmaDiscard := d } := by
  obtain ⟨-, rfl⟩ | ⟨u, hu, rfl⟩ := hop_cases h
  · exact ⟨s.channel, s.le.channelIdx, s.fsdiv, s.csThresholdCur, s.csNoSquelch, s.dmaDiscard, rfl⟩
  · obtain ⟨c, i, rfl⟩ := hopChannel_frame hu
    obtain ⟨a, b, hretune⟩ := retune_frame { s with
      doHop := false
      lastHop := s.clkn
      channel := c
      le := { s.le with channelIdx := i } }
    exact ⟨c, i, _, a, b, true, hretune⟩

theorem hop_frame {s s' : Fw} (h : hop s = .ok s') :
    s'.hopMode = s.hopMode ∧ s'.hopVars = s.hopVars ∧
      s'.hopDirectChannel = s.hopDirectChannel := by
  obtain ⟨c, i, f, a, b, d, rfl⟩ := hop_eq h
  exact ⟨rfl, rfl, rfl⟩

/-! ## A DMA transfer -/

/-- The end of an item requests the interrupt, and leaves the pointers and the items alone. -/
theorem transferDone_frame (d : Dma) : ∃ a l e, d.transferDone =
    { d with intTcStat := true, destAddr := a, lli := l, enabled := e } := by
  unfold Dma.transferDone
  split
  · exact ⟨_, _, d.enabled, rfl⟩
  · exact ⟨d.destAddr, d.lli, _, rfl⟩

/-- A terminal count interrupt notes the time and the channel, swaps the pointers, and leaves the
transfer alone. -/
theorem btStreamDmaHandler_of_tc (s : Fw) {d : Dma} (h : d.intTcStat = true) :
    ∃ e n, btStreamDmaHandler s d = ({ s with
      idleBufClk100ns := s.clk100ns
      idleBufClknHigh := ((s.clkn >>> 20) &&& 0xff).setWidth 8
      idleBufChannel := s.channel }, { d with
      intTcStat := false
      activeRxbuf := d.idleRxbuf
      idleRxbuf := d.activeRxbuf
      rxTc := d.rxTc + 1
      intErrStat := e
      rxErr := n }) := by
  simp only [btStreamDmaHandler, h, if_true, streamTc]
  split
  · exact ⟨_, _, rfl⟩
  · exact ⟨d.intErrStat, d.rxErr, rfl⟩

/-! ## The packet queue -/

/-- A call that fills a slot touches the queue and the status byte only. -/
theorem enqueueSlot_frame (ws : List SlotWrite) (s : Fw) :
    ∃ q st, (enqueueSlot ws s).2 = { s with queue := q, status := st } := by
  unfold enqueueSlot
  split
  · exact ⟨_, _, rfl⟩
  · exact ⟨_, _, rfl⟩

theorem Kept.enqueueSlot {α : Type} (f : Fw → α)
    (hf : ∀ s q st, Kept f s { s with queue := q, status := st }) (ws : List SlotWrite) (s : Fw) :
    Kept f s (enqueueSlot ws s).2 := by
  obtain ⟨q, st, h⟩ := enqueueSlot_frame ws s
  rw [h]
  exact hf s q st

/-- A state change message touches the queue and the status byte only. -/
theorem lePromiscState_frame (type : U8) (data : List U8) (s : Fw) :
    ∃ q st, lePromiscState type data s = { s with queue := q, status := st } :=
  enqueueSlot_frame _ s

@[simp] theorem lePromiscState_le (type : U8) (data : List U8) (s : Fw) :
    (lePromiscState type data s).le = s.le := by
  obtain ⟨q, st, h⟩ := lePromiscState_frame type data s
  rw [h]

@[simp] theorem lePromiscState_packetCb (type : U8) (data : List U8) (s : Fw) :
    (lePromiscState type data s).packetCb = s.packetCb := by
  obtain ⟨q, st, h⟩ := lePromiscState_frame type data s
  rw [h]

@[simp] theorem lePromiscState_lePromisc (type : U8) (data : List U8) (s : Fw) :
    (lePromiscState type data s).lePromisc = s.lePromisc := by
  obtain ⟨q, st, h⟩ := lePromiscState_frame type data s
  rw [h]

@[simp] theorem lePromiscState_firstTs (type : U8) (data : List U8) (s : Fw) :
    (lePromiscState type data s).firstTs = s.firstTs := by
  obtain ⟨q, st, h⟩ := lePromiscState_frame type data s
  rw [h]

@[simp] theorem lePromiscState_prevClk (type : U8) (data : List U8) (s : Fw) :
    (lePromiscState type data s).prevClk = s.prevClk := by
  obtain ⟨q, st, h⟩ := lePromiscState_frame type data s
  rw [h]

@[simp] theorem lePromiscState_hopMode (type : U8) (data : List U8) (s : Fw) :
    (lePromiscState type data s).hopMode = s.hopMode := by
  obtain ⟨q, st, h⟩ := lePromiscState_frame type data s
  rw [h]

@[simp] theorem lePromiscState_clknOffset (type : U8) (data : List U8) (s : Fw) :
    (lePromiscState type data s).clknOffset = s.clknOffset := by
  obtain ⟨q, st, h⟩ := lePromiscState_frame type data s
  rw [h]

/-- A call of `dequeue` touches the queue only. -/
theorem dequeuePkt_frame (s : Fw) : ∃ q, (dequeuePkt s).2 = { s with queue := q } := by
  unfold dequeuePkt
  split
  · exact ⟨_, rfl⟩
  · exact ⟨_, rfl⟩

/-- `UBERTOOTH_BTLE_SNIFFING` empties the queue. -/
theorem btleSniffing_queue (s : Fw) :
    (btleSniffing s).queue = {} ∧ (btleSniffing s).status = s.status :=
  ⟨csThresholdCalcAndSet_queue _, csThresholdCalcAndSet_status _⟩

theorem btlePromisc_queue (s : Fw) :
    (btlePromisc s).queue = {} ∧ (btlePromisc s).status = s.status :=
  ⟨csThresholdCalcAndSet_queue _, csThresholdCalcAndSet_status _⟩

/-! ## The status byte -/

theorem raiseIf_frame (p : Bool) (flag : StatusFlag) (s : Fw) :
    ∃ st, raiseIf p flag s = { s with status := st } := by
  unfold raiseIf
  split
  · exact ⟨_, rfl⟩
  · exact ⟨s.status, rfl⟩

theorem Kept.raiseIf {α : Type} (f : Fw → α) (hf : ∀ s st, Kept f s { s with status := st })
    (p : Bool) (flag : StatusFlag) (s : Fw) : Kept f s (raiseIf p flag s) := by
  obtain ⟨st, h⟩ := raiseIf_frame p flag s
  rw [h]
  exact hf s st

/-! ## The packet callbacks -/

/-- `connection_follow_cb` touches the link, the request for a hop and the count of jams. -/
theorem connectionFollowCb_frame (p : Packet) (s : Fw) :
    ∃ l d j, connectionFollowCb p s = { s with le := l, doHop := d, leJamCount := j } := by
  unfold connectionFollowCb
  split
  · exact ⟨_, s.doHop, _, rfl⟩
  · exact ⟨_, s.doHop, s.leJamCount, rfl⟩
  · split
    · split
      · exact ⟨s.le, s.doHop, s.leJamCount, rfl⟩
      · exact ⟨_, _, s.leJamCount, rfl⟩
    · exact ⟨s.le, s.doHop, s.leJamCount, rfl⟩
  · exact ⟨s.le, s.doHop, s.leJamCount, rfl⟩

/-- `promisc_follow_cb` touches the link and the callback, and sends a message. -/
theorem promiscFollowCb_frame (p : Packet) (s : Fw) :
    ∃ l c q st, promiscFollowCb p s =
      { s with le := l, packetCb := c, queue := q, status := st } := by
  unfold promiscFollowCb
  split
  · dsimp only [recoverCrcInit]
    obtain ⟨q, st, h⟩ := lePromiscState_frame 1
      (octetsOf (btleReverseCrc (emptyPduCrc p) (pdu p) 2) 3) { s with
        le := { s.le with
          crcInit := btleReverseCrc (emptyPduCrc p) (pdu p) 2
          crcInitReversed := reverse24 (btleReverseCrc (emptyPduCrc p) (pdu p) 2)
          crcVerify := true }
        packetCb := .promiscRecoverHopInterval }
    exact ⟨_, _, q, st, h⟩
  · exact ⟨s.le, s.packetCb, s.queue, s.status, rfl⟩

theorem noteClkDiff_eq (clkDiff : U32) (s : Fw) :
    ∃ w : U32, noteClkDiff clkDiff s =
        { s with lePromisc := { s.lePromisc with smallestHopInterval := w } } ∧
      w.toNat = min clkDiff.toNat s.lePromisc.smallestHopInterval.toNat := by
  unfold noteClkDiff
  split
  case isTrue h => exact ⟨clkDiff, rfl, (min_eq_left (BitVec.le_def.1 (BitVec.le_of_lt h))).symm⟩
  case isFalse h =>
    exact ⟨s.lePromisc.smallestHopInterval, rfl,
      (min_eq_right (BitVec.le_def.1 (BitVec.not_lt.1 h))).symm⟩

/-- The interval is confirmed for the fifth time and settled, confirmed, or replaced. -/
theorem observeHopInterval_cases (s : Fw) :
    (s.le.connInterval = obsvHopInterval s ∧ s.lePromisc.consecIntervals + 1 = 5 ∧
      ∃ q st, observeHopInterval s = { s with
        lePromisc := { s.lePromisc with consecIntervals := s.lePromisc.consecIntervals + 1 }
        packetCb := .promiscRecoverHopIncrement
        hopDirectChannel := 2404
        hopMode := .direct
        doHop := true
        queue := q
        status := st }) ∨
    (s.le.connInterval = obsvHopInterval s ∧ s.lePromisc.consecIntervals + 1 ≠ 5 ∧
      observeHopInterval s = { s with
        lePromisc := { s.lePromisc with
          consecIntervals := s.lePromisc.consecIntervals + 1 } }) ∨
    (s.le.connInterval ≠ obsvHopInterval s ∧
      observeHopInterval s = { s with
        le := { s.le with connInterval := obsvHopInterval s }
        lePromisc := { s.lePromisc with consecIntervals := 0 } }) := by
  by_cases hsame : s.le.connInterval = obsvHopInterval s
  · by_cases hfive : s.lePromisc.consecIntervals + 1 = 5
    · left
      refine ⟨hsame, hfive, ?_⟩
      dsimp only [observeHopInterval]
      rw [if_pos hsame, if_pos hfive, hopIntervalFound]
      obtain ⟨q, st, hmessage⟩ := lePromiscState_frame 2
        (octetsOf (s.le.connInterval.setWidth 32) 2) { s with
          lePromisc := { s.lePromisc with consecIntervals := s.lePromisc.consecIntervals + 1 }
          packetCb := .promiscRecoverHopIncrement
          hopDirectChannel := 2404
          hopMode := .direct
          doHop := true }
      exact ⟨q, st, hmessage⟩
    · right; left
      refine ⟨hsame, hfive, ?_⟩
      dsimp only [observeHopInterval]
      rw [if_pos hsame, if_neg hfive]
  · right; right
    refine ⟨hsame, ?_⟩
    dsimp only [observeHopInterval]
    rw [if_neg hsame]

/-- No callback touches the channel, the radio, the clock, the squelch or the idle buffer. -/
theorem packetCallback_frame (p : Packet) (s : Fw) :
    ∃ l a cb d m c j q st t w, packetCallback p s = { s with
      le := l
      lePromisc := a
      packetCb := cb
      doHop := d
      hopMode := m
      hopDirectChannel := c
      leJamCount := j
      queue := q
      status := st
      firstTs := t
      prevClk := w } := by
  unfold packetCallback
  split
  · exact ⟨_, _, _, _, _, _, _, _, _, _, _, rfl⟩
  · obtain ⟨l, d, j, h⟩ := connectionFollowCb_frame p s
    exact ⟨_, _, _, _, _, _, _, _, _, _, _, h⟩
  · obtain ⟨l, c, q, st, h⟩ := promiscFollowCb_frame p s
    exact ⟨_, _, _, _, _, _, _, _, _, _, _, h⟩
  · dsimp only [promiscRecoverHopInterval]
    split
    · exact ⟨_, _, _, _, _, _, _, _, _, _, _, rfl⟩
    · obtain ⟨w, hnote, -⟩ := noteClkDiff_eq (recoverCurClk s - s.prevClk) s
      rw [hnote]
      obtain ⟨-, -, q, st, h⟩ | ⟨-, -, h⟩ | ⟨-, h⟩ := observeHopInterval_cases
        { s with lePromisc := { s.lePromisc with smallestHopInterval := w } } <;>
      · rw [h]
        exact ⟨_, _, _, _, _, _, _, _, _, _, _, rfl⟩
  · unfold promiscRecoverHopIncrement
    split
    · exact ⟨_, _, _, _, _, _, _, _, _, _, _, rfl⟩
    · split
      · split
        · unfold recoverIncrement
          dsimp only
          obtain ⟨q, st, h⟩ := lePromiscState_frame 3 _ _
          exact ⟨_, _, _, _, _, _, _, _, _, _, _, h⟩
        · exact ⟨_, _, _, _, _, _, _, _, _, _, _, rfl⟩
      · exact ⟨_, _, _, _, _, _, _, _, _, _, _, rfl⟩

end Ubertooth.Firmware
