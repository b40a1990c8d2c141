import Ubertooth.Firmware.SyncLoop
import Ubertooth.Foundations.Runs
import Ubertooth.Hopping.Search

/-!
# Requests for a channel in `bt_le_sync`

While connections are followed, `UBERTOOTH_SET_CHANNEL` leaves `channel` alone and only stores
`requested_channel`; the head of the loop takes note of that, but tunes the radio to `channel`, as
it is. So a request moves nothing, and is obeyed if the receiver is on the frequency asked for
already (`tunedTo_passHead_iff`). What the request does change is `saved_request`, the frequency the
receiver returns to when a connection times out: it returns right if by then the loop has taken note
of the last request, and no hop comes in between. In the runs in which that is so at each step,
every request is obeyed (`obeyed_of_obeys`).
-/

namespace Ubertooth.LowEnergy

open Firmware Foundations Hopping

/-! ## What has been asked for -/

/-- The requests so far. -/
structure RequestRecord where
  /-- asked for while sniffing, with no connection, and no round has begun since -/
  asked : Option U16 := none
  /-- what the last round has had to tune to, until a hop or a timeout -/
  due : Option U16 := none
  /-- asked for last, at any time -/
  last : Option U16 := none
  /-- asked for last when the connection timed out, until reception has been restarted -/
  returning : Option U16 := none

/-- The state with the time that `rx_flush` reads. -/
def flushed (i : SyncInput) (s : Fw) : Fw := { s with t0tc := i.t0tc }

/-- A later request takes the place of an earlier one. -/
def recordRequests (g : RequestRecord) (x : SyncLoop) : SyncEvent → RequestRecord
  | .request (.setChannel f) =>
    { g with
      asked :=
        if minFreq ≤ f ∧ f ≤ maxFreq ∧ x.dev.mode = .btFollowLe ∧
          x.dev.fw.le.linkState = .listening then some f else none
      last := some (askedChannel f) }
  | .step i =>
    match x.place with
    | .head =>
      if ModeRequested x.dev then { g with asked := none, due := g.asked.or g.due } else g
    | .flush =>
      if leTimedOut (flushed i x.dev.fw) then { g with due := none, returning := g.last } else g
    | .hop => if x.dev.fw.doHop then { g with due := none } else g
    | .clear => { g with returning := none }
    | _ => g
  | _ => g

/-- A step, and the record beside it. -/
def requestStep : SyncLoop × RequestRecord → SyncEvent → SyncLoop × RequestRecord :=
  ghostStep syncStep recordRequests

/-- The receiver is on the frequency. -/
def TunedTo (f : U16) (s : Fw) : Prop := s.fsdiv = f - 1 ∧ s.channel = f

/-- Where the loop has tuned, and receives. -/
def receives : SyncPlace → Bool
  | .waiting | .woken | .noteError | .testHop | .testTc | .packet => true
  | _ => false

/-- After the head of the loop the receiver is on the frequency asked for, and unwhitens packets as
that frequency has them; when it has restarted after a timeout it is on the frequency asked for
last. -/
def Obeyed (y : SyncLoop × RequestRecord) : Prop :=
  (receives y.1.place = true → ∀ f ∈ y.2.due, TunedTo f y.1.dev.fw ∧
    ∀ i, y.1.unwhitened i = btLeSyncPacket i.stack y.1.dev.fw.le f i.rxbuf1) ∧
  (y.1.place = .clear → ∀ f ∈ y.2.returning, TunedTo f y.1.dev.fw)

/-- The frequency `bt_le_sync` returns to. -/
def returnChannel (d : Device) : U16 := if d.savedRequest ≠ 0 then d.savedRequest else 2402

/-- A call of `hop` leaves the channel as it is, if it returns. -/
def HopStays (s : Fw) : Prop :=
  match hop s with
  | .ok t => t.channel = s.channel
  | .error _ => True

/-- What the statement at a place needs: at the head, that the receiver is where it is asked to be;
at the timeout, that `saved_request` is what was asked for last; from there to the restart, that a
hop stays on the channel; and at the restart, that the modulation is one `cc2400_rx_sync` knows. -/
def Needs (i : SyncInput) (x : SyncLoop) (g : RequestRecord) : SyncPlace → Prop
  | .head => ModeRequested x.dev → ∀ f ∈ g.asked, x.dev.fw.channel = f ∧
    (x.dev.requestedChannel ≠ 0 ∨ x.dev.fw.fsdiv = f - 1)
  | .flush => leTimedOut (flushed i x.dev.fw) = true → x.dev.fw.jamMode ≠ jamOnce →
    ∀ f ∈ g.last, returnChannel x.dev = f
  | .hop => g.returning.isSome = true → x.dev.fw.doHop = true → HopStays x.dev.fw
  | .receive => g.returning.isSome = true →
    x.modulation = modBtBasicRate ∨ x.modulation = modBtLowEnergy ∨
      x.dev.fw.fsdiv = x.dev.fw.channel - 1
  | _ => True

/-- The step has what it needs. -/
def Obeys (y : SyncLoop × RequestRecord) : SyncEvent → Prop
  | .step i => Needs i y.1 y.2 y.1.place
  | _ => True

instance (s : Fw) : Decidable (HopStays s) := by
  unfold HopStays
  split <;> infer_instance

instance decidableNeeds (i : SyncInput) (x : SyncLoop) (g : RequestRecord) :
    ∀ place, Decidable (Needs i x g place)
  -- through the option, not through all frequencies
  | .head =>
    have : Decidable (∀ f ∈ g.asked, x.dev.fw.channel = f ∧
        (x.dev.requestedChannel ≠ 0 ∨ x.dev.fw.fsdiv = f - 1)) := Option.decidableForallMem g.asked
    inferInstanceAs (Decidable (ModeRequested x.dev → _))
  | .flush =>
    have : Decidable (∀ f ∈ g.last, returnChannel x.dev = f) := Option.decidableForallMem g.last
    inferInstanceAs (Decidable (_ → _ → ∀ f ∈ g.last, returnChannel x.dev = f))
  | .hop => inferInstanceAs (Decidable (_ → _ → HopStays x.dev.fw))
  | .receive => inferInstanceAs (Decidable (_ → _ ∨ _ ∨ _))
  | .retune | .saveRequest | .dropRequest | .waiting | .woken | .noteError | .testHop | .testTc
  | .packet | .restart | .clear | .hung | .ended => isTrue trivial

instance decidableObeys (y : SyncLoop × RequestRecord) : ∀ e, Decidable (Obeys y e)
  | .step i => decidableNeeds i y.1 y.2 y.1.place
  | .terminalCount | .dmaError | .timer0 | .eint3 | .request _ | .setMod _ => isTrue trivial

/-- A pass through the head, up to the waiting loop. -/
def passHead (i : SyncInput) (x : SyncLoop) : SyncLoop :=
  if x.dev.requestedChannel ≠ 0 then (syncMain i)^[4] x else syncMain i x

/-- **The pass.** It leaves the receiver on a frequency exactly if it finds it there. -/
theorem tunedTo_passHead_iff {i : SyncInput} {x : SyncLoop} {f : U16} (hplace : x.place = .head)
    (hmode : ModeRequested x.dev) : TunedTo f (passHead i x).dev.fw ↔
      x.dev.fw.channel = f ∧ (x.dev.requestedChannel ≠ 0 ∨ x.dev.fw.fsdiv = f - 1) := by
  obtain ⟨dev, modulation, restartJamming, place⟩ := x
  obtain rfl : place = .head := hplace
  unfold passHead
  by_cases hrequested : dev.requestedChannel ≠ 0
  · have hhead : syncMain i ⟨dev, modulation, restartJamming, .head⟩ =
        ⟨dev, modulation, restartJamming, .retune⟩ := by
      simp only [syncMain, if_pos hmode, if_pos hrequested]
    rw [if_pos hrequested, Function.iterate_succ_apply, hhead]
    show dev.fw.channel - 1 = f - 1 ∧ dev.fw.channel = f ↔ _
    constructor
    · exact fun h => ⟨h.2, Or.inl hrequested⟩
    · rintro ⟨hchannel, -⟩
      exact ⟨congrArg (· - 1) hchannel, hchannel⟩
  · have hhead : syncMain i ⟨dev, modulation, restartJamming, .head⟩ =
        ⟨dev, modulation, restartJamming, .waiting⟩ := by
      simp only [syncMain, if_pos hmode, if_neg hrequested]
    rw [if_neg hrequested, hhead]
    show dev.fw.fsdiv = f - 1 ∧ dev.fw.channel = f ↔ _
    constructor
    · exact fun h => ⟨h.2, Or.inr h.1⟩
    · rintro ⟨hchannel, hor⟩
      exact ⟨hor.resolve_left hrequested, hchannel⟩

/-! ## What is left alone -/

/-- What a step is to leave alone if it does not tune. -/
def radio (s : Fw) : U16 × U16 := (s.channel, s.fsdiv)

abbrev SameRadio (s t : Fw) : Prop := Kept radio s t

theorem SameRadio.channel {s t : Fw} (h : SameRadio s t) : t.channel = s.channel :=
  congrArg Prod.fst h

theorem SameRadio.fsdiv {s t : Fw} (h : SameRadio s t) : t.fsdiv = s.fsdiv := congrArg Prod.snd h

theorem sameRadio_enqueueSlot (ws : List SlotWrite) (s : Fw) :
    SameRadio s (enqueueSlot ws s).2 := Kept.enqueueSlot radio (fun _ _ _ => rfl) ws s

/-- No callback tunes. -/
theorem sameRadio_packetCallback (p : Packet) (s : Fw) : SameRadio s (packetCallback p s) := by
  obtain ⟨l, a, cb, d, m, c, j, q, st, t, w, h⟩ := packetCallback_frame p s
  rw [h]
  exact rfl

theorem sameRadio_takeLePacket (t0tc : U32) (p : Packet) (s : Fw) :
    SameRadio s (takeLePacket t0tc p s) := by
  have hstart : SameRadio s { s with t0tc := t0tc } := rfl
  have hqueued := (hstart.trans (sameRadio_packetCallback p _)).trans
    (sameRadio_enqueueSlot (enqueueWrites .lePacket (packetBuf p)) _)
  exact hqueued

theorem sameRadio_csThresholdCalcAndSet (s : Fw) : SameRadio s (csThresholdCalcAndSet s) :=
  Kept.csThreshold radio (fun _ _ _ => rfl) s

/-- While connections are followed, no request tunes. -/
theorem sameRadio_request {d : Device} (hmode : d.mode = .btFollowLe) (r : VendorRequest) :
    SameRadio d.fw (vendorRequestHandler d r).fw := by
  have hsquelch : ∀ {s : Fw}, SameRadio d.fw s → SameRadio d.fw (csThresholdCalcAndSet s) :=
    fun h => h.trans (sameRadio_csThresholdCalcAndSet _)
  cases r with
  | setChannel param =>
    show SameRadio d.fw (setChannel param d).fw
    rw [setChannel_of_follow param hmode]
    exact rfl
  | setSquelch param => exact hsquelch rfl
  | setClock data => exact hsquelch rfl
  | btleSniffing => exact hsquelch rfl
  | btlePromisc =>
    show SameRadio d.fw (csThresholdCalcAndSet (queueInit { d.fw with hopMode := .none }))
    exact hsquelch rfl
  | poll =>
    obtain ⟨q, h⟩ := dequeuePkt_frame d.fw
    simp only [vendorRequestHandler, h]
    exact rfl
  | _ => exact rfl

/-- A handler has run: nothing of what the loop keeps for itself has changed. -/
structure HandlerRan (x x' : SyncLoop) : Prop where
  place : x'.place = x.place
  restartJamming : x'.restartJamming = x.restartJamming
  mode : x'.dev.mode = x.dev.mode
  radio : SameRadio x.dev.fw x'.dev.fw
  leJamCount : x'.dev.fw.leJamCount = x.dev.fw.leJamCount

/-- The DMA interrupt notes the time and the channel of a terminal count. -/
theorem btStreamDmaHandler_fw (s : Fw) (d : Dma) :
    SameRadio s (btStreamDmaHandler s d).1 ∧
      (btStreamDmaHandler s d).1.leJamCount = s.leJamCount := by
  unfold btStreamDmaHandler streamTc
  cases d.intTcStat <;> simp only [Bool.false_eq_true, if_false, if_true] <;> split <;>
    exact ⟨rfl, rfl⟩

theorem handlerRan_terminalCount (x : SyncLoop) : HandlerRan x (syncStep x .terminalCount) := by
  obtain ⟨hradio, hjam⟩ := btStreamDmaHandler_fw x.dev.fw x.dev.dma.transferDone
  dsimp only [syncStep, dmaIRQHandler]
  split
  · split
    · exact ⟨rfl, rfl, rfl, hradio, hjam⟩
    · exact ⟨rfl, rfl, rfl, Kept.refl _, rfl⟩
  · exact ⟨rfl, rfl, rfl, Kept.refl _, rfl⟩

theorem handlerRan_dmaError (x : SyncLoop) : HandlerRan x (syncStep x .dmaError) := by
  obtain ⟨hradio, hjam⟩ := btStreamDmaHandler_fw x.dev.fw x.dev.dma.transferError
  dsimp only [syncStep, dmaErrorIRQHandler]
  split
  · split
    · exact ⟨rfl, rfl, rfl, hradio, hjam⟩
    · exact ⟨rfl, rfl, rfl, Kept.refl _, rfl⟩
  · exact ⟨rfl, rfl, rfl, Kept.refl _, rfl⟩

theorem handlerRan_timer0 (x : SyncLoop) : HandlerRan x (syncStep x .timer0) := by
  obtain ⟨d, c, t, h⟩ := timer0IRQHandler_eq x.dev.fw
  dsimp only [syncStep]
  rw [h]
  exact ⟨rfl, rfl, rfl, rfl, rfl⟩

theorem handlerRan_request {x : SyncLoop} (hmode : x.dev.mode = .btFollowLe) (r : VendorRequest) :
    HandlerRan x (syncStep x (.request r)) := by
  obtain ⟨-, hkept, -, hjam⟩ := vendorRequestHandler_kept x.dev r
  exact ⟨rfl, rfl, hkept, sameRadio_request hmode r, hjam⟩

/-! ## The invariant -/

/-- From the timeout to the restart. -/
def goingBack : SyncPlace → Bool
  | .hop | .restart | .receive => true
  | _ => false

/-- Where a timeout has not just come. -/
def noTimeout : SyncPlace → Bool
  | .hop | .restart | .receive | .clear | .hung | .ended => false
  | _ => true

/-- The receiver is on the frequency that is due, once it has tuned; and on its way back after a
timeout the channel is the one asked for last, and `cc2400_rx_sync` is going to tune to it. -/
structure Consistent (y : SyncLoop × RequestRecord) : Prop where
  mode : y.1.dev.mode = .btFollowLe
  due : ∀ f ∈ y.2.due, y.1.dev.fw.channel = f ∧ (y.1.place ≠ .retune → y.1.dev.fw.fsdiv = f - 1)
  settled : noTimeout y.1.place = true → y.2.returning = none
  returns : goingBack y.1.place = true → ∀ f ∈ y.2.returning,
    y.1.dev.fw.channel = f ∧ y.1.restartJamming = true ∧ ¬0 < y.1.dev.fw.leJamCount
  back : y.1.place = .clear → ∀ f ∈ y.2.returning, TunedTo f y.1.dev.fw

/-- Where the receiver is not on its way back, what is due is all there is. -/
theorem Consistent.of_none {y : SyncLoop × RequestRecord} (hmode : y.1.dev.mode = .btFollowLe)
    (hdue : ∀ f ∈ y.2.due,
      y.1.dev.fw.channel = f ∧ (y.1.place ≠ .retune → y.1.dev.fw.fsdiv = f - 1))
    (hnone : y.2.returning = none) : Consistent y where
  mode := hmode
  due := hdue
  settled := fun _ => hnone
  returns := by simp [hnone]
  back := by simp [hnone]

/-- Whatever has been asked for before the mode is entered. -/
theorem consistent_enter (d : Device) (last : Option U16) :
    Consistent (enterSyncLoop .btFollowLe d, { last := last }) :=
  Consistent.of_none rfl (fun _ hf => absurd hf (by simp)) rfl

theorem Consistent.of_handlerRan {x x' : SyncLoop} {g g' : RequestRecord} (hy : Consistent (x, g))
    (h : HandlerRan x x') (hdue : g'.due = g.due) (hreturning : g'.returning = g.returning) :
    Consistent (x', g') where
  mode := h.mode.trans hy.mode
  due := by
    intro f hf
    obtain ⟨hchannel, hfsdiv⟩ := hy.due f (hdue ▸ hf)
    exact ⟨h.radio.channel.trans hchannel, fun hplace =>
      h.radio.fsdiv.trans (hfsdiv fun hx => hplace (h.place.trans hx))⟩
  settled := fun hplace => hreturning.trans (hy.settled (h.place ▸ hplace))
  returns := by
    intro hplace f hf
    obtain ⟨hchannel, hrestart, hjam⟩ := hy.returns (h.place ▸ hplace) f (hreturning ▸ hf)
    refine ⟨h.radio.channel.trans hchannel, h.restartJamming.trans hrestart, ?_⟩
    rw [h.leJamCount]
    exact hjam
  back := by
    intro hplace f hf
    obtain ⟨hfsdiv, hchannel⟩ := hy.back (h.place.symm.trans hplace) f (hreturning ▸ hf)
    exact ⟨h.radio.fsdiv.trans hfsdiv, h.radio.channel.trans hchannel⟩

/-! ## A step -/

/-- A statement that does not tune, where no timeout has just come. -/
theorem Consistent.of_settled {x x' : SyncLoop} {g : RequestRecord} (hy : Consistent (x, g))
    (hsettled : noTimeout x.place = true) (hretune : x.place ≠ .retune)
    (hmode : x'.dev.mode = x.dev.mode) (hradio : SameRadio x.dev.fw x'.dev.fw) :
    Consistent (x', g) :=
  Consistent.of_none (hmode.trans hy.mode)
    (fun f hf => ⟨hradio.channel.trans (hy.due f hf).1, fun _ =>
      hradio.fsdiv.trans ((hy.due f hf).2 hretune)⟩)
    (hy.settled hsettled)

/-- The head of the loop. -/
theorem consistent_head {x : SyncLoop} {g : RequestRecord} {i : SyncInput} (hy : Consistent (x, g))
    (hplace : x.place = .head) (he : Obeys (x, g) (.step i)) :
    Consistent (requestStep (x, g) (.step i)) := by
  obtain ⟨dev, modulation, restartJamming, place⟩ := x
  obtain rfl : place = .head := hplace
  dsimp only [requestStep, ghostStep, recordRequests, syncStep, syncMain]
  by_cases hrequested : ModeRequested dev
  · rw [if_pos hrequested, if_pos hrequested]
    refine Consistent.of_none hy.mode (fun f hf => ?_) (hy.settled rfl)
    cases hasked : g.asked with
    | none =>
      rw [hasked, Option.none_or] at hf
      exact ⟨(hy.due f hf).1, fun _ => (hy.due f hf).2 (by simp)⟩
    | some f' =>
      rw [hasked, Option.some_or, Option.mem_some_iff] at hf
      obtain rfl : f' = f := hf
      obtain ⟨hchannel, htuned⟩ := he hrequested f' hasked
      refine ⟨hchannel, fun hstay => htuned.resolve_left fun hpending => hstay ?_⟩
      exact if_pos hpending
  · rw [if_neg hrequested, if_neg hrequested]
    exact hy.of_settled rfl (by simp) rfl (Kept.refl _)

/-- `rx_flush`. -/
theorem consistent_flush {x : SyncLoop} {g : RequestRecord} {i : SyncInput}
    (hy : Consistent (x, g)) (hplace : x.place = .flush) (he : Obeys (x, g) (.step i)) :
    Consistent (requestStep (x, g) (.step i)) := by
  obtain ⟨dev, modulation, restartJamming, place⟩ := x
  obtain rfl : place = .flush := hplace
  dsimp only [requestStep, ghostStep, recordRequests, syncStep, syncMain]
  by_cases htimeout : leTimedOut (flushed i dev.fw) = true
  · have htimeout' : leTimedOut { dev.fw with t0tc := i.t0tc } = true := htimeout
    have hfollow : dev.mode = .btFollowLe := hy.mode
    rw [if_pos htimeout, if_pos htimeout', SyncLoop.timeOut]
    dsimp only
    by_cases honce : dev.fw.jamMode = jamOnce
    · rw [if_pos honce]
      exact {
        mode := hfollow
        due := fun _ hf => absurd hf (by simp)
        settled := fun h => absurd h Bool.false_ne_true
        returns := fun h => absurd h Bool.false_ne_true
        back := fun h => absurd h (by simp [SyncLoop.cleanup]) }
    · rw [if_neg honce, hfollow, if_neg (by simp)]
      exact {
        mode := rfl
        due := fun _ hf => absurd hf (by simp)
        settled := fun h => absurd h Bool.false_ne_true
        returns := fun _ f hf => ⟨he htimeout honce f hf, rfl, by simp [connectionLost]⟩
        back := fun h => absurd h (by simp) }
  · have htimeout' : ¬leTimedOut { dev.fw with t0tc := i.t0tc } = true := htimeout
    rw [if_neg htimeout, if_neg htimeout']
    exact hy.of_settled rfl (by simp) rfl rfl

/-- The hop after `rx_flush`. -/
theorem consistent_hop {x : SyncLoop} {g : RequestRecord} {i : SyncInput} (hy : Consistent (x, g))
    (hplace : x.place = .hop) (he : Obeys (x, g) (.step i)) :
    Consistent (requestStep (x, g) (.step i)) := by
  obtain ⟨dev, modulation, restartJamming, place⟩ := x
  obtain rfl : place = .hop := hplace
  dsimp only [requestStep, ghostStep, recordRequests, syncStep, syncMain]
  by_cases hdo : dev.fw.doHop = true
  · rw [if_pos hdo, if_pos hdo]
    cases hhop : hop dev.fw with
    | error f =>
      exact {
        mode := hy.mode
        due := fun _ hf => absurd hf (by simp)
        settled := fun h => absurd h Bool.false_ne_true
        returns := fun h => absurd h Bool.false_ne_true
        back := fun h => absurd h (by simp) }
    | ok s =>
      refine {
        mode := hy.mode
        due := fun _ hf => absurd hf (by simp)
        settled := fun h => absurd h Bool.false_ne_true
        returns := fun _ f hf => ?_
        back := fun h => absurd h (by simp) }
      obtain ⟨hchannel, hrestart, hjam⟩ := hy.returns rfl f hf
      have hstays : HopStays dev.fw := he (Option.isSome_iff_exists.2 ⟨f, hf⟩) hdo
      rw [HopStays, hhop] at hstays
      refine ⟨hstays.trans hchannel, hrestart, ?_⟩
      obtain ⟨c, i, r, a, b, d, rfl⟩ := hop_eq hhop
      exact hjam
  · rw [if_neg hdo, if_neg hdo]
    exact {
      mode := hy.mode
      due := fun f hf => ⟨(hy.due f hf).1, fun _ => (hy.due f hf).2 (by simp)⟩
      settled := fun h => absurd h Bool.false_ne_true
      returns := fun _ => hy.returns rfl
      back := fun h => absurd h (by simp) }

/-- The restart, by jamming or with the DMA. -/
theorem consistent_restart {x : SyncLoop} {g : RequestRecord} {i : SyncInput}
    (hy : Consistent (x, g)) (hplace : x.place = .restart) :
    Consistent (requestStep (x, g) (.step i)) := by
  obtain ⟨dev, modulation, restartJamming, place⟩ := x
  obtain rfl : place = .restart := hplace
  have hdue : ∀ f ∈ g.due, dev.fw.channel = f ∧ dev.fw.fsdiv = f - 1 :=
    fun f hf => ⟨(hy.due f hf).1, (hy.due f hf).2 (by simp)⟩
  dsimp only [requestStep, ghostStep, recordRequests, syncStep, syncMain]
  by_cases hcount : 0 < dev.fw.leJamCount
  · -- after a timeout nothing is jammed
    rw [if_pos hcount]
    exact {
      mode := hy.mode
      due := fun f hf => ⟨(hdue f hf).1, fun _ => (hdue f hf).2⟩
      settled := fun h => absurd h Bool.false_ne_true
      returns := fun h => absurd h Bool.false_ne_true
      back := fun _ f hf => absurd hcount (hy.returns rfl f hf).2.2 }
  · rw [if_neg hcount]
    exact {
      mode := hy.mode
      due := fun f hf => ⟨(hdue f hf).1, fun _ => (hdue f hf).2⟩
      settled := fun h => absurd h Bool.false_ne_true
      returns := fun _ => hy.returns rfl
      back := fun h => absurd h (by simp) }

/-- A modulation that is known tunes to the channel, any other not at all. -/
theorem cc2400RxSync_eq (modulation : U8) (s : Fw) :
    (cc2400RxSync modulation s).channel = s.channel ∧
      (cc2400RxSync modulation s).fsdiv =
        if modulation = modBtBasicRate ∨ modulation = modBtLowEnergy then s.channel - 1
        else s.fsdiv := by
  unfold cc2400RxSync
  split
  · have hradio := sameRadio_csThresholdCalcAndSet { s with fsdiv := s.channel - 1 }
    exact ⟨hradio.channel, hradio.fsdiv⟩
  · exact ⟨rfl, rfl⟩

/-- Reception starts again. -/
theorem consistent_receive {x : SyncLoop} {g : RequestRecord} {i : SyncInput}
    (hy : Consistent (x, g)) (hplace : x.place = .receive) (he : Obeys (x, g) (.step i)) :
    Consistent (requestStep (x, g) (.step i)) := by
  obtain ⟨dev, modulation, restartJamming, place⟩ := x
  obtain rfl : place = .receive := hplace
  have hdue : ∀ f ∈ g.due, dev.fw.channel = f ∧ dev.fw.fsdiv = f - 1 :=
    fun f hf => ⟨(hy.due f hf).1, (hy.due f hf).2 (by simp)⟩
  obtain ⟨hchannel, hfsdiv⟩ := cc2400RxSync_eq modulation dev.fw
  dsimp only [requestStep, ghostStep, recordRequests, syncStep, syncMain]
  split
  · refine {
      mode := hy.mode
      due := fun f hf => ⟨hchannel.trans (hdue f hf).1, fun _ => ?_⟩
      settled := fun h => absurd h Bool.false_ne_true
      returns := fun h => absurd h Bool.false_ne_true
      back := fun _ f hf => ⟨?_, hchannel.trans (hy.returns rfl f hf).1⟩ }
    · show (cc2400RxSync modulation dev.fw).fsdiv = f - 1
      rw [hfsdiv]
      split
      · rw [(hdue f hf).1]
      · exact (hdue f hf).2
    · show (cc2400RxSync modulation dev.fw).fsdiv = f - 1
      have hon : dev.fw.channel = f := (hy.returns rfl f hf).1
      rw [hfsdiv, ← hon]
      split
      · rfl
      · rename_i hunknown
        obtain hbasic | hlow | htuned := he (Option.isSome_iff_exists.2 ⟨f, hf⟩)
        · exact absurd (Or.inl hbasic) hunknown
        · exact absurd (Or.inr hlow) hunknown
        · exact htuned
  · rename_i hnot
    exact {
      mode := hy.mode
      due := fun f hf => ⟨(hdue f hf).1, fun _ => (hdue f hf).2⟩
      settled := fun h => absurd h Bool.false_ne_true
      returns := fun h => absurd h Bool.false_ne_true
      back := fun _ f hf => absurd (hy.returns rfl f hf).2.1 hnot }

/-- The statements that do not tune, from the waiting loop to the packet. -/
theorem syncMain_quiet {x : SyncLoop} (h : receives x.place = true) (i : SyncInput) :
    (syncMain i x).dev.mode = x.dev.mode ∧ SameRadio x.dev.fw (syncMain i x).dev.fw := by
  obtain ⟨dev, modulation, restartJamming, place⟩ := x
  cases place
  case waiting =>
    dsimp only [syncMain]
    split <;> exact ⟨rfl, Kept.refl _⟩
  case woken =>
    dsimp only [syncMain]
    split <;> exact ⟨rfl, rfl⟩
  case noteError => exact ⟨rfl, Kept.raiseIf radio (fun _ _ => rfl) _ .dmaError dev.fw⟩
  case testHop => exact ⟨rfl, Kept.refl _⟩
  case testTc => exact ⟨rfl, Kept.refl _⟩
  case packet =>
    dsimp only [syncMain]
    split
    · exact ⟨rfl, sameRadio_takeLePacket _ _ dev.fw⟩
    · exact ⟨rfl, Kept.refl _⟩
  all_goals cases h

/-- From the waiting loop to the packet. -/
theorem consistent_receives {x : SyncLoop} {g : RequestRecord} {i : SyncInput}
    (hy : Consistent (x, g)) (hplace : receives x.place = true) :
    Consistent (requestStep (x, g) (.step i)) := by
  obtain ⟨hmode, hradio⟩ := syncMain_quiet hplace i
  have hrecord : recordRequests g x (.step i) = g := by
    unfold recordRequests
    cases h : x.place <;> first | rfl | (rw [h] at hplace; cases hplace)
  show Consistent (syncMain i x, recordRequests g x (.step i))
  rw [hrecord]
  refine hy.of_settled ?_ ?_ hmode hradio
  · cases h : x.place <;> first | rfl | (rw [h] at hplace; cases hplace)
  · intro h
    rw [h] at hplace
    cases hplace

/-- The radio is tuned to the channel. -/
theorem consistent_retune {x : SyncLoop} {g : RequestRecord} {i : SyncInput}
    (hy : Consistent (x, g)) (hplace : x.place = .retune) :
    Consistent (requestStep (x, g) (.step i)) := by
  obtain ⟨dev, modulation, restartJamming, place⟩ := x
  obtain rfl : place = .retune := hplace
  refine Consistent.of_none hy.mode (fun f hf => ⟨(hy.due f hf).1, fun _ => ?_⟩) (hy.settled rfl)
  show dev.fw.channel - 1 = f - 1
  rw [(hy.due f hf).1]

/-- **A step** that has what it needs keeps the variables consistent. -/
theorem consistent_step (y : SyncLoop × RequestRecord) (e : SyncEvent) (hy : Consistent y)
    (he : Obeys y e) : Consistent (requestStep y e) := by
  obtain ⟨x, g⟩ := y
  cases e with
  | terminalCount => exact hy.of_handlerRan (handlerRan_terminalCount x) rfl rfl
  | dmaError => exact hy.of_handlerRan (handlerRan_dmaError x) rfl rfl
  | timer0 => exact hy.of_handlerRan (handlerRan_timer0 x) rfl rfl
  | eint3 => exact hy.of_handlerRan ⟨rfl, rfl, rfl, rfl, rfl⟩ rfl rfl
  | request r =>
    refine hy.of_handlerRan (handlerRan_request hy.mode r) ?_ ?_ <;> cases r <;> rfl
  | setMod param => exact hy.of_handlerRan ⟨rfl, rfl, rfl, rfl, rfl⟩ rfl rfl
  | step i =>
    cases hplace : x.place with
    | head => exact consistent_head hy hplace he
    | flush => exact consistent_flush hy hplace he
    | hop => exact consistent_hop hy hplace he
    | restart => exact consistent_restart hy hplace
    | receive => exact consistent_receive hy hplace he
    | retune => exact consistent_retune hy hplace
    | waiting | woken | noteError | testHop | testTc | packet =>
      exact consistent_receives hy (by rw [hplace]; rfl)
    | saveRequest | dropRequest =>
      obtain ⟨dev, modulation, restartJamming, place⟩ := x
      cases hplace
      exact hy.of_settled rfl (by simp) rfl (Kept.refl _)
    | clear =>
      obtain ⟨dev, modulation, restartJamming, place⟩ := x
      cases hplace
      exact Consistent.of_none hy.mode
        (fun f hf => ⟨(hy.due f hf).1, fun _ => (hy.due f hf).2 (by simp)⟩) rfl
    | hung | ended =>
      obtain ⟨dev, modulation, restartJamming, place⟩ := x
      cases hplace
      exact hy

/-- A consistent state obeys. -/
theorem Consistent.obeyed {y : SyncLoop × RequestRecord} (hy : Consistent y) : Obeyed y := by
  refine ⟨fun hplace f hf => ?_, hy.back⟩
  obtain ⟨hchannel, hfsdiv⟩ := hy.due f hf
  refine ⟨⟨hfsdiv fun h => ?_, hchannel⟩, fun i => ?_⟩
  · rw [h] at hplace
    cases hplace
  · rw [SyncLoop.unwhitened, hchannel]

/-! ## Runs -/

/-- **Requests for a channel.** In every run of `bt_le_sync` that follows connections, whatever has
been asked for before, if each statement has what it needs, every request is obeyed at the next
round, and after a timeout the receiver is back on the frequency asked for last. -/
theorem obeyed_of_obeys (d : Device) (last : Option U16) {es : List SyncEvent}
    (h : Along requestStep Obeys (enterSyncLoop .btFollowLe d, { last := last }) es) :
    Throughout requestStep Obeyed (enterSyncLoop .btFollowLe d, { last := last }) es :=
  fun _ hp => (run_invariant consistent_step (consistent_enter d last) (h.of_prefix hp)).obeyed

/-- The loop goes on, and nothing is received. -/
def quietStatement : SyncEvent :=
  .step { rssi := 0, t0tc := 0, stack := ⟨Vector.replicate 52 0⟩, rxbuf1 := fun _ => 0 }

/-- On the first advertising channel, with the last jam of a connection to come. -/
def lastJam : Device := { fw := { channel := 2402, leJamCount := 1 }, requestedMode := .btFollowLe }

/-- The host asks for the channel the receiver is on, and then the connection is over. -/
def askAgain : List SyncEvent :=
  .request (.setChannel 2402) :: List.replicate 4 quietStatement ++ .request .hop ::
    List.replicate 10 quietStatement

theorem obeyed_askAgain :
    Throughout requestStep Obeyed (enterSyncLoop .btFollowLe lastJam, { last := none }) askAgain :=
  obeyed_of_obeys lastJam none (by decide +kernel)

/-- The host asks for another channel. -/
def askOther : List SyncEvent := .request (.setChannel 2426) :: List.replicate 4 quietStatement

theorem not_obeyed_askOther :
    ¬Throughout requestStep Obeyed (enterSyncLoop .btFollowLe lastJam, { last := none })
      askOther := by
  intro h
  have hwaiting : receives (run requestStep (enterSyncLoop .btFollowLe lastJam, { last := none })
      askOther).1.place = true := by decide +kernel
  have hdue : 2426 ∈ (run requestStep (enterSyncLoop .btFollowLe lastJam, { last := none })
      askOther).2.due := by decide +kernel
  have hchannel := ((h askOther List.prefix_rfl).1 hwaiting 2426 hdue).1.2
  exact absurd hchannel (by decide +kernel)

end Ubertooth.LowEnergy
