import Ubertooth.Firmware.Rounds
import Ubertooth.Firmware.Session
import Ubertooth.LowEnergy.CrcInit

/-!
# Which packets a session receives and follows

Four fields of `le` say so: the access address, the CRC seed, and the target with its flag. They are
shared by all modes and both sides, the host and the air. `LinkFilter` is their value, `effect` says
what a step of a session does to it, and `filterOf_sessionStep` that it does no more: the results
about these fields are derived from it.
-/

namespace Ubertooth.LowEnergy

open Firmware

/-- The fields of `le` by which packets are received and followed. -/
@[ext]
structure LinkFilter where
  accessAddress : U32
  crcInitReversed : U32
  target : Vector U8 6
  targetSet : Bool

def filterOf (s : Fw) : LinkFilter where
  accessAddress := s.le.accessAddress
  crcInitReversed := s.le.crcInitReversed
  target := s.le.target
  targetSet := s.le.targetSet

/-- `0x8e89bed6`, the access address of the advertising channels. -/
abbrev advertisingAddress : U32 := 0x8e89bed6

/-- `0xAAAAAA`, the CRC register of the advertising channels. -/
abbrev advertisingSeed : U32 := 0xAAAAAA

/-! ## What a step does -/

/-- What can happen to the filter. -/
inductive FilterEffect
  | keep
  /-- `reset_le` -/
  | reset
  /-- the host gives an access address -/
  | given (aa : U32)
  /-- the host gives a target -/
  | target (x : Vector U8 6)
  /-- an access address is heard often enough -/
  | heard (aa : U32)
  /-- a CONNECT_REQ is followed -/
  | follow (p : Packet)
  /-- a CRCInit is recovered -/
  | recover (crcInit : U32)

def FilterEffect.apply (f : LinkFilter) : FilterEffect → LinkFilter
  | .keep => f
  | .reset => { f with accessAddress := advertisingAddress, crcInitReversed := advertisingSeed }
  | .given aa => { f with accessAddress := aa, targetSet := true }
  | .target x => { f with target := x, targetSet := true }
  | .heard aa => { f with accessAddress := aa }
  | .follow p =>
    { f with
      accessAddress := connectAccessAddress p
      crcInitReversed := (connectCrcInit p).reverse }
  | .recover crcInit => { f with crcInitReversed := reverse24 crcInit }

instance (p : Packet) (s : Fw) : Decidable (RecoversSeed p s) :=
  inferInstanceAs (Decidable (_ ∧ _))

/-- What a packet does that `bt_le_sync` hands to `packet_cb`. -/
def packetEffect (p : Packet) (s : Fw) : FilterEffect :=
  if s.packetCb = .connectionFollow ∧ AcceptsConnect p s then .follow p
  else if s.packetCb = .promiscFollow ∧ RecoversSeed p s then
    .recover (btleReverseCrc (emptyPduCrc p) (pdu p) 2)
  else .keep

/-- The main loop enters a mode that starts with `reset_le`. -/
def EntersReset (s : Session) : Prop :=
  s.place = .mainLoop ∧ s.dev.requestedMode ≠ s.dev.mode ∧
    (s.dev.requestedMode = .btFollowLe ∨
      s.dev.requestedMode = .btPromiscLe ∧ s.dev.fw.le.targetSet = false)

instance (s : Session) : Decidable (EntersReset s) := inferInstanceAs (Decidable (_ ∧ _))

/-- `bt_le_sync` has a packet that it hands to `packet_cb`. -/
def Receives (p : Packet) (s : Session) : Prop :=
  s.place = .leSync ∧ btLeSyncAccepts s.dev.fw.le p = true ∧ s.dev.dma.rxTc ≠ 0

instance (p : Packet) (s : Session) : Decidable (Receives p s) :=
  inferInstanceAs (Decidable (_ ∧ _))

/-- `bt_le_sync` times out when TIMER0 reads `t0tc`. -/
def TimesOut (t0tc : U32) (s : Session) : Prop :=
  s.place = .leSync ∧ leTimedOut { s.dev.fw with t0tc := t0tc } = true

instance (t0tc : U32) (s : Session) : Decidable (TimesOut t0tc s) :=
  inferInstanceAs (Decidable (_ ∧ _))

/-- What an event does in the state it comes in. -/
def effect (s : Session) : SessionEvent → FilterEffect
  | .request (.setAccessAddress data) => .given ((joinLow 4 data).setWidth 32)
  | .request (.btleSetTarget data) => .target (leTarget data)
  | .loopHead => if EntersReset s then .reset else .keep
  | .addressHeard aa => if s.place = .genericLe ∧ s.dev.dma.rxTc ≠ 0 then .heard aa else .keep
  | .lePacket _ _ p => if Receives p s then packetEffect p s.dev.fw else .keep
  | .leFlush t0tc => if TimesOut t0tc s then .reset else .keep
  | _ => .keep

/-! ## Functions that keep the filter -/

@[simp] theorem filterOf_csThreshold (s : Fw) :
    filterOf (csThresholdCalcAndSet s) = filterOf s :=
  Kept.csThreshold filterOf (fun _ _ _ => rfl) s

@[simp] theorem filterOf_enqueueSlot (ws : List SlotWrite) (s : Fw) :
    filterOf (enqueueSlot ws s).2 = filterOf s := Kept.enqueueSlot filterOf (fun _ _ _ => rfl) ws s

@[simp] theorem filterOf_enqueue (type : UsbPktType) (buf : Vector U8 dmaSize) (s : Fw) :
    filterOf (enqueue type buf s).2 = filterOf s := filterOf_enqueueSlot _ s

@[simp] theorem filterOf_lePromiscState (type : U8) (data : List U8) (s : Fw) :
    filterOf (lePromiscState type data s) = filterOf s := filterOf_enqueueSlot _ s

@[simp] theorem filterOf_raiseIf (p : Bool) (flag : StatusFlag) (s : Fw) :
    filterOf (raiseIf p flag s) = filterOf s := Kept.raiseIf filterOf (fun _ _ => rfl) p flag s

@[simp] theorem filterOf_timer0 (s : Fw) : filterOf (timer0IRQHandler s) = filterOf s :=
  Kept.timer0 filterOf (fun _ _ _ _ _ _ _ _ => rfl) s

theorem filterOf_dequeuePkt (s : Fw) : filterOf (dequeuePkt s).2 = filterOf s := by
  obtain ⟨q, h⟩ := dequeuePkt_frame s
  rw [h]
  rfl

theorem filterOf_hop {s s' : Fw} (h : hop s = .ok s') : filterOf s' = filterOf s := by
  obtain ⟨c, i, f, a, b, d, rfl⟩ := hop_eq h
  rfl

theorem filterOf_serveDoHop (d : Device) : filterOf (serveDoHop d).fw = filterOf d.fw := by
  unfold serveDoHop
  split
  · split
    case h_1 s hs => exact filterOf_hop hs
    case h_2 => rfl
  · rfl

theorem filterOf_dmaIRQHandler (d : Device) : filterOf (dmaIRQHandler d).fw = filterOf d.fw := by
  obtain ⟨_, _, _, _, h⟩ := dmaIRQHandler_frame d
  rw [h]
  rfl

theorem filterOf_of_block {d d' : Device} (h : BlockOnly d d') :
    filterOf d'.fw = filterOf d.fw := by
  obtain ⟨_, _, _, _, _, _, _, _, _, rfl⟩ := h
  rfl

theorem filterOf_takeRequest (d : Device) : filterOf (takeRequest d).fw = filterOf d.fw := by
  unfold takeRequest
  split <;> rfl

theorem filterOf_leResume (d : Device) : filterOf (leResume d).fw = filterOf d.fw := by
  dsimp only [leResume, rxContinue]
  split <;> rfl

/-! ## Requests -/

theorem filterOf_setChannel (param : U16) (d : Device) :
    filterOf (setChannel param d).fw = filterOf d.fw := by
  have htune : ∀ u : Device, filterOf (if u.mode ≠ .btFollowLe then
      { u with
        fw := csThresholdCalcAndSet { u.fw with channel := u.requestedChannel }
        requestedChannel := 0 } else u).fw = filterOf u.fw := by
    intro u
    split
    · exact filterOf_csThreshold _
    · rfl
  refine (htune _).trans ?_
  split <;> rfl

/-- Of the requests, two touch the filter. -/
theorem filterOf_vendorRequestHandler (s : Session) (r : VendorRequest) :
    filterOf (vendorRequestHandler s.dev r).fw =
      (effect s (.request r)).apply (filterOf s.dev.fw) := by
  cases r with
  | setChannel param => exact filterOf_setChannel param s.dev
  | setSquelch param => exact filterOf_csThreshold _
  | setClock data => exact filterOf_csThreshold _
  | btleSniffing => exact filterOf_csThreshold _
  | btlePromisc => exact filterOf_csThreshold _
  | poll => exact filterOf_dequeuePkt s.dev.fw
  | _ => rfl

/-! ## Into the modes -/

theorem filterOf_resetLe (s : Fw) :
    filterOf (resetLe s) = FilterEffect.reset.apply (filterOf s) := rfl

theorem filterOf_enterPromiscSync (d : Device) :
    filterOf (enterPromiscSync d).fw = filterOf d.fw :=
  filterOf_lePromiscState 0 (octetsOf d.fw.le.accessAddress 4) d.fw

theorem filterOf_jumpToDataChannel (s : Fw) : filterOf (jumpToDataChannel s) = filterOf s := by
  unfold jumpToDataChannel
  split <;> rfl

/-- With a target set `bt_promisc_le` goes on as it is, else it starts with `reset_le`. -/
theorem filterOf_enterPromisc (d : Device) :
    filterOf (enterPromisc d).fw = if d.fw.le.targetSet then filterOf d.fw
      else FilterEffect.reset.apply (filterOf d.fw) := by
  have hjump : filterOf (jumpToDataChannel (resetLePromisc d.fw)) = filterOf d.fw :=
    filterOf_jumpToDataChannel (resetLePromisc d.fw)
  have htarget : (jumpToDataChannel (resetLePromisc d.fw)).le.targetSet = d.fw.le.targetSet :=
    congrArg LinkFilter.targetSet hjump
  dsimp only [enterPromisc]
  rw [htarget]
  split
  · rw [filterOf_enterPromiscSync, hjump]
  · rw [← hjump, ← filterOf_csThreshold (jumpToDataChannel _), ← filterOf_resetLe]
    rfl

theorem enter_btFollowLe {d : Device} (h : d.requestedMode = .btFollowLe) :
    enter d = { d with
      fw := btFollowLe d.fw
      dma := dioSspStart (dmaInitLe (dioSspStop d.dma))
      mode := .btFollowLe } := by
  cases d
  subst h
  rfl

theorem enter_btPromiscLe {d : Device} (h : d.requestedMode = .btPromiscLe) :
    enter d = enterPromisc { d with dma := dioSspStop d.dma } := by
  cases d
  subst h
  rfl

theorem filterOf_enter_btFollowLe {d : Device} (h : d.requestedMode = .btFollowLe) :
    filterOf (enter d).fw = FilterEffect.reset.apply (filterOf d.fw) := by
  rw [enter_btFollowLe h]
  rfl

theorem filterOf_enter_btPromiscLe {d : Device} (h : d.requestedMode = .btPromiscLe) :
    filterOf (enter d).fw = if d.fw.le.targetSet then filterOf d.fw
      else FilterEffect.reset.apply (filterOf d.fw) := by
  rw [enter_btPromiscLe h]
  exact filterOf_enterPromisc { d with dma := dioSspStop d.dma }

theorem filterOf_enter_stream {d : Device} (h : d.requestedMode ≠ .btFollowLe)
    (h' : d.requestedMode ≠ .btPromiscLe) : filterOf (enter d).fw = filterOf d.fw := by
  dsimp only [enter]
  split
  case h_4 hm => exact absurd hm h
  case h_5 hm => exact absurd hm h'
  all_goals rfl

theorem filterOf_mainLoop {s : Session} (hp : s.place = .mainLoop) :
    filterOf (mainLoop s).dev.fw = (effect s .loopHead).apply (filterOf s.dev.fw) := by
  by_cases hmode : s.dev.requestedMode = s.dev.mode
  · have hkeep : ¬EntersReset s := fun h => h.2.1 hmode
    rw [mainLoop, if_pos hmode, effect, if_neg hkeep]
    rfl
  by_cases hfollow : s.dev.requestedMode = .btFollowLe
  · have hreset : EntersReset s := ⟨hp, hmode, Or.inl hfollow⟩
    rw [effect, if_pos hreset, ← filterOf_enter_btFollowLe hfollow, mainLoop, if_neg hmode]
    simp only [hfollow]
  by_cases hpromisc : s.dev.requestedMode = .btPromiscLe
  · have hreset : EntersReset s ↔ s.dev.fw.le.targetSet = false :=
      ⟨fun h => h.2.2.elim (fun hf => absurd hf hfollow) And.right,
        fun h => ⟨hp, hmode, Or.inr ⟨hpromisc, h⟩⟩⟩
    have henter := filterOf_enter_btPromiscLe hpromisc
    rw [mainLoop, if_neg hmode]
    simp only [hpromisc, effect, hreset]
    rw [henter]
    cases s.dev.fw.le.targetSet <;> rfl
  · have hkeep : ¬EntersReset s := fun h => h.2.2.elim hfollow fun hp => hpromisc hp.1
    have henter := filterOf_enter_stream hfollow hpromisc
    rw [effect, if_neg hkeep, mainLoop, if_neg hmode]
    split <;> first | rfl | exact henter

theorem filterOf_loopHead (s : Session) :
    filterOf (loopHead s).dev.fw = (effect s .loopHead).apply (filterOf s.dev.fw) := by
  by_cases hp : s.place = .mainLoop
  · rw [← filterOf_mainLoop hp, loopHead]
    simp only [hp]
  · have hkeep : ¬EntersReset s := fun h => hp h.1
    rw [effect, if_neg hkeep, loopHead]
    split
    case h_1 h => exact absurd h hp
    case h_2 => split <;> rfl
    case h_3 => split <;> rfl
    case h_4 => split <;> rfl
    case h_5 => split <;> rfl
    case h_6 => rfl

/-! ## Packets -/

theorem filterOf_promiscRecoverHopInterval (s : Fw) :
    filterOf (promiscRecoverHopInterval s) = filterOf s := by
  have hinterval : ∀ (u : Fw) (w : U16) (lp : LePromiscState), filterOf { u with
      le := { u.le with connInterval := w }, lePromisc := lp } = filterOf u := fun _ _ _ => rfl
  have hobserve : ∀ u : Fw, filterOf (observeHopInterval u) = filterOf u := by
    intro u
    obtain ⟨-, -, q, st, h⟩ | ⟨-, -, h⟩ | ⟨-, h⟩ := observeHopInterval_cases u <;> rw [h]
    · rfl
    · rfl
    · exact hinterval u _ _
  have hnote : ∀ (c : U32) (u : Fw), filterOf (noteClkDiff c u) = filterOf u := by
    intro c u
    obtain ⟨w, h, -⟩ := noteClkDiff_eq c u
    rw [h]
    rfl
  have hprev : ∀ (u : Fw) (c : U32), filterOf { u with prevClk := c } = filterOf u :=
    fun _ _ => rfl
  dsimp only [promiscRecoverHopInterval]
  split
  · rfl
  · rw [hprev, hobserve, hnote]

theorem filterOf_promiscRecoverHopIncrement (s : Fw) :
    filterOf (promiscRecoverHopIncrement s) = filterOf s := by
  unfold promiscRecoverHopIncrement
  split
  · rfl
  · split
    · split
      · exact filterOf_lePromiscState _ _ _
      · rfl
    · rfl

theorem filterOf_connectionFollowCb {p : Packet} {s : Fw} (h : ¬AcceptsConnect p s) :
    filterOf (connectionFollowCb p s) = filterOf s := by
  by_cases hp : s.le.linkState = .connPending
  · rw [connectionFollowCb_pending hp]
    rfl
  by_cases hc : s.le.linkState = .connected
  · rw [connectionFollowCb_connected hc]
    obtain ⟨w, o, i, n, u, hle⟩ := connectedLe_frame p s.clkn s.le
    rw [hle, LeState.applyUpdate]
    split <;> rfl
  · rw [connectionFollowCb_ignored hp hc h]

theorem filterOf_packetCallback (p : Packet) (s : Fw) :
    filterOf (packetCallback p s) = (packetEffect p s).apply (filterOf s) := by
  unfold packetCallback packetEffect
  cases hcb : s.packetCb with
  | null => rfl
  | connectionFollow =>
    by_cases hp : AcceptsConnect p s
    · simp only [hp, connectionFollowCb_of_acceptsConnect, and_self, if_true]
      rfl
    · simpa [hp, FilterEffect.apply] using filterOf_connectionFollowCb hp
  | promiscFollow =>
    by_cases hp : RecoversSeed p s
    · have hrecover : filterOf (recoverCrcInit p s) = (FilterEffect.recover
          (btleReverseCrc (emptyPduCrc p) (pdu p) 2)).apply (filterOf s) :=
        filterOf_lePromiscState _ _ _
      simpa [hp, promiscFollowCb_of_recoversSeed] using hrecover
    · simp [hp, promiscFollowCb_of_not_recoversSeed, FilterEffect.apply]
  | promiscRecoverHopInterval => exact filterOf_promiscRecoverHopInterval s
  | promiscRecoverHopIncrement => exact filterOf_promiscRecoverHopIncrement s

/-- The packet is handed over with the time, the RSSI and the status noted; none of them decides
what it does. -/
theorem filterOf_lePacket {d : Device} (rssi : U8) (t0tc : U32) (p : Packet)
    (h : d.dma.rxTc ≠ 0) :
    filterOf (lePacket rssi t0tc p d).fw = (packetEffect p d.fw).apply (filterOf d.fw) := by
  have hraise : ∀ (b : Bool) (s : Fw), packetEffect p (raiseIf b .dmaError s) = packetEffect p s :=
    fun b s => by cases b <;> rfl
  have hnote : ∀ s : Fw, filterOf { s with le := { s.le with lastPacket := s.clk100ns } } =
      filterOf s := fun _ => rfl
  dsimp only [lePacket]
  rw [if_neg h]
  rw [hnote, filterOf_enqueue, filterOf_packetCallback, hraise, filterOf_raiseIf]
  rfl

theorem filterOf_leFlush (t0tc : U32) (s : Session) :
    filterOf (leFlush t0tc s).dev.fw =
      if leTimedOut { s.dev.fw with t0tc := t0tc } then
        FilterEffect.reset.apply (filterOf s.dev.fw)
      else filterOf s.dev.fw := by
  dsimp only [leFlush]
  split
  · split
    · rfl
    · split <;> rfl
  · rfl

theorem filterOf_genericHeard (aa : U32) (s : Session) (h : s.dev.dma.rxTc ≠ 0) :
    filterOf (genericHeard aa s).dev.fw = (FilterEffect.heard aa).apply (filterOf s.dev.fw) := by
  have hfollow : filterOf (followAddress aa s.dev.fw) =
      (FilterEffect.heard aa).apply (filterOf s.dev.fw) := filterOf_lePromiscState _ _ _
  unfold genericHeard
  rw [if_neg h]
  split
  · rw [← hfollow, addressHeard, if_neg h]
    exact filterOf_enterPromiscSync _
  · exact hfollow

/-! ## Every step -/

theorem filterOf_at {place : Place} {f : Device → Device} {s : Session}
    (h : filterOf (f s.dev).fw = filterOf s.dev.fw) :
    filterOf (s.at place (Session.device f)).dev.fw = filterOf s.dev.fw :=
  Session.at_rule (p := fun t => filterOf t.dev.fw = filterOf s.dev.fw) h rfl

theorem filterOf_receiving {f : Device → Device} {s : Session}
    (h : filterOf (f s.dev).fw = filterOf s.dev.fw) :
    filterOf (s.receiving f).dev.fw = filterOf s.dev.fw :=
  Session.receiving_rule (p := fun t => filterOf t.dev.fw = filterOf s.dev.fw) h rfl

/-- **What a step does to the filter.** -/
theorem filterOf_sessionStep (s : Session) (e : SessionEvent) :
    filterOf (sessionStep s e).dev.fw = (effect s e).apply (filterOf s.dev.fw) := by
  cases e with
  | request r => exact filterOf_vendorRequestHandler s r
  | timer0 => exact filterOf_timer0 s.dev.fw
  | terminalCount => exact filterOf_dmaIRQHandler s.dev
  | loopHead => exact filterOf_loopHead s
  | takeRequest => exact filterOf_at (filterOf_takeRequest s.dev)
  | hop => exact filterOf_receiving (filterOf_serveDoHop s.dev)
  | streamBlock samples buf =>
    exact filterOf_at (filterOf_of_block (streamBlock_blockOnly samples buf s.dev))
  | genericBlock samples bufs =>
    exact filterOf_at (filterOf_of_block (genericBlock_blockOnly samples bufs s.dev))
  | addressHeard aa =>
    dsimp only [sessionStep, Session.at, effect]
    by_cases hp : s.place = .genericLe
    · by_cases htc : s.dev.dma.rxTc = 0
      · rw [if_pos hp, genericHeard, if_pos htc, if_neg fun h => h.2 htc]
        rfl
      · rw [if_pos hp, if_pos ⟨hp, htc⟩, filterOf_genericHeard aa s htc]
    · rw [if_neg hp, if_neg fun h => hp h.1]
      rfl
  | lePacket rssi t0tc p =>
    dsimp only [sessionStep, Session.at, Session.device, effect]
    by_cases h : Receives p s
    · rw [if_pos h, if_pos h.1, if_pos h.2.1]
      exact filterOf_lePacket rssi t0tc p h.2.2
    · rw [if_neg h]
      split
      · split
        · have htc : s.dev.dma.rxTc = 0 := not_not.1 fun htc => h ⟨‹_›, ‹_›, htc⟩
          rw [lePacket, if_pos htc]
          rfl
        · rfl
      · rfl
  | leFlush t0tc =>
    dsimp only [sessionStep, Session.at, effect]
    by_cases hp : s.place = .leSync
    · rw [if_pos hp, filterOf_leFlush]
      by_cases ht : leTimedOut { s.dev.fw with t0tc := t0tc } = true
      · rw [if_pos ht, if_pos ⟨hp, ht⟩]
      · rw [if_neg ht, if_neg fun h => ht h.2]
        rfl
    · rw [if_neg hp, if_neg fun h => hp h.1]
      rfl
  | leResume => exact filterOf_at (filterOf_leResume s.dev)
  | rxContinue => exact @filterOf_receiving rxContinue s rfl
  | btleSlave data => rfl
  | eint3 => rfl

end Ubertooth.LowEnergy
