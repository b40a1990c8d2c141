import Ubertooth.Firmware.Rounds
import Ubertooth.Firmware.Session
import Ubertooth.Foundations.Runs
import Ubertooth.Foundations.WrappingClock
import Ubertooth.Hopping.Search

/-!
# The dwell timeout of AFH detection

In `HOP_AFH` mode the clock interrupt sets `do_hop` when `clkn` equals `last_hop + hop_timeout`, and
at no later tick. From a hop on the clock comes to that value tick by tick; but it can be set past
it, it can jump past it by a pending `clkn_offset`, and the mode can be entered too late.
`dwell_timeout_iff` says over all runs when the timeout is kept, wherever the interrupt comes.
-/

namespace Ubertooth.Hopping

open Firmware Foundations

/-! ## Hops asked for -/

/-- The firmware calls `hop`, which writes `last_hop`, and the call returns. -/
def hopsNow (s : Session) : Bool :=
  s.place.receives && s.dev.fw.doHop && (Firmware.hop s.dev.fw).isOk

/-- Whether `do_hop` has been set since `last_hop` was last written, after one more event. -/
def askedSince (asked : Bool) (s : Session) : SessionEvent → Bool
  | .hop => asked && !hopsNow s
  | e => asked || (sessionStep s e).dev.fw.doHop

/-- One event. -/
def dwellStep : Session × Bool → SessionEvent → Session × Bool := ghostStep sessionStep askedSince

/-- If AFH detection runs and `hop_timeout` ticks have passed since the last hop, `do_hop` has been
set since. -/
def TimeoutKept (x : Session × Bool) : Prop :=
  x.1.dev.fw.hopMode = .afh →
    x.1.dev.fw.hopTimeout.setWidth 32 ≤ x.1.dev.fw.clkn - x.1.dev.fw.lastHop → x.2 = true

/-! ## What has to be so when -/

/-- At the next interrupt the clock has not passed `last_hop + hop_timeout`. -/
def NotPast (s : Fw) : Prop :=
  s.clkn + (s.clknOffset + 1) - s.lastHop ≤ s.hopTimeout.setWidth 32

instance (s : Fw) : Decidable (NotPast s) := inferInstanceAs (Decidable (_ ≤ _))

/-- When AFH detection is asked for, and when the clock is set in it, the timeout is not over before
the next interrupt, unless `do_hop` has been set since the last hop; and a hop in it finds no offset
pending that takes the clock past the next timeout. -/
def KeepsDeadline : Session × Bool → SessionEvent → Prop
  | (s, asked), .request .afh => asked = false → NotPast s.dev.fw
  | (s, asked), .request (.setClock data) => s.dev.fw.hopMode = .afh → asked = false →
      NotPast { s.dev.fw with clkn := (joinLow 4 data).setWidth 32 }
  | (s, _), .hop => hopsNow s = true → s.dev.fw.hopMode = .afh →
      s.dev.fw.clknOffset + 1 ≤ s.dev.fw.hopTimeout.setWidth 32
  | _, _ => True

/-- The timeout can still be kept. -/
def Ahead (x : Session × Bool) : Prop :=
  x.1.dev.fw.hopMode = .afh → x.2 = false → NotPast x.1.dev.fw

/-- A hop that is asked for has been asked for since the last one. -/
def Noted (x : Session × Bool) : Prop := x.1.dev.fw.doHop = true → x.2 = true

theorem Noted.or_doHop {x : Session × Bool} (h : Noted x) : (x.2 || x.1.dev.fw.doHop) = x.2 := by
  cases hdo : x.1.dev.fw.doHop with
  | false => exact Bool.or_false x.2
  | true => rw [h hdo, Bool.or_true]

/-! ## The clock interrupt -/

/-- In AFH detection the interrupt compares the clock with the deadline. -/
theorem timer0_afh {s : Fw} (h : s.hopMode = .afh) :
    timer0IRQHandler s = { s with
      clkn := s.clkn + (s.clknOffset + 1)
      clknOffset := 0
      doHop := s.doHop ||
        decide (s.lastHop + s.hopTimeout.setWidth 32 = s.clkn + (s.clknOffset + 1))
      t0mr0 := 3124 + s.clk100nsOffset.setWidth 32
      clk100nsOffset := 0 } := by
  simp only [timer0IRQHandler, triggerHop, advanceClkn, h]
  split
  · rw [decide_eq_true ‹_›, Bool.or_true]
  · rw [decide_eq_false ‹_›, Bool.or_false]

theorem timer0_hopMode (s : Fw) : (timer0IRQHandler s).hopMode = s.hopMode := by
  obtain ⟨d, c, t, h⟩ := timer0IRQHandler_eq s
  rw [h]

/-- An interrupt finds the timeout kept exactly if it could still be kept. -/
theorem timeoutKept_timer0_iff {x : Session × Bool} (h : Noted x) :
    TimeoutKept (dwellStep x .timer0) ↔ Ahead x := by
  obtain ⟨s, asked⟩ := x
  show ((timer0IRQHandler s.dev.fw).hopMode = .afh →
    (timer0IRQHandler s.dev.fw).hopTimeout.setWidth 32 ≤
      (timer0IRQHandler s.dev.fw).clkn - (timer0IRQHandler s.dev.fw).lastHop →
    (asked || (timer0IRQHandler s.dev.fw).doHop) = true) ↔ _
  rw [timer0_hopMode]
  refine forall_congr' fun hm => ?_
  rw [timer0_afh hm, ← Bool.or_assoc, h.or_doHop]
  cases asked with
  | true => exact iff_of_true (fun _ => Bool.true_or _) (fun hfalse => Bool.noConfusion hfalse)
  | false =>
    rw [Bool.false_or, decide_eq_true_iff, deadline_met_iff]
    exact ⟨fun hle _ => hle, fun hahead => hahead rfl⟩

/-- The interrupt itself leaves the timeout one that can still be kept. -/
theorem ahead_timer0 {x : Session × Bool} (h : Noted x) (hahead : Ahead x) :
    Ahead (dwellStep x .timer0) := by
  obtain ⟨s, asked⟩ := x
  intro hm hasked
  change (timer0IRQHandler s.dev.fw).hopMode = .afh at hm
  change (asked || (timer0IRQHandler s.dev.fw).doHop) = false at hasked
  show NotPast (timer0IRQHandler s.dev.fw)
  rw [timer0_hopMode] at hm
  rw [timer0_afh hm, ← Bool.or_assoc, h.or_doHop, Bool.or_eq_false_iff,
    decide_eq_false_iff_not] at hasked
  rw [timer0_afh hm]
  exact tick_sub_le (hahead hm hasked.1) hasked.2

/-! ## Functions that leave the deadline alone -/

/-- What says when the timeout is over. -/
def deadline (s : Fw) : U32 × U32 × U32 × U16 := (s.clkn, s.clknOffset, s.lastHop, s.hopTimeout)

def deadlineAndMode (s : Fw) : (U32 × U32 × U32 × U16) × HopMode := (deadline s, s.hopMode)

/-- The deadline stays, and AFH detection does not begin. -/
structure SameDeadline (s s' : Fw) : Prop where
  deadline : Kept deadline s s'
  hopMode : s'.hopMode = .afh → s.hopMode = .afh

theorem SameDeadline.notPast_iff {s s' : Fw} (h : SameDeadline s s') : NotPast s' ↔ NotPast s := by
  have hfields := h.deadline
  simp only [Kept, Hopping.deadline, Prod.mk.injEq] at hfields
  obtain ⟨hclkn, hoffset, hlast, htimeout⟩ := hfields
  rw [NotPast, hclkn, hoffset, hlast, htimeout, NotPast]

namespace SameDeadline

theorem of_fields {s s' : Fw} (hclkn : s'.clkn = s.clkn) (hoffset : s'.clknOffset = s.clknOffset)
    (hlast : s'.lastHop = s.lastHop) (htimeout : s'.hopTimeout = s.hopTimeout)
    (hmode : s'.hopMode = .afh → s.hopMode = .afh) : SameDeadline s s' :=
  ⟨by rw [Kept, Hopping.deadline, Hopping.deadline, hclkn, hoffset, hlast, htimeout], hmode⟩

theorem refl (s : Fw) : SameDeadline s s := ⟨Kept.refl s, id⟩

theorem trans {s t u : Fw} (h : SameDeadline s t) (h' : SameDeadline t u) : SameDeadline s u :=
  ⟨h.deadline.trans h'.deadline, fun hm => h.hopMode (h'.hopMode hm)⟩

/-- The hop mode stays, too. -/
theorem of_kept {s t : Fw} (h : Kept deadlineAndMode s t) : SameDeadline s t :=
  ⟨congrArg Prod.fst h, fun hm => (congrArg Prod.snd h).symm.trans hm⟩

theorem csThreshold (s : Fw) : SameDeadline s (csThresholdCalcAndSet s) :=
  of_kept (.csThreshold deadlineAndMode (fun _ _ _ => rfl) s)

theorem enqueueSlot (ws : List SlotWrite) (s : Fw) : SameDeadline s (enqueueSlot ws s).2 :=
  of_kept (.enqueueSlot deadlineAndMode (fun _ _ _ => rfl) ws s)

theorem raiseIf (p : Bool) (flag : StatusFlag) (s : Fw) :
    SameDeadline s (raiseIf p flag s) :=
  of_kept (.raiseIf deadlineAndMode (fun _ _ => rfl) p flag s)

/-- Processing a block. -/
theorem of_block {d d' : Device} (h : BlockOnly d d') : SameDeadline d.fw d'.fw := by
  obtain ⟨_, _, _, _, _, _, _, _, _, rfl⟩ := h
  exact ⟨rfl, id⟩

theorem dmaIRQHandler (d : Device) : SameDeadline d.fw (dmaIRQHandler d).fw := by
  obtain ⟨_, _, _, _, h⟩ := dmaIRQHandler_frame d
  rw [h]
  exact ⟨rfl, id⟩

/-! ### Packets -/

theorem observeHopInterval (s : Fw) : SameDeadline s (observeHopInterval s) := by
  obtain ⟨-, -, q, st, hfound⟩ | ⟨-, -, hagain⟩ | ⟨-, hnew⟩ := observeHopInterval_cases s
  · rw [hfound]
    exact of_fields rfl rfl rfl rfl fun hm => HopMode.noConfusion hm
  · rw [hagain]
    exact of_fields rfl rfl rfl rfl id
  · rw [hnew]
    exact of_fields rfl rfl rfl rfl id

theorem promiscRecoverHopInterval (s : Fw) : SameDeadline s (promiscRecoverHopInterval s) := by
  have hnote : ∀ clkDiff, SameDeadline s (noteClkDiff clkDiff s) := by
    intro clkDiff
    obtain ⟨w, hnoted, -⟩ := noteClkDiff_eq clkDiff s
    rw [hnoted]
    exact ⟨rfl, id⟩
  dsimp only [Firmware.promiscRecoverHopInterval]
  split
  · exact refl s
  · exact ((hnote _).trans (observeHopInterval _)).trans ⟨rfl, id⟩

theorem promiscRecoverHopIncrement (s : Fw) :
    SameDeadline s (promiscRecoverHopIncrement s) := by
  unfold Firmware.promiscRecoverHopIncrement
  split
  · exact ⟨rfl, id⟩
  · split
    · split
      · unfold recoverIncrement
        refine trans ?_ (enqueueSlot _ _)
        exact ⟨rfl, fun hm => HopMode.noConfusion hm⟩
      · exact ⟨rfl, id⟩
    · exact ⟨rfl, id⟩

theorem packetCallback (p : Packet) (s : Fw) : SameDeadline s (packetCallback p s) := by
  unfold Firmware.packetCallback
  split
  · exact refl s
  · obtain ⟨l, d, j, h⟩ := connectionFollowCb_frame p s
    rw [h]
    exact ⟨rfl, id⟩
  · obtain ⟨l, c, q, st, h⟩ := promiscFollowCb_frame p s
    rw [h]
    exact ⟨rfl, id⟩
  · exact promiscRecoverHopInterval s
  · exact promiscRecoverHopIncrement s

theorem lePacket (rssi : U8) (t0tc : U32) (p : Packet) (d : Device) :
    SameDeadline d.fw (lePacket rssi t0tc p d).fw := by
  dsimp only [Firmware.lePacket]
  split
  · exact refl d.fw
  · have hstart : SameDeadline d.fw { d.fw with t0tc := t0tc, rssiMin := rssi, rssiMax := rssi } :=
      ⟨rfl, id⟩
    have hqueued := ((hstart.trans (raiseIf (decide (d.dma.rxErr ≠ 0)) .dmaError _)).trans
      (packetCallback p _)).trans (enqueueSlot (enqueueWrites .lePacket (packetBuf p)) _)
    exact hqueued.trans ⟨rfl, id⟩

/-! ### Into and out of the modes -/

theorem enterPromiscSync (d : Device) : SameDeadline d.fw (enterPromiscSync d).fw :=
  (enqueueSlot _ d.fw).trans ⟨rfl, id⟩

theorem enterPromisc (d : Device) : SameDeadline d.fw (enterPromisc d).fw := by
  have hready : SameDeadline d.fw (jumpToDataChannel (resetLePromisc d.fw)) := by
    unfold jumpToDataChannel
    split
    · exact ⟨rfl, id⟩
    · exact ⟨rfl, id⟩
  dsimp only [Firmware.enterPromisc]
  split
  · exact hready.trans (enterPromiscSync { d with fw := jumpToDataChannel (resetLePromisc d.fw) })
  · exact (hready.trans (csThreshold _)).trans ⟨rfl, id⟩

theorem enter (d : Device) : SameDeadline d.fw (enter d).fw := by
  dsimp only [Firmware.enter]
  split
  case h_5 => exact enterPromisc _
  all_goals exact ⟨rfl, id⟩

theorem mainLoop (s : Session) : SameDeadline s.dev.fw (mainLoop s).dev.fw := by
  unfold Firmware.mainLoop
  split
  · exact refl s.dev.fw
  · split <;> first | exact enter s.dev | exact refl s.dev.fw

theorem loopHead (s : Session) : SameDeadline s.dev.fw (loopHead s).dev.fw := by
  unfold Firmware.loopHead
  split
  · exact mainLoop s
  all_goals first | exact refl s.dev.fw | (split <;> exact refl s.dev.fw)

theorem followAddress (aa : U32) (s : Fw) : SameDeadline s (followAddress aa s) := by
  refine trans ?_ (enqueueSlot _ _)
  exact ⟨rfl, id⟩

theorem genericHeard (aa : U32) (s : Session) :
    SameDeadline s.dev.fw (genericHeard aa s).dev.fw := by
  unfold Firmware.genericHeard Firmware.addressHeard
  split
  · exact refl s.dev.fw
  · split
    · exact (followAddress aa s.dev.fw).trans
        (enterPromiscSync { s.dev with fw := Firmware.followAddress aa s.dev.fw })
    · exact followAddress aa s.dev.fw

theorem leFlush (t0tc : U32) (s : Session) : SameDeadline s.dev.fw (leFlush t0tc s).dev.fw := by
  dsimp only [Firmware.leFlush]
  split
  · split
    · exact ⟨rfl, id⟩
    · split
      · exact ⟨rfl, id⟩
      · exact ⟨rfl, id⟩
  · exact ⟨rfl, id⟩

theorem leResume (d : Device) : SameDeadline d.fw (leResume d).fw := by
  dsimp only [Firmware.leResume, rxContinue]
  split
  · exact ⟨rfl, id⟩
  · exact refl d.fw

/-- What is done at one place only. -/
theorem at_place {place : Place} {f : Session → Session} {s : Session}
    (h : SameDeadline s.dev.fw (f s).dev.fw) : SameDeadline s.dev.fw (s.at place f).dev.fw :=
  Session.at_rule (p := fun t => SameDeadline s.dev.fw t.dev.fw) h (refl s.dev.fw)

/-- What is done in every receive loop. -/
theorem in_receiving {f : Device → Device} {s : Session} (h : SameDeadline s.dev.fw (f s.dev).fw) :
    SameDeadline s.dev.fw (s.receiving f).dev.fw :=
  Session.receiving_rule (p := fun t => SameDeadline s.dev.fw t.dev.fw) h (refl s.dev.fw)

/-- No request but three touches the deadline, unless it ends AFH detection. -/
theorem request (d : Device) {r : VendorRequest} (hafh : r ≠ .afh)
    (hclock : ∀ data, r ≠ .setClock data) :
    (vendorRequestHandler d r).fw.hopMode ≠ .afh ∨
      SameDeadline d.fw (vendorRequestHandler d r).fw := by
  cases r with
  | afh => exact absurd rfl hafh
  | setClock data => exact absurd rfl (hclock data)
  | setChannel param =>
    left
    obtain ⟨_, _, _, _, hset⟩ := setChannel_frame param d
    show (setChannel param d).fw.hopMode ≠ .afh
    rw [hset]
    exact askedMode_ne param (by simp) (by simp)
  | startHopping data => exact Or.inl HopMode.noConfusion
  | btleSniffing =>
    left
    dsimp only [vendorRequestHandler, btleSniffing]
    rw [csThresholdCalcAndSet_hopMode]
    exact HopMode.noConfusion
  | btlePromisc =>
    left
    dsimp only [vendorRequestHandler, btlePromisc]
    rw [csThresholdCalcAndSet_hopMode]
    exact HopMode.noConfusion
  | setSquelch param =>
    have hset : SameDeadline d.fw { d.fw with csThresholdReq := param.setWidth 8 } :=
      ⟨rfl, id⟩
    exact Or.inr (hset.trans (csThreshold _))
  | poll =>
    right
    obtain ⟨_, hpoll⟩ := dequeuePkt_frame d.fw
    show SameDeadline d.fw (dequeuePkt d.fw).2
    rw [hpoll]
    exact ⟨rfl, id⟩
  | _ => exact Or.inr ⟨rfl, id⟩

end SameDeadline

/-! ## One event -/

/-- The firmware hops, and writes `last_hop`, or nothing happens. -/
theorem hop_served (s : Session) :
    hopsNow s = false ∧ sessionStep s .hop = s ∨
      hopsNow s = true ∧ ∃ s', Firmware.hop s.dev.fw = .ok s' ∧
        (sessionStep s .hop).dev.fw = s' := by
  unfold hopsNow
  cases hplace : s.place.receives with
  | false =>
    left
    exact ⟨rfl, if_neg (by simp [hplace])⟩
  | true =>
    have hstep : sessionStep s .hop = s.device serveDoHop := if_pos hplace
    rw [hstep]
    cases hdo : s.dev.fw.doHop with
    | false =>
      left
      simp [Session.device, serveDoHop, hdo]
    | true =>
      cases hhop : Firmware.hop s.dev.fw with
      | error f =>
        left
        simp [Session.device, serveDoHop, hdo, hhop, Except.isOk, Except.toBool]
      | ok s' =>
        right
        simp [Session.device, serveDoHop, hdo, hhop, Except.isOk, Except.toBool]

/-- Whether a hop has been asked for is not forgotten before the next one. -/
theorem noted_step {x : Session × Bool} (h : Noted x) (e : SessionEvent) :
    Noted (dwellStep x e) := by
  obtain ⟨s, asked⟩ := x
  cases e with
  | hop =>
    show (sessionStep s .hop).dev.fw.doHop = true → (asked && !hopsNow s) = true
    obtain ⟨hnot, hsame⟩ | ⟨-, s', hhop, hserved⟩ := hop_served s
    · rw [hsame, hnot, Bool.not_false, Bool.and_true]
      exact h
    · obtain ⟨c, i, f, a, b, d, rfl⟩ := hop_eq hhop
      rw [hserved]
      exact fun hdo => Bool.noConfusion hdo
  | _ => exact fun hdo => (congrArg (asked || ·) hdo).trans (Bool.or_true asked)

/-- An event that leaves the deadline alone. -/
theorem ahead_of_sameDeadline {x : Session × Bool} {e : SessionEvent} (hahead : Ahead x)
    (hsame : SameDeadline x.1.dev.fw (sessionStep x.1 e).dev.fw)
    (hasked : (dwellStep x e).2 = (x.2 || (sessionStep x.1 e).dev.fw.doHop)) :
    Ahead (dwellStep x e) := by
  intro hm hnot
  rw [hasked, Bool.or_eq_false_iff] at hnot
  exact hsame.notPast_iff.2 (hahead (hsame.hopMode hm) hnot.1)

theorem ahead_request {x : Session × Bool} (hahead : Ahead x) {r : VendorRequest} (hafh : r ≠ .afh)
    (hclock : ∀ data, r ≠ .setClock data) : Ahead (dwellStep x (.request r)) := by
  rcases SameDeadline.request x.1.dev hafh hclock with hmode | hsame
  · exact fun hm => absurd hm hmode
  · exact ahead_of_sameDeadline hahead hsame rfl

/-- AFH detection is asked for. -/
theorem ahead_afh_iff {x : Session × Bool} (h : Noted x) :
    Ahead (dwellStep x (.request .afh)) ↔ KeepsDeadline x (.request .afh) := by
  show ((HopMode.afh : HopMode) = .afh → (x.2 || x.1.dev.fw.doHop) = false → NotPast x.1.dev.fw) ↔ _
  rw [h.or_doHop]
  exact ⟨fun hahead => hahead rfl, fun hkeeps _ => hkeeps⟩

/-- The clock is set. -/
theorem ahead_setClock_iff {x : Session × Bool} (h : Noted x) (data : ℕ → U8) :
    Ahead (dwellStep x (.request (.setClock data))) ↔
      KeepsDeadline x (.request (.setClock data)) := by
  obtain ⟨a, b, hsquelch⟩ := csThresholdCalcAndSet_frame
    { x.1.dev.fw with clkn := (joinLow 4 data).setWidth 32 }
  show ((csThresholdCalcAndSet _).hopMode = .afh →
    (x.2 || (csThresholdCalcAndSet _).doHop) = false → NotPast (csThresholdCalcAndSet _)) ↔ _
  rw [hsquelch]
  show (x.1.dev.fw.hopMode = .afh → (x.2 || x.1.dev.fw.doHop) = false → NotPast _) ↔ _
  rw [h.or_doHop]
  exact Iff.rfl

/-- The firmware hops. -/
theorem ahead_hop_iff {x : Session × Bool} (hahead : Ahead x) :
    Ahead (dwellStep x .hop) ↔ KeepsDeadline x .hop := by
  obtain ⟨s, asked⟩ := x
  show ((sessionStep s .hop).dev.fw.hopMode = .afh → (asked && !hopsNow s) = false →
    NotPast (sessionStep s .hop).dev.fw) ↔ _
  obtain ⟨hnot, hsame⟩ | ⟨hhops, s', hhop, hserved⟩ := hop_served s
  · rw [hsame, hnot, Bool.not_false, Bool.and_true]
    exact iff_of_true hahead fun hhops => absurd (hnot.symm.trans hhops) (by simp)
  · obtain ⟨c, i, f, a, b, d, rfl⟩ := hop_eq hhop
    have hback : s.dev.fw.clkn + (s.dev.fw.clknOffset + 1) - s.dev.fw.clkn =
        s.dev.fw.clknOffset + 1 := by
      rw [BitVec.add_comm, BitVec.add_sub_cancel]
    rw [hserved, hhops, Bool.not_true, Bool.and_false, NotPast]
    dsimp only
    rw [hback]
    exact ⟨fun h _ hm => h hm rfl, fun h hm _ => h hhops hm⟩

/-- **One event.** From a state in which the timeout can be kept, it still can be after an event
exactly if the event meets its condition. -/
theorem ahead_step_iff {x : Session × Bool} (h : Noted x) (hahead : Ahead x) (e : SessionEvent) :
    Ahead (dwellStep x e) ↔ KeepsDeadline x e := by
  have hquiet : ∀ e : SessionEvent,
      (dwellStep x e).2 = (x.2 || (sessionStep x.1 e).dev.fw.doHop) →
      SameDeadline x.1.dev.fw (sessionStep x.1 e).dev.fw → Ahead (dwellStep x e) :=
    fun e hasked hsame => ahead_of_sameDeadline hahead hsame hasked
  cases e with
  | request r =>
    cases r with
    | afh => exact ahead_afh_iff h
    | setClock data => exact ahead_setClock_iff h data
    | _ => exact iff_of_true (ahead_request hahead (by simp) (by simp)) trivial
  | timer0 => exact iff_of_true (ahead_timer0 h hahead) trivial
  | hop => exact ahead_hop_iff hahead
  | btleSlave data => exact iff_of_true (hquiet _ rfl (.refl _)) trivial
  | eint3 => exact iff_of_true (hquiet _ rfl ⟨rfl, id⟩) trivial
  | terminalCount => exact iff_of_true (hquiet _ rfl (.dmaIRQHandler _)) trivial
  | loopHead => exact iff_of_true (hquiet _ rfl (.loopHead _)) trivial
  | takeRequest =>
    refine iff_of_true (hquiet _ rfl (.at_place ?_)) trivial
    show SameDeadline x.1.dev.fw (takeRequest x.1.dev).fw
    unfold takeRequest
    split <;> exact .refl _
  | streamBlock samples buf =>
    exact iff_of_true (hquiet _ rfl (.at_place
      (.of_block (streamBlock_blockOnly samples buf x.1.dev)))) trivial
  | genericBlock samples bufs =>
    exact iff_of_true (hquiet _ rfl (.at_place
      (.of_block (genericBlock_blockOnly samples bufs x.1.dev)))) trivial
  | addressHeard aa =>
    exact iff_of_true (hquiet _ rfl (.at_place (.genericHeard aa x.1))) trivial
  | lePacket rssi t0tc p =>
    refine iff_of_true (hquiet _ rfl (.at_place ?_)) trivial
    split
    · exact .lePacket rssi t0tc p x.1.dev
    · exact .refl _
  | leFlush t0tc => exact iff_of_true (hquiet _ rfl (.at_place (.leFlush t0tc x.1))) trivial
  | leResume => exact iff_of_true (hquiet _ rfl (.at_place (.leResume x.1.dev))) trivial
  | rxContinue => exact iff_of_true (hquiet _ rfl (.in_receiving (.refl _))) trivial

/-! ## Over all runs -/

/-- **The dwell timeout.** In a run from power on, the timeout is kept at the interrupt wherever it
comes exactly if each AFH request, each time the clock is set and each hop meets its condition. -/
theorem dwell_timeout_iff (es : List SessionEvent) :
    (∀ pre, pre <+: es → TimeoutKept (run dwellStep (sessionOn, false) (pre ++ [.timer0]))) ↔
      Along dwellStep KeepsDeadline (sessionOn, false) es := by
  have hnoted : ∀ pre, Noted (run dwellStep (sessionOn, false) pre) := fun pre =>
    run_invariant (I := Noted) (C := fun _ _ => True) (fun _ e h _ => noted_step h e)
      (fun hdo => Bool.noConfusion hdo) (along_of_all (fun _ _ => trivial) _ pre)
  have hahead : (∀ pre, pre <+: es →
      TimeoutKept (run dwellStep (sessionOn, false) (pre ++ [.timer0]))) ↔
      Throughout dwellStep Ahead (sessionOn, false) es := by
    refine forall₂_congr fun pre _ => ?_
    rw [run_concat]
    exact timeoutKept_timer0_iff (hnoted pre)
  rw [hahead]
  refine throughout_iff_of_invariant (I := fun x => Noted x ∧ Ahead x) (fun _ h => h.2)
    (fun x e h hC => ⟨noted_step h.1 e, (ahead_step_iff h.1 h.2 e).2 hC⟩)
    (fun x e h hC hP => hC ((ahead_step_iff h.1 h.2 e).1 hP)) ⟨fun h => h, ?_⟩
  exact fun hm => HopMode.noConfusion hm

/-- AFH detection, and the clock is set to 1000: the interrupt finds the timeout over, and no hop
asked for. -/
theorem not_timeoutKept_setClock :
    ¬TimeoutKept (run dwellStep (sessionOn, false) [.request .afh, .request (.setClock fun i =>
      if i = 0 then 0xe8 else if i = 1 then 0x03 else 0), .timer0]) := by
  intro hkept
  exact absurd (hkept (by decide +kernel) (by decide +kernel)) (by decide +kernel)

end Ubertooth.Hopping
