import Ubertooth.Foundations.Runs
import Ubertooth.LowEnergy.Link

/-!
# Connection parameters and their updates

`connection_follow_cb` learns the parameters of a connection from a CONNECT_REQ, and later from
CONNECTION_UPDATE_REQs, which it records and applies at the event they name.

* A CONNECT_REQ is read one octet short: its interval and window offset arrive as an update would
  leave them exactly when both fit an octet (`connect_agrees_with_update_iff`).
* A request is tested on the `int` difference of two wrapping counters, after its fields have been
  stored: it is handled as the wrapping counters ask exactly when its instant is ahead, or is
  refused without having anything to spoil (`requestHandled_iff`).
* A pending update is applied at the instant it names and at no other event, so it survives the
  events missed exactly when a packet of that event is heard (`update_kept_iff`).
-/

namespace Ubertooth.LowEnergy

open Firmware Foundations

/-! ## The packets that do not ask for an update -/

/-- No packet asks for an update. -/
def NoRequest (_ : Fw) : LeEvent → Prop
  | .packet _ p => isConnectionUpdateReq p = false
  | _ => True

instance (s : Fw) : (e : LeEvent) → Decidable (NoRequest s e)
  | .timer0 => inferInstanceAs (Decidable True)
  | .hop => inferInstanceAs (Decidable True)
  | .packet _ _ => inferInstanceAs (Decidable (_ = _))

/-- A link on a connection, with the update last recorded. -/
structure Recorded (interval winOffset instant : U16) (s : Fw) : Prop where
  packetCb : s.packetCb = .connectionFollow
  linkState : s.le.linkState = .connected
  intervalUpdate : s.le.intervalUpdate = interval
  winOffsetUpdate : s.le.winOffsetUpdate = winOffset
  updateInstant : s.le.updateInstant = instant

variable {interval winOffset instant : U16} {s : Fw}

theorem recorded_applyUpdate (h : Recorded interval winOffset instant s) (clkn : U32) :
    Recorded interval winOffset instant { s with le := s.le.applyUpdate clkn } := by
  obtain ⟨hcb, hl, hi, hw, hn⟩ := h
  by_cases hdue : s.le.UpdateDue
  · rw [applyUpdate_of_due _ hdue]
    exact ⟨hcb, hl, hi, hw, hn⟩
  · rw [applyUpdate_of_not_due _ hdue]
    exact ⟨hcb, hl, hi, hw, hn⟩

theorem leStep_packet_connected (hcb : s.packetCb = .connectionFollow)
    (hl : s.le.linkState = .connected) (t : U32) (p : Packet) :
    leStep s (.packet t p) = { s with t0tc := t, le := connectedLe p s.clkn s.le } := by
  have hl' : ({ s with t0tc := t } : Fw).le.linkState = .connected := hl
  rw [leStep_packet_follow hcb, connectionFollowCb_connected hl']

/-- Interrupts, hops and packets that ask for no update leave what was recorded. -/
theorem recorded_step (h : Recorded interval winOffset instant s) {e : LeEvent}
    (he : NoRequest s e) : Recorded interval winOffset instant (leStep s e) := by
  cases e with
  | timer0 =>
    obtain ⟨-, hcb, -, c, t, hle⟩ := timer0IRQHandler_frame s
    obtain ⟨hcb', hl, hi, hw, hn⟩ := h
    exact ⟨hcb.trans hcb', by rw [leStep, hle]; exact hl, by rw [leStep, hle]; exact hi,
      by rw [leStep, hle]; exact hw, by rw [leStep, hle]; exact hn⟩
  | hop =>
    obtain ⟨-, hcb, -, -, i, hle⟩ := serveHop_frame s
    obtain ⟨hcb', hl, hi, hw, hn⟩ := h
    exact ⟨hcb.trans hcb', by rw [leStep, hle]; exact hl, by rw [leStep, hle]; exact hi,
      by rw [leStep, hle]; exact hw, by rw [leStep, hle]; exact hn⟩
  | packet t p =>
    rw [leStep_packet_connected h.packetCb h.linkState, connectedLe_of_not_req he]
    obtain ⟨hcb, hl, hi, hw, hn⟩ := recorded_applyUpdate h s.clkn
    exact ⟨hcb, hl, hi, hw, hn⟩

/-! ## Two ways to learn the parameters -/

/-- The packet carries the interval and the window offset where a CONNECT_REQ has them. -/
def ConnectCarries (p : Packet) (interval winOffset : U16) : Prop :=
  u16le p[28] p[29] = interval ∧ u16le p[26] p[27] = winOffset

instance (p : Packet) (interval winOffset : U16) :
    Decidable (ConnectCarries p interval winOffset) := instDecidableAnd

/-- The packet asks for an update to the interval and the window offset. -/
def UpdateCarries (q : Packet) (interval winOffset : U16) : Prop :=
  isConnectionUpdateReq q = true ∧ u16le q[10] q[11] = interval ∧ u16le q[8] q[9] = winOffset

instance (q : Packet) (interval winOffset : U16) :
    Decidable (UpdateCarries q interval winOffset) := inferInstanceAs (Decidable (_ ∧ _))

/-- The link has the interval and the window offset. -/
def HasParameters (le : LeState) (interval winOffset : U16) : Prop :=
  le.connInterval = interval ∧ le.winOffset = winOffset

instance (le : LeState) (interval winOffset : U16) :
    Decidable (HasParameters le interval winOffset) := instDecidableAnd

/-- Two octets, low one first. -/
theorem toNat_u16le (lo hi : U8) : (u16le lo hi).toNat = lo.toNat + 256 * hi.toNat := by
  have hlo := lo.isLt
  have hhi := hi.isLt
  rw [u16le, BitVec.toNat_add, BitVec.toNat_shiftLeft, BitVec.toNat_setWidth,
    BitVec.toNat_setWidth, Nat.shiftLeft_eq]
  omega

/-- The low octet alone is the word exactly when the word fits an octet. -/
theorem setWidth_eq_u16le_iff (lo hi : U8) :
    lo.setWidth 16 = u16le lo hi ↔ (u16le lo hi).toNat < 256 := by
  have hlo := lo.isLt
  have hword := toNat_u16le lo hi
  have hlow : (lo.setWidth 16).toNat = lo.toNat := BitVec.toNat_setWidth_of_le (by omega)
  rw [← BitVec.toNat_inj, hlow]
  omega

theorem hasParameters_followConnect_iff {p : Packet} (hp : ConnectCarries p interval winOffset)
    (s : Fw) : HasParameters (followConnect p s).le interval winOffset ↔
      interval.toNat < 256 ∧ winOffset.toNat < 256 := by
  obtain ⟨rfl, rfl⟩ := hp
  exact and_congr (setWidth_eq_u16le_iff p[28] p[29]) (setWidth_eq_u16le_iff p[26] p[27])

theorem recorded_of_updateCarries {q : Packet} (hcb : s.packetCb = .connectionFollow)
    (hl : s.le.linkState = .connected) (hq : UpdateCarries q interval winOffset) (t : U32) :
    Recorded interval winOffset (u16le q[16] q[17]) (leStep s (.packet t q)) := by
  obtain ⟨hreq, hi, hw⟩ := hq
  have hl' : (s.le.applyUpdate s.clkn).linkState = .connected := by
    unfold LeState.applyUpdate
    split <;> exact hl
  rw [leStep_packet_connected hcb hl, connectedLe, if_pos hreq]
  exact ⟨hcb, hl', hi, hw, rfl⟩

/-- A recorded update, once applied, leaves its parameters. -/
theorem hasParameters_of_due (h : Recorded interval winOffset instant s) (hdue : s.le.UpdateDue)
    (t : U32) (r : Packet) :
    HasParameters (leStep s (.packet t r)).le interval winOffset := by
  have happly : HasParameters (s.le.applyUpdate s.clkn) interval winOffset := by
    rw [applyUpdate_of_due _ hdue]
    exact ⟨h.intervalUpdate, h.winOffsetUpdate⟩
  obtain ⟨w, o, i, n, u, hle⟩ := connectedLe_frame r s.clkn s.le
  rw [leStep_packet_connected h.packetCb h.linkState, hle]
  exact happly

/-- **Two ways to learn the parameters.** Following a CONNECT_REQ that carries an interval and a
window offset, and receiving an update that carries them, on any connection, until it has been
applied, leave the two of them exactly as carried if and only if both fit an octet. -/
theorem connect_agrees_with_update_iff {interval winOffset : U16} {s₁ s₂ : Fw} {p q r : Packet}
    (t₀ t₁ : U32) (es : List LeEvent) (hp : AcceptsConnect p s₁)
    (hconnect : ConnectCarries p interval winOffset) (hcb : s₂.packetCb = .connectionFollow)
    (hl : s₂.le.linkState = .connected) (hupdate : UpdateCarries q interval winOffset)
    (hes : Along leStep NoRequest (leStep s₂ (.packet t₀ q)) es)
    (hdue : (run leStep s₂ (.packet t₀ q :: es)).le.UpdateDue) :
    HasParameters (connectionFollowCb p s₁).le interval winOffset ∧
      HasParameters (run leStep s₂ (.packet t₀ q :: es ++ [.packet t₁ r])).le interval winOffset ↔
    interval.toNat < 256 ∧ winOffset.toNat < 256 := by
  have hrecorded := recorded_of_updateCarries hcb hl hupdate t₀
  have hrun := run_invariant (I := Recorded interval winOffset _)
    (fun s e h he => recorded_step h he) hrecorded hes
  have happlied := hasParameters_of_due hrun hdue t₁ r
  rw [connectionFollowCb_of_acceptsConnect hp, hasParameters_followConnect_iff hconnect s₁,
    run_concat]
  exact and_iff_left happlied

/-- A CONNECT_REQ with the interval in octets 28 and 29, and increment 7. -/
def connectReq (interval : U16) : Packet :=
  packetOf [(4, 0x05), (28, interval.setWidth 8), (29, (interval >>> 8).setWidth 8), (39, 0x07)]

/-- A CONNECTION_UPDATE_REQ with the interval in octets 10 and 11 and the instant in octets 16
and 17. -/
def updateReq (interval instant : U16) : Packet :=
  packetOf [(4, 0x03), (10, interval.setWidth 8), (11, (interval >>> 8).setWidth 8),
    (16, instant.setWidth 8), (17, (instant >>> 8).setWidth 8)]

/-- The firmware following a connection with interval 6, on its first data packet. -/
def connectedSix : Fw :=
  run leStep listening [.packet 0 (connectReq 6), .hop, .packet 0 emptyPacket]

theorem connect_agrees_with_update_connectReq_six :
    HasParameters (connectionFollowCb (connectReq 6) listening).le 6 0 ∧
      HasParameters (run leStep connectedSix [.packet 0 (updateReq 6 0), .timer0,
        .packet 0 emptyPacket]).le 6 0 :=
  (connect_agrees_with_update_iff 0 0 [.timer0] (by decide +kernel) (by decide +kernel)
    (by decide +kernel) (by decide +kernel) (by decide +kernel) (by decide +kernel)
    (by decide +kernel)).2 (by decide)

/-- A CONNECT_REQ with interval 256 leaves interval 0. -/
theorem not_hasParameters_connectReq_wide :
    AcceptsConnect (connectReq 256) listening ∧ ConnectCarries (connectReq 256) 256 0 ∧
      ¬HasParameters (connectionFollowCb (connectReq 256) listening).le 256 0 := by
  decide +kernel

/-! ## Requests -/

/-- The instant is ahead of the event counter, as 16-bit counters that wrap. -/
def InFuture (instant count : U16) : Prop := (instant - count).toNat < 32767

instance (instant count : U16) : Decidable (InFuture instant count) :=
  inferInstanceAs (Decidable (_ < _))

/-- The test on the `int` difference also passes every instant below the counter. -/
theorem instantAhead_iff (instant count : U16) :
    InstantAhead instant count ↔ InFuture instant count ∨ instant.toNat < count.toNat := by
  have hinstant := instant.isLt
  have hcount := count.isLt
  unfold InstantAhead InFuture
  rw [BitVec.toNat_sub]
  omega

/-- The fields of the request stand in `le`. -/
def Records (le : LeState) (q : Packet) : Prop :=
  le.winSizeUpdate = q[7] ∧ le.winOffsetUpdate = u16le q[8] q[9] ∧
    le.intervalUpdate = u16le q[10] q[11] ∧ le.updateInstant = u16le q[16] q[17]

instance (le : LeState) (q : Packet) : Decidable (Records le q) :=
  inferInstanceAs (Decidable (_ ∧ _))

/-- A request taken from `le` to `le'` is accepted exactly when its instant is ahead, and changes
nothing otherwise. -/
def Handled (q : Packet) (le le' : LeState) : Prop :=
  ((le'.updatePending = true ∧ Records le' q) ↔ InFuture (u16le q[16] q[17]) le.connCount) ∧
    (¬InFuture (u16le q[16] q[17]) le.connCount → le' = le)

instance (q : Packet) (le le' : LeState) : Decidable (Handled q le le') :=
  inferInstanceAs (Decidable (_ ∧ _))

/-- The instant is ahead; or it is not below the counter, no update is pending, and the fields of
the request are the ones recorded last. -/
def Harmless (q : Packet) (le : LeState) : Prop :=
  InFuture (u16le q[16] q[17]) le.connCount ∨
    le.connCount.toNat ≤ (u16le q[16] q[17]).toNat ∧ le.updatePending = false ∧ Records le q

theorem records_recordUpdate (q : Packet) (le : LeState) : Records (le.recordUpdate q) q :=
  ⟨rfl, rfl, rfl, rfl⟩

theorem updatePending_recordUpdate (q : Packet) (le : LeState) :
    (le.recordUpdate q).updatePending = true ↔
      InstantAhead (u16le q[16] q[17]) le.connCount ∨ le.updatePending = true := by
  show (if InstantAhead (u16le q[16] q[17]) le.connCount then true else le.updatePending) = true ↔ _
  split
  case isTrue h => exact iff_of_true rfl (Or.inl h)
  case isFalse h => exact (or_iff_right h).symm

theorem recordUpdate_eq_self {q : Packet} {le : LeState} (hr : Records le q)
    (ha : ¬InstantAhead (u16le q[16] q[17]) le.connCount) : le.recordUpdate q = le := by
  obtain ⟨hsize, hoffset, hinterval, hinstant⟩ := hr
  rw [LeState.recordUpdate, if_neg ha, ← hsize, ← hoffset, ← hinterval, ← hinstant]

theorem handled_recordUpdate_iff (q : Packet) (le : LeState) :
    Handled q le (le.recordUpdate q) ↔ Harmless q le := by
  have hahead := instantAhead_iff (u16le q[16] q[17]) le.connCount
  have hpending := updatePending_recordUpdate q le
  have hrecords := records_recordUpdate q le
  unfold Handled Harmless
  rw [hpending, hahead]
  by_cases hf : InFuture (u16le q[16] q[17]) le.connCount
  · exact iff_of_true ⟨iff_of_true ⟨Or.inl (Or.inl hf), hrecords⟩ hf, fun h => absurd hf h⟩
      (Or.inl hf)
  · constructor
    · rintro ⟨haccept, hsame⟩
      have hnot : ¬((InFuture (u16le q[16] q[17]) le.connCount ∨
          (u16le q[16] q[17]).toNat < le.connCount.toNat) ∨ le.updatePending = true) :=
        fun h => hf (haccept.1 ⟨h, hrecords⟩)
      have hrecords' := hrecords
      rw [hsame hf] at hrecords'
      have hle : le.connCount.toNat ≤ (u16le q[16] q[17]).toNat :=
        Nat.le_of_not_lt fun h => hnot (Or.inl (Or.inr h))
      exact Or.inr ⟨hle, Bool.eq_false_iff.2 fun h => hnot (Or.inr h), hrecords'⟩
    · rintro (h | ⟨hle, hidle, hr⟩)
      · exact absurd h hf
      · have ha : ¬InstantAhead (u16le q[16] q[17]) le.connCount := by
          rw [hahead]
          rintro (h | h)
          · exact hf h
          · omega
        refine ⟨iff_of_false ?_ hf, fun _ => recordUpdate_eq_self hr ha⟩
        rintro ⟨(h | h) | h, -⟩
        · exact hf h
        · omega
        · rw [hidle] at h
          exact absurd h (by simp)

/-- A request received on a connection is handled as the wrapping counters ask; an update that is
due at the same packet is applied first. -/
def RequestHandled (s : Fw) : LeEvent → Prop
  | .packet t q => s.packetCb = .connectionFollow → s.le.linkState = .connected →
      isConnectionUpdateReq q = true →
      Handled q (s.le.applyUpdate s.clkn) (leStep s (.packet t q)).le
  | _ => True

instance (s : Fw) : (e : LeEvent) → Decidable (RequestHandled s e)
  | .timer0 => inferInstanceAs (Decidable True)
  | .hop => inferInstanceAs (Decidable True)
  | .packet _ _ => inferInstanceAs (Decidable (_ → _ → _ → _))

/-- A request received on a connection is harmless. -/
def RequestHarmless (s : Fw) : LeEvent → Prop
  | .packet _ q => s.packetCb = .connectionFollow → s.le.linkState = .connected →
      isConnectionUpdateReq q = true → Harmless q (s.le.applyUpdate s.clkn)
  | _ => True

theorem requestHandled_step_iff (s : Fw) (e : LeEvent) :
    RequestHandled s e ↔ RequestHarmless s e := by
  cases e with
  | timer0 => exact Iff.rfl
  | hop => exact Iff.rfl
  | packet t q =>
    refine forall_congr' fun hcb => forall_congr' fun hl => forall_congr' fun hq => ?_
    rw [leStep_packet_connected hcb hl, connectedLe, if_pos hq]
    exact handled_recordUpdate_iff q _

/-- **Requests along a run.** From any state, every request received on a connection is accepted
exactly when its instant is ahead of the event counter, and otherwise changes nothing, if and only
if every one is harmless. -/
theorem requestHandled_iff (s : Fw) (es : List LeEvent) :
    Along leStep RequestHandled s es ↔ Along leStep RequestHarmless s es :=
  along_congr requestHandled_step_iff

/-- A request for event 0, received in event 1, is accepted. -/
theorem not_requestHandled_past :
    ¬Along leStep RequestHandled listening
      [.packet 0 (connectReq 2), .hop, .packet 0 emptyPacket, .timer0, .timer0, .timer0,
        .timer0, .packet 0 (updateReq 8 0)] := by
  decide +kernel

/-! ## Pending updates -/

/-- The event is before the instant, as 16-bit counters that wrap. -/
def Before (count instant : U16) : Prop :=
  0 < (instant - count).toNat ∧ (instant - count).toNat < 32767

instance (count instant : U16) : Decidable (Before count instant) := instDecidableAnd

theorem ne_of_before {count instant : U16} (h : Before count instant) : count ≠ instant := by
  rintro rfl
  have hzero : (count - count).toNat = 0 := by rw [BitVec.sub_self]; rfl
  have hpos := h.1
  omega

/-- Every packet is heard before the instant of the pending update, and asks for no other. -/
def HeardBefore (s : Fw) : LeEvent → Prop
  | .packet _ p => isConnectionUpdateReq p = false ∧ Before s.le.connCount s.le.updateInstant
  | _ => True

instance (s : Fw) : (e : LeEvent) → Decidable (HeardBefore s e)
  | .timer0 => inferInstanceAs (Decidable True)
  | .hop => inferInstanceAs (Decidable True)
  | .packet _ _ => inferInstanceAs (Decidable (_ ∧ _))

theorem noRequest_of_heardBefore (s : Fw) (e : LeEvent) (h : HeardBefore s e) : NoRequest s e := by
  cases e with
  | timer0 => trivial
  | hop => trivial
  | packet t p => exact h.1

theorem updatePending_step (hs : Recorded interval winOffset instant s)
    (hpending : s.le.updatePending = true) {e : LeEvent} (he : HeardBefore s e) :
    (leStep s e).le.updatePending = true := by
  cases e with
  | timer0 =>
    obtain ⟨-, -, -, c, t, hle⟩ := timer0IRQHandler_frame s
    rw [leStep, hle]
    exact hpending
  | hop =>
    obtain ⟨-, -, -, -, i, hle⟩ := serveHop_frame s
    rw [leStep, hle]
    exact hpending
  | packet t p =>
    obtain ⟨hp, hbefore⟩ := he
    have hdue : ¬s.le.UpdateDue := fun h => ne_of_before hbefore h.2
    rw [leStep_packet_data hs.packetCb hs.linkState hdue t hp]
    exact hpending

/-- **A pending update and the events missed.** Let the packets heard since a connected state with
a pending update all fall before its instant, and let the next packet ask for no other update. That
packet applies the update if and only if it is heard in the very event the update names. -/
theorem update_kept_iff {s : Fw} (hcb : s.packetCb = .connectionFollow)
    (hl : s.le.linkState = .connected) (hpending : s.le.updatePending = true) (es : List LeEvent)
    (hes : Along leStep HeardBefore s es) (t : U32) {p : Packet}
    (hp : isConnectionUpdateReq p = false) :
    ((run leStep s (es ++ [.packet t p])).le.connInterval = s.le.intervalUpdate ∧
      (run leStep s (es ++ [.packet t p])).le.updatePending = false) ↔
    (run leStep s es).le.connCount = s.le.updateInstant := by
  have hstart : Recorded s.le.intervalUpdate s.le.winOffsetUpdate s.le.updateInstant s :=
    ⟨hcb, hl, rfl, rfl, rfl⟩
  obtain ⟨hrecorded, hkept⟩ := run_invariant
    (I := fun u => Recorded s.le.intervalUpdate s.le.winOffsetUpdate s.le.updateInstant u ∧
      u.le.updatePending = true)
    (fun u e hu he => ⟨recorded_step hu.1 (noRequest_of_heardBefore u e he),
      updatePending_step hu.1 hu.2 he⟩) ⟨hstart, hpending⟩ hes
  rw [run_concat]
  by_cases hdue : (run leStep s es).le.UpdateDue
  · refine iff_of_true ?_ (hdue.2.trans hrecorded.updateInstant)
    rw [leStep_packet_connected hrecorded.packetCb hrecorded.linkState, connectedLe_of_not_req hp,
      applyUpdate_of_due _ hdue]
    exact ⟨hrecorded.intervalUpdate, rfl⟩
  · have hmissed : (run leStep s es).le.connCount ≠ s.le.updateInstant :=
      fun h => hdue ⟨hkept, h.trans hrecorded.updateInstant.symm⟩
    refine iff_of_false ?_ hmissed
    rintro ⟨-, hclear⟩
    rw [leStep_packet_data hrecorded.packetCb hrecorded.linkState hdue t hp] at hclear
    exact absurd (hkept.symm.trans hclear) (by decide)

/-- The firmware on a connection with interval 2, with an update to interval 8 pending for
event 1. -/
def updatePendingForOne : Fw :=
  run leStep listening
    [.packet 0 (connectReq 2), .hop, .packet 0 emptyPacket, .packet 0 (updateReq 8 1)]

theorem update_kept_heard_in_event_one :
    (run leStep updatePendingForOne
      [.timer0, .timer0, .timer0, .timer0, .packet 0 emptyPacket]).le.connInterval =
      8 := by
  have h := (update_kept_iff (s := updatePendingForOne) (p := emptyPacket)
    (by decide +kernel) (by decide +kernel) (by decide +kernel)
    [.timer0, .timer0, .timer0, .timer0] (by decide +kernel) 0 (by decide)).2 (by decide +kernel)
  exact h.1.trans (by decide +kernel)

/-- The update for event 1 is lost when the first packet since is heard in event 2. -/
theorem update_lost_heard_in_event_two :
    updatePendingForOne.le.updatePending = true ∧
      InFuture updatePendingForOne.le.updateInstant updatePendingForOne.le.connCount ∧
      (run leStep updatePendingForOne (List.replicate 12 .timer0)).le.connCount = 2 ∧
      ¬((run leStep updatePendingForOne (List.replicate 12 .timer0 ++
          [.packet 0 emptyPacket])).le.connInterval = 8 ∧
        (run leStep updatePendingForOne (List.replicate 12 .timer0 ++
          [.packet 0 emptyPacket])).le.updatePending = false) := by
  decide +kernel

end Ubertooth.LowEnergy
