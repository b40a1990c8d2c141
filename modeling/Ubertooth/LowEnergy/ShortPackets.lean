import Ubertooth.LowEnergy.Target

/-!
# Packets too short for their fields

`bt_le_sync` waits for the octets the length field counts and unwhitens the whole buffer, so what
lies after the CRC is left over from earlier packets. `connection_follow_cb` reads its fields at
fixed places and never looks at the length. Two packets that agree in what was received
(`SameReceived`) are handled alike exactly when `ReadsReceived` holds: the packet is long enough for
its fields, or what was received suffices to ignore it (`receivedOnly_iff`).
-/

namespace Ubertooth.LowEnergy

open Firmware

/-! ## What was received -/

/-- The octets the length field counts. -/
def payloadLen (p : Packet) : ℕ := (p[5] &&& 0x3f).toNat

/-- Access address, header and payload. -/
def receivedLen (p : Packet) : ℕ := 6 + payloadLen p

/-- The two buffers agree in the octets that `p` counts. -/
def SameReceived (p q : Packet) : Prop := ∀ i < receivedLen p, q[i] = p[i]

/-- What `connection_follow_cb` leaves. -/
def followOutcome (s : Fw) (p : Packet) : LeState × Bool :=
  ((connectionFollowCb p s).le, (connectionFollowCb p s).doHop)

variable {p q : Packet} {s : Fw}

theorem SameReceived.getElem (h : SameReceived p q) {i : ℕ} (hi : i < receivedLen p) :
    q[i] = p[i] := h i hi

theorem SameReceived.header (h : SameReceived p q) : q[4] = p[4] ∧ q[5] = p[5] :=
  ⟨h 4 (by unfold receivedLen; omega), h 5 (by unfold receivedLen; omega)⟩

/-- What was received, and any other octets after it. -/
def withStale (p : Packet) (stale : ℕ → U8) : Packet :=
  ⟨Vector.ofFn fun i => if i.val < receivedLen p then p[i.val] else stale i⟩

theorem withStale_getElem (p : Packet) (stale : ℕ → U8) {i : ℕ} (hi : i < 52) :
    (withStale p stale)[i] = if i < receivedLen p then p[i] else stale i := by
  show ((withStale p stale).octets[i]?).getD 0 = _
  simp [withStale, hi]

theorem sameReceived_withStale (p : Packet) (stale : ℕ → U8) :
    SameReceived p (withStale p stale) := by
  intro i hi
  by_cases h52 : i < 52
  · rw [withStale_getElem p stale h52, if_pos hi]
  · have hout : ∀ r : Packet, r[i] = 0 := by
      intro r
      show (r.octets[i]?).getD 0 = 0
      rw [Vector.getElem?_eq_none (by omega)]
      rfl
    rw [hout, hout]

/-- What is done with the packet depends on what was received alone. -/
def ReceivedOnly (s : Fw) (p : Packet) : Prop :=
  ∀ q, SameReceived p q → followOutcome s q = followOutcome s p

theorem ReceivedOnly.withStale (h : ReceivedOnly s p) (stale stale' : ℕ → U8) :
    followOutcome s (withStale p stale) = followOutcome s (withStale p stale') :=
  (h _ (sameReceived_withStale p stale)).trans (h _ (sameReceived_withStale p stale')).symm

/-! ## What has to be received -/

/-- An octet received differs from the target's, where the address at `base` has it. -/
def KnownElsewhere (target : Vector U8 6) (p : Packet) (base : ℕ) : Prop :=
  ∃ i : Fin 6, base + i.val < receivedLen p ∧ target.get i ≠ p[base + i.val]

/-- On a connection: the packet is no control PDU, or known not to be a CONNECTION_UPDATE_REQ, or
long enough for one. While listening: it is no CONNECT_REQ, or known to be for others, or long
enough for one. -/
def ReadsReceived (le : LeState) (p : Packet) : Prop :=
  match le.linkState with
  | .connected =>
    p[4] &&& 0x03 ≠ 0x03 ∨ 1 ≤ payloadLen p ∧ p[6] ≠ 0x00 ∨ 12 ≤ payloadLen p
  | .listening =>
    p[4] &&& 0x0f ≠ 0x05 ∨
      (le.targetSet = true ∧ KnownElsewhere le.target p 6 ∧ KnownElsewhere le.target p 12) ∨
      34 ≤ payloadLen p
  | .connPending | .inactive => True

/-! ## On a connection -/

theorem isConnectionUpdateReq_eq_true_iff (p : Packet) :
    isConnectionUpdateReq p = true ↔ p[4] &&& 0x03 = 0x03 ∧ p[6] = 0x00 := by
  simp [isConnectionUpdateReq]

theorem followOutcome_connected (hl : s.le.linkState = .connected) (p : Packet) :
    followOutcome s p = (connectedLe p s.clkn s.le, s.doHop) := by
  rw [followOutcome, connectionFollowCb_connected hl]

/-- All the fields of a CONNECTION_UPDATE_REQ are read from the first 18 octets. -/
theorem connectedLe_congr (h : ∀ i < 18, q[i] = p[i]) (clkn : U32) (le : LeState) :
    connectedLe q clkn le = connectedLe p clkn le := by
  have hreq : isConnectionUpdateReq q = isConnectionUpdateReq p := by
    rw [isConnectionUpdateReq, isConnectionUpdateReq, h 4 (by omega), h 6 (by omega)]
  have hrecord : ∀ l : LeState, l.recordUpdate q = l.recordUpdate p := by
    intro l
    simp only [LeState.recordUpdate, h 7 (by omega), h 8 (by omega), h 9 (by omega),
      h 10 (by omega), h 11 (by omega), h 16 (by omega), h 17 (by omega)]
  rw [connectedLe, connectedLe, hreq, hrecord]

theorem updateInstant_connectedLe (h : isConnectionUpdateReq p = true) (clkn : U32)
    (le : LeState) : (connectedLe p clkn le).updateInstant = u16le p[16] p[17] := by
  rw [connectedLe, if_pos h]
  rfl

theorem u16le_zero_ne_one (lo : U8) : u16le lo 0 ≠ u16le lo 1 := by
  intro h
  have hshift : (BitVec.setWidth 16 (0 : U8)) <<< 8 = (BitVec.setWidth 16 (1 : U8)) <<< 8 :=
    (add_right_inj (lo.setWidth 16)).1 h
  exact absurd hshift (by simp)

/-- Too short a control PDU may be continued to CONNECTION_UPDATE_REQs with different instants. -/
theorem not_receivedOnly_connected (hl : s.le.linkState = .connected) (hp : p[4] &&& 0x03 = 0x03)
    (h6 : payloadLen p = 0 ∨ p[6] = 0x00) (hshort : payloadLen p < 12) : ¬ReceivedOnly s p := by
  intro h
  have hlen : receivedLen p < 18 := by
    unfold receivedLen
    omega
  -- the stale octets are zeros up to the high octet of the instant
  have hinstant : ∀ c : U8, (connectedLe (withStale p fun i => if i = 17 then c else 0) s.clkn
      s.le).updateInstant = u16le (if 16 < receivedLen p then p[16] else 0) c := by
    intro c
    have hreq : isConnectionUpdateReq (withStale p fun i => if i = 17 then c else 0) = true := by
      rw [isConnectionUpdateReq_eq_true_iff, (sameReceived_withStale p _).header.1,
        withStale_getElem p _ (by omega)]
      refine ⟨hp, ?_⟩
      split
      case isTrue hrec =>
        refine h6.resolve_left fun h0 => ?_
        rw [receivedLen, h0] at hrec
        omega
      case isFalse => rfl
    rw [updateInstant_connectedLe hreq, withStale_getElem p _ (by omega),
      withStale_getElem p _ (by omega), if_neg (show ¬17 < receivedLen p by omega)]
    rfl
  have hsame := h.withStale (fun i => if i = 17 then 0 else 0) fun i => if i = 17 then 1 else 0
  rw [followOutcome_connected hl, followOutcome_connected hl] at hsame
  have hle := congrArg LeState.updateInstant (Prod.mk.inj hsame).1
  rw [hinstant, hinstant] at hle
  exact u16le_zero_ne_one _ hle

theorem receivedOnly_connected_iff (hl : s.le.linkState = .connected) :
    ReceivedOnly s p ↔ ReadsReceived s.le p := by
  unfold ReadsReceived
  rw [hl]
  constructor
  · intro h
    by_contra hshort
    simp only [not_or, not_and_or, not_not, not_le] at hshort
    obtain ⟨hp, h6, hlen⟩ := hshort
    refine not_receivedOnly_connected hl hp (h6.imp_left fun h0 => ?_) hlen h
    omega
  · intro hread q hq
    rw [followOutcome_connected hl, followOutcome_connected hl]
    have hnot : (isConnectionUpdateReq p = false ∧ isConnectionUpdateReq q = false) →
        connectedLe q s.clkn s.le = connectedLe p s.clkn s.le := fun hreq => by
      rw [connectedLe_of_not_req hreq.1, connectedLe_of_not_req hreq.2]
    have hfalse : ∀ r : Packet, ¬(r[4] &&& 0x03 = 0x03 ∧ r[6] = 0x00) →
        isConnectionUpdateReq r = false := fun r hr =>
      Bool.eq_false_iff.2 fun htrue => hr ((isConnectionUpdateReq_eq_true_iff r).1 htrue)
    obtain h4 | ⟨hlen, h6⟩ | hlen := hread
    · rw [hnot ⟨hfalse p fun h => h4 h.1, hfalse q fun h => h4 (hq.header.1 ▸ h.1)⟩]
    · have hq6 : q[6] = p[6] := hq.getElem (by unfold receivedLen; omega)
      rw [hnot ⟨hfalse p fun h => h6 h.2, hfalse q fun h => h6 (hq6 ▸ h.2)⟩]
    · rw [connectedLe_congr fun i hi => hq.getElem (by unfold receivedLen; omega)]

/-! ## While listening -/

/-- The six octets at `base`. -/
def addressAt (p : Packet) (base : ℕ) : Vector U8 6 := Vector.ofFn fun i => p[base + i.val]

theorem initA_eq_addressAt (p : Packet) : initA p = addressAt p 6 := by
  ext i hi
  interval_cases i <;> simp [initA, addressAt]

theorem advA_eq_addressAt (p : Packet) : advA p = addressAt p 12 := by
  ext i hi
  interval_cases i <;> simp [advA, addressAt]

/-- What is known to differ differs, whatever follows. -/
theorem KnownElsewhere.ne {target : Vector U8 6} {base : ℕ} (h : KnownElsewhere target p base)
    (hq : SameReceived p q) : target ≠ addressAt q base := by
  rintro rfl
  obtain ⟨i, hi, hne⟩ := h
  exact hne ((Vector.get_ofFn _ i).trans (hq.getElem hi))

/-- What is not known to differ may be continued to the target. -/
theorem eq_addressAt_withStale {target : Vector U8 6} {base : ℕ} {stale : ℕ → U8}
    (h : ¬KnownElsewhere target p base) (hbase : base + 6 ≤ 52)
    (hstale : ∀ i : Fin 6, stale (base + i.val) = target.get i) :
    target = addressAt (withStale p stale) base := by
  refine Vector.ext fun i hi => ?_
  have hget : target.get ⟨i, hi⟩ = (withStale p stale)[base + i] := by
    rw [withStale_getElem p stale (by omega)]
    split
    case isTrue hrec => exact not_not.1 fun hne => h ⟨⟨i, hi⟩, hrec, hne⟩
    case isFalse => exact (hstale ⟨i, hi⟩).symm
  rw [addressAt, Vector.getElem_ofFn]
  exact hget

theorem followOutcome_ignored (hl : s.le.linkState = .listening) (h : ¬AcceptsConnect p s) :
    followOutcome s p = (s.le, s.doHop) := by
  rw [followOutcome, connectionFollowCb_ignored (by rw [hl]; decide) (by rw [hl]; decide) h]

theorem channelIncrement_of_accepts (h : AcceptsConnect p s) :
    (followOutcome s p).1.channelIncrement = p[39] &&& 0x1f := by
  rw [followOutcome, connectionFollowCb_of_acceptsConnect h]
  rfl

/-- All the fields of a CONNECT_REQ are read from the first 40 octets. -/
theorem followOutcome_congr (hl : s.le.linkState = .listening) (h : ∀ i < 40, q[i] = p[i]) :
    followOutcome s q = followOutcome s p := by
  have hinit : initA q = initA p := by
    simp only [initA, h 6 (by omega), h 7 (by omega), h 8 (by omega), h 9 (by omega),
      h 10 (by omega), h 11 (by omega)]
  have hadv : advA q = advA p := by
    simp only [advA, h 12 (by omega), h 13 (by omega), h 14 (by omega), h 15 (by omega),
      h 16 (by omega), h 17 (by omega)]
  have haccepts : AcceptsConnect q s ↔ AcceptsConnect p s := by
    rw [AcceptsConnect, AcceptsConnect, targetMismatch, targetMismatch, hinit, hadv,
      h 4 (by omega)]
  by_cases hp : AcceptsConnect p s
  · have hfollow : followConnect q s = followConnect p s := by
      simp only [followConnect, connectAccessAddress, connectCrcInit, h 18 (by omega),
        h 19 (by omega), h 20 (by omega), h 21 (by omega), h 22 (by omega), h 23 (by omega),
        h 24 (by omega), h 25 (by omega), h 26 (by omega), h 28 (by omega),
        h 39 (by omega)]
    rw [followOutcome, followOutcome, connectionFollowCb_of_acceptsConnect hp,
      connectionFollowCb_of_acceptsConnect (haccepts.2 hp), hfollow]
  · rw [followOutcome_ignored hl hp, followOutcome_ignored hl fun hq => hp (haccepts.1 hq)]

/-- Too short a CONNECT_REQ that may be for the target may be continued to ones with different hop
increments. -/
theorem not_receivedOnly_listening (hl : s.le.linkState = .listening) (hp : p[4] &&& 0x0f = 0x05)
    (hshort : payloadLen p < 34) (htarget : s.le.targetSet = false ∨
      ∃ base, (base = 6 ∨ base = 12) ∧ ¬KnownElsewhere s.le.target p base) : ¬ReceivedOnly s p := by
  intro h
  have hlen : receivedLen p < 40 := by
    unfold receivedLen
    omega
  obtain ⟨fill, hfill⟩ : ∃ fill : ℕ → U8, ∀ c : U8,
      targetMismatch s.le (withStale p fun i => if i = 39 then c else fill i) = false := by
    obtain hset | ⟨base, hbase, hknown⟩ := htarget
    · exact ⟨fun _ => 0, fun c => by rw [targetMismatch, hset]; rfl⟩
    · refine ⟨fun i => (s.le.target[i - base]?).getD 0, fun c => ?_⟩
      have haddress : s.le.target = addressAt (withStale p fun i => if i = 39 then c
          else (s.le.target[i - base]?).getD 0) base := by
        refine eq_addressAt_withStale hknown (by omega) fun i => ?_
        rw [if_neg (show ¬base + i.val = 39 by omega), Nat.add_sub_cancel_left]
        simp [Vector.get_eq_getElem]
      rw [targetMismatch, initA_eq_addressAt, advA_eq_addressAt]
      obtain rfl | rfl := hbase
      · rw [← haddress]
        simp
      · rw [← haddress]
        simp
  have haccepts : ∀ c : U8,
      AcceptsConnect (withStale p fun i => if i = 39 then c else fill i) s := by
    intro c
    refine ⟨hl, ?_, hfill c⟩
    rw [(sameReceived_withStale p _).header.1]
    exact hp
  have hincrement : ∀ c : U8, (followOutcome s (withStale p fun i => if i = 39 then c
      else fill i)).1.channelIncrement = c &&& 0x1f := by
    intro c
    rw [channelIncrement_of_accepts (haccepts c), withStale_getElem p _ (by omega),
      if_neg (show ¬39 < receivedLen p by omega), if_pos rfl]
  have hsame := h.withStale (fun i => if i = 39 then 0 else fill i)
    fun i => if i = 39 then 1 else fill i
  have hzero := hincrement 0
  rw [hsame, hincrement 1] at hzero
  exact absurd hzero (by simp)

theorem receivedOnly_listening_iff (hl : s.le.linkState = .listening) :
    ReceivedOnly s p ↔ ReadsReceived s.le p := by
  unfold ReadsReceived
  rw [hl]
  constructor
  · intro h
    by_contra hshort
    simp only [not_or, not_not, not_le] at hshort
    obtain ⟨hp, hknown, hlen⟩ := hshort
    refine not_receivedOnly_listening hl hp hlen ?_ h
    by_cases hset : s.le.targetSet = true
    · by_cases h6 : KnownElsewhere s.le.target p 6
      · exact Or.inr ⟨12, Or.inr rfl, fun h12 => hknown ⟨hset, h6, h12⟩⟩
      · exact Or.inr ⟨6, Or.inl rfl, h6⟩
    · exact Or.inl (Bool.eq_false_iff.2 hset)
  · intro hread q hq
    obtain h4 | ⟨hset, h6, h12⟩ | hlen := hread
    · rw [followOutcome_ignored hl fun h => h4 h.2.1,
        followOutcome_ignored hl fun h => h4 (hq.header.1 ▸ h.2.1)]
    · have hignored : ∀ r, SameReceived p r → ¬AcceptsConnect r s := by
        intro r hr hr'
        have hmismatch : targetMismatch s.le r = true := by
          rw [targetMismatch_eq_true_iff, initA_eq_addressAt, advA_eq_addressAt]
          exact ⟨hset, h6.ne hr, h12.ne hr⟩
        rw [hr'.2.2] at hmismatch
        exact Bool.noConfusion hmismatch
      rw [followOutcome_ignored hl (hignored q hq),
        followOutcome_ignored hl (hignored p fun _ _ => rfl)]
    · exact followOutcome_congr hl fun i hi => hq.getElem (by unfold receivedLen; omega)

/-! ## Every state -/

/-- **Packets too short for their fields.** For every state and every packet, what
`connection_follow_cb` leaves in `le` and `do_hop` is a function of the octets that the length field
counts exactly if the packet is long enough for the fields read, or known to be ignored. -/
theorem receivedOnly_iff (s : Fw) (p : Packet) : ReceivedOnly s p ↔ ReadsReceived s.le p := by
  cases hl : s.le.linkState with
  | connected => exact receivedOnly_connected_iff hl
  | listening => exact receivedOnly_listening_iff hl
  | connPending =>
    have hpending : ReceivedOnly s p := fun q _ => by
      rw [followOutcome, followOutcome, connectionFollowCb_pending hl,
        connectionFollowCb_pending hl]
    have hread : ReadsReceived s.le p := by
      unfold ReadsReceived
      rw [hl]
      trivial
    exact iff_of_true hpending hread
  | inactive =>
    have hignored : ∀ r, connectionFollowCb r s = s := fun r =>
      connectionFollowCb_ignored (by rw [hl]; decide) (by rw [hl]; decide) fun h =>
        LinkState.noConfusion (hl.symm.trans h.1)
    have hinactive : ReceivedOnly s p := fun q _ => by
      rw [followOutcome, followOutcome, hignored, hignored]
    have hread : ReadsReceived s.le p := by
      unfold ReadsReceived
      rw [hl]
      trivial
    exact iff_of_true hinactive hread

/-- A CONNECT_REQ without payload. -/
def emptyConnectReq : Packet := packetOf [(4, 0x05)]

/-- It is followed, with an access address, an interval and an increment that no one sent. -/
theorem not_receivedOnly_emptyConnectReq : ¬ReceivedOnly listening emptyConnectReq :=
  not_receivedOnly_listening (by decide +kernel) (by decide +kernel) (by decide +kernel)
    (Or.inl (by decide +kernel))

end Ubertooth.LowEnergy
