import Ubertooth.LowEnergy.Filter

/-!
# The target filter

`connection_follow_cb` ignores a CONNECT_REQ whose two addresses both differ from `le.target`, as
long as `le.target_set` is set. The host sets the address with `BTLE_SET_TARGET`; the flag is raised
by `SET_ACCESS_ADDRESS` too, which sets no target. `meansTarget_iff` says, for every history and
every CONNECT_REQ, when the filter does what `BTLE_SET_TARGET` says.
-/

namespace Ubertooth.LowEnergy

open Firmware Foundations

/-! ## What the host asks for -/

/-- The address a request sets as the target, in the order of the request. -/
def targetAsked : SessionEvent → Option (Vector U8 6)
  | .request (.btleSetTarget data) => some #v[data 0, data 1, data 2, data 3, data 4, data 5]
  | _ => none

/-- The address last set by `BTLE_SET_TARGET`, if it was issued. -/
def lastTarget (es : List SessionEvent) : Option (Vector U8 6) := lastWritten targetAsked es

/-- `SET_ACCESS_ADDRESS` -/
def addressAsked : SessionEvent → Bool
  | .request (.setAccessAddress _) => true
  | _ => false

/-- The packet is of interest if no target was asked for, or if the target is its initiator or its
advertiser. Addresses travel in reverse octet order. -/
def MatchesTarget (asked : Option (Vector U8 6)) (p : Packet) : Prop :=
  ∀ x ∈ asked, (initA p).reverse = x ∨ (advA p).reverse = x

theorem matchesTarget_none (p : Packet) : MatchesTarget none p :=
  fun x hx => absurd hx (Option.not_mem_none x)

theorem matchesTarget_some (x : Vector U8 6) (p : Packet) :
    MatchesTarget (some x) p ↔ (initA p).reverse = x ∨ (advA p).reverse = x := by
  simp [MatchesTarget]

instance decidableMatchesTarget : ∀ (asked : Option (Vector U8 6)) (p : Packet),
    Decidable (MatchesTarget asked p)
  | none, p => isTrue (matchesTarget_none p)
  | some x, p => decidable_of_iff _ (matchesTarget_some x p).symm

/-- The filter does what `asked` says: a packet of interest is followed, any other is ignored. -/
def MeansTarget (asked : Option (Vector U8 6)) (p : Packet) (s : Fw) : Prop :=
  connectionFollowCb p s = if MatchesTarget asked p then followConnect p s else s

/-! ## What the firmware keeps -/

theorem packetEffect_cases (p : Packet) (s : Fw) :
    (s.packetCb = .connectionFollow ∧ AcceptsConnect p s ∧ packetEffect p s = .follow p) ∨
    (s.packetCb = .promiscFollow ∧ RecoversSeed p s ∧
      packetEffect p s = .recover (btleReverseCrc (emptyPduCrc p) (pdu p) 2)) ∨
    packetEffect p s = .keep := by
  unfold packetEffect
  split
  case isTrue h => exact Or.inl ⟨h.1, h.2, rfl⟩
  case isFalse =>
    split
    case isTrue h => exact Or.inr (Or.inl ⟨h.1, h.2, rfl⟩)
    case isFalse => exact Or.inr (Or.inr rfl)

/-- The target and its flag are the host's alone. -/
theorem target_apply_effect (s : Session) (e : SessionEvent) (f : LinkFilter) :
    ((effect s e).apply f).target = ((targetAsked e).map Vector.reverse).getD f.target ∧
      ((effect s e).apply f).targetSet =
        (f.targetSet || ((targetAsked e).isSome || addressAsked e)) := by
  cases e with
  | request r =>
    cases r with
    | setAccessAddress data => exact ⟨rfl, (Bool.or_true _).symm⟩
    | btleSetTarget data =>
      have hreverse : leTarget data =
          #v[data 0, data 1, data 2, data 3, data 4, data 5].reverse := by simp [leTarget]
      exact ⟨hreverse, (Bool.or_true _).symm⟩
    | _ => exact ⟨rfl, (Bool.or_false _).symm⟩
  | loopHead =>
    rw [effect]
    split <;> exact ⟨rfl, (Bool.or_false _).symm⟩
  | addressHeard aa =>
    rw [effect]
    split <;> exact ⟨rfl, (Bool.or_false _).symm⟩
  | lePacket rssi t0tc p =>
    rw [effect]
    split
    · obtain ⟨-, -, h⟩ | ⟨-, -, h⟩ | h := packetEffect_cases p s.dev.fw <;> rw [h] <;>
        exact ⟨rfl, (Bool.or_false _).symm⟩
    · exact ⟨rfl, (Bool.or_false _).symm⟩
  | leFlush t0tc =>
    rw [effect]
    split <;> exact ⟨rfl, (Bool.or_false _).symm⟩
  | _ => exact ⟨rfl, (Bool.or_false _).symm⟩

theorem target_run (es : List SessionEvent) :
    (run sessionStep sessionOn es).dev.fw.le.target =
      ((lastTarget es).map Vector.reverse).getD (Vector.replicate 6 0) := by
  have hstep : ∀ s e, (filterOf (sessionStep s e).dev.fw).target =
      (((Option.map Vector.reverse) ∘ targetAsked) e).getD (filterOf s.dev.fw).target := by
    intro s e
    rw [filterOf_sessionStep]
    exact (target_apply_effect s e _).1
  rw [lastTarget, lastWritten, List.map_findSome?]
  exact get_run (fun s => (filterOf s.dev.fw).target) _ hstep sessionOn es

/-- The flag is raised by either request. -/
theorem targetSet_run (es : List SessionEvent) :
    (run sessionStep sessionOn es).dev.fw.le.targetSet =
      ((lastTarget es).isSome || es.any addressAsked) := by
  have hstep : ∀ s e, (filterOf (sessionStep s e).dev.fw).targetSet =
      ((filterOf s.dev.fw).targetSet || ((targetAsked e).isSome || addressAsked e)) := by
    intro s e
    rw [filterOf_sessionStep]
    exact (target_apply_effect s e _).2
  have hany : es.any (fun e => (targetAsked e).isSome || addressAsked e) =
      ((lastTarget es).isSome || es.any addressAsked) := by
    rw [lastTarget, isSome_lastWritten, Bool.eq_iff_iff]
    simp [and_or_left, exists_or]
  rw [← hany]
  exact (flag_run (fun s => (filterOf s.dev.fw).targetSet) _ hstep sessionOn es).trans
    (Bool.false_or _)

/-! ## What the filter means -/

/-- While listening, a CONNECT_REQ is ignored or followed by the flag and the address kept. -/
theorem connectionFollowCb_listening {p : Packet} {s : Fw} (hl : s.le.linkState = .listening)
    (hp : p[4] &&& 0x0f = 0x05) : connectionFollowCb p s =
      if targetMismatch s.le p = true then s else followConnect p s := by
  unfold connectionFollowCb
  rw [hl]
  exact if_pos hp

theorem followConnect_ne {p : Packet} {s : Fw} (hl : s.le.linkState = .listening) :
    followConnect p s ≠ s := by
  intro h
  have hstate : LinkState.connPending = s.le.linkState :=
    congrArg (fun u : Fw => u.le.linkState) h
  rw [hl] at hstate
  exact absurd hstate (by simp)

/-- The filter means what is asked exactly if it lets through what is of interest. -/
theorem meansTarget_iff_mismatch {asked : Option (Vector U8 6)} {p : Packet} {s : Fw}
    (hl : s.le.linkState = .listening) (hp : p[4] &&& 0x0f = 0x05) :
    MeansTarget asked p s ↔ (targetMismatch s.le p = true ↔ ¬MatchesTarget asked p) := by
  unfold MeansTarget
  rw [connectionFollowCb_listening hl hp]
  have hne := followConnect_ne (p := p) hl
  by_cases hm : targetMismatch s.le p = true <;> by_cases ha : MatchesTarget asked p
  · rw [if_pos hm, if_pos ha]
    exact iff_of_false (fun h => hne h.symm) fun h => h.1 hm ha
  · rw [if_pos hm, if_neg ha]
    exact iff_of_true rfl (iff_of_true hm ha)
  · rw [if_neg hm, if_pos ha]
    exact iff_of_true rfl (iff_of_false hm (not_not.2 ha))
  · rw [if_neg hm, if_neg ha]
    exact iff_of_false hne fun h => hm (h.2 ha)

theorem targetMismatch_eq_true_iff (le : LeState) (p : Packet) : targetMismatch le p = true ↔
    le.targetSet = true ∧ le.target ≠ initA p ∧ le.target ≠ advA p := by
  simp [targetMismatch, and_assoc]

/-- When the filter means what a history asks for. -/
def FilterKnowsTarget (es : List SessionEvent) (p : Packet) : Prop :=
  (lastTarget es).isSome = true ∨ es.any addressAsked = false ∨
    initA p = Vector.replicate 6 0 ∨ advA p = Vector.replicate 6 0

/-- **The target filter.** In every state a history of requests and sessions leads to, while
listening, the filter does with a CONNECT_REQ what the last `BTLE_SET_TARGET` says exactly if that
request was issued, or no access address was given, or an address in the packet is all zeros. -/
theorem meansTarget_iff (es : List SessionEvent) (p : Packet)
    (hl : (run sessionStep sessionOn es).dev.fw.le.linkState = .listening)
    (hp : p[4] &&& 0x0f = 0x05) :
    MeansTarget (lastTarget es) p (run sessionStep sessionOn es).dev.fw ↔
      FilterKnowsTarget es p := by
  rw [meansTarget_iff_mismatch hl hp, targetMismatch_eq_true_iff, target_run, targetSet_run]
  unfold FilterKnowsTarget
  cases lastTarget es with
  | some x =>
    -- the octets are kept in the opposite order
    have hcomm : ∀ a : Vector U8 6, x.reverse = a ↔ a.reverse = x := fun a => by
      rw [Vector.reverse_eq_iff, eq_comm]
    simp [matchesTarget_some, hcomm]
  | none =>
    -- the flag, if raised, guards the address of all zeros
    rw [iff_false_right (not_not.2 (matchesTarget_none p))]
    cases es.any addressAsked with
    | false => simp
    | true =>
      simp only [Option.map_none, Option.getD_none, Option.isSome_none, Bool.false_or, ne_eq,
        Bool.false_eq_true, false_or, true_and, eq_comm]
      exact not_and_or.trans (or_congr not_not not_not)

/-- A CONNECT_REQ from `11:11:11:11:11:11` to `22:22:22:22:22:22`. -/
def connectReqOfStrangers : Packet := packetOf
  [(4, 0x05), (5, 0x22), (6, 0x11), (7, 0x11), (8, 0x11), (9, 0x11), (10, 0x11), (11, 0x11),
    (12, 0x22), (13, 0x22), (14, 0x22), (15, 0x22), (16, 0x22), (17, 0x22)]

/-- The host sets a target and follows connections. -/
theorem meansTarget_iff_targetSet :
    MeansTarget (some (Vector.replicate 6 0x33)) connectReqOfStrangers (run sessionStep sessionOn
      [.request (.btleSetTarget fun _ => 0x33), .request .btleSniffing, .loopHead]).dev.fw :=
  (meansTarget_iff [.request (.btleSetTarget fun _ => 0x33), .request .btleSniffing, .loopHead]
    connectReqOfStrangers (by decide +kernel) (by decide +kernel)).2 (Or.inl rfl)

/-- Given an access address and no target, the firmware ignores a CONNECT_REQ. -/
theorem not_meansTarget_addressGiven :
    ¬MeansTarget (lastTarget [.request (.setAccessAddress fun _ => 0x8e), .request .btleSniffing,
      .loopHead]) connectReqOfStrangers
        (run sessionStep sessionOn [.request (.setAccessAddress fun _ => 0x8e),
          .request .btleSniffing, .loopHead]).dev.fw := by
  rw [meansTarget_iff_mismatch (by decide +kernel) (by decide +kernel)]
  decide +kernel

end Ubertooth.LowEnergy
