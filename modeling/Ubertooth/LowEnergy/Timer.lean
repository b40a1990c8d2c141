import Ubertooth.Foundations.Runs
import Ubertooth.LowEnergy.Update

/-!
# The interval timer

`interval_timer` is set in four places from what packets and the promiscuous callbacks supply, and
counted down by the clock interrupt. Nothing keeps those values from 0 and 1, where the count wraps
to 65535. `Session` is the firmware with the number of interrupts since the last hop of its
connection, and `Timed` the invariant under which the timer is never at zero when it is counted
down and no hop comes late. `TimerFed` is what a step must supply to keep it: an interval of at
least 2, and for an update also that it is applied at the start of its event.
`timer_never_wraps` is the result for every run from power on.
-/

namespace Ubertooth.LowEnergy

open Firmware Foundations

/-! ## Sessions -/

/-- The firmware, and the interrupts since the last hop of the connection, if it has hopped. -/
structure Session where
  fw : Fw
  sinceHop : Option ℕ

/-- What happens in a session: the events of `bt_le_sync`, and the ways in and out of it. -/
inductive SessionEvent
  | sync (e : LeEvent)
  /-- `UBERTOOTH_BTLE_SNIFFING`, and then `bt_follow_le` -/
  | follow
  /-- `bt_promisc_le`, hearing the access address `aa` -/
  | promisc (aa : U32)
  /-- the connection is lost, and `bt_le_sync` listens again -/
  | lost (savedRequest : U16)
  /-- the connection is lost, and `bt_le_sync` returns -/
  | left

def fwStep (s : Fw) : SessionEvent → Fw
  | .sync e => leStep s e
  | .follow => btFollowLe (btleSniffing s)
  | .promisc aa => btPromiscLe aa s
  | .lost savedRequest => connectionLost savedRequest s
  | .left => connectionLeft s

/-- The interrupts since the last hop: an interrupt that hops starts the count, the others add to
it, and a change of link forgets it. -/
def sinceHopStep (x : Session) : SessionEvent → Option ℕ
  | .sync .timer0 =>
    if x.fw.hopMode = .btle ∧ Hops x.fw then some 0 else x.sinceHop.map (· + 1)
  | e =>
    if x.fw.le.linkState = .connected ∧ (fwStep x.fw e).le.linkState = .connected then x.sinceHop
    else none

def sessionStep (x : Session) (e : SessionEvent) : Session := ⟨fwStep x.fw e, sinceHopStep x e⟩

/-! ## The invariant -/

/-- The phase of the clock within an interval of 1.25 ms. -/
def phase (s : Fw) : ℕ := (s.clkn - s.le.connEpoch).toNat % 4

/-- A link that is followed has its callback, its hop mode and an interval of at least 2, and on a
connection the timer is set, and due before the interval since the last hop is over. -/
structure Timed (x : Session) : Prop where
  clknOffset : x.fw.clknOffset = 0
  hopMode : x.fw.packetCb = .connectionFollow → x.fw.hopMode = .btle
  followed : x.fw.le.linkState = .connPending ∨ x.fw.le.linkState = .connected →
    x.fw.packetCb = .connectionFollow ∧ 2 ≤ x.fw.le.connInterval.toNat
  timer : x.fw.le.linkState = .connected → 1 ≤ x.fw.le.intervalTimer.toNat
  due : x.fw.le.linkState = .connected → ∀ g ∈ x.sinceHop,
    g + 4 * x.fw.le.intervalTimer.toNat ≤ 4 * x.fw.le.connInterval.toNat + phase x.fw

/-- `promisc_recover_hop_increment` moves to regular connection following. -/
def RecoversIncrement (s : Fw) : Prop :=
  s.packetCb = .promiscRecoverHopIncrement ∧ s.channel = 2406 ∧ (channelsHopped s).toNat < 37

/-- What a step supplies: a CONNECT_REQ that is followed has an interval octet of at least 2, an
update that is applied has an interval of at least 2 and comes at most four interrupts after a
hop, and the interval recovered in promiscuous mode is at least 2. -/
def TimerFed (x : Session) : SessionEvent → Prop
  | .sync (.packet t p) =>
    let s : Fw := { x.fw with t0tc := t }
    (s.packetCb = .connectionFollow → AcceptsConnect p s → 2 ≤ p[28].toNat) ∧
    (s.le.linkState = .connected → s.le.UpdateDue →
      2 ≤ s.le.intervalUpdate.toNat ∧ ∀ g ∈ x.sinceHop, g ≤ 4) ∧
    (RecoversIncrement s → 2 ≤ s.le.connInterval.toNat)
  | _ => True

instance (s : Fw) : Decidable (RecoversIncrement s) := inferInstanceAs (Decidable (_ ∧ _))

instance (x : Session) : (e : SessionEvent) → Decidable (TimerFed x e)
  | .sync (.packet _ _) => inferInstanceAs (Decidable ((_ → _ → _) ∧ (_ → _ → _ ∧ _) ∧ (_ → _)))
  | .sync .timer0 | .sync .hop | .follow | .promisc _ | .lost _ | .left =>
    inferInstanceAs (Decidable True)

/-- At an interrupt on a connection, a timer that is counted down is not zero, and no more than
`4 * conn_interval` interrupts have passed since the last hop, this one included. -/
def TimerSound (x : Session) : SessionEvent → Prop
  | .sync .timer0 => x.fw.le.linkState = .connected →
      (x.fw.hopMode = .btle → Counts x.fw → 1 ≤ x.fw.le.intervalTimer.toNat) ∧
      ∀ g ∈ x.sinceHop, g + 1 ≤ 4 * x.fw.le.connInterval.toNat
  | _ => True

instance (x : Session) : (e : SessionEvent) → Decidable (TimerSound x e)
  | .sync .timer0 => inferInstanceAs (Decidable (_ → (_ → _ → _) ∧ _))
  | .sync (.packet _ _) | .sync .hop | .follow | .promisc _ | .lost _ | .left =>
    inferInstanceAs (Decidable True)

variable {x : Session}

theorem phase_lt (s : Fw) : phase s < 4 := Nat.mod_lt _ (by decide)

theorem succ_sub_mod_four (clkn epoch : U32) :
    (clkn + (0 + 1) - epoch).toNat % 4 = ((clkn - epoch).toNat % 4 + 1) % 4 := by
  have hclkn := clkn.isLt
  have hepoch := epoch.isLt
  have hone : ((0 : U32) + 1).toNat = 1 := by simp
  rw [BitVec.toNat_sub, BitVec.toNat_sub, BitVec.toNat_add, hone]
  omega

theorem counts_iff_phase {s : Fw} (hoff : s.clknOffset = 0) (hl : s.le.linkState = .connected) :
    Counts s ↔ phase s = 3 := by
  have hlt := phase_lt s
  have hsucc := succ_sub_mod_four s.clkn s.le.connEpoch
  unfold Counts
  rw [hoff, and_three_eq_zero_iff, hsucc]
  show s.le.linkState = .connected ∧ (phase s + 1) % 4 = 0 ↔ phase s = 3
  rw [and_iff_right hl]
  omega

theorem timerSound_of_timed (hx : Timed x) (e : SessionEvent) : TimerSound x e := by
  rcases e with (_ | _ | _) | _ | _ | _ | _
  case sync.timer0 =>
    intro hl
    refine ⟨fun _ _ => hx.timer hl, fun g hg => ?_⟩
    have hdue := hx.due hl g hg
    have htimer := hx.timer hl
    have hphase := phase_lt x.fw
    omega
  all_goals trivial

/-! ## The clock interrupt -/

section Interrupt

variable {s : Fw} {sinceHop : Option ℕ}

/-- The phase after an interrupt, in the terms of the state before it. -/
theorem phase_succ (hoff : s.clknOffset = 0) :
    (s.clkn + (s.clknOffset + 1) - s.le.connEpoch).toNat % 4 = (phase s + 1) % 4 := by
  rw [hoff]
  exact succ_sub_mod_four s.clkn s.le.connEpoch

theorem timed_timer0_of_hops (hx : Timed ⟨s, sinceHop⟩) (hhops : Hops s) :
    Timed (sessionStep ⟨s, sinceHop⟩ (.sync .timer0)) := by
  obtain ⟨hcb, hinterval⟩ := hx.followed (Or.inr hhops.1.1)
  change 2 ≤ s.le.connInterval.toNat at hinterval
  have hm : s.hopMode = .btle := hx.hopMode hcb
  have hstep : sessionStep ⟨s, sinceHop⟩ (.sync .timer0) = ⟨timer0IRQHandler s, some 0⟩ :=
    congrArg (Session.mk _) (if_pos ⟨hm, hhops⟩)
  rw [hstep, timer0IRQHandler_of_hops hm hhops]
  refine ⟨rfl, fun _ => hm, fun _ => ⟨hcb, hinterval⟩, fun _ => ?_, fun _ g hg => ?_⟩
  · show 1 ≤ s.le.connInterval.toNat
    omega
  · obtain rfl := Option.some.inj hg
    rw [Nat.zero_add]
    exact Nat.le_add_right _ _

theorem sessionStep_timer0_of_not_hops (h : ¬Hops s) :
    sessionStep ⟨s, sinceHop⟩ (.sync .timer0) =
      ⟨timer0IRQHandler s, sinceHop.map (· + 1)⟩ :=
  congrArg (Session.mk _) (if_neg fun h' => h h'.2)

theorem timed_timer0_of_counts (hx : Timed ⟨s, sinceHop⟩) (hc : Counts s)
    (ht : s.le.intervalTimer ≠ 1) : Timed (sessionStep ⟨s, sinceHop⟩ (.sync .timer0)) := by
  obtain ⟨hcb, hinterval⟩ := hx.followed (Or.inr hc.1)
  have hm : s.hopMode = .btle := hx.hopMode hcb
  have htimer : 1 ≤ s.le.intervalTimer.toNat := hx.timer hc.1
  have hne : s.le.intervalTimer.toNat ≠ 1 := fun h => ht (BitVec.eq_of_toNat_eq h)
  have hsub := toNat_sub_one htimer
  have hphase := @phase_succ s hx.clknOffset
  have hthree : phase s = 3 := (counts_iff_phase hx.clknOffset hc.1).1 hc
  rw [sessionStep_timer0_of_not_hops fun h => ht h.2, timer0IRQHandler_of_counts hm hc ht]
  refine ⟨rfl, fun _ => hm, fun _ => ⟨hcb, hinterval⟩, fun _ => ?_, fun _ g hg => ?_⟩
  · show 1 ≤ (s.le.intervalTimer - 1).toNat
    rw [hsub]
    omega
  · obtain ⟨g₀, hg₀, rfl⟩ := Option.map_eq_some_iff.1 hg
    have hdue : g₀ + 4 * s.le.intervalTimer.toNat ≤ 4 * s.le.connInterval.toNat + phase s :=
      hx.due hc.1 g₀ hg₀
    show g₀ + 1 + 4 * (s.le.intervalTimer - 1).toNat ≤ 4 * s.le.connInterval.toNat +
      (s.clkn + (s.clknOffset + 1) - s.le.connEpoch).toNat % 4
    rw [hsub, hphase]
    omega

theorem timed_timer0_of_not_counts (hx : Timed ⟨s, sinceHop⟩)
    (hl : s.le.linkState = .connected) (hc : ¬Counts s) :
    Timed (sessionStep ⟨s, sinceHop⟩ (.sync .timer0)) := by
  obtain ⟨hcb, hinterval⟩ := hx.followed (Or.inr hl)
  have hm : s.hopMode = .btle := hx.hopMode hcb
  have hne : ¬phase s = 3 := (counts_iff_phase hx.clknOffset hl).not.1 hc
  have hphase := @phase_succ s hx.clknOffset
  have hlt := phase_lt s
  rw [sessionStep_timer0_of_not_hops fun h => hc h.1, timer0IRQHandler_of_not_counts hm hc]
  refine ⟨rfl, fun _ => hm, fun _ => ⟨hcb, hinterval⟩, fun _ => hx.timer hl, fun _ g hg => ?_⟩
  obtain ⟨g₀, hg₀, rfl⟩ := Option.map_eq_some_iff.1 hg
  have hdue : g₀ + 4 * s.le.intervalTimer.toNat ≤ 4 * s.le.connInterval.toNat + phase s :=
    hx.due hl g₀ hg₀
  show g₀ + 1 + 4 * s.le.intervalTimer.toNat ≤ 4 * s.le.connInterval.toNat +
    (s.clkn + (s.clknOffset + 1) - s.le.connEpoch).toNat % 4
  rw [hphase]
  omega

end Interrupt

theorem timed_timer0_connected (hx : Timed x) (hl : x.fw.le.linkState = .connected) :
    Timed (sessionStep x (.sync .timer0)) := by
  by_cases hc : Counts x.fw
  · by_cases ht : x.fw.le.intervalTimer = 1
    · exact timed_timer0_of_hops hx ⟨hc, ht⟩
    · exact timed_timer0_of_counts hx hc ht
  · exact timed_timer0_of_not_counts hx hl hc

/-- Off a connection the timer and the count are all an interrupt can touch. -/
theorem timed_timer0_idle (hx : Timed x) (hl : x.fw.le.linkState ≠ .connected) :
    Timed (sessionStep x (.sync .timer0)) := by
  obtain ⟨hmode, hcb, hoff, c, t, hle⟩ := timer0IRQHandler_frame x.fw
  have hlink : (timer0IRQHandler x.fw).le.linkState = x.fw.le.linkState := by rw [hle]
  have hinterval : (timer0IRQHandler x.fw).le.connInterval = x.fw.le.connInterval := by rw [hle]
  refine ⟨hoff, fun h => ?_, fun h => ?_, fun h => ?_, fun h => ?_⟩
  · exact hmode.trans (hx.hopMode (hcb.symm.trans h))
  · show (timer0IRQHandler x.fw).packetCb = _ ∧ 2 ≤ (timer0IRQHandler x.fw).le.connInterval.toNat
    rw [hcb, hinterval]
    exact hx.followed (by rwa [← hlink])
  · exact absurd (hlink.symm.trans h) hl
  · exact absurd (hlink.symm.trans h) hl

/-! ## The other steps -/

/-- Any other step keeps the interrupts since the last hop, or forgets them. -/
theorem sinceHopStep_subset {e : SessionEvent} (he : e ≠ .sync .timer0) :
    ∀ g ∈ sinceHopStep x e, g ∈ x.sinceHop := by
  intro g hg
  rcases e with (_ | _ | _) | _ | _ | _ | _
  case sync.timer0 => exact absurd rfl he
  all_goals
    simp only [sinceHopStep] at hg
    split at hg
    · exact hg
    · exact absurd hg (by simp)

theorem sinceHopStep_eq_none {e : SessionEvent} (he : e ≠ .sync .timer0)
    (hl : x.fw.le.linkState ≠ .connected) : sinceHopStep x e = none := by
  rcases e with (_ | _ | _) | _ | _ | _ | _
  case sync.timer0 => exact absurd rfl he
  all_goals exact if_neg fun h => hl h.1

/-- The invariant reads nothing but the fields listed. -/
theorem Timed.of_same {s s' : Fw} {a b : Option ℕ} (h : Timed ⟨s, a⟩)
    (hmode : s'.hopMode = s.hopMode) (hcb : s'.packetCb = s.packetCb)
    (hoff : s'.clknOffset = s.clknOffset) (hclkn : s'.clkn = s.clkn)
    (hlink : s'.le.linkState = s.le.linkState) (hinterval : s'.le.connInterval = s.le.connInterval)
    (htimer : s'.le.intervalTimer = s.le.intervalTimer) (hepoch : s'.le.connEpoch = s.le.connEpoch)
    (hb : ∀ g ∈ b, g ∈ a) : Timed ⟨s', b⟩ := by
  have hphase : phase s' = phase s := by rw [phase, phase, hclkn, hepoch]
  refine ⟨hoff.trans h.clknOffset, fun hf => ?_, fun hl => ?_, fun hl => ?_, fun hl g hg => ?_⟩
  · exact hmode.trans (h.hopMode (hcb.symm.trans hf))
  · show s'.packetCb = _ ∧ 2 ≤ s'.le.connInterval.toNat
    rw [hcb, hinterval]
    exact h.followed (by rwa [← hlink])
  · show 1 ≤ s'.le.intervalTimer.toNat
    rw [htimer]
    exact h.timer (hlink.symm.trans hl)
  · show g + 4 * s'.le.intervalTimer.toNat ≤ 4 * s'.le.connInterval.toNat + phase s'
    rw [htimer, hinterval, hphase]
    exact h.due (hlink.symm.trans hl) g (hb g hg)

/-- Off the link the invariant asks for little. -/
theorem Timed.of_off_link {s : Fw} {a : Option ℕ} (hoff : s.clknOffset = 0)
    (hmode : s.packetCb = .connectionFollow → s.hopMode = .btle)
    (hp : s.le.linkState ≠ .connPending) (hc : s.le.linkState ≠ .connected) : Timed ⟨s, a⟩ :=
  ⟨hoff, hmode, fun h => h.elim (fun h => absurd h hp) fun h => absurd h hc,
    fun h => absurd h hc, fun h => absurd h hc⟩

theorem Timed.of_idle {s : Fw} {a : Option ℕ} (hoff : s.clknOffset = 0)
    (hmode : s.packetCb = .connectionFollow → s.hopMode = .btle)
    (hl : s.le.linkState = .listening ∨ s.le.linkState = .inactive) : Timed ⟨s, a⟩ := by
  refine Timed.of_off_link hoff hmode ?_ ?_
  · rcases hl with hl | hl <;> simp [hl]
  · rcases hl with hl | hl <;> simp [hl]

theorem timed_hop (hx : Timed x) : Timed (sessionStep x (.sync .hop)) := by
  obtain ⟨hmode, hcb, hclkn, hoff, i, hle⟩ := serveHop_frame x.fw
  exact Timed.of_same hx hmode hcb hoff hclkn (by rw [fwStep, leStep, hle])
    (by rw [fwStep, leStep, hle]) (by rw [fwStep, leStep, hle]) (by rw [fwStep, leStep, hle])
    (sinceHopStep_subset (by simp))

/-! ### Packets of a followed link -/

theorem timed_enterConnected {s : Fw} {a : Option ℕ} (h : Timed ⟨s, a⟩)
    (hl : s.le.linkState = .connPending) : Timed ⟨enterConnected s, none⟩ := by
  obtain ⟨hcb, hinterval⟩ := h.followed (Or.inl hl)
  change 2 ≤ s.le.connInterval.toNat at hinterval
  refine ⟨h.clknOffset, h.hopMode, fun _ => ⟨hcb, hinterval⟩, fun _ => ?_, fun _ g hg => ?_⟩
  · show 1 ≤ (s.le.connInterval - 1).toNat
    rw [toNat_sub_one (by omega)]
    omega
  · exact absurd hg (by simp)

theorem timed_applyUpdate {s : Fw} {a b : Option ℕ} (h : Timed ⟨s, a⟩)
    (hl : s.le.linkState = .connected) (hb : ∀ g ∈ b, g ∈ a)
    (hfed : s.le.UpdateDue → 2 ≤ s.le.intervalUpdate.toNat ∧ ∀ g ∈ a, g ≤ 4) :
    Timed ⟨{ s with le := s.le.applyUpdate s.clkn }, b⟩ := by
  by_cases hdue : s.le.UpdateDue
  · obtain ⟨hupdate, hsoon⟩ := hfed hdue
    obtain ⟨hcb, -⟩ := h.followed (Or.inr hl)
    have hpreset : (s.le.intervalUpdate - 1).toNat = s.le.intervalUpdate.toNat - 1 :=
      toNat_sub_one (by omega)
    rw [applyUpdate_of_due _ hdue]
    refine ⟨h.clknOffset, h.hopMode, fun _ => ⟨hcb, hupdate⟩, fun _ => ?_, fun _ g hg => ?_⟩
    · show 1 ≤ (s.le.intervalUpdate - 1).toNat
      omega
    · have hg4 := hsoon g (hb g hg)
      show g + 4 * (s.le.intervalUpdate - 1).toNat ≤ 4 * s.le.intervalUpdate.toNat + _
      exact Nat.le_add_right_of_le (by omega)
  · rw [applyUpdate_of_not_due _ hdue]
    exact Timed.of_same h rfl rfl rfl rfl rfl rfl rfl rfl hb

theorem timed_connectedLe {s : Fw} {a b : Option ℕ} (h : Timed ⟨s, a⟩) (p : Packet)
    (hl : s.le.linkState = .connected) (hb : ∀ g ∈ b, g ∈ a)
    (hfed : s.le.UpdateDue → 2 ≤ s.le.intervalUpdate.toNat ∧ ∀ g ∈ a, g ≤ 4) :
    Timed ⟨{ s with le := connectedLe p s.clkn s.le }, b⟩ := by
  have happly := timed_applyUpdate h hl hb hfed
  obtain ⟨w, o, i, n, u, hle⟩ := connectedLe_frame p s.clkn s.le
  rw [hle]
  exact Timed.of_same happly rfl rfl rfl rfl rfl rfl rfl rfl fun _ hg => hg

theorem timed_followConnect {s : Fw} {a : Option ℕ} {p : Packet} (h : Timed ⟨s, a⟩)
    (hcb : s.packetCb = .connectionFollow) (hp : 2 ≤ p[28].toNat) (b : Option ℕ) :
    Timed ⟨followConnect p s, b⟩ := by
  have hpending : (LinkState.connPending : LinkState) ≠ .connected := by simp
  have hinterval : 2 ≤ (p[28].setWidth 16).toNat := by
    rw [BitVec.toNat_setWidth_of_le (by omega)]
    exact hp
  exact ⟨h.clknOffset, h.hopMode, fun _ => ⟨hcb, hinterval⟩, fun hl => absurd hl hpending,
    fun hl => absurd hl hpending⟩

theorem timed_connectionFollowCb {s : Fw} {a b : Option ℕ} {p : Packet} (h : Timed ⟨s, a⟩)
    (hcb : s.packetCb = .connectionFollow) (hp : AcceptsConnect p s → 2 ≤ p[28].toNat)
    (hfed : s.le.linkState = .connected → s.le.UpdateDue →
      2 ≤ s.le.intervalUpdate.toNat ∧ ∀ g ∈ a, g ≤ 4)
    (hb : ∀ g ∈ b, g ∈ a) (hnone : s.le.linkState ≠ .connected → b = none) :
    Timed ⟨connectionFollowCb p s, b⟩ := by
  by_cases hpending : s.le.linkState = .connPending
  · have hbnone : b = none := hnone (by rw [hpending]; decide)
    rw [connectionFollowCb_pending hpending, hbnone]
    exact timed_enterConnected h hpending
  by_cases hconnected : s.le.linkState = .connected
  · rw [connectionFollowCb_connected hconnected]
    exact timed_connectedLe h p hconnected hb (hfed hconnected)
  by_cases haccepts : AcceptsConnect p s
  · rw [connectionFollowCb_of_acceptsConnect haccepts]
    exact timed_followConnect h hcb (hp haccepts) b
  · rw [connectionFollowCb_ignored hpending hconnected haccepts]
    exact Timed.of_same h rfl rfl rfl rfl rfl rfl rfl rfl hb

/-! ### Packets in promiscuous mode -/

/-- A step in promiscuous mode that leaves the link unfollowed. -/
structure StaysPromisc (s s' : Fw) : Prop where
  packetCb : s'.packetCb ≠ .connectionFollow
  linkState : s'.le.linkState = s.le.linkState
  clknOffset : s'.clknOffset = s.clknOffset

theorem staysPromisc_self {s : Fw} (hcb : s.packetCb ≠ .connectionFollow) : StaysPromisc s s :=
  ⟨hcb, rfl, rfl⟩

theorem staysPromisc_promiscFollowCb (p : Packet) {s : Fw} (hcb : s.packetCb ≠ .connectionFollow) :
    StaysPromisc s (promiscFollowCb p s) := by
  unfold promiscFollowCb
  split
  · constructor <;> simp [recoverCrcInit]
  · exact staysPromisc_self hcb

/-- Whatever interval is observed: for a variable, as the observed one is costly to unfold. -/
theorem staysPromisc_setInterval {s : Fw} (hcb : s.packetCb ≠ .connectionFollow) (interval : U16) :
    StaysPromisc s { s with
      le := { s.le with connInterval := interval }
      lePromisc := { s.lePromisc with consecIntervals := 0 } } :=
  ⟨hcb, rfl, rfl⟩

theorem staysPromisc_observeHopInterval {s : Fw} (hcb : s.packetCb ≠ .connectionFollow) :
    StaysPromisc s (observeHopInterval s) := by
  unfold observeHopInterval
  split
  · dsimp only
    split
    · constructor <;> simp [hopIntervalFound]
    · exact ⟨hcb, rfl, rfl⟩
  · exact staysPromisc_setInterval hcb _

theorem staysPromisc_noteClkDiff (clkDiff : U32) {s : Fw} (hcb : s.packetCb ≠ .connectionFollow) :
    StaysPromisc s (noteClkDiff clkDiff s) := by
  unfold noteClkDiff
  split
  · exact ⟨hcb, rfl, rfl⟩
  · exact staysPromisc_self hcb

theorem staysPromisc_promiscRecoverHopInterval {s : Fw} (hcb : s.packetCb ≠ .connectionFollow) :
    StaysPromisc s (promiscRecoverHopInterval s) := by
  dsimp only [promiscRecoverHopInterval]
  split
  · exact staysPromisc_self hcb
  · obtain ⟨hcb₁, hlink₁, hoff₁⟩ := staysPromisc_noteClkDiff (recoverCurClk s - s.prevClk) hcb
    obtain ⟨hcb₂, hlink₂, hoff₂⟩ := staysPromisc_observeHopInterval hcb₁
    exact ⟨hcb₂, hlink₂.trans hlink₁, hoff₂.trans hoff₁⟩

theorem staysPromisc_promiscRecoverHopIncrement {s : Fw}
    (hcb : s.packetCb = .promiscRecoverHopIncrement) (hr : ¬RecoversIncrement s) :
    StaysPromisc s (promiscRecoverHopIncrement s) := by
  have hne : s.packetCb ≠ .connectionFollow := by simp [hcb]
  unfold promiscRecoverHopIncrement
  split
  · exact ⟨hne, rfl, rfl⟩
  · split
    case isTrue h2406 =>
      split
      case isTrue h37 => exact absurd ⟨hcb, h2406, h37⟩ hr
      case isFalse => exact ⟨hne, rfl, rfl⟩
    case isFalse => exact ⟨hne, rfl, rfl⟩

theorem promiscRecoverHopIncrement_of_recovers {s : Fw} (h : RecoversIncrement s) :
    promiscRecoverHopIncrement s = recoverIncrement ⟨(channelsHopped s).toNat, h.2.2⟩ s := by
  obtain ⟨hcb, h2406, h37⟩ := h
  have h2404 : ¬s.channel = 2404 := by simp [h2406]
  rw [promiscRecoverHopIncrement, if_neg h2404, if_pos h2406, dif_pos h37]

theorem timed_recoverIncrement {s : Fw} (hoff : s.clknOffset = 0)
    (hinterval : 2 ≤ s.le.connInterval.toNat) (c : Fin 37) :
    Timed ⟨recoverIncrement c s, none⟩ := by
  have hhalf : 1 ≤ (s.le.connInterval / 2).toNat := by
    rw [BitVec.toNat_udiv]
    show 1 ≤ s.le.connInterval.toNat / 2
    omega
  refine ⟨?_, fun _ => ?_, fun _ => ⟨?_, ?_⟩, fun _ => ?_, fun _ g hg => absurd hg (by simp)⟩
  · simpa [recoverIncrement] using hoff
  · simp [recoverIncrement]
  · simp [recoverIncrement]
  · simpa [recoverIncrement] using hinterval
  · simpa [recoverIncrement] using hhalf

/-- A promiscuous callback is called with the link off. -/
theorem Timed.off_link {s : Fw} {a : Option ℕ} (h : Timed ⟨s, a⟩)
    (hcb : s.packetCb ≠ .connectionFollow) :
    s.le.linkState ≠ .connPending ∧ s.le.linkState ≠ .connected :=
  ⟨fun hl => hcb (h.followed (Or.inl hl)).1, fun hl => hcb (h.followed (Or.inr hl)).1⟩

theorem Timed.of_staysPromisc {s s' : Fw} {a b : Option ℕ} (h : Timed ⟨s, a⟩)
    (hcb : s.packetCb ≠ .connectionFollow) (hs : StaysPromisc s s') : Timed ⟨s', b⟩ := by
  obtain ⟨hp, hc⟩ := h.off_link hcb
  refine Timed.of_off_link (hs.clknOffset.trans h.clknOffset) (fun h => absurd h hs.packetCb) ?_ ?_
  · rwa [hs.linkState]
  · rwa [hs.linkState]

theorem timed_packetCallback {s : Fw} {a b : Option ℕ} {p : Packet} (h : Timed ⟨s, a⟩)
    (hb : ∀ g ∈ b, g ∈ a) (hnone : s.le.linkState ≠ .connected → b = none)
    (hconnect : s.packetCb = .connectionFollow → AcceptsConnect p s → 2 ≤ p[28].toNat)
    (hupdate : s.le.linkState = .connected → s.le.UpdateDue →
      2 ≤ s.le.intervalUpdate.toNat ∧ ∀ g ∈ a, g ≤ 4)
    (hrecover : RecoversIncrement s → 2 ≤ s.le.connInterval.toNat) :
    Timed ⟨packetCallback p s, b⟩ := by
  unfold packetCallback
  split
  case h_1 => exact Timed.of_same h rfl rfl rfl rfl rfl rfl rfl rfl hb
  case h_2 hcb => exact timed_connectionFollowCb h hcb (hconnect hcb) hupdate hb hnone
  case h_3 hcb =>
    have hne : s.packetCb ≠ .connectionFollow := by simp [hcb]
    exact h.of_staysPromisc hne (staysPromisc_promiscFollowCb p hne)
  case h_4 hcb =>
    have hne : s.packetCb ≠ .connectionFollow := by simp [hcb]
    exact h.of_staysPromisc hne (staysPromisc_promiscRecoverHopInterval hne)
  case h_5 hcb =>
    have hne : s.packetCb ≠ .connectionFollow := by simp [hcb]
    by_cases hr : RecoversIncrement s
    · rw [promiscRecoverHopIncrement_of_recovers hr, hnone (h.off_link hne).2]
      exact timed_recoverIncrement h.clknOffset (hrecover hr) _
    · exact h.of_staysPromisc hne (staysPromisc_promiscRecoverHopIncrement hcb hr)

theorem timed_packet (hx : Timed x) {t : U32} {p : Packet}
    (hfed : TimerFed x (.sync (.packet t p))) : Timed (sessionStep x (.sync (.packet t p))) := by
  obtain ⟨hconnect, hupdate, hrecover⟩ := hfed
  have hs : Timed ⟨{ x.fw with t0tc := t }, x.sinceHop⟩ :=
    Timed.of_same hx rfl rfl rfl rfl rfl rfl rfl rfl fun _ hg => hg
  have hb := sinceHopStep_subset (x := x) (e := .sync (.packet t p)) (by simp)
  have hnone : x.fw.le.linkState ≠ .connected → sinceHopStep x (.sync (.packet t p)) = none :=
    sinceHopStep_eq_none (by simp)
  exact timed_packetCallback hs hb hnone hconnect hupdate hrecover

/-! ### Into and out of `bt_le_sync` -/

theorem listenForAddress_clknOffset (aa : U32) (s : Fw) :
    (listenForAddress aa s).clknOffset = s.clknOffset := by
  unfold listenForAddress
  rw [lePromiscState_clknOffset]
  rfl

theorem btPromiscLe_clknOffset (aa : U32) (s : Fw) :
    (btPromiscLe aa s).clknOffset = s.clknOffset := by
  have hjump : ∀ u : Fw,
      (if u.channel &&& 1 = 1 then { u with channel := 2440 } else u).clknOffset =
        u.clknOffset := by
    intro u
    split <;> rfl
  have hlisten : ∀ u : Fw,
      (if u.le.targetSet then u else listenForAddress aa (csThresholdCalcAndSet u)).clknOffset =
        u.clknOffset := by
    intro u
    split
    · rfl
    · rw [listenForAddress_clknOffset, csThresholdCalcAndSet_clknOffset]
  show (lePromiscState _ _ _).clknOffset = _
  rw [lePromiscState_clknOffset, hlisten, hjump]
  rfl

theorem timed_follow (hx : Timed x) : Timed (sessionStep x .follow) := by
  refine Timed.of_idle ?_ (fun _ => ?_) (Or.inl rfl)
  · show (csThresholdCalcAndSet _).clknOffset = 0
    rw [csThresholdCalcAndSet_clknOffset]
    exact hx.clknOffset
  · show (csThresholdCalcAndSet _).hopMode = .btle
    rw [csThresholdCalcAndSet_hopMode]
    rfl

theorem timed_promisc (hx : Timed x) (aa : U32) : Timed (sessionStep x (.promisc aa)) := by
  refine Timed.of_idle ?_ (fun h => ?_) (Or.inl rfl)
  · exact (btPromiscLe_clknOffset aa x.fw).trans hx.clknOffset
  · have hcb : (btPromiscLe aa x.fw).packetCb = .promiscFollow := rfl
    exact absurd (hcb.symm.trans h) (by simp)

theorem timed_lost (hx : Timed x) (savedRequest : U16) :
    Timed (sessionStep x (.lost savedRequest)) :=
  Timed.of_idle hx.clknOffset hx.hopMode (Or.inl rfl)

theorem timed_left (hx : Timed x) : Timed (sessionStep x .left) :=
  Timed.of_idle hx.clknOffset hx.hopMode (Or.inr rfl)

/-! ## Every run -/

theorem timed_powerOn : Timed ⟨powerOn, none⟩ := by
  have hcb : powerOn.packetCb ≠ .connectionFollow := by simp [powerOn]
  exact Timed.of_idle rfl (fun h => absurd h hcb) (Or.inr rfl)

/-- Every step that feeds the timer keeps the invariant. -/
theorem timed_step (hx : Timed x) (e : SessionEvent) (hfed : TimerFed x e) :
    Timed (sessionStep x e) := by
  cases e with
  | sync e =>
    cases e with
    | timer0 =>
      by_cases hl : x.fw.le.linkState = .connected
      · exact timed_timer0_connected hx hl
      · exact timed_timer0_idle hx hl
    | hop => exact timed_hop hx
    | packet t p => exact timed_packet hx hfed
  | follow => exact timed_follow hx
  | promisc aa => exact timed_promisc hx aa
  | lost savedRequest => exact timed_lost hx savedRequest
  | left => exact timed_left hx

/-- **The timer along a run.** In every run from power on whose steps all feed the timer, no
interrupt counts the timer down from zero, and no hop of a connection comes more than
`4 * conn_interval` interrupts after the one before. -/
theorem timer_never_wraps {es : List SessionEvent}
    (hes : Along sessionStep TimerFed ⟨powerOn, none⟩ es) :
    Along sessionStep TimerSound ⟨powerOn, none⟩ es :=
  along_of_invariant (I := Timed) (fun _ e hx hfed => timed_step hx e hfed)
    (fun _ e hx _ => timerSound_of_timed hx e) timed_powerOn hes

/-- A run that follows a connection with interval 2, and hops. -/
theorem timer_never_wraps_interval_two :
    Along sessionStep TimerSound ⟨powerOn, none⟩
      ([.follow, .sync (.packet 0 (connectReq 2)), .sync .hop,
        .sync (.packet 0 emptyPacket)] ++ List.replicate 12 (.sync .timer0)) :=
  timer_never_wraps (by decide +kernel)

/-- A connection with interval 257 presets the timer to 0, and the fourth interrupt wraps it. -/
theorem not_timerSound_interval_257 :
    ¬Along sessionStep TimerSound ⟨powerOn, none⟩
      [.follow, .sync (.packet 0 (connectReq 257)), .sync .hop,
        .sync (.packet 0 emptyPacket), .sync .timer0, .sync .timer0, .sync .timer0,
        .sync .timer0] := by
  decide +kernel

end Ubertooth.LowEnergy
