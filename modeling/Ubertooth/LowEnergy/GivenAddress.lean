import Ubertooth.LowEnergy.Target

/-!
# An access address given by the host

After `SET_ACCESS_ADDRESS` and `BTLE_PROMISC` the firmware listens for packets with the address
given, in `bt_le_sync`. The address is kept in the field that `reset_le` overwrites when a
connection times out, and `bt_promisc_le` then listens again with the advertising address. The runs
considered have neither request again, nor another for a mode (`QuietEvent`). The address is kept
throughout exactly along the runs of `KeepsAddress`, and along these `bt_le_sync` never starts with
another (`startsWith_of_keepsAddress`).
-/

namespace Ubertooth.LowEnergy

open Firmware Foundations

/-! ## Runs without another request -/

/-- The requests for a mode, and `SET_ACCESS_ADDRESS`. -/
def asksAddressOrMode : SessionEvent → Bool
  | .request (.setAccessAddress _) | .request (.startHopping _) | .request .afh
  | .request .btleSniffing | .request .btlePromisc | .request (.requestMode _)
  | .btleSlave _ => true
  | _ => false

/-- Anything else. -/
abbrev QuietEvent := { e : SessionEvent // asksAddressOrMode e = false }

def quietStep (s : Session) (e : QuietEvent) : Session := sessionStep s e.val

/-- The host gives an access address and asks for promiscuous mode. -/
def giveAddress (data : ℕ → U8) (s : Session) : Session :=
  run sessionStep s [.request (.setAccessAddress data), .request .btlePromisc]

/-- The address it gives. -/
def givenAddress (data : ℕ → U8) : U32 := (joinLow 4 data).setWidth 32

/-- If `bt_le_sync` starts at this step, it listens for `a`. -/
def StartsWith (a : U32) (s : Session) (e : QuietEvent) : Prop :=
  s.place ≠ .leSync → (quietStep s e).place = .leSync →
    (quietStep s e).dev.fw.le.accessAddress = a

instance (a : U32) (s : Session) (e : QuietEvent) : Decidable (StartsWith a s e) :=
  inferInstanceAs (Decidable (_ → _))

/-- As long as promiscuous mode is asked for, the address is kept. -/
def KeepsGiven (a : U32) (s : Session) : Prop :=
  s.dev.requestedMode = .btPromiscLe → s.dev.fw.le.accessAddress = a

/-- The firmware has jammed once, and goes idle. -/
def JamsOnce (s : Session) : SessionEvent → Prop
  | .leFlush t0tc => TimesOut t0tc s ∧ s.dev.fw.jamMode = jamOnce
  | _ => False

/-- The steps that leave the address: no connection times out, unless the firmware jams once and
then goes idle; and what a round already under way hears or follows has the address. -/
def KeepsAddress (a : U32) (s : Session) (e : QuietEvent) : Prop :=
  match effect s e.val with
  | .reset => a = advertisingAddress ∨ JamsOnce s e.val
  | .heard aa => aa = a
  | .follow p => connectAccessAddress p = a
  | _ => True

/-! ## The mode asked for -/

theorem requestedMode_request (d : Device) {r : VendorRequest}
    (h : asksAddressOrMode (.request r) = false) :
    (vendorRequestHandler d r).requestedMode = d.requestedMode := by
  cases r with
  | setChannel param =>
    have htune : ∀ u : Device, (if u.mode ≠ .btFollowLe then
        { u with
          fw := csThresholdCalcAndSet { u.fw with channel := u.requestedChannel }
          requestedChannel := 0 } else u).requestedMode = u.requestedMode := by
      intro u
      split <;> rfl
    refine (htune _).trans ?_
    split <;> rfl
  | setAccessAddress | startHopping | afh | btleSniffing | btlePromisc | requestMode =>
    exact Bool.noConfusion h
  | _ => rfl

theorem requestedMode_dmaIRQHandler (d : Device) :
    (dmaIRQHandler d).requestedMode = d.requestedMode := by
  obtain ⟨_, _, _, _, h⟩ := dmaIRQHandler_frame d
  rw [h]

theorem requestedMode_serveDoHop (d : Device) :
    (serveDoHop d).requestedMode = d.requestedMode := by
  unfold serveDoHop
  split
  · split <;> rfl
  · rfl

theorem requestedMode_of_block {d d' : Device} (h : BlockOnly d d') :
    d'.requestedMode = d.requestedMode := by
  obtain ⟨_, _, _, _, _, _, _, _, _, rfl⟩ := h
  rfl

theorem requestedMode_takeRequest (d : Device) :
    (takeRequest d).requestedMode = d.requestedMode := by
  unfold takeRequest
  split <;> rfl

theorem requestedMode_lePacket (rssi : U8) (t0tc : U32) (p : Packet) (d : Device) :
    (lePacket rssi t0tc p d).requestedMode = d.requestedMode := by
  dsimp only [lePacket]
  split <;> rfl

theorem requestedMode_leResume (d : Device) : (leResume d).requestedMode = d.requestedMode := by
  dsimp only [leResume, rxContinue]
  split <;> rfl

theorem requestedMode_enter (d : Device) : (enter d).requestedMode = d.requestedMode := by
  have hpromisc : ∀ u : Device, (enterPromisc u).requestedMode = u.requestedMode := by
    intro u
    dsimp only [enterPromisc]
    split <;> rfl
  dsimp only [enter]
  split <;> first | rfl | exact hpromisc _

/-- Entering a mode changes no request, except that the range test ends in idle mode. -/
theorem requestedMode_mainLoop {s : Session} (h : s.dev.requestedMode ≠ .rangeTest) :
    (mainLoop s).dev.requestedMode = s.dev.requestedMode := by
  unfold mainLoop
  split
  · rfl
  · split
    case h_11 => exact absurd ‹_› h
    all_goals first | rfl | exact requestedMode_enter s.dev

theorem requestedMode_loopHead {s : Session} (h : s.dev.requestedMode ≠ .rangeTest) :
    (loopHead s).dev.requestedMode = s.dev.requestedMode := by
  unfold loopHead
  split
  · exact requestedMode_mainLoop h
  all_goals first | rfl | (split <;> rfl)

theorem requestedMode_genericHeard (aa : U32) (s : Session) :
    (genericHeard aa s).dev.requestedMode = s.dev.requestedMode := by
  unfold genericHeard addressHeard
  split
  · rfl
  · split <;> rfl

theorem requestedMode_at {place : Place} {f : Device → Device} {s : Session}
    (h : (f s.dev).requestedMode = s.dev.requestedMode) :
    (s.at place (Session.device f)).dev.requestedMode = s.dev.requestedMode :=
  Session.at_rule (p := fun t => t.dev.requestedMode = s.dev.requestedMode) h rfl

theorem requestedMode_receiving {f : Device → Device} {s : Session}
    (h : (f s.dev).requestedMode = s.dev.requestedMode) :
    (s.receiving f).dev.requestedMode = s.dev.requestedMode :=
  Session.receiving_rule (p := fun t => t.dev.requestedMode = s.dev.requestedMode) h rfl

/-- The mode asked for stays, or the firmware goes idle by itself. -/
theorem requestedMode_quietStep {s : Session} (h : s.dev.requestedMode ≠ .rangeTest)
    (e : QuietEvent) :
    ¬JamsOnce s e.val ∧ (quietStep s e).dev.requestedMode = s.dev.requestedMode ∨
      JamsOnce s e.val ∧ (quietStep s e).dev.requestedMode = .idle ∧
        (quietStep s e).place = .mainLoop := by
  obtain ⟨e, he⟩ := e
  cases e with
  | request r => exact Or.inl ⟨not_false, requestedMode_request s.dev he⟩
  | btleSlave data => exact Bool.noConfusion he
  | timer0 => exact Or.inl ⟨not_false, rfl⟩
  | eint3 => exact Or.inl ⟨not_false, rfl⟩
  | terminalCount => exact Or.inl ⟨not_false, requestedMode_dmaIRQHandler s.dev⟩
  | loopHead => exact Or.inl ⟨not_false, requestedMode_loopHead h⟩
  | takeRequest => exact Or.inl ⟨not_false, requestedMode_at (requestedMode_takeRequest s.dev)⟩
  | hop => exact Or.inl ⟨not_false, requestedMode_receiving (requestedMode_serveDoHop s.dev)⟩
  | streamBlock samples buf =>
    exact Or.inl ⟨not_false, requestedMode_at (requestedMode_of_block
      (streamBlock_blockOnly samples buf s.dev))⟩
  | genericBlock samples bufs =>
    exact Or.inl ⟨not_false, requestedMode_at (requestedMode_of_block
      (genericBlock_blockOnly samples bufs s.dev))⟩
  | addressHeard aa =>
    refine Or.inl ⟨not_false, ?_⟩
    dsimp only [quietStep, sessionStep, Session.at]
    split
    · exact requestedMode_genericHeard aa s
    · rfl
  | lePacket rssi t0tc p =>
    refine Or.inl ⟨not_false, ?_⟩
    dsimp only [quietStep, sessionStep, Session.at]
    split
    · split
      · exact requestedMode_lePacket rssi t0tc p s.dev
      · rfl
    · rfl
  | leFlush t0tc =>
    dsimp only [quietStep, sessionStep, Session.at]
    by_cases ht : TimesOut t0tc s
    · by_cases hjam : s.dev.fw.jamMode = jamOnce
      · refine Or.inr ⟨⟨ht, hjam⟩, ?_⟩
        rw [if_pos ht.1]
        dsimp only [leFlush]
        rw [if_pos ht.2, if_pos hjam]
        exact ⟨rfl, rfl⟩
      · refine Or.inl ⟨fun h => hjam h.2, ?_⟩
        rw [if_pos ht.1]
        dsimp only [leFlush]
        rw [if_pos ht.2, if_neg hjam]
        split <;> rfl
    · refine Or.inl ⟨fun h => ht h.1, ?_⟩
      split
      case isTrue hp =>
        dsimp only [leFlush]
        rw [if_neg fun h => ht ⟨hp, h⟩]
      case isFalse => rfl
  | leResume => exact Or.inl ⟨not_false, requestedMode_at (requestedMode_leResume s.dev)⟩
  | rxContinue => exact Or.inl ⟨not_false, @requestedMode_receiving rxContinue s rfl⟩

/-! ## The address -/

/-- The invariant: promiscuous mode is asked for with the address given, or the firmware has gone
idle. -/
def Given (a : U32) (s : Session) : Prop :=
  s.dev.requestedMode = .btPromiscLe ∧ s.dev.fw.le.targetSet = true ∧
      s.dev.fw.le.accessAddress = a ∨
    s.dev.requestedMode = .idle ∧ s.place = .mainLoop

variable {a : U32} {s : Session}

theorem Given.keepsGiven (h : Given a s) : KeepsGiven a s := by
  obtain ⟨-, -, ha⟩ | ⟨hidle, -⟩ := h
  · exact fun _ => ha
  · intro hm
    rw [hidle] at hm
    exact absurd hm (by simp)

/-- An idle firmware stays in the main loop. -/
theorem place_of_idle (hm : s.dev.requestedMode = .idle) (hp : s.place = .mainLoop)
    (e : QuietEvent) : (quietStep s e).place = .mainLoop := by
  have hat : ∀ (place : Place) (f : Session → Session), place ≠ .mainLoop →
      (s.at place f).place = .mainLoop := by
    intro place f hne
    rw [Session.at, if_neg fun h => hne (h.symm.trans hp), hp]
  have hreceiving : ∀ f : Device → Device, (s.receiving f).place = .mainLoop := by
    intro f
    rw [Session.receiving, hp]
    exact hp
  obtain ⟨e, he⟩ := e
  cases e with
  | loopHead =>
    dsimp only [quietStep, sessionStep, loopHead]
    rw [hp]
    dsimp only [mainLoop]
    split
    · exact hp
    · rw [hm]
      exact hp
  | takeRequest => exact hat .leSync _ (by simp)
  | streamBlock samples buf => exact hat .streamRx _ (by simp)
  | genericBlock samples bufs => exact hat .genericLe _ (by simp)
  | addressHeard aa => exact hat .genericLe _ (by simp)
  | lePacket rssi t0tc p => exact hat .leSync _ (by simp)
  | leFlush t0tc => exact hat .leSync _ (by simp)
  | leResume => exact hat .leSync _ (by simp)
  | hop => exact hreceiving _
  | rxContinue => exact hreceiving _
  | btleSlave data => exact Bool.noConfusion he
  | _ => exact hp

/-- An idle firmware leaves the address alone. -/
theorem keepsAddress_of_idle (hm : s.dev.requestedMode = .idle) (hp : s.place = .mainLoop)
    (e : QuietEvent) : KeepsAddress a s e := by
  obtain ⟨e, he⟩ := e
  unfold KeepsAddress
  cases e with
  | request r => cases r <;> exact trivial
  | loopHead =>
    have hreset : ¬EntersReset s := fun h => by simp [EntersReset, hm] at h
    rw [effect, if_neg hreset]
    trivial
  | addressHeard aa =>
    rw [effect, if_neg fun h => by simp [hp] at h]
    trivial
  | lePacket rssi t0tc p =>
    rw [effect, if_neg fun h => by simp [Receives, hp] at h]
    trivial
  | leFlush t0tc =>
    rw [effect, if_neg fun h => by simp [TimesOut, hp] at h]
    trivial
  | _ => trivial

/-- Only `SET_ACCESS_ADDRESS` gives an address. -/
theorem asked_of_given {e : SessionEvent} {aa : U32} (h : effect s e = .given aa) :
    asksAddressOrMode e = true := by
  cases e with
  | request r =>
    cases r with
    | setAccessAddress data => rfl
    | _ => exact FilterEffect.noConfusion h
  | loopHead =>
    rw [effect] at h
    split at h <;> exact FilterEffect.noConfusion h
  | addressHeard aa =>
    rw [effect] at h
    split at h <;> exact FilterEffect.noConfusion h
  | lePacket rssi t0tc p =>
    rw [effect] at h
    split at h
    · obtain ⟨-, -, hp⟩ | ⟨-, -, hp⟩ | hp := packetEffect_cases p s.dev.fw <;> rw [hp] at h <;>
        exact FilterEffect.noConfusion h
    · exact FilterEffect.noConfusion h
  | leFlush t0tc =>
    rw [effect] at h
    split at h <;> exact FilterEffect.noConfusion h
  | _ => exact FilterEffect.noConfusion h

/-- The address after a step is the one before, or the one the step brings. -/
theorem accessAddress_quietStep (e : QuietEvent) :
    (quietStep s e).dev.fw.le.accessAddress = match effect s e.val with
      | .reset => advertisingAddress
      | .heard aa => aa
      | .follow p => connectAccessAddress p
      | _ => s.dev.fw.le.accessAddress := by
  have h : (filterOf (quietStep s e).dev.fw).accessAddress =
      ((effect s e.val).apply (filterOf s.dev.fw)).accessAddress := by
    rw [← filterOf_sessionStep]
    rfl
  refine h.trans ?_
  cases heff : effect s e.val with
  | given aa => exact absurd (asked_of_given heff) (Bool.eq_false_iff.1 e.property)
  | _ => rfl

theorem targetSet_quietStep (e : QuietEvent) (h : s.dev.fw.le.targetSet = true) :
    (quietStep s e).dev.fw.le.targetSet = true := by
  have hset : (filterOf (quietStep s e).dev.fw).targetSet =
      ((effect s e.val).apply (filterOf s.dev.fw)).targetSet := by
    rw [← filterOf_sessionStep]
    rfl
  refine hset.trans ((target_apply_effect s e.val _).2.trans ?_)
  rw [filterOf, h, Bool.true_or]

theorem effect_of_jamsOnce {e : SessionEvent} (h : JamsOnce s e) : effect s e = .reset := by
  cases e with
  | leFlush t0tc => rw [effect, if_pos h.1]
  | _ => exact h.elim

/-- The invariant is kept. -/
theorem given_quietStep (h : Given a s) (e : QuietEvent) (hk : KeepsAddress a s e) :
    Given a (quietStep s e) := by
  obtain ⟨hm, htarget, ha⟩ | ⟨hm, hp⟩ := h
  · have hrange : s.dev.requestedMode ≠ .rangeTest := by simp [hm]
    obtain ⟨hjams, hmode⟩ | ⟨-, hidle, hplace⟩ := requestedMode_quietStep hrange e
    · refine Or.inl ⟨hmode.trans hm, targetSet_quietStep e htarget, ?_⟩
      rw [accessAddress_quietStep]
      unfold KeepsAddress at hk
      cases heff : effect s e.val with
      | reset =>
        rw [heff] at hk
        exact (hk.resolve_right hjams).symm
      | heard aa =>
        rw [heff] at hk
        exact hk
      | follow p =>
        rw [heff] at hk
        exact hk
      | _ => exact ha
    · exact Or.inr ⟨hidle, hplace⟩
  · have hrange : s.dev.requestedMode ≠ .rangeTest := by simp [hm]
    refine Or.inr ⟨?_, place_of_idle hm hp e⟩
    obtain ⟨-, hmode⟩ | ⟨-, hidle, -⟩ := requestedMode_quietStep hrange e
    · exact hmode.trans hm
    · exact hidle

/-- Any other step loses the address. -/
theorem not_keepsGiven (h : Given a s) (e : QuietEvent) (hk : ¬KeepsAddress a s e) :
    ¬KeepsGiven a (quietStep s e) := by
  obtain ⟨hm, htarget, ha⟩ | ⟨hm, hp⟩ := h
  · have hrange : s.dev.requestedMode ≠ .rangeTest := by simp [hm]
    have haddress := accessAddress_quietStep (s := s) e
    unfold KeepsAddress at hk
    obtain ⟨-, hmode⟩ | ⟨hjams, -, -⟩ := requestedMode_quietStep hrange e
    · intro hkeeps
      have hsame := hkeeps (hmode.trans hm)
      rw [haddress] at hsame
      cases heff : effect s e.val with
      | reset =>
        rw [heff] at hk hsame
        exact hk (Or.inl hsame.symm)
      | heard aa =>
        rw [heff] at hk hsame
        exact hk hsame
      | follow p =>
        rw [heff] at hk hsame
        exact hk hsame
      | _ =>
        rw [heff] at hk
        exact absurd trivial hk
    · rw [effect_of_jamsOnce hjams] at hk
      exact absurd (Or.inr hjams) hk
  · exact absurd (keepsAddress_of_idle hm hp e) hk

theorem given_giveAddress (data : ℕ → U8) (s : Session) :
    Given (givenAddress data) (giveAddress data s) := by
  have hfilter : filterOf (giveAddress data s).dev.fw =
      (FilterEffect.given (givenAddress data)).apply (filterOf s.dev.fw) := by
    rw [giveAddress, run_cons, run_cons, run_nil, filterOf_sessionStep, filterOf_sessionStep]
    rfl
  exact Or.inl ⟨rfl, congrArg LinkFilter.targetSet hfilter,
    congrArg LinkFilter.accessAddress hfilter⟩

theorem Given.startsWith (h : Given a s) (e : QuietEvent) (hk : KeepsAddress a s e) :
    StartsWith a s e := by
  intro _ hp
  obtain ⟨-, -, ha⟩ | ⟨-, hmain⟩ := given_quietStep h e hk
  · exact ha
  · rw [hmain] at hp
    exact absurd hp (by simp)

/-- **The address given.** Whatever state the host gives an access address and asks for promiscuous
mode in, along a run of steps that leave the address `bt_le_sync` only ever starts with it; and the
address is kept for as long as the mode is asked for exactly along these runs. -/
theorem startsWith_of_keepsAddress (data : ℕ → U8) (s : Session) (es : List QuietEvent) :
    (Along quietStep (KeepsAddress (givenAddress data)) (giveAddress data s) es →
      Along quietStep (StartsWith (givenAddress data)) (giveAddress data s) es) ∧
    (Throughout quietStep (KeepsGiven (givenAddress data)) (giveAddress data s) es ↔
      Along quietStep (KeepsAddress (givenAddress data)) (giveAddress data s) es) :=
  ⟨along_of_invariant (fun _ e h hk => given_quietStep h e hk)
      (fun _ e h hk => h.startsWith e hk) (given_giveAddress data s),
    throughout_iff_of_invariant (fun _ h => h.keepsGiven)
      (fun _ e h hk => given_quietStep h e hk) (fun _ e h hk => not_keepsGiven h e hk)
      (given_giveAddress data s)⟩

/-- The main loop enters `bt_promisc_le`, and `bt_le_sync` starts with the address. -/
theorem startsWith_of_keepsAddress_enter :
    Along quietStep (StartsWith (givenAddress fun _ => 0x11))
      (giveAddress (fun _ => 0x11) sessionOn)
      [⟨.loopHead, rfl⟩] := by
  have hreset : ¬EntersReset (giveAddress (fun _ => 0x11) sessionOn) := by decide +kernel
  have hkeep : effect (giveAddress (fun _ => 0x11) sessionOn) .loopHead = .keep := by
    rw [effect, if_neg hreset]
  refine (startsWith_of_keepsAddress (fun _ => 0x11) sessionOn _).1 ⟨?_, trivial⟩
  unfold KeepsAddress
  rw [hkeep]
  trivial

/-- A round of `bt_le_sync` with an empty data PDU, once the host has set the clock. -/
def emptyPduAt (clkn : ℕ) : List QuietEvent := [
  ⟨.request (.setClock fun i => BitVec.ofNat 8 (clkn / 256 ^ i)), rfl⟩, ⟨.terminalCount, rfl⟩,
  ⟨.lePacket 0 0 emptyPdu, rfl⟩, ⟨.leFlush 0, rfl⟩, ⟨.leResume, rfl⟩]

/-- The firmware recovers the CRCInit, a hop interval of 6 and a hop increment, hears nothing more
for 5 s, and is back in the main loop. -/
def recoverAndLose : List QuietEvent :=
  [⟨.loopHead, rfl⟩] ++ (List.range 7).flatMap (fun n => emptyPduAt (888 * n)) ++
    [⟨.hop, rfl⟩] ++ emptyPduAt 10000 ++ [⟨.hop, rfl⟩] ++ emptyPduAt 10024 ++
    [⟨.request (.setClock fun i => BitVec.ofNat 8 (30000 / 256 ^ i)), rfl⟩, ⟨.leFlush 0, rfl⟩]

/-- The address `0x11111111` is given, and after a connection is recovered and lost `bt_le_sync`
starts with the advertising address. -/
theorem not_startsWith_recoverAndLose :
    ¬Along quietStep (StartsWith (givenAddress fun _ => 0x11))
      (giveAddress (fun _ => 0x11) sessionOn)
      (recoverAndLose ++ [⟨.loopHead, rfl⟩]) := by
  intro h
  have hlast := (along_append.1 h).2.1
  exact absurd (hlast (by decide +kernel) (by decide +kernel)) (by decide +kernel)

end Ubertooth.LowEnergy
