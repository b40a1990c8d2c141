import Ubertooth.LowEnergy.Target
import Ubertooth.LowEnergy.Whitening

/-!
# The CRC of what the slave advertises

`bt_slave_le` computes the CRC of its advertisement from `le.crc_init_reversed`, which it does not
set. Beside a session, `SeedOrigin` says who wrote that field last: `reset_le`, a CONNECT_REQ that
was followed, or a packet from which a CRCInit was recovered. The advertisements all carry the CRC
of the advertising channels exactly if the slave is only entered after `reset_le`, or after the
recovery of the CRCInit of the advertising channels (`advertises_throughout_iff`): the 32-bit
reversal that a CONNECT_REQ leaves is never the seed of advertising.
-/

namespace Ubertooth.LowEnergy

open Firmware Foundations

/-! ## The CRC determines the seed -/

theorem reverse_inj {c d : BitVec 24} (h : c.reverse = d.reverse) : c = d := by
  rw [← BitVec.reverse_reverse_eq (x := c), h, BitVec.reverse_reverse_eq]

/-- The three octets of the CRC say what its word is. -/
theorem word_of_octets {c d : BitVec 24}
    (h0 : ((c.setWidth 32 : U32).setWidth 8 : U8) = (d.setWidth 32 : U32).setWidth 8)
    (h1 : (((c.setWidth 32 : U32) >>> 8).setWidth 8 : U8) =
      ((d.setWidth 32 : U32) >>> 8).setWidth 8)
    (h2 : (((c.setWidth 32 : U32) >>> 16).setWidth 8 : U8) =
      ((d.setWidth 32 : U32) >>> 16).setWidth 8) : (c.setWidth 32 : U32) = d.setWidth 32 := by
  rw [← join_octets c, ← join_octets d, h0, h1, h2]

/-- A PDU with its CRC says what the PDU is, and what seed the CRC was computed from. -/
theorem withCrc_inj {x y : U32} {a b : List U8} (hlen : a.length = b.length)
    (h : withCrc x a = withCrc y b) : a = b ∧ x.setWidth 24 = y.setWidth 24 := by
  obtain ⟨rfl, hcrc⟩ := List.append_inj h hlen
  refine ⟨rfl, ?_⟩
  have hfeed : ∀ z : U32, btleCalcCrc z a a.length =
      btleCalcCrc ((z.setWidth 24).setWidth 32) a a.length := by
    intro z
    rw [btleCalcCrc_eq_feed, btleCalcCrc_eq_feed, setWidth_setWidth_word]
  have hword : btleCalcCrc x a a.length = btleCalcCrc y a a.length := by
    simp only [btleCalcCrc_eq_feed, List.cons.injEq, and_true] at hcrc ⊢
    exact word_of_octets hcrc.1 hcrc.2.1 hcrc.2.2
  have hreverse : (x.setWidth 24).reverse.setWidth 32 =
      ((y.setWidth 24).reverse.setWidth 32 : U32) := by
    rw [← btleReverseCrc_btleCalcCrc _ a a.length, ← btleReverseCrc_btleCalcCrc _ a a.length,
      ← hfeed, ← hfeed, hword]
  have h24 := congrArg (BitVec.setWidth 24) hreverse
  rw [setWidth_setWidth_word, setWidth_setWidth_word] at h24
  exact reverse_inj h24

theorem withCrc_congr {x y : U32} (h : x.setWidth 24 = y.setWidth 24) (a : List U8) :
    withCrc x a = withCrc y a := by
  rw [withCrc, withCrc, btleCalcCrc_eq_feed, btleCalcCrc_eq_feed, h]

/-! ## What the slave sends -/

/-- An advertisement with the CRC of the advertising channels. -/
def CarriesAdvertisingCrc (data : List U8) : Prop :=
  ∃ slaveMacAddress, data = withCrc advertisingSeed (advInd slaveMacAddress)

theorem length_advInd (slaveMacAddress : ℕ → U8) : (advInd slaveMacAddress).length = 11 := by
  simp [advInd]

/-- The data of `bt_slave_le` carry it exactly if its seed is that of the advertising channels. -/
theorem carriesAdvertisingCrc_slaveData_iff (le : LeState) (slaveMacAddress : ℕ → U8) :
    CarriesAdvertisingCrc (slaveData le slaveMacAddress) ↔
      le.crcInitReversed.setWidth 24 = advertisingSeed.setWidth 24 := by
  constructor
  · rintro ⟨mac, h⟩
    exact (withCrc_inj (by rw [length_advInd, length_advInd]) h).2
  · exact fun h => ⟨slaveMacAddress, withCrc_congr h _⟩

/-- Every receiver with that seed accepts it. -/
theorem accepts_carriesAdvertisingCrc {data : List U8} (h : CarriesAdvertisingCrc data)
    {channel : U16} (hchannel : ∃ k < 40, channel.toNat = 2402 + 2 * k) {le : LeState}
    (hle : le.crcInitReversed = advertisingSeed) (stack : Packet) :
    btLeSyncAccepts le (btLeSyncPacket stack le channel fun i =>
      (leTxbuf channel advertisingAddress 14 data).getD (i + 4) 0) = true := by
  obtain ⟨mac, rfl⟩ := h
  rw [← hle]
  exact accepts_slaveData hchannel advertisingAddress le mac stack

/-! ## Who wrote the seed -/

/-- The last writer of `le.crc_init_reversed`. -/
inductive SeedOrigin
  /-- power on, or `reset_le` -/
  | advertising
  /-- a CONNECT_REQ was followed -/
  | followed
  /-- `crcInit` was recovered -/
  | recovered (crcInit : U32)

def SeedOrigin.next (o : SeedOrigin) : FilterEffect → SeedOrigin
  | .reset => .advertising
  | .follow _ => .followed
  | .recover crcInit => .recovered crcInit
  | _ => o

/-- What the last writer left in the field. -/
def SeedOrigin.Left (x : U32) : SeedOrigin → Prop
  | .advertising => x = advertisingSeed
  | .followed => ∃ p, x = (connectCrcInit p).reverse
  | .recovered crcInit => x = reverse24 crcInit

/-- The last writer left the seed of the advertising channels. -/
def SeedOrigin.Advertises : SeedOrigin → Prop
  | .advertising => True
  | .followed => False
  | .recovered crcInit => crcInit.setWidth 24 = 0x555555#24

/-- The reversal of a CRCInit among 32 bits has zeros in its low octet. -/
theorem reverse_connectCrcInit_ne (p : Packet) :
    ((connectCrcInit p).reverse).setWidth 24 ≠ advertisingSeed.setWidth 24 := by
  intro h
  have hbit : ((connectCrcInit p).reverse).getLsbD 1 = false := by
    rw [BitVec.getLsbD_reverse, BitVec.getMsbD_eq_getLsbD, getLsbD_connectCrcInit p (by omega)]
    rfl
  have hone := congrArg (fun x : BitVec 24 => x.getLsbD 1) h
  simp only [BitVec.getLsbD_setWidth, hbit] at hone
  exact absurd hone (by simp)

theorem SeedOrigin.Left.advertises_iff {x : U32} {o : SeedOrigin} (h : o.Left x) :
    o.Advertises ↔ x.setWidth 24 = advertisingSeed.setWidth 24 := by
  cases o with
  | advertising => exact iff_of_true trivial (congrArg _ h)
  | followed =>
    obtain ⟨p, rfl⟩ := h
    exact iff_of_false id (reverse_connectCrcInit_ne p)
  | recovered crcInit =>
    have hx : x.setWidth 24 = (crcInit.setWidth 24).reverse := by
      rw [show x = reverse24 crcInit from h, reverse24_eq, setWidth_setWidth_word]
    have hseed : advertisingSeed.setWidth 24 = (0x555555#24).reverse := by decide +kernel
    rw [hx, hseed]
    exact ⟨congrArg _, fun heq => reverse_inj heq⟩

/-- A step leaves the seed its effect says. -/
theorem SeedOrigin.Left.step {s : Firmware.Session} {o : SeedOrigin}
    (h : o.Left s.dev.fw.le.crcInitReversed) (e : Firmware.SessionEvent) :
    (o.next (effect s e)).Left (Firmware.sessionStep s e).dev.fw.le.crcInitReversed := by
  have hstep : (Firmware.sessionStep s e).dev.fw.le.crcInitReversed =
      ((effect s e).apply (filterOf s.dev.fw)).crcInitReversed := by
    rw [← filterOf_sessionStep]
    rfl
  rw [hstep]
  cases effect s e with
  | reset => exact rfl
  | follow p => exact ⟨p, rfl⟩
  | recover crcInit => exact rfl
  | _ => exact h

/-! ## Every run -/

/-- The main loop enters `bt_slave_le`. -/
def EntersSlave (s : Firmware.Session) : Firmware.SessionEvent → Prop
  | .loopHead => s.place = .mainLoop ∧ s.dev.requestedMode = .btSlaveLe ∧ s.dev.mode ≠ .btSlaveLe
  | _ => False

/-- Nothing more has been sent, and the slave is not entered. -/
def SentSame (s s' : Firmware.Session) : Prop :=
  s'.sent = s.sent ∧ ∀ data, s'.place = .slaveLe data → s.place = .slaveLe data

theorem SentSame.refl (s : Firmware.Session) : SentSame s s := ⟨rfl, fun _ h => h⟩

theorem SentSame.of_at {place : Place} {f : Firmware.Session → Firmware.Session}
    {s : Firmware.Session}
    (h : SentSame s (f s)) : SentSame s (s.at place f) := by
  unfold Firmware.Session.at
  split
  · exact h
  · exact SentSame.refl s

theorem SentSame.of_receiving (f : Device → Device) (s : Firmware.Session) :
    SentSame s (s.receiving f) := by
  unfold Firmware.Session.receiving
  split
  · exact ⟨rfl, fun _ h => h⟩
  · exact SentSame.refl s

theorem sentSame_genericHeard (aa : U32) (s : Firmware.Session) :
    SentSame s (genericHeard aa s) := by
  unfold genericHeard
  split
  · exact SentSame.refl s
  · split <;> exact ⟨rfl, fun _ h => Place.noConfusion h⟩

theorem sentSame_leFlush (t0tc : U32) (s : Firmware.Session) : SentSame s (leFlush t0tc s) := by
  have hmain : ∀ u : Firmware.Session, u.sent = s.sent → u.place = .mainLoop → SentSame s u :=
    fun u hu hp => ⟨hu, fun _ h => Place.noConfusion (hp.symm.trans h)⟩
  dsimp only [leFlush]
  split
  · split
    · exact hmain _ rfl rfl
    · split
      · exact hmain _ rfl rfl
      · exact ⟨rfl, fun _ h => h⟩
  · exact ⟨rfl, fun _ h => h⟩

theorem sentSame_mainLoop {s : Firmware.Session}
    (h : ¬(s.dev.requestedMode = .btSlaveLe ∧ s.dev.mode ≠ .btSlaveLe)) :
    SentSame s (mainLoop s) := by
  unfold mainLoop
  split
  case isTrue => exact SentSame.refl s
  case isFalse hne =>
    split
    case h_7 hm => exact absurd ⟨hm, fun hmode => hne (hm.trans hmode.symm)⟩ h
    case h_6 =>
      refine ⟨rfl, fun data hp => ?_⟩
      dsimp only at hp
      split at hp <;> exact Place.noConfusion hp
    all_goals first | exact ⟨rfl, fun _ hp => hp⟩ | exact ⟨rfl, fun _ hp => Place.noConfusion hp⟩

/-- The head of any other loop than that of the slave. -/
theorem sentSame_loopHead {s : Firmware.Session} (hmain : s.place ≠ .mainLoop)
    (hslave : ∀ data, s.place ≠ .slaveLe data) : SentSame s (loopHead s) := by
  have hleave : ∀ u : Firmware.Session, u.sent = s.sent → u.place = .mainLoop → SentSame s u :=
    fun u hu hp => ⟨hu, fun _ h => Place.noConfusion (hp.symm.trans h)⟩
  unfold loopHead
  split
  case h_1 h => exact absurd h hmain
  case h_5 data h => exact absurd h (hslave data)
  case h_6 => exact SentSame.refl s
  all_goals
    split
    · exact SentSame.refl s
    · exact hleave _ rfl rfl

/-- What the head of a loop sends: the data of the slave that is entered, or those of the slave
that runs. -/
theorem sent_loopHead (s : Firmware.Session) :
    (EntersSlave s .loopHead ∧ loopHead s = enterSlaveLe s) ∨
    (¬EntersSlave s .loopHead ∧ ∃ data, s.place = .slaveLe data ∧
      loopHead s = { s with sent := data :: s.sent }) ∨
    (¬EntersSlave s .loopHead ∧ SentSame s (loopHead s)) := by
  by_cases hmain : s.place = .mainLoop
  · have hhead : loopHead s = mainLoop s := by
      rw [loopHead, hmain]
    rw [hhead]
    by_cases hm : s.dev.requestedMode = .btSlaveLe ∧ s.dev.mode ≠ .btSlaveLe
    · refine Or.inl ⟨⟨hmain, hm⟩, ?_⟩
      have hne : ¬Mode.btSlaveLe = s.dev.mode := fun h => hm.2 h.symm
      rw [mainLoop, hm.1, if_neg hne]
    · exact Or.inr (Or.inr ⟨fun h => hm h.2, sentSame_mainLoop hm⟩)
  · have hne : ¬EntersSlave s .loopHead := fun h => hmain h.1
    by_cases hslave : ∃ data, s.place = .slaveLe data
    · obtain ⟨data, hdata⟩ := hslave
      by_cases hm : s.dev.requestedMode = .btSlaveLe
      · refine Or.inr (Or.inl ⟨hne, data, hdata, ?_⟩)
        rw [loopHead, hdata]
        exact if_pos hm
      · refine Or.inr (Or.inr ⟨hne, ?_⟩)
        have hleave : loopHead s = { s with place := .mainLoop } := by
          rw [loopHead, hdata]
          exact if_neg hm
        rw [hleave]
        exact ⟨rfl, fun _ h => Place.noConfusion h⟩
    · exact Or.inr (Or.inr ⟨hne, sentSame_loopHead hmain fun data h => hslave ⟨data, h⟩⟩)

/-- What a step sends: the data of the slave that is entered, or those of the slave that runs. -/
theorem sent_sessionStep (s : Firmware.Session) (e : Firmware.SessionEvent) :
    (EntersSlave s e ∧ Firmware.sessionStep s e = enterSlaveLe s) ∨
    (¬EntersSlave s e ∧ ∃ data, s.place = .slaveLe data ∧
      Firmware.sessionStep s e = { s with sent := data :: s.sent }) ∨
    (¬EntersSlave s e ∧ SentSame s (Firmware.sessionStep s e)) := by
  have hdevice : ∀ f : Device → Device, SentSame s (s.device f) := fun f => ⟨rfl, fun _ h => h⟩
  cases e with
  | loopHead => exact sent_loopHead s
  | takeRequest => exact Or.inr (Or.inr ⟨id, SentSame.of_at (hdevice _)⟩)
  | streamBlock samples buf => exact Or.inr (Or.inr ⟨id, SentSame.of_at (hdevice _)⟩)
  | genericBlock samples bufs => exact Or.inr (Or.inr ⟨id, SentSame.of_at (hdevice _)⟩)
  | addressHeard aa => exact Or.inr (Or.inr ⟨id, SentSame.of_at (sentSame_genericHeard aa s)⟩)
  | lePacket rssi t0tc p =>
    refine Or.inr (Or.inr ⟨id, SentSame.of_at ?_⟩)
    split
    · exact hdevice _
    · exact SentSame.refl s
  | leFlush t0tc => exact Or.inr (Or.inr ⟨id, SentSame.of_at (sentSame_leFlush t0tc s)⟩)
  | leResume => exact Or.inr (Or.inr ⟨id, SentSame.of_at (hdevice _)⟩)
  | hop => exact Or.inr (Or.inr ⟨id, SentSame.of_receiving _ s⟩)
  | rxContinue => exact Or.inr (Or.inr ⟨id, SentSame.of_receiving _ s⟩)
  | _ => exact Or.inr (Or.inr ⟨id, rfl, fun _ h => h⟩)

/-- The slave is entered with the seed of the advertising channels. -/
def EntersAdvertising (x : Firmware.Session × SeedOrigin) (e : Firmware.SessionEvent) : Prop :=
  EntersSlave x.1 e → x.2.Advertises

/-- All that has been sent carries the CRC of the advertising channels. -/
def SentCorrect (s : Firmware.Session) : Prop := ∀ data ∈ s.sent, CarriesAdvertisingCrc data

def nextOrigin (o : SeedOrigin) (s : Firmware.Session) (e : Firmware.SessionEvent) : SeedOrigin :=
  o.next (effect s e)

/-- A session, and the last writer of the seed. -/
def seedStep :
    Firmware.Session × SeedOrigin → Firmware.SessionEvent → Firmware.Session × SeedOrigin :=
  ghostStep Firmware.sessionStep nextOrigin

/-- The invariant: the seed is what its last writer left, and what the slave sends, and has sent,
is correct. -/
structure Advertised (x : Firmware.Session × SeedOrigin) : Prop where
  left : x.2.Left x.1.dev.fw.le.crcInitReversed
  sent : SentCorrect x.1
  slave : ∀ data, x.1.place = .slaveLe data → CarriesAdvertisingCrc data

theorem advertised_seedStep (x : Firmware.Session × SeedOrigin) (e : Firmware.SessionEvent)
    (h : Advertised x)
    (hc : EntersAdvertising x e) : Advertised (seedStep x e) := by
  have hcons : ∀ {data : List U8}, CarriesAdvertisingCrc data →
      ∀ d ∈ data :: x.1.sent, CarriesAdvertisingCrc d := fun hdata d hd =>
    (List.mem_cons.1 hd).elim (fun heq => heq ▸ hdata) (h.sent d)
  have hleft := h.left.step e
  obtain ⟨henters, hstep⟩ | ⟨-, data, hp, hstep⟩ | ⟨-, hsent, hplace⟩ := sent_sessionStep x.1 e
  · have hcorrect : CarriesAdvertisingCrc (slaveData x.1.dev.fw.le x.1.slaveMacAddress) :=
      (carriesAdvertisingCrc_slaveData_iff _ _).2 (h.left.advertises_iff.1 (hc henters))
    refine ⟨hleft, ?_, ?_⟩
    · show SentCorrect (Firmware.sessionStep x.1 e)
      rw [hstep]
      exact hcons hcorrect
    · show ∀ data, (Firmware.sessionStep x.1 e).place = .slaveLe data → CarriesAdvertisingCrc data
      rw [hstep]
      intro data hdata
      exact Place.slaveLe.inj hdata ▸ hcorrect
  · refine ⟨hleft, ?_, ?_⟩
    · show SentCorrect (Firmware.sessionStep x.1 e)
      rw [hstep]
      exact hcons (h.slave data hp)
    · show ∀ data, (Firmware.sessionStep x.1 e).place = .slaveLe data → CarriesAdvertisingCrc data
      rw [hstep]
      exact h.slave
  · refine ⟨hleft, ?_, fun data hdata => h.slave data (hplace data hdata)⟩
    show ∀ data ∈ (Firmware.sessionStep x.1 e).sent, CarriesAdvertisingCrc data
    rw [hsent]
    exact h.sent

theorem not_sentCorrect (x : Firmware.Session × SeedOrigin) (e : Firmware.SessionEvent)
    (h : Advertised x)
    (hc : ¬EntersAdvertising x e) : ¬SentCorrect (seedStep x e).1 := by
  obtain ⟨henters, hseed⟩ := Classical.not_imp.1 hc
  obtain ⟨-, hstep⟩ | ⟨hne, -⟩ | ⟨hne, -⟩ := sent_sessionStep x.1 e
  · intro hsent
    have hsent' : SentCorrect (Firmware.sessionStep x.1 e) := hsent
    rw [hstep] at hsent'
    have hcorrect := hsent' _ List.mem_cons_self
    exact hseed (h.left.advertises_iff.2 ((carriesAdvertisingCrc_slaveData_iff _ _).1 hcorrect))
  · exact absurd henters hne
  · exact absurd henters hne

theorem advertised_on : Advertised (sessionOn, .advertising) :=
  ⟨rfl, fun _ h => absurd h (List.not_mem_nil), fun _ h => Place.noConfusion h⟩

/-- **The CRC of what the slave advertises.** For every history of requests and sessions, all that
`bt_slave_le` has sent carries the CRC of the advertising channels in every state exactly if,
whenever it was entered, the seed was last written by `reset_le`, or recovered as that of the
advertising channels. -/
theorem advertises_throughout_iff (es : List Firmware.SessionEvent) :
    Throughout Firmware.sessionStep SentCorrect sessionOn es ↔
      Along seedStep EntersAdvertising (sessionOn, .advertising) es :=
  (throughout_ghostStep Firmware.sessionStep nextOrigin (sessionOn, SeedOrigin.advertising)
    es).symm.trans
    (throughout_iff_of_invariant (P := fun x : Firmware.Session × SeedOrigin => SentCorrect x.1)
      (fun _ h => h.sent) advertised_seedStep not_sentCorrect advertised_on)

/-- A CONNECT_REQ with CRCInit `0x123456`, with the CRC of the advertising channels. -/
def advertisedConnectReq : Packet := packetOf
  [(4, 0x05), (5, 0x22), (22, 0x56), (23, 0x34), (24, 0x12), (40, 0x61), (41, 0x32), (42, 0x6d)]

/-- A connection is followed, the host stops the firmware and makes it a slave. -/
def followThenAdvertise : List Firmware.SessionEvent := [
  .request .btleSniffing, .loopHead, .terminalCount, .lePacket 0 0 advertisedConnectReq,
  .request (.requestMode .idle), .loopHead, .btleSlave fun _ => 0xff]

/-- What the slave then sends has the CRC of no one. -/
theorem not_sentCorrect_followThenAdvertise :
    ¬Throughout Firmware.sessionStep SentCorrect sessionOn
      (followThenAdvertise ++ [.loopHead]) := by
  intro h
  have hsent := h _ (List.prefix_refl _)
  rw [run_concat] at hsent
  have henters : EntersSlave (run Firmware.sessionStep sessionOn followThenAdvertise) .loopHead :=
    ⟨by decide +kernel, by decide +kernel, by decide +kernel⟩
  obtain ⟨-, hstep⟩ | ⟨hne, -⟩ | ⟨hne, -⟩ := sent_sessionStep _ _
  · rw [hstep] at hsent
    have hcorrect := hsent _ List.mem_cons_self
    exact absurd ((carriesAdvertisingCrc_slaveData_iff _ _).1 hcorrect) (by decide +kernel)
  · exact absurd henters hne
  · exact absurd henters hne

end Ubertooth.LowEnergy
