import Ubertooth.Foundations.Runs
import Ubertooth.LowEnergy.Crc
import Ubertooth.LowEnergy.Link

/-!
# The CRC seed of a followed link

`le` holds the seed of the CRC twice: `crc_init`, as it travels in a CONNECT_REQ, and
`crc_init_reversed`, the register `btle_crcgen_lut` starts from, which reads its low 24 bits only.
The two agree when those bits are the 24 bits of `crc_init` in the opposite order
(`CrcFieldsAgree`); the packets that pass the check of `bt_le_sync` are then the ones whose CRC is
correct for `crc_init` (`btLeSyncAccepts_iff_correctFor`).

* `promisc_follow_cb` recovers the pair from one packet of the connection
  (`promiscFollowCb_recovers_seed`).
* `connection_follow_cb` stores the 32 bits of `crc_init` in the opposite order, eight places too
  high: the two fields agree after a CONNECT_REQ exactly when its CRCInit is zero
  (`crcFieldsAgree_throughout_iff`).
-/

namespace Ubertooth.LowEnergy

open Firmware Foundations

/-! ## The check of `bt_le_sync` -/

/-- The CRC of `q` is correct for a register that starts from `seed`. -/
def CorrectFor (seed : U32) (q : Packet) : Prop := wireCrc q = btleCalcCrc seed (pdu q) (pduLen q)

instance (seed : U32) (q : Packet) : Decidable (CorrectFor seed q) :=
  inferInstanceAs (Decidable (_ = _))

/-- Only the low 24 bits of a seed matter. -/
theorem correctFor_congr {x y : U32} (h : x.setWidth 24 = y.setWidth 24) (q : Packet) :
    CorrectFor x q ↔ CorrectFor y q := by
  unfold CorrectFor
  rw [btleCalcCrc_eq_feed, btleCalcCrc_eq_feed, h]

theorem btLeSyncAccepts_iff_correctFor (le : LeState) (hv : le.crcVerify = true) (q : Packet) :
    btLeSyncAccepts le q = true ↔ pduLen q ≤ 39 ∧ CorrectFor le.crcInitReversed q := by
  rw [btLeSyncAccepts, hv, btleCrcgenLut_eq_feed, ← btleCalcCrc_eq_feed, CorrectFor,
    eq_comm (a := wireCrc q)]
  simp

/-- The two fields hold one seed. -/
def CrcFieldsAgree (le : LeState) : Prop :=
  le.crcInitReversed.setWidth 24 = (le.crcInit.setWidth 24).reverse

instance (le : LeState) : Decidable (CrcFieldsAgree le) := inferInstanceAs (Decidable (_ = _))

/-- With verification switched on, the packets accepted are those with a correct CRC for
`crc_init`. -/
def AcceptsCorrect (le : LeState) : Prop :=
  ∀ q, btLeSyncAccepts { le with crcVerify := true } q = true ↔
    pduLen q ≤ 39 ∧ CorrectFor (reverse24 le.crcInit) q

theorem CrcFieldsAgree.acceptsCorrect {le : LeState} (h : CrcFieldsAgree le) :
    AcceptsCorrect le := by
  intro q
  have hseed : le.crcInitReversed.setWidth 24 = (reverse24 le.crcInit).setWidth 24 := by
    rw [h, reverse24_eq, setWidth_setWidth_word]
  rw [btLeSyncAccepts_iff_correctFor { le with crcVerify := true } rfl q]
  exact and_congr_right fun _ => correctFor_congr hseed q

/-! ## Recovering the seed from a packet -/

/-- What `promisc_follow_cb` asks of a packet before it recovers the seed from it: the header of an
empty data PDU. -/
def RecoversSeed (p : Packet) (s : Fw) : Prop :=
  s.le.crcVerify = false ∧ p[4] = 0x01 ∧ p[5] = 0x00

theorem promiscFollowCb_of_recoversSeed {p : Packet} {s : Fw} (h : RecoversSeed p s) :
    promiscFollowCb p s = recoverCrcInit p s := by
  obtain ⟨hv, h4, h5⟩ := h
  simp [promiscFollowCb, hv, h4, h5]

theorem promiscFollowCb_of_not_recoversSeed {p : Packet} {s : Fw} (h : ¬RecoversSeed p s) :
    promiscFollowCb p s = s := by
  unfold promiscFollowCb
  refine if_neg fun hc => h ?_
  simp only [Bool.and_eq_true, Bool.not_eq_true', decide_eq_true_eq] at hc
  exact ⟨hc.1.1, hc.1.2, hc.2⟩

theorem pduLen_of_empty {p : Packet} (h5 : p[5] = 0x00) : pduLen p = 2 := by
  rw [pduLen, h5]
  rfl

theorem wireCrc_of_empty {p : Packet} (h5 : p[5] = 0x00) : wireCrc p = emptyPduCrc p := by
  rw [wireCrc, pduLen_of_empty h5]
  rfl

/-- The two fields `promisc_follow_cb` writes are one seed, whatever the packet. -/
theorem crcFieldsAgree_recoverCrcInit (p : Packet) (s : Fw) :
    CrcFieldsAgree (recoverCrcInit p s).le := by
  unfold CrcFieldsAgree
  rw [recoverCrcInit, lePromiscState_le, reverse24_eq, setWidth_setWidth_word]

theorem recoverCrcInit_of_correctFor {p : Packet} (seed : BitVec 24) (h5 : p[5] = 0x00)
    (hp : CorrectFor (seed.setWidth 32) p) (s : Fw) :
    (recoverCrcInit p s).le.crcInit = seed.reverse.setWidth 32 ∧
      (recoverCrcInit p s).le.crcInitReversed = seed.setWidth 32 := by
  have hcrc : emptyPduCrc p = btleCalcCrc (seed.setWidth 32) (pdu p) 2 := by
    rw [← wireCrc_of_empty h5, hp, pduLen_of_empty h5]
  have hinit : btleReverseCrc (emptyPduCrc p) (pdu p) 2 = seed.reverse.setWidth 32 := by
    rw [hcrc, btleReverseCrc_btleCalcCrc]
  rw [recoverCrcInit, lePromiscState_le, hinit, reverse24_eq, setWidth_setWidth_word,
    BitVec.reverse_reverse_eq]
  exact ⟨rfl, rfl⟩

/-- **The CRC backwards undoes the CRC forwards, and so recovers the seed.** For every register,
every CRC and all data the two routines are inverse up to the 24-bit reversal; when
`promisc_follow_cb` recovers the seed from a correctly received packet of a connection, the
packets that pass the check of `bt_le_sync` from then on are those correct for the seed of that
connection. -/
theorem promiscFollowCb_recovers_seed :
    (∀ (s : BitVec 24) (data : List U8),
      btleReverseCrc (btleCalcCrc (s.setWidth 32) data data.length) data data.length =
        s.reverse.setWidth 32) ∧
    (∀ (c : BitVec 24) (data : List U8),
      btleCalcCrc (reverse24 (btleReverseCrc (c.setWidth 32) data data.length)) data data.length =
        c.setWidth 32) ∧
    ∀ (seed : BitVec 24) (p : Packet) (s : Fw), RecoversSeed p s →
      CorrectFor (seed.setWidth 32) p →
      (promiscFollowCb p s).le.crcInitReversed = seed.setWidth 32 ∧
      (promiscFollowCb p s).le.crcInit = seed.reverse.setWidth 32 ∧
      ∀ q, btLeSyncAccepts (promiscFollowCb p s).le q = true ↔
        pduLen q ≤ 39 ∧ CorrectFor (seed.setWidth 32) q := by
  refine ⟨fun s data => btleReverseCrc_btleCalcCrc s data _,
    fun c data => btleCalcCrc_btleReverseCrc c data _, fun seed p s hr hp => ?_⟩
  obtain ⟨hinit, hreversed⟩ := recoverCrcInit_of_correctFor seed hr.2.2 hp s
  have hverify : (recoverCrcInit p s).le.crcVerify = true := by
    rw [recoverCrcInit, lePromiscState_le]
  rw [promiscFollowCb_of_recoversSeed hr]
  refine ⟨hreversed, hinit, fun q => ?_⟩
  rw [btLeSyncAccepts_iff_correctFor _ hverify, hreversed]

/-- An empty data PDU with the CRC of the advertising channel's seed. -/
def emptyPdu : Packet :=
  packetOf [(4, 0x01), (6, 0xa9), (7, 0xe4), (8, 0x8f)]

theorem promiscFollowCb_recovers_seed_emptyPdu :
    (promiscFollowCb emptyPdu { powerOn with le := { crcVerify := false } }).le.crcInitReversed =
      0xaaaaaa := by
  have h := promiscFollowCb_recovers_seed.2.2 0xaaaaaa#24 emptyPdu
    { powerOn with le := { crcVerify := false } } ⟨rfl, rfl, rfl⟩ (by decide +kernel)
  exact h.1

/-! ## The seed of a CONNECT_REQ -/

/-- A word of 24 bits. -/
theorem getLsbD_connectCrcInit (p : Packet) {i : ℕ} (hi : 24 ≤ i) :
    (connectCrcInit p).getLsbD i = false := by
  have hoctet : ∀ (c : U8) (n : ℕ), n ≤ 16 → (c.setWidth 32 <<< n).getLsbD i = false := by
    intro c n hn
    rw [BitVec.getLsbD_shiftLeft, BitVec.getLsbD_setWidth, BitVec.getLsbD_of_ge c _ (by omega)]
    simp
  have h0 : (p[22].setWidth 32).getLsbD i = false := by
    rw [BitVec.getLsbD_setWidth, BitVec.getLsbD_of_ge p[22] _ (by omega), Bool.and_false]
  rw [connectCrcInit, BitVec.getLsbD_or, BitVec.getLsbD_or, hoctet _ _ (Nat.le_refl 16),
    hoctet _ _ (by omega), h0]
  rfl

/-- A word of 24 bits reversed among 32 and among 24 is the same in its low 24 bits only if it is
zero: among 32 its bits come out eight places higher. -/
theorem reverse_setWidth_eq_iff {c : U32} (hc : ∀ i, 24 ≤ i → c.getLsbD i = false) :
    c.reverse.setWidth 24 = (c.setWidth 24).reverse ↔ c = 0 := by
  refine ⟨fun h => ?_, fun h => by subst h; decide +kernel⟩
  have hbit : ∀ i < 24, c.getLsbD (31 - i) = c.getLsbD (23 - i) := by
    intro i hi
    have hi' := congrArg (fun x : BitVec 24 => x.getLsbD i) h
    simp only [BitVec.getLsbD_setWidth, BitVec.getLsbD_reverse, BitVec.getMsbD_eq_getLsbD] at hi'
    simpa [hi, show i < 32 by omega, show 24 - 1 - i < 24 by omega] using hi'
  -- going down from bit 31, each bit is the one eight places above it
  have hzero : ∀ n ≤ 32, ∀ i, 32 - n ≤ i → c.getLsbD i = false := by
    intro n
    induction n with
    | zero => exact fun _ i hi => hc i (by omega)
    | succ n ih =>
      intro hn i hi
      rcases Nat.lt_or_ge i 24 with h24 | h24
      · have hup := hbit (23 - i) (by omega)
        rw [show 23 - (23 - i) = i by omega] at hup
        rw [← hup]
        exact ih (by omega) _ (by omega)
      · exact hc i h24
  apply BitVec.eq_of_getLsbD_eq
  intro i hi
  rw [hzero 32 (Nat.le_refl 32) i (by omega)]
  simp

theorem crcFieldsAgree_followConnect_iff (p : Packet) (s : Fw) :
    CrcFieldsAgree (followConnect p s).le ↔ connectCrcInit p = 0 :=
  reverse_setWidth_eq_iff fun _ => getLsbD_connectCrcInit p

theorem crcFields_applyUpdate (clkn : U32) (le : LeState) :
    (le.applyUpdate clkn).crcInit = le.crcInit ∧
      (le.applyUpdate clkn).crcInitReversed = le.crcInitReversed := by
  unfold LeState.applyUpdate
  split <;> exact ⟨rfl, rfl⟩

/-- Outside an accepted CONNECT_REQ `connection_follow_cb` leaves the seed alone. -/
theorem crcFields_connectionFollowCb {p : Packet} {s : Fw} (h : ¬AcceptsConnect p s) :
    (connectionFollowCb p s).le.crcInit = s.le.crcInit ∧
      (connectionFollowCb p s).le.crcInitReversed = s.le.crcInitReversed := by
  by_cases hp : s.le.linkState = .connPending
  · rw [connectionFollowCb_pending hp]
    exact ⟨rfl, rfl⟩
  by_cases hc : s.le.linkState = .connected
  · rw [connectionFollowCb_connected hc]
    obtain ⟨w, o, i, n, u, hle⟩ := connectedLe_frame p s.clkn s.le
    rw [hle]
    exact crcFields_applyUpdate s.clkn s.le
  · rw [connectionFollowCb_ignored hp hc h]
    exact ⟨rfl, rfl⟩

/-! ## Every run -/

/-- The writers of the two fields, and what else happens to the state: `world` stands for anything
that leaves the two fields alone. -/
inductive CrcEvent
  | resetLe
  | connectionFollow (p : Packet)
  | promiscFollow (p : Packet)
  | world (s : Fw)

def crcStep (s : Fw) : CrcEvent → Fw
  | .resetLe => resetLe s
  | .connectionFollow p => connectionFollowCb p s
  | .promiscFollow p => promiscFollowCb p s
  | .world s' => { s' with le := { s'.le with
      crcInit := s.le.crcInit, crcInitReversed := s.le.crcInitReversed } }

/-- The CONNECT_REQ that is followed carries CRCInit 0. -/
def FollowsZeroCrcInit (s : Fw) : CrcEvent → Prop
  | .connectionFollow p => AcceptsConnect p s → connectCrcInit p = 0
  | _ => True

theorem crcFieldsAgree_congr {le le' : LeState} (h : le'.crcInit = le.crcInit)
    (h' : le'.crcInitReversed = le.crcInitReversed) : CrcFieldsAgree le' ↔ CrcFieldsAgree le := by
  unfold CrcFieldsAgree
  rw [h, h']

theorem crcFieldsAgree_step_iff (s : Fw) (e : CrcEvent) (hs : CrcFieldsAgree s.le) :
    CrcFieldsAgree (crcStep s e).le ↔ FollowsZeroCrcInit s e := by
  cases e with
  | resetLe =>
    have hconst : (0xAAAAAA : U32).setWidth 24 = ((0x555555 : U32).setWidth 24).reverse := by
      decide +kernel
    exact iff_of_true hconst trivial
  | connectionFollow p =>
    by_cases hp : AcceptsConnect p s
    · have hstep : crcStep s (.connectionFollow p) = followConnect p s :=
        connectionFollowCb_of_acceptsConnect hp
      rw [hstep, crcFieldsAgree_followConnect_iff]
      exact (imp_iff_right hp).symm
    · obtain ⟨hinit, hreversed⟩ := crcFields_connectionFollowCb hp
      exact iff_of_true ((crcFieldsAgree_congr hinit hreversed).2 hs) fun h => absurd h hp
  | promiscFollow p =>
    refine iff_of_true ?_ trivial
    by_cases hp : RecoversSeed p s
    · have hstep : crcStep s (.promiscFollow p) = recoverCrcInit p s :=
        promiscFollowCb_of_recoversSeed hp
      rw [hstep]
      exact crcFieldsAgree_recoverCrcInit p s
    · have hstep : crcStep s (.promiscFollow p) = s := promiscFollowCb_of_not_recoversSeed hp
      rw [hstep]
      exact hs
  | world s' => exact iff_of_true hs trivial

/-- **The seed along a run.** From power on, the two fields agree, and verification accepts the
packets correct for `crc_init`, in every state of a run exactly when every CONNECT_REQ followed
along it carries CRCInit 0. -/
theorem crcFieldsAgree_throughout_iff (es : List CrcEvent) :
    Throughout crcStep (fun s => CrcFieldsAgree s.le ∧ AcceptsCorrect s.le) powerOn es ↔
      Along crcStep FollowsZeroCrcInit powerOn es := by
  have hboth : ∀ s : Fw, CrcFieldsAgree s.le ∧ AcceptsCorrect s.le ↔ CrcFieldsAgree s.le :=
    fun s => ⟨And.left, fun h => ⟨h, h.acceptsCorrect⟩⟩
  have hpower : CrcFieldsAgree powerOn.le := by decide
  simp only [hboth]
  exact holds_throughout_iff crcFieldsAgree_step_iff hpower

/-- A CONNECT_REQ with CRCInit 1. -/
def connectReqCrcInitOne : Packet := packetOf [(4, 0x05), (22, 0x01)]

/-- Following a CONNECT_REQ with CRCInit 1 leaves the two fields apart. -/
theorem not_crcFieldsAgree_connectReqCrcInitOne :
    ¬Throughout crcStep (fun s => CrcFieldsAgree s.le ∧ AcceptsCorrect s.le) powerOn
      [.resetLe, .world { powerOn with le := { linkState := .listening } },
        .connectionFollow connectReqCrcInitOne] := by
  intro h
  exact absurd (h _ (List.prefix_refl _)).1 (by decide +kernel)

end Ubertooth.LowEnergy
