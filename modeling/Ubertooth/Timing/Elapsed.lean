import Ubertooth.Firmware.Clock
import Ubertooth.Firmware.Ego
import Ubertooth.Firmware.Frames
import Ubertooth.Firmware.Receive
import Ubertooth.Foundations.Runs
import Ubertooth.Host.Callback

/-!
# Elapsed times

In six places a reading of `CLK100NS` is kept, and a later reading is compared with it:
`bt_le_sync` since the last packet, `promisc_recover_hop_increment` between two data channels,
`promisc_recover_hop_interval` between two packets, `sleep_elapsed`, `cb_btle` and `cb_ego`. A run
is any sequence of calls of these, at any times, with anything in between. `Timekeeping` carries
beside the readings the times at which they were taken, and `Stamped` says that the two agree. It
holds as long as the clock does not wrap between two readings that `promisc_recover_hop_interval`
keeps, and these are the runs in which all six measure the time that has passed
(`elapsed_times_right`).
-/

namespace Ubertooth.Timing

open Firmware Foundations Host

/-! ## Runs -/

/-- The variables that keep a reading. -/
inductive Kept
  | lastPacket | firstTs | prevClk | sleepStart | anchor | cbBtle | cbEgo
  deriving DecidableEq, Repr

/-- Firmware and host, and when the readings kept were taken: `none` for a value that is not a
reading. -/
structure Timekeeping where
  fw : Fw := powerOn
  ego : EgoFsmState := egoMainState
  host : CallbackState := {}
  since : Kept → Option ℕ := fun _ => none

/-- The reading kept. -/
def Timekeeping.kept (x : Timekeeping) : Kept → U32
  | .lastPacket => x.fw.le.lastPacket
  | .firstTs => x.fw.firstTs
  | .prevClk => x.fw.prevClk
  | .sleepStart => x.ego.sleepStart
  | .anchor => x.ego.anchor
  | .cbBtle => x.host.btlePrevTs
  | .cbEgo => x.host.egoPrevTs

inductive TimeEvent
  /-- `bt_le_sync` hands a packet to `packet_cb`, and when that is done takes the time -/
  | lePacket (called done : ℕ) (channel : U16) (p : Packet)
  /-- `bt_le_sync` looks whether the connection has timed out -/
  | leFlush (now : ℕ)
  | resetLe
  /-- `ego_main` starts -/
  | egoMain
  /-- a call of the handler, which reads the clock at `times 0`, `times 1`, … -/
  | egoHandler (times : ℕ → ℕ) (mode : EgoMode) (i : EgoInput)
  /-- the host is given a packet that the firmware has stamped -/
  | cbBtle (stamped : ℕ) (offenses : UsbPktRx → ℕ) (allowed : Option ℕ) (rx : UsbPktRx)
  | cbEgo (stamped : ℕ) (rx : UsbPktRx)
  /-- any other part of the firmware runs -/
  | world (s : Fw)

/-- The state in which `packet_cb` is called. -/
def calledIn (called : ℕ) (channel : U16) (s : Fw) : Fw :=
  { s.atTime called with channel := channel }

/-- `packet_cb(packet); enqueue(LE_PACKET, packet); le.last_packet = CLK100NS;` -/
def takePacket (called done : ℕ) (channel : U16) (p : Packet) (s : Fw) : Fw :=
  let s := packetCallback p (calledIn called channel s)
  let s := ((enqueue .lePacket (packetBuf p) s).2).atTime done
  { s with le := { s.le with lastPacket := s.clk100ns } }

/-- The packet makes `promisc_recover_hop_increment` keep the time. -/
def KeepsFirstTs (s : Fw) : Prop :=
  s.packetCb = .promiscRecoverHopIncrement ∧ s.channel = 2404

/-- The packet makes `promisc_recover_hop_interval` keep the time. -/
def KeepsPrevClk (s : Fw) : Prop :=
  s.packetCb = .promiscRecoverHopInterval ∧ ¬recoverCurClk s - s.prevClk < 2 * leBaseclk

instance (s : Fw) : Decidable (KeepsFirstTs s) := instDecidableAnd

instance (s : Fw) : Decidable (KeepsPrevClk s) := instDecidableAnd

/-- The `sleep_start` of a handler that has been called was taken here. -/
def sleepSince (x : Timekeeping) (times : ℕ → ℕ) (mode : EgoMode) (i : EgoInput) : Option ℕ :=
  let elapsedAt : ℕ → Bool := fun k => sleepElapsed (clockReading (times k)) x.ego
  let same := x.since .sleepStart
  match mode, x.ego.state with
  | .follow, .cap =>
    if i.syncReceived then some (times 3) else if elapsedAt 1 then some (times 2) else same
  | .follow, .sleep => if elapsedAt 0 then some (times 1) else same
  | .jam, .cap => if x.ego.timerActive && elapsedAt 1 then some (times 2) else same
  | .jam, .sleep => if elapsedAt 0 then x.since .anchor else same
  | .jam, .startJamming => x.since .anchor
  | .jam, .jamming => if elapsedAt 0 then x.since .anchor else same
  | _, _ => same

/-- The `anchor` of a handler that has been called was taken here. -/
def anchorSince (x : Timekeeping) (times : ℕ → ℕ) (mode : EgoMode) (i : EgoInput) : Option ℕ :=
  match mode, x.ego.state with
  | .jam, .cap => if i.syncReceived then some (times 0) else x.since .anchor
  | _, _ => x.since .anchor

/-- The packet as the host has it. -/
def stampedRx (stamped : ℕ) (rx : UsbPktRx) : UsbPktRx :=
  { rx with clk100ns := clockReading stamped }

/-- What `cb_btle` makes of the packet. -/
def cbBtleResult (x : Timekeeping) (stamped : ℕ) (offenses : UsbPktRx → ℕ) (allowed : Option ℕ)
    (rx : UsbPktRx) : CallbackOutput × CallbackState :=
  cbBtle offenses allowed (stampedRx stamped rx) x.host

/-- The time since the packet before, where a line is printed. -/
def printedDiff : CallbackOutput → Option U32
  | .packet _ diff _ => some diff
  | _ => none

def timeStep (x : Timekeeping) : TimeEvent → Timekeeping
  | .lePacket called done channel p =>
    let s := calledIn called channel x.fw
    { x with
      fw := takePacket called done channel p x.fw
      since := fun k => match k with
        | .lastPacket => some done
        | .firstTs => if KeepsFirstTs s then some called else x.since .firstTs
        | .prevClk => if KeepsPrevClk s then some called else x.since .prevClk
        | _ => x.since k }
  | .leFlush now => { x with fw := x.fw.atTime now }
  | .resetLe =>
    { x with
      fw := resetLe x.fw
      since := Function.update x.since .lastPacket none }
  | .egoMain =>
    { x with
      ego := egoMainState
      since := Function.update (Function.update x.since .sleepStart none) .anchor none }
  | .egoHandler times mode i =>
    let y := egoHandler mode (fun k => clockReading (times k)) i (x.fw, x.ego)
    { x with
      fw := y.1
      ego := y.2
      since := fun k => match k with
        | .sleepStart => sleepSince x times mode i
        | .anchor => anchorSince x times mode i
        | _ => x.since k }
  | .cbBtle stamped offenses allowed rx =>
    let y := cbBtleResult x stamped offenses allowed rx
    { x with
      host := y.2
      since := match printedDiff y.1 with
        | some _ => Function.update x.since .cbBtle (some stamped)
        | none => x.since }
  | .cbEgo stamped rx =>
    { x with
      host := (cbEgo (stampedRx stamped rx) x.host).2
      since := Function.update x.since .cbEgo (some stamped) }
  | .world s =>
    { x with fw := { s with
      le := { s.le with lastPacket := x.fw.le.lastPacket }
      firstTs := x.fw.firstTs
      prevClk := x.fw.prevClk } }

/-! ## Measurements -/

/-- An elapsed time: from a reading that was kept, to now. -/
structure Measurement where
  since : ℕ
  now : ℕ
  value : U32

/-- Elapsed times are measured against readings. -/
def against (since : Option ℕ) (now : ℕ) (value : U32) : List Measurement :=
  since.toList.map fun t => { since := t, now := now, value := value }

/-- `second_ts - first_ts` in `promisc_recover_hop_increment`. -/
def hopTime (s : Fw) : U32 :=
  let secondTs := s.clk100ns
  let secondTs := if secondTs < s.firstTs then secondTs + 3276800000 else secondTs
  secondTs - s.firstTs

/-- `clk_diff` in `promisc_recover_hop_interval`. -/
def clkDiff (s : Fw) : U32 := recoverCurClk s - s.prevClk

/-- At which of its readings a handler calls `sleep_elapsed`. -/
def sleepReading (mode : EgoMode) (st : EgoFsmState) : Option ℕ :=
  match mode, st.state with
  | .follow, .cap => some 1
  | .follow, .sleep => some 0
  | .jam, .cap => if st.timerActive then some 1 else none
  | .jam, .sleep => some 0
  | .jam, .jamming => some 0
  | _, _ => none

/-- The elapsed times an event computes. -/
def measurements (x : Timekeeping) : TimeEvent → List Measurement
  | .lePacket called _ channel _ =>
    let s := calledIn called channel x.fw
    match x.fw.packetCb with
    | .promiscRecoverHopIncrement =>
      if channel = 2406 then against (x.since .firstTs) called (hopTime s) else []
    | .promiscRecoverHopInterval => against (x.since .prevClk) called (clkDiff s)
    | _ => []
  | .leFlush now => against (x.since .lastPacket) now (sinceLastPacket (x.fw.atTime now))
  | .egoHandler times mode _ =>
    (sleepReading mode x.ego).toList.flatMap fun k =>
      against (x.since .sleepStart) (times k) (sleepTime (clockReading (times k)) x.ego)
  | .cbBtle stamped offenses allowed rx =>
    (printedDiff (cbBtleResult x stamped offenses allowed rx).1).toList.flatMap fun diff =>
      against (x.since .cbBtle) stamped diff
  | .cbEgo stamped rx =>
    (printedDiff (cbEgo (stampedRx stamped rx) x.host).1).toList.flatMap fun diff =>
      against (x.since .cbEgo) stamped diff
  | .resetLe | .egoMain | .world _ => []

/-- The times measured are later than the readings they are measured from, by less than a
period. -/
def Successive (x : Timekeeping) (e : TimeEvent) : Prop :=
  ∀ m ∈ measurements x e, m.since ≤ m.now ∧ m.now - m.since < 3276800000

/-- Every elapsed time below a period is the time that has passed. -/
def Right (x : Timekeeping) (e : TimeEvent) : Prop :=
  ∀ m ∈ measurements x e, m.since ≤ m.now → m.now - m.since < 3276800000 →
    m.value.toNat = m.now - m.since

instance (x : Timekeeping) (e : TimeEvent) : Decidable (Right x e) :=
  inferInstanceAs (Decidable (∀ m ∈ measurements x e, _))

/-- The clock has not wrapped since the reading that `promisc_recover_hop_interval` has kept: it
reads no less. -/
def Unwrapped (x : Timekeeping) : TimeEvent → Prop
  | .lePacket called _ _ _ => x.fw.packetCb = .promiscRecoverHopInterval →
    ∀ t ∈ x.since .prevClk, t % 3276800000 ≤ called % 3276800000
  | _ => True

/-! ## What the callbacks keep -/

theorem observeHopInterval_firstTs (s : Fw) : (observeHopInterval s).firstTs = s.firstTs := by
  obtain ⟨-, -, q, st, h⟩ | ⟨-, -, h⟩ | ⟨-, h⟩ := observeHopInterval_cases s <;> rw [h]

/-- `promisc_recover_hop_interval` keeps the time of the end of a gap, and nothing else. -/
theorem promiscRecoverHopInterval_kept (s : Fw) :
    (promiscRecoverHopInterval s).firstTs = s.firstTs ∧
      (promiscRecoverHopInterval s).prevClk =
        if clkDiff s < 2 * leBaseclk then s.prevClk else recoverCurClk s := by
  dsimp only [promiscRecoverHopInterval, clkDiff]
  by_cases hnear : recoverCurClk s - s.prevClk < 2 * leBaseclk
  · simp only [hnear, if_true, and_self]
  · obtain ⟨w, hnote, -⟩ := noteClkDiff_eq (recoverCurClk s - s.prevClk) s
    simp only [hnear, if_false, observeHopInterval_firstTs, hnote, and_self]

/-- `promisc_recover_hop_increment` keeps the time on 2404 MHz, and nothing else. -/
theorem promiscRecoverHopIncrement_kept (s : Fw) :
    (promiscRecoverHopIncrement s).firstTs =
        (if s.channel = 2404 then s.clk100ns else s.firstTs) ∧
      (promiscRecoverHopIncrement s).prevClk = s.prevClk := by
  unfold promiscRecoverHopIncrement
  split
  · exact ⟨rfl, rfl⟩
  · split
    · split
      · unfold recoverIncrement
        dsimp only
        refine ⟨?_, ?_⟩
        · rw [lePromiscState_firstTs]
        · rw [lePromiscState_prevClk]
      · exact ⟨rfl, rfl⟩
    · exact ⟨rfl, rfl⟩

theorem packetCallback_kept (p : Packet) (s : Fw) :
    (packetCallback p s).firstTs = (if KeepsFirstTs s then s.clk100ns else s.firstTs) ∧
      (packetCallback p s).prevClk = if KeepsPrevClk s then recoverCurClk s else s.prevClk := by
  have hquiet : ∀ s' : Fw, s.packetCb ≠ .promiscRecoverHopIncrement →
      s.packetCb ≠ .promiscRecoverHopInterval → s'.firstTs = s.firstTs → s'.prevClk = s.prevClk →
      s'.firstTs = (if KeepsFirstTs s then s.clk100ns else s.firstTs) ∧
        s'.prevClk = if KeepsPrevClk s then recoverCurClk s else s.prevClk := by
    intro s' hinc hint hfirst hprev
    rw [if_neg fun h : KeepsFirstTs s => hinc h.1, if_neg fun h : KeepsPrevClk s => hint h.1]
    exact ⟨hfirst, hprev⟩
  unfold packetCallback
  split
  case h_1 hcb => exact hquiet s (by simp [hcb]) (by simp [hcb]) rfl rfl
  case h_2 hcb =>
    obtain ⟨l, d, j, h⟩ := connectionFollowCb_frame p s
    exact hquiet _ (by simp [hcb]) (by simp [hcb]) (by rw [h]) (by rw [h])
  case h_3 hcb =>
    obtain ⟨l, c, q, st, h⟩ := promiscFollowCb_frame p s
    exact hquiet _ (by simp [hcb]) (by simp [hcb]) (by rw [h]) (by rw [h])
  case h_4 hcb =>
    obtain ⟨hfirst, hprev⟩ := promiscRecoverHopInterval_kept s
    have hnot : ¬KeepsFirstTs s := fun h => absurd (hcb.symm.trans h.1) (by simp)
    refine ⟨hfirst.trans (if_neg hnot).symm, hprev.trans ?_⟩
    by_cases hnear : clkDiff s < 2 * leBaseclk
    · rw [if_pos hnear, if_neg fun h : KeepsPrevClk s => h.2 hnear]
    · rw [if_neg hnear, if_pos ⟨hcb, hnear⟩]
  case h_5 hcb =>
    obtain ⟨hfirst, hprev⟩ := promiscRecoverHopIncrement_kept s
    have hnot : ¬KeepsPrevClk s := fun h => absurd (hcb.symm.trans h.1) (by simp)
    refine ⟨hfirst.trans ?_, hprev.trans (if_neg hnot).symm⟩
    by_cases hchannel : s.channel = 2404
    · rw [if_pos hchannel, if_pos ⟨hcb, hchannel⟩]
    · rw [if_neg hchannel, if_neg fun h : KeepsFirstTs s => hchannel h.2]

/-- What is kept after a packet. -/
theorem takePacket_kept (called done : ℕ) (channel : U16) (p : Packet) (s : Fw) :
    (takePacket called done channel p s).le.lastPacket = clockReading done ∧
      (takePacket called done channel p s).firstTs =
        (if KeepsFirstTs (calledIn called channel s) then clockReading called else s.firstTs) ∧
      (takePacket called done channel p s).prevClk =
        if KeepsPrevClk (calledIn called channel s) then recoverCurClk (calledIn called channel s)
        else s.prevClk := by
  obtain ⟨hfirst, hprev⟩ := packetCallback_kept p (calledIn called channel s)
  obtain ⟨q, st, henqueue⟩ := enqueueSlot_frame (enqueueWrites .lePacket (packetBuf p))
    (packetCallback p (calledIn called channel s))
  have hclock : (calledIn called channel s).clk100ns = clockReading called :=
    clk100ns_atTime called s
  rw [hclock] at hfirst
  dsimp only [takePacket, enqueue]
  rw [henqueue]
  exact ⟨clk100ns_atTime done _, hfirst, hprev⟩

/-! ## The readings and their times -/

/-- The readings kept were taken when the record says; before the first packet, `prev_clk` is 0. -/
structure Stamped (x : Timekeeping) : Prop where
  reading : ∀ k, ∀ t ∈ x.since k, x.kept k = clockReading t
  prevClk : x.since .prevClk = none → x.fw.prevClk = 0

theorem stamped_powerOn : Stamped {} :=
  ⟨fun _ _ h => absurd h (by simp), fun _ => rfl⟩

/-- Every variable is as it was, or its reading is as new. -/
theorem Stamped.of_changed {x y : Timekeeping} (hx : Stamped x)
    (hprev : y.since .prevClk = none → x.since .prevClk = none ∧ y.fw.prevClk = x.fw.prevClk)
    (h : ∀ k, (∀ t ∈ y.since k, y.kept k = clockReading t) ∨
      y.since k = x.since k ∧ y.kept k = x.kept k) : Stamped y := by
  refine ⟨fun k t ht => ?_, fun hnone => (hprev hnone).2.trans (hx.prevClk (hprev hnone).1)⟩
  obtain hnew | ⟨hsince, hkept⟩ := h k
  · exact hnew t ht
  · rw [hsince] at ht
    exact hkept.trans (hx.reading k t ht)

/-- A variable given a reading. -/
theorem reads_some {u : U32} {t₀ : ℕ} (h : u = clockReading t₀) :
    ∀ t ∈ some t₀, u = clockReading t := by
  intro t ht
  rw [h, Option.mem_some_iff.1 ht]

/-- Where the clock has not wrapped, `promisc_recover_hop_interval` takes the clock as it is. -/
theorem recoverCurClk_of_unwrapped {x : Timekeeping} (hx : Stamped x) {called : ℕ} {channel : U16}
    (h : ∀ t ∈ x.since .prevClk, t % 3276800000 ≤ called % 3276800000) :
    recoverCurClk (calledIn called channel x.fw) = clockReading called ∧
      x.fw.prevClk ≤ clockReading called := by
  have hclock : (calledIn called channel x.fw).clk100ns = clockReading called :=
    clk100ns_atTime called x.fw
  have hle : x.fw.prevClk ≤ clockReading called := by
    cases hsince : x.since .prevClk with
    | none =>
      rw [hx.prevClk hsince]
      exact BitVec.le_def.2 (Nat.zero_le _)
    | some t =>
      have hreading : x.fw.prevClk = clockReading t := hx.reading .prevClk t hsince
      rw [hreading, BitVec.le_def, toNat_clockReading, toNat_clockReading]
      exact h t hsince
  refine ⟨?_, hle⟩
  rw [recoverCurClk, hclock]
  exact if_neg (BitVec.not_lt.2 hle)

/-- A packet. -/
theorem stamped_lePacket {x : Timekeeping} (hx : Stamped x) {called done : ℕ} {channel : U16}
    {p : Packet} (h : Unwrapped x (.lePacket called done channel p)) :
    Stamped (timeStep x (.lePacket called done channel p)) := by
  obtain ⟨hlast, hfirst, hprev⟩ := takePacket_kept called done channel p x.fw
  have hcur : KeepsPrevClk (calledIn called channel x.fw) →
      recoverCurClk (calledIn called channel x.fw) = clockReading called :=
    fun hk => (recoverCurClk_of_unwrapped hx (h hk.1)).1
  refine hx.of_changed (fun hnone => ?_) fun k => ?_
  · dsimp only [timeStep] at hnone
    split at hnone
    case isTrue => exact absurd hnone (by simp)
    case isFalse hk => exact ⟨hnone, hprev.trans (if_neg hk)⟩
  · cases k with
    | lastPacket => exact Or.inl (reads_some hlast)
    | firstTs =>
      by_cases hk : KeepsFirstTs (calledIn called channel x.fw)
      · left
        dsimp only [timeStep]
        rw [if_pos hk]
        exact reads_some (hfirst.trans (if_pos hk))
      · exact Or.inr ⟨if_neg hk, hfirst.trans (if_neg hk)⟩
    | prevClk =>
      by_cases hk : KeepsPrevClk (calledIn called channel x.fw)
      · left
        dsimp only [timeStep]
        rw [if_pos hk]
        exact reads_some ((hprev.trans (if_pos hk)).trans (hcur hk))
      · exact Or.inr ⟨if_neg hk, hprev.trans (if_neg hk)⟩
    | _ => exact Or.inr ⟨rfl, rfl⟩

/-! ### The handlers -/

/-- The handlers leave the readings of Bluetooth Low Energy alone. -/
theorem egoHandler_fw (mode : EgoMode) (clk : ℕ → U32) (i : EgoInput) (x : Fw × EgoFsmState) :
    (egoHandler mode clk i x).1.le.lastPacket = x.1.le.lastPacket ∧
      (egoHandler mode clk i x).1.firstTs = x.1.firstTs ∧
      (egoHandler mode clk i x).1.prevClk = x.1.prevClk := by
  obtain ⟨q, st, henqueue⟩ := enqueueSlot_frame (enqueueWithTsWrites .egoPacket i.rxbuf (clk 0)) x.1
  have hkill : ∀ y : Fw × EgoFsmState, (killRf y).1 = y.1 := by
    intro y
    unfold killRf
    split <;> rfl
  unfold egoHandler
  split
  case h_3 =>
    unfold capState
    rw [hkill]
    split
    · dsimp only [enqueueWithTs]
      rw [henqueue]
      exact ⟨rfl, rfl, rfl⟩
    · exact ⟨rfl, rfl, rfl⟩
  case h_4 =>
    unfold sleepState
    split <;> exact ⟨rfl, rfl, rfl⟩
  case h_9 =>
    unfold continuousCapState
    split
    · dsimp only [enqueueWithTs]
      rw [henqueue]
      exact ⟨rfl, rfl, rfl⟩
    · exact ⟨rfl, rfl, rfl⟩
  case h_15 =>
    have hjam : (jamCapState clk i x).1 = x.1 := by
      simp only [jamCapState, apply_ite Prod.fst, ite_self]
    rw [hjam]
    exact ⟨rfl, rfl, rfl⟩
  case h_16 =>
    unfold jamSleepState
    split <;> exact ⟨rfl, rfl, rfl⟩
  case h_18 =>
    unfold jammingState
    split <;> exact ⟨rfl, rfl, rfl⟩
  all_goals exact ⟨rfl, rfl, rfl⟩

theorem killRf_kept (x : Fw × EgoFsmState) :
    (killRf x).2.sleepStart = x.2.sleepStart ∧ (killRf x).2.anchor = x.2.anchor := by
  unfold killRf
  split <;> exact ⟨rfl, rfl⟩

theorem capState_kept (clk : ℕ → U32) (i : EgoInput) (s : Fw) (st : EgoFsmState) :
    (capState clk i (s, st)).2.sleepStart =
        (if i.syncReceived then clk 3 else if sleepElapsed (clk 1) st then clk 2
          else st.sleepStart) ∧
      (capState clk i (s, st)).2.anchor = st.anchor := by
  unfold capState
  rw [(killRf_kept _).1, (killRf_kept _).2]
  cases i.syncReceived <;> cases sleepElapsed (clk 1) st <;> exact ⟨rfl, rfl⟩

theorem sleepState_kept (clk : ℕ → U32) (s : Fw) (st : EgoFsmState) :
    (sleepState clk (s, st)).2.sleepStart =
        (if sleepElapsed (clk 0) st then clk 1 else st.sleepStart) ∧
      (sleepState clk (s, st)).2.anchor = st.anchor := by
  unfold sleepState
  cases sleepElapsed (clk 0) st <;> exact ⟨rfl, rfl⟩

theorem jamCapState_kept (clk : ℕ → U32) (i : EgoInput) (s : Fw) (st : EgoFsmState) :
    (jamCapState clk i (s, st)).2.sleepStart =
        (if st.timerActive && sleepElapsed (clk 1) st then clk 2 else st.sleepStart) ∧
      (jamCapState clk i (s, st)).2.anchor = if i.syncReceived then clk 0 else st.anchor := by
  have hsame : sleepElapsed (clk 1)
      { st with state := .startJamming, packetObserved := true, anchor := clk 0 } =
        sleepElapsed (clk 1) st := rfl
  unfold jamCapState
  cases i.syncReceived
  · refine ⟨?_, ?_⟩ <;> simp only [Bool.false_eq_true, if_false] <;> split <;> rfl
  · refine ⟨?_, ?_⟩ <;> simp only [if_true, hsame] <;> split <;> rfl

theorem jammingState_kept (clk : ℕ → U32) (s : Fw) (st : EgoFsmState) :
    (jammingState clk (s, st)).2.sleepStart =
        (if sleepElapsed (clk 0) st then st.anchor else st.sleepStart) ∧
      (jammingState clk (s, st)).2.anchor = st.anchor := by
  unfold jammingState
  cases sleepElapsed (clk 0) st <;> exact ⟨rfl, rfl⟩

theorem jamSleepState_kept (clk : ℕ → U32) (s : Fw) (st : EgoFsmState) :
    (jamSleepState clk (s, st)).2.sleepStart =
        (if sleepElapsed (clk 0) st then st.anchor else st.sleepStart) ∧
      (jamSleepState clk (s, st)).2.anchor = st.anchor := by
  unfold jamSleepState
  cases sleepElapsed (clk 0) st <;> exact ⟨rfl, rfl⟩

/-- A handler takes its readings where the record says. -/
theorem egoHandler_kept (x : Timekeeping) (times : ℕ → ℕ) (mode : EgoMode) (i : EgoInput)
    (hsleep : ∀ t ∈ x.since .sleepStart, x.ego.sleepStart = clockReading t)
    (hanchor : ∀ t ∈ x.since .anchor, x.ego.anchor = clockReading t) :
    let st := (egoHandler mode (fun k => clockReading (times k)) i (x.fw, x.ego)).2
    (∀ t ∈ sleepSince x times mode i, st.sleepStart = clockReading t) ∧
      ∀ t ∈ anchorSince x times mode i, st.anchor = clockReading t := by
  have hread : ∀ k, ∀ t ∈ some (times k), clockReading (times k) = clockReading t :=
    fun _ => reads_some rfl
  have hpick : ∀ (b : Bool) (u v : U32) (m n : Option ℕ), (∀ t ∈ m, u = clockReading t) →
      (∀ t ∈ n, v = clockReading t) →
      ∀ t ∈ (if b then m else n), (if b then u else v) = clockReading t := by
    intro b u v m n hu hv
    cases b
    · exact hv
    · exact hu
  dsimp only [egoHandler, sleepSince, anchorSince]
  cases hmode : mode <;> cases hstate : x.ego.state <;> dsimp only
  case follow.cap =>
    rw [(capState_kept _ i x.fw x.ego).1, (capState_kept _ i x.fw x.ego).2]
    exact ⟨hpick _ _ _ _ _ (hread 3) (hpick _ _ _ _ _ (hread 2) hsleep), hanchor⟩
  case follow.sleep =>
    rw [(sleepState_kept _ x.fw x.ego).1, (sleepState_kept _ x.fw x.ego).2]
    exact ⟨hpick _ _ _ _ _ (hread 1) hsleep, hanchor⟩
  case jam.cap =>
    rw [(jamCapState_kept _ i x.fw x.ego).1, (jamCapState_kept _ i x.fw x.ego).2]
    exact ⟨hpick _ _ _ _ _ (hread 2) hsleep, hpick _ _ _ _ _ (hread 0) hanchor⟩
  case jam.sleep =>
    rw [(jamSleepState_kept _ x.fw x.ego).1, (jamSleepState_kept _ x.fw x.ego).2]
    exact ⟨hpick _ _ _ _ _ hanchor hsleep, hanchor⟩
  case jam.jamming =>
    rw [(jammingState_kept _ x.fw x.ego).1, (jammingState_kept _ x.fw x.ego).2]
    exact ⟨hpick _ _ _ _ _ hanchor hsleep, hanchor⟩
  case jam.startJamming => exact ⟨hanchor, hanchor⟩
  case continuousRx.cap =>
    unfold continuousCapState
    split <;> exact ⟨hsleep, hanchor⟩
  all_goals exact ⟨hsleep, hanchor⟩

/-! ### A step -/

theorem stamped_egoHandler {x : Timekeeping} (hx : Stamped x) (times : ℕ → ℕ) (mode : EgoMode)
    (i : EgoInput) : Stamped (timeStep x (.egoHandler times mode i)) := by
  have hhandler := egoHandler_kept x times mode i (hx.reading .sleepStart) (hx.reading .anchor)
  have hfw := egoHandler_fw mode (fun k => clockReading (times k)) i (x.fw, x.ego)
  refine hx.of_changed (fun hnone => ⟨hnone, hfw.2.2⟩) fun k => ?_
  cases k with
  | lastPacket => exact Or.inr ⟨rfl, hfw.1⟩
  | firstTs => exact Or.inr ⟨rfl, hfw.2.1⟩
  | prevClk => exact Or.inr ⟨rfl, hfw.2.2⟩
  | sleepStart => exact Or.inl hhandler.1
  | anchor => exact Or.inl hhandler.2
  | _ => exact Or.inr ⟨rfl, rfl⟩

/-- `cb_btle` prints the line of a packet, and keeps its time, or does neither. -/
theorem cbBtle_cases (offenses : UsbPktRx → ℕ) (allowed : Option ℕ) (rx : UsbPktRx)
    (c : CallbackState) :
    (printedDiff (cbBtle offenses allowed rx c).1 = none ∧
        (cbBtle offenses allowed rx c).2 = c) ∨
      (printedDiff (cbBtle offenses allowed rx c).1 = some (tsDiff c.btlePrevTs rx.clk100ns) ∧
        (cbBtle offenses allowed rx c).2 = { c with btlePrevTs := rx.clk100ns }) := by
  unfold cbBtle
  split
  · exact Or.inl ⟨rfl, rfl⟩
  · split
    · exact Or.inl ⟨rfl, rfl⟩
    · split
      · exact Or.inl ⟨rfl, rfl⟩
      · exact Or.inr ⟨rfl, rfl⟩

theorem stamped_cbBtle {x : Timekeeping} (hx : Stamped x) (stamped : ℕ)
    (offenses : UsbPktRx → ℕ) (allowed : Option ℕ) (rx : UsbPktRx) :
    Stamped (timeStep x (.cbBtle stamped offenses allowed rx)) := by
  dsimp only [timeStep, cbBtleResult]
  obtain ⟨hdiff, hstate⟩ | ⟨hdiff, hstate⟩ :=
    cbBtle_cases offenses allowed (stampedRx stamped rx) x.host
  · rw [hdiff, hstate]
    exact hx
  · rw [hdiff, hstate]
    refine hx.of_changed (fun hnone => ⟨hnone, rfl⟩) fun k => ?_
    cases k with
    | cbBtle => exact Or.inl (reads_some rfl)
    | _ => exact Or.inr ⟨rfl, rfl⟩

theorem stamped_step {x : Timekeeping} {e : TimeEvent} (hx : Stamped x) (h : Unwrapped x e) :
    Stamped (timeStep x e) := by
  cases e with
  | lePacket called done channel p => exact stamped_lePacket hx h
  | leFlush now =>
    refine hx.of_changed (fun hnone => ⟨hnone, rfl⟩) fun k => Or.inr ⟨rfl, ?_⟩
    cases k <;> rfl
  | resetLe =>
    refine hx.of_changed (fun hnone => ⟨hnone, rfl⟩) fun k => ?_
    cases k with
    | lastPacket => exact Or.inl fun t ht => absurd ht (by simp [timeStep])
    | _ => exact Or.inr ⟨rfl, rfl⟩
  | egoMain =>
    refine hx.of_changed (fun hnone => ⟨hnone, rfl⟩) fun k => ?_
    cases k with
    | sleepStart => exact Or.inl fun t ht => absurd ht (by simp [timeStep])
    | anchor => exact Or.inl fun t ht => absurd ht (by simp [timeStep])
    | _ => exact Or.inr ⟨rfl, rfl⟩
  | egoHandler times mode i => exact stamped_egoHandler hx times mode i
  | cbBtle stamped offenses allowed rx => exact stamped_cbBtle hx stamped offenses allowed rx
  | cbEgo stamped rx =>
    refine hx.of_changed (fun hnone => ⟨hnone, rfl⟩) fun k => ?_
    cases k with
    | cbEgo => exact Or.inl (reads_some rfl)
    | _ => exact Or.inr ⟨rfl, rfl⟩
  | world s =>
    refine hx.of_changed (fun hnone => ⟨hnone, rfl⟩) fun k => Or.inr ⟨rfl, ?_⟩
    cases k <;> rfl

/-! ## Elapsed times -/

/-- Against a reading, the correction by the period measures the time that has passed. -/
theorem against_right {since : Option ℕ} {now : ℕ} {kept value : U32}
    (hkept : ∀ t ∈ since, kept = clockReading t)
    (hvalue : value = elapsed clk100nsPeriod kept (clockReading now)) :
    ∀ m ∈ against since now value, m.since ≤ m.now → m.now - m.since < 3276800000 →
      m.value.toNat = m.now - m.since := by
  intro m hm hle hlt
  obtain ⟨t, ht, rfl⟩ := List.mem_map.1 hm
  rw [Option.mem_toList] at ht
  dsimp only at hle hlt ⊢
  rw [hvalue, hkept t ht]
  exact toNat_elapsed_clockReading hle hlt

theorem hopTime_calledIn (called : ℕ) (channel : U16) (s : Fw) :
    hopTime (calledIn called channel s) =
      elapsed clk100nsPeriod s.firstTs (clockReading called) := by
  have hclock : (calledIn called channel s).clk100ns = clockReading called :=
    clk100ns_atTime called s
  dsimp only [hopTime]
  rw [hclock]
  rfl

theorem clkDiff_calledIn (called : ℕ) (channel : U16) (s : Fw) :
    clkDiff (calledIn called channel s) = elapsed 3267800000 s.prevClk (clockReading called) := by
  have hclock : (calledIn called channel s).clk100ns = clockReading called :=
    clk100ns_atTime called s
  rw [clkDiff, recoverCurClk, hclock]
  rfl

theorem sinceLastPacket_atTime (now : ℕ) (s : Fw) :
    sinceLastPacket (s.atTime now) =
      elapsed clk100nsPeriod s.le.lastPacket (clockReading now) := by
  dsimp only [sinceLastPacket]
  rw [clk100ns_atTime]
  rfl

/-- The two callbacks that measure. -/
theorem right_lePacket {x : Timekeeping} (hx : Stamped x) {called done : ℕ} {channel : U16}
    {p : Packet} (h : Unwrapped x (.lePacket called done channel p)) :
    Right x (.lePacket called done channel p) := by
  intro m hm
  dsimp only [measurements] at hm
  split at hm
  case h_1 =>
    split at hm
    case isTrue =>
      exact against_right (hx.reading .firstTs) (hopTime_calledIn called channel x.fw) m hm
    case isFalse => exact absurd hm (by simp)
  case h_2 hcb =>
    have hle := (@recoverCurClk_of_unwrapped x hx called channel (h hcb)).2
    refine against_right (hx.reading .prevClk) ?_ m hm
    rw [clkDiff_calledIn]
    exact elapsed_eq_elapsed_iff.2 (Or.inl hle)
  case h_3 => exact absurd hm (by simp)

/-- Where the readings are what they are taken for, and the clock has not wrapped for
`promisc_recover_hop_interval`, the elapsed times are right. -/
theorem right_of_unwrapped {x : Timekeeping} {e : TimeEvent} (hx : Stamped x)
    (h : Unwrapped x e) : Right x e := by
  cases e with
  | lePacket called done channel p => exact right_lePacket hx h
  | leFlush now =>
    exact against_right (hx.reading .lastPacket) (sinceLastPacket_atTime now x.fw)
  | egoHandler times mode i =>
    intro m hm
    obtain ⟨k, -, hm⟩ := List.mem_flatMap.1 hm
    exact against_right (hx.reading .sleepStart) rfl m hm
  | cbBtle stamped offenses allowed rx =>
    intro m hm
    obtain ⟨diff, hdiff, hm⟩ := List.mem_flatMap.1 hm
    refine against_right (hx.reading .cbBtle) ?_ m hm
    dsimp only [cbBtleResult] at hdiff
    obtain ⟨hprinted, -⟩ | ⟨hprinted, -⟩ :=
      cbBtle_cases offenses allowed (stampedRx stamped rx) x.host
    · rw [hprinted] at hdiff
      exact absurd hdiff (by simp)
    · rw [hprinted, Option.mem_toList] at hdiff
      exact (Option.some_inj.1 hdiff).symm
  | cbEgo stamped rx =>
    intro m hm
    obtain ⟨diff, hdiff, hm⟩ := List.mem_flatMap.1 hm
    refine against_right (hx.reading .cbEgo) ?_ m hm
    rw [Option.mem_toList] at hdiff
    exact (Option.some_inj.1 hdiff).symm
  | resetLe => exact fun m hm => absurd hm (by simp [measurements])
  | egoMain => exact fun m hm => absurd hm (by simp [measurements])
  | world s => exact fun m hm => absurd hm (by simp [measurements])

/-- A wrap makes the time of `promisc_recover_hop_interval` wrong. -/
theorem unwrapped_of_right {x : Timekeeping} {e : TimeEvent} (hx : Stamped x)
    (hs : Successive x e) (h : Right x e) : Unwrapped x e := by
  cases e with
  | lePacket called done channel p =>
    intro hcb t ht
    have hmem : { since := t, now := called, value := clkDiff (calledIn called channel x.fw) } ∈
        measurements x (.lePacket called done channel p) := by
      dsimp only [measurements]
      rw [hcb]
      exact List.mem_map.2 ⟨t, Option.mem_toList.2 ht, rfl⟩
    obtain ⟨hle, hlt⟩ := hs _ hmem
    have hvalue : (clkDiff (calledIn called channel x.fw)).toNat = called - t := h _ hmem hle hlt
    have hprev : x.fw.prevClk = clockReading t := hx.reading .prevClk t ht
    have hsame : elapsed 3267800000 (clockReading t) (clockReading called) =
        elapsed clk100nsPeriod (clockReading t) (clockReading called) := by
      apply BitVec.eq_of_toNat_eq
      rw [toNat_elapsed_clockReading hle hlt, ← hvalue, clkDiff_calledIn, hprev]
    have hread : clockReading t ≤ clockReading called :=
      (elapsed_eq_elapsed_iff.1 hsame).resolve_right (by decide)
    rwa [BitVec.le_def, toNat_clockReading, toNat_clockReading] at hread
  | _ => trivial

/-- **Elapsed times.** In any run from power on in which the clock never wraps between two readings
that `promisc_recover_hop_interval` keeps, every elapsed time below a period is the time that has
passed; and in a run of successive readings, less than a period apart, there are no others. -/
theorem elapsed_times_right (es : List TimeEvent) :
    (Along timeStep Unwrapped {} es → Along timeStep Right {} es) ∧
      (Along timeStep Successive {} es →
        (Along timeStep Unwrapped {} es ↔ Along timeStep Right {} es)) := by
  refine ⟨fun h => ?_, fun hs => ?_⟩
  · exact along_of_invariant (fun _ _ hx hu => stamped_step hx hu)
      (fun _ _ hx hu => right_of_unwrapped hx hu) stamped_powerOn h
  · exact along_iff_of_invariant_under (fun _ _ hx hu => stamped_step hx hu)
      (fun _ _ hx hs => ⟨right_of_unwrapped hx, unwrapped_of_right hx hs⟩) stamped_powerOn hs

/-- Two packets on a data channel, 2.08 s apart, with a wrap of the clock in between. -/
def packetsAcrossWrap : List TimeEvent :=
  [.world { powerOn with packetCb := .promiscRecoverHopInterval },
    .lePacket 3276000000 3276000000 2404 ⟨Vector.replicate 52 0⟩,
    .lePacket 3296800000 3296800000 2404 ⟨Vector.replicate 52 0⟩]

theorem not_right_across_wrap : ¬Along timeStep Right {} packetsAcrossWrap := by
  decide +kernel

end Ubertooth.Timing
