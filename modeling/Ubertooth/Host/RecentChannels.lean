import Ubertooth.Foundations.Recency
import Ubertooth.Host.Afh

/-!
# The channels that the AFH monitor reports

Both callbacks of the AFH monitor number the matching packets, and drop a channel when
`packet_counter_max` packets have come since it was seen. They do what `Recency` does with their
piconet's map (`recency_afhStep`), so the map is the set of the channels of the last matching
packets (`channelSeen_iff_recent`).
-/

namespace Ubertooth.Host

open Foundations

variable {κ : Type*} {w : ℕ} {lib : AfhBtbb κ} {report : Bool} {packetCounterMax : U32}
  {cb : U32 → Ringbuffer → AfhStatics w → κ → AfhOutcome κ w}

/-- The map of a piconet is a set of channels, and the LAP is no part of it. -/
structure AfhBtbb.Lawful (lib : AfhBtbb κ) : Prop where
  seen_set : ∀ pn (c i : Fin numBredrChannels),
    lib.channelSeen (lib.setChannelSeen pn (BitVec.ofNat 8 c)).2 (BitVec.ofNat 8 i) = true ↔
      i = c ∨ lib.channelSeen pn (BitVec.ofNat 8 i) = true
  seen_clear : ∀ pn (c i : Fin numBredrChannels),
    lib.channelSeen (lib.clearChannelSeen pn (BitVec.ofNat 8 c)).2 (BitVec.ofNat 8 i) = true ↔
      i ≠ c ∧ lib.channelSeen pn (BitVec.ofNat 8 i) = true
  lap_set : ∀ pn c, lib.lap (lib.setChannelSeen pn c).2 = lib.lap pn
  lap_clear : ∀ pn c, lib.lap (lib.clearChannelSeen pn c).2 = lib.lap pn

/-- A channel is in the map. -/
def AfhBtbb.Seen (lib : AfhBtbb κ) (pn : κ) (i : Fin numBredrChannels) : Prop :=
  lib.channelSeen pn (BitVec.ofNat 8 i) = true

/-- The bank of symbols added last, and the packet they came in, on one of the channels. -/
abbrev AfhPacket := { rb : Ringbuffer // rb.topUsb.channel.toNat < numBredrChannels }

/-- The channel of the packet. -/
def AfhPacket.channel (p : AfhPacket) : Fin numBredrChannels := ⟨_, p.property⟩

/-- A packet is handled by a callback: the static variables and the piconet after it. -/
def afhStep (cb : U32 → Ringbuffer → AfhStatics w → κ → AfhOutcome κ w) (packetCounterMax : U32)
    (x : AfhStatics w × κ) (p : AfhPacket) : AfhStatics w × κ :=
  let outcome := cb packetCounterMax p.val x.1 x.2
  (outcome.statics, outcome.pn)

/-- The numbers of the channels, and the map. -/
def recency (lib : AfhBtbb κ) (x : AfhStatics w × κ) : Recency (Fin numBredrChannels) w where
  stamp := x.1.lastSeen
  counter := x.1.counter
  kept := lib.Seen x.2

/-! ## A packet -/

/-- The loop over the channels takes the old ones out of the map. -/
theorem seen_clearUnused (hlib : lib.Lawful) (x : AfhStatics w) (is : List (Fin numBredrChannels))
    (pn : κ) (i : Fin numBredrChannels) :
    lib.Seen (clearUnused lib report packetCounterMax x is pn).2 i ↔
      lib.Seen pn i ∧ ¬(i ∈ is ∧ packetCounterMax.setWidth w ≤ x.counter - x.lastSeen i) := by
  induction is generalizing pn with
  | nil => simp [clearUnused]
  | cons j is ih =>
    rw [clearUnused]
    split
    case isTrue hold =>
      rw [ih, AfhBtbb.Seen, hlib.seen_clear, List.mem_cons]
      by_cases hij : i = j
      · subst hij
        simp [hold]
      · simp [hij, AfhBtbb.Seen]
    case isFalse hnew =>
      rw [ih, List.mem_cons]
      by_cases hij : i = j
      · subst hij
        simp [hnew]
      · simp [hij]

theorem lap_clearUnused (hlib : lib.Lawful) (x : AfhStatics w) (is : List (Fin numBredrChannels))
    (pn : κ) : lib.lap (clearUnused lib report packetCounterMax x is pn).2 = lib.lap pn := by
  induction is generalizing pn with
  | nil => rfl
  | cons j is ih =>
    rw [clearUnused]
    split
    case isTrue => rw [ih, hlib.lap_clear]
    case isFalse => exact ih pn

theorem lap_afhStep (hlib : lib.Lawful) (x : AfhStatics w × κ) (p : AfhPacket) :
    lib.lap (afhStep (cbAfh lib report) packetCounterMax x p).2 = lib.lap x.2 := by
  rw [afhStep, cbAfh]
  split
  case isTrue => rfl
  case isFalse => exact (lap_clearUnused hlib _ _ _).trans (hlib.lap_set _ _)

theorem afhStep_of_not_matching {x : AfhStatics w × κ} {p : AfhPacket}
    (h : ¬Matching lib x.2 p.val) : afhStep (cbAfh lib report) packetCounterMax x p = x := by
  rw [afhStep, cbAfh, if_pos h]

theorem AfhPacket.octet_eq (p : AfhPacket) :
    p.val.topUsb.channel = BitVec.ofNat 8 p.channel := by
  rw [AfhPacket.channel, BitVec.ofNat_toNat, BitVec.setWidth_eq]

theorem AfhPacket.setLastSeen_eq (p : AfhPacket) (counter : BitVec w)
    (lastSeen : Fin numBredrChannels → BitVec w) :
    setLastSeen p.val.topUsb.channel counter lastSeen =
      Function.update lastSeen p.channel counter := dif_pos p.property

/-- A matching packet is an element seen. -/
theorem recency_afhStep (hlib : lib.Lawful) {x : AfhStatics w × κ} {p : AfhPacket}
    (h : Matching lib x.2 p.val) : recency lib (afhStep (cbAfh lib report) packetCounterMax x p) =
      (recency lib x).see (packetCounterMax.setWidth w) p.channel := by
  rw [afhStep, cbAfh, if_neg (not_not.2 h)]
  simp only [recency, Recency.see, p.setLastSeen_eq, Recency.mk.injEq, true_and]
  funext i
  rw [seen_clearUnused hlib, AfhBtbb.Seen, p.octet_eq, hlib.seen_set]
  simp only [List.mem_finRange, true_and, BitVec.not_le, AfhBtbb.Seen]

/-! ## All packets -/

/-- The channels of the matching packets, in order. -/
def matchingChannels (lib : AfhBtbb κ) (pn : κ) (ps : List AfhPacket) :
    List (Fin numBredrChannels) :=
  (ps.filter fun p => Matching lib pn p.val).map AfhPacket.channel

theorem matching_congr {pn pn' : κ} (h : lib.lap pn = lib.lap pn') (rb : Ringbuffer) :
    Matching lib pn rb ↔ Matching lib pn' rb := by
  rw [Matching, Matching, h]

/-- The variables hold what `Recency` does for the matching packets. -/
theorem recency_run (report : Bool) (hlib : lib.Lawful) (x : AfhStatics w × κ)
    (ps : List AfhPacket) :
    recency lib (run (afhStep (cbAfh lib report) packetCounterMax) x ps) =
      run (Recency.see (packetCounterMax.setWidth w)) (recency lib x)
        (matchingChannels lib x.2 ps) := by
  induction ps generalizing x with
  | nil => rfl
  | cons p ps ih =>
    have hrest : matchingChannels lib (afhStep (cbAfh lib report) packetCounterMax x p).2 ps =
        matchingChannels lib x.2 ps := by
      rw [matchingChannels, matchingChannels]
      congr 2
      ext p'
      exact decide_eq_decide.2 (matching_congr (lap_afhStep hlib x p) p'.val)
    rw [run_cons, ih, hrest]
    by_cases h : Matching lib x.2 p.val
    · rw [recency_afhStep hlib h, matchingChannels, matchingChannels,
        List.filter_cons_of_pos (by simpa using h), List.map_cons, run_cons]
    · rw [afhStep_of_not_matching h, matchingChannels, matchingChannels,
        List.filter_cons_of_neg (by simpa using h)]

/-- **The map of the AFH monitor**: the channels of the last `packet_counter_max` matching packets,
after any packets. -/
theorem channelSeen_iff_recent (hcb : cb = cbAfhMonitor lib ∨ cb = cbAfhR lib)
    (hlib : lib.Lawful) (hw : 32 ≤ w) (hmax : 1 ≤ packetCounterMax.toNat) {pn : κ}
    (hempty : ∀ i, ¬lib.Seen pn i) (ps : List AfhPacket) (i : Fin numBredrChannels) :
    lib.Seen (run (afhStep cb packetCounterMax) ({}, pn) ps).2 i ↔
      i ∈ (matchingChannels lib pn ps).rtake packetCounterMax.toNat := by
  obtain ⟨report, rfl⟩ : ∃ report, cb = cbAfh lib report :=
    hcb.elim (fun h => ⟨true, h⟩) fun h => ⟨false, h⟩
  have hstart : recency lib (({} : AfhStatics w), pn) = Recency.empty := by
    simp only [recency, Recency.empty, Recency.mk.injEq, true_and]
    funext i
    exact eq_false (hempty i)
  have hwidth : (packetCounterMax.setWidth w).toNat = packetCounterMax.toNat := by
    rw [BitVec.toNat_setWidth, Nat.mod_eq_of_lt
      (lt_of_lt_of_le packetCounterMax.isLt (Nat.pow_le_pow_right (by omega) hw))]
  have hkept := Recency.kept_run_iff (m := packetCounterMax.setWidth w) (by omega)
    (matchingChannels lib pn ps) i
  rw [← hstart, ← recency_run report hlib, hwidth] at hkept
  exact hkept

/-- The sync word of LAP `9e8b33`, the symbol received first in the highest bit. -/
def inquirySyncWord : U64 := 0x475c58cc73345e72

/-- `btbb_find_ac` for that LAP, without errors: where the sync word begins. -/
def findInquiry (stream : ℕ → U8) (searchLength : ℕ) (lap : U32) : ℤ :=
  let begins := fun i => ∀ j < 64,
    stream (i + j) = (BitVec.ofBool (inquirySyncWord.getLsbD (63 - j))).setWidth 8
  match (List.range searchLength).find? begins with
  | some i => if lap = 0x9e8b33 then i else -1
  | none => -1

/-- The piconet of the inquiry, as its map. -/
def mapBtbb : AfhBtbb (U8 → Bool) where
  findAc := findInquiry
  lap _ := 0x9e8b33
  setChannelSeen pn c := (!pn c, Function.update pn c true)
  clearChannelSeen pn c := (pn c, Function.update pn c false)
  channelSeen pn c := pn c

theorem octet_injective : Function.Injective fun i : Fin numBredrChannels => BitVec.ofNat 8 i := by
  intro i j h
  have hnat := congrArg BitVec.toNat h
  have hi : i.val < 79 := i.isLt
  have hj : j.val < 79 := j.isLt
  simp only [BitVec.toNat_ofNat] at hnat
  exact Fin.ext (by omega)

theorem mapBtbb_lawful : mapBtbb.Lawful where
  seen_set pn c i := by
    by_cases h : i = c
    · simp [mapBtbb, h]
    · simp [mapBtbb, h, Function.update_of_ne (octet_injective.ne h)]
  seen_clear pn c i := by
    by_cases h : i = c
    · simp [mapBtbb, h]
    · simp [mapBtbb, h, Function.update_of_ne (octet_injective.ne h)]
  lap_set _ _ := rfl
  lap_clear _ _ := rfl

/-- A buffer that was empty, with a packet. -/
def bufferOf (rx : UsbPktRx) : Ringbuffer :=
  (ringbufferInit (Vector.replicate _ {}) (Vector.replicate _ (Vector.replicate _ 0))).add rx

/-- A packet with the access code on a channel. -/
def packetOn (i : Fin numBredrChannels) : AfhPacket :=
  ⟨bufferOf { inquiryPacket with channel := BitVec.ofNat 8 i }, by
    rw [bufferOf, Ringbuffer.topUsb_add, BitVec.toNat_ofNat]
    omega⟩

theorem matchingChannels_packetOn :
    matchingChannels mapBtbb (fun _ => false) [packetOn 3, packetOn 40, packetOn 78] =
      [3, 40, 78] := by decide +kernel

theorem channelSeen_iff_recent_two :
    mapBtbb.Seen (run (afhStep (cbAfhMonitor (w := 64) mapBtbb) 2) ({}, fun _ => false)
        [packetOn 3, packetOn 40, packetOn 78]).2 40 ↔
      40 ∈ ([3, 40, 78] : List (Fin numBredrChannels)).rtake 2 := by
  rw [← matchingChannels_packetOn]
  exact channelSeen_iff_recent (.inl rfl) mapBtbb_lawful (by omega) (by simp)
    (by simp [mapBtbb, AfhBtbb.Seen]) [packetOn 3, packetOn 40, packetOn 78] 40

end Ubertooth.Host
