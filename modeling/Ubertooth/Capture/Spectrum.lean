import Ubertooth.Firmware.Frames
import Ubertooth.Firmware.Specan
import Ubertooth.Host.Ringbuffer
import Ubertooth.Usb.Queue
import Ubertooth.Usb.SlotFields

/-!
# A spectrum sweep

`specan` packs its measurements across the ends of the sweeps, and `cb_specan` unpacks them. What
has been measured so far is what the packets hold, and after them the part of the buffer that is
filled (`Sweeping`): so what the host sees is the sequence of the measurements itself. While
`specan` finishes its sweep, `UBERTOOTH_BTLE_SNIFFING` and `UBERTOOTH_BTLE_PROMISC` empty the queue,
and what it held is missing from the sequence for good (`sweep_complete_iff`).
-/

namespace Ubertooth.Capture

open Foundations Firmware Host Usb

/-! ## The host -/

/-- The frequency and the signal strength that `cb_specan` finds at `rx->data[j]`. -/
def specanTriple (data : Vector U8 dmaSize) (j : ℕ) : U16 × U8 :=
  ((((data[j]?).getD 0).setWidth 16 <<< 8) ||| ((data[j + 1]?).getD 0).setWidth 16,
    (data[j + 2]?).getD 0)

/-- What `cb_specan` prints or writes of a packet; its output modes differ in the format. -/
def cbSpecan (rb : Ringbuffer) : List (U16 × U8) :=
  ((List.range (dmaSize - 2)).filter fun j => j % 3 = 0).map (specanTriple rb.topUsb.data)

/-- The packets come in one after the other, and the callback is called for each. -/
def specanStream (rb : Ringbuffer) : List UsbPktRx → List (U16 × U8)
  | [] => []
  | rx :: rxs => cbSpecan (rb.add rx) ++ specanStream (rb.add rx) rxs

/-- The sixteen measurements of a packet. -/
def specanTriples (data : Vector U8 dmaSize) : List (U16 × U8) :=
  (List.range 16).map fun k => specanTriple data (3 * k)

theorem cbSpecan_add (rb : Ringbuffer) (rx : UsbPktRx) :
    cbSpecan (rb.add rx) = specanTriples rx.data := by
  have hrounds : (List.range (dmaSize - 2)).filter (fun j => j % 3 = 0) =
      (List.range 16).map (3 * ·) := by decide
  rw [cbSpecan, hrounds, List.map_map, Ringbuffer.topUsb_add]
  rfl

theorem specanStream_eq (rb : Ringbuffer) (rxs : List UsbPktRx) :
    specanStream rb rxs = rxs.flatMap fun rx => specanTriples rx.data := by
  induction rxs generalizing rb with
  | nil => rfl
  | cons rx rxs ih => rw [specanStream, cbSpecan_add, ih, List.flatMap_cons]

/-! ## The buffer -/

/-- What was stored last is found where it was stored. -/
theorem specanTriple_store (rssi : U16) {v : SpecanVars} (hi : v.i.toNat < 16) :
    specanTriple (specanStore rssi v).buf (3 * v.i.toNat) = (v.f, octet rssi 1) := by
  have h0 : 3 * v.i.toNat < 50 := by omega
  have h1 : 3 * v.i.toNat + 1 < 50 := by omega
  have h2 : 3 * v.i.toNat + 2 < 50 := by omega
  unfold specanTriple specanStore
  simp [h0, h1, h2, octet_pair_eq]

theorem getElem?_specanStore_of_lt (rssi : U16) {v : SpecanVars} {j : ℕ}
    (hj : j < 3 * v.i.toNat) : (specanStore rssi v).buf[j]? = v.buf[j]? := by
  unfold specanStore
  rw [Vector.getElem?_setIfInBounds, if_neg (by omega), Vector.getElem?_setIfInBounds,
    if_neg (by omega), Vector.getElem?_setIfInBounds, if_neg (by omega)]

/-- What was stored before stays. -/
theorem specanTriple_store_of_lt (rssi : U16) {v : SpecanVars} {k : ℕ} (hk : k < v.i.toNat) :
    specanTriple (specanStore rssi v).buf (3 * k) = specanTriple v.buf (3 * k) := by
  unfold specanTriple
  rw [getElem?_specanStore_of_lt rssi (by omega), getElem?_specanStore_of_lt rssi (by omega),
    getElem?_specanStore_of_lt rssi (by omega)]

/-- The part of the buffer that is filled. -/
def filledTriples (v : SpecanVars) : List (U16 × U8) :=
  (List.range v.i.toNat).map fun k => specanTriple v.buf (3 * k)

@[simp] theorem length_filledTriples (v : SpecanVars) : (filledTriples v).length = v.i.toNat := by
  simp [filledTriples]

/-- A measurement is appended to it. -/
theorem filledTriples_store (rssi : U16) {v : SpecanVars} (hi : v.i.toNat < 16) :
    (specanStore rssi v).i.toNat = v.i.toNat + 1 ∧
      filledTriples (specanStore rssi v) = filledTriples v ++ [(v.f, octet rssi 1)] := by
  have hnext : (specanStore rssi v).i.toNat = v.i.toNat + 1 := by
    show (v.i + 1).toNat = _
    rw [BitVec.toNat_add]
    show (v.i.toNat + 1) % 2 ^ 8 = _
    omega
  refine ⟨hnext, ?_⟩
  rw [filledTriples, hnext, List.range_succ, List.map_append, List.map_singleton,
    specanTriple_store rssi hi]
  congr 1
  exact List.map_congr_left fun k hk => specanTriple_store_of_lt rssi (List.mem_range.1 hk)

/-! ## Runs -/

/-- The firmware in `specan`, the packets that have left the queue, and what it has read of the
signal since `specan` began. There are no variables once `specan` has returned. -/
structure Sweep where
  queue : Traced
  vars : Option SpecanVars
  requestedMode : Mode
  received : List UsbPktRx := []
  readings : List U16 := []

/-- A measurement; the requests that empty the queue, and requests for modes other than this;
`handle_usb` or `UBERTOOTH_POLL` takes a packet; and what else does not touch the queue. -/
inductive SweepEvent
  | measure (rssi : U16)
  | btleSniffing
  | btlePromisc
  | requestMode (m : Mode)
  | dequeue
  | raise (flag : StatusFlag) (h : flag ≠ .fifoOverflow)
  | world (s : Fw)

/-- `specan` begins, after a history of the queue; `requested_mode` may have changed again. -/
def specanBegin (before : List QueueEvent) (m : Mode) (low : U16) (buf : Vector U8 dmaSize) :
    Sweep :=
  { queue := queueStep (run queueStep ⟨powerOn, {}⟩ before) .queueInit
    vars := if m = .specan then some { f := low, buf := buf } else none
    requestedMode := m }

/-- The end of a round: sixteen measurements are sent. -/
def specanSend (x : Sweep) (v : SpecanVars) : Traced × SpecanVars :=
  if v.i = 16 then (queueStep x.queue (.enqueue (.plain .specan v.buf)), { v with i := 0 })
  else (x.queue, v)

/-- A request that calls `queue_init` and leaves the state `s`. -/
def emptied (x : Traced) (s : Fw) : Traced :=
  ⟨s, { x.ledger with accepted := [], returned := [] }⟩

def sweepStep (low high : U16) (x : Sweep) : SweepEvent → Sweep
  | .measure rssi =>
    match x.vars with
    | none => x
    | some v =>
      let sent := specanSend x (specanStore rssi v)
      { x with
        queue := sent.1
        vars := specanNext low high (decide (x.requestedMode = .specan)) sent.2
        readings := x.readings ++ [rssi] }
  | .btleSniffing =>
    { x with queue := emptied x.queue (btleSniffing x.queue.fw), requestedMode := .btFollowLe }
  | .btlePromisc =>
    { x with queue := emptied x.queue (btlePromisc x.queue.fw), requestedMode := .btPromiscLe }
  | .requestMode m => { x with requestedMode := m }
  | .dequeue =>
    { x with
      queue := queueStep x.queue .dequeue
      received := x.received ++ (dequeuePkt x.queue.fw).1.toList }
  | .raise flag h => { x with queue := queueStep x.queue (.raise flag h) }
  | .world s => { x with queue := queueStep x.queue (.world s) }

/-- The frequencies from `low` to `high`, again and again, with what was read at each. -/
def sweepSequence (low high : U16) (readings : List U16) : List (U16 × U8) :=
  readings.mapIdx fun k rssi =>
    (BitVec.ofNat 16 (low.toNat + k % (high.toNat - low.toNat + 1)), octet rssi 1)

@[simp] theorem length_sweepSequence (low high : U16) (readings : List U16) :
    (sweepSequence low high readings).length = readings.length := List.length_mapIdx

theorem sweepSequence_concat (low high : U16) (readings : List U16) (rssi : U16) :
    sweepSequence low high (readings ++ [rssi]) = sweepSequence low high readings ++
      [(BitVec.ofNat 16 (low.toNat + readings.length % (high.toNat - low.toNat + 1)),
        octet rssi 1)] := by
  simp [sweepSequence, List.mapIdx_append]

/-- No call of `enqueue` is refused. -/
def NoOverflow (low high : U16) (x : Sweep) (e : SweepEvent) : Prop :=
  (sweepStep low high x e).queue.ledger.refused ≤ x.queue.ledger.refused

instance decidableNoOverflow (low high : U16) (x : Sweep) (e : SweepEvent) :
    Decidable (NoOverflow low high x e) :=
  inferInstanceAs (Decidable (_ ≤ _))

/-- A request that empties the queue finds it empty. -/
def SparesQueue (x : Sweep) : SweepEvent → Prop
  | .btleSniffing | .btlePromisc => count x.queue.fw.queue = 0
  | _ => True

instance decidableSparesQueue (x : Sweep) (e : SweepEvent) : Decidable (SparesQueue x e) := by
  cases e <;> unfold SparesQueue <;> infer_instance

/-- The packets that have left the queue, and those it holds. -/
def Sweep.packets (x : Sweep) : List UsbPktRx := x.received ++ outstanding x.queue.fw.queue

/-- **The sweep reaches the host.** All packets are measurements, sixteen each, and what `cb_specan`
reads from them is the sequence of the measurements, as many as make whole packets; so what it has
read from those that came in is how the sequence begins. -/
structure ReachesHost (low high : U16) (rb : Ringbuffer) (x : Sweep) : Prop where
  pktType : ∀ rx ∈ x.packets, rx.pktType = UsbPktType.specan.toU8
  received : specanStream rb x.received =
    (sweepSequence low high x.readings).take (16 * x.received.length)
  packets : specanStream rb x.packets =
    (sweepSequence low high x.readings).take (16 * (x.readings.length / 16))

/-- **The invariant of a sweep.** What has been measured is what the packets hold, and after them
less than a packet; while `specan` runs, that is the filled part of the buffer. -/
structure Sweeping (low high : U16) (x : Sweep) : Prop where
  balanced : Balanced x.queue
  pktType : ∀ rx ∈ x.packets, rx.pktType = UsbPktType.specan.toU8
  sequence : ∃ rest : List (U16 × U8), rest.length < 16 ∧
    sweepSequence low high x.readings =
      (x.packets.flatMap fun rx => specanTriples rx.data) ++ rest ∧
    ∀ v, x.vars = some v → filledTriples v = rest ∧
      v.f.toNat = low.toNat + x.readings.length % (high.toNat - low.toNat + 1)

/-- A packet of measurements is missing, and stays so. -/
structure Incomplete (x : Sweep) : Prop where
  balanced : Balanced x.queue
  length : ∃ n < 16, 16 * (x.packets.length + 1) + n ≤ x.readings.length ∧
    ∀ v, x.vars = some v → v.i.toNat = n

variable {low high : U16} {x : Sweep}

/-! ### The queue -/

theorem balanced_emptied {x : Traced} {s : Fw} (hx : Balanced x) (hqueue : s.queue = {})
    (hstatus : s.status = x.fw.status) :
    Balanced (emptied x s) ∧ outstanding (emptied x s).fw.queue = [] := by
  have hempty : count {} ≤ 127 := by decide
  refine ⟨⟨?_, ?_, ?_, hx.refused⟩, ?_⟩
  · dsimp only [emptied]
    rw [hqueue]
    exact hempty
  · dsimp only [emptied]
    rw [hqueue, outstanding_empty, List.nil_append]
  · dsimp only [emptied]
    rw [hstatus, hx.status]
  · dsimp only [emptied]
    rw [hqueue, outstanding_empty]

/-- A packet that leaves the queue is still one of the packets. -/
theorem packets_dequeue (hx : Balanced x.queue) :
    (sweepStep low high x .dequeue).packets = x.packets := by
  dsimp only [sweepStep, Sweep.packets, queueStep]
  rcases Nat.eq_zero_or_pos (count x.queue.fw.queue) with hzero | hpos
  · rw [dequeuePkt_of_empty hzero]
    simp
  · rw [dequeuePkt_of_pos hpos hx.count_le, outstanding_pop hpos]
    simp

/-- A packet accepted is held. -/
theorem outstanding_enqueue {x : Traced} (hx : Balanced x) {c : EnqueueCall}
    (h : (queueStep x (.enqueue c)).ledger.refused ≤ x.ledger.refused) :
    outstanding (queueStep x (.enqueue c)).fw.queue =
      outstanding x.fw.queue ++ [filled x.fw c] := by
  have hreturned : (queueStep x (.enqueue c)).ledger.returned = x.ledger.returned := by
    dsimp only [queueStep]
    split <;> rfl
  have haccepted := (balanced_enqueue hx c).accepted
  rw [accepted_enqueue hx h, hx.accepted, hreturned, List.append_assoc] at haccepted
  exact (List.append_cancel_left haccepted).symm

/-! ### The invariant -/

theorem sweeping_specanBegin (before : List QueueEvent) (m : Mode) (buf : Vector U8 dmaSize) :
    Sweeping low high (specanBegin before m low buf) := by
  have hbalanced := balanced_step (balanced_run before) .queueInit
  have hpackets : (specanBegin before m low buf).packets = [] :=
    (List.nil_append _).trans outstanding_empty
  refine ⟨hbalanced, ?_, [], by simp, ?_, fun v hv => ?_⟩
  · rw [hpackets]
    exact fun rx hrx => absurd hrx List.not_mem_nil
  · rw [hpackets]
    rfl
  · dsimp only [specanBegin] at hv
    split_ifs at hv
    obtain rfl := Option.some.inj hv
    exact ⟨rfl, by simp [specanBegin]⟩

/-- What the end of a round sends, and what it leaves in the buffer. -/
theorem specanSend_spec (hx : Balanced x.queue) {v : SpecanVars} (hi : v.i.toNat ≤ 16)
    (hroom : (specanSend x v).1.ledger.refused ≤ x.queue.ledger.refused) :
    Balanced (specanSend x v).1 ∧ (specanSend x v).2.f = v.f ∧
      (specanSend x v).2.i.toNat < 16 ∧
      ∃ sent : List UsbPktRx,
        outstanding (specanSend x v).1.fw.queue = outstanding x.queue.fw.queue ++ sent ∧
        (∀ rx ∈ sent, rx.pktType = UsbPktType.specan.toU8) ∧
        filledTriples v =
          (sent.flatMap fun rx => specanTriples rx.data) ++ filledTriples (specanSend x v).2 := by
  by_cases hfull : v.i = 16
  · have hsend : specanSend x v =
        (queueStep x.queue (.enqueue (.plain .specan v.buf)), { v with i := 0 }) := if_pos hfull
    rw [hsend] at hroom ⊢
    refine ⟨balanced_enqueue hx _, rfl, (by simp : (0 : U8).toNat < 16),
      [filled x.queue.fw (.plain .specan v.buf)],
      outstanding_enqueue hx hroom, ?_, ?_⟩
    · intro rx hrx
      rw [List.mem_singleton.1 hrx]
      exact pktType_specan v.buf
    · have hdata : (filled x.queue.fw (.plain .specan v.buf)).data = v.buf := data_specan v.buf
      have hsixteen : v.i.toNat = 16 := by rw [hfull]; rfl
      rw [List.flatMap_singleton, hdata, filledTriples, hsixteen]
      exact (List.append_nil _).symm
  · have hkeep : specanSend x v = (x.queue, v) := if_neg hfull
    have hne : v.i.toNat ≠ 16 := fun h => hfull (BitVec.eq_of_toNat_eq h)
    rw [hkeep]
    refine ⟨hx, rfl, Nat.lt_of_le_of_ne hi hne, [], (List.append_nil _).symm, ?_, rfl⟩
    exact fun rx hrx => absurd hrx List.not_mem_nil

theorem specanNext_i {wanted : Bool} {v v' : SpecanVars}
    (h : specanNext low high wanted v = some v') : v'.i = v.i := by
  unfold specanNext at h
  split_ifs at h
  all_goals
    obtain rfl := Option.some.inj h
    rfl

/-- The next frequency. -/
theorem specanNext_spec {wanted : Bool} {v v' : SpecanVars} {n : ℕ} (hle : low.toNat ≤ high.toNat)
    (hhigh : high.toNat ≤ 3072)
    (hf : v.f.toNat = low.toNat + n % (high.toNat - low.toNat + 1))
    (h : specanNext low high wanted v = some v') :
    filledTriples v' = filledTriples v ∧
      v'.f.toNat = low.toNat + (n + 1) % (high.toNat - low.toNat + 1) := by
  set width := high.toNat - low.toNat + 1 with hwidth
  have hlt : n % width < width := Nat.mod_lt n (Nat.succ_pos _)
  have hnext : (n % width + 1) % width = (n + 1) % width := Nat.mod_add_mod n width 1
  have hone : (1 : U16).toNat = 1 := rfl
  have hsucc : (v.f + 1).toNat = v.f.toNat + 1 := by
    rw [BitVec.toNat_add, hone]
    omega
  unfold specanNext at h
  rw [hsucc] at h
  split_ifs at h with hmore hwanted
  · obtain rfl := Option.some.inj h
    refine ⟨rfl, ?_⟩
    rw [← hnext, Nat.mod_eq_of_lt (by omega)]
    show (v.f + 1).toNat = _
    omega
  · obtain rfl := Option.some.inj h
    have hlast : n % width + 1 = width := by omega
    refine ⟨rfl, ?_⟩
    rw [← hnext, hlast, Nat.mod_self]
    rfl

theorem sweepStep_measure_none (hvars : x.vars = none) (rssi : U16) :
    sweepStep low high x (.measure rssi) = x := by
  simp [sweepStep, hvars]

theorem sweepStep_measure_some {v : SpecanVars} (hvars : x.vars = some v) (rssi : U16) :
    sweepStep low high x (.measure rssi) = { x with
      queue := (specanSend x (specanStore rssi v)).1
      vars := specanNext low high (decide (x.requestedMode = .specan))
        (specanSend x (specanStore rssi v)).2
      readings := x.readings ++ [rssi] } := by
  simp [sweepStep, hvars]

theorem sweeping_measure (hle : low.toNat ≤ high.toNat) (hhigh : high.toNat ≤ 3072)
    (hx : Sweeping low high x) {rssi : U16} (hroom : NoOverflow low high x (.measure rssi)) :
    Sweeping low high (sweepStep low high x (.measure rssi)) := by
  unfold NoOverflow at hroom
  cases hvars : x.vars with
  | none =>
    rw [sweepStep_measure_none hvars]
    exact hx
  | some v =>
    obtain ⟨rest, hshort, hsequence, hbuf⟩ := hx.sequence
    obtain ⟨hfilled, hf⟩ := hbuf v hvars
    have hi : v.i.toNat = rest.length := by rw [← hfilled, length_filledTriples]
    obtain ⟨hnexti, hstored⟩ := filledTriples_store rssi (v := v) (by omega)
    rw [sweepStep_measure_some hvars] at hroom ⊢
    obtain ⟨hbalanced, hf', hi', sent, houtstanding, htype, hsplit⟩ :=
      specanSend_spec hx.balanced (v := specanStore rssi v) (by omega) hroom
    have hpackets : x.received ++ outstanding (specanSend x (specanStore rssi v)).1.fw.queue =
        x.packets ++ sent := by
      rw [houtstanding, Sweep.packets, List.append_assoc]
    refine ⟨hbalanced, ?_, filledTriples (specanSend x (specanStore rssi v)).2, ?_, ?_, ?_⟩
    · dsimp only [Sweep.packets]
      rw [hpackets]
      intro rx hrx
      rcases List.mem_append.1 hrx with hold | hnew
      · exact hx.pktType rx hold
      · exact htype rx hnew
    · rw [length_filledTriples]
      exact hi'
    · dsimp only [Sweep.packets]
      have hv : v.f = BitVec.ofNat 16
          (low.toNat + x.readings.length % (high.toNat - low.toNat + 1)) := by
        rw [← hf, BitVec.ofNat_toNat, BitVec.setWidth_eq]
      rw [sweepSequence_concat, hsequence, hpackets, List.flatMap_append, List.append_assoc,
        List.append_assoc, ← hsplit, hstored, hfilled, ← hv]
    · intro v' hv'
      dsimp only at hv' ⊢
      rw [List.length_append, List.length_singleton]
      have hfreq : (specanSend x (specanStore rssi v)).2.f.toNat =
          low.toNat + x.readings.length % (high.toNat - low.toNat + 1) := by
        rw [hf']
        exact hf
      exact specanNext_spec hle hhigh hfreq hv'

/-- A step that keeps the packets, the readings and the variables. -/
theorem Sweeping.of_packets {y : Sweep} (hx : Sweeping low high x) (hbalanced : Balanced y.queue)
    (hpackets : y.packets = x.packets) (hreadings : y.readings = x.readings)
    (hvars : y.vars = x.vars) : Sweeping low high y :=
  ⟨hbalanced, hpackets ▸ hx.pktType, by rw [hpackets, hreadings, hvars]; exact hx.sequence⟩

/-- Where the queue is empty, a request that empties it keeps the packets. -/
theorem packets_of_emptied {s : Fw} {m : Mode}
    (hempty : outstanding (emptied x.queue s).fw.queue = []) (hcount : count x.queue.fw.queue = 0) :
    ({ x with queue := emptied x.queue s, requestedMode := m } : Sweep).packets = x.packets := by
  have hnone : outstanding x.queue.fw.queue = [] := by
    rw [← List.length_eq_zero_iff, length_outstanding, hcount]
  rw [Sweep.packets, Sweep.packets, hempty, hnone]

theorem sweeping_step (hle : low.toNat ≤ high.toNat) (hhigh : high.toNat ≤ 3072)
    (hx : Sweeping low high x) (e : SweepEvent) (hroom : NoOverflow low high x e)
    (hspares : SparesQueue x e) : Sweeping low high (sweepStep low high x e) := by
  cases e with
  | measure rssi => exact sweeping_measure hle hhigh hx hroom
  | btleSniffing =>
    obtain ⟨hqueue, hstatus⟩ := btleSniffing_queue x.queue.fw
    obtain ⟨hbalanced, hempty⟩ := balanced_emptied hx.balanced hqueue hstatus
    exact hx.of_packets hbalanced (packets_of_emptied hempty hspares) rfl rfl
  | btlePromisc =>
    obtain ⟨hqueue, hstatus⟩ := btlePromisc_queue x.queue.fw
    obtain ⟨hbalanced, hempty⟩ := balanced_emptied hx.balanced hqueue hstatus
    exact hx.of_packets hbalanced (packets_of_emptied hempty hspares) rfl rfl
  | requestMode m => exact hx.of_packets hx.balanced rfl rfl rfl
  | dequeue =>
    exact hx.of_packets (balanced_dequeue hx.balanced) (packets_dequeue hx.balanced) rfl rfl
  | raise flag h => exact hx.of_packets (balanced_step hx.balanced (.raise flag h)) rfl rfl rfl
  | world s => exact hx.of_packets (balanced_step hx.balanced (.world s)) rfl rfl rfl

/-! ### What a request loses -/

theorem length_flatMap_specanTriples (rxs : List UsbPktRx) :
    (rxs.flatMap fun rx => specanTriples rx.data).length = 16 * rxs.length := by
  induction rxs with
  | nil => rfl
  | cons rx rxs ih =>
    rw [List.flatMap_cons, List.length_append, ih, specanTriples, List.length_map,
      List.length_range, List.length_cons]
    omega

theorem Sweeping.length (hx : Sweeping low high x) : ∃ n < 16,
    x.readings.length = 16 * x.packets.length + n ∧ ∀ v, x.vars = some v → v.i.toNat = n := by
  obtain ⟨rest, hshort, hsequence, hbuf⟩ := hx.sequence
  refine ⟨rest.length, hshort, ?_, fun v hv => ?_⟩
  · have h := congrArg List.length hsequence
    rwa [List.length_append, length_flatMap_specanTriples, length_sweepSequence] at h
  · rw [← (hbuf v hv).1, length_filledTriples]

/-- The packets that a request finds in the queue are missing. -/
theorem incomplete_of_emptied (hx : Sweeping low high x) {s : Fw} {m : Mode}
    (hbalanced : Balanced (emptied x.queue s))
    (hempty : outstanding (emptied x.queue s).fw.queue = []) (hcount : count x.queue.fw.queue ≠ 0) :
    Incomplete { x with queue := emptied x.queue s, requestedMode := m } := by
  obtain ⟨n, hn, hlength, hvars⟩ := hx.length
  refine ⟨hbalanced, n, hn, ?_, hvars⟩
  dsimp only [Sweep.packets]
  rw [hempty, List.append_nil]
  rw [Sweep.packets, List.length_append, length_outstanding] at hlength
  omega

theorem incomplete_measure (hx : Incomplete x) {rssi : U16}
    (hroom : NoOverflow low high x (.measure rssi)) :
    Incomplete (sweepStep low high x (.measure rssi)) := by
  unfold NoOverflow at hroom
  cases hvars : x.vars with
  | none =>
    rw [sweepStep_measure_none hvars]
    exact hx
  | some v =>
    obtain ⟨n, hn, hlength, hbuf⟩ := hx.length
    have hi : v.i.toNat = n := hbuf v hvars
    obtain ⟨hnexti, -⟩ := filledTriples_store rssi (v := v) (by omega)
    rw [sweepStep_measure_some hvars] at hroom ⊢
    obtain ⟨hbalanced, -, hi', sent, houtstanding, -, hsplit⟩ :=
      specanSend_spec hx.balanced (v := specanStore rssi v) (by omega) hroom
    refine ⟨hbalanced, (specanSend x (specanStore rssi v)).2.i.toNat, hi', ?_, fun v' hv' => ?_⟩
    · have h := congrArg List.length hsplit
      rw [List.length_append, length_flatMap_specanTriples, length_filledTriples,
        length_filledTriples, hnexti] at h
      dsimp only [Sweep.packets]
      rw [Sweep.packets] at hlength
      simp only [houtstanding, List.length_append, List.length_singleton] at hlength ⊢
      omega
    · rw [specanNext_i hv']

/-- A step that brings no packet. -/
theorem Incomplete.of_packets {y : Sweep} (hx : Incomplete x) (hbalanced : Balanced y.queue)
    (hpackets : y.packets.length ≤ x.packets.length) (hreadings : y.readings = x.readings)
    (hvars : y.vars = x.vars) : Incomplete y := by
  obtain ⟨n, hn, hlength, hbuf⟩ := hx.length
  refine ⟨hbalanced, n, hn, ?_, by rw [hvars]; exact hbuf⟩
  rw [hreadings]
  omega

theorem length_packets_of_emptied {s : Fw} {m : Mode}
    (hempty : outstanding (emptied x.queue s).fw.queue = []) :
    ({ x with queue := emptied x.queue s, requestedMode := m } : Sweep).packets.length ≤
      x.packets.length := by
  rw [Sweep.packets, Sweep.packets, hempty, List.append_nil, List.length_append]
  exact Nat.le_add_right _ _

theorem incomplete_step (hx : Incomplete x) (e : SweepEvent) (hroom : NoOverflow low high x e) :
    Incomplete (sweepStep low high x e) := by
  cases e with
  | measure rssi => exact incomplete_measure hx hroom
  | btleSniffing =>
    obtain ⟨hqueue, hstatus⟩ := btleSniffing_queue x.queue.fw
    obtain ⟨hbalanced, hempty⟩ := balanced_emptied hx.balanced hqueue hstatus
    exact hx.of_packets hbalanced (length_packets_of_emptied hempty) rfl rfl
  | btlePromisc =>
    obtain ⟨hqueue, hstatus⟩ := btlePromisc_queue x.queue.fw
    obtain ⟨hbalanced, hempty⟩ := balanced_emptied hx.balanced hqueue hstatus
    exact hx.of_packets hbalanced (length_packets_of_emptied hempty) rfl rfl
  | requestMode m => exact hx.of_packets hx.balanced le_rfl rfl rfl
  | dequeue =>
    exact hx.of_packets (balanced_dequeue hx.balanced)
      (by rw [packets_dequeue hx.balanced]) rfl rfl
  | raise flag h => exact hx.of_packets (balanced_step hx.balanced (.raise flag h)) le_rfl rfl rfl
  | world s => exact hx.of_packets (balanced_step hx.balanced (.world s)) le_rfl rfl rfl

theorem incomplete_of_not_spares (hx : Sweeping low high x) {e : SweepEvent}
    (hspares : ¬SparesQueue x e) : Incomplete (sweepStep low high x e) := by
  cases e with
  | btleSniffing =>
    obtain ⟨hqueue, hstatus⟩ := btleSniffing_queue x.queue.fw
    obtain ⟨hbalanced, hempty⟩ := balanced_emptied hx.balanced hqueue hstatus
    exact incomplete_of_emptied hx hbalanced hempty hspares
  | btlePromisc =>
    obtain ⟨hqueue, hstatus⟩ := btlePromisc_queue x.queue.fw
    obtain ⟨hbalanced, hempty⟩ := balanced_emptied hx.balanced hqueue hstatus
    exact incomplete_of_emptied hx hbalanced hempty hspares
  | measure | requestMode | dequeue | raise | world => exact absurd trivial hspares

/-- After any run, the sweep is what the invariant says as long as every request has found the queue
empty, and a packet is missing once one has not. -/
theorem sweeping_or_incomplete (hle : low.toNat ≤ high.toNat) (hhigh : high.toNat ≤ 3072)
    (hx : Sweeping low high x) {es : List SweepEvent}
    (hroom : Along (sweepStep low high) (NoOverflow low high) x es) :
    Along (sweepStep low high) SparesQueue x es ∧
        Sweeping low high (run (sweepStep low high) x es) ∨
      ¬Along (sweepStep low high) SparesQueue x es ∧
        Incomplete (run (sweepStep low high) x es) := by
  induction es generalizing x with
  | nil => exact Or.inl ⟨trivial, hx⟩
  | cons e es ih =>
    by_cases hspares : SparesQueue x e
    · refine (ih (sweeping_step hle hhigh hx e hroom.1 hspares) hroom.2).imp ?_ ?_
      · exact fun h => ⟨⟨hspares, h.1⟩, h.2⟩
      · exact fun h => ⟨fun hall => h.1 hall.2, h.2⟩
    · have hrun : Incomplete (run (sweepStep low high) (sweepStep low high x e) es) :=
        run_invariant (I := Incomplete) (C := NoOverflow low high)
          (fun _ e hx he => incomplete_step hx e he) (incomplete_of_not_spares hx hspares) hroom.2
      exact Or.inr ⟨fun hall => hspares hall.1, hrun⟩

/-! ### The host -/

theorem Sweeping.reachesHost (hx : Sweeping low high x) (rb : Ringbuffer) :
    ReachesHost low high rb x := by
  obtain ⟨rest, hshort, hsequence, -⟩ := hx.sequence
  have hlength := congrArg List.length hsequence
  rw [List.length_append, length_flatMap_specanTriples, length_sweepSequence] at hlength
  refine ⟨hx.pktType, ?_, ?_⟩
  · rw [specanStream_eq, hsequence, Sweep.packets, List.flatMap_append, List.append_assoc,
      ← length_flatMap_specanTriples, List.take_left]
  · have hwhole : 16 * (x.readings.length / 16) = 16 * x.packets.length := by omega
    rw [specanStream_eq, hsequence, hwhole, ← length_flatMap_specanTriples, List.take_left]

theorem Incomplete.not_reachesHost (hx : Incomplete x) (rb : Ringbuffer) :
    ¬ReachesHost low high rb x := by
  intro h
  obtain ⟨n, hn, hlength, -⟩ := hx.length
  have hsame := congrArg List.length h.packets
  rw [specanStream_eq, length_flatMap_specanTriples, List.length_take,
    length_sweepSequence] at hsame
  omega

theorem specanAccepts_bounds (h : specanAccepts low high = true) :
    low.toNat ≤ high.toNat ∧ high.toNat ≤ 3072 := by
  simp only [specanAccepts, Bool.not_eq_true', Bool.or_eq_false_iff, decide_eq_false_iff_not] at h
  exact ⟨not_lt.1 h.2, not_lt.1 h.1.2⟩

/-- **When a spectrum sweep is complete and in order.** Whatever bounds `UBERTOOTH_SPECAN` accepts,
in every run in which no packet is refused, the firmware sends one packet for every sixteen
measurements, and what `cb_specan` reads is each frequency from `low` to `high` in turn, again and
again, with what was read there, if and only if `UBERTOOTH_BTLE_SNIFFING` and
`UBERTOOTH_BTLE_PROMISC` never find a packet in the queue. -/
theorem sweep_complete_iff (haccepts : specanAccepts low high = true) (before : List QueueEvent)
    (m : Mode) (buf : Vector U8 dmaSize) (rb : Ringbuffer) (es : List SweepEvent)
    (hroom : Along (sweepStep low high) (NoOverflow low high) (specanBegin before m low buf) es) :
    ReachesHost low high rb (run (sweepStep low high) (specanBegin before m low buf) es) ↔
      Along (sweepStep low high) SparesQueue (specanBegin before m low buf) es := by
  obtain ⟨hle, hhigh⟩ := specanAccepts_bounds haccepts
  obtain ⟨hspares, hx⟩ | ⟨hspares, hx⟩ :=
    sweeping_or_incomplete hle hhigh (sweeping_specanBegin before m buf) hroom
  · exact iff_of_true (hx.reachesHost rb) hspares
  · exact iff_of_false (hx.not_reachesHost rb) hspares

/-- A ring buffer as `ringbuffer_init` leaves it. -/
def emptyBanks : Ringbuffer :=
  ringbufferInit (Vector.replicate numBanks {})
    (Vector.replicate numBanks (Vector.replicate bankLen 0))

/-- A sweep over 32 frequencies, of which the first packet comes in; `UBERTOOTH_BTLE_SNIFFING` finds
the queue empty while the sweep is finished. -/
theorem sweep_complete_iff_sniffing :
    let es := List.replicate 16 (.measure 0x2a00) ++ [.dequeue, .btleSniffing] ++
      List.replicate 16 (.measure 0x2b00)
    ReachesHost 2402 2433 emptyBanks (run (sweepStep 2402 2433)
      (specanBegin [] .specan 2402 (Vector.replicate dmaSize 0)) es) := by
  intro es
  exact (@sweep_complete_iff 2402 2433 (by decide) [] .specan
    (Vector.replicate dmaSize 0) emptyBanks es (by decide +kernel)).2 (by decide +kernel)

/-- The same sweep, with the first packet in the queue when the request comes: what the host reads
begins with the seventeenth frequency. -/
theorem not_sweep_complete :
    ¬∀ (low high : U16) (es : List SweepEvent), specanAccepts low high = true →
      Along (sweepStep low high) (NoOverflow low high)
        (specanBegin [] .specan low (Vector.replicate dmaSize 0)) es →
      ReachesHost low high emptyBanks (run (sweepStep low high)
        (specanBegin [] .specan low (Vector.replicate dmaSize 0)) es) := by
  intro h
  have hall := (h 2402 2433 (List.replicate 16 (.measure 0x2a00) ++ [.btleSniffing] ++
    List.replicate 16 (.measure 0x2b00) ++ [.dequeue]) (by decide) (by decide +kernel)).received
  exact absurd hall (by decide +kernel)

end Ubertooth.Capture
