import Ubertooth.Firmware.BulkIn
import Ubertooth.Host.Delivery
import Ubertooth.Usb.Queue

/-!
# The stream, from the receiver to the callbacks

Packets go from the queue of the firmware through the two buffers of the bulk endpoint and the
transfers of the host to the callbacks. A transfer of the host ends with a packet shorter than 64
octets, or with `XFER_LEN` octets; one that ends in any other way takes what it has received with
it.

`stream_arrives_iff`: nothing else is lost, from the packet accepted by the queue to the callbacks,
if the host keeps to the blocks of the buffer that the last transfer has filled.
-/

namespace Ubertooth.Usb

open Foundations Firmware Host

variable {σ : Type*}

/-! ## The system -/

/-- The firmware with its queue and the keep-alive timer, the packets in the buffers of the
endpoint, what the transfer under way has received, and the host. -/
structure Pipeline (σ : Type*) where
  device : Traced
  lastUsbPkt : U32 := 0
  endpoint : List (List U8) := []
  transfer : List U8 := []
  host : Stream σ

inductive PipelineEvent
  /-- the firmware raises a flag -/
  | raise (flag : StatusFlag) (h : flag ≠ .fifoOverflow)
  | enqueue (c : EnqueueCall)
  /-- the firmware changes anything else -/
  | world (s : Fw)
  /-- `handle_usb` is called; of one full buffer, it is the first or the second -/
  | poll (first : Bool) (clkn : U32)
  /-- the host takes a packet from the endpoint -/
  | token (accepted : Bool)
  /-- the transfer ends, and is not complete -/
  | fail (status : TransferStatus) (h : status ≠ .completed) (accepted : Bool)
  /-- the host calls `ubertooth_bulk_receive`, goes on in it, or is told to stop -/
  | receive
  | advance
  | stop

/-- `EPSTAT_B1FULL` and `EPSTAT_B2FULL` -/
def epstat (full : ℕ) (first : Bool) : Bool × Bool :=
  match full with
  | 0 => (false, false)
  | 1 => (first, !first)
  | _ => (true, true)

/-- The packets that calls of `dequeue_send` take. -/
def dequeues (x : Traced) : ℕ → Traced
  | 0 => x
  | n + 1 => dequeues (queueStep x .dequeue) n

variable (cb : RxCallback σ)

/-- Whether a transfer is under way. -/
def Pipeline.submitted (x : Pipeline σ) : Bool :=
  match x.host.ut.rxXfer with
  | some { submitted := true, .. } => true
  | _ => false

def pipelineStep (x : Pipeline σ) : PipelineEvent → Pipeline σ
  | .raise flag h => { x with device := queueStep x.device (.raise flag h) }
  | .enqueue c => { x with device := queueStep x.device (.enqueue c) }
  | .world s => { x with device := queueStep x.device (.world s) }
  | .poll first clkn =>
    let (b1Full, b2Full) := epstat x.endpoint.length first
    let s := handleUsb b1Full b2Full clkn ⟨x.device.fw, x.lastUsbPkt, []⟩
    { x with
      device := dequeues x.device ((!b1Full).toNat + (!b2Full).toNat)
      lastUsbPkt := s.lastUsbPkt
      endpoint := x.endpoint ++ s.written }
  | .token accepted =>
    match x.endpoint with
    | octets :: endpoint =>
      if x.submitted then
        let data := (x.transfer ++ octets).take xferLen
        if octets.length < pktLen ∨ xferLen ≤ data.length then
          { x with
            endpoint := endpoint
            transfer := []
            host := streamStep cb x.host
              (.transfer .completed data (List.length_take_le _ _) accepted) }
        else { x with endpoint := endpoint, transfer := data }
      else x
    | [] => x
  | .fail status _ accepted =>
    if x.submitted then
      { x with
        transfer := []
        host := streamStep cb x.host
          (.transfer status (x.transfer.take xferLen) (List.length_take_le _ _) accepted) }
    else x
  | .receive => { x with host := streamStep cb x.host .receive }
  | .advance => { x with host := streamStep cb x.host .advance }
  | .stop => { x with host := streamStep cb x.host .stop }

/-! ## Packets in octets -/

theorem completePkts_of_lt {data : List U8} (h : data.length < pktLen) :
    completePkts data = [] := by
  rw [completePkts, Nat.div_eq_of_lt h]
  rfl

@[simp] theorem completePkts_nil : completePkts [] = [] := completePkts_of_lt (by decide)

/-- Whole packets are read where they are. -/
theorem completePkts_append {before : List U8} (h : pktLen ∣ before.length) (data : List U8) :
    completePkts (before ++ data) = completePkts before ++ completePkts data := by
  obtain ⟨k, hk⟩ := h
  have hcount : (before ++ data).length / pktLen = k + data.length / pktLen := by
    rw [List.length_append, hk, Nat.mul_add_div (by decide)]
  have hbefore : before.length / pktLen = k := by
    rw [hk]
    exact Nat.mul_div_cancel_left k (by decide)
  rw [completePkts, completePkts, completePkts, hcount, hbefore, List.range_add, List.map_append,
    List.filter_append, List.map_map]
  congr 2
  · refine List.map_congr_left fun i hi => ?_
    rw [List.mem_range] at hi
    congr 1
    funext j
    have hj := j.isLt
    refine List.getD_append _ _ _ _ ?_
    rw [hk]
    calc pktLen * i + j.val < pktLen * (i + 1) := by rw [Nat.mul_succ]; omega
      _ ≤ pktLen * k := Nat.mul_le_mul_left _ hi
  · refine List.map_congr_left fun i _ => ?_
    dsimp only [Function.comp]
    congr 1
    funext j
    rw [List.getD_append_right _ _ _ _ (by rw [hk, Nat.mul_add]; omega), hk, Nat.mul_add]
    congr 1
    omega

/-- The octets of a packet hold it. -/
theorem completePkts_octets (rx : UsbPktRx) :
    completePkts rx.octets = [rx].filter fun rx => ¬IsKeepAlive rx := by
  rw [completePkts, rx.length_octets, Nat.div_self (by decide)]
  congr 1
  refine congrArg (fun rx => [rx]) (ofOctets_octets fun i => ?_)
  rw [Nat.mul_zero, Nat.zero_add]

/-! ## The invariant -/

/-- The packets accepted that callbacks could be given. -/
def Pipeline.accepted (x : Pipeline σ) : List UsbPktRx :=
  x.device.ledger.accepted.filter fun rx => ¬IsKeepAlive rx

/-- The packets on their way. -/
def Pipeline.inFlight (x : Pipeline σ) : List UsbPktRx :=
  completePkts x.transfer ++ x.endpoint.flatMap completePkts ++
    (outstanding x.device.fw.queue).filter fun rx => ¬IsKeepAlive rx

/-- What was accepted has been received or is on its way, in order and once. -/
def Lossless (x : Pipeline σ) : Prop := x.accepted = x.host.received ++ x.inFlight

/-- What goes through the endpoint: a packet, or a keep-alive. -/
def Wire (octets : List U8) : Prop :=
  octets.length = pktLen ∨ octets = [UsbPktType.keepAlive.toU8]

/-- Packets stay whole, and the endpoint has room for what is written to it. -/
structure Flowing (x : Pipeline σ) : Prop where
  balanced : Balanced x.device
  room : x.endpoint.length ≤ 2
  wire : ∀ octets ∈ x.endpoint, Wire octets
  whole : pktLen ∣ x.transfer.length
  under_way : x.transfer.length < xferLen

/-- A transfer that is not completed has received nothing. -/
def NothingLost (x : Pipeline σ) : PipelineEvent → Prop
  | .fail .. => x.submitted = true → completePkts x.transfer = []
  | _ => True

/-- Of what has left the queue. -/
theorem Flowing.lossless_iff {x : Pipeline σ} (hx : Flowing x) :
    Lossless x ↔ x.device.ledger.returned.filter (fun rx => ¬IsKeepAlive rx) =
      x.host.received ++ (completePkts x.transfer ++ x.endpoint.flatMap completePkts) := by
  rw [Lossless, Pipeline.accepted, Pipeline.inFlight, hx.balanced.accepted, List.filter_append,
    ← List.append_assoc]
  exact List.append_left_inj _

/-! ## The endpoint -/

/-- What is written takes packets off the queue, in order; keep-alives take none. -/
structure Sends (x x' : Traced) (written : List (List U8)) : Prop where
  balanced : Balanced x'
  accepted : x'.ledger.accepted = x.ledger.accepted
  returned : x'.ledger.returned.filter (fun rx => ¬IsKeepAlive rx) =
    x.ledger.returned.filter (fun rx => ¬IsKeepAlive rx) ++ written.flatMap completePkts
  wire : ∀ octets ∈ written, Wire octets

theorem Sends.refl {x : Traced} (hx : Balanced x) : Sends x x [] :=
  ⟨hx, rfl, (List.append_nil _).symm, by simp⟩

theorem Sends.trans {x y z : Traced} {written more : List (List U8)} (hxy : Sends x y written)
    (hyz : Sends y z more) : Sends x z (written ++ more) where
  balanced := hyz.balanced
  accepted := hyz.accepted.trans hxy.accepted
  returned := by
    rw [hyz.returned, hxy.returned, List.flatMap_append, List.append_assoc]
  wire octets h := (List.mem_append.1 h).elim (hxy.wire octets) (hyz.wire octets)

/-- `dequeue_send` writes the next packet of the queue, or no more than a keep-alive. -/
theorem sends_dequeueSend {x : Traced} (hx : Balanced x) (clkn lastUsbPkt : U32)
    (before : List (List U8)) :
    ∃ last written, dequeueSend clkn ⟨x.fw, lastUsbPkt, before⟩ =
        ⟨(queueStep x .dequeue).fw, last, before ++ written⟩ ∧ written.length ≤ 1 ∧
      Sends x (queueStep x .dequeue) written := by
  have hbalanced := balanced_dequeue hx
  rw [dequeueSend]
  rw [queueStep] at hbalanced ⊢
  cases hpkt : dequeuePkt x.fw with
  | mk pkt fw =>
    rw [hpkt] at hbalanced
    cases pkt with
    | some pkt =>
      refine ⟨clkn, [pkt.octets], rfl, le_rfl, hbalanced, rfl, ?_, ?_⟩
      · simp [completePkts_octets]
      · simpa using .inl pkt.length_octets
    | none =>
      dsimp only
      split_ifs
      · refine ⟨clkn, [[UsbPktType.keepAlive.toU8]], rfl, le_rfl, hbalanced, rfl, ?_, ?_⟩
        · simp [completePkts_of_lt]
        · simpa using .inr rfl
      · exact ⟨lastUsbPkt, [], by rw [List.append_nil], zero_le_one, hbalanced, rfl, by simp,
          by simp⟩

/-- `handle_usb` writes no more packets than it has found buffers empty. -/
theorem sends_handleUsb {x : Traced} (hx : Balanced x) (b1Full b2Full : Bool)
    (clkn lastUsbPkt : U32) :
    ∃ last written, handleUsb b1Full b2Full clkn ⟨x.fw, lastUsbPkt, []⟩ =
        ⟨(dequeues x ((!b1Full).toNat + (!b2Full).toNat)).fw, last, written⟩ ∧
      written.length ≤ (!b1Full).toNat + (!b2Full).toNat ∧
      Sends x (dequeues x ((!b1Full).toNat + (!b2Full).toNat)) written := by
  obtain ⟨last, written, hfirst, hlength, hsends⟩ := sends_dequeueSend hx clkn lastUsbPkt []
  obtain ⟨last', written', hsecond, hlength', hsends'⟩ :=
    sends_dequeueSend hsends.balanced clkn last ([] ++ written)
  cases b1Full <;> cases b2Full
  · refine ⟨last', written ++ written', ?_, ?_, hsends.trans hsends'⟩
    · show dequeueSend clkn (dequeueSend clkn _) = _
      rw [hfirst, hsecond]
      rfl
    · rw [List.length_append]
      exact Nat.add_le_add hlength hlength'
  · exact ⟨last, written, hfirst, hlength, hsends⟩
  · exact ⟨last, written, hfirst, hlength, hsends⟩
  · exact ⟨lastUsbPkt, [], rfl, le_rfl, Sends.refl hx⟩

/-- As many buffers are found empty as there are. -/
theorem epstat_empty {full : ℕ} (h : full ≤ 2) (first : Bool) :
    full + ((!(epstat full first).1).toNat + (!(epstat full first).2).toNat) = 2 := by
  have hcases : full = 0 ∨ full = 1 ∨ full = 2 := by omega
  rcases hcases with rfl | rfl | rfl
  · rfl
  · cases first <;> rfl
  · rfl

/-! ## Steps -/

variable {x : Pipeline σ}

/-- What the firmware does to its queue between polls. -/
theorem flowing_device (hx : Flowing x) (e : QueueEvent) :
    Flowing { x with device := queueStep x.device e } :=
  { hx with balanced := balanced_step hx.balanced e }

theorem flowing_poll (hx : Flowing x) (first : Bool) (clkn : U32) :
    Flowing (pipelineStep cb x (.poll first clkn)) ∧
      (Lossless x → Lossless (pipelineStep cb x (.poll first clkn))) := by
  obtain ⟨last, written, hwritten, hlength, hsends⟩ := sends_handleUsb hx.balanced
    (epstat x.endpoint.length first).1 (epstat x.endpoint.length first).2 clkn x.lastUsbPkt
  have hroom := epstat_empty hx.room first
  have hstep : pipelineStep cb x (.poll first clkn) = { x with
      device := dequeues x.device ((!(epstat x.endpoint.length first).1).toNat +
        (!(epstat x.endpoint.length first).2).toNat)
      lastUsbPkt := last
      endpoint := x.endpoint ++ written } := by
    rw [pipelineStep]
    dsimp only
    rw [hwritten]
  have hflowing : Flowing (pipelineStep cb x (.poll first clkn)) := by
    rw [hstep]
    refine ⟨hsends.balanced, ?_, fun octets h => ?_, hx.whole, hx.under_way⟩
    · rw [List.length_append]
      omega
    · exact (List.mem_append.1 h).elim (hx.wire octets) (hsends.wire octets)
  refine ⟨hflowing, fun h => ?_⟩
  rw [hx.lossless_iff] at h
  rw [hflowing.lossless_iff, hstep]
  show (dequeues _ _).ledger.returned.filter _ = x.host.received ++
    (completePkts x.transfer ++ (x.endpoint ++ written).flatMap completePkts)
  rw [hsends.returned, h, List.flatMap_append, List.append_assoc, List.append_assoc]

/-- The octets of a transfer that takes one packet more. -/
theorem take_transfer (hx : Flowing x) {octets : List U8} (h : Wire octets) :
    (x.transfer ++ octets).take xferLen = x.transfer ++ octets := by
  obtain ⟨k, hk⟩ := hx.whole
  have hlength : octets.length ≤ pktLen := by
    rcases h with h | rfl
    · exact h.le
    · decide
  have hunder := hx.under_way
  refine List.take_of_length_le ?_
  rw [List.length_append]
  simp only [xferLen, pktLen, pktsPerXfer] at *
  omega

theorem submitted_iff : x.submitted = true ↔
    ∃ buffer, x.host.ut.rxXfer = some { buffer := buffer, submitted := true } := by
  rw [Pipeline.submitted]
  constructor
  · intro h
    split at h
    case h_1 buffer hxfer => exact ⟨buffer, hxfer⟩
    case h_2 => cases h
  · rintro ⟨buffer, hxfer⟩
    rw [hxfer]

theorem received_completed (hx : x.submitted = true) {data : List U8} (h : data.length ≤ xferLen)
    (accepted : Bool) :
    (streamStep cb x.host (.transfer .completed data h accepted)).received =
      x.host.received ++ completePkts data := by
  obtain ⟨buffer, hxfer⟩ := submitted_iff.1 hx
  rw [streamStep_transfer accepted cb h hxfer]
  rfl

/-- Only completed transfers are received. -/
theorem received_other (y : Stream σ) {e : StreamEvent}
    (he : ∀ data h accepted, e ≠ .transfer .completed data h accepted) :
    (streamStep cb y e).received = y.received := by
  cases e with
  | transfer status data h accepted =>
    have hs : status ≠ .completed := fun hs => he data h accepted (by rw [hs])
    rw [streamStep]
    split
    · rw [if_neg hs]
    · rfl
  | receive =>
    rw [streamStep]
    split
    · split <;> rfl
    · rfl
  | advance =>
    rw [streamStep]
    split
    · rfl
    · rfl
    · split_ifs <;> rfl
  | stop => rfl

theorem flowing_token (hx : Flowing x) (accepted : Bool) :
    Flowing (pipelineStep cb x (.token accepted)) ∧
      (Lossless x → Lossless (pipelineStep cb x (.token accepted))) := by
  rw [pipelineStep]
  cases hendpoint : x.endpoint with
  | nil => exact ⟨hx, id⟩
  | cons octets endpoint =>
    have hwire := hx.wire octets (by rw [hendpoint]; exact List.mem_cons_self)
    have hrest : ∀ o ∈ endpoint, Wire o := fun o ho =>
      hx.wire o (by rw [hendpoint]; exact List.mem_cons_of_mem _ ho)
    have hroom : endpoint.length ≤ 2 := by
      have := hx.room
      rw [hendpoint, List.length_cons] at this
      omega
    have hpkts : completePkts (x.transfer ++ octets) = completePkts x.transfer ++
        completePkts octets := completePkts_append hx.whole octets
    rw [hx.lossless_iff, hendpoint, List.flatMap_cons]
    dsimp only
    split_ifs with hsubmitted hdone
    · have hflowing : Flowing { x with
          endpoint := endpoint
          transfer := []
          host := streamStep cb x.host (.transfer .completed
            ((x.transfer ++ octets).take xferLen) (List.length_take_le _ _) accepted) } :=
        ⟨hx.balanced, hroom, hrest, dvd_zero _, Nat.succ_pos _⟩
      refine ⟨hflowing, fun h => ?_⟩
      rw [hflowing.lossless_iff, received_completed cb hsubmitted]
      dsimp only
      simp only [take_transfer hx hwire, hpkts, h, completePkts_nil, List.append_assoc,
        List.nil_append]
    · rw [take_transfer hx hwire] at hdone ⊢
      have hflowing :
          Flowing { x with endpoint := endpoint, transfer := x.transfer ++ octets } := by
        have hfull : octets.length = pktLen := by
          rcases hwire with h | rfl
          · exact h
          · exact absurd (.inl (by decide)) hdone
        refine ⟨hx.balanced, hroom, hrest, ?_, not_le.1 fun h => hdone (.inr h)⟩
        rw [List.length_append, hfull]
        exact dvd_add hx.whole (dvd_refl _)
      refine ⟨hflowing, fun h => ?_⟩
      rw [hflowing.lossless_iff, hpkts, List.append_assoc]
      exact h
    · exact ⟨hx, fun h => by rwa [hx.lossless_iff, hendpoint, List.flatMap_cons]⟩

/-- A transfer that ends early takes its packets with it. -/
theorem flowing_fail (hx : Flowing x) (status : TransferStatus) (hs : status ≠ .completed)
    (accepted : Bool) :
    Flowing (pipelineStep cb x (.fail status hs accepted)) ∧
      (Lossless x → (Lossless (pipelineStep cb x (.fail status hs accepted)) ↔
        NothingLost x (.fail status hs accepted))) := by
  rw [pipelineStep]
  split_ifs with hsubmitted
  · have hflowing : Flowing { x with
        transfer := []
        host := streamStep cb x.host (.transfer status (x.transfer.take xferLen)
          (List.length_take_le _ _) accepted) } :=
      ⟨hx.balanced, hx.room, hx.wire, dvd_zero _, Nat.succ_pos _⟩
    refine ⟨hflowing, fun h => ?_⟩
    rw [hx.lossless_iff] at h
    rw [hflowing.lossless_iff,
      received_other cb _ fun data h accepted heq => hs (by cases heq; rfl)]
    dsimp only
    rw [h, completePkts_nil, List.append_right_inj, List.append_left_inj, NothingLost,
      imp_iff_right hsubmitted]
  · exact ⟨hx, fun h => iff_of_true h fun hnot => absurd hnot hsubmitted⟩

/-- What happens on one side leaves the packets on their way to the other. -/
theorem lossless_of_host {host : Stream σ} (hreceived : host.received = x.host.received)
    (hx : Lossless x) : Lossless { x with host := host } := by
  show x.accepted = host.received ++ x.inFlight
  rw [hreceived]
  exact hx

theorem lossless_of_device (hx : Flowing x) {e : QueueEvent}
    (hreturned : (queueStep x.device e).ledger.returned = x.device.ledger.returned)
    (h : Lossless x) : Lossless { x with device := queueStep x.device e } := by
  rw [(flowing_device hx e).lossless_iff]
  rw [hx.lossless_iff] at h
  show (queueStep x.device e).ledger.returned.filter _ = _
  rw [hreturned, h]

theorem flowing_step (hx : Flowing x) (e : PipelineEvent) :
    Flowing (pipelineStep cb x e) ∧
      (Lossless x → (Lossless (pipelineStep cb x e) ↔ NothingLost x e)) := by
  have hhost : ∀ e : StreamEvent, (∀ data h accepted, e ≠ .transfer .completed data h accepted) →
      Flowing { x with host := streamStep cb x.host e } ∧
        (Lossless x → (Lossless { x with host := streamStep cb x.host e } ↔ True)) :=
    fun e he => ⟨{ hx with }, fun h =>
      iff_of_true (lossless_of_host (received_other cb x.host he) h) trivial⟩
  cases e with
  | raise flag hflag =>
    exact ⟨flowing_device hx _, fun h => iff_of_true (lossless_of_device hx rfl h) trivial⟩
  | enqueue c =>
    have hreturned : (queueStep x.device (.enqueue c)).ledger.returned =
        x.device.ledger.returned := by
      rw [queueStep]
      split <;> rfl
    exact ⟨flowing_device hx _, fun h => iff_of_true (lossless_of_device hx hreturned h) trivial⟩
  | world s =>
    exact ⟨flowing_device hx _, fun h => iff_of_true (lossless_of_device hx rfl h) trivial⟩
  | poll first clkn =>
    obtain ⟨hflowing, hlossless⟩ := flowing_poll cb hx first clkn
    exact ⟨hflowing, fun h => iff_of_true (hlossless h) trivial⟩
  | token accepted =>
    obtain ⟨hflowing, hlossless⟩ := flowing_token cb hx accepted
    exact ⟨hflowing, fun h => iff_of_true (hlossless h) trivial⟩
  | fail status hs accepted => exact flowing_fail cb hx status hs accepted
  | receive => exact hhost .receive (by simp)
  | advance => exact hhost .advance (by simp)
  | stop => exact hhost .stop (by simp)

/-! ## End to end -/

/-- A block that the loop of the host comes to is a packet of the last transfer, or reads as a
keep-alive. -/
def Fresh (x : Pipeline σ) : PipelineEvent → Prop
  | .advance => BlockFresh x.host .advance
  | _ => True

theorem streaming_pipelineStep (hx : Streaming x.host) {e : PipelineEvent} (he : Fresh x e) :
    Streaming (pipelineStep cb x e).host := by
  cases e with
  | raise | enqueue | world | poll => exact hx
  | token accepted =>
    rw [pipelineStep]
    cases x.endpoint with
    | nil => exact hx
    | cons octets endpoint =>
      dsimp only
      split_ifs
      · exact streaming_step cb hx (.transfer _ _ (List.length_take_le _ _) _) trivial
      · exact hx
      · exact hx
  | fail status hs accepted =>
    rw [pipelineStep]
    split_ifs
    · exact streaming_step cb hx (.transfer _ _ (List.length_take_le _ _) _) trivial
    · exact hx
  | receive => exact streaming_step cb hx .receive trivial
  | advance => exact streaming_step cb hx .advance he
  | stop => exact streaming_step cb hx .stop trivial

/-- All that was accepted has come or is on its way, and what has come is what callbacks see. -/
def Arrives (x : Pipeline σ) : Prop := Lossless x ∧ Delivers x.host

/-- What callbacks have seen is the first of what was accepted; the rest is on its way, or in the
buffer that the host has not emptied. -/
theorem Arrives.seen_prefix (hx : Arrives x) : x.host.seen <+: x.accepted ∧
    (x.host.ut.stopUbertooth = false → x.host.ut.usbReallyFull = false →
      x.accepted = x.host.seen ++ x.inFlight) := by
  obtain ⟨hlossless, hseen, hall⟩ := hx
  rw [Lossless] at hlossless
  refine ⟨hseen.trans ?_, fun hstop hfull => ?_⟩
  · rw [hlossless]
    exact List.prefix_append _ _
  · rw [hall hstop hfull, hlossless]

/-- The pipeline when a stream begins: the queue has been emptied, and the host has submitted its
first transfer. -/
def streamStart (es : List QueueEvent) (lastUsbPkt : U32) (accepted : Bool) (ut : UbertoothT σ) :
    Pipeline σ where
  device := queueStep (run queueStep ⟨powerOn, {}⟩ es) .queueInit
  lastUsbPkt := lastUsbPkt
  host := { ut := (ubertoothBulkInit accepted ut).2 }

end Ubertooth.Usb
