import Ubertooth.Firmware.BulkIn
import Ubertooth.Firmware.Frames
import Ubertooth.Usb.Poll
import Ubertooth.Usb.HostCalls

/-!
# Packets that the host polls

`ubertooth-btle` asks for packets one at a time, by `UBERTOOTH_POLL`, until a request fails, while
the main loop of the firmware may be anywhere inside `enqueue`. The loop of the host over endpoint 0
does to the queue what the polls of `Loop` do, and what `cb_btle` is called for is what was polled.
But polls are not all that takes packets out of the queue: each mode begins with `queue_init`, two
requests call it in the interrupt, and `handle_usb` sends packets over the bulk endpoint. Every
packet is seen, in order, as long as these find nothing to take (`polled_in_order_iff`).
-/

namespace Ubertooth.Usb

open Foundations Firmware Host

variable {ρ : Type} (build : Build) (board : Board ρ) (layout : UsbLayout)

/-! ## The host -/

/-- `cmd_poll`: what it has stored at `p`, unless the transfer fails. -/
def cmdPoll (before after : List EpCommand) (fetched : Bool) : Option (List U8) :=
  if fetched then gather maxPacketSize0 pktLen (writes (after.drop before.length)) else none

theorem cmdPoll_true (before after : List EpCommand) :
    cmdPoll before after true =
      gather maxPacketSize0 pktLen (writes (after.drop before.length)) := if_pos rfl

/-- `UBERTOOTH_POLL`, whoever makes it. -/
def PollRequest (packet : SetupPacket) : Prop :=
  reqtypeGetType packet.bmRequestType = reqtypeTypeVendor ∧
    packet.bRequest = UsbCommand.poll.toU8

/-- The two requests that call `queue_init`. -/
def QueueInitRequest (packet : SetupPacket) : Prop :=
  reqtypeGetType packet.bmRequestType = reqtypeTypeVendor ∧
    (packet.bRequest = UsbCommand.btleSniffing.toU8 ∨
      packet.bRequest = UsbCommand.btlePromisc.toU8)

/-- A transfer that comes to one of them. -/
def CallsQueueInit (t : ControlTransfer) : Prop := t.complete = true ∧ QueueInitRequest t.packet

/-- The loop of `ubertooth-btle` over a device: the slot that the main loop of the firmware is
filling, the packets completed, and those that `cb_btle` was called for. -/
structure PollLoop (ρ : Type) where
  pipe : ControlPipe (VendorState ρ)
  filling : Option (Fin 128 × List SlotWrite) := none
  completed : List UsbPktRx := []
  running : Bool := true
  seen : List UsbPktRx := []

inductive PollLoopEvent (ρ : Type)
  /-- a call of `enqueue` or `enqueue_with_ts` reserves its slot -/
  | reserve (c : EnqueueCall)
  /-- the call makes its next assignment -/
  | write
  /-- a mode begins -/
  | queueInit
  /-- a call of `dequeue_send`, with its clock and `last_usb_pkt` -/
  | dequeueSend (clkn lastUsbPkt : U32)
  /-- the firmware does anything that leaves the queue alone -/
  | firmware (f : VendorState ρ → VendorState ρ)
  /-- any control transfer but a poll, carried out or given up -/
  | transfer (t : ControlTransfer) (h : ¬PollRequest t.packet)
  /-- the loop polls; `fetched` says whether the answer comes in time -/
  | poll (tokens : List EpInterrupt) (h : ∀ e ∈ tokens, e = .inn ∨ e = .out (some []))
      (fetched : Bool)

/-- The main loop of the firmware, with the packets polled. -/
def PollLoop.loop (x : PollLoop ρ) (polled : List UsbPktRx) : Loop :=
  ⟨x.pipe.app.device.fw, x.filling, x.completed, polled⟩

/-- The main loop of the firmware goes on. -/
def PollLoop.goOn (x : PollLoop ρ) (e : LoopEvent) : PollLoop ρ :=
  let l := loopStep (x.loop []) e
  { x with
    pipe := { x.pipe with
      app := { x.pipe.app with device := { x.pipe.app.device with fw := l.fw } } }
    filling := l.filling
    completed := l.completed }

/-- The device with the firmware in another state. -/
def withFw (p : ControlPipe (VendorState ρ)) (s : Fw) : ControlPipe (VendorState ρ) :=
  { p with app := { p.app with device := { p.app.device with fw := s } } }

/-- What the main loop does to the queue between two calls of `enqueue`. -/
def PollLoop.betweenCalls (x : PollLoop ρ) (f : Fw → Fw) : PollLoop ρ :=
  if x.filling.isSome then x else { x with pipe := withFw x.pipe (f x.pipe.app.device.fw) }

theorem betweenCalls_of_none {x : PollLoop ρ} (h : x.filling = none) (f : Fw → Fw) :
    x.betweenCalls f = { x with pipe := withFw x.pipe (f x.pipe.app.device.fw) } :=
  if_neg (by simp [h])

theorem betweenCalls_of_some {x : PollLoop ρ} (h : x.filling ≠ none) (f : Fw → Fw) :
    x.betweenCalls f = x :=
  if_pos (Option.isSome_iff_ne_none.2 h)

/-- What the loop does with the answer to a poll. -/
def PollLoop.answered (x : PollLoop ρ) : Option (List U8) → PollLoop ρ
  | none => { x with running := false }
  | some octets =>
    { x with seen := if octets.length = pktLen then x.seen ++ [packetOf octets] else x.seen }

def pollLoopStep (x : PollLoop ρ) : PollLoopEvent ρ → PollLoop ρ
  | .reserve c => x.goOn (.reserve c)
  | .write => x.goOn .write
  | .queueInit => x.betweenCalls Firmware.queueInit
  | .dequeueSend clkn lastUsbPkt =>
    x.betweenCalls fun s => (Firmware.dequeueSend clkn { fw := s, lastUsbPkt := lastUsbPkt }).fw
  | .firmware f =>
    let s := f x.pipe.app
    { x with
      pipe := { x.pipe with
        app := { s with device := { s.device with
          fw := { s.device.fw with queue := x.pipe.app.device.fw.queue } } } } }
  | .transfer t _ =>
    { x with
      pipe := run (usbHandleControlTransfer (ubertoothUsbInit build board layout)) x.pipe
        t.interrupts }
  | .poll tokens _ fetched =>
    if x.running then
      let pipe := run (usbHandleControlTransfer (ubertoothUsbInit build board layout)) x.pipe
        (setupIn UsbCommand.poll.toU8 0 0 (BitVec.ofNat 16 pktLen) :: tokens)
      PollLoop.answered { x with pipe := pipe } (cmdPoll x.pipe.told pipe.told fetched)
    else x

/-- As long as the loop runs, a poll that is answered while the main loop is inside a call finds an
earlier packet in the queue, and what else empties the queue or takes from it finds it empty. -/
def KeepsPackets (x : PollLoop ρ) (e : PollLoopEvent ρ) : Prop :=
  x.running = true →
    match e with
    | .poll _ _ fetched =>
      fetched = true → x.filling ≠ none → 1 < count x.pipe.app.device.fw.queue
    | .queueInit | .dequeueSend _ _ => x.filling = none → count x.pipe.app.device.fw.queue = 0
    | .transfer t _ => CallsQueueInit t → count x.pipe.app.device.fw.queue = 0
    | _ => True

/-! ## What a request does to the queue -/

theorem queue_vendorRequest {c : UsbCommand} (hpoll : c ≠ .poll) (hsniffing : c ≠ .btleSniffing)
    (hpromisc : c ≠ .btlePromisc) (params : U16 × U16) (data : ℕ → U8) (s : VendorState ρ) :
    (vendorRequest build board c.toU8 params data s).state.device.fw.queue =
      s.device.fw.queue := by
  rw [vendorRequest, UsbCommand.ofU8_toU8]
  cases c
  case poll => exact absurd rfl hpoll
  case btleSniffing => exact absurd rfl hsniffing
  case btlePromisc => exact absurd rfl hpromisc
  case setChannel =>
    dsimp only
    split_ifs
    all_goals
      show (setChannel _ s.device).fw.queue = _
      rw [setChannel]
      split_ifs <;> first | rfl | exact csThresholdCalcAndSet_queue _
  case setSquelch | setClock => exact csThresholdCalcAndSet_queue _
  all_goals first | rfl | (dsimp only; split_ifs <;> rfl)

section Requests

variable {build board layout}

theorem queue_queueInitRequest {d : ControlDevice (VendorState ρ)} {packet : SetupPacket}
    (h : QueueInitRequest packet) :
    (d.request (ubertoothUsbInit build board layout) packet).app.device.fw.queue = {} := by
  obtain ⟨hvendor, hc | hc⟩ := h
  · rw [app_request, if_pos hvendor, hc, if_neg UsbCommand.btleSniffing.toU8_ne]
    exact (btleSniffing_queue d.app.device.fw).1
  · rw [app_request, if_pos hvendor, hc, if_neg UsbCommand.btlePromisc.toU8_ne]
    exact (btlePromisc_queue d.app.device.fw).1

/-- Other requests leave the queue alone. -/
theorem queue_request {d : ControlDevice (VendorState ρ)} {packet : SetupPacket}
    (hpoll : ¬PollRequest packet) (hinit : ¬QueueInitRequest packet) :
    (d.request (ubertoothUsbInit build board layout) packet).app.device.fw.queue =
      d.app.device.fw.queue := by
  rw [app_request]
  split_ifs with hvendor hos
  · rfl
  · cases hcommand : UsbCommand.ofU8 packet.bRequest with
    | none =>
      rw [vendorRequest, hcommand]
      rfl
    | some c =>
      have hc := UsbCommand.toU8_of_ofU8 hcommand
      rw [← hc]
      refine queue_vendorRequest build board ?_ ?_ ?_ _ _ _
      · exact fun h => hpoll ⟨hvendor, by rw [← hc, h]⟩
      · exact fun h => hinit ⟨hvendor, .inl (by rw [← hc, h])⟩
      · exact fun h => hinit ⟨hvendor, .inr (by rw [← hc, h])⟩
  · rfl
  · rfl

/-- A transfer comes to its request, or leaves the queue alone. -/
theorem app_transfer (p : ControlPipe (VendorState ρ)) (t : ControlTransfer) :
    ∃ d : ControlDevice (VendorState ρ), d.app = p.app ∧
      (run (usbHandleControlTransfer (ubertoothUsbInit build board layout)) p
        t.interrupts).app = if t.complete = true then
          (d.request (ubertoothUsbInit build board layout) t.packet).app else p.app := by
  have hdevice : deviceOf _ = _ := deviceOf_transfer (ubertoothUsbInit build board layout) p t
  have happ := congrArg ControlDevice.app hdevice
  obtain ⟨d, hd, hcarried⟩ := app_carriedOut (ubertoothUsbInit build board layout) (deviceOf p) t
  rw [hcarried, apply_ite ControlDevice.app, hd] at happ
  exact ⟨d, hd, happ⟩

theorem queue_transfer_of_init (p : ControlPipe (VendorState ρ)) {t : ControlTransfer}
    (h : CallsQueueInit t) :
    (run (usbHandleControlTransfer (ubertoothUsbInit build board layout)) p
      t.interrupts).app.device.fw.queue = {} := by
  obtain ⟨d, -, happ⟩ := @app_transfer _ build board layout p t
  rw [happ, if_pos h.1]
  exact queue_queueInitRequest h.2

theorem queue_transfer_of_not (p : ControlPipe (VendorState ρ)) {t : ControlTransfer}
    (hpoll : ¬PollRequest t.packet) (hinit : ¬CallsQueueInit t) :
    (run (usbHandleControlTransfer (ubertoothUsbInit build board layout)) p
      t.interrupts).app.device.fw.queue = p.app.device.fw.queue := by
  obtain ⟨d, hd, happ⟩ := @app_transfer _ build board layout p t
  rw [happ]
  split_ifs with hcomplete
  · rw [queue_request hpoll fun h => hinit ⟨hcomplete, h⟩, hd]
  · rfl

end Requests

/-- What a poll replies. -/
def pollReply (packet : Option UsbPktRx) : List U8 :=
  match packet with
  | some rx => rx.octets
  | none => [0]

/-- What a poll brings, and what it takes from the queue. -/
theorem poll_answer (hlayout : 0 < layout.abVendorReqData) (p : ControlPipe (VendorState ρ))
    {tokens : List EpInterrupt} (htokens : ∀ e ∈ tokens, e = .inn ∨ e = .out (some [])) :
    let p' := run (usbHandleControlTransfer (ubertoothUsbInit build board layout)) p
      (setupIn UsbCommand.poll.toU8 0 0 (BitVec.ofNat 16 pktLen) :: tokens)
    p'.app.device.fw = (dequeuePkt p.app.device.fw).2 ∧
      gather maxPacketSize0 pktLen (writes (p'.told.drop p.told.length)) =
        some (pollReply (dequeuePkt p.app.device.fw).1) := by
  intro p'
  obtain ⟨happ, hreply, -⟩ := vendorIn_handled build board layout p hlayout
    ⟨ctrlIn, UsbCommand.poll.toU8, 0, 0, BitVec.ofNat 16 pktLen⟩ reqtypeGetType_ctrlIn
    reqtypeGetDir_ctrlIn UsbCommand.poll.toU8_ne htokens
  dsimp only at happ hreply
  have hanswer : ∀ data, vendorRequest build board UsbCommand.poll.toU8 (0, 0) data p.app =
      (p.app.request .poll).replyWith (pollReply (dequeuePkt p.app.device.fw).1) := fun data => by
    rw [vendorRequest, UsbCommand.ofU8_toU8]
    rfl
  rw [hanswer] at happ hreply
  obtain ⟨htold, hgather⟩ := hreply rfl
  have hlen : (pollReply (dequeuePkt p.app.device.fw).1).length = pktLen ∨
      (pollReply (dequeuePkt p.app.device.fw).1).length = 1 := by
    cases (dequeuePkt p.app.device.fw).1 with
    | none => exact .inr rfl
    | some rx => exact .inl rx.length_octets
  have hasked : (BitVec.ofNat 16 pktLen).toNat = pktLen := rfl
  have hfits : (pollReply (dequeuePkt p.app.device.fw).1).length ≤ pktLen := by
    rcases hlen with h | h <;> rw [h]
    decide
  rw [replyOctets_replyWith _ (hasked ▸ hfits)] at htold hgather
  refine ⟨?_, ?_⟩
  · rw [show p'.app = _ from happ]
    rfl
  · rw [show p'.told = _ from htold, List.drop_left, writes_map]
    refine (hgather (by decide)).trans (if_pos ?_)
    rw [hasked]
    rcases hlen with h | h <;> rw [h]
    · exact Nat.le_add_left 1 _
    · exact Nat.le_add_left 1 _

/-- `dequeue_send` takes the first packet from the queue. -/
theorem fw_dequeueSend (clkn : U32) (s : BulkIn) :
    (dequeueSend clkn s).fw = (dequeuePkt s.fw).2 := by
  rw [dequeueSend]
  split
  case h_1 h => rw [h]; rfl
  case h_2 h =>
    rw [h]
    split_ifs <;> rfl

theorem queue_dequeueSend (clkn lastUsbPkt : U32) {s : Fw} (hempty : count s.queue = 0) :
    (dequeueSend clkn { fw := s, lastUsbPkt := lastUsbPkt }).fw.queue = s.queue := by
  rw [fw_dequeueSend, dequeuePkt_of_empty hempty]

theorem count_dequeueSend (clkn lastUsbPkt : U32) {s : Fw} (hpos : 0 < count s.queue)
    (hle : count s.queue ≤ 127) :
    count (dequeueSend clkn { fw := s, lastUsbPkt := lastUsbPkt }).fw.queue < count s.queue := by
  rw [fw_dequeueSend, dequeuePkt_of_pos hpos hle]
  exact (count_succ_head hpos).trans_lt (Nat.sub_one_lt hpos.ne')

/-! ## The loop -/

/-- `cb_btle` was called for what was polled, as long as the loop runs. -/
structure Polled (x : PollLoop ρ) : Prop where
  seen : x.seen <+: x.completed
  running : x.running = true → Consistent (x.loop x.seen)

variable {x : PollLoop ρ}

/-- What is polled does not matter to a step that is none. -/
theorem loopStep_loop {e : LoopEvent} (he : e ≠ .poll) (polled : List UsbPktRx) :
    loopStep (x.loop polled) e = (x.goOn e).loop polled := by
  cases e with
  | poll => exact absurd rfl he
  | reserve c =>
    cases hf : x.filling with
    | some _ => simp [loopStep, PollLoop.goOn, PollLoop.loop, hf]
    | none =>
      dsimp only [loopStep, PollLoop.goOn, PollLoop.loop]
      rw [hf]
      dsimp only
      split <;> rfl
  | write =>
    dsimp only [loopStep, PollLoop.goOn, PollLoop.loop]
    split <;> rfl
  | world s => rfl

theorem completed_goOn (e : LoopEvent) : x.completed <+: (x.goOn e).completed := by
  cases e with
  | reserve c =>
    dsimp only [loopStep, PollLoop.goOn, PollLoop.loop]
    repeat' split
    all_goals exact List.prefix_refl _
  | write =>
    dsimp only [loopStep, PollLoop.goOn, PollLoop.loop]
    split
    case h_3 => exact List.prefix_append _ _
    all_goals exact List.prefix_refl _
  | poll =>
    dsimp only [loopStep, PollLoop.goOn, PollLoop.loop]
    split <;> exact List.prefix_refl _
  | world s => exact List.prefix_refl _

theorem polled_goOn (hx : Polled x) {e : LoopEvent} (he : e ≠ .poll) (hsafe : ∀ y, PollSafe y e) :
    Polled (x.goOn e) := by
  refine ⟨hx.seen.trans (completed_goOn e), fun hrunning => ?_⟩
  have hloop := consistent_step (hx.running hrunning) e (hsafe _)
  rwa [loopStep_loop he] at hloop

/-- What leaves the queue alone is anything else to the main loop. -/
theorem polled_elsewhere (hx : Polled x) {pipe : ControlPipe (VendorState ρ)}
    (hqueue : pipe.app.device.fw.queue = x.pipe.app.device.fw.queue) :
    Polled { x with pipe := pipe } := by
  refine ⟨hx.seen, fun hrunning => ?_⟩
  have hloop := consistent_step (hx.running hrunning) (.world pipe.app.device.fw) trivial
  rw [loopStep] at hloop
  rwa [show (x.loop x.seen).fw.queue = _ from hqueue.symm] at hloop

/-- What finds the queue empty can empty it. -/
theorem polled_emptied (hx : Polled x) {pipe : ControlPipe (VendorState ρ)}
    (hqueue : pipe.app.device.fw.queue = {})
    (hempty : x.running = true → count x.pipe.app.device.fw.queue = 0) :
    Polled { x with pipe := pipe } := by
  refine ⟨hx.seen, fun hrunning => ?_⟩
  have hloop := hx.running hrunning
  have hnothing : outstanding x.pipe.app.device.fw.queue = [] :=
    List.length_eq_zero_iff.1 ((length_outstanding _).trans (hempty hrunning))
  have hcount : count pipe.app.device.fw.queue = 0 := by
    rw [hqueue]
    decide
  refine ⟨hcount.trans_le (Nat.zero_le _), fun hfilling => ?_, fun i ws hfilling => ?_⟩
  · have hidle : x.completed = x.seen ++ outstanding x.pipe.app.device.fw.queue :=
      hloop.idle hfilling
    rw [hnothing] at hidle
    show x.completed = x.seen ++ outstanding pipe.app.device.fw.queue
    rw [hqueue, outstanding_empty]
    exact hidle
  · exact absurd (hempty hrunning) (hloop.busy i ws hfilling).2.1.ne'

theorem polled_betweenCalls (hx : Polled x) {f : Fw → Fw}
    (hf : count x.pipe.app.device.fw.queue = 0 → (f x.pipe.app.device.fw).queue = {} ∨
      (f x.pipe.app.device.fw).queue = x.pipe.app.device.fw.queue)
    (hempty : x.running = true → x.filling = none → count x.pipe.app.device.fw.queue = 0) :
    Polled (x.betweenCalls f) := by
  by_cases hfilling : x.filling = none
  · rw [betweenCalls_of_none hfilling]
    by_cases hrunning : x.running = true
    · rcases hf (hempty hrunning hfilling) with hqueue | hqueue
      · exact polled_emptied hx hqueue fun hrunning => hempty hrunning hfilling
      · exact polled_elsewhere hx hqueue
    · exact ⟨hx.seen, fun h => absurd h hrunning⟩
  · rw [betweenCalls_of_some hfilling]
    exact hx

/-- A poll that is answered is a poll of the main loop, and `cb_btle` is called for what it takes
from the queue. -/
theorem loop_poll (hlayout : 0 < layout.abVendorReqData) (hrunning : x.running = true)
    {tokens : List EpInterrupt} (htokens : ∀ e ∈ tokens, e = .inn ∨ e = .out (some [])) :
    let y := pollLoopStep build board layout x (.poll tokens htokens true)
    y.running = true ∧ y.loop y.seen = loopStep (x.loop x.seen) .poll := by
  obtain ⟨hfw, hgather⟩ := poll_answer build board layout hlayout x.pipe htokens
  dsimp only [pollLoopStep]
  rw [if_pos hrunning]
  generalize run _ x.pipe _ = pipe at hfw hgather ⊢
  rw [(cmdPoll_true _ _).trans hgather, loopStep, show (x.loop x.seen).fw = x.pipe.app.device.fw
    from rfl]
  refine ⟨hrunning, ?_⟩
  rcases hpkt : dequeuePkt x.pipe.app.device.fw with ⟨_ | rx, s⟩
  · rw [hpkt] at hfw
    dsimp only [PollLoop.answered, PollLoop.loop, pollReply] at hfw ⊢
    rw [hfw, if_neg (by decide)]
  · rw [hpkt] at hfw
    dsimp only [PollLoop.answered, PollLoop.loop, pollReply] at hfw ⊢
    rw [hfw, if_pos (UsbPktRx.length_octets _), packetOf_octets]

theorem polled_poll (hlayout : 0 < layout.abVendorReqData) (hx : Polled x)
    {tokens : List EpInterrupt} (htokens : ∀ e ∈ tokens, e = .inn ∨ e = .out (some []))
    {fetched : Bool} (he : KeepsPackets x (.poll tokens htokens fetched)) :
    Polled (pollLoopStep build board layout x (.poll tokens htokens fetched)) := by
  cases hrunning : x.running with
  | false =>
    rw [pollLoopStep, hrunning, if_neg Bool.false_ne_true]
    exact hx
  | true =>
    cases fetched with
    | false =>
      rw [pollLoopStep, if_pos hrunning]
      exact ⟨hx.seen, fun h => absurd h Bool.false_ne_true⟩
    | true =>
      obtain ⟨-, hloop⟩ := loop_poll build board layout hlayout hrunning htokens
      have hsafe : PollSafe (x.loop x.seen) .poll := he hrunning rfl
      have hnext := consistent_step (hx.running hrunning) .poll hsafe
      rw [← hloop] at hnext
      exact ⟨hnext.polled_prefix, fun _ => hnext⟩

theorem polled_step (hlayout : 0 < layout.abVendorReqData) (hx : Polled x) (e : PollLoopEvent ρ)
    (he : KeepsPackets x e) : Polled (pollLoopStep build board layout x e) := by
  cases e with
  | reserve c => exact polled_goOn hx (by simp) fun _ => trivial
  | write => exact polled_goOn hx (by simp) fun _ => trivial
  | queueInit =>
    exact polled_betweenCalls (f := Firmware.queueInit) hx (fun _ => .inl rfl) he
  | dequeueSend clkn lastUsbPkt =>
    have hqueue := @queue_dequeueSend clkn lastUsbPkt x.pipe.app.device.fw
    exact polled_betweenCalls (f := fun s => (Firmware.dequeueSend clkn ⟨s, lastUsbPkt, []⟩).fw) hx
      (fun hempty => .inr (hqueue hempty)) he
  | firmware f => exact polled_elsewhere hx rfl
  | transfer t h =>
    by_cases hinit : CallsQueueInit t
    · exact polled_emptied hx (queue_transfer_of_init x.pipe hinit)
        fun hrunning => he hrunning hinit
    · exact polled_elsewhere hx (queue_transfer_of_not x.pipe h hinit)
  | poll tokens htokens fetched => exact polled_poll build board layout hlayout hx htokens he

/-- What `cb_btle` was called for is the first of what was completed. The rest is in the queue, as
long as the loop runs, and behind it the slot being filled. -/
structure InOrder (x : PollLoop ρ) : Prop where
  seen : x.seen <+: x.completed
  idle : x.running = true → x.filling = none →
    x.completed = x.seen ++ outstanding x.pipe.app.device.fw.queue
  busy : x.running = true → ∀ i ws, x.filling = some (i, ws) →
    let q := x.pipe.app.device.fw.queue
    0 < count q ∧ i = Ring.slot (q.head.toNat + (count q - 1)) ∧ x.completed = x.seen ++ settled q

theorem Polled.inOrder (hx : Polled x) : InOrder x :=
  ⟨hx.seen, fun hrunning hfilling => (hx.running hrunning).idle hfilling,
    fun hrunning i ws hfilling => ((hx.running hrunning).busy i ws hfilling).2⟩

/-- A queue that loses packets does not hold what is still to be seen. -/
theorem not_inOrder_of_count_lt (hx : Polled x) (hrunning : x.running = true)
    {pipe : ControlPipe (VendorState ρ)}
    (hlt : count pipe.app.device.fw.queue < count x.pipe.app.device.fw.queue)
    (hfilling : x.filling ≠ none → count pipe.app.device.fw.queue = 0) :
    ¬InOrder { x with pipe := pipe } := by
  intro h
  cases hf : x.filling with
  | none =>
    have hwere := congrArg List.length ((hx.running hrunning).idle hf)
    have hare := congrArg List.length (h.idle hrunning hf)
    simp only [List.length_append, length_outstanding] at hwere hare
    have hcompleted : x.completed.length = x.seen.length + count x.pipe.app.device.fw.queue := hwere
    omega
  | some a =>
    have hpos := (h.busy hrunning a.1 a.2 hf).1
    have hzero := hfilling (by rw [hf]; simp)
    exact hpos.ne' hzero

/-- Between calls, what takes packets from the queue loses them. -/
theorem not_inOrder_betweenCalls (hx : Polled x) (hrunning : x.running = true)
    (hfilling : x.filling = none) {f : Fw → Fw}
    (hlt : count (f x.pipe.app.device.fw).queue < count x.pipe.app.device.fw.queue) :
    ¬InOrder (x.betweenCalls f) := by
  rw [betweenCalls_of_none hfilling]
  exact not_inOrder_of_count_lt hx hrunning hlt fun h => absurd hfilling h

/-- An event that takes away what was not seen. -/
theorem not_inOrder_of_not_keepsPackets (hlayout : 0 < layout.abVendorReqData) (hx : Polled x)
    {e : PollLoopEvent ρ} (he : ¬KeepsPackets x e) :
    ¬InOrder (pollLoopStep build board layout x e) := by
  obtain ⟨hrunning, he⟩ := Classical.not_imp.1 he
  have hempty : count {} = 0 := by decide
  cases e with
  | poll tokens htokens fetched =>
    obtain ⟨rfl, hunsafe⟩ := Classical.not_imp.1 he
    obtain ⟨-, hloop⟩ := loop_poll build board layout hlayout hrunning htokens
    have hnot := not_polled_prefix_of_not_pollSafe (e := .poll) (hx.running hrunning) hunsafe
    rw [← hloop] at hnot
    exact fun h => hnot h.seen
  | queueInit =>
    obtain ⟨hfilling, hcount⟩ := Classical.not_imp.1 he
    exact not_inOrder_betweenCalls (f := Firmware.queueInit) hx hrunning hfilling
      (hempty.trans_lt (Nat.pos_of_ne_zero hcount))
  | dequeueSend clkn lastUsbPkt =>
    obtain ⟨hfilling, hcount⟩ := Classical.not_imp.1 he
    have hlt := count_dequeueSend clkn lastUsbPkt (Nat.pos_of_ne_zero hcount)
      (hx.running hrunning).count_le
    exact not_inOrder_betweenCalls
      (f := fun s => (Firmware.dequeueSend clkn ⟨s, lastUsbPkt, []⟩).fw) hx hrunning hfilling hlt
  | transfer t h =>
    obtain ⟨hinit, hcount⟩ := Classical.not_imp.1 he
    have hqueue := @queue_transfer_of_init _ build board layout x.pipe _ hinit
    have hzero := (congrArg count hqueue).trans hempty
    exact not_inOrder_of_count_lt hx hrunning (hzero.trans_lt (Nat.pos_of_ne_zero hcount))
      fun _ => hzero
  | reserve _ | write | firmware _ => exact absurd trivial he

/-- **Polled packets come whole and in order.** From an empty queue, with the assignments of
`enqueue`, the starts of modes, packets sent over the bulk endpoint, the rest of the firmware, polls
that are answered in time or not and other transfers that are carried out or given up in any order:
`cb_btle` is called at all times for the first of the packets completed, whole, in order and each
once, and what it was not called for is in the queue until the loop ends, if and only if until then
every poll that is answered while the firmware is inside a call finds an earlier packet in the
queue, and the starts of modes, the bulk endpoint and the requests that call `queue_init` find no
packet in it. -/
theorem polled_in_order_iff (hlayout : 0 < layout.abVendorReqData) (p : ControlPipe (VendorState ρ))
    (hempty : count p.app.device.fw.queue = 0) (es : List (PollLoopEvent ρ)) :
    Throughout (pollLoopStep build board layout) InOrder { pipe := p } es ↔
      Along (pollLoopStep build board layout) KeepsPackets { pipe := p } es := by
  have hstart : Polled { pipe := p } := by
    refine ⟨List.prefix_refl _, fun _ => ⟨hempty.trans_le (Nat.zero_le _), fun _ => ?_,
      fun i ws h => absurd h (by simp [PollLoop.loop])⟩⟩
    show [] = [] ++ outstanding p.app.device.fw.queue
    rw [List.length_eq_zero_iff.1 ((length_outstanding _).trans hempty)]
    rfl
  exact throughout_iff_of_invariant (I := Polled) (fun _ hx => hx.inOrder)
    (fun _ e hx he => polled_step build board layout hlayout hx e he)
    (fun _ _ hx he => not_inOrder_of_not_keepsPackets build board layout hlayout hx he) hstart

/-- The firmware has reserved a slot when the host polls; then a mode begins. -/
theorem polled_in_order_iff_reserved :
    Throughout (pollLoopStep {} quietBoard sampleLayout) InOrder { pipe := pipeOn }
        [.reserve (.plain .lePacket (Vector.replicate _ 0)), .poll [] (by simp) true,
          .queueInit] ↔
      Along (pollLoopStep {} quietBoard sampleLayout) KeepsPackets { pipe := pipeOn }
        [.reserve (.plain .lePacket (Vector.replicate _ 0)), .poll [] (by simp) true,
          .queueInit] :=
  polled_in_order_iff {} quietBoard sampleLayout (by decide) pipeOn (by decide) _

end Ubertooth.Usb
