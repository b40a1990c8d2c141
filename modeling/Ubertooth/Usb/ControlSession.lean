import Ubertooth.Usb.ControlTransfer

/-!
# Sessions of control transfers

The host carries out one control transfer after another on endpoint 0, each in many packets, and may
give any of them up halfway; between them, the firmware does what else it does. To the device, a
session is the sequence of its completed requests: each is handled once, in one step, with the
octets that the host has sent (`SessionEvent.carriedOut`, `deviceOf_session`). What only requests
change is what the last completed one has made it (`get_session`).
-/

namespace Ubertooth.Usb

open Foundations Firmware

variable {σ : Type} (stack : UsbStack σ)

/-- A control transfer as far as the host has brought it: the setup packet, then the packets of the
data and the tokens for the answer, or the tokens for the data. -/
inductive ControlTransfer
  | toDevice (packet : SetupPacket) (ps : List (Option (List U8))) (polls : ℕ)
    (dir : reqtypeGetDir packet.bmRequestType ≠ reqtypeDirToHost)
  | toHost (packet : SetupPacket) (es : List EpInterrupt)
    (dir : reqtypeGetDir packet.bmRequestType = reqtypeDirToHost)
    (tokens : ∀ e ∈ es, e = .inn ∨ e = .out (some []))

namespace ControlTransfer

/-- The interrupts of a transfer, each handled before the next. -/
def interrupts : ControlTransfer → List EpInterrupt
  | toDevice packet ps polls _ =>
    .setup (some packet.octets) :: (ps.map .out ++ List.replicate polls .inn)
  | toHost packet es _ _ => .setup (some packet.octets) :: es

def packet : ControlTransfer → SetupPacket
  | toDevice packet .. | toHost packet .. => packet

/-- Whether all that was announced has come. -/
def complete : ControlTransfer → Bool
  | toDevice packet ps .. =>
    ps.inits.any fun pre => (validOctets pre).length == packet.wLength.toNat
  | toHost .. => true

end ControlTransfer

/-- The device between two transfers. -/
structure ControlDevice (σ : Type) where
  memory : ℤ → U8
  app : σ

def deviceOf (p : ControlPipe σ) : ControlDevice σ := ⟨p.memory, p.app⟩

/-- A request whose data is in the store. -/
def ControlDevice.requested (d : ControlDevice σ) (packet : SetupPacket) : ControlPipe σ where
  setup := packet
  pbData := stack.apbDataStore (reqtypeGetType packet.bmRequestType)
  iLen := packet.wLength.toNat
  memory := d.memory
  app := d.app

/-- A request in one step. -/
def ControlDevice.request (d : ControlDevice σ) (packet : SetupPacket) : ControlDevice σ :=
  let h := handleRequest stack (d.requested stack packet)
  ⟨h.memory, h.app⟩

/-- The memory once packets have been received at an address, as far as octets are announced. -/
def receivedAt (memory : ℤ → U8) (pb iResidue : ℤ) : List (Option (List U8)) → ℤ → U8
  | [] => memory
  | none :: ps => receivedAt memory pb iResidue ps
  | some o :: ps =>
    if 0 < iResidue then
      receivedAt (storedAt memory pb (o.take iResidue.toNat)) (pb + o.length)
        (iResidue - o.length) ps
    else memory

/-- The octets that packets bring, in the store of their request. -/
def ControlDevice.store (d : ControlDevice σ) (packet : SetupPacket)
    (ps : List (Option (List U8))) : ControlDevice σ :=
  let store := stack.apbDataStore (reqtypeGetType packet.bmRequestType)
  ⟨receivedAt d.memory store packet.wLength.toNat ps, d.app⟩

/-- What a transfer comes to. -/
def ControlTransfer.carriedOut (d : ControlDevice σ) (t : ControlTransfer) : ControlDevice σ :=
  let d := match t with
    | toDevice packet ps .. => d.store stack packet ps
    | toHost .. => d
  if t.complete then d.request stack t.packet else d

/-- What happens to the device: a transfer, or what the firmware does between transfers. -/
inductive SessionEvent (σ : Type)
  | transfer (t : ControlTransfer)
  | elsewhere (f : ControlDevice σ → ControlDevice σ)

/-- An event, packet by packet. -/
def sessionStep (p : ControlPipe σ) : SessionEvent σ → ControlPipe σ
  | .transfer t => run (usbHandleControlTransfer stack) p t.interrupts
  | .elsewhere f => { p with memory := (f (deviceOf p)).memory, app := (f (deviceOf p)).app }

/-- An event in one step. -/
def SessionEvent.carriedOut (d : ControlDevice σ) : SessionEvent σ → ControlDevice σ
  | .transfer t => t.carriedOut stack d
  | .elsewhere f => f d

/-- A request is handled by what its setup packet, its store and the memory hold, and by nothing
that the transfer before it has left. -/
theorem handleRequest_device (p : ControlPipe σ) (hlen : p.iLen = p.setup.wLength.toNat)
    (hpb : p.pbData = stack.apbDataStore (reqtypeGetType p.setup.bmRequestType)) :
    let h := handleRequest stack p
    (⟨h.memory, h.app⟩ : ControlDevice σ) = (deviceOf p).request stack p.setup := by
  obtain ⟨setup, pbData, iResidue, iLen, memory, app, told⟩ := p
  change iLen = setup.wLength.toNat at hlen
  change pbData = stack.apbDataStore (reqtypeGetType setup.bmRequestType) at hpb
  rw [hlen, hpb]
  rfl

theorem setupRequest_octets (p : ControlPipe σ) (packet : SetupPacket) :
    setupRequest stack p (some packet.octets) = { p with
      setup := packet
      pbData := stack.apbDataStore (reqtypeGetType packet.bmRequestType)
      iResidue := packet.wLength.toNat
      iLen := packet.wLength.toNat } := by
  rw [setupRequest, Option.map_some, Option.getD_some, ofOctets_setupOctets]

/-- Tokens for data leave the device as it is. -/
theorem deviceOf_run_inn (p : ControlPipe σ) {es : List EpInterrupt}
    (hes : ∀ e ∈ es, e = .inn ∨ e = .out (some [])) :
    deviceOf (run (usbHandleControlTransfer stack) p es) = deviceOf p := by
  refine run_invariant (I := fun x : ControlPipe σ => deviceOf x = deviceOf p)
    (C := fun _ e => e = .inn ∨ e = .out (some [])) (fun x e hx he => ?_) rfl (along_of_forall hes)
  rcases he with rfl | rfl
  · exact hx
  · rwa [out_empty]

/-- A setup packet that asks for data, or announces none, has its request handled at once. -/
theorem deviceOf_setup (p : ControlPipe σ) {packet : SetupPacket}
    (hdir : packet.wLength = 0 ∨ reqtypeGetDir packet.bmRequestType = reqtypeDirToHost) :
    let x := usbHandleControlTransfer stack p (.setup (some packet.octets))
    deviceOf x = (deviceOf p).request stack packet ∧ (packet.wLength = 0 → x.iResidue ≤ 0) := by
  intro x
  have hsetup := setupRequest_octets stack p packet
  obtain ⟨q, hq⟩ : ∃ q, q = setupRequest stack p (some packet.octets) := ⟨_, rfl⟩
  rw [← hq] at hsetup
  have hx := setup_handled stack hq rfl (by rw [hsetup]; exact hdir)
  have hdevice := handleRequest_device stack q (by rw [hsetup]) (by rw [hsetup])
  have hdeviceOf : deviceOf q = deviceOf p := by rw [hsetup]; rfl
  have hpacket : q.setup = packet := by rw [hsetup]
  have hlength : packet.wLength = 0 → q.setup.wLength.toNat = 0 := fun h => by rw [hpacket, h]; rfl
  rw [hdeviceOf, hpacket] at hdevice
  rw [show x = _ from hx]
  split_ifs
  · refine ⟨hdevice, fun h => ?_⟩
    simp only [dataIn, hlength h]
    omega
  · refine ⟨hdevice, fun h => ?_⟩
    show q.iResidue ≤ 0
    rw [hsetup, h]
    rfl

theorem receivedAt_of_le {memory : ℤ → U8} {pb iResidue : ℤ} (h : iResidue ≤ 0)
    (ps : List (Option (List U8))) : receivedAt memory pb iResidue ps = memory := by
  induction ps with
  | nil => rfl
  | cons e ps ih =>
    cases e with
    | none => exact ih
    | some o => exact if_neg (not_lt.2 h)

/-- The last packet of the data. -/
theorem deviceOf_storeData_last {x : ControlPipe σ} {iChunk : ℕ} {memory : ℤ → U8}
    (hlen : x.iLen = x.setup.wLength.toNat) (hlast : x.iResidue - iChunk = 0) :
    let x' := storeData stack x iChunk memory
    deviceOf x' = (⟨memory, x.app⟩ : ControlDevice σ).request stack x.setup ∧ x'.iResidue ≤ 0 := by
  intro x'
  obtain ⟨y, hy⟩ : ∃ y : ControlPipe σ, y = { x with
    memory := memory
    pbData := stack.apbDataStore (reqtypeGetType x.setup.bmRequestType)
    iResidue := x.iResidue - iChunk } := ⟨_, rfl⟩
  have hx' : x' = if (handleRequest stack y).success then dataIn (requestHandled stack y)
      else stallControlPipe (requestHandled stack y) := by
    rw [show x' = storeData stack x iChunk memory from rfl, storeData, if_neg (by omega)]
    dsimp only
    rw [if_pos hlast, hy]
  have hdevice := handleRequest_device stack y (by rw [hy]; exact hlen) (by rw [hy])
  have hydevice : deviceOf y = ⟨memory, x.app⟩ := by rw [hy]; rfl
  have hysetup : y.setup = x.setup := by rw [hy]
  have hresidue : y.iResidue = 0 := by rw [hy]; exact hlast
  rw [hydevice, hysetup] at hdevice
  rw [hx']
  split_ifs
  · refine ⟨hdevice, ?_⟩
    simp only [dataIn, requestHandled, hresidue]
    omega
  · exact ⟨hdevice, le_of_eq hresidue⟩

/-- Packets that have brought something begin with the first one. -/
theorem cons_of_prefix {e : Option (List U8)} {ps pre : List (Option (List U8))} {n : ℤ}
    (hn : 0 < n) (hpre : pre <+: e :: ps) (htotal : (validOctets pre).length = n) :
    ∃ rest, pre = e :: rest ∧ rest <+: ps := by
  cases pre with
  | nil =>
    rw [validOctets_nil, List.length_nil] at htotal
    omega
  | cons f rest =>
    obtain ⟨rfl, hrest⟩ := List.cons_prefix_cons.1 hpre
    exact ⟨rest, rfl, hrest⟩

/-- The packets after a setup packet: once they have brought what was announced the request is
handled, and what follows is absorbed. -/
theorem deviceOf_run_out {x : ControlPipe σ} (hleft : 0 < x.iResidue)
    (hlen : x.iLen = x.setup.wLength.toNat) (ps : List (Option (List U8))) :
    let x' := run (usbHandleControlTransfer stack) x (ps.map .out)
    let d : ControlDevice σ := ⟨receivedAt x.memory x.pbData x.iResidue ps, x.app⟩
    ((∃ pre, pre <+: ps ∧ (validOctets pre).length = x.iResidue) →
        deviceOf x' = d.request stack x.setup) ∧
      ((∀ pre, pre <+: ps → (validOctets pre).length ≠ x.iResidue) → deviceOf x' = d) := by
  induction ps generalizing x with
  | nil =>
    refine ⟨?_, fun _ => rfl⟩
    rintro ⟨pre, hpre, htotal⟩
    rw [List.prefix_nil.1 hpre, validOctets_nil, List.length_nil] at htotal
    omega
  | cons e ps ih =>
    rw [List.map_cons, run_cons]
    cases e with
    | none =>
      obtain ⟨hhandled, hnot⟩ := @ih (stallControlPipe x) hleft hlen
      rw [out_unread stack hleft]
      refine ⟨?_, fun hne => hnot fun pre hpre =>
        hne (none :: pre) (List.cons_prefix_cons.2 ⟨rfl, hpre⟩)⟩
      rintro ⟨pre, hpre, htotal⟩
      obtain ⟨pre, rfl, hrest⟩ := cons_of_prefix hleft hpre htotal
      exact hhandled ⟨pre, hrest, htotal⟩
    | some o =>
      have hreceived : receivedAt x.memory x.pbData x.iResidue (some o :: ps) =
          receivedAt (storedAt x.memory x.pbData (o.take x.iResidue.toNat)) (x.pbData + o.length)
            (x.iResidue - o.length) ps := if_pos hleft
      rw [out_read stack hleft, hreceived]
      by_cases hlast : x.iResidue - o.length = 0
      · obtain ⟨hdevice, hdone⟩ := deviceOf_storeData_last stack hlen hlast
        rw [run_absorbed stack hdone, receivedAt_of_le (le_of_eq hlast)]
        refine ⟨fun _ => hdevice, fun hne => absurd ?_
          (hne [some o] (List.cons_prefix_cons.2 ⟨rfl, List.nil_prefix⟩))⟩
        rw [validOctets_some, validOctets_nil, List.append_nil]
        omega
      · rw [storeData_of_ne stack hlast]
        have htotal : ∀ pre, ((validOctets (some o :: pre)).length : ℤ) = x.iResidue ↔
            ((validOctets pre).length : ℤ) = x.iResidue - o.length := by
          intro pre
          rw [validOctets_some, List.length_append]
          omega
        rcases lt_or_gt_of_ne hlast with hover | hmore
        · rw [run_absorbed stack (le_of_lt hover), receivedAt_of_le (le_of_lt hover)]
          refine ⟨?_, fun _ => rfl⟩
          rintro ⟨pre, hpre, hall⟩
          obtain ⟨pre, rfl, -⟩ := cons_of_prefix hleft hpre hall
          have := (htotal pre).1 hall
          omega
        · obtain ⟨hhandled, hnot⟩ := @ih { x with
            memory := storedAt x.memory x.pbData (o.take x.iResidue.toNat)
            pbData := x.pbData + o.length
            iResidue := x.iResidue - o.length } hmore hlen
          refine ⟨?_, fun hne => hnot fun pre hpre hall =>
            hne (some o :: pre) (List.cons_prefix_cons.2 ⟨rfl, hpre⟩) ((htotal pre).2 hall)⟩
          rintro ⟨pre, hpre, hall⟩
          obtain ⟨pre, rfl, hrest⟩ := cons_of_prefix hleft hpre hall
          exact hhandled ⟨pre, hrest, (htotal pre).1 hall⟩

/-- One transfer, whatever the one before it has left. -/
theorem deviceOf_transfer (p : ControlPipe σ) (t : ControlTransfer) :
    deviceOf (run (usbHandleControlTransfer stack) p t.interrupts) =
      t.carriedOut stack (deviceOf p) := by
  cases t with
  | toHost packet es dir tokens =>
    rw [ControlTransfer.interrupts, run_cons, deviceOf_run_inn stack _ tokens]
    exact (deviceOf_setup stack p (.inr dir)).1
  | toDevice packet ps polls dir =>
    have hpolls : ∀ e ∈ List.replicate polls EpInterrupt.inn, e = .inn ∨ e = .out (some []) :=
      fun e he => .inl (List.eq_of_mem_replicate he)
    have hcomplete : (ControlTransfer.toDevice packet ps polls dir).complete = true ↔
        ∃ pre, pre <+: ps ∧ (validOctets pre).length = packet.wLength.toNat := by
      simp [ControlTransfer.complete]
    rw [ControlTransfer.interrupts, ← List.cons_append, run_append, deviceOf_run_inn stack _ hpolls]
    by_cases hlen : packet.wLength = 0
    · -- nothing is announced, and packets that come all the same are absorbed
      obtain ⟨hdevice, hdone⟩ := @deviceOf_setup _ stack p packet (.inl hlen)
      have hnone : (validOctets []).length = packet.wLength.toNat := by rw [hlen]; rfl
      have hempty : (deviceOf p).store stack packet ps = deviceOf p := by
        rw [ControlDevice.store, hlen]
        exact congrArg (ControlDevice.mk · p.app) (receivedAt_of_le le_rfl ps)
      rw [run_cons, run_absorbed stack (hdone hlen), hdevice, ControlTransfer.carriedOut,
        if_pos (hcomplete.2 ⟨[], List.nil_prefix, hnone⟩)]
      exact congrArg (ControlDevice.request stack · packet) hempty.symm
    · obtain ⟨x, hx⟩ : ∃ x, x = setupRequest stack p (some packet.octets) := ⟨_, rfl⟩
      have hsetup := hx.trans (setupRequest_octets stack p packet)
      have hpos : 0 < x.iResidue := by
        have hne : packet.wLength.toNat ≠ 0 := fun h => hlen (BitVec.eq_of_toNat_eq h)
        rw [hsetup]
        dsimp only
        omega
      have hfirst : usbHandleControlTransfer stack p (.setup (some packet.octets)) = x :=
        (setup_out stack hx (by rw [hsetup]; exact hlen) (by rw [hsetup]; exact dir)).1
      obtain ⟨hhandled, hnot⟩ := deviceOf_run_out stack hpos (by rw [hsetup]) ps
      rw [run_cons, hfirst, ControlTransfer.carriedOut]
      split_ifs with hdone
      · obtain ⟨pre, hpre, hlength⟩ := hcomplete.1 hdone
        rw [hhandled ⟨pre, hpre, by rw [hlength, hsetup]⟩, hsetup]
        rfl
      · rw [hnot fun pre hpre hlength =>
          hdone (hcomplete.2 ⟨pre, hpre, Nat.cast_inj.1 (hlength.trans (by rw [hsetup]))⟩), hsetup]
        rfl

/-- **A session is its requests.** The device is left by any session of control transfers as it
would be if the completed requests were handled one by one, each in one step, and the transfers
given up had stored what they brought and nothing else. -/
theorem deviceOf_session (p : ControlPipe σ) (es : List (SessionEvent σ)) :
    deviceOf (run (sessionStep stack) p es) =
      run (SessionEvent.carriedOut stack) (deviceOf p) es := by
  induction es generalizing p with
  | nil => rfl
  | cons e es ih =>
    rw [run_cons, run_cons, ih]
    congr 1
    cases e with
    | transfer t => exact deviceOf_transfer stack p t
    | elsewhere f => rfl

/-- A transfer changes what the firmware keeps by its request, or not at all. -/
theorem app_carriedOut (d : ControlDevice σ) (t : ControlTransfer) :
    ∃ d' : ControlDevice σ, d'.app = d.app ∧ t.carriedOut stack d =
      if t.complete then d'.request stack t.packet else d' := by
  cases t with
  | toDevice packet ps polls dir => exact ⟨d.store stack packet ps, rfl, rfl⟩
  | toHost packet es dir tokens => exact ⟨d, rfl, rfl⟩

/-- What each request preserves, a session preserves. -/
theorem session_invariant {I : σ → Prop}
    (hrequest : ∀ (d : ControlDevice σ) packet, I d.app → I (d.request stack packet).app)
    {d : ControlDevice σ} {es : List (SessionEvent σ)}
    (helse : ∀ f, .elsewhere f ∈ es → ∀ d : ControlDevice σ, I d.app → I (f d).app) (hd : I d.app) :
    I (run (SessionEvent.carriedOut stack) d es).app := by
  refine run_invariant (I := fun d : ControlDevice σ => I d.app) (C := fun _ e => e ∈ es)
    (fun d e hd he => ?_) hd (along_of_forall fun e he => he)
  cases e with
  | elsewhere f => exact helse f he d hd
  | transfer t =>
    obtain ⟨d', happ, hcarriedOut⟩ := app_carriedOut stack d t
    show I (t.carriedOut stack d).app
    rw [hcarriedOut]
    split_ifs
    · exact hrequest d' _ (happ ▸ hd)
    · exact happ ▸ hd

/-- What an event writes, where requests write what `written` says. -/
def SessionEvent.written {α : Type} (written : SetupPacket → Option α) :
    SessionEvent σ → Option α
  | .transfer t => if t.complete then written t.packet else none
  | .elsewhere _ => none

/-- What only requests change is what they have last made it. -/
theorem get_session {α : Type} (get : σ → α) (written : SetupPacket → Option α)
    (hget : ∀ (d : ControlDevice σ) packet,
      get (d.request stack packet).app = (written packet).getD (get d.app))
    (d : ControlDevice σ) {es : List (SessionEvent σ)}
    (helse : ∀ f, .elsewhere f ∈ es → ∀ d, get (f d).app = get d.app) :
    get (run (SessionEvent.carriedOut stack) d es).app =
      (lastWritten (SessionEvent.written written) es).getD (get d.app) := by
  induction es using List.reverseRecOn with
  | nil => rfl
  | append_singleton es e ih =>
    have hes := ih fun f hf => helse f (List.mem_append_left _ hf)
    have hstep : ∀ x : ControlDevice σ, get (e.carriedOut stack x).app =
        (e.written written).getD (get x.app) := by
      intro x
      cases e with
      | elsewhere f => exact helse f (List.mem_append_right _ List.mem_cons_self) x
      | transfer t =>
        obtain ⟨x', happ, hcarriedOut⟩ := app_carriedOut stack x t
        show get (t.carriedOut stack x).app = (if t.complete then _ else _ : Option α).getD _
        rw [hcarriedOut, ← happ]
        split_ifs
        · exact hget _ _
        · rfl
    rw [run_concat, hstep, hes, lastWritten_concat]
    cases e.written written <;> rfl

end Ubertooth.Usb
