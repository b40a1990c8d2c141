import Ubertooth.Firmware.ControlPipe
import Ubertooth.Foundations.Packets

/-!
# Control transfers, from the setup packet to the handler and back

What a setup packet starts, whatever the transfer before it was left in.

* `controlIn_delivers`: the reply to a request goes out in packets, and a host that gathers them as
  it asked for them has exactly the reply, cut to what it asked for.
* `controlOut_delivers`: a request with data is handled exactly if some of the packets that follow
  add up to what was announced, and the handler then finds their octets in its store.
* `controlOut_lost_of_inn`: an interrupt for endpoint 0x80 that is handled among these packets uses
  up what is left to receive, and the request is never handled.
* `controlOut_frame`: what follows a setup packet is stored where its type of request has its store,
  no further than the setup packet announced.
-/

namespace Ubertooth.Usb

open Foundations Firmware

variable {σ : Type} (stack : UsbStack σ)

/-! ## Octets in memory -/

section Memory

variable {memory : ℤ → U8} {pb : ℤ} {n : ℕ}

@[simp] theorem length_octetsAt : (octetsAt memory pb n).length = n := by simp [octetsAt]

theorem take_octetsAt (k : ℕ) : (octetsAt memory pb n).take k = octetsAt memory pb (min k n) := by
  rw [octetsAt, ← List.map_take, List.take_range, octetsAt]

theorem drop_octetsAt (k : ℕ) :
    (octetsAt memory pb n).drop k = octetsAt memory (pb + k) (n - k) := by
  apply List.ext_getElem
  · simp
  · intro i _ _
    simp [octetsAt, add_assoc]

/-- Nothing is stored outside the place of the octets. -/
theorem storedAt_of_not {octets : List U8} {a : ℤ} (h : ¬(pb ≤ a ∧ a < pb + octets.length)) :
    storedAt memory pb octets a = memory a := by
  rw [storedAt]
  split_ifs
  · rfl
  · exact if_neg h

theorem storedAt_of_mem {octets : List U8} {a : ℤ} (hpb : 0 < pb)
    (h : pb ≤ a ∧ a < pb + octets.length) :
    storedAt memory pb octets a = octets.getD (a - pb).toNat 0 := by
  rw [storedAt, if_neg hpb.ne']
  exact if_pos h

@[simp] theorem storedAt_nil : storedAt memory pb [] = memory := by
  funext a
  exact storedAt_of_not (by simp)

/-- Octets stored after octets. -/
theorem storedAt_append (hpb : 0 < pb) (octets more : List U8) :
    storedAt (storedAt memory pb octets) (pb + octets.length) more =
      storedAt memory pb (octets ++ more) := by
  funext a
  have hlength : ((octets ++ more).length : ℤ) = octets.length + more.length := by
    rw [List.length_append, Nat.cast_add]
  by_cases hfirst : pb ≤ a ∧ a < pb + octets.length
  · rw [storedAt_of_not (by omega), storedAt_of_mem hpb hfirst, storedAt_of_mem hpb (by omega),
      List.getD_append _ _ _ _ (by omega)]
  by_cases hthen : pb + octets.length ≤ a ∧ a < pb + octets.length + more.length
  · rw [storedAt_of_mem (by omega) hthen, storedAt_of_mem hpb (by omega),
      List.getD_append_right _ _ _ _ (by omega)]
    congr 1
    omega
  · rw [storedAt_of_not hthen, storedAt_of_not hfirst, storedAt_of_not (by omega)]

/-- What was stored is read back. -/
theorem octetsAt_storedAt (hpb : 0 < pb) (octets : List U8) :
    octetsAt (storedAt memory pb octets) pb octets.length = octets := by
  apply List.ext_getElem
  · simp
  · intro i hi hi'
    have hoctet : (pb + (i : ℤ) - pb).toNat = i := by omega
    simp only [octetsAt, List.getElem_map, List.getElem_range]
    rw [storedAt_of_mem hpb (by omega), hoctet, List.getD_eq_getElem _ _ hi']

end Memory

theorem append_octets_pair (word : U16) : octet word 1 ++ octet word 0 = word := by
  refine BitVec.eq_of_getLsbD_eq fun k hk => ?_
  simp only [BitVec.getLsbD_append, getLsbD_octet]
  split_ifs <;> simp <;> grind

/-- The device has the setup packet that the host has sent. -/
theorem ofOctets_setupOctets (s : SetupPacket) : .ofOctets s.octets = s := by
  obtain ⟨bmRequestType, bRequest, wValue, wIndex, wLength⟩ := s
  show SetupPacket.mk bmRequestType bRequest (octet wValue 1 ++ octet wValue 0)
    (octet wIndex 1 ++ octet wIndex 0) (octet wLength 1 ++ octet wLength 0) = _
  rw [append_octets_pair, append_octets_pair, append_octets_pair]

/-! ## To the host -/

/-- A zero-length packet changes nothing, whatever is left to receive. -/
theorem out_empty (p : ControlPipe σ) :
    usbHandleControlTransfer stack p (.out (some [])) = p := by
  by_cases h : 0 < p.iResidue
  · simp [usbHandleControlTransfer, usbHwEpRead, storeData, h, h.ne']
  · exact if_neg h

theorem dataIn_told {p : ControlPipe σ} (h : 0 ≤ p.iResidue) :
    (dataIn p).told = p.told ++
      [.write ((octetsAt p.memory p.pbData p.iResidue.toNat).take maxPacketSize0)] := by
  have hlength : (BitVec.ofInt 32 (min (maxPacketSize0 : ℤ) p.iResidue)).toNat =
      min maxPacketSize0 p.iResidue.toNat := by
    have hsize : (maxPacketSize0 : ℤ) = 64 := rfl
    rw [BitVec.toNat_ofInt, Int.emod_eq_of_lt (by omega) (by omega)]
    omega
  rw [take_octetsAt, dataIn, hlength]

/-- The data after the packet sent is what is left of it. -/
theorem octetsAt_dataIn {p : ControlPipe σ} :
    octetsAt (dataIn p).memory (dataIn p).pbData (dataIn p).iResidue.toNat =
      (octetsAt p.memory p.pbData p.iResidue.toNat).drop maxPacketSize0 := by
  rw [drop_octetsAt]
  simp only [dataIn]
  rcases le_or_gt (maxPacketSize0 : ℤ) p.iResidue with hmore | hless
  · rw [min_eq_left hmore]
    congr 1
    omega
  · rw [min_eq_right hless.le, sub_self, show p.iResidue.toNat - maxPacketSize0 = 0 by omega]
    rfl

/-- While data goes to the host, each interrupt for endpoint 0x80 sends its next packet. -/
theorem run_inn {p : ControlPipe σ} (h : 0 ≤ p.iResidue) {es : List EpInterrupt}
    (hes : ∀ e ∈ es, e = .inn ∨ e = .out (some [])) :
    let p' := run (usbHandleControlTransfer stack) p es
    p'.told = p.told ++ (packets maxPacketSize0
        (octetsAt p.memory p.pbData p.iResidue.toNat) (es.count .inn)).map .write ∧
      p'.app = p.app ∧ p'.memory = p.memory := by
  induction es generalizing p with
  | nil => simp
  | cons e es ih =>
    have htail : ∀ e ∈ es, e = .inn ∨ e = .out (some []) :=
      fun e he => hes e (List.mem_cons_of_mem _ he)
    rw [run_cons]
    rcases hes e List.mem_cons_self with rfl | rfl
    · have hleft : 0 ≤ (dataIn p).iResidue := by
        simp only [dataIn]
        omega
      obtain ⟨htold, happ, hmemory⟩ := ih hleft htail
      rw [List.count_cons_self, packets_succ, List.map_cons]
      refine ⟨?_, happ, hmemory⟩
      rw [octetsAt_dataIn, dataIn_told h, List.append_assoc] at htold
      exact htold
    · rw [out_empty, List.count_cons_of_ne (by simp)]
      exact ih h htail

/-- A setup packet without data from the host has the request handled at once. -/
theorem setup_handled {p q : ControlPipe σ} {packet : Option (Vector U8 8)} {h : Handled σ}
    (hq : q = setupRequest stack p packet) (hh : h = handleRequest stack q)
    (hdir : q.setup.wLength = 0 ∨ reqtypeGetDir q.setup.bmRequestType = reqtypeDirToHost) :
    let p' : ControlPipe σ :=
      { q with iLen := h.piLen, pbData := h.ppbData, memory := h.memory, app := h.app }
    usbHandleControlTransfer stack p (.setup packet) =
      if h.success then dataIn { p' with iResidue := min h.piLen q.setup.wLength.toNat }
      else stallControlPipe p' := by
  simp only [usbHandleControlTransfer, requestHandled, ← hq, ← hh]
  exact if_pos hdir

/-- **The reply arrives.** The interrupts after a setup packet to the host, in any order with the
zero-length packets of the host, send the reply in packets, and as soon as the host has as many of
them as it waits for, it has the reply, cut to what it asked for. -/
theorem controlIn_delivers (p : ControlPipe σ) (packet : Option (Vector U8 8))
    {es : List EpInterrupt} {q : ControlPipe σ} {h : Handled σ}
    (hq : q = setupRequest stack p packet) (hh : h = handleRequest stack q)
    (hdir : q.setup.wLength = 0 ∨ reqtypeGetDir q.setup.bmRequestType = reqtypeDirToHost)
    (hsuccess : h.success = true) (hlen : 0 ≤ h.piLen)
    (hes : ∀ e ∈ es, e = .inn ∨ e = .out (some [])) :
    let reply := octetsAt h.memory h.ppbData (min h.piLen q.setup.wLength.toNat).toNat
    let sent := packets maxPacketSize0 reply (es.count .inn + 1)
    let p' := run (usbHandleControlTransfer stack) p (.setup packet :: es)
    p'.told = p.told ++ sent.map .write ∧ p'.app = h.app ∧ p'.memory = h.memory ∧
      (0 < q.setup.wLength.toNat → gather maxPacketSize0 q.setup.wLength.toNat sent =
        if needed maxPacketSize0 q.setup.wLength.toNat reply.length ≤ es.count .inn + 1 then
          some reply
        else none) := by
  intro reply sent p'
  let first : ControlPipe σ := { q with
    iLen := h.piLen, pbData := h.ppbData, memory := h.memory, app := h.app
    iResidue := min h.piLen q.setup.wLength.toNat }
  have hnonneg : 0 ≤ first.iResidue := le_min hlen (Int.natCast_nonneg _)
  have hsetup : usbHandleControlTransfer stack p (.setup packet) = dataIn first :=
    (setup_handled stack hq hh hdir).trans (if_pos hsuccess)
  have hleft : 0 ≤ (dataIn first).iResidue := by
    simp only [dataIn]
    omega
  have hbefore : first.told = p.told := by rw [show first.told = q.told from rfl, hq]; rfl
  obtain ⟨htold, happ, hmemory⟩ := run_inn stack hleft hes
  have hp' : p' = run (usbHandleControlTransfer stack) (dataIn first) es := by
    rw [← hsetup]
    rfl
  have hsent : sent = _ := packets_succ _
  rw [hp', hsent]
  refine ⟨?_, happ, hmemory, fun hpos => hsent ▸ gather_packets (by decide) hpos ?_ _⟩
  · rw [htold, octetsAt_dataIn, dataIn_told hnonneg, hbefore, List.append_assoc, List.map_cons]
    rfl
  · rw [length_octetsAt]
    omega

/-- A request that is refused stalls the endpoint. -/
theorem controlIn_refused (p : ControlPipe σ) (packet : Option (Vector U8 8))
    {es : List EpInterrupt} {q : ControlPipe σ} {h : Handled σ}
    (hq : q = setupRequest stack p packet) (hh : h = handleRequest stack q)
    (hdir : q.setup.wLength = 0 ∨ reqtypeGetDir q.setup.bmRequestType = reqtypeDirToHost)
    (hsuccess : h.success = false) (hes : ∀ e ∈ es, e = .inn ∨ e = .out (some [])) :
    let p' := run (usbHandleControlTransfer stack) p (.setup packet :: es)
    p.told ++ [.stall] <+: p'.told ∧ p'.app = h.app ∧ p'.memory = h.memory := by
  intro p'
  have hstalled := setup_handled stack hq hh hdir
  dsimp only at hstalled
  rw [hsuccess, if_neg Bool.false_ne_true] at hstalled
  obtain ⟨x, hx⟩ : ∃ x, x = usbHandleControlTransfer stack p (.setup packet) := ⟨_, rfl⟩
  rw [← hx] at hstalled
  have hresidue : 0 ≤ x.iResidue := by
    rw [hstalled, hq]
    exact Int.natCast_nonneg _
  have hbefore : x.told = p.told ++ [.stall] := by
    rw [hstalled, hq]
    rfl
  obtain ⟨htold, happ, hmemory⟩ := run_inn stack hresidue hes
  rw [show p' = run (usbHandleControlTransfer stack) x es by rw [hx]; rfl]
  refine ⟨?_, by rw [happ, hstalled]; rfl, by rw [hmemory, hstalled]; rfl⟩
  rw [htold, hbefore]
  exact List.prefix_append _ _

/-! ## To the device -/

/-- The octets of the valid packets. -/
def validOctets (ps : List (Option (List U8))) : List U8 := ps.flatMap (·.getD [])

@[simp] theorem validOctets_nil : validOctets [] = [] := rfl

@[simp] theorem validOctets_none (ps : List (Option (List U8))) :
    validOctets (none :: ps) = validOctets ps := rfl

@[simp] theorem validOctets_some (o : List U8) (ps : List (Option (List U8))) :
    validOctets (some o :: ps) = o ++ validOctets ps := rfl

/-- The state once octets have been received and more are to come; an invalid packet stalls the
endpoint and is not counted. -/
def gathered (q : ControlPipe σ) (data : List U8) (stalls : ℕ) : ControlPipe σ :=
  { q with
    memory := storedAt q.memory q.pbData data
    pbData := q.pbData + data.length
    iResidue := q.iResidue - data.length
    told := q.told ++ List.replicate stalls .stall }

/-- The request as it is handled with its data in the store. -/
def handledWith (q : ControlPipe σ) (data : List U8) : Handled σ :=
  handleRequest stack { q with memory := storedAt q.memory q.pbData data }

/-- A packet that does not come whole stalls the pipe. -/
theorem out_unread {p : ControlPipe σ} (hleft : 0 < p.iResidue) :
    usbHandleControlTransfer stack p (.out none) = stallControlPipe p := by
  rw [usbHandleControlTransfer, if_pos hleft, usbHwEpRead, storeData,
    if_pos (show (-1 : ℤ) < 0 by decide)]

theorem out_read {p : ControlPipe σ} (hleft : 0 < p.iResidue) (o : List U8) :
    usbHandleControlTransfer stack p (.out (some o)) =
      storeData stack p o.length (storedAt p.memory p.pbData (o.take p.iResidue.toNat)) := by
  rw [usbHandleControlTransfer, if_pos hleft, usbHwEpRead]

/-- A packet that is not the last one of the data is stored. -/
theorem storeData_of_ne {p : ControlPipe σ} {iChunk : ℕ} {memory : ℤ → U8}
    (hlast : p.iResidue - iChunk ≠ 0) : storeData stack p iChunk memory = { p with
      memory := memory
      pbData := p.pbData + iChunk
      iResidue := p.iResidue - iChunk } := by
  rw [storeData, if_neg (by omega)]
  exact if_neg hlast

/-- The state once the request has been handled, and answered by a zero-length packet or a stall. -/
def answered (q : ControlPipe σ) (data : List U8) (stalls : ℕ) : ControlPipe σ :=
  let h := handledWith stack q data
  { q with
    iLen := h.piLen
    pbData := h.ppbData
    iResidue := 0
    memory := h.memory
    app := h.app
    told := q.told ++ List.replicate stalls .stall ++
      [if h.success then .write [] else .stall] }

section Out

variable {q : ControlPipe σ} {data : List U8} {stalls : ℕ}

theorem gathered_nil : gathered q [] 0 = q := by simp [gathered]

theorem out_none (h : data.length < q.iResidue) :
    usbHandleControlTransfer stack (gathered q data stalls) (.out none) =
      gathered q data (stalls + 1) := by
  have hleft : 0 < (gathered q data stalls).iResidue := Int.sub_pos_of_lt h
  rw [out_unread stack hleft, stallControlPipe, gathered, gathered, List.append_assoc,
    List.replicate_succ']

/-- What reading a packet does before the residue is looked at. -/
theorem storedAt_gathered (hpb : 0 < q.pbData) (o : List U8) :
    storedAt (gathered q data stalls).memory (gathered q data stalls).pbData o =
      (gathered q (data ++ o) stalls).memory := storedAt_append hpb data o

theorem out_more (hpb : 0 < q.pbData) (h : data.length < q.iResidue) {o : List U8}
    (ho : data.length + o.length < q.iResidue) :
    usbHandleControlTransfer stack (gathered q data stalls) (.out (some o)) =
      gathered q (data ++ o) stalls := by
  have hleft : 0 < (gathered q data stalls).iResidue := Int.sub_pos_of_lt h
  have htake : o.take (gathered q data stalls).iResidue.toNat = o := by
    apply List.take_of_length_le
    simp only [gathered]
    omega
  have hmore : (gathered q data stalls).iResidue - o.length ≠ 0 := by
    simp only [gathered]
    omega
  rw [out_read stack hleft, storeData_of_ne stack hmore, htake, storedAt_gathered hpb]
  simp only [gathered, List.length_append, Nat.cast_add, add_assoc, sub_sub]

/-- The last packet. -/
theorem out_last (hpb : 0 < q.pbData)
    (hstore : q.pbData = stack.apbDataStore (reqtypeGetType q.setup.bmRequestType))
    (h : data.length < q.iResidue) {o : List U8} (ho : data.length + o.length = q.iResidue) :
    usbHandleControlTransfer stack (gathered q data stalls) (.out (some o)) =
      answered stack q (data ++ o) stalls := by
  have hleft : 0 < (gathered q data stalls).iResidue := Int.sub_pos_of_lt h
  have htake : o.take (gathered q data stalls).iResidue.toNat = o := by
    apply List.take_of_length_le
    simp only [gathered]
    omega
  have hlast : (gathered q data stalls).iResidue - o.length = 0 := by
    simp only [gathered]
    omega
  rw [out_read stack hleft, storeData, if_neg (by omega), if_pos hlast, htake,
    storedAt_gathered hpb, hlast]
  obtain ⟨y, hy⟩ : ∃ y : ControlPipe σ, y = { gathered q (data ++ o) stalls with
    pbData := stack.apbDataStore (reqtypeGetType q.setup.bmRequestType), iResidue := 0 } := ⟨_, rfl⟩
  have hrequest : handleRequest stack y = handledWith stack q (data ++ o) := by
    rw [hy, ← hstore]
    rfl
  have hgoal : (if (handleRequest stack y).success then dataIn (requestHandled stack y)
      else stallControlPipe (requestHandled stack y)) = answered stack q (data ++ o) stalls := by
    simp only [requestHandled, hrequest, dataIn, stallControlPipe, answered]
    rw [hy]
    by_cases hsuccess : (handledWith stack q (data ++ o)).success
    · simp [hsuccess, octetsAt, gathered]
    · simp [hsuccess, gathered]
  rw [hy] at hgoal
  exact hgoal

/-- A packet that brings more than was announced. -/
theorem out_over (hpb : 0 < q.pbData) (h : data.length < q.iResidue) {o : List U8}
    (ho : q.iResidue < data.length + o.length) :
    let x := usbHandleControlTransfer stack (gathered q data stalls) (.out (some o))
    x.iResidue ≤ 0 ∧ x.app = q.app ∧
      x.memory = storedAt q.memory q.pbData ((data ++ o).take q.iResidue.toNat) := by
  intro x
  have hleft : 0 < (gathered q data stalls).iResidue := Int.sub_pos_of_lt h
  have hover : (gathered q data stalls).iResidue - o.length ≠ 0 := by
    simp only [gathered]
    omega
  have hx : x = { gathered q data stalls with
      memory := (gathered q (data ++ o.take (gathered q data stalls).iResidue.toNat) stalls).memory
      pbData := (gathered q data stalls).pbData + o.length
      iResidue := (gathered q data stalls).iResidue - o.length } := by
    show usbHandleControlTransfer stack (gathered q data stalls) (.out (some o)) = _
    rw [out_read stack hleft, storeData_of_ne stack hover, storedAt_gathered hpb]
  rw [hx]
  refine ⟨?_, rfl, ?_⟩
  · simp only [gathered]
    omega
  · rw [List.take_append, List.take_of_length_le (show data.length ≤ q.iResidue.toNat by omega)]
    simp only [gathered]
    rw [show (q.iResidue - data.length).toNat = q.iResidue.toNat - data.length by omega]

/-- With nothing left to receive, packets are absorbed. -/
theorem run_absorbed {x : ControlPipe σ} (hx : x.iResidue ≤ 0) (ps : List (Option (List U8))) :
    run (usbHandleControlTransfer stack) x (ps.map .out) = x := by
  induction ps with
  | nil => rfl
  | cons p ps ih =>
    rw [List.map_cons, run_cons,
      show usbHandleControlTransfer stack x (.out p) = x from if_neg (by omega), ih]

/-- The packets after a setup packet, when some of the data has come. -/
theorem run_out (hpb : 0 < q.pbData)
    (hstore : q.pbData = stack.apbDataStore (reqtypeGetType q.setup.bmRequestType))
    (h : data.length < q.iResidue) (ps : List (Option (List U8))) :
    let x := run (usbHandleControlTransfer stack) (gathered q data stalls) (ps.map .out)
    (∀ pre, pre <+: ps → data.length + (validOctets pre).length = q.iResidue →
        ∃ k ≤ stalls + pre.count none, x = answered stack q (data ++ validOctets pre) k) ∧
      ((∀ pre, pre <+: ps → data.length + (validOctets pre).length ≠ q.iResidue) →
        x.app = q.app ∧
          x.iResidue ≤ max 0 (q.iResidue - (data.length + (validOctets ps).length)) ∧
          x.memory = storedAt q.memory q.pbData
            ((data ++ validOctets ps).take q.iResidue.toNat)) := by
  induction ps generalizing data stalls with
  | nil =>
    refine ⟨fun pre hpre htotal => ?_, fun _ => ⟨rfl, ?_, ?_⟩⟩
    · rw [List.prefix_nil.1 hpre, validOctets_nil, List.length_nil] at htotal
      omega
    · rw [validOctets_nil, List.length_nil, Nat.cast_zero, add_zero]
      exact le_max_right _ _
    · rw [validOctets_nil, List.append_nil, List.take_of_length_le (by omega)]
      rfl
  | cons e ps ih =>
    have hcons : ∀ {pre}, pre <+: e :: ps → data.length + (validOctets pre).length = q.iResidue →
        ∃ pre', pre = e :: pre' ∧ pre' <+: ps := by
      intro pre hpre htotal
      cases pre with
      | nil =>
        rw [validOctets_nil, List.length_nil] at htotal
        omega
      | cons f pre =>
        obtain ⟨rfl, hrest⟩ := List.cons_prefix_cons.1 hpre
        exact ⟨pre, rfl, hrest⟩
    rw [List.map_cons, run_cons]
    cases e with
    | none =>
      rw [out_none stack h]
      obtain ⟨hhandled, hnot⟩ := @ih data (stalls + 1) h
      refine ⟨fun pre hpre htotal => ?_, fun hne => hnot fun pre hpre =>
        hne (none :: pre) (List.cons_prefix_cons.2 ⟨rfl, hpre⟩)⟩
      obtain ⟨pre, rfl, hrest⟩ := hcons hpre htotal
      obtain ⟨k, hk, hx⟩ := hhandled pre hrest htotal
      exact ⟨k, by rw [List.count_cons_self]; omega, hx⟩
    | some o =>
      rcases lt_trichotomy ((data.length : ℤ) + o.length) q.iResidue with hmore | hlast | hover
      · rw [out_more stack hpb h hmore]
        obtain ⟨hhandled, hnot⟩ := @ih (data ++ o) stalls
          (by rw [List.length_append]; omega)
        rw [List.length_append, Nat.cast_add, add_assoc, List.append_assoc] at hnot
        rw [validOctets_some, List.length_append, Nat.cast_add]
        refine ⟨fun pre hpre htotal => ?_, fun hne => hnot fun pre hpre htotal =>
          hne (some o :: pre) (List.cons_prefix_cons.2 ⟨rfl, hpre⟩) ?_⟩
        · obtain ⟨pre, rfl, hrest⟩ := hcons hpre htotal
          rw [validOctets_some, List.length_append] at htotal
          obtain ⟨k, hk, hx⟩ := hhandled pre hrest (by rw [List.length_append]; omega)
          rw [List.count_cons_of_ne (by simp)]
          exact ⟨k, hk, by rw [validOctets_some, ← List.append_assoc]; exact hx⟩
        · rw [validOctets_some, List.length_append]
          omega
      · rw [out_last stack hpb hstore h hlast, run_absorbed stack (le_refl (0 : ℤ))]
        refine ⟨fun pre hpre htotal => ?_, fun hne => absurd ?_
          (hne [some o] (List.cons_prefix_cons.2 ⟨rfl, List.nil_prefix⟩))⟩
        · obtain ⟨pre, rfl, -⟩ := hcons hpre htotal
          rw [validOctets_some, List.length_append] at htotal
          have hempty : validOctets pre = [] := List.eq_nil_of_length_eq_zero (by omega)
          exact ⟨stalls, Nat.le_add_right _ _, by rw [validOctets_some, hempty, List.append_nil]⟩
        · rw [validOctets_some, validOctets_nil, List.append_nil]
          exact hlast
      · obtain ⟨hdone, happ, hmemory⟩ := out_over stack hpb h hover
        rw [run_absorbed stack hdone]
        refine ⟨fun pre hpre htotal => ?_, fun _ => ⟨happ, hdone.trans (le_max_left _ _), ?_⟩⟩
        · obtain ⟨pre, rfl, -⟩ := hcons hpre htotal
          rw [validOctets_some, List.length_append] at htotal
          omega
        · have hfull : q.iResidue.toNat ≤ (data ++ o).length := by
            rw [List.length_append]
            omega
          rw [hmemory, validOctets_some, ← List.append_assoc, List.take_append_of_le_length hfull]

/-- The state after a setup packet that announces data. -/
theorem setup_out {p : ControlPipe σ} {packet : Option (Vector U8 8)}
    (hq : q = setupRequest stack p packet) (hlen : q.setup.wLength ≠ 0)
    (hdir : reqtypeGetDir q.setup.bmRequestType ≠ reqtypeDirToHost) :
    usbHandleControlTransfer stack p (.setup packet) = q ∧
      q.pbData = stack.apbDataStore (reqtypeGetType q.setup.bmRequestType) ∧
      q.iResidue = q.setup.wLength.toNat ∧ 0 < q.iResidue := by
  have hresidue : q.iResidue = q.setup.wLength.toNat := by rw [hq]; rfl
  have hpos : 0 < q.setup.wLength.toNat := by
    rw [Nat.pos_iff_ne_zero]
    exact fun h0 => hlen (BitVec.eq_of_toNat_eq h0)
  refine ⟨?_, by rw [hq]; rfl, hresidue, by omega⟩
  simp only [usbHandleControlTransfer, ← hq]
  exact if_neg fun h => h.elim hlen hdir

/-- **Data arrives.** Of the packets after a setup packet from the host, whatever their lengths: if
the valid ones among the first of them add up to what was announced, the request is handled once,
with their octets in its store, and answered; otherwise it is never handled, and no more of them is
stored than was announced. -/
theorem controlOut_delivers {p : ControlPipe σ} {packet : Option (Vector U8 8)}
    (ps : List (Option (List U8))) (hq : q = setupRequest stack p packet)
    (hlen : q.setup.wLength ≠ 0)
    (hdir : reqtypeGetDir q.setup.bmRequestType ≠ reqtypeDirToHost) (hpb : 0 < q.pbData) :
    let p' := run (usbHandleControlTransfer stack) p (.setup packet :: ps.map .out)
    (∀ pre, pre <+: ps → (validOctets pre).length = q.setup.wLength.toNat →
        ∃ k ≤ pre.count none, p' = answered stack q (validOctets pre) k) ∧
      ((∀ pre, pre <+: ps → (validOctets pre).length ≠ q.setup.wLength.toNat) →
        p'.app = p.app ∧ p'.memory =
          storedAt p.memory q.pbData ((validOctets ps).take q.setup.wLength.toNat)) := by
  obtain ⟨hsetup, hstore, hresidue, hpos⟩ := setup_out stack hq hlen hdir
  have hrun := @run_out _ stack q [] 0 hpb hstore (by simpa using hpos) ps
  simp only [gathered_nil, hresidue, List.length_nil, Nat.cast_zero, zero_add, List.nil_append,
    Nat.cast_inj, ne_eq, Int.toNat_natCast] at hrun
  rw [run_cons, hsetup]
  refine ⟨hrun.1, fun hne => ?_⟩
  obtain ⟨happ, -, hmemory⟩ := hrun.2 hne
  have hpapp : q.app = p.app := by rw [hq]; rfl
  have hpmemory : q.memory = p.memory := by rw [hq]; rfl
  exact ⟨happ.trans hpapp, hpmemory ▸ hmemory⟩

/-- What is left when nothing is: no more is stored, and nothing handled. -/
theorem run_done {x : ControlPipe σ} (hx : x.iResidue ≤ 0) {es : List EpInterrupt}
    (hes : ∀ e ∈ es, ∀ packet, e ≠ .setup packet) :
    let x' := run (usbHandleControlTransfer stack) x es
    x'.app = x.app ∧ x'.memory = x.memory := by
  suffices hinvariant : let x' := run (usbHandleControlTransfer stack) x es
      x'.iResidue ≤ 0 ∧ x'.app = x.app ∧ x'.memory = x.memory from hinvariant.2
  refine run_invariant
    (I := fun y : ControlPipe σ => y.iResidue ≤ 0 ∧ y.app = x.app ∧ y.memory = x.memory)
    (C := fun _ (e : EpInterrupt) => ∀ packet, e ≠ .setup packet) (fun y e hy he => ?_)
    ⟨hx, rfl, rfl⟩ (along_of_forall hes)
  cases e with
  | setup packet => exact absurd rfl (he packet)
  | out packet =>
    rwa [show usbHandleControlTransfer stack y (.out packet) = y from if_neg (by omega)]
  | inn =>
    refine ⟨?_, hy.2⟩
    have hleft := hy.1
    simp only [usbHandleControlTransfer, dataIn]
    omega

/-- **An interrupt too many.** If a packet was sent to the host before the setup packet, and its
interrupt is handled only when no more than a packet of the data is missing, the request is not
handled, whatever follows up to the next setup packet. -/
theorem controlOut_lost_of_inn {p : ControlPipe σ} {packet : Option (Vector U8 8)}
    (ps : List (Option (List U8))) {es : List EpInterrupt} (hq : q = setupRequest stack p packet)
    (hlen : q.setup.wLength ≠ 0)
    (hdir : reqtypeGetDir q.setup.bmRequestType ≠ reqtypeDirToHost) (hpb : 0 < q.pbData)
    (hps : ∀ pre, pre <+: ps → (validOctets pre).length ≠ q.setup.wLength.toNat)
    (hmissing : q.setup.wLength.toNat ≤ (validOctets ps).length + maxPacketSize0)
    (hes : ∀ e ∈ es, ∀ packet, e ≠ .setup packet) :
    (run (usbHandleControlTransfer stack) p
      (.setup packet :: (ps.map .out ++ .inn :: es))).app = p.app := by
  obtain ⟨hsetup, hstore, hresidue, hpos⟩ := setup_out stack hq hlen hdir
  have hrun := (@run_out _ stack q [] 0 hpb hstore (by simpa using hpos) ps).2
  simp only [gathered_nil, hresidue, List.length_nil, Nat.cast_zero, zero_add, Nat.cast_inj,
    ne_eq] at hrun
  obtain ⟨happ, hleft, -⟩ := hrun hps
  rw [run_cons, hsetup, run_append, run_cons]
  set x := run (usbHandleControlTransfer stack) q (ps.map .out) with hx
  have hdone : (usbHandleControlTransfer stack x .inn).iResidue ≤ 0 := by
    simp only [usbHandleControlTransfer, dataIn]
    have hsize : (maxPacketSize0 : ℤ) = 64 := rfl
    omega
  have hpapp : q.app = p.app := by rw [hq]; rfl
  rw [(run_done stack hdone hes).1, ← hpapp, ← happ]
  rfl

/-! ## Where data is stored -/

/-- The handler of a type of request, called with its store, does not change the octet at an
address. -/
def Keeps (iType : ReqType) (a : ℤ) : Prop :=
  ∀ h, stack.apfnReqHandlers iType = some h → ∀ pSetup piLen memory app,
    (h pSetup piLen (stack.apbDataStore iType) memory app).memory a = memory a

theorem handleRequest_keeps {a : ℤ} (x : ControlPipe σ)
    (ha : Keeps stack (reqtypeGetType x.setup.bmRequestType) a)
    (hx : x.pbData = stack.apbDataStore (reqtypeGetType x.setup.bmRequestType)) :
    (handleRequest stack x).memory a = x.memory a := by
  have hhandler : ∀ handler,
      stack.apfnReqHandlers (reqtypeGetType x.setup.bmRequestType) = some handler →
      (handler x.setup x.iLen x.pbData x.memory x.app).memory a = x.memory a := by
    intro handler hhandler
    rw [hx]
    exact ha handler hhandler _ _ _ _
  rw [handleRequest]
  split_ifs
  · split
    · rfl
    · split
      · rfl
      · exact hhandler _ (by assumption)
  · split
    · rfl
    · exact hhandler _ (by assumption)

/-- While data is received, what is left to receive lies where the setup packet put it. -/
structure Inside (q : ControlPipe σ) (a : ℤ) (x : ControlPipe σ) : Prop where
  left : x.iResidue ≤ 0 ∨
    q.pbData ≤ x.pbData ∧ x.pbData + x.iResidue ≤ q.pbData + q.iResidue
  setup : x.setup = q.setup
  kept : x.memory a = q.memory a

theorem inside_dataIn {a : ℤ} {x : ControlPipe σ} (hx : Inside q a x) : Inside q a (dataIn x) := by
  refine ⟨?_, hx.setup, hx.kept⟩
  have hleft := hx.left
  simp only [dataIn]
  omega

theorem inside_step {a : ℤ} (ha : Keeps stack (reqtypeGetType q.setup.bmRequestType) a)
    (hout : ¬(q.pbData ≤ a ∧ a < q.pbData + q.iResidue)) {x : ControlPipe σ} {e : EpInterrupt}
    (hx : Inside q a x) (he : ∀ packet, e ≠ .setup packet) :
    Inside q a (usbHandleControlTransfer stack x e) := by
  cases e with
  | setup packet => exact absurd rfl (he packet)
  | inn => exact inside_dataIn hx
  | out packet =>
    rw [usbHandleControlTransfer]
    split_ifs with hpos
    swap
    · exact hx
    have hleft := hx.left.resolve_left (by omega)
    cases packet with
    | none => exact ⟨hx.left, hx.setup, hx.kept⟩
    | some o =>
      have hkept : (storedAt x.memory x.pbData (o.take x.iResidue.toNat)) a = q.memory a := by
        rw [← hx.kept]
        refine storedAt_of_not fun hin => hout ⟨by omega, ?_⟩
        have hlength := hin.2
        rw [List.length_take] at hlength
        omega
      rw [← hx.setup] at ha
      have hhandled : ∀ y : ControlPipe σ, y.setup = x.setup →
          y.pbData = stack.apbDataStore (reqtypeGetType x.setup.bmRequestType) →
          y.memory a = q.memory a → (handleRequest stack y).memory a = q.memory a := by
        intro y hsetup hpb hy
        rw [← hy]
        exact handleRequest_keeps stack y (hsetup ▸ ha) (hsetup ▸ hpb)
      rw [usbHwEpRead, storeData, if_neg (by omega)]
      dsimp only
      split_ifs with hlast hsuccess
      · exact inside_dataIn ⟨.inl (le_of_eq hlast), hx.setup, hhandled _ rfl rfl hkept⟩
      · exact ⟨.inl (le_of_eq hlast), hx.setup, hhandled _ rfl rfl hkept⟩
      · refine ⟨?_, hx.setup, hkept⟩
        show x.iResidue - o.length ≤ 0 ∨ q.pbData ≤ x.pbData + o.length ∧
          x.pbData + o.length + (x.iResidue - o.length) ≤ q.pbData + q.iResidue
        omega

/-- What the host sends after a setup packet that announces data is stored where its type of request
has its store, no further than was announced, in whatever order interrupts are handled. -/
theorem controlOut_frame {p : ControlPipe σ} {packet : Option (Vector U8 8)}
    {es : List EpInterrupt} {a : ℤ} (hq : q = setupRequest stack p packet)
    (hlen : q.setup.wLength ≠ 0)
    (hdir : reqtypeGetDir q.setup.bmRequestType ≠ reqtypeDirToHost)
    (ha : Keeps stack (reqtypeGetType q.setup.bmRequestType) a)
    (hout : ¬(q.pbData ≤ a ∧ a < q.pbData + q.setup.wLength.toNat))
    (hes : ∀ e ∈ es, ∀ packet, e ≠ .setup packet) :
    (run (usbHandleControlTransfer stack) p (.setup packet :: es)).memory a = p.memory a := by
  obtain ⟨hsetup, -, hresidue, -⟩ := setup_out stack hq hlen hdir
  rw [← hresidue] at hout
  have hstart : Inside q a q := ⟨.inr ⟨le_refl _, le_refl _⟩, rfl, rfl⟩
  have hinside : Inside q a (run (usbHandleControlTransfer stack) q es) := run_invariant
    (C := fun _ e => ∀ packet, e ≠ .setup packet)
    (fun x e hx he => inside_step stack ha hout hx he) hstart (along_of_forall hes)
  have hmemory : q.memory = p.memory := by rw [hq]; rfl
  rw [run_cons, hsetup, hinside.kept, hmemory]

/-- The packets that a host sends of its data. -/
def sentBy (data : List U8) : List (Option (List U8)) :=
  (packets maxPacketSize0 data ((data.length + maxPacketSize0 - 1) / maxPacketSize0)).map some

theorem validOctets_sentBy (data : List U8) : validOctets (sentBy data) = data := by
  rw [validOctets, sentBy, List.flatMap_map]
  show (packets maxPacketSize0 data _).flatMap id = data
  rw [List.flatMap_id, flatten_packets, List.take_of_length_le]
  show data.length ≤ 64 * ((data.length + 64 - 1) / 64)
  omega

/-- **The store holds what it is asked to.** After a setup packet that announces data, the host can
only change octets of a store of `size` octets, in whatever order interrupts are handled, if and
only if it announced no more than `size`. -/
theorem controlOut_inside_iff {p : ControlPipe σ} {packet : Option (Vector U8 8)} {size : ℕ}
    (hq : q = setupRequest stack p packet) (hlen : q.setup.wLength ≠ 0)
    (hdir : reqtypeGetDir q.setup.bmRequestType ≠ reqtypeDirToHost) (hpb : 0 < q.pbData)
    (hkeeps : ∀ a, ¬(q.pbData ≤ a ∧ a < q.pbData + size) →
      Keeps stack (reqtypeGetType q.setup.bmRequestType) a) :
    (∀ es : List EpInterrupt, (∀ e ∈ es, ∀ packet, e ≠ .setup packet) →
      ∀ a, ¬(q.pbData ≤ a ∧ a < q.pbData + size) →
        (run (usbHandleControlTransfer stack) p (.setup packet :: es)).memory a = p.memory a) ↔
      q.setup.wLength.toNat ≤ size := by
  constructor
  · intro h
    by_contra hmore
    -- the last octet announced is past the store, and the host chooses it
    set last : ℤ := q.pbData + (q.setup.wLength.toNat - 1 : ℕ) with hlast
    have hpast : ¬(q.pbData ≤ last ∧ last < q.pbData + size) := by omega
    set data := List.replicate q.setup.wLength.toNat (p.memory last + 1) with hdata
    have hlength : data.length = q.setup.wLength.toNat := List.length_replicate
    obtain ⟨k, -, hk⟩ := (controlOut_delivers stack (sentBy data) hq hlen hdir hpb).1 _
      List.prefix_rfl (by rw [validOctets_sentBy, hlength])
    have hsame := h ((sentBy data).map .out) (fun e he packet heq => by
      obtain ⟨_, -, rfl⟩ := List.mem_map.1 he
      cases heq) last hpast
    rw [hk, validOctets_sentBy] at hsame
    have hstored : (answered stack q data k).memory last = p.memory last + 1 := by
      have hkept : (handledWith stack q data).memory last =
          storedAt q.memory q.pbData data last :=
        handleRequest_keeps stack { q with memory := storedAt q.memory q.pbData data }
          (hkeeps last hpast) (setup_out stack hq hlen hdir).2.1
      show (handledWith stack q data).memory last = _
      rw [hkept, storedAt_of_mem hpb (by omega), List.getD_eq_getElem _ _ (by omega)]
      exact List.getElem_replicate _
    rw [hstored] at hsame
    exact absurd hsame (by simp)
  · intro hsize es hes a ha
    exact controlOut_frame stack hq hlen hdir (hkeeps a ha) (fun hin => ha ⟨hin.1, by omega⟩) hes

end Out

end Ubertooth.Usb
