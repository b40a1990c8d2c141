import Ubertooth.Usb.ControlSession
import Ubertooth.Firmware.UbertoothUsb

/-!
# Enumeration

What the host learns of the device by standard requests. A table of descriptors that can be walked
(`DescriptorTable`) answers a request for a descriptor with exactly the octets of that descriptor
(`octetsAt_find`), and they arrive (`descriptor_delivered`). One string is not in the table: the OS
string descriptor, which names the vendor request for descriptors of the OS, and which the request
for it completes.
-/

namespace Ubertooth.Usb

open Foundations Firmware

/-- A table of descriptors whose lengths can be gone by. -/
structure DescriptorTable where
  records : List (List U8)
  lengths : ∀ r ∈ records, IsRecord BitVec.toNat r
  totals : ∀ rs ∈ fromEach records, field rs.flatten 1 = descConfiguration →
    (wordField rs.flatten 2).toNat ≤ rs.flatten.length

namespace DescriptorTable

variable (t : DescriptorTable)

/-- The table as the firmware has it. -/
def octets : List U8 := t.records.flatten ++ [0]

/-- The descriptors from the one on that is asked for. -/
def find (bType : U8) (bIndex : ℕ) : Option (List (List U8)) :=
  ((fromEach t.records).filter fun rs => field rs.flatten 1 == bType)[bIndex]?

/-- The octets of a descriptor: a configuration has all that belongs to it. -/
def descriptor (bType : U8) (bIndex : ℕ) : Option (List U8) :=
  (t.find bType bIndex).map fun rs => rs.flatten.take (descriptorLen rs.flatten)

variable {t}

theorem mem_of_find {bType : U8} {bIndex : ℕ} {rs : List (List U8)}
    (h : t.find bType bIndex = some rs) : rs ∈ fromEach t.records :=
  (List.mem_filter.1 (List.mem_of_getElem? h)).1

theorem length_le_flatten {rs : List (List U8)} (h : ∀ r ∈ rs, IsRecord BitVec.toNat r) :
    rs.length ≤ rs.flatten.length := by
  induction rs with
  | nil => exact Nat.zero_le _
  | cons r rs ih =>
    obtain ⟨x, xs, rfl, -⟩ := h r List.mem_cons_self
    have hrs := ih fun r hr => h r (List.mem_cons_of_mem _ hr)
    simp only [List.flatten_cons, List.length_append, List.length_cons]
    omega

theorem descriptorStops_octets :
    descriptorStops t.octets = (fromEach t.records).map (·.flatten ++ [0]) := by
  refine stops_flatten t.lengths rfl [] ?_
  rw [octets, List.length_append]
  exact Nat.lt_succ_of_le (length_le_flatten t.lengths)

/-- The zero behind the table reads like what is past it. -/
theorem field_append_zero (octets : List U8) (offset : ℕ) :
    field (octets ++ [0]) offset = field octets offset := by
  rcases Nat.lt_or_ge offset octets.length with h | h
  · exact List.getD_append _ _ _ _ h
  · rw [field, List.getD_append_right _ _ _ _ h, field, List.getD_eq_default _ _ h]
    cases offset - octets.length <;> rfl

theorem descriptorLen_append_zero (octets : List U8) :
    descriptorLen (octets ++ [0]) = descriptorLen octets := by
  simp only [descriptorLen, wordField, field_append_zero]

/-- The loop of `USBGetDescriptor` finds what is asked for. -/
theorem findNth_octets (bType : U8) (bIndex : ℕ) :
    findNth (fun pab => field pab 1 == bType) bIndex 0 (descriptorStops t.octets) =
      (t.find bType bIndex).map (·.flatten ++ [0]) := by
  have hfield : (fun pab => field pab 1 == bType) ∘ (fun rs : List (List U8) => rs.flatten ++ [0]) =
      fun rs => field rs.flatten 1 == bType := by
    funext rs
    simp only [Function.comp, field_append_zero]
  rw [descriptorStops_octets, findNth_map, findNth_eq, hfield, find]

/-- No descriptor is longer than the rest of the table. -/
theorem descriptorLen_le {rs : List (List U8)} (h : rs ∈ fromEach t.records) :
    descriptorLen rs.flatten ≤ rs.flatten.length := by
  rw [descriptorLen]
  split_ifs with hconfiguration
  · exact t.totals rs h hconfiguration
  · obtain ⟨r, ts, rfl, hsuffix⟩ := mem_fromEach h
    obtain ⟨x, xs, rfl, hlength⟩ := t.lengths r (hsuffix.subset List.mem_cons_self)
    rw [List.flatten_cons, List.length_append, ← hlength]
    exact Nat.le_add_right _ _

/-- A descriptor lies in memory where the table does. -/
theorem octetsAt_find {rs : List (List U8)} (h : rs ∈ fromEach t.records) {memory : ℤ → U8}
    {pab : ℤ} (hmemory : octetsAt memory pab t.octets.length = t.octets) {n : ℕ}
    (hn : n ≤ rs.flatten.length) :
    octetsAt memory (pab + (t.octets.length - (rs.flatten ++ [0]).length : ℕ)) n =
      rs.flatten.take n := by
  obtain ⟨r, ts, rfl, ⟨before, hrecords⟩⟩ := mem_fromEach h
  have hoctets : t.octets = before.flatten ++ ((r :: ts).flatten ++ [0]) := by
    rw [octets, ← hrecords, List.flatten_append, List.append_assoc]
  generalize (r :: ts).flatten = octets at *
  have hdrop := @drop_octetsAt memory pab t.octets.length before.flatten.length
  have hplace : t.octets.length - (octets ++ [0]).length = before.flatten.length := by
    rw [hoctets, List.length_append, Nat.add_sub_cancel]
  have hleft : t.octets.length - before.flatten.length = (octets ++ [0]).length := by
    rw [hoctets, List.length_append, Nat.add_sub_cancel_left]
  rw [hmemory, hleft] at hdrop
  have htake := congrArg (List.take n) hdrop
  rw [take_octetsAt, hoctets, List.drop_left, List.take_append_of_le_length hn,
    min_eq_left (by rw [List.length_append]; omega)] at htake
  rw [hplace, ← htake]

end DescriptorTable

/-! ## The firmware's table -/

section Firmware

variable {ρ : Type} (build : Build) (board : Board ρ) (layout : UsbLayout)

def firmwareTable : DescriptorTable where
  records := descriptorRecords build
  lengths := by
    intro r hr
    simp only [descriptorRecords, List.mem_cons, List.not_mem_nil, or_false] at hr
    rcases hr with rfl | rfl | rfl | rfl | rfl | rfl | rfl | rfl | rfl
    all_goals exact ⟨_, _, rfl, rfl⟩
  totals := by
    intro rs hrs
    simp only [descriptorRecords, fromEach, List.mem_cons, List.not_mem_nil, or_false] at hrs
    rcases hrs with rfl | rfl | rfl | rfl | rfl | rfl | rfl | rfl | rfl
    case inr.inl =>
      intro _
      rw [List.flatten_cons, List.flatten_cons, List.flatten_cons, List.flatten_cons,
        List.length_append, List.length_append, List.length_append, List.length_append]
      refine le_trans (b := 32) (le_of_eq rfl) ?_
      simp only [List.length_append, List.length_cons, List.length_nil, leWord]
      omega
    all_goals
      intro h
      simp [leWord] at h

example : (firmwareTable {}).descriptor descConfiguration 0 =
    some ((descriptorRecords {}).drop 1 |>.take 4).flatten := by decide

/-- A standard request reaches `USBHandleStandardRequest`. -/
theorem handleRequest_standard {q : ControlPipe (VendorState ρ)}
    (htype : reqtypeGetType q.setup.bmRequestType = reqtypeTypeStandard) :
    handleRequest (ubertoothUsbInit build board layout) q =
      onUsbDevice (usbHandleStandardRequest (registered build layout)) q.setup q.iLen q.pbData
        q.memory q.app := by
  rw [handleRequest, htype, if_neg (by decide)]
  rfl

/-- The request for a descriptor. -/
def getDescriptor (wTypeIndex wIndex wLength : U16) : SetupPacket :=
  ⟨0x80, 0x06, wTypeIndex, wIndex, wLength⟩

theorem reqtypeGetType_getDescriptor : reqtypeGetType 0x80 = reqtypeTypeStandard := by decide

theorem reqtypeGetDir_getDescriptor : reqtypeGetDir 0x80 = reqtypeDirToHost := by decide

theorem usbHandleStandardRequest_getDescriptor (t : Descriptors) (wTypeIndex wIndex wLength : U16)
    (piLen ppbData : ℤ) (memory : ℤ → U8) (u : UsbDevice) :
    usbHandleStandardRequest t (getDescriptor wTypeIndex wIndex wLength) piLen ppbData memory u =
      usbGetDescriptor t wTypeIndex piLen ppbData memory u := by
  have hrecip : (reqtypeGetRecip 0x80).toNat = 0 := by decide
  rw [usbHandleStandardRequest, getDescriptor, hrecip]
  rfl

/-- `abOsStringDescriptor`, with its last character. -/
def osStringDescriptor (last : U8) : List U8 :=
  [0x12, descString] ++ characters ['M', 'S', 'F', 'T', '1', '0', '0'] ++ [last, 0]

/-- The place of the OS string descriptor among the strings. -/
theorem osString_iff (wTypeIndex : U16) :
    octet wTypeIndex 1 = descString ∧ octet wTypeIndex 0 = descStringOs ↔ wTypeIndex = 0x03ee := by
  constructor
  · rintro ⟨htype, hindex⟩
    rw [← append_octets_pair wTypeIndex, htype, hindex]
    rfl
  · rintro rfl
    decide

/-- What a request for a descriptor of the table finds. -/
theorem usbGetDescriptor_registered {wTypeIndex : U16} (hos : wTypeIndex ≠ 0x03ee)
    (piLen ppbData : ℤ) (memory : ℤ → U8) (u : UsbDevice) :
    usbGetDescriptor (registered build layout) wTypeIndex piLen ppbData memory u =
      match (firmwareTable build).find (octet wTypeIndex 1) (octet wTypeIndex 0).toNat with
      | some rs => ⟨true, descriptorLen rs.flatten,
        layout.abDescriptors + ((abDescriptors build).length - (rs.flatten ++ [0]).length : ℕ),
        memory, u⟩
      | none => ⟨false, piLen, ppbData, memory, u⟩ := by
  rw [usbGetDescriptor, if_neg ((osString_iff wTypeIndex).not.2 hos)]
  have hfind := (firmwareTable build).findNth_octets (octet wTypeIndex 1) (octet wTypeIndex 0).toNat
  rw [show (registered build layout).abDescriptors = (firmwareTable build).octets from rfl, hfind]
  cases (firmwareTable build).find (octet wTypeIndex 1) (octet wTypeIndex 0).toNat with
  | none => rfl
  | some rs =>
    simp only [Option.map_some, DescriptorTable.descriptorLen_append_zero]
    rfl

/-- The host gets octets, cut to what it asked for, once it has asked often enough. -/
def Delivered (told told' : List EpCommand) (wLength : U16) (tokens : ℕ) (octets : List U8) :
    Prop :=
  ∃ sent, told' = told ++ sent.map .write ∧ (0 < wLength.toNat →
    gather maxPacketSize0 wLength.toNat sent =
      if needed maxPacketSize0 wLength.toNat (octets.take wLength.toNat).length ≤ tokens + 1 then
        some (octets.take wLength.toNat)
      else none)

section Answers

variable {build board layout} (p : ControlPipe (VendorState ρ)) (wTypeIndex wIndex wLength : U16)
  {is : List EpInterrupt} (his : ∀ e ∈ is, e = .inn ∨ e = .out (some []))

include his

omit his in
/-- What the request comes to. -/
theorem handleRequest_getDescriptor :
    handleRequest (ubertoothUsbInit build board layout)
        (setupRequest (ubertoothUsbInit build board layout) p
          (some (getDescriptor wTypeIndex wIndex wLength).octets)) =
      let g := usbGetDescriptor (registered build layout) wTypeIndex wLength.toNat
        layout.abStdReqData p.memory p.app.usb
      ⟨g.success, g.piLen, g.ppbData, g.memory, { p.app with usb := g.app }⟩ := by
  have htype : reqtypeGetType (getDescriptor wTypeIndex wIndex wLength).bmRequestType =
      reqtypeTypeStandard := reqtypeGetType_getDescriptor
  obtain ⟨q, hq⟩ : ∃ q, q = setupRequest (ubertoothUsbInit build board layout) p
    (some (getDescriptor wTypeIndex wIndex wLength).octets) := ⟨_, rfl⟩
  have hfields := hq.trans (setupRequest_octets _ p _)
  have hsetup : q.setup = getDescriptor wTypeIndex wIndex wLength := by rw [hfields]
  have hlen : q.iLen = wLength.toNat := by rw [hfields]; rfl
  have hpb : q.pbData = layout.abStdReqData := by rw [hfields, htype]; rfl
  have hmemory : q.memory = p.memory := by rw [hfields]
  have happ : q.app = p.app := by rw [hfields]
  rw [← hq, handleRequest_standard build board layout (q := q) (by
    rw [hsetup]
    exact htype), onUsbDevice, hsetup, hlen, hpb, hmemory, happ,
    usbHandleStandardRequest_getDescriptor]

/-- A request for a descriptor that is found. -/
theorem descriptor_found {n : ℕ} {pb : ℤ} {memory : ℤ → U8} {octets : List U8}
    (hfound : usbGetDescriptor (registered build layout) wTypeIndex wLength.toNat
      layout.abStdReqData p.memory p.app.usb = ⟨true, n, pb, memory, p.app.usb⟩)
    (hreply : octetsAt memory pb (min n wLength.toNat) = octets.take wLength.toNat) :
    let p' := run (usbHandleControlTransfer (ubertoothUsbInit build board layout)) p
      (.setup (some (getDescriptor wTypeIndex wIndex wLength).octets) :: is)
    deviceOf p' = ⟨memory, p.app⟩ ∧ Delivered p.told p'.told wLength (is.count .inn) octets := by
  intro p'
  obtain ⟨q, hq⟩ : ∃ q, q = setupRequest (ubertoothUsbInit build board layout) p
    (some (getDescriptor wTypeIndex wIndex wLength).octets) := ⟨_, rfl⟩
  have hsetup := hq.trans (setupRequest_octets _ p _)
  obtain ⟨h, hh⟩ : ∃ h, h = handleRequest (ubertoothUsbInit build board layout) q := ⟨_, rfl⟩
  have hhandled : h = ⟨true, n, pb, memory, p.app⟩ := by
    rw [hh, hq, handleRequest_getDescriptor, hfound]
  obtain ⟨htold, happ, hmem, hgather⟩ := controlIn_delivers (ubertoothUsbInit build board layout)
    p _ hq hh (.inr (by rw [hsetup]; exact reqtypeGetDir_getDescriptor)) (by rw [hhandled])
    (by rw [hhandled]; exact Int.natCast_nonneg _) his
  rw [hhandled, hsetup] at hgather htold
  simp only [← Nat.cast_min, Int.toNat_natCast] at hgather htold
  rw [show (getDescriptor wTypeIndex wIndex wLength).wLength = wLength from rfl, hreply]
    at hgather htold
  refine ⟨?_, _, htold, hgather⟩
  rw [deviceOf, happ, hmem, hhandled]

/-- One for a descriptor that is not found. -/
theorem descriptor_refused
    (hfound : (usbGetDescriptor (registered build layout) wTypeIndex wLength.toNat
      layout.abStdReqData p.memory p.app.usb) =
        ⟨false, wLength.toNat, layout.abStdReqData, p.memory, p.app.usb⟩) :
    let p' := run (usbHandleControlTransfer (ubertoothUsbInit build board layout)) p
      (.setup (some (getDescriptor wTypeIndex wIndex wLength).octets) :: is)
    deviceOf p' = deviceOf p ∧ p.told ++ [.stall] <+: p'.told := by
  intro p'
  obtain ⟨q, hq⟩ : ∃ q, q = setupRequest (ubertoothUsbInit build board layout) p
    (some (getDescriptor wTypeIndex wIndex wLength).octets) := ⟨_, rfl⟩
  have hsetup := hq.trans (setupRequest_octets _ p _)
  obtain ⟨h, hh⟩ : ∃ h, h = handleRequest (ubertoothUsbInit build board layout) q := ⟨_, rfl⟩
  have hhandled : h = ⟨false, wLength.toNat, layout.abStdReqData, p.memory, p.app⟩ := by
    rw [hh, hq, handleRequest_getDescriptor, hfound]
  obtain ⟨htold, happ, hmem⟩ := controlIn_refused (ubertoothUsbInit build board layout) p _ hq hh
    (.inr (by rw [hsetup]; exact reqtypeGetDir_getDescriptor)) (by rw [hhandled]) his
  refine ⟨?_, htold⟩
  rw [deviceOf, happ, hmem, hhandled]
  rfl

end Answers

/-- The OS string descriptor as the request for it leaves it. -/
theorem octetsAt_osString {memory : ℤ → U8} {pb : ℤ} {last : U8}
    (h : octetsAt memory pb 18 = osStringDescriptor last) (vendor : U8) :
    octetsAt (Function.update memory (pb + 16) vendor) pb 18 = osStringDescriptor vendor := by
  have hset : octetsAt (Function.update memory (pb + 16) vendor) pb 18 =
      (octetsAt memory pb 18).set 16 vendor := by
    refine List.ext_getElem (by simp [octetsAt]) fun i hi hi' => ?_
    rw [List.getElem_set]
    simp only [octetsAt, List.getElem_map, List.getElem_range, Function.update_apply]
    exact if_congr (by omega) rfl rfl
  rw [hset, h]
  rfl

/-- **Enumeration.** The host that asks for a descriptor of the table, in whatever state the
transfers before have left the pipe, gets exactly its octets, cut to what it asked for, once it has
asked often enough; a request for one that the table does not have is refused; and neither changes
anything. The OS string descriptor comes with the vendor request to use in it, which is all that
the request for it writes. -/
theorem descriptor_delivered (p : ControlPipe (VendorState ρ))
    (hmemory : octetsAt p.memory layout.abDescriptors (abDescriptors build).length =
      abDescriptors build) {last : U8}
    (hos : octetsAt p.memory layout.abOsStringDescriptor 18 = osStringDescriptor last)
    (wTypeIndex wIndex wLength : U16) {is : List EpInterrupt}
    (his : ∀ e ∈ is, e = .inn ∨ e = .out (some [])) :
    let p' := run (usbHandleControlTransfer (ubertoothUsbInit build board layout)) p
      (.setup (some (getDescriptor wTypeIndex wIndex wLength).octets) :: is)
    (wTypeIndex ≠ 0x03ee → deviceOf p' = deviceOf p ∧
      (∀ octets, (firmwareTable build).descriptor (octet wTypeIndex 1)
          (octet wTypeIndex 0).toNat = some octets →
        Delivered p.told p'.told wLength (is.count .inn) octets) ∧
      ((firmwareTable build).descriptor (octet wTypeIndex 1) (octet wTypeIndex 0).toNat = none →
        p.told ++ [.stall] <+: p'.told)) ∧
    (wTypeIndex = 0x03ee →
      deviceOf p' = ⟨Function.update p.memory (layout.abOsStringDescriptor + 16) 0xff, p.app⟩ ∧
      Delivered p.told p'.told wLength (is.count .inn) (osStringDescriptor 0xff)) := by
  intro p'
  refine ⟨fun hne => ?_, fun heq => ?_⟩
  · have hanswer := usbGetDescriptor_registered build layout hne wLength.toNat layout.abStdReqData
      p.memory p.app.usb
    rw [DescriptorTable.descriptor]
    cases hfind : (firmwareTable build).find (octet wTypeIndex 1) (octet wTypeIndex 0).toNat with
    | none =>
      rw [hfind] at hanswer
      obtain ⟨hdevice, hstall⟩ := @descriptor_refused _ build board layout p wTypeIndex wIndex
        wLength is his hanswer
      exact ⟨hdevice, fun octets h => absurd h (by simp), fun _ => hstall⟩
    | some rs =>
      rw [hfind] at hanswer
      have hlen := DescriptorTable.descriptorLen_le (DescriptorTable.mem_of_find hfind)
      have hreply := DescriptorTable.octetsAt_find (DescriptorTable.mem_of_find hfind) hmemory
        ((min_le_left _ wLength.toNat).trans hlen)
      rw [min_comm, ← List.take_take, min_comm] at hreply
      obtain ⟨hdevice, hdelivered⟩ := @descriptor_found _ build board layout p wTypeIndex wIndex
        wLength is his _ _ _ _ hanswer hreply
      refine ⟨hdevice, fun octets h => ?_, fun h => absurd h (by simp)⟩
      obtain rfl := Option.some.inj h
      exact hdelivered
  · have hanswer : usbGetDescriptor (registered build layout) wTypeIndex wLength.toNat
        layout.abStdReqData p.memory p.app.usb = ⟨true, (18 : ℕ), layout.abOsStringDescriptor,
          Function.update p.memory (layout.abOsStringDescriptor + 16) 0xff, p.app.usb⟩ := by
      rw [usbGetDescriptor, if_pos ((osString_iff wTypeIndex).2 heq)]
      rfl
    refine @descriptor_found _ build board layout p wTypeIndex wIndex wLength is his _ _ _ _
      hanswer ?_
    rw [← octetsAt_osString hos 0xff, take_octetsAt, min_comm]

end Firmware

/-- The device before the first transfer, with the OS string descriptor in its memory. -/
def pipeWithOsString : ControlPipe (VendorState Unit) :=
  { pipeOn with
    memory := storedAt pipeOn.memory sampleLayout.abOsStringDescriptor
      (osStringDescriptor (BitVec.ofNat 8 'A'.toNat)) }

/-- The language that the strings are in, and the OS string descriptor. -/
theorem descriptor_delivered_languages :
    let answer (wTypeIndex : U16) :=
      (run (usbHandleControlTransfer (ubertoothUsbInit {} quietBoard sampleLayout)) pipeWithOsString
        [.setup (some (getDescriptor wTypeIndex 0 255).octets)]).told
    Delivered [] (answer 0x0300) 255 0 [4, 3, 9, 4] ∧
      Delivered [] (answer 0x03ee) 255 0 (osStringDescriptor 0xff) := by
  intro answer
  have hmemory : octetsAt pipeWithOsString.memory sampleLayout.abDescriptors
      (abDescriptors {}).length = abDescriptors {} := by decide +kernel
  have hos : octetsAt pipeWithOsString.memory sampleLayout.abOsStringDescriptor 18 =
      osStringDescriptor (BitVec.ofNat 8 'A'.toNat) := by decide +kernel
  have hdelivered := fun wTypeIndex => @descriptor_delivered Unit {} quietBoard sampleLayout
    pipeWithOsString hmemory _ hos wTypeIndex 0 255 [] (by simp)
  have hlanguages : (firmwareTable {}).descriptor (octet (0x0300 : U16) 1)
    (octet (0x0300 : U16) 0).toNat = some [4, 3, 9, 4] := by decide
  exact ⟨((hdelivered 0x0300).1 (by decide)).2.1 _ hlanguages, ((hdelivered 0x03ee).2 rfl).2⟩

end Ubertooth.Usb
