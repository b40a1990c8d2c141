import Ubertooth.Foundations.Runs
import Ubertooth.Interface

/-!
# `find_ubertooth_device`: which device is opened

The scan of the devices on the bus keeps the places of the Ubertooths in an array of eight, without
regard to its end, and looks at the descriptor it has, whether or not it has just been read. The
number that was given then selects a place, again whatever it is; the array says 0 where nothing
was found, which is some device. When only Ubertooths are opened nevertheless is said by `Selects`
(`selectsUbertooth_iff`).
-/

namespace Ubertooth.Host

open Foundations

/-! ## The bus -/

/-- What the selection looks at of `struct libusb_device_descriptor`. -/
structure DeviceDescriptor where
  idVendor : U16
  idProduct : U16
  deriving DecidableEq, Repr

/-- A device in the list of libusb: what `libusb_get_device_descriptor` returns for it, and what it
stores in `desc`, if anything. -/
structure UsbDevice where
  r : ℤ
  desc : Option DeviceDescriptor
  stored : 0 ≤ r → desc.isSome

/-- A device whose descriptor is read. -/
def UsbDevice.ofIds (idVendor idProduct : U16) : UsbDevice where
  r := 0
  desc := some { idVendor := idVendor, idProduct := idProduct }
  stored _ := rfl

/-- The ids of the TC13, the Ubertooth Zero and the Ubertooth One. -/
def DeviceDescriptor.isUbertooth (desc : DeviceDescriptor) : Bool :=
  (desc.idVendor == 0xffff && desc.idProduct == 0x0004)
    || (desc.idVendor == 0x1d50 && desc.idProduct == 0x6000)
    || (desc.idVendor == 0x1d50 && desc.idProduct == 0x6002)

/-! ## The scan -/

/-- The variables of the scan, with the subscripts of `ubertooth_devs`. -/
structure DeviceScan where
  i : ℕ := 0
  desc : DeviceDescriptor
  ubertooths : ℕ := 0
  ubertoothDevs : Fin 8 → ℕ := fun _ => 0
  subscripts : List ℤ := []

/-- One pass of the loop; what a write outside the array changes is left out. -/
def deviceStep (s : DeviceScan) (dev : UsbDevice) : DeviceScan :=
  let desc := dev.desc.getD s.desc
  if desc.isUbertooth then
    { i := s.i + 1
      desc := desc
      ubertooths := s.ubertooths + 1
      ubertoothDevs := fun j => if j.val = s.ubertooths then s.i else s.ubertoothDevs j
      subscripts := s.subscripts ++ [(s.ubertooths : ℤ)] }
  else { s with i := s.i + 1, desc := desc }

/-- `ubertooth_devs[j]`, if it is there -/
def DeviceScan.devAt (s : DeviceScan) (j : ℤ) : Option ℕ :=
  if h : 0 ≤ j ∧ j < 8 then some (s.ubertoothDevs ⟨j.toNat, by omega⟩) else none

/-! ## The selection -/

/-- The subscripts of `ubertooth_devs`, the devices that are opened, and the one whose handle is
returned. A read outside the array ends the call. -/
structure Selection where
  subscripts : List ℤ
  opened : List ℕ := []
  devh : Option ℕ := none

/-- `libusb_open(usb_list[ubertooth_devs[j]], &devh)` -/
def DeviceScan.select (libusbOpen : ℕ → ℤ) (s : DeviceScan) (j : ℤ) : Selection :=
  let opened := (s.devAt j).filter fun i => libusbOpen i = 0
  { subscripts := s.subscripts ++ [j], opened := opened.toList, devh := opened }

/-- Without a number, each is opened for its serial number, and closed again. -/
def DeviceScan.askSerials (libusbOpen : ℕ → ℤ) (s : DeviceScan) : Selection :=
  let places := (List.range s.ubertooths).map fun i : ℕ => (i : ℤ)
  { subscripts := s.subscripts ++ places.flatMap fun j => [j, j]
    opened := (places.filterMap s.devAt).filter fun i => libusbOpen i = 0 }

/-- `find_ubertooth_device`, with what the stack held in `desc` and the result of `libusb_open` for
each device. -/
def findUbertoothDevice (libusbOpen : ℕ → ℤ) (stale : DeviceDescriptor) (usbList : List UsbDevice)
    (ubertoothDevice : ℤ) : Selection :=
  let s := run deviceStep { desc := stale } usbList
  if s.ubertooths = 1 then s.select libusbOpen 0
  else if s.ubertooths = 0 then { subscripts := s.subscripts }
  else if ubertoothDevice < 0 then s.askSerials libusbOpen
  else s.select libusbOpen ubertoothDevice

/-! ## What it should open -/

/-- The descriptor of a device is read, and it is an Ubertooth's. -/
def isFound (usbList : List UsbDevice) (i : ℕ) : Bool :=
  usbList[i]?.any fun dev => decide (0 ≤ dev.r) && dev.desc.any DeviceDescriptor.isUbertooth

/-- The Ubertooths on the bus, in the order of their numbers. -/
def foundUbertooths (usbList : List UsbDevice) : List ℕ :=
  (List.range usbList.length).filter (isFound usbList)

/-- The array is subscripted inside only, what is opened is an Ubertooth, and nothing is opened for
the number of none. A negative number stands for no number. -/
structure SelectsUbertooth (usbList : List UsbDevice) (ubertoothDevice : ℤ) (o : Selection) :
    Prop where
  inside : ∀ j ∈ o.subscripts, 0 ≤ j ∧ j < 8
  found : ∀ i ∈ o.opened, isFound usbList i
  other : 0 ≤ ubertoothDevice → (foundUbertooths usbList).length ≤ ubertoothDevice → o.opened = []

/-! ## What is taken for an Ubertooth -/

/-- What `desc` holds after devices: what was stored last. -/
def descAfter (stale : DeviceDescriptor) (devs : List UsbDevice) : DeviceDescriptor :=
  (devs.filterMap UsbDevice.desc).getLast?.getD stale

/-- A device is taken for an Ubertooth. -/
def isTaken (stale : DeviceDescriptor) (usbList : List UsbDevice) (i : ℕ) : Bool :=
  (descAfter stale (usbList.take (i + 1))).isUbertooth

/-- The devices that are taken for Ubertooths. -/
def takenUbertooths (stale : DeviceDescriptor) (usbList : List UsbDevice) : List ℕ :=
  (List.range usbList.length).filter (isTaken stale usbList)

variable {stale : DeviceDescriptor} {usbList devs : List UsbDevice} {dev : UsbDevice}
  {libusbOpen : ℕ → ℤ} {ubertoothDevice j : ℤ} {s : DeviceScan} {i k : ℕ}

theorem descAfter_concat (stale : DeviceDescriptor) (devs : List UsbDevice) (dev : UsbDevice) :
    descAfter stale (devs ++ [dev]) = dev.desc.getD (descAfter stale devs) := by
  rw [descAfter, List.filterMap_append, List.getLast?_append]
  cases hdesc : dev.desc with
  | none => simp [hdesc, descAfter]
  | some desc => simp [hdesc]

theorem takenUbertooths_concat (stale : DeviceDescriptor) (devs : List UsbDevice)
    (dev : UsbDevice) : takenUbertooths stale (devs ++ [dev]) = takenUbertooths stale devs ++
      if (descAfter stale (devs ++ [dev])).isUbertooth then [devs.length] else [] := by
  have hbefore : (List.range devs.length).filter (isTaken stale (devs ++ [dev])) =
      takenUbertooths stale devs := by
    refine List.filter_congr fun i hi => ?_
    rw [isTaken, isTaken, List.take_append_of_le_length (by simpa using hi)]
  have hlast : isTaken stale (devs ++ [dev]) devs.length =
      (descAfter stale (devs ++ [dev])).isUbertooth := by
    rw [isTaken, List.take_of_length_le (by simp)]
  rw [takenUbertooths, List.length_append, List.length_singleton, List.range_succ,
    List.filter_append, hbefore, List.filter_singleton, hlast, Bool.cond_eq_ite]

/-- The variables after the scan of devices. -/
structure Scanned (stale : DeviceDescriptor) (devs : List UsbDevice) (s : DeviceScan) : Prop where
  i : s.i = devs.length
  desc : s.desc = descAfter stale devs
  ubertooths : s.ubertooths = (takenUbertooths stale devs).length
  ubertoothDevs : ∀ j, s.ubertoothDevs j = (takenUbertooths stale devs).getD j 0
  subscripts : s.subscripts = (List.range s.ubertooths).map fun i : ℕ => (i : ℤ)

theorem Scanned.step (h : Scanned stale devs s) (dev : UsbDevice) :
    Scanned stale (devs ++ [dev]) (deviceStep s dev) := by
  have hdesc : dev.desc.getD s.desc = descAfter stale (devs ++ [dev]) := by
    rw [descAfter_concat, h.desc]
  have htaken := takenUbertooths_concat stale devs dev
  rw [deviceStep]
  simp only [hdesc]
  split
  case isTrue hyes =>
    rw [if_pos hyes] at htaken
    refine ⟨by simp [h.i], rfl, by simp [htaken, h.ubertooths], fun j => ?_, ?_⟩
    · rw [htaken, h.ubertooths, h.i]
      simp only [h.ubertoothDevs j]
      split
      case isTrue heq => rw [heq, List.getD_append_right _ _ _ _ le_rfl, Nat.sub_self]; rfl
      case isFalse hne =>
        rcases lt_or_gt_of_ne hne with hlt | hgt
        · rw [List.getD_append _ _ _ _ hlt]
        · rw [List.getD_eq_default _ _ hgt.le, List.getD_eq_default _ _ (by simpa using hgt)]
    · rw [List.range_succ, List.map_append, h.subscripts, List.map_singleton]
  case isFalse hno =>
    rw [if_neg hno, List.append_nil] at htaken
    refine ⟨by simp [h.i], rfl, ?_, fun j => ?_, h.subscripts⟩
    · rw [htaken]
      exact h.ubertooths
    · rw [htaken]
      exact h.ubertoothDevs j

theorem scanned_run (stale : DeviceDescriptor) (usbList : List UsbDevice) :
    Scanned stale usbList (run deviceStep { desc := stale } usbList) := by
  induction usbList using List.reverseRecOn with
  | nil => exact ⟨rfl, rfl, rfl, fun _ => rfl, rfl⟩
  | append_singleton devs dev ih =>
    rw [run_concat]
    exact ih.step dev

theorem Scanned.devAt_of_inside (h : Scanned stale usbList s) (h0 : 0 ≤ j) (h8 : j < 8) :
    s.devAt j = some ((takenUbertooths stale usbList).getD j.toNat 0) := by
  rw [DeviceScan.devAt, dif_pos ⟨h0, h8⟩, h.ubertoothDevs]

theorem Scanned.inside_iff (h : Scanned stale usbList s) :
    (∀ j ∈ s.subscripts, 0 ≤ j ∧ j < 8) ↔ (takenUbertooths stale usbList).length ≤ 8 := by
  rw [h.subscripts, h.ubertooths]
  constructor
  · intro hinside
    by_contra hlt
    have hmem : (8 : ℤ) ∈ (List.range (takenUbertooths stale usbList).length).map
        fun i : ℕ => (i : ℤ) := List.mem_map.2 ⟨8, by simpa using hlt, rfl⟩
    exact absurd (hinside 8 hmem).2 (lt_irrefl _)
  · intro hle j hj
    obtain ⟨i, hi, rfl⟩ := List.mem_map.1 hj
    rw [List.mem_range] at hi
    omega

/-- An Ubertooth is taken for one. -/
theorem isTaken_of_isFound (h : isFound usbList i) : isTaken stale usbList i := by
  rw [isFound, Option.any_eq_true] at h
  obtain ⟨dev, hdev, h⟩ := h
  rw [Bool.and_eq_true, Option.any_eq_true] at h
  obtain ⟨-, desc, hdesc, hids⟩ := h
  obtain ⟨hi, rfl⟩ := List.getElem?_eq_some_iff.1 hdev
  rw [isTaken, List.take_succ_eq_append_getElem hi, descAfter_concat, hdesc]
  exact hids

theorem length_foundUbertooths_le (stale : DeviceDescriptor) (usbList : List UsbDevice) :
    (foundUbertooths usbList).length ≤ (takenUbertooths stale usbList).length :=
  (List.monotone_filter_right _ fun _ => isTaken_of_isFound).length_le

/-! ## When only Ubertooths are opened -/

/-- When the selection opens only Ubertooths: at most eight devices are taken for Ubertooths. If
there is one, it is an Ubertooth or cannot be opened, and has the number 0. If there are several,
those to be asked for their serial numbers are; so is the one with the number, and it is the number
of an Ubertooth; and where a number selects none of them, it is a place of the array, and the first
device on the bus cannot be opened. -/
structure Selects (libusbOpen : ℕ → ℤ) (stale : DeviceDescriptor) (usbList : List UsbDevice)
    (ubertoothDevice : ℤ) : Prop where
  room : (takenUbertooths stale usbList).length ≤ 8
  one : (takenUbertooths stale usbList).length = 1 → ∀ i ∈ takenUbertooths stale usbList,
    libusbOpen i = 0 → isFound usbList i ∧ ubertoothDevice ≤ 0
  unnumbered : 2 ≤ (takenUbertooths stale usbList).length → ubertoothDevice < 0 →
    ∀ i ∈ takenUbertooths stale usbList, libusbOpen i = 0 → isFound usbList i
  numbered : 2 ≤ (takenUbertooths stale usbList).length → 0 ≤ ubertoothDevice →
    ∀ i, (takenUbertooths stale usbList)[ubertoothDevice.toNat]? = some i → libusbOpen i = 0 →
      isFound usbList i ∧ ubertoothDevice < (foundUbertooths usbList).length
  beyond : 2 ≤ (takenUbertooths stale usbList).length →
    (takenUbertooths stale usbList).length ≤ ubertoothDevice →
      ubertoothDevice < 8 ∧ libusbOpen 0 ≠ 0

/-- A place is selected rightly exactly if it is one, and the device there cannot be opened or is an
Ubertooth, for the number of one. -/
theorem Scanned.select_iff (h : Scanned stale usbList s)
    (hroom : (takenUbertooths stale usbList).length ≤ 8) :
    SelectsUbertooth usbList ubertoothDevice (s.select libusbOpen j) ↔ (0 ≤ j ∧ j < 8) ∧
      (libusbOpen ((takenUbertooths stale usbList).getD j.toNat 0) = 0 →
        isFound usbList ((takenUbertooths stale usbList).getD j.toNat 0) ∧
          (0 ≤ ubertoothDevice → ubertoothDevice < (foundUbertooths usbList).length)) := by
  have hscan := h.inside_iff.2 hroom
  constructor
  · intro hs
    have hj := hs.inside j (by simp [DeviceScan.select])
    refine ⟨hj, fun hopen => ?_⟩
    have hopened : (s.select libusbOpen j).opened =
        [(takenUbertooths stale usbList).getD j.toNat 0] := by
      simp only [DeviceScan.select, h.devAt_of_inside hj.1 hj.2]
      rw [Option.filter_some, if_pos (by simpa using hopen)]
      rfl
    refine ⟨hs.found _ (by rw [hopened]; exact List.mem_singleton_self _), fun h0 => ?_⟩
    by_contra hle
    have hnone := hs.other h0 (not_lt.1 hle)
    rw [hopened] at hnone
    cases hnone
  · rintro ⟨hj, hright⟩
    have hopened : ∀ i ∈ (s.select libusbOpen j).opened, libusbOpen i = 0 ∧
        i = (takenUbertooths stale usbList).getD j.toNat 0 := by
      intro i hi
      simp only [DeviceScan.select, h.devAt_of_inside hj.1 hj.2] at hi
      rw [Option.mem_toList, Option.filter_eq_some_iff, Option.some_inj] at hi
      exact ⟨by simpa using hi.2, hi.1.symm⟩
    refine ⟨fun k hk => ?_, fun i hi => ?_, fun h0 hle => ?_⟩
    · rcases List.mem_append.1 hk with hk | hk
      · exact hscan k hk
      · rw [List.mem_singleton.1 hk]
        exact hj
    · obtain ⟨hopen, rfl⟩ := hopened i hi
      exact (hright hopen).1
    · refine List.eq_nil_iff_forall_not_mem.2 fun i hi => ?_
      obtain ⟨hopen, rfl⟩ := hopened i hi
      exact absurd ((hright hopen).2 h0) (not_lt.2 hle)

/-- The places in use hold the devices that are taken for Ubertooths. -/
theorem Scanned.filterMap_devAt (h : Scanned stale usbList s)
    (hroom : (takenUbertooths stale usbList).length ≤ 8) :
    ((List.range s.ubertooths).map fun i : ℕ => (i : ℤ)).filterMap s.devAt =
      takenUbertooths stale usbList := by
  have hplaces : ∀ k ∈ List.range s.ubertooths, (s.devAt ∘ fun i : ℕ => (i : ℤ)) k =
      (some ∘ fun k => (takenUbertooths stale usbList).getD k 0) k := by
    intro k hk
    rw [List.mem_range, h.ubertooths] at hk
    have hlt : (k : ℤ) < 8 := by omega
    exact h.devAt_of_inside (Int.natCast_nonneg k) hlt
  rw [List.filterMap_map, List.filterMap_congr hplaces, List.filterMap_eq_map, h.ubertooths]
  refine List.ext_getElem (by simp) fun k _ hk => ?_
  rw [List.getElem_map, List.getElem_range, List.getD_eq_getElem _ _ hk]

theorem length_foundUbertooths_pos (h : isFound usbList i) :
    0 < (foundUbertooths usbList).length := by
  have hi : i < usbList.length := by
    by_contra hle
    rw [isFound, List.getElem?_eq_none (not_lt.1 hle)] at h
    cases h
  exact List.length_pos_of_mem (List.mem_filter.2 ⟨List.mem_range.2 hi, h⟩)

/-- The only device that is taken for an Ubertooth is selected, whatever the number. -/
theorem Scanned.selects_one_iff (h : Scanned stale usbList s)
    (hone : (takenUbertooths stale usbList).length = 1) :
    SelectsUbertooth usbList ubertoothDevice (s.select libusbOpen 0) ↔
      Selects libusbOpen stale usbList ubertoothDevice := by
  have hle := length_foundUbertooths_le stale usbList
  obtain ⟨c, hc⟩ := List.length_eq_one_iff.1 hone
  have hfirst : (takenUbertooths stale usbList).getD (0 : ℤ).toNat 0 = c := by rw [hc]; rfl
  rw [h.select_iff (by omega), hfirst]
  constructor
  · rintro ⟨-, hright⟩
    refine ⟨by omega, fun _ i hi hopen => ?_, fun _ => by omega, fun _ => by omega,
      fun _ => by omega⟩
    obtain rfl : i = c := by simpa [hc] using hi
    exact ⟨(hright hopen).1, by have := (hright hopen).2; omega⟩
  · intro hs
    refine ⟨by omega, fun hopen => ?_⟩
    obtain ⟨hfound, hle0⟩ := hs.one hone c (by simp [hc]) hopen
    have hpos := length_foundUbertooths_pos hfound
    exact ⟨hfound, fun _ => by omega⟩

/-- Of several, the one at the place of the number is selected. -/
theorem Scanned.selects_numbered_iff (h : Scanned stale usbList s)
    (hroom : (takenUbertooths stale usbList).length ≤ 8)
    (hseveral : 2 ≤ (takenUbertooths stale usbList).length) (h0 : 0 ≤ ubertoothDevice) :
    SelectsUbertooth usbList ubertoothDevice (s.select libusbOpen ubertoothDevice) ↔
      Selects libusbOpen stale usbList ubertoothDevice := by
  have hle := length_foundUbertooths_le stale usbList
  rw [h.select_iff hroom]
  constructor
  · rintro ⟨⟨-, h8⟩, hright⟩
    refine ⟨hroom, fun _ => by omega, fun _ => by omega, fun _ _ i hi hopen => ?_,
      fun _ hbeyond => ⟨h8, fun hopen => ?_⟩⟩
    · have hplace : (takenUbertooths stale usbList).getD ubertoothDevice.toNat 0 = i := by
        rw [List.getD_eq_getElem?_getD, hi, Option.getD_some]
      rw [hplace] at hright
      exact ⟨(hright hopen).1, (hright hopen).2 h0⟩
    · rw [List.getD_eq_default _ _ (by omega)] at hright
      have := (hright hopen).2 h0
      omega
  · intro hs
    by_cases hlt : ubertoothDevice < (takenUbertooths stale usbList).length
    · have hplace : ubertoothDevice.toNat < (takenUbertooths stale usbList).length := by omega
      refine ⟨by omega, fun hopen => ?_⟩
      rw [List.getD_eq_getElem _ _ hplace] at hopen ⊢
      obtain ⟨hfound, hnumber⟩ :=
        hs.numbered hseveral h0 _ (List.getElem?_eq_getElem hplace) hopen
      exact ⟨hfound, fun _ => hnumber⟩
    · obtain ⟨h8, hclosed⟩ := hs.beyond hseveral (not_lt.1 hlt)
      rw [List.getD_eq_default _ _ (by omega)]
      exact ⟨⟨h0, h8⟩, fun hopen => absurd hopen hclosed⟩

/-- Without a number, all of them are opened for a while. -/
theorem Scanned.selects_unnumbered_iff (h : Scanned stale usbList s)
    (hroom : (takenUbertooths stale usbList).length ≤ 8)
    (hseveral : 2 ≤ (takenUbertooths stale usbList).length) (hneg : ubertoothDevice < 0) :
    SelectsUbertooth usbList ubertoothDevice (s.askSerials libusbOpen) ↔
      Selects libusbOpen stale usbList ubertoothDevice := by
  have hopened : (s.askSerials libusbOpen).opened =
      (takenUbertooths stale usbList).filter fun i => libusbOpen i = 0 := by
    rw [DeviceScan.askSerials]
    simp only [h.filterMap_devAt hroom]
  have hmem : ∀ i, i ∈ (s.askSerials libusbOpen).opened ↔
      i ∈ takenUbertooths stale usbList ∧ libusbOpen i = 0 := by
    intro i
    rw [hopened, List.mem_filter, decide_eq_true_iff]
  constructor
  · intro hs
    exact ⟨hroom, fun _ => by omega, fun _ _ i hi hopen => hs.found i ((hmem i).2 ⟨hi, hopen⟩),
      fun _ => by omega, fun _ => by omega⟩
  · intro hs
    refine ⟨fun j hj => ?_, fun i hi => ?_, fun h0 => by omega⟩
    · have hscan := h.inside_iff.2 hroom j
      rw [h.subscripts] at hscan
      rw [DeviceScan.askSerials, h.subscripts] at hj
      refine hscan ?_
      simpa using hj
    · obtain ⟨hi, hopen⟩ := (hmem i).1 hi
      exact hs.unnumbered hseveral hneg i hi hopen

/-- The selection of `find_ubertooth_device` is right exactly under the condition. -/
theorem selectsUbertooth_iff (libusbOpen : ℕ → ℤ) (stale : DeviceDescriptor)
    (usbList : List UsbDevice) (ubertoothDevice : ℤ) :
    SelectsUbertooth usbList ubertoothDevice
        (findUbertoothDevice libusbOpen stale usbList ubertoothDevice) ↔
      Selects libusbOpen stale usbList ubertoothDevice := by
  have h := scanned_run stale usbList
  rw [findUbertoothDevice]
  simp only [h.ubertooths]
  by_cases hone : (takenUbertooths stale usbList).length = 1
  · rw [if_pos hone]
    exact h.selects_one_iff hone
  rw [if_neg hone]
  by_cases hnone : (takenUbertooths stale usbList).length = 0
  · rw [if_pos hnone]
    exact iff_of_true ⟨h.inside_iff.2 (by omega), fun i hi => absurd hi List.not_mem_nil,
      fun _ _ => rfl⟩ ⟨by omega, by omega, by omega, by omega, by omega⟩
  rw [if_neg hnone]
  by_cases hroom : (takenUbertooths stale usbList).length ≤ 8
  · split_ifs with hneg
    · exact h.selects_unnumbered_iff hroom (by omega) hneg
    · exact h.selects_numbered_iff hroom (by omega) (not_lt.1 hneg)
  · refine iff_of_false (fun hs => hroom (h.inside_iff.1 fun j hj => hs.inside j ?_))
      fun hs => hroom hs.room
    split_ifs
    · exact List.mem_append_left _ hj
    · exact List.mem_append_left _ hj

/-- Where every descriptor is read, the Ubertooths are what is taken for them. -/
theorem takenUbertooths_eq_found (stale : DeviceDescriptor)
    (hread : ∀ dev ∈ usbList, 0 ≤ dev.r) :
    takenUbertooths stale usbList = foundUbertooths usbList := by
  refine List.filter_congr fun i hi => ?_
  rw [List.mem_range] at hi
  have hr := hread _ (List.getElem_mem hi)
  obtain ⟨desc, hdesc⟩ := Option.isSome_iff_exists.1 (usbList[i].stored hr)
  rw [isTaken, isFound, List.take_succ_eq_append_getElem hi, descAfter_concat, hdesc,
    List.getElem?_eq_getElem hi, Option.any_some, hdesc]
  simp [hr]

/-- Where every descriptor is read, up to eight Ubertooths are told apart by their numbers. -/
theorem selects_of_read (hread : ∀ dev ∈ usbList, 0 ≤ dev.r)
    (hroom : (foundUbertooths usbList).length ≤ 8)
    (hnumber : ubertoothDevice < (foundUbertooths usbList).length) :
    Selects libusbOpen stale usbList ubertoothDevice := by
  have hfound : ∀ i ∈ foundUbertooths usbList, isFound usbList i :=
    fun i hi => (List.mem_filter.1 hi).2
  rw [← takenUbertooths_eq_found stale hread] at hroom hnumber hfound
  refine ⟨hroom, fun hone i hi _ => ⟨hfound i hi, by omega⟩, fun _ _ i hi _ => hfound i hi,
    fun _ _ i hi _ => ⟨hfound i (List.mem_of_getElem? hi), ?_⟩, fun _ hbeyond => by omega⟩
  rwa [takenUbertooths_eq_found stale hread] at hnumber

/-- A keyboard and two Ubertooths, and the number 2: the keyboard is opened. -/
theorem not_selectsUbertooth_beyond :
    ¬SelectsUbertooth [.ofIds 0x046d 0xc31c, .ofIds 0x1d50 0x6002, .ofIds 0x1d50 0x6002] 2
      (findUbertoothDevice (fun _ => 0) { idVendor := 0, idProduct := 0 }
        [.ofIds 0x046d 0xc31c, .ofIds 0x1d50 0x6002, .ofIds 0x1d50 0x6002] 2) := by
  intro h
  exact absurd (h.found 0 (by decide +kernel)) (by decide +kernel)

end Ubertooth.Host
