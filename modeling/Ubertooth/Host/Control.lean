import Ubertooth.Firmware.Requests
import Ubertooth.Firmware.Frames

/-!
# `ubertooth_control.c`: the requests with several octets

The `cmd_` functions that send an address, a clock, an offset or a channel map, as the request they
make and its data, and those that read a clock or an access address. `ControlOut.received` is what
reaches `vendor_request_handler`: the request buffer holds the data, and after it what an earlier
request left.

* `controlRequests_agree`: the firmware stores the values the `cmd_` functions were given, and they
  return the values the firmware holds.
-/

namespace Ubertooth.Host

open Foundations Firmware

/-- The requests that the functions below send with data. -/
inductive ControlRequest
  | setBdaddr | startHopping | setClock | setAfhmap | trimClock | setAccessAddress
  deriving DecidableEq, Repr

/-- A control transfer to the device. -/
structure ControlOut where
  request : ControlRequest
  data : List U8

/-- The request as the device handles it, with the octets of its data in the request buffer. -/
def ControlOut.received (stale : ℕ → U8) (c : ControlOut) : VendorRequest :=
  let data := fun i => c.data.getD i (stale i)
  match c.request with
  | .setBdaddr => .setBdaddr data
  | .startHopping => .startHopping data
  | .setClock => .setClock data
  | .setAfhmap => .setAfhmap data
  | .trimClock => .trimClock data
  | .setAccessAddress => .setAccessAddress data

/-! ## The functions -/

/-- `(value >> 8*i) & 0xff` of an `int` -/
def octetOfInt (value : U32) (i : ℕ) : U8 := ((value.sshiftRight (8 * i)) &&& 0xff).setWidth 8

/-- `cmd_trim_clock` -/
def cmdTrimClock (offset : U16) : ControlOut :=
  { request := .trimClock, data := [octet offset 1, octet offset 0] }

/-- `cmd_set_bdaddr`; `genSyncword` is `btbb_gen_syncword`. -/
def cmdSetBdaddr (genSyncword : U32 → U64) (address : U64) : ControlOut :=
  let syncword := genSyncword ((address &&& 0xffffff).setWidth 32)
  { request := .setBdaddr
    data := (List.range 8).map (octet address) ++ (List.range 8).map (octet syncword) }

/-- `cmd_start_hopping` -/
def cmdStartHopping (clknOffset clk100nsOffset : U32) : ControlOut :=
  { request := .startHopping
    data := ((List.range 4).map fun r => octetOfInt clknOffset (3 - r)) ++
      [octetOfInt clk100nsOffset 1, octetOfInt clk100nsOffset 0] }

/-- `cmd_set_clock` -/
def cmdSetClock (clkn : U32) : ControlOut :=
  { request := .setClock, data := (List.range 4).map (octet clkn) }

/-- `cmd_set_afh_map` -/
def cmdSetAfhMap (afhMap : Vector U8 10) : ControlOut :=
  { request := .setAfhmap, data := afhMap.toList }

/-- `cmd_set_access_address` -/
def cmdSetAccessAddress (accessAddress : U32) : ControlOut :=
  { request := .setAccessAddress, data := (List.range 4).map (octet accessAddress) }

/-- `data[0] | data[1] << 8 | data[2] << 16 | data[3] << 24`, which `cmd_get_clock` and
`cmd_get_access_address` return. -/
def wordOfReply (data : ℕ → U8) : U32 :=
  (data 0).setWidth 32 ||| ((data 1).setWidth 32 <<< 8) ||| ((data 2).setWidth 32 <<< 16) |||
    ((data 3).setWidth 32 <<< 24)

/-- `cmd_get_clock`, with the reply in `data` and what the stack held after it. -/
def cmdGetClock (stale : ℕ → U8) (d : Device) : U32 :=
  wordOfReply fun i => (getClock d).getD i (stale i)

/-- `cmd_get_access_address` -/
def cmdGetAccessAddress (stale : ℕ → U8) (d : Device) : U32 :=
  wordOfReply fun i => (getAccessAddress d).getD i (stale i)

/-! ## Octets there and back -/

theorem octetOfInt_eq (value : U32) {i : ℕ} (hi : i < 4) : octetOfInt value i = octet value i := by
  ext k hk
  have hlt : 8 * i + k < 32 := by omega
  have hk32 : k < 32 := by omega
  have hbit : (value.sshiftRight (8 * i))[k] = value[8 * i + k] := by
    rw [BitVec.getElem_sshiftRight, dif_pos hlt]
  simp [octetOfInt, octet, hlt, hk32, hbit]

/-- `joinLow` undoes taking a word apart, the lowest octet first. -/
theorem joinLow_eq {w n : ℕ} (data : ℕ → U8) (word : BitVec w) (hw : w ≤ 8 * n) (hw' : w ≤ 64)
    (h : ∀ i < n, data i = octet word i) : (joinLow n data).setWidth w = word :=
  ((joins_foldl_or n data).setWidth hw').unique
    ((joins_octet word hw).congr fun i hi => (h i hi).symm)

/-- `joinHigh` undoes taking a word apart, the highest octet first. -/
theorem joinHigh_eq {data : ℕ → U8} {word : U32} (h : ∀ i < 4, data i = octet word (3 - i)) :
    joinHigh 4 data = word := by
  have hjoins := joins_foldl_shiftLeft (w := 32) 4 data
  refine hjoins.unique ((joins_octet word (by omega)).congr fun i hi => ?_)
  rw [h (4 - 1 - i) (by omega)]
  congr 1
  omega

theorem wordOfReply_eq {data : ℕ → U8} {word : U32} (h : ∀ i < 4, data i = octet word i) :
    wordOfReply data = word := by
  have hjoins := joins_foldl_or (w := 32) 4 data
  have hfold : wordOfReply data = (List.range 4).foldl
      (fun word i => word ||| ((data i).setWidth 32 <<< (8 * i))) (0 : U32) := by
    simp [wordOfReply, List.range_succ]
  rw [hfold]
  exact hjoins.unique ((joins_octet word (by omega)).congr fun i hi => (h i hi).symm)

@[simp] theorem getD_map_range (f : ℕ → U8) (stale : U8) {n i : ℕ} (hi : i < n) :
    ((List.range n).map f).getD i stale = f i := by
  simp [List.getD, hi]

/-! ## The two sides agree -/

theorem setBdaddr_stored (genSyncword : U32 → U64) (stale : ℕ → U8) (d : Device)
    (target : Bdaddr) (address : U64) :
    let request := (cmdSetBdaddr genSyncword address).received stale
    targetAfter target request =
      { address := address, accessCode := genSyncword ((address &&& 0xffffff).setWidth 32) } ∧
    (vendorRequestHandler d request).fw.hopVars = precalc address d.fw.hopVars := by
  intro request
  set syncword := genSyncword ((address &&& 0xffffff).setWidth 32) with hsyncword
  set data : ℕ → U8 := fun i => ((List.range 8).map (octet address) ++
    (List.range 8).map (octet syncword)).getD i (stale i) with hdata
  have haddress : joinLow 8 data = address := by
    have hjoin := joinLow_eq (n := 8) data address (by omega)
      (by omega) fun i hi => by simp [hdata, List.getD, List.getElem?_append_left, hi]
    simpa using hjoin
  have hcode : joinLow 8 (fun i => data (i + 8)) = syncword := by
    have hjoin := joinLow_eq (n := 8) (fun i => data (i + 8)) syncword (by omega)
      (by omega) fun i hi => by
        simp [hdata, List.getD, hi, List.getElem?_append_right]
    simpa using hjoin
  constructor
  · show Bdaddr.mk (joinLow 8 data) (joinLow 8 fun i => data (i + 8)) = _
    rw [haddress, hcode]
  · show precalc (joinLow 8 data) d.fw.hopVars = _
    rw [haddress]

theorem startHopping_stored (stale : ℕ → U8) (d : Device) (clknOffset clk100nsOffset : U32) :
    let d' := vendorRequestHandler d ((cmdStartHopping clknOffset clk100nsOffset).received stale)
    d'.fw.clknOffset = clknOffset ∧ d'.fw.clk100nsOffset = clk100nsOffset.setWidth 16 := by
  intro d'
  set data : ℕ → U8 := fun i => (((List.range 4).map fun r => octetOfInt clknOffset (3 - r)) ++
    [octetOfInt clk100nsOffset 1, octetOfInt clk100nsOffset 0]).getD i (stale i) with hdata
  constructor
  · show joinHigh 4 data = clknOffset
    refine joinHigh_eq fun i hi => ?_
    have hget : data i = octetOfInt clknOffset (3 - i) := by
      simp [hdata, List.getD, hi, List.getElem?_append_left]
    rw [hget, octetOfInt_eq clknOffset (by omega)]
  · show ((data 4).setWidth 16 <<< 8) ||| (data 5).setWidth 16 = clk100nsOffset.setWidth 16
    have hhigh : data 4 = octet (clk100nsOffset.setWidth 16) 1 := by
      rw [octet_setWidth clk100nsOffset (by omega), ← octetOfInt_eq clk100nsOffset (by omega)]
      rfl
    have hlow : data 5 = octet (clk100nsOffset.setWidth 16) 0 := by
      rw [octet_setWidth clk100nsOffset (by omega), ← octetOfInt_eq clk100nsOffset (by omega)]
      rfl
    rw [hhigh, hlow, octet_pair_eq]

theorem setClock_stored (stale : ℕ → U8) (d : Device) (clkn : U32) :
    (vendorRequestHandler d ((cmdSetClock clkn).received stale)).fw.clkn = clkn := by
  have hjoin : (joinLow 4 fun i => ((List.range 4).map (octet clkn)).getD i (stale i)).setWidth 32 =
      clkn :=
    joinLow_eq _ _ (by omega) (by omega) fun i hi => getD_map_range (octet clkn) (stale i) hi
  simpa [vendorRequestHandler, ControlOut.received, cmdSetClock] using hjoin

theorem setAccessAddress_stored (stale : ℕ → U8) (d : Device) (accessAddress : U32) :
    (vendorRequestHandler d
      ((cmdSetAccessAddress accessAddress).received stale)).fw.le.accessAddress =
        accessAddress :=
  joinLow_eq _ _ (by omega) (by omega) fun i hi =>
    getD_map_range (octet accessAddress) (stale i) hi

theorem trimClock_stored (stale : ℕ → U8) (d : Device) (offset : U16) :
    (vendorRequestHandler d ((cmdTrimClock offset).received stale)).fw.clk100nsOffset = offset :=
  octet_pair_eq offset

theorem setAfhMap_stored (stale : ℕ → U8) (d : Device) (afhMap : Vector U8 10) :
    (vendorRequestHandler d ((cmdSetAfhMap afhMap).received stale)).fw.hopVars.afhMap =
      afhMap := by
  ext i hi
  simp [vendorRequestHandler, ControlOut.received, cmdSetAfhMap, List.getD]

theorem cmdGetClock_eq (stale : ℕ → U8) (d : Device) : cmdGetClock stale d = d.fw.clkn :=
  wordOfReply_eq fun i hi => getD_map_range (octet d.fw.clkn) (stale i) hi

theorem cmdGetAccessAddress_eq (stale : ℕ → U8) (d : Device) :
    cmdGetAccessAddress stale d = d.fw.le.accessAddress :=
  wordOfReply_eq fun i hi => getD_map_range (octet d.fw.le.accessAddress) (stale i) hi

/-- **Host and firmware agree**: the firmware stores the values the `cmd_` functions were given,
as far as its fields are wide, and the functions that read return the values the firmware holds. -/
theorem controlRequests_agree (genSyncword : U32 → U64) (stale : ℕ → U8) (d : Device)
    (target : Bdaddr) :
    (∀ address : U64, let request := (cmdSetBdaddr genSyncword address).received stale
      targetAfter target request =
        { address := address
          accessCode := genSyncword ((address &&& 0xffffff).setWidth 32) } ∧
      (vendorRequestHandler d request).fw.hopVars = precalc address d.fw.hopVars) ∧
    (∀ clknOffset clk100nsOffset : U32,
      let d' := vendorRequestHandler d ((cmdStartHopping clknOffset clk100nsOffset).received stale)
      d'.fw.clknOffset = clknOffset ∧ d'.fw.clk100nsOffset = clk100nsOffset.setWidth 16) ∧
    (∀ clkn : U32,
      (vendorRequestHandler d ((cmdSetClock clkn).received stale)).fw.clkn = clkn) ∧
    (∀ accessAddress : U32,
      (vendorRequestHandler d
        ((cmdSetAccessAddress accessAddress).received stale)).fw.le.accessAddress =
          accessAddress) ∧
    (∀ offset : U16,
      (vendorRequestHandler d ((cmdTrimClock offset).received stale)).fw.clk100nsOffset =
        offset) ∧
    (∀ afhMap : Vector U8 10,
      (vendorRequestHandler d ((cmdSetAfhMap afhMap).received stale)).fw.hopVars.afhMap =
        afhMap) ∧
    cmdGetClock stale d = d.fw.clkn ∧ cmdGetAccessAddress stale d = d.fw.le.accessAddress := by
  refine ⟨?_, ?_, ?_, ?_, ?_, ?_, ?_, ?_⟩
  · exact fun address => setBdaddr_stored genSyncword stale d target address
  · exact fun clknOffset clk100nsOffset => startHopping_stored stale d clknOffset clk100nsOffset
  · exact fun clkn => setClock_stored stale d clkn
  · exact fun accessAddress => setAccessAddress_stored stale d accessAddress
  · exact fun offset => trimClock_stored stale d offset
  · exact fun afhMap => setAfhMap_stored stale d afhMap
  · exact cmdGetClock_eq stale d
  · exact cmdGetAccessAddress_eq stale d

end Ubertooth.Host
