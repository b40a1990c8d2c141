import Ubertooth.Firmware.ControlPipe
import Ubertooth.Firmware.VendorHandler
import Ubertooth.Foundations.Packets
import Ubertooth.Host.Control
import Ubertooth.Host.Version

/-!
# `ubertooth_control.c`: requests with parameters and replies

The `cmd_` functions that read something from the device, as the transfer they make and what they
return for what came in or for the error of libusb; and those that tell it to do something
(`CmdFunction`). What they print to `stderr` is left out.
-/

namespace Ubertooth.Host

open Foundations Firmware

/-! ## libusb -/

abbrev libusbErrorNoDevice : ℤ := -4

abbrev libusbErrorPipe : ℤ := -9

abbrev libusbErrorOther : ℤ := -99

/-- The packets that endpoint 0 was told to send. -/
def writes (told : List EpCommand) : List (List U8) :=
  told.filterMap fun
    | .write octets => some octets
    | .stall => none

@[simp] theorem writes_map (sent : List (List U8)) : writes (sent.map .write) = sent := by
  rw [writes, List.filterMap_map]
  exact List.filterMap_some

/-! ## Functions that read -/

/-- A function that makes a `CTRL_IN` transfer: what it returns for an error, and for the number of
octets that have come in and what its buffer holds then. -/
structure ControlRead (α : Type) where
  request : UsbCommand
  wValue : U16 := 0
  wLength : U16
  failed : ℤ → α
  received : ℤ → (ℕ → U8) → α

/-- A function that returns one octet, or the error. -/
def getOctet (request : UsbCommand) : ControlRead ℤ where
  request := request
  wLength := 1
  failed := id
  received := fun _ data => (data 0).toNat

/-- A function that returns a word of four octets; an error is returned as a word, too. -/
def getWord (request : UsbCommand) : ControlRead U32 where
  request := request
  wLength := 4
  failed := BitVec.ofInt 32
  received := fun _ data => wordOfReply data

def cmdGetUsrled : ControlRead ℤ := getOctet .getUsrled

def cmdGetRxled : ControlRead ℤ := getOctet .getRxled

def cmdGetTxled : ControlRead ℤ := getOctet .getTxled

def cmdGetModulation : ControlRead ℤ := getOctet .getMod

def cmdGetPalevel : ControlRead ℤ := getOctet .getPalevel

def cmdGetBoardId : ControlRead ℤ := getOctet .getBoardId

def cmdGetSquelch : ControlRead ℤ := getOctet .getSquelch

def cmdGetCrcVerify : ControlRead ℤ := getOctet .getCrcVerify

/-- `cmd_get_channel` -/
def cmdGetChannel : ControlRead ℤ where
  request := .getChannel
  wLength := 2
  failed := id
  received := fun _ result =>
    ((result 0).setWidth 16 ||| ((result 1).setWidth 16 <<< 8) : U16).toNat

/-- `cmd_read_register` -/
def cmdReadRegister (reg : U8) : ControlRead ℤ where
  request := .readRegister
  wValue := reg.setWidth 16
  wLength := 2
  failed := id
  received := fun _ data => (((data 0).setWidth 16 <<< 8) ||| (data 1).setWidth 16 : U16).toNat

/-- `cmd_get_partnum` -/
def cmdGetPartnum : ControlRead ℤ where
  request := .getPartnum
  wLength := 5
  failed := id
  received := fun _ data =>
    if data 0 ≠ 0 then 0 else (wordOfReply fun i => data (i + 1)).toInt

/-- `cmd_get_serial`, with the octets it leaves at `serial` -/
def cmdGetSerial : ControlRead (ℤ × Option (Vector U8 17)) where
  request := .getSerial
  wLength := 17
  failed := fun r => (r, none)
  received := fun _ serial =>
    (if serial 0 ≠ 0 then 1 else 0, some (Vector.ofFn fun i => serial i.val))

/-- `print_serial`: the four words it prints -/
def printSerial (serial : Vector U8 17) : List U32 :=
  (List.range 4).map fun k => wordOfReply fun i => serial.toList.getD (1 + 4 * k + i) 0

/-- `cmd_get_rangeresult`, with what it stores in `rr` -/
def cmdGetRangeresult : ControlRead (ℤ × Option RangetestResult) where
  request := .rangeCheck
  wLength := 5
  failed := fun r => (r, none)
  received := fun _ result => (0, some ⟨result 0, result 1, result 2, result 3, result 4⟩)

/-- A function that copies a string of its reply: what it makes of the caller's buffer. -/
def getString (request : UsbCommand) (wLength : U16) (writes : ControlIn → List StringWrite) :
    ControlRead ((ℤ → U8) → ℤ → U8) where
  request := request
  wLength := wLength
  -- `result` is not read then
  failed := fun r s => run (writeString fun _ => 0) s (writes ⟨r, fun _ => 0⟩)
  received := fun r result s => run (writeString result) s (writes ⟨r, result⟩)

/-- `cmd_get_rev_num`, with its transfer -/
def readRevNum (len : U8) : ControlRead ((ℤ → U8) → ℤ → U8) :=
  getString .getRevNum 258 (cmdGetRevNum · len)

/-- `cmd_get_compile_info`, with its transfer -/
def readCompileInfo (len : U8) : ControlRead ((ℤ → U8) → ℤ → U8) :=
  getString .getCompileInfo 256 (cmdGetCompileInfo · len)

/-- What a function that reads returns once endpoint 0 has been told enough, with what its buffer
held before. -/
def ControlRead.returned {α : Type} (c : ControlRead α) (stale : ℕ → U8) (told : List EpCommand) :
    Option α :=
  match told with
  | .stall :: _ => some (c.failed libusbErrorPipe)
  | _ => (gather maxPacketSize0 c.wLength.toNat (writes told)).map fun octets =>
    c.received octets.length fun i => octets.getD i (stale i)

/-! ## Functions that send parameters -/

/-- The error, or 0. -/
def orZero (r : ℤ) : ℤ := if r < 0 then r else 0

theorem orZero_natCast (n : ℕ) : orZero n = 0 := if_neg (not_lt.2 (Int.natCast_nonneg n))

/-- A function that makes a `CTRL_OUT` transfer, and what it returns for `r`. -/
structure ControlCall where
  request : UsbCommand
  wValue : U16 := 0
  wIndex : U16 := 0
  data : List U8 := []
  returns : ℤ → ℤ := orZero

/-- What it returns once endpoint 0 has been told to answer. -/
def ControlCall.returned (c : ControlCall) (told : List EpCommand) : Option ℤ :=
  told.head?.map fun
    | .write _ => c.returns c.data.length
    | .stall => c.returns libusbErrorPipe

/-- The device may be gone before it answers. -/
def orGone (r : ℤ) : ℤ :=
  if r ≠ 0 ∧ r ≠ libusbErrorPipe ∧ r ≠ libusbErrorOther ∧ r ≠ libusbErrorNoDevice then r else 0

def cmdRxSyms : ControlCall := { request := .rxSymbols }

def cmdSpecan (lowFreq highFreq : U16) : ControlCall :=
  { request := .specan, wValue := lowFreq, wIndex := highFreq }

def cmdLedSpecan (rssiThreshold : U16) : ControlCall :=
  { request := .ledSpecan, wValue := rssiThreshold }

def cmdSetUsrled (state : U16) : ControlCall := { request := .setUsrled, wValue := state }

def cmdSetRxled (state : U16) : ControlCall := { request := .setRxled, wValue := state }

def cmdSetTxled (state : U16) : ControlCall := { request := .setTxled, wValue := state }

def cmdSetChannel (channel : U16) : ControlCall := { request := .setChannel, wValue := channel }

def cmdSetModulation (mod : U16) : ControlCall := { request := .setMod, wValue := mod }

def cmdReset : ControlCall := { request := .reset, returns := orGone }

def cmdStop : ControlCall := { request := .stop }

def cmdSetPaen (state : U16) : ControlCall := { request := .setPaen, wValue := state }

def cmdSetHgm (state : U16) : ControlCall := { request := .setHgm, wValue := state }

def cmdTxTest : ControlCall := { request := .txTest }

def cmdSetPalevel (level : U16) : ControlCall :=
  { request := .setPalevel, wValue := level, returns := id }

def cmdRangeTest : ControlCall := { request := .rangeTest, returns := id }

def cmdRepeater : ControlCall := { request := .repeater, returns := id }

def cmdSetSquelch (level : U16) : ControlCall :=
  { request := .setSquelch, wValue := level, returns := id }

def cmdBtleSniffing (num : U16) : ControlCall := { request := .btleSniffing, wValue := num }

def cmdClearAfhMap : ControlCall := { request := .clearAfhmap }

def cmdSetCrcVerify (verify : U32) : ControlCall :=
  { request := .setCrcVerify, wValue := verify.setWidth 16 }

def cmdBtlePromisc : ControlCall := { request := .btlePromisc }

def cmdSetJamMode (mode : U32) : ControlCall :=
  { request := .jamMode, wValue := mode.setWidth 16 }

def cmdEgo (mode : U32) : ControlCall := { request := .ego, wValue := mode.setWidth 16 }

def cmdAfh : ControlCall := { request := .afh }

/-- `cmd_btle_slave` -/
def cmdBtleSlave (macAddress : Vector U8 6) : ControlCall :=
  { request := .btleSlave, data := macAddress.toList }

/-- `cmd_btle_set_target` -/
def cmdBtleSetTarget (macAddress : Vector U8 6) : ControlCall :=
  { request := .btleSetTarget, data := macAddress.toList }

/-- `cmd_do_something` -/
def cmdDoSomething (data : List U8) : ControlCall := { request := .doSomething, data := data }

def ControlRequest.command : ControlRequest → UsbCommand
  | .setBdaddr => .setBdaddr
  | .startHopping => .startHopping
  | .setClock => .setClock
  | .setAfhmap => .setAfhmap
  | .trimClock => .trimClock
  | .setAccessAddress => .setAccessAddress

/-- A request with several octets, as a call. -/
def ControlOut.call (c : ControlOut) : ControlCall :=
  { request := c.request.command, data := c.data }

/-- `cmd_set_bdaddr` tells a transfer that was cut short. -/
def setBdaddrCall (genSyncword : U32 → U64) (address : U64) : ControlCall :=
  { (cmdSetBdaddr genSyncword address).call with
    returns := fun r => if r < 0 then r else if r < 16 then 1 else 0 }

/-- The functions that make the device do something and wait for its answer, but for `cmd_set_isp`
and `cmd_flash`, which the device leaves unanswered. `cmd_do_something` sends no more than the
device has room for. -/
inductive CmdFunction : ControlCall → Prop
  | rxSyms : CmdFunction cmdRxSyms
  | specan (lowFreq highFreq : U16) : CmdFunction (cmdSpecan lowFreq highFreq)
  | ledSpecan (rssiThreshold : U16) : CmdFunction (cmdLedSpecan rssiThreshold)
  | setUsrled (state : U16) : CmdFunction (cmdSetUsrled state)
  | setRxled (state : U16) : CmdFunction (cmdSetRxled state)
  | setTxled (state : U16) : CmdFunction (cmdSetTxled state)
  | setChannel (channel : U16) : CmdFunction (cmdSetChannel channel)
  | setModulation (mod : U16) : CmdFunction (cmdSetModulation mod)
  | reset : CmdFunction cmdReset
  | stop : CmdFunction cmdStop
  | setPaen (state : U16) : CmdFunction (cmdSetPaen state)
  | setHgm (state : U16) : CmdFunction (cmdSetHgm state)
  | txTest : CmdFunction cmdTxTest
  | setPalevel (level : U16) : CmdFunction (cmdSetPalevel level)
  | rangeTest : CmdFunction cmdRangeTest
  | repeater : CmdFunction cmdRepeater
  | setSquelch (level : U16) : CmdFunction (cmdSetSquelch level)
  | setBdaddr (genSyncword : U32 → U64) (address : U64) :
    CmdFunction (setBdaddrCall genSyncword address)
  | setClock (clkn : U32) : CmdFunction (cmdSetClock clkn).call
  | btleSniffing (num : U16) : CmdFunction (cmdBtleSniffing num)
  | clearAfhMap : CmdFunction cmdClearAfhMap
  | setAccessAddress (accessAddress : U32) : CmdFunction (cmdSetAccessAddress accessAddress).call
  | doSomething (data : List U8) (h : data.length ≤ 258) : CmdFunction (cmdDoSomething data)
  | setCrcVerify (verify : U32) : CmdFunction (cmdSetCrcVerify verify)
  | btlePromisc : CmdFunction cmdBtlePromisc
  | btleSlave (macAddress : Vector U8 6) : CmdFunction (cmdBtleSlave macAddress)
  | btleSetTarget (macAddress : Vector U8 6) : CmdFunction (cmdBtleSetTarget macAddress)
  | setJamMode (mode : U32) : CmdFunction (cmdSetJamMode mode)
  | ego (mode : U32) : CmdFunction (cmdEgo mode)
  | afh : CmdFunction cmdAfh

namespace CmdFunction

variable {c : ControlCall}

theorem length_data (h : CmdFunction c) : c.data.length < 2 ^ 16 := by
  cases h with
  | doSomething data h => exact lt_of_le_of_lt h (by decide)
  | setBdaddr => exact (by decide : 16 < 2 ^ 16)
  | setClock | setAccessAddress => exact (by decide : 4 < 2 ^ 16)
  | btleSlave macAddress | btleSetTarget macAddress =>
    exact (@Vector.length_toList _ _ macAddress).trans_lt (by decide : 6 < 2 ^ 16)
  | _ => exact Nat.two_pow_pos 16

/-- A request that is answered makes the function return 0. -/
theorem returns_answered (h : CmdFunction c) : c.returns c.data.length = 0 := by
  cases h with
  | doSomething data => exact orZero_natCast data.length
  | btleSlave macAddress | btleSetTarget macAddress =>
    exact orZero_natCast macAddress.toList.length
  | _ => rfl

/-- One that is refused makes it return the error, unless the device was to be gone by then. -/
theorem returns_refused (h : CmdFunction c) (hreset : c.request ≠ .reset) :
    c.returns libusbErrorPipe = libusbErrorPipe := by
  cases h with
  | reset => exact absurd rfl hreset
  | _ => rfl

end CmdFunction

end Ubertooth.Host
