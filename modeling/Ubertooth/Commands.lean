import Ubertooth.Interface

/-!
# The commands of `ubertooth_interface.h`

`enum ubertooth_usb_commands`, with the numbers that both sides put in `bRequest`.
-/

namespace Ubertooth

/-- `enum ubertooth_usb_commands`. -/
inductive UsbCommand
  | ping | rxSymbols | txSymbols | getUsrled | setUsrled | getRxled | setRxled | getTxled
  | setTxled | get1v8 | set1v8 | getChannel | setChannel | reset | getSerial | getPartnum | getPaen
  | setPaen | getHgm | setHgm | txTest | stop | getMod | setMod | setIsp | flash | bootloaderFlash
  | specan | getPalevel | setPalevel | repeater | rangeTest | rangeCheck | getRevNum | ledSpecan
  | getBoardId | setSquelch | getSquelch | setBdaddr | startHopping | setClock | getClock
  | btleSniffing | getAccessAddress | setAccessAddress | doSomething | doSomethingReply
  | getCrcVerify | setCrcVerify | poll | btlePromisc | setAfhmap | clearAfhmap | readRegister
  | btleSlave | getCompileInfo | btleSetTarget | btlePhy | writeRegister | jamMode | ego | afh
  | hop | trimClock
  deriving DecidableEq, Repr

/-- The octet that carries a command. -/
def UsbCommand.toU8 : UsbCommand → U8
  | .ping => 0
  | .rxSymbols => 1
  | .txSymbols => 2
  | .getUsrled => 3
  | .setUsrled => 4
  | .getRxled => 5
  | .setRxled => 6
  | .getTxled => 7
  | .setTxled => 8
  | .get1v8 => 9
  | .set1v8 => 10
  | .getChannel => 11
  | .setChannel => 12
  | .reset => 13
  | .getSerial => 14
  | .getPartnum => 15
  | .getPaen => 16
  | .setPaen => 17
  | .getHgm => 18
  | .setHgm => 19
  | .txTest => 20
  | .stop => 21
  | .getMod => 22
  | .setMod => 23
  | .setIsp => 24
  | .flash => 25
  | .bootloaderFlash => 26
  | .specan => 27
  | .getPalevel => 28
  | .setPalevel => 29
  | .repeater => 30
  | .rangeTest => 31
  | .rangeCheck => 32
  | .getRevNum => 33
  | .ledSpecan => 34
  | .getBoardId => 35
  | .setSquelch => 36
  | .getSquelch => 37
  | .setBdaddr => 38
  | .startHopping => 39
  | .setClock => 40
  | .getClock => 41
  | .btleSniffing => 42
  | .getAccessAddress => 43
  | .setAccessAddress => 44
  | .doSomething => 45
  | .doSomethingReply => 46
  | .getCrcVerify => 47
  | .setCrcVerify => 48
  | .poll => 49
  | .btlePromisc => 50
  | .setAfhmap => 51
  | .clearAfhmap => 52
  | .readRegister => 53
  | .btleSlave => 54
  | .getCompileInfo => 55
  | .btleSetTarget => 56
  | .btlePhy => 57
  | .writeRegister => 58
  | .jamMode => 59
  | .ego => 60
  | .afh => 61
  | .hop => 62
  | .trimClock => 63

/-- The commands, in the order of their numbers. -/
def UsbCommand.all : List UsbCommand := [
  .ping, .rxSymbols, .txSymbols, .getUsrled, .setUsrled, .getRxled, .setRxled, .getTxled,
  .setTxled, .get1v8, .set1v8, .getChannel, .setChannel, .reset, .getSerial, .getPartnum, .getPaen,
  .setPaen, .getHgm, .setHgm, .txTest, .stop, .getMod, .setMod, .setIsp, .flash, .bootloaderFlash,
  .specan, .getPalevel, .setPalevel, .repeater, .rangeTest, .rangeCheck, .getRevNum, .ledSpecan,
  .getBoardId, .setSquelch, .getSquelch, .setBdaddr, .startHopping, .setClock, .getClock,
  .btleSniffing, .getAccessAddress, .setAccessAddress, .doSomething, .doSomethingReply,
  .getCrcVerify, .setCrcVerify, .poll, .btlePromisc, .setAfhmap, .clearAfhmap, .readRegister,
  .btleSlave, .getCompileInfo, .btleSetTarget, .btlePhy, .writeRegister, .jamMode, .ego, .afh,
  .hop, .trimClock]

/-- The command that an octet carries. -/
def UsbCommand.ofU8 (bRequest : U8) : Option UsbCommand := UsbCommand.all[bRequest.toNat]?

@[simp] theorem UsbCommand.ofU8_toU8 (c : UsbCommand) : ofU8 c.toU8 = some c := by
  cases c <;> rfl

theorem UsbCommand.toU8_of_ofU8 {bRequest : U8} {c : UsbCommand} (h : ofU8 bRequest = some c) :
    c.toU8 = bRequest := by
  have hnumbered : ∀ i : Fin 64, (all[i.val]?).map toU8 = some (BitVec.ofNat 8 i) := by decide
  have hbound : bRequest.toNat < 64 := (List.getElem?_eq_some_iff.1 h).1
  have hnumber := hnumbered ⟨bRequest.toNat, hbound⟩
  rw [show all[bRequest.toNat]? = some c from h, Option.map_some, Option.some_inj,
    BitVec.ofNat_toNat, BitVec.setWidth_eq] at hnumber
  exact hnumber

/-- No command has the number of the requests for OS descriptors. -/
theorem UsbCommand.toU8_ne (c : UsbCommand) : c.toU8 ≠ 0xff := by
  intro h
  have hnone : ofU8 c.toU8 = none := by rw [h]; rfl
  rw [ofU8_toU8] at hnone
  cases hnone

end Ubertooth
