import Ubertooth.Interface

/-!
# `ubertooth.c`: the SPI of the CC2400

The transactions with the radio are bit-banged. A function gives what it does to the pins, in order,
and the word it returns; `miso` is the level of MISO at each of its readings.
-/

namespace Ubertooth.Firmware

/-- What is done to the pins of the CC2400. -/
inductive PinOp
  /-- `CSN_SET` and `CSN_CLR` -/
  | csn (level : Bool)
  /-- `SCLK_SET` and `SCLK_CLR` -/
  | sclk (level : Bool)
  /-- `MOSI_SET` and `MOSI_CLR` -/
  | mosi (level : Bool)
  /-- `MISO`, and the level read -/
  | miso (level : Bool)
  deriving DecidableEq, Repr

/-- The loop `while (len--)`, after `k` rounds. -/
def spiLoop (miso : ℕ → Bool) (msb : U32) : ℕ → ℕ → U32 → List PinOp × U32
  | 0, _, data => ([], data)
  | len + 1, k, data =>
    let mosi : PinOp := .mosi (decide (data &&& msb ≠ 0))
    let data := data <<< 1
    let data := if miso k then data ||| 1 else data
    let r := spiLoop miso msb len (k + 1) data
    ([mosi, .sclk true, .miso (miso k), .sclk false] ++ r.1, r.2)

/-- `cc2400_spi`: a single SPI transaction of variable length. For `len = 32`, `1 << 31` is the bit
of the sign, as the compiler has it; for `len = 0` the source shifts by -1, and the model by 0. -/
def cc2400Spi (miso : ℕ → Bool) (len : U8) (data : U32) : List PinOp × U32 :=
  let msb := (1 : U32) <<< (len.toNat - 1)
  let r := spiLoop miso msb len.toNat 0 data
  -- start transaction by dropping CSN, end it by raising CSN
  (.csn false :: r.1 ++ [.csn true], r.2)

/-- read 16 bit value from a register -/
def cc2400Get (miso : ℕ → Bool) (reg : U8) : List PinOp × U16 :=
  let out : U32 := (reg.setWidth 32 ||| 0x80) <<< 16
  let r := cc2400Spi miso 24 out
  (r.1, (r.2 &&& 0xffff).setWidth 16)

/-- write 16 bit value to a register -/
def cc2400Set (miso : ℕ → Bool) (reg : U8) (val : U16) : List PinOp :=
  let out : U32 := (reg.setWidth 32 <<< 16) ||| val.setWidth 32
  (cc2400Spi miso 24 out).1

/-- read 8 bit value from a register -/
def cc2400Get8 (miso : ℕ → Bool) (reg : U8) : List PinOp × U8 :=
  let out : U16 := (reg.setWidth 16 ||| 0x80) <<< 8
  let r := cc2400Spi miso 16 (out.setWidth 32)
  let received : U16 := r.2.setWidth 16
  (r.1, (received &&& 0xff).setWidth 8)

/-- write 8 bit value to a register -/
def cc2400Set8 (miso : ℕ → Bool) (reg val : U8) : List PinOp :=
  let out : U32 := (reg.setWidth 32 <<< 8) ||| val.setWidth 32
  (cc2400Spi miso 16 out).1

/-- get the status -/
def cc2400Status (miso : ℕ → Bool) : List PinOp × U8 :=
  let r := cc2400Spi miso 8 0
  (r.1, r.2.setWidth 8)

/-- strobe register, return status -/
def cc2400Strobe (miso : ℕ → Bool) (reg : U8) : List PinOp × U8 :=
  let r := cc2400Spi miso 8 (reg.setWidth 32)
  (r.1, r.2.setWidth 8)

/-- The loop that `cc2400_spi_buf` sends an octet with, with so many rounds to go. -/
def octetLoop : ℕ → U8 → List PinOp
  | 0, _ => []
  | n + 1, temp =>
    [.mosi (decide (temp &&& 0x80 ≠ 0)), .sclk true, .sclk false] ++ octetLoop n (temp <<< 1)

/-- this is necessary to clock in the last byte -/
def lastClocks : List PinOp := (List.replicate 8 [PinOp.sclk true, PinOp.sclk false]).flatten

/-- write multiple bytes to SPI; `data` is the `len` octets. -/
def cc2400SpiBuf (reg : U8) (data : List U8) : List PinOp :=
  .csn false :: octetLoop 8 reg ++ data.flatMap (octetLoop 8) ++ lastClocks ++ [.csn true]

end Ubertooth.Firmware
