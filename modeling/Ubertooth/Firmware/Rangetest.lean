import Ubertooth.Firmware.VendorHandler

/-!
# `cc2400_rangetest.c`: the range test and its repeater

The two programs, from one packet to the next. What lies between two packets, the waits for the
transceiver and the settings that are not `FSDIV` and `FREND`, is left out.
-/

namespace Ubertooth.Firmware

open Foundations

/-- A packet of the range test, as it goes through `FIFOREG`: length, type, serial number, and the
level and the number of the request and of the reply; 22 octets. -/
abbrev RangePacket := ℕ → U8

/-- The first level. -/
def firstPa : Fin 8 := (Fin.last 7).rev

/-- The first number at a level. -/
def firstI : Fin 16 := (Fin.last 15).rev

/-- The places of the programs: outside both; before `STX`, in the loops over `pa` and `i`; and
after `SRX`. -/
inductive RangePlace
  | off
  | requesting (pa : Fin 8) (i : Fin 16)
  | awaiting
  | repeating
  | replying (pa : Fin 8) (i : Fin 16)
  deriving DecidableEq

/-- A device with the result of `iap_entry` for its serial number, `channel`, the register `FSDIV`,
`txbuf` or `buf`, and `rr`. -/
structure RangeDevice where
  result : Vector U32 5
  channel : U16
  fsdiv : U16 := 0
  buf : RangePacket := fun _ => 0
  place : RangePlace := .off
  rr : RangetestResult := {}

/-- The words of the serial number follow the status, and go with their highest octet first. -/
def serialOctet (result : Vector U32 5) (j : ℕ) : U8 :=
  octet (result.toList.getD (1 + j / 4) 0) (3 - j % 4)

/-- The serial number in a packet. -/
def serialOctets (result : Vector U32 5) (j : Fin 16) : U8 := serialOctet result j

/-- `txbuf` as it is set up. -/
def requestBuf (result : Vector U32 5) : RangePacket := fun j =>
  if j = 0 then 21
  else if j = 1 then 0
  else if j < 18 then serialOctet result (j - 2)
  else if j < 20 then 0
  else 0xff

/-- The check of a packet received: 1, or the last place where it is not as expected, counted
from 2. -/
def rangeValid (rxbuf txbuf : RangePacket) : U8 :=
  (List.range 18).foldl
    (fun valid i => if rxbuf i ≠ txbuf i then BitVec.ofNat 8 (2 + i) else valid) 1

/-- The loops over `pa` and `i`. -/
def nextPacket (pa : Fin 8) (i : Fin 16) : Option (Fin 8 × Fin 16) :=
  if hi : i.val + 1 < 16 then some (pa, ⟨i + 1, hi⟩)
  else if hpa : pa.val + 1 < 8 then some (⟨pa + 1, hpa⟩, firstI)
  else none

namespace RangeDevice

variable (d : RangeDevice)

/-- `cc2400_rangetest`, as far as its first packet; without a serial number it returns. -/
def cc2400Rangetest : RangeDevice :=
  if d.result.toList.getD 0 0 &&& 0xff ≠ 0 then d
  else
    { d with
      buf := requestBuf d.result
      fsdiv := d.channel
      place := .requesting firstPa firstI }

/-- `cc2400_repeater`, as far as its first `SRX`. -/
def cc2400Repeater : RangeDevice := { d with fsdiv := d.channel - 1, place := .repeating }

/-- A request, from `txbuf`. -/
def requestPacket (pa : Fin 8) (i : Fin 16) : RangePacket :=
  Function.update (Function.update d.buf 18 (BitVec.ofNat 8 pa)) 19 (BitVec.ofNat 8 i)

/-- A reply, from `buf`. -/
def replyPacket (pa : Fin 8) (i : Fin 16) : RangePacket :=
  Function.update (Function.update d.buf 20 (BitVec.ofNat 8 pa)) 21 (BitVec.ofNat 8 i)

/-- `FREND` and what is in the FIFO at the next `STX`. -/
def onAir : Option (U16 × RangePacket) :=
  match d.place with
  | .requesting pa i => some (8 ||| BitVec.ofNat 16 pa, d.requestPacket pa i)
  | .replying pa i => some (8 ||| BitVec.ofNat 16 pa, d.replyPacket pa i)
  | _ => none

/-- What follows `STX`: the next packet of the loops, or the end of them. -/
def sent : RangeDevice :=
  match d.place with
  | .requesting pa i =>
    let d := { d with buf := d.requestPacket pa i }
    match nextPacket pa i with
    | some (pa, i) => { d with place := .requesting pa i }
    | none => { d with fsdiv := d.channel - 1, place := .awaiting }
  | .replying pa i =>
    let d := { d with buf := d.replyPacket pa i }
    match nextPacket pa i with
    | some (pa, i) => { d with place := .replying pa i }
    | none => { d with fsdiv := d.channel - 1, place := .repeating }
  | _ => d

/-- Whether the device waits for a packet. -/
def listens : Bool :=
  match d.place with
  | .awaiting | .repeating => true
  | _ => false

/-- What follows a packet with `STATUS_CRC_OK`. -/
def receive (rxbuf : RangePacket) : RangeDevice :=
  match d.place with
  | .awaiting =>
    let txbuf := Function.update d.buf 1 1
    { d with
      buf := txbuf
      place := .off
      rr := {
        valid := rangeValid rxbuf txbuf
        requestPa := rxbuf 18
        requestNum := rxbuf 19
        replyPa := rxbuf 20
        replyNum := rxbuf 21 } }
  | .repeating =>
    { d with
      buf := Function.update (Function.update rxbuf 0 21) 1 1
      fsdiv := d.channel
      place := .replying firstPa firstI }
  | _ => d

end RangeDevice

end Ubertooth.Firmware
