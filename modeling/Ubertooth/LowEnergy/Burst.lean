import Ubertooth.LowEnergy.CrcInit
import Ubertooth.LowEnergy.Whitening

/-!
# Bursts and the CRC of a packet

The three octets after the payload hold the register low octet first, so their bits follow those of
the payload on air in the order in which the register moves out. A packet therefore passes the check
of `bt_le_sync` when its header, payload and CRC together clear the register
(`crc_matches_iff`), and a burst of at most 24 bits among them does not go unnoticed, also where the
CRC begins (`btLeSyncAccepts_of_burst`).
-/

namespace Ubertooth.LowEnergy

open Firmware Foundations.ShiftRegister

/-- Header, payload and CRC. -/
def checkedOctets (p : Packet) : List U8 := (pdu p).take (pduLen p + 3)

/-- The register in `wire_crc`. -/
def wireRegister (p : Packet) : BitVec 24 :=
  p[4 + pduLen p + 2] ++ (p[4 + pduLen p + 1] ++ p[4 + pduLen p])

theorem getLsbD_append_octets (a b c : U8) (i : ℕ) :
    (c ++ (b ++ a)).getLsbD i =
      if i < 8 then a.getLsbD i else if i < 16 then b.getLsbD (i - 8) else c.getLsbD (i - 16) := by
  rw [BitVec.getLsbD_append, BitVec.getLsbD_append]
  split
  · split
    · rfl
    · rfl
  · rw [if_neg (by omega)]

theorem wireCrc_eq_wireRegister (p : Packet) : wireCrc p = (wireRegister p).setWidth 32 := by
  unfold wireCrc wireRegister
  dsimp only
  apply BitVec.eq_of_getLsbD_eq
  intro i hi
  rw [BitVec.getLsbD_setWidth, getLsbD_append_octets]
  interval_cases i <;> simp

/-- The CRC follows the payload in the order in which the register moves out. -/
theorem onAirBits_checkedOctets {p : Packet} (hfit : pduLen p ≤ 39) :
    onAirBits (checkedOctets p) =
      onAirBits ((pdu p).take (pduLen p)) ++ bits 24 (wireRegister p) := by
  have hoctets : checkedOctets p = (pdu p).take (pduLen p) ++
      [p[4 + pduLen p], p[4 + pduLen p + 1], p[4 + pduLen p + 2]] := by
    unfold checkedOctets
    rw [List.take_add_one, List.take_add_one, List.take_add_one, getElem?_pdu p (by omega),
      getElem?_pdu p (by omega), getElem?_pdu p (by omega)]
    simp [Nat.add_assoc]
  have hbits : bits 24 (wireRegister p) =
      onAirBits [p[4 + pduLen p], p[4 + pduLen p + 1], p[4 + pduLen p + 2]] := by
    unfold wireRegister
    rw [bits_concat (n := 16) (k := 8), bits_concat (n := 8) (k := 8), List.append_assoc]
    simp
  rw [hoctets, hbits, onAirBits, List.flatMap_append]
  rfl

/-- The packets that pass the check are those that clear the register. -/
theorem crc_matches_iff (seed : U32) {p : Packet} (hfit : pduLen p ≤ 39) :
    btleCrcgenLut seed (pdu p) (pduLen p) = wireCrc p ↔
      feed crcTaps (seed.setWidth 24) (onAirBits (checkedOctets p)) = 0#24 := by
  rw [onAirBits_checkedOctets hfit, feed_append_bits_eq_zero_iff msb_crcTaps,
    btleCrcgenLut_eq_feed, wireCrc_eq_wireRegister, eq_comm]
  constructor
  · intro h
    rw [← setWidth_setWidth_word (wireRegister p), h, setWidth_setWidth_word]
  · intro h
    rw [h]

theorem btLeSyncAccepts_iff_matches {le : LeState} (hv : le.crcVerify = true) (p : Packet) :
    btLeSyncAccepts le p = true ↔ pduLen p ≤ 39 ∧
      btleCrcgenLut le.crcInitReversed (pdu p) (pduLen p) = wireCrc p := by
  simp [btLeSyncAccepts, hv]

/-- **Every short burst is caught.** Whatever the seed, of two packets with one length octet that
differ within 24 consecutive bits of header, payload and CRC only, `bt_le_sync` lets through at most
one. -/
theorem btLeSyncAccepts_of_burst {le : LeState} (hv : le.crcVerify = true) {p q : Packet}
    (hp : btLeSyncAccepts le p = true) (hlen : q[5] = p[5]) (k : ℕ)
    (hburst : DifferWithin k 24 (onAirBits (checkedOctets p)) (onAirBits (checkedOctets q)))
    (hne : checkedOctets p ≠ checkedOctets q) : btLeSyncAccepts le q = false := by
  have hpduLen : pduLen q = pduLen p := by rw [pduLen, hlen, pduLen]
  obtain ⟨hfit, hmatch⟩ := (btLeSyncAccepts_iff_matches hv p).1 hp
  by_contra hq
  obtain ⟨hfit', hmatch'⟩ := (btLeSyncAccepts_iff_matches hv q).1 (Bool.of_not_eq_false hq)
  have hclear := (crc_matches_iff _ hfit).1 hmatch
  have hclear' := (crc_matches_iff _ hfit').1 hmatch'
  have hbits := hburst.eq_of_feed_eq msb_crcTaps _ (hclear.trans hclear'.symm)
  exact hne (flatMap_bits_injective (by omega) hbits)

/-- An error in the header and one in the CRC. -/
theorem btLeSyncAccepts_of_burst_emptyPdu :
    btLeSyncAccepts {} (packetOf [(4, 0x81), (6, 0xa8), (7, 0xe4), (8, 0x8f)]) = false := by
  have hp : btLeSyncAccepts {} emptyPdu = true := by decide +kernel
  exact btLeSyncAccepts_of_burst rfl hp rfl 7 (by decide +kernel) (by decide +kernel)

end Ubertooth.LowEnergy
