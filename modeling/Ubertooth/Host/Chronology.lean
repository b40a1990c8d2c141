import Ubertooth.Host.Symbols

/-!
# The ring buffer is chronological

After at least `NUM_BANKS` packets, bank `i` is the packet that has `NUM_BANKS - 1 - i` others after
it, and its symbols, the first one received first; bank 0 is the oldest packet, and the last bank
the newest (`banks_chronological`).
-/

namespace Ubertooth.Host

/-- Symbol `k` of a packet: the octets of its data in order, the most significant bit first. -/
def receivedBit (rx : UsbPktRx) (k : ℕ) : Bool := (rx.data[k / 8]?.getD 0).getLsbD (7 - k % 8)

theorem top_bit (octet : U8) {j : ℕ} (hj : j < 8) :
    ((octet <<< j) &&& (0x80 : U8)) >>> 7 =
      (BitVec.ofBool (octet.getLsbD (7 - j))).setWidth 8 := by
  have hmask : (0x80 : U8).getLsbD 7 = true := rfl
  apply BitVec.eq_of_getLsbD_eq
  intro i hi
  rw [BitVec.getLsbD_ushiftRight, BitVec.getLsbD_and, BitVec.getLsbD_shiftLeft,
    BitVec.getLsbD_setWidth]
  cases i with
  | zero =>
    rw [Nat.add_zero, hmask]
    simp [Nat.not_lt.2 (Nat.le_of_lt_succ hj)]
  | succ i =>
    rw [BitVec.getLsbD_of_ge (0x80 : U8) _ (by omega)]
    simp

/-- One octet for each symbol. -/
theorem getElem?_symbolsOf (rx : UsbPktRx) {k : ℕ} (hk : k < bankLen) :
    (symbolsOf rx)[k]? = some ((BitVec.ofBool (receivedBit rx k)).setWidth 8) := by
  have hoctet : k / 8 < symLen := (Nat.div_lt_iff_lt_mul (by omega)).2 hk
  have hget : (symbolsOf rx)[k]? =
      some (((rx.data.get ⟨k / 8, hoctet⟩ <<< (k % 8)) &&& (0x80 : U8)) >>> 7) := by
    rw [symbolsOf, unpackSymbols, Vector.getElem?_ofFn, dif_pos hk]
    rfl
  have hdata : rx.data[k / 8]?.getD 0 = rx.data.get ⟨k / 8, hoctet⟩ := by
    rw [Vector.getElem?_eq_getElem hoctet]
    rfl
  rw [hget, top_bit _ (Nat.mod_lt k (by omega)), receivedBit, hdata]

/-- **The ring buffer is chronological.** After every history of at least `NUM_BANKS` packets, bank
`i` holds the packet added `NUM_BANKS - 1 - i` calls before the last, and the symbols of its data in
the order in which they were received, one to an octet; the top bank holds the newest packet, and
the bottom bank the oldest of the ten. -/
theorem banks_chronological (usb : Vector UsbPktRx numBanks)
    (bt : Vector (Vector U8 bankLen) numBanks) {rxs : List UsbPktRx}
    (hbanks : numBanks ≤ rxs.length) :
    let rb := banksAfter usb bt rxs
    (∀ i < numBanks, ∃ rx, rxs[rxs.length - 1 - (numBanks - 1 - i)]? = some rx ∧
      rb.getUsb (BitVec.ofNat 8 i) = rx ∧
      ∀ k < bankLen, (rb.getBt (BitVec.ofNat 8 i))[k]? =
        some ((BitVec.ofBool (receivedBit rx k)).setWidth 8)) ∧
    (∃ rx, rxs[rxs.length - 1]? = some rx ∧ rb.topUsb = rx ∧ rb.topBt = symbolsOf rx) ∧
    ∃ rx, rxs[rxs.length - numBanks]? = some rx ∧ rb.bottomUsb = rx ∧
      rb.bottomBt = symbolsOf rx := by
  intro rb
  have hbank : ∀ i < 10, ∀ m, m + 10 = rxs.length + i → ∃ rx, rxs[m]? = some rx ∧
      rb.getUsb (BitVec.ofNat 8 i) = rx ∧ rb.getBt (BitVec.ofNat 8 i) = symbolsOf rx := by
    intro i hi m hm
    obtain ⟨hlt, husb⟩ := getUsb_banksAfter usb bt rxs hi hm
    obtain ⟨_, hbt⟩ := getBt_banksAfter usb bt rxs hi hm
    exact ⟨rxs[m], List.getElem?_eq_getElem hlt, husb, hbt⟩
  change 10 ≤ rxs.length at hbanks
  refine ⟨fun i hi => ?_, hbank 9 (by omega) _ (by omega), hbank 0 (by omega) _ ?_⟩
  · change i < 10 at hi
    obtain ⟨rx, hrx, husb, hbt⟩ := hbank i hi (rxs.length - 1 - (10 - 1 - i)) (by omega)
    refine ⟨rx, hrx, husb, fun k hk => ?_⟩
    rw [hbt, getElem?_symbolsOf rx hk]
  · show rxs.length - 10 + 10 = rxs.length + 0
    omega

/-- Twelve packets of an inquiry: the ten banks hold the last ten. -/
theorem banks_chronological_inquiry :
    let rb := banksAfter (Vector.replicate numBanks {})
      (Vector.replicate numBanks (Vector.replicate bankLen 0)) (inquiries 12)
    ∀ i < numBanks, ∃ rx, (inquiries 12)[12 - 1 - (numBanks - 1 - i)]? = some rx ∧
      rb.getUsb (BitVec.ofNat 8 i) = rx ∧
      ∀ k < bankLen, (rb.getBt (BitVec.ofNat 8 i))[k]? =
        some ((BitVec.ofBool (receivedBit rx k)).setWidth 8) :=
  (banks_chronological (Vector.replicate numBanks {})
    (Vector.replicate numBanks (Vector.replicate bankLen 0))
    (show numBanks ≤ (inquiries 12).length by decide)).1

end Ubertooth.Host
