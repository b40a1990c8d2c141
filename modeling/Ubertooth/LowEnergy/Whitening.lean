import Ubertooth.Firmware.Whitening
import Ubertooth.LowEnergy.Crc

/-!
# What is transmitted is received

Whitening adds to the data a sequence of period 127, entered at a place that depends on the channel.
`le_transmit` takes the sequence bit by bit (`whitenData_getD`), and `bt_le_sync` from a table of
words, each of which is a window of the sequence (`getLsbD_whiteningWord`). Octets are sent least
significant bit first, and stored most significant bit first, on one side by a loop and on the other
by `rbit`. All of this cancels (`received_as_sent`), and the CRC that `bt_slave_le` appends is the
one that `bt_le_sync` checks.
-/

namespace Ubertooth.LowEnergy

open Firmware

/-! ## The sequence -/

/-- The whitening sequence, first bit lowest. -/
def whiteningBits : BitVec 127 := 0x528dc7f0ef2c902262eb60cd4e7b42af

/-- Bit `i` of the sequence, which repeats itself. -/
def whiteningBit (i : ℕ) : Bool := whiteningBits.getLsbD (i % 127)

theorem whiteningBit_add_mod (i j : ℕ) : whiteningBit (i % 127 + j) = whiteningBit (i + j) := by
  rw [whiteningBit, Nat.mod_add_mod]
  rfl

/-- The table of bits. -/
theorem whitening_getD_mod (i : ℕ) :
    whitening.getD (i % 127) 0 = (BitVec.ofBool (whiteningBit i)).setWidth 8 := by
  have hall : ∀ k < 127, whitening.getD k 0 =
      (BitVec.ofBool (whiteningBits.getLsbD k)).setWidth 8 := by decide +kernel
  exact hall (i % 127) (Nat.mod_lt i (by omega))

/-- Where a channel enters the sequence. -/
def whiteningStart (c : ℕ) : ℕ := (whiteningIndex.getD c 0).toNat

/-- The table of words: windows of the sequence written twice. -/
theorem whiteningWord_getD :
    ∀ c < 40, ∀ w < 12, (whiteningWord.getD c []).getD w 0 =
      ((whiteningBits ++ whiteningBits) >>> ((whiteningStart c + 32 * w) % 127)).setWidth 32 := by
  decide +kernel

theorem getLsbD_window {k m : ℕ} (hk : k < 127) (hm : m < 32) :
    (((whiteningBits ++ whiteningBits) >>> k).setWidth 32).getLsbD m = whiteningBit (k + m) := by
  rw [BitVec.getLsbD_setWidth, BitVec.getLsbD_ushiftRight, BitVec.getLsbD_append, whiteningBit,
    decide_eq_true hm, Bool.true_and]
  split
  case isTrue h => rw [Nat.mod_eq_of_lt h]
  case isFalse h => rw [Nat.mod_eq_sub_mod (by omega), Nat.mod_eq_of_lt (by omega)]

/-- Every word of the table is the part of the sequence that is due. -/
theorem getLsbD_whiteningWord {c w m : ℕ} (hc : c < 40) (hw : w < 12) (hm : m < 32) :
    ((whiteningWord.getD c []).getD w 0).getLsbD m =
      whiteningBit (whiteningStart c + 32 * w + m) := by
  rw [whiteningWord_getD c hc w hw, getLsbD_window (Nat.mod_lt _ (by omega)) hm,
    whiteningBit_add_mod]

/-! ## Sending -/

/-- The bit sent is the bit of data and the bit of the sequence. -/
theorem whitenBit_bit (b : U8) (n i : ℕ) :
    ((b >>> n) &&& 1) ^^^ whitening.getD (i % 127) 0 =
      (BitVec.ofBool (b.getLsbD n ^^ whiteningBit i)).setWidth 8 := by
  have hone : (b >>> n) &&& 1 = (BitVec.ofBool (b.getLsbD n)).setWidth 8 := by
    have h := BitVec.and_one_eq_setWidth_ofBool_getLsbD (x := b >>> n)
    rwa [BitVec.getLsbD_ushiftRight, Nat.add_zero] at h
  rw [hone, whitening_getD_mod]
  cases b.getLsbD n <;> cases whiteningBit i <;> rfl

/-- One bit of an octet. -/
theorem getLsbD_bit_shiftLeft (v : Bool) {k m : ℕ} (hm : m < 8) :
    (((BitVec.ofBool v).setWidth 8 : U8) <<< k).getLsbD m = (decide (m = k) && v) := by
  rw [BitVec.getLsbD_shiftLeft, BitVec.getLsbD_setWidth, BitVec.getLsbD_ofBool]
  by_cases hmk : m < k
  · simp [hmk, hmk.ne]
  · by_cases heq : m = k
    · simp [heq]
      omega
    · have hsub : m - k ≠ 0 := by omega
      simp [heq, hsub]

/-- After `n` passes over an octet, its first `n` bits are on top. -/
theorem foldl_whitenBit (b : U8) (i : ℕ) {n : ℕ} (hn : n ≤ 8) :
    let x := (List.range n).foldl whitenBit (b, i % 127, 0)
    x.1 = b >>> n ∧ x.2.1 = (i + n) % 127 ∧
      ∀ m < 8, x.2.2.getLsbD m =
        (decide (8 - n ≤ m) && (b.getLsbD (7 - m) ^^ whiteningBit (i + (7 - m)))) := by
  induction n with
  | zero =>
    refine ⟨by simp, rfl, fun m hm => ?_⟩
    have hnot : ¬8 - 0 ≤ m := by omega
    simp [hnot]
  | succ n ih =>
    obtain ⟨hbyte, hidx, hout⟩ := ih (by omega)
    rw [List.range_succ, List.foldl_append]
    dsimp only [List.foldl_cons, List.foldl_nil, whitenBit]
    rw [hbyte, hidx, whitenBit_bit]
    have hlength : whitening.length = 127 := rfl
    refine ⟨(BitVec.shiftRight_add b n 1).symm, ?_, fun m hm => ?_⟩
    · rw [hlength, Nat.mod_add_mod, Nat.add_assoc]
    · rw [BitVec.getLsbD_or, hout m hm, getLsbD_bit_shiftLeft _ hm]
      by_cases heq : m = 7 - n
      · have hn7 : 7 - m = n := by omega
        have hold : ¬8 - n ≤ m := by omega
        have hnew : 8 - (n + 1) ≤ m := by omega
        rw [hn7, decide_eq_false hold, decide_eq_true hnew, decide_eq_true heq]
        simp
      · have hsame : decide (8 - (n + 1) ≤ m) = decide (8 - n ≤ m) := by
          rw [decide_eq_decide]
          omega
        rw [hsame, decide_eq_false heq, Bool.false_and, Bool.or_false]

theorem whitenByte_idx (b : U8) (i : ℕ) : (whitenByte b (i % 127)).2.1 = (i + 8) % 127 :=
  (foldl_whitenBit b i le_rfl).2.1

/-- The octet sent, bits turned round. -/
theorem getLsbD_whitenByte (b : U8) (i : ℕ) {m : ℕ} (hm : m < 8) :
    (whitenByte b (i % 127)).2.2.getLsbD m =
      (b.getLsbD (7 - m) ^^ whiteningBit (i + (7 - m))) := by
  have h := (foldl_whitenBit b i le_rfl).2.2 m hm
  simpa [whitenByte] using h

/-- Octet `k` of the data is whitened from `8 * k` bits on. -/
theorem whitenData_getD (data : List U8) (i : ℕ) {k : ℕ} (hk : k < data.length) :
    (whitenData data (i % 127)).getD k 0 =
      (whitenByte (data.getD k 0) ((i + 8 * k) % 127)).2.2 := by
  induction data generalizing i k with
  | nil => simp at hk
  | cons b data ih =>
    rw [whitenData, whitenByte_idx]
    cases k with
    | zero => simp
    | succ k =>
      have h := ih (i + 8) (k := k) (by simpa using hk)
      rw [List.getD_cons_succ, List.getD_cons_succ, h, Nat.mul_succ, Nat.add_assoc, Nat.add_comm 8]

theorem length_txAccessAddress (aa : U32) : (txAccessAddress aa).length = 4 := by
  simp [txAccessAddress, octetsOf]

theorem whiteningStart_lt : ∀ c < 40, whiteningStart c < 127 := by decide

/-- What goes out after the access address. -/
theorem leTxbuf_getD (channel : U16) (aa : U32) (data : List U8) {k : ℕ} (hk : k < data.length)
    (hc : channelIndexOf channel < 40) :
    (leTxbuf channel aa data.length data).getD (k + 4) 0 =
      (whitenByte (data.getD k 0)
        ((whiteningStart (channelIndexOf channel) + 8 * k) % 127)).2.2 := by
  have hstart := Nat.mod_eq_of_lt (whiteningStart_lt _ hc)
  rw [← whitenData_getD data _ hk, hstart, leTxbuf, List.take_length,
    List.getD_append_right _ _ _ _ (by rw [length_txAccessAddress]; omega),
    length_txAccessAddress, Nat.add_sub_cancel]
  rfl

/-! ## Receiving -/

/-- Octet `b` of a word, from its bits. -/
theorem getLsbD_wordOctet (x : U32) (b : ℕ) {m : ℕ} (hm : m < 8) :
    (wordOctet x b).getLsbD m = x.getLsbD (8 * b + m) := by
  simp [wordOctet, hm]

/-- `rbit` of the word read. -/
theorem getLsbD_reverse_rxWord (rxbuf1 : ℕ → U8) (i : ℕ) {b m : ℕ} (hb : b < 4) (hm : m < 8) :
    (rxWord rxbuf1 i).reverse.getLsbD (8 * b + m) = (rxbuf1 (i + b)).getLsbD (7 - m) := by
  rw [BitVec.getLsbD_reverse, BitVec.getMsbD_eq_getLsbD, rxWord]
  interval_cases b <;> interval_cases m <;> simp

/-- Octet `k` as `bt_le_sync` unwhitens it. -/
theorem getLsbD_packetWord (channel : U16) (rxbuf1 : ℕ → U8) {k m : ℕ} (hk : k < 48) (hm : m < 8)
    (hc : channelIndexOf channel < 40) :
    (wordOctet (packetWord channel rxbuf1 (4 * (k / 4))) (k % 4)).getLsbD m =
      ((rxbuf1 k).getLsbD (7 - m) ^^
        whiteningBit (whiteningStart (channelIndexOf channel) + 8 * k + m)) := by
  have hword : 4 * (k / 4) / 4 = k / 4 := by omega
  have hbit : whiteningStart (channelIndexOf channel) + 32 * (k / 4) + (8 * (k % 4) + m) =
      whiteningStart (channelIndexOf channel) + 8 * k + m := by omega
  rw [getLsbD_wordOctet _ _ hm, packetWord, BitVec.getLsbD_xor,
    getLsbD_reverse_rxWord _ _ (Nat.mod_lt k (by omega)) hm, Nat.div_add_mod, hword,
    getLsbD_whiteningWord hc (by omega) (by omega), hbit]

/-! ## The packet in memory -/

theorem Packet.setWord_getElem (p : Packet) (k : ℕ) (x : U32) {i : ℕ} (hi : i < 52) :
    (p.setWord k x)[i] = if i / 4 = k then wordOctet x (i % 4) else p[i] := by
  change (Vector.ofFn _)[i]?.getD 0 = _
  rw [Vector.getElem?_ofFn, dif_pos hi]
  rfl

/-- The words that `n` passes of the loop have written. -/
theorem foldl_setWord (w : ℕ → U32) (p : Packet) (n : ℕ) {i : ℕ} (hi : i < 52) :
    ((List.range n).foldl (fun p k => p.setWord (k + 2) (w k)) p)[i] =
      if 2 ≤ i / 4 ∧ i / 4 < n + 2 then wordOctet (w (i / 4 - 2)) (i % 4) else p[i] := by
  induction n with
  | zero => rw [if_neg (by omega)]; rfl
  | succ n ih =>
    rw [List.range_succ, List.foldl_append, List.foldl_cons, List.foldl_nil,
      Packet.setWord_getElem _ _ _ hi, ih]
    by_cases hnew : i / 4 = n + 2
    · rw [if_pos hnew, if_pos (by omega), hnew, Nat.add_sub_cancel]
    · rw [if_neg hnew]
      have hsame : (2 ≤ i / 4 ∧ i / 4 < n + 1 + 2) ↔ (2 ≤ i / 4 ∧ i / 4 < n + 2) := by omega
      simp only [hsame]

/-- The first loop of `bt_le_sync` writes the header, and the second leaves it alone. -/
theorem pduLen_btLeSyncPacket (stack : Packet) (le : LeState) (channel : U16) (rxbuf1 : ℕ → U8) :
    pduLen (btLeSyncPacket stack le channel rxbuf1) =
      pduLen ((stack.setWord 0 le.accessAddress).setWord 1 (packetWord channel rxbuf1 0)) := by
  dsimp only [btLeSyncPacket]
  split
  case isTrue =>
    rw [pduLen, pduLen, unwhitenRest, foldl_setWord _ _ _ (by omega), if_neg (by omega)]
  case isFalse => rfl

/-- Every octet that `bt_le_sync` computes is an octet of the word at its place. -/
theorem btLeSyncPacket_getElem (stack : Packet) (le : LeState) (channel : U16) (rxbuf1 : ℕ → U8)
    {k : ℕ} (hk : k < 44)
    (hlen : k < 4 ∨ pduLen (btLeSyncPacket stack le channel rxbuf1) ≤ 39) :
    (btLeSyncPacket stack le channel rxbuf1)[4 + k] =
      wordOctet (packetWord channel rxbuf1 (4 * (k / 4))) (k % 4) := by
  have hfirst : k < 4 →
      ((stack.setWord 0 le.accessAddress).setWord 1 (packetWord channel rxbuf1 0))[4 + k] =
        wordOctet (packetWord channel rxbuf1 (4 * (k / 4))) (k % 4) := by
    intro hk4
    have hword : 4 * (k / 4) = 0 := by omega
    have hoctet : (4 + k) % 4 = k % 4 := by omega
    rw [Packet.setWord_getElem _ _ _ (by omega), if_pos (by omega), hword, hoctet]
  rw [pduLen_btLeSyncPacket] at hlen
  dsimp only [btLeSyncPacket]
  split
  case isFalse hlong => exact hfirst (hlen.resolve_right hlong)
  case isTrue =>
    rw [unwhitenRest, foldl_setWord _ _ _ (by omega)]
    by_cases hk4 : k < 4
    · rw [if_neg (by omega), hfirst hk4]
    · have hword : (4 + k) / 4 - 2 + 1 = k / 4 := by omega
      have hoctet : (4 + k) % 4 = k % 4 := by omega
      rw [if_pos (by omega), hword, hoctet]

/-! ## The octets sent are the octets read -/

/-- The 40 frequencies of LE have an index each. -/
theorem channelIndexOf_lt {channel : U16} (hchannel : ∃ k < 40, channel.toNat = 2402 + 2 * k) :
    channelIndexOf channel < 40 := by
  obtain ⟨k, hk, hk'⟩ := hchannel
  have hall : ∀ k < 40, channelIndexOf (BitVec.ofNat 16 (2402 + 2 * k)) < 40 := by decide
  have heq : channel = BitVec.ofNat 16 (2402 + 2 * k) := by
    rw [← hk', BitVec.ofNat_toNat, BitVec.setWidth_eq]
  exact heq ▸ hall k hk

/-- The two whitenings and the two turns cancel. -/
theorem wordOctet_packetWord {channel : U16} (hc : channelIndexOf channel < 40) (aa : U32)
    {data : List U8} {rxbuf1 : ℕ → U8} {k : ℕ} (hk : k < data.length) (hk48 : k < 48)
    (hair : rxbuf1 k = (leTxbuf channel aa data.length data).getD (k + 4) 0) :
    wordOctet (packetWord channel rxbuf1 (4 * (k / 4))) (k % 4) = data.getD k 0 := by
  refine BitVec.eq_of_getLsbD_eq fun m hm => ?_
  have hturn : 7 - (7 - m) = m := by omega
  rw [getLsbD_packetWord channel rxbuf1 hk48 hm hc, hair, leTxbuf_getD channel aa data hk hc,
    getLsbD_whitenByte _ _ (by omega), hturn, Bool.xor_assoc, Bool.xor_self, Bool.xor_false]

/-! ## The check -/

/-- Three octets put together again. -/
theorem join_octets (c : BitVec 24) :
    let x : U32 := c.setWidth 32
    (((x >>> 16).setWidth 8 : U8).setWidth 32 <<< 16) |||
      (((x >>> 8).setWidth 8 : U8).setWidth 32 <<< 8) ||| (x.setWidth 8 : U8).setWidth 32 = x := by
  refine BitVec.eq_of_getLsbD_eq fun i hi => ?_
  interval_cases i <;> simp

theorem getElem?_pdu (p : Packet) {i : ℕ} (hi : i < 48) : (pdu p)[i]? = some p[4 + i] := by
  have hlen : 4 + i < p.octets.toList.length := by
    rw [Vector.length_toList]
    omega
  change _ = some (p.octets[4 + i]?.getD 0)
  rw [pdu, List.getElem?_drop, List.getElem?_eq_getElem hlen,
    Vector.getElem?_eq_getElem (show 4 + i < 52 by omega)]
  rfl

/-- Octets known one by one, as a list. -/
theorem take_pdu {p : Packet} {data : List U8} {n : ℕ} (hn : n ≤ 48) (hdata : n ≤ data.length)
    (h : ∀ i < n, p[4 + i] = data.getD i 0) : (pdu p).take n = data.take n := by
  refine List.ext_getElem? fun i => ?_
  rw [List.getElem?_take, List.getElem?_take]
  split
  case isTrue hi =>
    rw [getElem?_pdu p (by omega), h i hi, List.getD_eq_getElem?_getD,
      List.getElem?_eq_getElem (by omega), Option.getD_some]
  case isFalse => rfl

theorem length_withCrc (seed : U32) (octets : List U8) :
    (withCrc seed octets).length = octets.length + 3 := by
  simp [withCrc]

theorem take_withCrc (seed : U32) (octets : List U8) :
    (withCrc seed octets).take octets.length = octets := by
  simp [withCrc]

/-- The length octet says where the CRC is. -/
theorem pduLen_of_length {p : Packet} {n : ℕ} (h2 : 2 ≤ n) (hn : n ≤ 37)
    (h5 : p[5] = BitVec.ofNat 8 (n - 2)) : pduLen p = n := by
  rw [pduLen, h5]
  interval_cases n <;> rfl

/-- The order in which `bt_slave_le` writes the CRC is the order in which `bt_le_sync` reads it. -/
theorem wireCrc_eq {p : Packet} {seed : U32} {octets : List U8} (hlen : pduLen p = octets.length)
    (h : ∀ i < octets.length + 3, p[4 + i] = (withCrc seed octets).getD i 0) :
    wireCrc p = btleCalcCrc seed octets octets.length := by
  have hcrc : ∀ j < 3, p[4 + octets.length + j] =
      [((btleCalcCrc seed octets octets.length).setWidth 8 : U8),
        ((btleCalcCrc seed octets octets.length) >>> 8).setWidth 8,
        ((btleCalcCrc seed octets octets.length) >>> 16).setWidth 8].getD j 0 := by
    intro j hj
    rw [Nat.add_assoc, h _ (by omega), withCrc, List.getD_append_right _ _ _ _ (by omega),
      Nat.add_sub_cancel_left]
  have h0 := hcrc 0 (by omega)
  have h1 := hcrc 1 (by omega)
  have h2 := hcrc 2 (by omega)
  rw [Nat.add_zero] at h0
  rw [wireCrc]
  dsimp only
  rw [hlen, h0, h1, h2, btleCalcCrc_eq_feed]
  exact join_octets _

/-- A PDU with its CRC is accepted. -/
theorem btLeSyncAccepts_of_withCrc {le : LeState} {p : Packet} {octets : List U8}
    (hlen : pduLen p = octets.length) (hfit : octets.length ≤ 37)
    (h : ∀ i < octets.length + 3, p[4 + i] = (withCrc le.crcInitReversed octets).getD i 0) :
    btLeSyncAccepts le p = true := by
  have hpdu : (pdu p).take octets.length = octets := by
    rw [take_pdu (by omega) (by rw [length_withCrc]; omega) fun i hi => h i (by omega),
      take_withCrc]
  have hcrc : btleCrcgenLut le.crcInitReversed (pdu p) (pduLen p) = wireCrc p := by
    rw [wireCrc_eq hlen h, btleCrcgenLut_eq_feed, btleCalcCrc_eq_feed, hlen, hpdu,
      List.take_length]
  have hfit' : pduLen p ≤ 39 := by omega
  simp [btLeSyncAccepts, hfit', hcrc]

section Received

variable {channel : U16} (hchannel : ∃ k < 40, channel.toNat = 2402 + 2 * k) (aa : U32)
  {data : List U8} (hdata : data.length ≤ 40) {rxbuf1 : ℕ → U8}
  (hair : ∀ i < data.length, rxbuf1 i = (leTxbuf channel aa data.length data).getD (i + 4) 0)
  (stack : Packet) (le : LeState)

include hchannel hdata hair

theorem word_received {i : ℕ} (hi : i < data.length) :
    wordOctet (packetWord channel rxbuf1 (4 * (i / 4))) (i % 4) = data.getD i 0 :=
  wordOctet_packetWord (channelIndexOf_lt hchannel) aa hi (by omega) (hair i hi)

theorem octet_received {i : ℕ} (hi : i < data.length)
    (hi' : i < 4 ∨ pduLen (btLeSyncPacket stack le channel rxbuf1) ≤ 39) :
    (btLeSyncPacket stack le channel rxbuf1)[4 + i] = data.getD i 0 :=
  (btLeSyncPacket_getElem stack le channel rxbuf1 (by omega) hi').trans
    (word_received hchannel aa hdata hair hi)

/-- A PDU that is sent with the CRC for the receiver's seed is accepted. -/
theorem accepts_received {octets : List U8} (hcrc : data = withCrc le.crcInitReversed octets)
    (h2 : 2 ≤ octets.length)
    (hlength : octets.getD 1 0 = BitVec.ofNat 8 (data.length - 5)) :
    btLeSyncAccepts le (btLeSyncPacket stack le channel rxbuf1) = true := by
  have hn : data.length = octets.length + 3 := by rw [hcrc, length_withCrc]
  have h5 : (btLeSyncPacket stack le channel rxbuf1)[5] = BitVec.ofNat 8 (octets.length - 2) := by
    have h := octet_received hchannel aa hdata hair stack le (i := 1) (by omega)
      (Or.inl (by omega))
    rw [hcrc, withCrc, List.getD_append _ _ _ _ (by omega), hlength, hn] at h
    exact h
  have hlen := pduLen_of_length h2 (by omega) h5
  refine btLeSyncAccepts_of_withCrc hlen (by omega) fun i hi => ?_
  rw [← hcrc]
  exact octet_received hchannel aa hdata hair stack le (by omega) (Or.inr (by omega))

end Received

/-- **What the firmware transmits it receives.** On the 40 frequencies of LE, whatever the access
address, let `rxbuf1` hold what `le_transmit` sends after it. Then the words that `bt_le_sync`
computes are the data, and so are the octets of `packet`, of which only the first word is computed
when the length in it is too great. A PDU with the CRC of `bt_slave_le` passes the check. -/
theorem received_as_sent {channel : U16} (hchannel : ∃ k < 40, channel.toNat = 2402 + 2 * k)
    (aa : U32) {data : List U8} (hdata : data.length ≤ 40) {rxbuf1 : ℕ → U8}
    (hair : ∀ i < data.length, rxbuf1 i = (leTxbuf channel aa data.length data).getD (i + 4) 0)
    (stack : Packet) (le : LeState) :
    let p := btLeSyncPacket stack le channel rxbuf1
    (∀ i < data.length,
      wordOctet (packetWord channel rxbuf1 (4 * (i / 4))) (i % 4) = data.getD i 0) ∧
    (∀ i < data.length, i < 4 ∨ pduLen p ≤ 39 → p[4 + i] = data.getD i 0) ∧
    ∀ seed octets, data = withCrc seed octets → 2 ≤ octets.length →
      octets.getD 1 0 = BitVec.ofNat 8 (data.length - 5) → le.crcInitReversed = seed →
      btLeSyncAccepts le p = true := by
  refine ⟨fun i hi => word_received hchannel aa hdata hair hi,
    fun i hi hi' => octet_received hchannel aa hdata hair stack le hi hi', ?_⟩
  rintro seed octets hcrc h2 hlength rfl
  exact accepts_received hchannel aa hdata hair stack le hcrc h2 hlength

/-- The advertisement of a slave without an address, in a receiver with the seed of advertising. -/
theorem received_as_sent_advInd :
    btLeSyncAccepts { crcVerify := true, crcInitReversed := 0xaaaaaa }
      (btLeSyncPacket ⟨Vector.replicate 52 0⟩ { crcVerify := true, crcInitReversed := 0xaaaaaa }
        2402 fun i => (leTxbuf 2402 0x8e89bed6 14
          (slaveData { crcInitReversed := 0xaaaaaa } fun _ => 0xff)).getD (i + 4) 0) = true :=
  (@received_as_sent 2402 ⟨0, by decide, rfl⟩ 0x8e89bed6
    (slaveData { crcInitReversed := 0xaaaaaa } fun _ => 0xff) (by decide) _ (fun _ _ => rfl)
    _ _).2.2 0xaaaaaa (advInd fun _ => 0xff) rfl (by decide) rfl rfl

/-- The advertisements of `bt_slave_le` are accepted wherever its own seed is the receiver's. -/
theorem accepts_slaveData {channel : U16} (hchannel : ∃ k < 40, channel.toNat = 2402 + 2 * k)
    (aa : U32) (le : LeState) (slaveMacAddress : ℕ → U8) (stack : Packet) :
    btLeSyncAccepts le (btLeSyncPacket stack le channel fun i =>
      (leTxbuf channel aa 14 (slaveData le slaveMacAddress)).getD (i + 4) 0) = true := by
  have hlength : (slaveData le slaveMacAddress).length = 14 := by
    rw [slaveData, length_withCrc]
    simp [advInd]
  refine accepts_received hchannel aa (hlength.le.trans (by omega)) (fun i _ => ?_) stack le rfl
    ?_ ?_
  · rw [hlength]
  · simp [advInd]
  · rw [hlength]
    rfl

end Ubertooth.LowEnergy
