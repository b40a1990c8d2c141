import Ubertooth.Firmware.Transmit
import Ubertooth.Foundations.Runs
import Ubertooth.LowEnergy.EmptyPdu

/-!
# The frame that is transmitted

`le_transmit` writes its buffer to the FIFO in chunks of 16 octets, which put together are the
bit-reversed access address and the whitened data. The preamble is to agree with the first bit of
the access address, but by then the loop over its octets has shifted all of them out of `aa`
(`leTransmit_wellFormed_iff`).
-/

namespace Ubertooth.LowEnergy

open Firmware Foundations

variable {channel gioSave : U16} {aa : U32} {data : List U8}

/-! ## What is asked of a frame -/

/-- The octets that go to the FIFO. -/
def fifoOctets (ops : List RadioOp) : List U8 :=
  ops.flatMap fun
    | .fifo octets => octets
    | _ => []

/-- What a register is left at, if it is set. -/
def registerAfter (reg : CcReg) (ops : List RadioOp) : Option U16 :=
  lastWritten (fun
    | .set r val => if r = reg then some val else none
    | _ => none) ops

/-- Octet `k` of the data on air: eight places of the whitening sequence on from where the channel
starts, and the bits turned round. -/
def airOctet (channel : U16) (byte : U8) (k : ℕ) : U8 :=
  (byte ^^^ octetAt (whiteningAt channel) (8 * k)).reverse

/-- A well-formed frame: the octets of the access address, the lowest first and bits turned round,
and the whitened data; and a preamble that goes with the first bit. -/
structure WellFormedFrame (channel : U16) (aa : U32) (data : List U8) (ops : List RadioOp) :
    Prop where
  octets : fifoOctets ops = (octetsOf aa 4).map BitVec.reverse ++
    data.zipIdx.map fun x => airOctet channel x.1 x.2
  preamble : registerAfter .synch ops = some (if aa.getLsbD 0 then 0xaaaa else 0x5555)

/-! ## The chunks -/

theorem fifoOctets_append (ops ops' : List RadioOp) :
    fifoOctets (ops ++ ops') = fifoOctets ops ++ fifoOctets ops' := List.flatMap_append

/-- The length of a chunk. -/
theorem toNat_txLen {len : U8} {i : ℕ} (hi : i < len.toNat) :
    (txLen len i).toNat = min (len.toNat - i) 16 := by
  have hlen : len.toNat < 256 := len.isLt
  have hsub : (len - BitVec.ofNat 8 i).toNat = len.toNat - i := by
    rw [BitVec.toNat_sub, BitVec.toNat_ofNat]
    omega
  unfold txLen
  dsimp only
  split_ifs with h
  · have hlt : 16 < len.toNat - i := by
      rw [← hsub]
      exact BitVec.lt_def.1 h
    rw [Nat.min_eq_right (by omega)]
    rfl
  · have hle : len.toNat - i ≤ 16 := by
      rw [← hsub]
      exact not_lt.1 fun hlt => h (BitVec.lt_def.2 hlt)
    rw [hsub, Nat.min_eq_left hle]

/-- The chunks put together, as long as there are rounds enough. -/
theorem fifoOctets_fifoLoop {txbuf : List U8} {len : U8} (hlen : txbuf.length = len.toNat)
    {n i : ℕ} (hn : len.toNat ≤ i + 16 * n) :
    fifoOctets (fifoLoop txbuf len n i) = txbuf.drop i := by
  induction n generalizing i with
  | zero =>
    rw [List.drop_eq_nil_of_le (by omega)]
    rfl
  | succ n ih =>
    unfold fifoLoop
    split_ifs with hi
    · have hchunk : (txbuf.drop i).take (txLen len i).toNat = (txbuf.drop i).take 16 := by
        rw [toNat_txLen hi, ← hlen, ← List.length_drop, Nat.min_comm, ← List.take_eq_take_min]
      have hrest : fifoOctets (fifoLoop txbuf len n (i + 16)) = txbuf.drop (i + 16) :=
        ih (by omega)
      have hcons : fifoOctets (.fifo ((txbuf.drop i).take (txLen len i).toNat) ::
          fifoLoop txbuf len n (i + 16)) = (txbuf.drop i).take (txLen len i).toNat ++
            fifoOctets (fifoLoop txbuf len n (i + 16)) := List.flatMap_cons
      rw [hcons, hchunk, hrest, ← List.drop_drop, List.take_append_drop]
    · rw [List.drop_eq_nil_of_le (by omega)]
      rfl

/-! ## The buffer -/

/-- Every channel has an index. -/
theorem channelIndexOf_lt_forty (channel : U16) : channelIndexOf channel < 40 := by
  have hall : ∀ c : U8, (btleChannelIndex c).toNat < 40 := by decide +kernel
  exact hall _

theorem txAccessAddress_eq (aa : U32) :
    txAccessAddress aa = (octetsOf aa 4).map BitVec.reverse := by
  have hall : ∀ byte : U8, ((List.range 8).foldl reverseBit (byte, 0)).2 = byte.reverse := by
    decide +kernel
  exact List.map_congr_left fun byte _ => hall byte

theorem whiteningAt_eq (channel : U16) (n : ℕ) : whiteningAt channel n =
    (BitVec.ofBool (whiteningBit (whiteningStart (channelIndexOf channel) + n))).setWidth 8 :=
  whitening_getD_mod _

/-- An octet of the buffer. -/
theorem whitenByte_eq (channel : U16) (byte : U8) (k : ℕ) :
    (whitenByte byte ((whiteningStart (channelIndexOf channel) + 8 * k) % 127)).2.2 =
      airOctet channel byte k := by
  refine BitVec.eq_of_getLsbD_eq fun m hm => ?_
  have hone : ∀ b : Bool, decide ((BitVec.ofBool b).setWidth 8 = (1 : U8)) = b := by decide
  have hbit : (octetAt (whiteningAt channel) (8 * k)).getLsbD (7 - m) =
      whiteningBit (whiteningStart (channelIndexOf channel) + 8 * k + (7 - m)) := by
    rw [getLsbD_octetAt (by omega) fun j _ => isSymbol_whiteningAt channel _, whiteningAt_eq, hone,
      Nat.add_assoc]
  rw [getLsbD_whitenByte _ _ hm, airOctet, BitVec.getLsbD_reverse, BitVec.getMsbD_eq_getLsbD,
    decide_eq_true hm, Bool.true_and, BitVec.getLsbD_xor, hbit]

theorem whitenData_eq (channel : U16) (data : List U8) (k : ℕ) :
    whitenData data ((whiteningStart (channelIndexOf channel) + 8 * k) % 127) =
      (data.zipIdx k).map fun x => airOctet channel x.1 x.2 := by
  induction data generalizing k with
  | nil => rfl
  | cons byte data ih =>
    rw [whitenData, whitenByte_idx, whitenByte_eq, Nat.add_assoc, ← Nat.mul_succ, ih,
      List.zipIdx_cons, List.map_cons]

theorem leTxbuf_eq (channel : U16) (aa : U32) (data : List U8) :
    leTxbuf channel aa data.length data = (octetsOf aa 4).map BitVec.reverse ++
      data.zipIdx.map fun x => airOctet channel x.1 x.2 := by
  have hstart := Nat.mod_eq_of_lt (whiteningStart_lt _ (channelIndexOf_lt_forty channel))
  have hdata := whitenData_eq channel data 0
  rw [Nat.mul_zero, Nat.add_zero, hstart] at hdata
  rw [leTxbuf, List.take_length, txAccessAddress_eq, ← hdata]
  rfl

/-! ## The preamble -/

/-- The loop shifts all of the access address out. -/
theorem aaShifted_eq_zero (aa : U32) : aaShifted aa = 0 := by
  refine BitVec.eq_of_getLsbD_eq fun k hk => ?_
  simp [aaShifted, List.range_succ]

theorem mem_fifoLoop {txbuf : List U8} {len : U8} {n i : ℕ} {op : RadioOp}
    (h : op ∈ fifoLoop txbuf len n i) : ∃ octets, op = .fifo octets := by
  induction n generalizing i with
  | zero => simp [fifoLoop] at h
  | succ n ih =>
    unfold fifoLoop at h
    split_ifs at h with hi
    · obtain rfl | h := List.mem_cons.1 h
      · exact ⟨_, rfl⟩
      · exact ih h
    · simp at h

/-- The preamble is always the one for a first bit of 0. -/
theorem registerAfter_synch (channel gioSave : U16) (aa : U32) (len : U8) (data : List U8) :
    registerAfter .synch (leTransmit channel gioSave aa len data) = some 0x5555 := by
  have hloop : registerAfter .synch (fifoLoop (leTxbuf channel aa len.toNat data) (len + 4) 16 0) =
      none := lastWritten_eq_none fun op hop => by
    obtain ⟨octets, rfl⟩ := mem_fifoLoop hop
    rfl
  unfold registerAfter at hloop ⊢
  unfold leTransmit
  rw [aaShifted_eq_zero, lastWritten_append, lastWritten_append, hloop]
  rfl

/-- The octets of the frame, none lost and none repeated. -/
theorem fifoOctets_leTransmit (hlen : data.length ≤ 60) :
    fifoOctets (leTransmit channel gioSave aa (BitVec.ofNat 8 data.length) data) =
      (octetsOf aa 4).map BitVec.reverse ++ data.zipIdx.map fun x => airOctet channel x.1 x.2 := by
  have hdata : (BitVec.ofNat 8 data.length).toNat = data.length := by
    rw [BitVec.toNat_ofNat]
    omega
  have hframe : (BitVec.ofNat 8 data.length + 4).toNat = data.length + 4 := by
    rw [BitVec.toNat_add, hdata]
    show (data.length + 4) % 256 = data.length + 4
    omega
  have hbuf : (leTxbuf channel aa data.length data).length = data.length + 4 := by
    rw [leTxbuf_eq]
    simp [octetsOf, Nat.add_comm]
  unfold leTransmit
  rw [hdata, fifoOctets_append, fifoOctets_append,
    fifoOctets_fifoLoop (hbuf.trans hframe.symm) (by omega), List.drop_zero, leTxbuf_eq]
  simp [fifoOctets]

/-- **The frame.** For every access address, channel and data of up to 60 octets, the octets of the
frame are right, and the preamble is exactly where the first bit of the access address is 0. -/
theorem leTransmit_wellFormed_iff (channel gioSave : U16) (aa : U32) (hlen : data.length ≤ 60) :
    WellFormedFrame channel aa data
      (leTransmit channel gioSave aa (BitVec.ofNat 8 data.length) data) ↔
    aa.getLsbD 0 = false := by
  have hsynch := registerAfter_synch channel gioSave aa (BitVec.ofNat 8 data.length) data
  constructor
  · intro h
    have hpreamble := hsynch.symm.trans h.preamble
    cases hbit : aa.getLsbD 0 with
    | false => rfl
    | true =>
      rw [hbit] at hpreamble
      exact absurd hpreamble (by decide)
  · intro hbit
    refine ⟨fifoOctets_leTransmit hlen, ?_⟩
    rw [hsynch, hbit]
    rfl

/-- An advertisement. -/
theorem leTransmit_wellFormed_advertisement : WellFormedFrame 2402 0x8e89bed6 [0x00, 0x00]
    (leTransmit 2402 0 0x8e89bed6 2 [0x00, 0x00]) :=
  (@leTransmit_wellFormed_iff [0x00, 0x00] 2402 0 0x8e89bed6 (by simp)).2 (by decide)

/-- An access address whose first bit is 1 goes out with the preamble of one whose first bit
is 0. -/
theorem not_wellFormed_odd : ¬∀ (channel gioSave : U16) (aa : U32) (data : List U8),
    data.length ≤ 60 → WellFormedFrame channel aa data
      (leTransmit channel gioSave aa (BitVec.ofNat 8 data.length) data) := by
  intro hall
  have h := (hall 2402 0 0x8e89bed7 [0x00, 0x00] (by simp)).preamble
  exact absurd h (by decide +kernel)

end Ubertooth.LowEnergy
