import Ubertooth.Firmware.Frames
import Ubertooth.Host.Sniffing
import Ubertooth.Usb.SlotFields

/-!
# The clock at an access code

The firmware notes `CLK100NS` at the end of a DMA block, and the high octet of `clkn`; `cb_rx` puts
`clkn` together again at the symbol where it finds an access code. It goes back from the end of the
block without a borrow from the high octet, so it is right exactly if the low part of the clock has
not wrapped since that symbol (`clkn_right_iff`).
-/

namespace Ubertooth.Timing

open Firmware Host Usb

variable {s : Fw} {rx : UsbPktRx}

/-- `rx` was filled by `enqueue(BR_PACKET, ..)`, with the clocks that the interrupt at the end of
its block, in state `s`, had saved. -/
def Captured (s : Fw) (rx : UsbPktRx) : Prop :=
  ∃ (d : Dma) (s' : Fw) (f : UsbPktRx) (buf : Vector U8 dmaSize), d.intTcStat = true ∧
    s'.idleBufClknHigh = (btStreamDmaHandler s d).1.idleBufClknHigh ∧
    s'.idleBufClk100ns = (btStreamDmaHandler s d).1.idleBufClk100ns ∧
    rx = fillSlot s' f (enqueueWrites .brPacket buf)

theorem Captured.clocks (h : Captured s rx) :
    rx.clknHigh = ((s.clkn >>> 20) &&& 0xff).setWidth 8 ∧ rx.clk100ns = s.clk100ns := by
  obtain ⟨d, s', f, buf, htc, hhigh, hclk, rfl⟩ := h
  obtain ⟨hhigh', hclk'⟩ := clocks_brPacket (s := s') (f := f) buf
  obtain ⟨e, n, hhandler⟩ := btStreamDmaHandler_of_tc s htc
  rw [hhandler] at hhigh hclk
  exact ⟨hhigh'.trans hhigh, hclk'.trans hclk⟩

/-- The time of a symbol of the block that ended in state `s`, in units of 100 ns. -/
def symbolTime (s : Fw) (offset : ℕ) : ℤ :=
  3125 * s.clkn.toNat + s.t0tc.toNat - 4000 + 10 * offset

/-- `clkn` at that time. -/
def ClknRight (s : Fw) (offset : ℕ) (clkn : U32) : Prop :=
  (clkn.toNat : ℤ) % 2 ^ 28 = symbolTime s offset / 3125 % 2 ^ 28

/-! ## The two parts of the clock -/

theorem toNat_clknHigh (clkn : U32) :
    (((clkn >>> 20) &&& 0xff).setWidth 8 : U8).toNat = clkn.toNat / 2 ^ 20 % 256 := by
  have hand : ((clkn >>> 20) &&& 0xff).toNat = clkn.toNat / 2 ^ 20 % 256 := by
    rw [BitVec.toNat_and, BitVec.toNat_ushiftRight, Nat.shiftRight_eq_div_pow]
    exact Nat.and_two_pow_sub_one_eq_mod _ 8
  rw [BitVec.toNat_setWidth, hand]
  omega

/-- `CLK100NS`, if TIMER0 counts no further than its match register can tell it to. -/
theorem toNat_clk100ns (hphase : s.t0tc.toNat ≤ 3124 + 0xffff) :
    s.clk100ns.toNat = 3125 * (s.clkn.toNat % 2 ^ 20) + s.t0tc.toNat := by
  have hand : (s.clkn &&& 0xfffff).toNat = s.clkn.toNat % 2 ^ 20 := by
    rw [BitVec.toNat_and]
    exact Nat.and_two_pow_sub_one_eq_mod _ 20
  have hconst : (3125 : U32).toNat = 3125 := rfl
  rw [Fw.clk100ns, BitVec.toNat_add, BitVec.toNat_mul, hand, hconst]
  omega

theorem toNat_symbolTicks {offset : ℕ} (h : offset < 400) :
    (symbolTicks offset).toNat = offset * 10 := by
  have hcast : (offset : ℤ) * 10 = ((offset * 10 : ℕ) : ℤ) := by push_cast; rfl
  rw [symbolTicks, hcast, BitVec.ofInt_natCast, BitVec.toNat_ofNat]
  omega

/-- What `cb_rx` computes from the two parts. -/
theorem toNat_clknOfRx (hphase : s.t0tc.toNat ≤ 3124 + 0xffff) (hcap : Captured s rx) {offset : ℕ}
    (hoffset : offset < 400) : (clknOfRx rx offset).toNat =
      (s.clkn.toNat / 2 ^ 20 % 256 * 2 ^ 20 + (2 ^ 32 - 4000 +
        (3125 * (s.clkn.toNat % 2 ^ 20) + s.t0tc.toNat + offset * 10)) % 2 ^ 32 / 3125) %
          2 ^ 32 := by
  obtain ⟨hhigh, hclk⟩ := hcap.clocks
  have h4000 : (4000 : U32).toNat = 4000 := rfl
  have h3125 : (3125 : U32).toNat = 3125 := rfl
  rw [clknOfRx, BitVec.toNat_add, BitVec.toNat_shiftLeft, BitVec.toNat_setWidth, BitVec.toNat_udiv,
    BitVec.toNat_sub, BitVec.toNat_add, hhigh, hclk, toNat_clknHigh, toNat_clk100ns hphase,
    toNat_symbolTicks hoffset, h4000, h3125, Nat.shiftLeft_eq]
  omega

/-- With a borrow the low part is taken from 2^32, without one it is right. -/
theorem clkn_eq_iff {hi y : ℕ} (hy : y < 2 ^ 32) :
    (((hi % 256 * 2 ^ 20 + (2 ^ 32 - 4000 + y) % 2 ^ 32 / 3125) % 2 ^ 32 : ℕ) : ℤ) % 2 ^ 28 =
      (2 ^ 20 * hi + (y - 4000) / 3125) % 2 ^ 28 ↔ 4000 ≤ y := by
  rcases Nat.lt_or_ge y 4000 with hlt | hge
  · have hborrow : (2 ^ 32 - 4000 + y) % 2 ^ 32 = 2 ^ 32 - 4000 + y := Nat.mod_eq_of_lt (by omega)
    rw [hborrow]
    omega
  · have hsub : (2 ^ 32 - 4000 + y) % 2 ^ 32 = y - 4000 := by omega
    rw [hsub]
    omega

variable {π κ : Type*}

/-- **The clock at an access code.** Where `cb_rx` finds an access code in a block, the `clkn` it
hands to libbtbb is right exactly if the low 20 bits of the clock have not wrapped between the
symbol and the end of the block. -/
theorem clkn_right_iff (hphase : s.t0tc.toNat ≤ 3124 + 0xffff) (lib : Btbb π κ) (live : Bool)
    (nowNs : U64) (rb : Ringbuffer) (hcap : Captured s rb.bottomUsb) (x : Sniffer κ)
    (symbols : SymbolRange) (channel : U8) (clkn : U32)
    (hfound : .setData symbols channel clkn ∈ (cbRx lib live nowNs rb x).1)
    (hoffset : symbols.start < 400) : ClknRight s symbols.start clkn ↔
      4000 ≤ 3125 * (s.clkn.toNat % 2 ^ 20) + s.t0tc.toNat + 10 * symbols.start := by
  obtain ⟨offset, -, rfl, rfl⟩ := setData_mem_cbRx hfound
  have htime : symbolTime s offset = 3125 * (2 ^ 20 * ((s.clkn.toNat / 2 ^ 20 : ℕ) : ℤ)) +
      (((3125 * (s.clkn.toNat % 2 ^ 20) + s.t0tc.toNat + offset * 10 : ℕ) : ℤ) - 4000) := by
    unfold symbolTime
    omega
  rw [ClknRight, toNat_clknOfRx hphase hcap hoffset, htime,
    Int.add_comm (3125 * _), Int.add_mul_ediv_left _ _ (by decide), Int.add_comm (_ / 3125)]
  exact (clkn_eq_iff (by omega)).trans (by rw [Nat.mul_comm offset])

/-! ## Two blocks -/

/-- An inquiry, captured when a block ended in state `s`. -/
def inquiryBlock (s : Fw) : UsbPktRx :=
  fillSlot (btStreamDmaHandler s { intTcStat := true }).1 {}
    (enqueueWrites .brPacket inquiryPacket.data)

theorem captured_inquiryBlock (s : Fw) : Captured s (inquiryBlock s) :=
  ⟨{ intTcStat := true }, _, {}, _, rfl, rfl, rfl, rfl⟩

/-- The inquiry in all banks. -/
def inquiryBanks (s : Fw) : Ringbuffer :=
  ringbufferInit (Vector.replicate numBanks (inquiryBlock s))
    (Vector.replicate numBanks (unpackSymbols inquiryPacket.data))

/-- The block ends two ticks of `clkn` after the low part has wrapped. -/
theorem clkn_right_iff_after :
    ClknRight { clkn := 0x100002 } 0 0x100000 ↔ 4000 ≤ 3125 * (0x100002 % 2 ^ 20) + 0 + 10 * 0 :=
  clkn_right_iff (by decide) foundAtOnce true 0
    (inquiryBanks { clkn := 0x100002 }) (captured_inquiryBlock _) {}
    { memory := .syms, start := 0, length := 4000 } 39 0x100000
    (by decide +kernel) (by decide)

/-- The block ends when the low part wraps. -/
theorem not_clknRight_atWrap :
    Captured { clkn := 0x100000 } (inquiryBanks { clkn := 0x100000 }).bottomUsb ∧
      .setData { memory := .syms, start := 0, length := 4000 } 39 2422964 ∈
        (cbRx foundAtOnce true 0 (inquiryBanks { clkn := 0x100000 }) {}).1 ∧
      ¬ClknRight { clkn := 0x100000 } 0 2422964 :=
  ⟨captured_inquiryBlock _, by decide +kernel, by unfold ClknRight; decide⟩

end Ubertooth.Timing
