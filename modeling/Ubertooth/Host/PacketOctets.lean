import Ubertooth.Host.Stream
import Ubertooth.Foundations.Octets

/-!
# `usb_pkt_rx` and its octets

A packet is sent, polled and written to files as its 64 octets, and read back from them.
-/

namespace Ubertooth

open Foundations

/-- The octets of a packet before its data; `clk100ns` is little-endian. -/
def UsbPktRx.header (rx : UsbPktRx) : List U8 :=
  [rx.pktType, rx.status, rx.channel, rx.clknHigh, octet rx.clk100ns 0, octet rx.clk100ns 1,
    octet rx.clk100ns 2, octet rx.clk100ns 3, rx.rssiMax, rx.rssiMin, rx.rssiAvg, rx.rssiCount,
    rx.reserved[0], rx.reserved[1]]

/-- The octets of a packet in memory. -/
def UsbPktRx.octets (rx : UsbPktRx) : List U8 := rx.header ++ rx.data.toList

@[simp] theorem UsbPktRx.length_octets (rx : UsbPktRx) : rx.octets.length = Host.pktLen := by
  rw [octets, List.length_append, Vector.length_toList]
  rfl

/-- A word of four octets, the lowest last. -/
theorem append_octets (word : U32) :
    octet word 3 ++ octet word 2 ++ octet word 1 ++ octet word 0 = word := by
  refine BitVec.eq_of_getLsbD_eq fun k hk => ?_
  simp only [BitVec.getLsbD_append, getLsbD_octet]
  split_ifs <;> simp <;> grind

/-- The octets after the header. -/
theorem UsbPktRx.getD_octets_data (rx : UsbPktRx) {i : ℕ} (hi : i < dmaSize) :
    rx.octets.getD (14 + i) 0 = rx.data[i] := by
  have hheader : rx.header.length = 14 := rfl
  rw [octets, List.getD_append_right _ _ _ _ (by omega), hheader, Nat.add_sub_cancel_left,
    List.getD_eq_getElem _ _ (by simpa using hi)]
  exact Vector.getElem_toList _

/-- **A packet is what is read from its octets.** -/
theorem ofOctets_octets {rx : UsbPktRx} {octets : Fin Host.pktLen → U8}
    (h : ∀ i, octets i = rx.octets.getD i 0) : Host.ofOctets octets = rx := by
  have hclk : octets 7 ++ octets 6 ++ octets 5 ++ octets 4 = rx.clk100ns := by
    rw [h, h, h, h]
    exact append_octets rx.clk100ns
  have hreserved : #v[octets 12, octets 13] = rx.reserved := by
    refine Vector.ext fun i hi => ?_
    have hcases : i = 0 ∨ i = 1 := by omega
    rcases hcases with rfl | rfl
    · exact h 12
    · exact h 13
  have hdata : (Vector.ofFn fun i : Fin dmaSize =>
      octets ⟨14 + i.val, Nat.add_lt_add_left i.isLt 14⟩) = rx.data := by
    refine Vector.ext fun i hi => ?_
    rw [Vector.getElem_ofFn, h]
    exact rx.getD_octets_data hi
  rw [Host.ofOctets, hclk, hreserved, hdata, h 0, h 1, h 2, h 3, h 8, h 9, h 10, h 11]
  rfl

namespace Host

/-- The packet that octets in memory are read as. -/
def packetOf (octets : List U8) : UsbPktRx := ofOctets fun i => octets.getD i 0

@[simp] theorem packetOf_octets (rx : UsbPktRx) : packetOf rx.octets = rx :=
  ofOctets_octets fun _ => rfl

end Host

end Ubertooth
