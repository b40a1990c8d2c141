import Ubertooth.Foundations.Ring
import Ubertooth.Host.Sniffing

/-!
# The symbols handed to libbtbb

A ring buffer to which packets have been added holds the symbols of the last `NUM_BANKS` of them.
`cb_rx` copies them out, oldest first, and looks for an access code in the oldest bank; the symbols
from there on are consecutive. `cb_br_rx` looks for it in the newest bank, and hands over as many
symbols as if it were the oldest: there are not as many. `symbols_in_order_iff` says so for every
history of the ring buffer.
-/

namespace Ubertooth.Host

open Foundations

/-! ## What the ring buffer holds -/

instance neZeroNumBanks : NeZero numBanks := ⟨by decide⟩

/-- The ring buffer after a history of packets. -/
def banksAfter (usb : Vector UsbPktRx numBanks) (bt : Vector (Vector U8 bankLen) numBanks)
    (rxs : List UsbPktRx) : Ringbuffer := rxs.foldl Ringbuffer.add (ringbufferInit usb bt)

/-- The symbols of a packet. -/
def symbolsOf (rx : UsbPktRx) : Vector U8 bankLen := unpackSymbols rx.data

/-- Symbol `k` of all that have been received; after the last one the model reads 0. -/
def receivedSymbol (rxs : List UsbPktRx) (k : ℕ) : U8 :=
  (rxs[k / bankLen]?.bind fun rx => (symbolsOf rx)[k % bankLen]?).getD 0

variable (usb : Vector UsbPktRx numBanks) (bt : Vector (Vector U8 bankLen) numBanks)
  {rxs : List UsbPktRx} {rb : Ringbuffer}

theorem currentBank_add (rb : Ringbuffer) (rx : UsbPktRx) :
    (rb.add rx).currentBank.toNat = (rb.currentBank.toNat + 1) % 10 := by
  show (BitVec.ofNat 8 ((rb.currentBank.toNat + 1) % 10)).toNat = _
  rw [BitVec.toNat_ofNat]
  omega

theorem currentBank_banksAfter :
    (banksAfter usb bt rxs).currentBank.toNat = rxs.length % 10 := by
  induction rxs using List.reverseRecOn with
  | nil => rfl
  | append_singleton rxs rx ih =>
    have happend : banksAfter usb bt (rxs ++ [rx]) = (banksAfter usb bt rxs).add rx :=
      List.foldl_append
    rw [happend, currentBank_add, ih, List.length_append, List.length_singleton]
    omega

/-- The bank a packet is added to: the one after the current bank. -/
theorem bank_top_add (rb : Ringbuffer) (rx : UsbPktRx) :
    (rb.add rx).bank 9 = Ring.slot (1 + rb.currentBank.toNat) := by
  apply Fin.ext
  show ((rb.add rx).currentBank.toNat + 1 + 9) % 10 = (1 + rb.currentBank.toNat) % 10
  rw [currentBank_add]
  omega

theorem get_set_eq_update {α : Type*} {n : ℕ} (v : Vector α n) (i : Fin n) (a : α) :
    (v.set i.val a i.isLt).get = Function.update v.get i a := by
  funext j
  by_cases hj : j = i
  · rw [hj, Function.update_self]
    exact Vector.getElem_set_self _
  · rw [Function.update_of_ne hj]
    exact Vector.getElem_set_ne i.isLt j.isLt fun h => hj (Fin.ext h.symm)

theorem usb_add (rb : Ringbuffer) (rx : UsbPktRx) : (rb.add rx).usb.get =
    Function.update rb.usb.get (Ring.slot (1 + rb.currentBank.toNat)) rx := by
  rw [← bank_top_add rb rx]
  exact get_set_eq_update _ _ _

theorem bt_add (rb : Ringbuffer) (rx : UsbPktRx) : (rb.add rx).bt.get =
    Function.update rb.bt.get (Ring.slot (1 + rb.currentBank.toNat)) (symbolsOf rx) := by
  have hset : (rb.add rx).bt.get = Function.update rb.bt.get ((rb.add rx).bank 9)
      (unpackSymbols (rb.add rx).topUsb.data) := get_set_eq_update _ _ _
  rw [hset, Ringbuffer.topUsb_add, bank_top_add]
  rfl

section Banks

variable {α : Type*} (get : Ringbuffer → Fin numBanks → α) (content : UsbPktRx → α)

/-- Banks to which every packet adds its content hold those of the packets added last. -/
theorem holdsLast_banksAfter (hadd : ∀ rb rx, get (Ringbuffer.add rb rx) =
      Function.update (get rb) (Ring.slot (1 + rb.currentBank.toNat)) (content rx)) :
    Ring.HoldsLast (get (banksAfter usb bt rxs)) 1 (rxs.map content) := by
  induction rxs using List.reverseRecOn with
  | nil => exact Ring.holdsLast_nil _ _
  | append_singleton rxs rx ih =>
    have happend : banksAfter usb bt (rxs ++ [rx]) = (banksAfter usb bt rxs).add rx :=
      List.foldl_append
    have hslot : (Ring.slot (1 + (banksAfter usb bt rxs).currentBank.toNat) : Fin numBanks) =
        Ring.slot (1 + (rxs.map content).length) := by
      apply Fin.ext
      show (1 + _) % 10 = (1 + _) % 10
      rw [currentBank_banksAfter, List.length_map]
      exact Nat.add_mod_mod 1 rxs.length 10
    rw [happend, hadd, hslot, List.map_append]
    exact ih.concat _

/-- The content of a bank, counted from the oldest one. -/
theorem get_bank_banksAfter (hadd : ∀ rb rx, get (Ringbuffer.add rb rx) =
      Function.update (get rb) (Ring.slot (1 + rb.currentBank.toNat)) (content rx))
    (rxs : List UsbPktRx) {i m : ℕ} (hi : i < 10) (hm : m + 10 = rxs.length + i) :
    ∃ h : m < rxs.length, get (banksAfter usb bt rxs)
      ((banksAfter usb bt rxs).bank (BitVec.ofNat 8 i)) = content rxs[m] := by
  have hlt : m < rxs.length := by omega
  have hbank : (banksAfter usb bt rxs).bank (BitVec.ofNat 8 i) = Ring.slot (1 + m) := by
    apply Fin.ext
    show ((banksAfter usb bt rxs).currentBank.toNat + 1 + (BitVec.ofNat 8 i).toNat) % 10 =
      (1 + m) % 10
    rw [currentBank_banksAfter, BitVec.toNat_ofNat]
    omega
  have hholds := holdsLast_banksAfter usb bt get content hadd m
    (by rw [List.length_map]; exact hlt) (by rw [List.length_map]; exact hm ▸ Nat.le_add_right _ _)
  refine ⟨hlt, ?_⟩
  rw [hbank, hholds, List.getElem_map]

end Banks

theorem getUsb_banksAfter (rxs : List UsbPktRx) {i m : ℕ} (hi : i < 10)
    (hm : m + 10 = rxs.length + i) :
    ∃ h : m < rxs.length, (banksAfter usb bt rxs).getUsb (BitVec.ofNat 8 i) = rxs[m] :=
  get_bank_banksAfter usb bt (fun rb => rb.usb.get) id usb_add rxs hi hm

theorem getBt_banksAfter (rxs : List UsbPktRx) {i m : ℕ} (hi : i < 10)
    (hm : m + 10 = rxs.length + i) :
    ∃ h : m < rxs.length,
      (banksAfter usb bt rxs).getBt (BitVec.ofNat 8 i) = symbolsOf rxs[m] :=
  get_bank_banksAfter usb bt (fun rb => rb.bt.get) symbolsOf bt_add rxs hi hm

/-- `syms` holds the symbols of all banks as they were received. -/
theorem symsCell_banksAfter (hbanks : 10 ≤ rxs.length) {k : ℕ} (hk : k < symbolCount) :
    (banksAfter usb bt rxs).symsCell k = receivedSymbol rxs (bankLen * (rxs.length - 10) + k) := by
  have hbank : k / bankLen < 10 := Nat.div_lt_of_lt_mul hk
  obtain ⟨hlt, hget⟩ := getBt_banksAfter usb bt rxs hbank
    (m := rxs.length - 10 + k / bankLen) (by omega)
  have hdiv : (bankLen * (rxs.length - 10) + k) / bankLen = rxs.length - 10 + k / bankLen :=
    Nat.mul_add_div (by simp) _ _
  have hmod : (bankLen * (rxs.length - 10) + k) % bankLen = k % bankLen :=
    Nat.mul_add_mod_self_left _ _ _
  rw [Ringbuffer.symsCell, if_pos hk, hget, receivedSymbol, hdiv, hmod,
    List.getElem?_eq_getElem hlt, Option.bind_some]

/-! ## What the callbacks hand over -/

/-- The callbacks that hand symbols to libbtbb. -/
inductive SymbolCallback
  | cbBrRx | cbRx
  deriving DecidableEq, Repr

namespace SymbolCallback

variable {π κ : Type*} (lib : Btbb π κ) (live : Bool) (nowNs : U64) (rb : Ringbuffer)
  (x : Sniffer κ)

def actions : SymbolCallback → List SniffAction
  | .cbBrRx => (Host.cbBrRx lib nowNs rb x).1
  | .cbRx => (Host.cbRx lib live nowNs rb x).1

/-- The symbols in which an access code is looked for. -/
def searched : SymbolCallback → ℕ → U8
  | .cbBrRx => fun k => rb.btCell (rb.topBtOffset + k)
  | .cbRx => rb.symsCell

/-- `search_length` -/
def searchLength : SymbolCallback → ℕ
  | .cbBrRx => bankLen - 64
  | .cbRx => bankLen

/-- The position of the first of them among all symbols received. -/
def searchedFrom (rxs : List UsbPktRx) : SymbolCallback → ℕ
  | .cbBrRx => bankLen * (rxs.length - 1)
  | .cbRx => bankLen * (rxs.length - 10)

/-- The position of the access code. -/
def codePosition (rxs : List UsbPktRx) (c : SymbolCallback) : ℕ :=
  c.searchedFrom rxs +
    (lib.findAc (c.searched rb) c.searchLength (x.pn.bind lib.lap)).1.toNat

end SymbolCallback

/-- Symbols that lie inside their memory, and are those received from position `pos` on. -/
structure InOrder (rxs : List UsbPktRx) (rb : Ringbuffer) (pos : ℕ) (r : SymbolRange) : Prop where
  inside : r.start + r.length ≤ symbolCount
  consecutive : ∀ j : ℕ, j < r.length → pos + j < bankLen * rxs.length ∧
    r.memory.cell rb (r.start + j) = receivedSymbol rxs (pos + j)

theorem inOrder_syms (hbanks : 10 ≤ rxs.length) {offset : ℕ} :
    InOrder rxs (banksAfter usb bt rxs) (bankLen * (rxs.length - 10) + offset)
      { memory := .syms, start := offset, length := symbolCount - offset } := by
  refine ⟨by dsimp only; omega, fun j hj => ⟨?_, ?_⟩⟩
  · change (j : ℤ) < (4000 : ℕ) - offset at hj
    show 400 * (rxs.length - 10) + offset + j < 400 * rxs.length
    omega
  · change (j : ℤ) < (4000 : ℕ) - offset at hj
    have hk : offset + j < symbolCount := by
      show _ < 4000
      omega
    rw [Nat.add_assoc]
    exact symsCell_banksAfter usb bt hbanks hk

/-- From the newest bank there are not as many symbols to come. -/
theorem not_inOrder_bt (hbanks : 10 ≤ rxs.length) {offset : ℕ} (hoffset : offset < bankLen)
    (start : ℕ) : ¬InOrder rxs rb (bankLen * (rxs.length - 1) + offset)
      { memory := .bt, start := start, length := symbolCount - offset } := by
  intro h
  change offset < 400 at hoffset
  have hj : ((400 - offset : ℕ) : ℤ) < (4000 : ℕ) - offset := by omega
  have hlt := (h.consecutive (400 - offset) hj).1
  change 400 * (rxs.length - 1) + offset + (400 - offset) < 400 * rxs.length at hlt
  omega

/-- **The symbols handed to libbtbb.** After any history of at least `NUM_BANKS` packets, what a
callback hands over from an access code on lies in memory and in order if it is `cb_rx`, and does
not if it is `cb_br_rx`. -/
theorem symbols_in_order_iff {π κ : Type*} (lib : Btbb π κ)
    (hfind : ∀ stream len lap, (lib.findAc stream len lap).1 < (len : ℕ))
    (usb : Vector UsbPktRx numBanks) (bt : Vector (Vector U8 bankLen) numBanks)
    (rxs : List UsbPktRx) (hbanks : numBanks ≤ rxs.length) (c : SymbolCallback) (live : Bool)
    (nowNs : U64) (x : Sniffer κ) (symbols : SymbolRange) (channel : U8) (clkn : U32)
    (h : .setData symbols channel clkn ∈ c.actions lib live nowNs (banksAfter usb bt rxs) x) :
    InOrder rxs (banksAfter usb bt rxs) (c.codePosition lib (banksAfter usb bt rxs) x rxs) symbols ↔
      c = .cbRx := by
  cases c with
  | cbBrRx =>
    obtain ⟨offset, hoffset, rfl⟩ := setData_mem_cbBrRx h
    have hlt : (offset : ℤ) < (bankLen - 64 : ℕ) := hoffset ▸ hfind _ _ _
    have hpos : SymbolCallback.cbBrRx.codePosition lib (banksAfter usb bt rxs) x rxs =
        bankLen * (rxs.length - 1) + offset :=
      congrArg (fun n : ℤ => bankLen * (rxs.length - 1) + n.toNat) hoffset
    rw [hpos]
    exact iff_of_false (not_inOrder_bt hbanks (by omega) _) (by decide)
  | cbRx =>
    obtain ⟨offset, hoffset, rfl, -⟩ := setData_mem_cbRx h
    have hlt : (offset : ℤ) < (bankLen : ℕ) := hoffset ▸ hfind _ _ _
    have hpos : SymbolCallback.cbRx.codePosition lib (banksAfter usb bt rxs) x rxs =
        bankLen * (rxs.length - 10) + offset :=
      congrArg (fun n : ℤ => bankLen * (rxs.length - 10) + n.toNat) hoffset
    rw [hpos]
    exact iff_of_true (inOrder_syms usb bt hbanks) rfl

/-- Packet `k` of an inquiry: the access code, and its number. -/
def inquiry (k : ℕ) : UsbPktRx :=
  { inquiryPacket with
    clk100ns := BitVec.ofNat 32 (4000 + 6250 * k)
    data := Vector.ofFn fun i =>
      if i.val = 8 then BitVec.ofNat 8 k else inquiryPacket.data.get i }

/-- The packets of an inquiry, as many as have come. -/
def inquiries (n : ℕ) : List UsbPktRx := (List.range n).map inquiry

/-- Ten packets of an inquiry, the oldest one found by `cb_rx`. -/
theorem symbols_in_order_iff_inquiry :
    InOrder (inquiries 10)
        (banksAfter (Vector.replicate numBanks {})
          (Vector.replicate numBanks (Vector.replicate bankLen 0)) (inquiries 10)) 0
        { memory := .syms, start := 0, length := 4000 } ↔ SymbolCallback.cbRx = .cbRx :=
  symbols_in_order_iff foundAtOnce (fun _ len _ => by
    show (if len = 0 then (-1 : ℤ) else 0) < len
    split <;> omega) (Vector.replicate numBanks {})
    (Vector.replicate numBanks (Vector.replicate bankLen 0)) (inquiries 10)
    (by decide) .cbRx true 0 {} { memory := .syms, start := 0, length := 4000 } 39 0
    (by decide +kernel)

/-- Eleven packets of an inquiry, the newest one found by `cb_br_rx`. -/
theorem not_inOrder_inquiry :
    .setData { memory := .bt, start := 400, length := 4000 } 39 21 ∈
        (cbBrRx foundAtOnce 0 (banksAfter (Vector.replicate numBanks {})
          (Vector.replicate numBanks (Vector.replicate bankLen 0)) (inquiries 11)) {}).1 ∧
      ¬InOrder (inquiries 11) (banksAfter (Vector.replicate numBanks {})
          (Vector.replicate numBanks (Vector.replicate bankLen 0)) (inquiries 11)) (bankLen * 10)
        { memory := .bt, start := 400, length := 4000 } :=
  ⟨by decide +kernel, fun h => absurd h.inside (by decide)⟩

end Ubertooth.Host
