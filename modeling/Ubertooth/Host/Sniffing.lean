import Ubertooth.Host.Callback
import Ubertooth.Host.Ringbuffer

/-!
# `ubertooth_callback.c`: sniffing Basic Rate packets

`cb_br_rx` and `cb_rx` look for an access code in the symbols received, and hand the symbols from
there on to libbtbb, which is a parameter (`Btbb`). They date packets by `now_ns_from_clk100ns`.
What a callback does to libbtbb and to the device is the list of its actions; the signal levels,
which are only printed and captured, are left out.
-/

namespace Ubertooth.Host

/-! ## The time of a packet -/

/-- The fields of `ubertooth_t` that date packets. -/
structure ClockTracking where
  absStartNs : U64 := 0
  startClk100ns : U32 := 0
  lastClk100ns : U64 := 0
  clk100nsUpper : U64 := 0
  deriving DecidableEq, Repr

/-- `track_clk100ns`; `nowNs` is what `now_ns` returns. -/
def trackClk100ns (nowNs : U64) (clk100ns : U32) (c : ClockTracking) : ClockTracking :=
  -- track clk100ns
  let c :=
    if c.startClk100ns = 0 then
      { c with
        lastClk100ns := clk100ns.setWidth 64
        startClk100ns := clk100ns
        absStartNs := nowNs }
    else c
  -- detect clk100ns roll-over
  let c :=
    if clk100ns.setWidth 64 < c.lastClk100ns then { c with clk100nsUpper := c.clk100nsUpper + 1 }
    else c
  { c with lastClk100ns := clk100ns.setWidth 64 }

def nowNsFromClk100ns (nowNs : U64) (clk100ns : U32) (c : ClockTracking) : U64 × ClockTracking :=
  let c := trackClk100ns nowNs clk100ns c
  (c.absStartNs + 100 * ((clk100ns - c.startClk100ns) &&& 0xffffffff).setWidth 64 +
    (100 * c.clk100nsUpper) <<< 32, c)

/-! ## Symbols -/

/-- Where symbols lie: `rb->bt`, or the array `syms` of `cb_rx`. -/
inductive SymbolMemory
  | bt | syms
  deriving DecidableEq, Repr

/-- The symbols of all banks; both arrays are of this size. -/
abbrev symbolCount : ℕ := numBanks * bankLen

/-- A pointer to symbols, and how many there are meant to be. -/
structure SymbolRange where
  memory : SymbolMemory
  start : ℕ
  length : ℤ
  deriving DecidableEq, Repr

namespace Ringbuffer

variable (rb : Ringbuffer)

/-- `ringbuffer_bottom_usb` -/
def bottomUsb : UsbPktRx := rb.getUsb 0

/-- `rb->bt` as it lies in memory; after its end the model reads 0. -/
def btCell (k : ℕ) : U8 :=
  (rb.bt[k / bankLen]?.bind fun bank => bank[k % bankLen]?).getD 0

/-- `syms`: all banks of symbols, copied out for full analysis. -/
def symsCell (k : ℕ) : U8 :=
  if k < symbolCount then ((rb.getBt (BitVec.ofNat 8 (k / bankLen)))[k % bankLen]?).getD 0 else 0

/-- `ringbuffer_top_bt`, as an offset from `rb->bt`. -/
def topBtOffset : ℕ := bankLen * (rb.bank 9).val

end Ringbuffer

/-- What the memory holds. -/
def SymbolMemory.cell (rb : Ringbuffer) : SymbolMemory → ℕ → U8
  | .bt => rb.btCell
  | .syms => rb.symsCell

/-! ## The callbacks -/

/-- `CLK_TUNE_TIME` -/
abbrev clkTuneTime : U16 := 2250

/-- What the callbacks use of libbtbb, with its packets `π` and its piconets `κ`. Symbols are given
to it as they lie in memory from a pointer on, and no piconet is `NULL`. -/
structure Btbb (π κ : Type*) where
  /-- `btbb_find_ac(stream, search_length, lap, ..)`: the offset, and the packet it creates; no
  `lap` is `LAP_ANY` -/
  findAc : (ℕ → U8) → ℕ → Option U32 → ℤ × π
  /-- `btbb_piconet_get_lap`, if `BTBB_LAP_VALID` -/
  lap : κ → Option U32
  /-- `btbb_packet_set_data(pkt, data, length, channel, clkn)` -/
  packetSetData : π → (ℕ → U8) → ℤ → U8 → U32 → π
  processPacket : π → Option κ → ℤ × Option κ
  clkOffset : Option κ → ℤ

/-- What a callback does. -/
inductive SniffAction
  /-- `btbb_packet_set_data` -/
  | setData (symbols : SymbolRange) (channel : U8) (clkn : U32)
  /-- what `cb_rx` prints of the clocks -/
  | line (clkn : U32) (clkOffset : U16)
  /-- `cmd_trim_clock` -/
  | trimClock (offset : U16)
  /-- `cmd_start_hopping` -/
  | startHopping (clknOffset clk100nsOffset : ℤ)
  deriving DecidableEq, Repr

/-- What the callbacks read and write of `ubertooth_t`, `calibrated` and their argument. -/
structure Sniffer (κ : Type*) where
  clock : ClockTracking := {}
  calibrated : Bool := false
  stopUbertooth : Bool := false
  pn : Option κ := none

section Callbacks

variable {π κ : Type*} (lib : Btbb π κ)

/-- `offset*10`, as it is added to a reading of the clock -/
def symbolTicks (offset : ℤ) : U32 := BitVec.ofInt 32 (offset * 10)

/-- `clkn` of `cb_br_rx` -/
def clknOfBrRx (rx : UsbPktRx) (offset : ℤ) : U32 :=
  (rx.clknHigh.setWidth 32 <<< 20) + (rx.clk100ns + symbolTicks offset) / 3125

/-- `clkn` of `cb_rx` -/
def clknOfRx (rx : UsbPktRx) (offset : ℤ) : U32 :=
  (rx.clknHigh.setWidth 32 <<< 20) + (rx.clk100ns + symbolTicks offset - 4000) / 3125

/-- The offset between the first bit of the AC and the rising edge of CLKN. -/
def clkOffsetOf (rx : UsbPktRx) (offset : ℤ) : U16 :=
  ((rx.clk100ns + symbolTicks offset + 6250 - 4000) % 6250).setWidth 16

/-- Sniff for LAPs. -/
def cbBrRx (nowNs : U64) (rb : Ringbuffer) (x : Sniffer κ) : List SniffAction × Sniffer κ :=
  let rx := rb.topUsb
  -- Sanity check
  if numBredrChannels - 1 < rx.channel.toNat then ([], x)
  else
    let x := { x with clock := (nowNsFromClk100ns nowNs rx.clk100ns x.clock).2 }
    -- Look for packets with specified LAP, if given.
    let r := lib.findAc (fun k => rb.btCell (rb.topBtOffset + k)) (bankLen - 64)
      (x.pn.bind lib.lap)
    if r.1 < 0 then ([], x)
    else
      let symbols : SymbolRange :=
        { memory := .bt, start := rb.topBtOffset + r.1.toNat, length := symbolCount - r.1 }
      let clkn := clknOfBrRx rx r.1
      let pkt := lib.packetSetData r.2 (fun k => rb.btCell (symbols.start + k)) symbols.length
        rx.channel clkn
      let p := lib.processPacket pkt x.pn
      ([.setData symbols rx.channel clkn],
        { x with pn := p.2, stopUbertooth := x.stopUbertooth || decide (p.1 < 0) })

/-- The trim that calibrates the clock such that the first bit of the AC arrives `CLK_TUNE_TIME`
after the rising edge of CLKN. -/
def trimFor (clkOffset : U16) : List SniffAction :=
  if clkOffset < clkTuneTime then [.trimClock (6250 + clkOffset - clkTuneTime)]
  else if clkTuneTime < clkOffset then [.trimClock (clkOffset - clkTuneTime)]
  else []

/-- `cb_rx`; `live` unless it reads from a file. -/
def cbRx (live : Bool) (nowNs : U64) (rb : Ringbuffer) (x : Sniffer κ) :
    List SniffAction × Sniffer κ :=
  -- Do analysis based on oldest packet
  let rx := rb.bottomUsb
  if rx.status &&& StatusFlag.discard.mask ≠ 0 then ([], x)
  -- Sanity check
  else if numBredrChannels - 1 < rx.channel.toNat then ([], x)
  else
    let x := { x with clock := (nowNsFromClk100ns nowNs rx.clk100ns x.clock).2 }
    let r := lib.findAc rb.symsCell bankLen (x.pn.bind lib.lap)
    if r.1 < 0 then ([], x)
    else
      let symbols : SymbolRange :=
        { memory := .syms, start := r.1.toNat, length := symbolCount - r.1 }
      let clkn := clknOfRx rx r.1
      let clkOffset := clkOffsetOf rx r.1
      let done : List SniffAction := [.setData symbols rx.channel clkn, .line clkn clkOffset]
      if live && !x.calibrated then
        (done ++ trimFor clkOffset, { x with calibrated := true })
      else
        let pkt := lib.packetSetData r.2 (fun k => rb.symsCell (symbols.start + k)) symbols.length
          rx.channel clkn
        let p := lib.processPacket pkt x.pn
        (done ++ if live && decide (p.1 < 0) then [.startHopping (lib.clkOffset p.2) 0] else [],
          { x with pn := p.2 })

/-! ## What the callbacks do -/

variable {lib} {live : Bool} {nowNs : U64} {rb : Ringbuffer} {x : Sniffer κ}

/-- `cb_rx` does nothing, or it has found an access code. -/
theorem cbRx_cases (lib : Btbb π κ) (live : Bool) (nowNs : U64) (rb : Ringbuffer) (x : Sniffer κ) :
    (cbRx lib live nowNs rb x).1 = [] ∨ ∃ offset : ℕ,
    (lib.findAc rb.symsCell bankLen (x.pn.bind lib.lap)).1 = offset ∧
      ∃ more, (cbRx lib live nowNs rb x).1 =
          .setData { memory := .syms, start := offset, length := symbolCount - offset }
              rb.bottomUsb.channel (clknOfRx rb.bottomUsb offset) ::
            .line (clknOfRx rb.bottomUsb offset) (clkOffsetOf rb.bottomUsb offset) :: more ∧
        (if live && !x.calibrated then more = trimFor (clkOffsetOf rb.bottomUsb offset)
          else ∀ a ∈ more, ∃ n, a = .startHopping n 0) := by
  unfold cbRx
  dsimp only
  by_cases hdiscard : rb.bottomUsb.status &&& StatusFlag.discard.mask ≠ 0
  · exact Or.inl (by rw [if_pos hdiscard])
  rw [if_neg hdiscard]
  by_cases hchannel : numBredrChannels - 1 < rb.bottomUsb.channel.toNat
  · exact Or.inl (by rw [if_pos hchannel])
  rw [if_neg hchannel]
  by_cases hfound : (lib.findAc rb.symsCell bankLen (x.pn.bind lib.lap)).1 < 0
  · exact Or.inl (by rw [if_pos hfound])
  obtain ⟨offset, hoffset⟩ := Int.eq_ofNat_of_zero_le (not_lt.1 hfound)
  rw [if_neg hfound, hoffset, Int.toNat_natCast]
  refine Or.inr ⟨offset, rfl, ?_⟩
  by_cases hfirst : (live && !x.calibrated) = true
  · simp only [hfirst, if_true, List.cons_append, List.nil_append]
    exact ⟨_, rfl, rfl⟩
  · simp only [hfirst, List.cons_append, List.nil_append]
    refine ⟨_, rfl, fun a ha => ?_⟩
    split at ha
    · exact ⟨_, List.mem_singleton.1 ha⟩
    · exact absurd ha List.not_mem_nil

/-- An action of `cb_rx` is one of the two it takes on an access code, or a command to the
device. -/
theorem mem_cbRx {a : SniffAction} (h : a ∈ (cbRx lib live nowNs rb x).1) :
    (∃ offset : ℕ, (lib.findAc rb.symsCell bankLen (x.pn.bind lib.lap)).1 = offset ∧
      (a = .setData { memory := .syms, start := offset, length := symbolCount - offset }
          rb.bottomUsb.channel (clknOfRx rb.bottomUsb offset) ∨
        a = .line (clknOfRx rb.bottomUsb offset) (clkOffsetOf rb.bottomUsb offset))) ∨
    (∃ n, a = .trimClock n) ∨ ∃ n, a = .startHopping n 0 := by
  obtain hnil | ⟨offset, hoffset, more, hcons, hmore⟩ := cbRx_cases lib live nowNs rb x
  · rw [hnil] at h
    exact absurd h List.not_mem_nil
  · rw [hcons, List.mem_cons, List.mem_cons] at h
    rcases h with h | h | h
    · exact .inl ⟨offset, hoffset, .inl h⟩
    · exact .inl ⟨offset, hoffset, .inr h⟩
    · split at hmore
      · rw [hmore, trimFor] at h
        split_ifs at h
        · exact .inr (.inl ⟨_, List.mem_singleton.1 h⟩)
        · exact .inr (.inl ⟨_, List.mem_singleton.1 h⟩)
        · exact absurd h List.not_mem_nil
      · exact .inr (.inr (hmore _ h))

/-- The symbols that `cb_rx` hands over. -/
theorem setData_mem_cbRx {symbols : SymbolRange} {channel : U8} {clkn : U32}
    (h : .setData symbols channel clkn ∈ (cbRx lib live nowNs rb x).1) : ∃ offset : ℕ,
    (lib.findAc rb.symsCell bankLen (x.pn.bind lib.lap)).1 = offset ∧
      symbols = { memory := .syms, start := offset, length := symbolCount - offset } ∧
      clkn = clknOfRx rb.bottomUsb offset := by
  rcases mem_cbRx h with ⟨offset, hoffset, h | h⟩ | ⟨n, h⟩ | ⟨n, h⟩
  · obtain ⟨rfl, -, rfl⟩ := SniffAction.setData.inj h
    exact ⟨offset, hoffset, rfl, rfl⟩
  all_goals contradiction

/-- What `cb_rx` prints is computed from the oldest packet, and the offset it has found. -/
theorem line_mem_cbRx {clkn : U32} {clkOffset : U16}
    (h : .line clkn clkOffset ∈ (cbRx lib live nowNs rb x).1) : ∃ offset : ℕ,
    (lib.findAc rb.symsCell bankLen (x.pn.bind lib.lap)).1 = offset ∧
      clkOffset = clkOffsetOf rb.bottomUsb offset := by
  rcases mem_cbRx h with ⟨offset, hoffset, h | h⟩ | ⟨n, h⟩ | ⟨n, h⟩
  · contradiction
  · exact ⟨offset, hoffset, (SniffAction.line.inj h).2⟩
  all_goals contradiction

/-- The symbols that `cb_br_rx` hands over. -/
theorem setData_mem_cbBrRx {symbols : SymbolRange} {channel : U8} {clkn : U32}
    (h : .setData symbols channel clkn ∈ (cbBrRx lib nowNs rb x).1) : ∃ offset : ℕ,
    (lib.findAc (fun k => rb.btCell (rb.topBtOffset + k)) (bankLen - 64)
        (x.pn.bind lib.lap)).1 = offset ∧
      symbols = { memory := .bt, start := rb.topBtOffset + offset
                  length := symbolCount - offset } := by
  unfold cbBrRx at h
  dsimp only at h
  split at h
  · exact absurd h List.not_mem_nil
  · split at h
    · exact absurd h List.not_mem_nil
    case isFalse hfound =>
      obtain ⟨offset, hoffset⟩ := Int.eq_ofNat_of_zero_le (not_lt.1 hfound)
      obtain ⟨rfl, -, -⟩ := SniffAction.setData.inj (List.mem_singleton.1 h)
      rw [hoffset]
      exact ⟨offset, rfl, rfl⟩

end Callbacks

/-! ## An inquiry -/

/-- A packet whose symbols start with the access code of LAP `9e8b33`. -/
def inquiryPacket : UsbPktRx :=
  { channel := 39
    clk100ns := 4000
    data := Vector.ofFn fun i =>
      [0x47, 0x5c, 0x58, 0xcc, 0x73, 0x34, 0x5e, 0x72].getD i.val 0 }

/-- libbtbb on such symbols. -/
def foundAtOnce : Btbb Unit Unit where
  findAc _ searchLength _ := (if searchLength = 0 then -1 else 0, ())
  lap _ := none
  packetSetData _ _ _ _ _ := ()
  processPacket _ _ := (0, none)
  clkOffset _ := 0

end Ubertooth.Host
