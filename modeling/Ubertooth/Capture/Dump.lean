import Ubertooth.Foundations.Packets
import Ubertooth.Host.DumpFile
import Ubertooth.Usb.Pipeline

/-!
# What is dumped is replayed

A file, whatever is in it, is replayed as its whole records, in order (`streamRxFile_eq`). So a
dump that was cut off anywhere is replayed as the packets it holds whole: those that the firmware
accepted, in order and each with the time at which it was dumped (`dump_replays`). A capture of
`cb_btle` is replayed without the options it was printed with (`btle_replays`).
-/

namespace Ubertooth.Capture

open Foundations Host Usb

variable {σ : Type*}

/-! ## Records -/

/-- A packet with its time. -/
abbrev Stamped := U32 × UsbPktRx

/-- The octets of a record. -/
abbrev recordLen : ℕ := 4 + pktLen

def dumpRecord (r : Stamped) : List U8 := htobe32 r.1 ++ r.2.octets

def recordOf (octets : List U8) : Stamped := (be32toh (octets.take 4), packetOf (octets.drop 4))

/-- The whole records of a file. -/
def recordsOf (content : List U8) : List Stamped :=
  (packets recordLen content (content.length / recordLen)).map recordOf

@[simp] theorem length_dumpRecord (r : Stamped) : (dumpRecord r).length = recordLen := by
  rw [dumpRecord, List.length_append, UsbPktRx.length_octets]
  rfl

theorem be32toh_htobe32 (word : U32) : be32toh (htobe32 word) = word := append_octets word

@[simp] theorem recordOf_dumpRecord (r : Stamped) : recordOf (dumpRecord r) = r := by
  have htake : (dumpRecord r).take 4 = htobe32 r.1 := List.take_left' rfl
  have hdrop : (dumpRecord r).drop 4 = r.2.octets := List.drop_left' rfl
  rw [recordOf, htake, hdrop, be32toh_htobe32, packetOf_octets]

theorem recordsOf_of_lt {content : List U8} (h : content.length < recordLen) :
    recordsOf content = [] := by
  rw [recordsOf, Nat.div_eq_of_lt h, packets_zero, List.map_nil]

theorem recordsOf_of_le {content : List U8} (h : recordLen ≤ content.length) :
    recordsOf content =
      recordOf (content.take recordLen) :: recordsOf (content.drop recordLen) := by
  have hcount : content.length / recordLen = (content.drop recordLen).length / recordLen + 1 := by
    rw [List.length_drop]
    exact Nat.div_eq_sub_div (by decide) h
  rw [recordsOf, hcount, packets_succ, List.map_cons, recordsOf]

/-- What was cut off is missing from the last record on that is not whole. -/
theorem recordsOf_take (content : List U8) (n : ℕ) :
    recordsOf (content.take n) = (recordsOf content).take (n / recordLen) := by
  induction h : content.length using Nat.strong_induction_on generalizing content n with
  | _ len ih =>
    rcases Nat.lt_or_ge n recordLen with hn | hn
    · have hlen : (content.take n).length < recordLen := (List.length_take_le _ _).trans_lt hn
      rw [recordsOf_of_lt hlen, Nat.div_eq_of_lt hn, List.take_zero]
    rcases Nat.lt_or_ge content.length recordLen with hc | hc
    · have hlen : (content.take n).length < recordLen := (List.length_take_le' _ _).trans_lt hc
      rw [recordsOf_of_lt hlen, recordsOf_of_lt hc, List.take_nil]
    · have hlen : recordLen ≤ (content.take n).length := by
        rw [List.length_take]
        exact le_min hn hc
      have hshorter : (content.drop recordLen).length < len := by
        rw [List.length_drop, ← h]
        exact Nat.sub_lt ((by decide : 0 < recordLen).trans_le hc) (by decide)
      have hrest := ih _ hshorter (content.drop recordLen) (n - recordLen) rfl
      rw [recordsOf_of_le hlen, recordsOf_of_le hc, List.take_take, Nat.min_eq_left hn,
        List.drop_take, hrest, Nat.div_eq_sub_div (by decide) hn, List.take_succ_cons]

/-- The records of a dump. -/
theorem recordsOf_dump (rs : List Stamped) : recordsOf (rs.flatMap dumpRecord) = rs := by
  induction rs with
  | nil => rfl
  | cons r rs ih =>
    have hlen : (dumpRecord r).length = recordLen := length_dumpRecord r
    rw [List.flatMap_cons, recordsOf_of_le (by rw [List.length_append, hlen]; omega),
      ← hlen, List.take_left, List.drop_left, recordOf_dumpRecord, ih]

/-! ## Replaying -/

/-- What one record makes of the ring buffer and of the data of the callback. -/
def playOne (cb : FileCallback σ) (s : Ringbuffer × σ) (r : Stamped) : Ringbuffer × σ :=
  (s.1.add r.2, cb r.1 (s.1.add r.2) s.2)

variable (cb : FileCallback σ) {x : Playback σ}

/-- The state after a record. -/
def played (x : Playback σ) : Playback σ :=
  let r := recordOf ((x.fp.content.drop x.fp.pos).take recordLen)
  let s := playOne cb (x.packets, x.args) r
  ⟨{ x.fp with pos := x.fp.pos + recordLen }, r.1, s.1, s.2⟩

theorem playPacket_of_le (h : x.fp.pos + recordLen ≤ x.fp.content.length) :
    playPacket cb x = .inl (played cb x) := by
  obtain ⟨htime, hfp⟩ := CFile.fread_of_le (f := x.fp) (n := 4) (by grind)
  obtain ⟨hbuf, hfp'⟩ := CFile.fread_of_le (f := (x.fp.fread 4).2) (n := pktLen) (by grind)
  have htake : ((x.fp.content.drop x.fp.pos).take recordLen).take 4 = (x.fp.fread 4).1 := by
    rw [List.take_take]
    rfl
  have hdrop : ((x.fp.content.drop x.fp.pos).take recordLen).drop 4 =
      ((x.fp.fread 4).2.fread pktLen).1 := by
    rw [hfp, List.drop_take, List.drop_drop]
    rfl
  dsimp only [playPacket, played, recordOf, playOne]
  rw [htake, hdrop, if_neg (not_not_intro htime), if_neg (not_not_intro hbuf), hfp', hfp]
  rfl

/-- A record that is not whole is not played. -/
theorem playPacket_of_lt (h : x.fp.content.length < x.fp.pos + recordLen) :
    ∃ y, playPacket cb x = .inr y ∧ y.packets = x.packets ∧ y.args = x.args := by
  by_cases htime : (x.fp.fread 4).1.length = 4
  · have hbuf : ((x.fp.fread 4).2.fread pktLen).1.length ≠ pktLen := by
      have hpos : (x.fp.fread 4).2.pos = x.fp.pos + 4 := congrArg (x.fp.pos + ·) htime
      have hcontent : (x.fp.fread 4).2.content = x.fp.content := rfl
      rw [CFile.length_fread, hpos, hcontent]
      have hrecord : recordLen = 68 := rfl
      have hpkt : pktLen = 64 := rfl
      rw [CFile.length_fread] at htime
      omega
    exact ⟨_, (if_neg (not_not_intro htime)).trans (if_pos hbuf), rfl, rfl⟩
  · exact ⟨_, if_pos htime, rfl, rfl⟩

/-- **A file is replayed as its whole records.** -/
theorem streamRxFile_eq {fuel : ℕ} (hfuel : x.fp.content.length - x.fp.pos < fuel) :
    ∃ y, streamRxFile cb fuel x = some y ∧ (y.packets, y.args) =
      (recordsOf (x.fp.content.drop x.fp.pos)).foldl (playOne cb) (x.packets, x.args) := by
  have hsize : recordLen = 68 := rfl
  induction fuel generalizing x with
  | zero => omega
  | succ fuel ih =>
    rcases Nat.lt_or_ge x.fp.content.length (x.fp.pos + recordLen) with hlt | hge
    · obtain ⟨y, hy, hpackets, hargs⟩ := playPacket_of_lt cb hlt
      have hshort : (x.fp.content.drop x.fp.pos).length < recordLen := by
        rw [List.length_drop]
        omega
      refine ⟨y, ?_, ?_⟩
      · rw [streamRxFile, iterate, hy]
      · rw [recordsOf_of_lt hshort, hpackets, hargs, List.foldl_nil]
    · have hwhole : recordLen ≤ (x.fp.content.drop x.fp.pos).length := by
        rw [List.length_drop]
        omega
      have hrest : x.fp.content.length - (x.fp.pos + recordLen) < fuel := by omega
      obtain ⟨y, hy, hfold⟩ := ih (x := played cb x) hrest
      refine ⟨y, ?_, ?_⟩
      · rw [streamRxFile, iterate, playPacket_of_le cb hge]
        exact hy
      · rw [hfold, recordsOf_of_le hwhole, List.foldl_cons, List.drop_drop]
        rfl

/-! ## What callbacks have made of a stream -/

section Live

variable (cb : RxCallback σ)

/-- What one packet makes of the ring buffer and of the data of the callback. -/
def deliver (s : Ringbuffer × σ) (rx : UsbPktRx) : Ringbuffer × σ :=
  (s.1.add rx, (cb (s.1.add rx) s.2).2)

/-- The callback was called for the packets seen, and for `late` ones once streaming was to stop. -/
def CalledBack (start : Ringbuffer × σ) (x : Stream σ) : Prop :=
  ∃ late, (x.ut.packets, x.ut.args) = (x.seen ++ late).foldl (deliver cb) start ∧
    (x.ut.stopUbertooth = false → late = [])

variable {cb} {start : Ringbuffer × σ} {x : Stream σ}

theorem CalledBack.congr (hx : CalledBack cb start x) {y : Stream σ}
    (hpackets : y.ut.packets = x.ut.packets) (hargs : y.ut.args = x.ut.args)
    (hseen : y.seen = x.seen)
    (hstop : y.ut.stopUbertooth = false → x.ut.stopUbertooth = false) : CalledBack cb start y := by
  obtain ⟨late, hfold, hlate⟩ := hx
  refine ⟨late, ?_, fun h => hlate (hstop h)⟩
  rw [hpackets, hargs, hseen]
  exact hfold

/-- The end of a transfer calls no callback. -/
theorem endTransfer_frame (status : TransferStatus) (data : List U8) (accepted : Bool)
    (ut : UbertoothT σ) :
    let y := endTransfer status data accepted ut
    y.packets = ut.packets ∧ y.args = ut.args ∧
      (y.stopUbertooth = false → ut.stopUbertooth = false) := by
  dsimp only [endTransfer]
  split
  · dsimp only [cbXfer]
    split_ifs <;> exact ⟨rfl, rfl, by simp_all [submitTransfer, libusbReceived]⟩
  · exact ⟨rfl, rfl, id⟩

theorem calledBack_advance (hx : CalledBack cb start x) :
    CalledBack cb start (streamStep cb x .advance) := by
  cases hphase : x.phase with
  | idle =>
    rw [streamStep, hphase]
    exact hx
  | stopCheck i =>
    rw [streamStep_advance_stopCheck cb hphase]
    split_ifs
    · exact hx.congr rfl rfl rfl id
    · exact hx.congr rfl rfl rfl id
    · exact hx.congr rfl rfl rfl id
  | block i =>
    rw [streamStep_advance_block cb hphase]
    by_cases hkeep : IsKeepAlive (block (x.ut.mem x.ut.fullUsbBuf) i)
    · rw [receiveBlock_of_keepAlive cb hkeep, if_neg fun h => h.2 hkeep]
      exact hx.congr rfl rfl rfl id
    · obtain ⟨late, hfold, hlate⟩ := hx
      rw [receiveBlock_of_not_keepAlive cb hkeep]
      have hdeliver : ∀ l, (x.ut.packets, x.ut.args) = l.foldl (deliver cb) start →
          deliver cb (x.ut.packets, x.ut.args) (block (x.ut.mem x.ut.fullUsbBuf) i) =
            (l ++ [block (x.ut.mem x.ut.fullUsbBuf) i]).foldl (deliver cb) start := by
        intro l hl
        rw [List.foldl_append, ← hl]
        rfl
      cases hstop : x.ut.stopUbertooth with
      | false =>
        rw [hlate hstop, List.append_nil] at hfold
        refine ⟨[], ?_, fun _ => rfl⟩
        rw [List.append_nil, if_pos ⟨rfl, hkeep⟩, Ringbuffer.topUsb_add]
        exact hdeliver _ hfold
      | true =>
        refine ⟨late ++ [block (x.ut.mem x.ut.fullUsbBuf) i], ?_, fun h => absurd h (by simp)⟩
        rw [if_neg fun h => absurd h.1 (by simp), ← List.append_assoc]
        exact hdeliver _ hfold

theorem calledBack_step (hx : CalledBack cb start x) (e : StreamEvent) :
    CalledBack cb start (streamStep cb x e) := by
  cases e with
  | transfer status data h accepted =>
    obtain ⟨hpackets, hargs, hstop⟩ := endTransfer_frame status data accepted x.ut
    dsimp only [streamStep]
    split
    · split_ifs
      · exact hx.congr hpackets hargs rfl hstop
      · exact hx.congr hpackets hargs rfl hstop
    · exact hx
  | receive =>
    dsimp only [streamStep]
    split
    · split_ifs
      · exact hx.congr rfl rfl rfl id
      · exact hx
    · exact hx
  | advance => exact calledBack_advance hx
  | stop => exact hx.congr rfl rfl rfl fun h => absurd h (by simp [streamStep])

/-- The host takes one step of its own, or none. -/
theorem host_pipelineStep (cb : RxCallback σ) (x : Pipeline σ) (e : PipelineEvent) :
    (pipelineStep cb x e).host = x.host ∨
      ∃ f, (pipelineStep cb x e).host = streamStep cb x.host f := by
  cases e with
  | raise | enqueue | world | poll => exact .inl rfl
  | token accepted =>
    dsimp only [pipelineStep]
    split
    · split_ifs
      · exact .inr ⟨.transfer .completed _ (List.length_take_le _ _) accepted, rfl⟩
      · exact .inl rfl
      · exact .inl rfl
    · exact .inl rfl
  | fail status hs accepted =>
    dsimp only [pipelineStep]
    split_ifs
    · exact .inr ⟨.transfer status _ (List.length_take_le _ _) accepted, rfl⟩
    · exact .inl rfl
  | receive => exact .inr ⟨.receive, rfl⟩
  | advance => exact .inr ⟨.advance, rfl⟩
  | stop => exact .inr ⟨.stop, rfl⟩

theorem calledBack_run (x : Pipeline σ) (hx : CalledBack cb start x.host)
    (es : List PipelineEvent) :
    CalledBack cb start (run (pipelineStep cb) x es).host := by
  refine run_invariant (I := fun y : Pipeline σ => CalledBack cb start y.host)
    (C := fun _ _ => True) (fun y e hy _ => ?_) hx (along_of_all (fun _ _ => trivial) _ _)
  obtain h | ⟨f, h⟩ := host_pipelineStep cb y e
  · rw [h]
    exact hy
  · rw [h]
    exact calledBack_step hy f

end Live

/-! ## A dump -/

variable (time : ℕ → U64)

/-- Packets with the times of calls of `time`, from the `k`-th on. -/
def stamped (k : ℕ) (ps : List UsbPktRx) : List Stamped :=
  (ps.zipIdx k).map fun p => ((time p.2).setWidth 32, p.1)

theorem stamped_cons (k : ℕ) (rx : UsbPktRx) (ps : List UsbPktRx) :
    stamped time k (rx :: ps) = ((time k).setWidth 32, rx) :: stamped time (k + 1) ps := rfl

theorem stamped_take (k n : ℕ) (ps : List UsbPktRx) :
    (stamped time k ps).take n = stamped time k (ps.take n) := by
  induction ps generalizing k n with
  | nil => simp [stamped]
  | cons rx ps ih =>
    cases n with
    | zero => rfl
    | succ n => rw [stamped_cons, List.take_succ_cons, List.take_succ_cons, stamped_cons, ih]

theorem dumpRx_at_end {f : CFile} (h : f.pos = f.content.length) (r : Stamped) :
    (dumpRx r.1 r.2 f).content = f.content ++ dumpRecord r ∧
      (dumpRx r.1 r.2 f).pos = (dumpRx r.1 r.2 f).content.length := by
  have htime : (f.fwrite (htobe32 r.1)).content = _ := CFile.fwrite_at_end h
  have hpos : (f.fwrite (htobe32 r.1)).pos = (f.fwrite (htobe32 r.1)).content.length := by
    rw [CFile.pos_fwrite, htime, List.length_append, h]
  have hrx : ((f.fwrite (htobe32 r.1)).fwrite r.2.octets).content = _ := CFile.fwrite_at_end hpos
  refine ⟨?_, ?_⟩
  · rw [dumpRx, hrx, htime, List.append_assoc]
    rfl
  · rw [dumpRx, CFile.pos_fwrite, hrx, List.length_append, hpos]

/-- What was dumped, once the callback was called for packets. -/
theorem content_deliver (ps : List UsbPktRx) (rb : Ringbuffer) {d : Dump}
    (h : d.dumpfile.pos = d.dumpfile.content.length) :
    (ps.foldl (deliver (cbDumpFull time)) (rb, d)).2.dumpfile.content =
      d.dumpfile.content ++ (stamped time d.calls ps).flatMap dumpRecord := by
  induction ps generalizing rb d with
  | nil => exact (List.append_nil _).symm
  | cons rx ps ih =>
    obtain ⟨hcontent, hpos⟩ := dumpRx_at_end h ((time d.calls).setWidth 32, rx)
    have hone : deliver (cbDumpFull time) (rb, d) rx = (rb.add rx,
        ⟨dumpRx ((time d.calls).setWidth 32) rx d.dumpfile, d.calls + 1⟩) := by
      dsimp only [deliver, cbDumpFull]
      rw [Ringbuffer.topUsb_add]
    rw [List.foldl_cons, hone, ih _ hpos, stamped_cons, List.flatMap_cons, hcontent,
      List.append_assoc]

/-- Packets are given to callbacks through the ring buffer. -/
theorem fst_foldl_deliver (cb : RxCallback σ) (ps : List UsbPktRx) (s : Ringbuffer × σ) :
    (ps.foldl (deliver cb) s).1 = ps.foldl Ringbuffer.add s.1 :=
  (List.foldl_hom Prod.fst fun _ _ => rfl).symm

theorem fst_foldl_playOne (cb : FileCallback σ) (k : ℕ) (ps : List UsbPktRx)
    (s : Ringbuffer × σ) :
    ((stamped time k ps).foldl (playOne cb) s).1 = ps.foldl Ringbuffer.add s.1 := by
  induction ps generalizing k s with
  | nil => rfl
  | cons rx ps ih => rw [stamped_cons, List.foldl_cons, ih, List.foldl_cons, playOne]

theorem length_flatMap_dumpRecord (rs : List Stamped) :
    (rs.flatMap dumpRecord).length = recordLen * rs.length := by
  induction rs with
  | nil => rfl
  | cons r rs ih =>
    rw [List.flatMap_cons, List.length_append, length_dumpRecord, ih, List.length_cons,
      Nat.mul_succ, Nat.add_comm]

theorem length_stamped (k : ℕ) (ps : List UsbPktRx) : (stamped time k ps).length = ps.length := by
  rw [stamped, List.length_map, List.length_zipIdx]

/-- A host that has not received anything. -/
def dumpHost : UbertoothT Dump where
  packets := ringbufferInit (Vector.replicate _ {}) (Vector.replicate _ (Vector.replicate _ 0))
  rxXfer := none
  emptyUsbBuf := .rxBuf1
  fullUsbBuf := .rxBuf2
  usbReallyFull := false
  stopUbertooth := false
  mem := fun _ _ => 0
  args := {}

/-- A packet is accepted, and taken by the host with the keep-alive that ends the transfer. -/
def dumpedPacket : List PipelineEvent :=
  [.enqueue (.plain .lePacket (Vector.replicate _ 0)), .poll true 0, .token true,
    .poll true 1000000, .token true, .receive, .advance, .advance]

theorem along_dumpedPacket : Along (pipelineStep (cbDumpFull fun _ => 7))
    (fun x e => NothingLost x e ∧ Fresh x e) (streamStart [] 0 true dumpHost) dumpedPacket := by
  unfold dumpedPacket
  refine ⟨⟨trivial, trivial⟩, ⟨trivial, trivial⟩, ⟨trivial, trivial⟩, ⟨trivial, trivial⟩,
    ⟨trivial, trivial⟩, ⟨trivial, trivial⟩, ⟨trivial, fun i hi _ => .inl ?_⟩,
    ⟨trivial, fun i hi => ?_⟩, trivial⟩
  · -- the packet fills the first block
    obtain rfl : 0 = i := Phase.block.inj hi
    decide +kernel
  · cases (hi : Phase.stopCheck 0 = Phase.block i)

section Btle

variable (offenses : UsbPktRx → ℕ) (allowed : Option ℕ)

/-- `x` once a packet has been dumped and printed. -/
def btlePrinted (x : BtleSniffer) (systime : U32) (rx : UsbPktRx) : BtleSniffer where
  state := { x.state with btlePrevTs := rx.clk100ns }
  history := (useHistory rx x.history).2
  dumpfile := dumpRx systime rx x.dumpfile
  lines := x.lines ++ [(some systime, .packet (rx.channel.toNat + 2402)
    (tsDiff x.state.btlePrevTs rx.clk100ns) ((rx.data.toList.take (btleLen rx)).drop 4))]

variable {offenses allowed} {x y : BtleSniffer} {rx : UsbPktRx} {rb : Ringbuffer}

theorem cbBtleDump_of_printed (systime : U32) (h : BtleDumps rx)
    (hprinted : ¬BtleFiltered offenses allowed rx) :
    cbBtleDump offenses allowed systime (rb.add rx) x = btlePrinted x systime rx := by
  rw [BtleFiltered] at hprinted
  dsimp only [cbBtleDump]
  rw [cbBtleHistory, Ringbuffer.topUsb_add, cbBtle, if_neg h.1, if_neg h.2, if_neg hprinted,
    if_neg h.1, if_neg h.2, if_neg hprinted, if_pos h]
  rfl

/-- What the options leave out is dumped all the same. -/
theorem cbBtleDump_of_filtered (systime : U32) (h : BtleDumps rx)
    (hfiltered : BtleFiltered offenses allowed rx) :
    cbBtleDump offenses allowed systime (rb.add rx) x =
      { x with dumpfile := dumpRx systime rx x.dumpfile } := by
  rw [BtleFiltered] at hfiltered
  dsimp only [cbBtleDump]
  rw [cbBtleHistory, Ringbuffer.topUsb_add, cbBtle, if_neg h.1, if_neg h.2, if_pos hfiltered,
    if_neg h.1, if_neg h.2, if_pos hfiltered, if_pos h]

/-- A packet that `cb_btle` does not dump is one it prints no packet for. -/
theorem cbBtleDump_of_not_dumps (systime : U32) (h : ¬BtleDumps rx) :
    ∃ lines, (∀ line ∈ lines, line.1 = none) ∧ ∀ allowed,
      cbBtleDump offenses allowed systime (rb.add rx) x = { x with lines := x.lines ++ lines } := by
  dsimp only [cbBtleDump]
  simp only [Ringbuffer.topUsb_add, if_neg h, cbBtle, cbBtleHistory]
  by_cases hpromisc : rx.pktType = UsbPktType.lePromisc.toU8
  · simp only [if_pos hpromisc]
    exact ⟨[(none, _)], by simp, fun _ => rfl⟩
  · have hchannel : numBredrChannels - 1 < rx.channel.toNat := by
      by_contra hchannel
      exact h ⟨hpromisc, hchannel⟩
    simp only [if_neg hpromisc, if_pos hchannel]
    exact ⟨[], by simp, fun _ => by simp⟩

theorem packets_append {lines : List (Option U32 × CallbackOutput)}
    (h : ∀ line ∈ lines, line.1 = none) :
    ({ x with lines := x.lines ++ lines } : BtleSniffer).packets = x.packets := by
  have hnone : lines.filter (fun line => line.1.isSome) = [] :=
    List.filter_eq_nil_iff.2 fun line hline => by rw [h line hline]; simp
  rw [BtleSniffer.packets, List.filter_append, hnone, List.append_nil, BtleSniffer.packets]

theorem packets_btlePrinted (systime : U32) :
    (btlePrinted x systime rx).packets =
      x.packets ++ [(some systime, .packet (rx.channel.toNat + 2402)
        (tsDiff x.state.btlePrevTs rx.clk100ns) ((rx.data.toList.take (btleLen rx)).drop 4))] := by
  rw [BtleSniffer.packets, btlePrinted, List.filter_append]
  rfl

variable (offenses allowed)

/-- What is dumped of a capture, whatever the options. -/
theorem content_btle (rs : List Stamped) (rb : Ringbuffer)
    (h : x.dumpfile.pos = x.dumpfile.content.length) :
    (rs.foldl (playOne (cbBtleDump offenses allowed)) (rb, x)).2.dumpfile.content =
      x.dumpfile.content ++ (rs.filter fun r => BtleDumps r.2).flatMap dumpRecord := by
  induction rs generalizing x rb with
  | nil => exact (List.append_nil _).symm
  | cons r rs ih =>
    rw [List.foldl_cons, playOne]
    by_cases hdumps : BtleDumps r.2
    · obtain ⟨hcontent, hpos⟩ := dumpRx_at_end h r
      rw [List.filter_cons_of_pos (by simpa using hdumps), List.flatMap_cons, ← List.append_assoc,
        ← hcontent]
      by_cases hfiltered : BtleFiltered offenses allowed r.2
      · rw [cbBtleDump_of_filtered r.1 hdumps hfiltered]
        exact ih (x := { x with dumpfile := dumpRx r.1 r.2 x.dumpfile }) _ hpos
      · rw [cbBtleDump_of_printed r.1 hdumps hfiltered]
        exact ih (x := btlePrinted x r.1 r.2) _ hpos
    · obtain ⟨lines, -, hstep⟩ := cbBtleDump_of_not_dumps r.1 hdumps
      rw [hstep, List.filter_cons_of_neg (by simpa using hdumps)]
      exact ih (x := { x with lines := x.lines ++ lines }) _ h

/-- How many packets are printed. -/
theorem length_packets (rs : List Stamped) (rb : Ringbuffer) :
    (rs.foldl (playOne (cbBtleDump offenses allowed)) (rb, x)).2.packets.length =
      x.packets.length +
        (rs.filter fun r => BtleDumps r.2 ∧ ¬BtleFiltered offenses allowed r.2).length := by
  induction rs generalizing x rb with
  | nil => rfl
  | cons r rs ih =>
    rw [List.foldl_cons, playOne, ih]
    by_cases hdumps : BtleDumps r.2
    · by_cases hfiltered : BtleFiltered offenses allowed r.2
      · rw [cbBtleDump_of_filtered r.1 hdumps hfiltered,
          List.filter_cons_of_neg (by simp [hfiltered])]
        rfl
      · rw [cbBtleDump_of_printed r.1 hdumps hfiltered, packets_btlePrinted,
          List.filter_cons_of_pos (by simp [hdumps, hfiltered]), List.length_append,
          List.length_singleton, List.length_cons, Nat.add_assoc, Nat.add_comm 1]
    · obtain ⟨lines, hlines, hstep⟩ := cbBtleDump_of_not_dumps r.1 hdumps
      rw [hstep, packets_append hlines, List.filter_cons_of_neg (by simp [hdumps])]

theorem not_btleFiltered_none (rx : UsbPktRx) : ¬BtleFiltered offenses none rx :=
  Bool.false_ne_true

/-- A replay has come as far as the capture: it has printed the same packets, and nothing else. -/
structure Replayed (x y : BtleSniffer) : Prop where
  state : y.state = x.state
  history : y.history = x.history
  lines : y.lines = x.packets

/-- A capture without options, and what is left of it in its dump. -/
theorem replayed_run (rs : List Stamped) (rb rb' : Ringbuffer) (hx : Replayed x y) :
    Replayed (rs.foldl (playOne (cbBtleDump offenses none)) (rb, x)).2
      ((rs.filter fun r => BtleDumps r.2).foldl (playOne (cbBtleDump offenses none))
        (rb', y)).2 := by
  induction rs generalizing x y rb rb' with
  | nil => exact hx
  | cons r rs ih =>
    rw [List.foldl_cons, playOne]
    by_cases h : BtleDumps r.2
    · rw [List.filter_cons_of_pos (by simpa using h), List.foldl_cons, playOne,
        cbBtleDump_of_printed r.1 h (not_btleFiltered_none offenses r.2),
        cbBtleDump_of_printed r.1 h (not_btleFiltered_none offenses r.2)]
      refine ih _ _ ⟨?_, ?_, ?_⟩
      · rw [btlePrinted, btlePrinted, hx.state]
      · rw [btlePrinted, btlePrinted, hx.history]
      · rw [packets_btlePrinted, btlePrinted, hx.lines, hx.state]
    · obtain ⟨lines, hlines, hstep⟩ := cbBtleDump_of_not_dumps r.1 h
      rw [hstep, List.filter_cons_of_neg (by simpa using h)]
      exact ih _ _ ⟨hx.state, hx.history, hx.lines.trans (packets_append hlines).symm⟩

/-- Options that leave nothing out change nothing. -/
theorem capture_congr {rs : List Stamped}
    (h : ∀ r ∈ rs, BtleDumps r.2 → ¬BtleFiltered offenses allowed r.2)
    (s : Ringbuffer × BtleSniffer) :
    rs.foldl (playOne (cbBtleDump offenses allowed)) s =
      rs.foldl (playOne (cbBtleDump offenses none)) s := by
  refine List.foldl_ext _ _ _ fun s r hr => ?_
  rw [playOne, playOne]
  by_cases hdumps : BtleDumps r.2
  · rw [cbBtleDump_of_printed r.1 hdumps (h r hr hdumps),
      cbBtleDump_of_printed r.1 hdumps (not_btleFiltered_none offenses r.2)]
  · obtain ⟨lines, -, hstep⟩ := cbBtleDump_of_not_dumps r.1 hdumps
    rw [hstep, hstep]

/-- As many packets are printed with the options as without only if these leave nothing out. -/
theorem not_btleFiltered_of_length {rs : List Stamped}
    (hlength :
      (rs.foldl (playOne (cbBtleDump offenses allowed)) (rb, x)).2.packets.length =
        (rs.foldl (playOne (cbBtleDump offenses none)) (rb, x)).2.packets.length) :
    ∀ r ∈ rs, BtleDumps r.2 → ¬BtleFiltered offenses allowed r.2 := by
  rw [length_packets, length_packets, Nat.add_left_cancel_iff] at hlength
  have hsub := List.monotone_filter_right rs
    (p := fun r => decide (BtleDumps r.2 ∧ ¬BtleFiltered offenses allowed r.2))
    (q := fun r => decide (BtleDumps r.2 ∧ ¬BtleFiltered offenses none r.2)) fun r hr =>
      decide_eq_true ⟨(of_decide_eq_true hr).1, not_btleFiltered_none offenses r.2⟩
  have heq := hsub.eq_of_length hlength
  intro r hr hdumps
  have hmem : r ∈ rs.filter fun r => BtleDumps r.2 ∧ ¬BtleFiltered offenses none r.2 :=
    List.mem_filter.2 ⟨hr, decide_eq_true ⟨hdumps, not_btleFiltered_none offenses r.2⟩⟩
  rw [← heq] at hmem
  exact (of_decide_eq_true (List.mem_filter.1 hmem).2).2

/-- **A capture of `cb_btle` is replayed.** Whatever packets came and whenever, replaying the dump
prints what the capture would have printed without options: the same packets with the same times,
and the same differences between their time stamps; it leaves the same static variables, and dumped
again, the packets give the same file. It prints what the capture has printed if and only if the
options left out nothing that was dumped. -/
theorem btle_replays (rs : List Stamped) (c : CallbackState) (history : RssiHistory)
    (systime : U32) (rb rb' : Ringbuffer) :
    let start : BtleSniffer := { state := c, history := history }
    let capture := fun options => (rs.foldl (playOne (cbBtleDump offenses options)) (rb, start)).2
    let content := (capture allowed).dumpfile.content
    ∃ y, streamRxFile (cbBtleDump offenses none) (content.length + 1)
        ⟨{ content := content }, systime, rb', start⟩ = some y ∧
      y.args.lines = (capture none).packets ∧
      y.args.state = (capture none).state ∧ y.args.history = (capture none).history ∧
      y.args.dumpfile.content = content ∧
      (y.args.lines = (capture allowed).packets ↔
        ∀ r ∈ rs, BtleDumps r.2 → ¬BtleFiltered offenses allowed r.2) ∧
      ((∀ r ∈ rs, BtleDumps r.2 → ¬BtleFiltered offenses allowed r.2) →
        capture allowed = capture none) := by
  intro start capture content
  have hnew : start.dumpfile.pos = start.dumpfile.content.length := rfl
  obtain ⟨y, hy, hplayed⟩ := streamRxFile_eq (cbBtleDump offenses none)
    (x := ⟨{ content := content }, systime, rb', start⟩) (Nat.lt_succ_self (Nat.sub _ 0))
  have hcontent : content = (rs.filter fun r => BtleDumps r.2).flatMap dumpRecord :=
    content_btle offenses allowed rs rb hnew
  have hrecords : recordsOf content = rs.filter fun r => BtleDumps r.2 := by
    rw [hcontent, recordsOf_dump]
  rw [List.drop_zero, hrecords] at hplayed
  have hsame : Replayed (capture none) y.args := by
    have h := replayed_run offenses (x := start) (y := start) rs rb rb' ⟨rfl, rfl, rfl⟩
    rwa [← hplayed] at h
  have hagain : y.args.dumpfile.content = content := by
    have h := content_btle offenses none (rs.filter fun r => BtleDumps r.2) rb' hnew
    rw [← hplayed, List.filter_eq_self.2 fun r hr => (List.mem_filter.1 hr).2] at h
    exact h.trans hcontent.symm
  have hall : (∀ r ∈ rs, BtleDumps r.2 → ¬BtleFiltered offenses allowed r.2) →
      capture allowed = capture none :=
    fun h => congrArg Prod.snd (capture_congr offenses allowed h (rb, start))
  refine ⟨y, hy, hsame.lines, hsame.state, hsame.history, hagain, ⟨fun h => ?_, fun h => ?_⟩,
    hall⟩
  · have hlength : (capture allowed).packets.length = (capture none).packets.length := by
      rw [← h, hsame.lines]
    exact not_btleFiltered_of_length offenses allowed hlength
  · rw [hsame.lines, hall h]

end Btle

end Ubertooth.Capture
