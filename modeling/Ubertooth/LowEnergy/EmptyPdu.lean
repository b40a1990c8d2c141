import Ubertooth.Foundations.Octets
import Ubertooth.LowEnergy.Candidates
import Ubertooth.LowEnergy.Whitening

/-!
# Empty data PDUs

`cb_le_promisc` whitens the four headers that an empty data PDU may have and compares them with the
symbols. That finds exactly the places of the buffer where the unwhitened octets are such a header
and the length 0, and what is handed on from there are the 32 symbols before, and the six octets
unwhitened (`exactDetection`).
-/

namespace Ubertooth.LowEnergy

open Firmware Foundations

variable {channel : U16} {u v : ℕ → U8} {i : ℕ}

/-! ## What is looked for -/

/-- A symbol is an octet, 0 or 1. -/
def IsSymbol (x : U8) : Prop := x = 0 ∨ x = 1

instance (x : U8) : Decidable (IsSymbol x) := instDecidableOr

/-- The symbols from `i` on, unwhitened from where the channel starts. -/
def unwhitenedFrom (channel : U16) (u : ℕ → U8) (i n : ℕ) : U8 :=
  u (i + n) ^^^ whiteningAt channel n

/-- The first octets of an empty data PDU: 01, 05, 09 or 0d, and the length 0. -/
def EmptyPduAt (channel : U16) (u : ℕ → U8) (i : ℕ) : Prop :=
  octetAt (unwhitenedFrom channel u i) 0 ∈ [(0x01 : U8), 0x05, 0x09, 0x0d] ∧
    octetAt (unwhitenedFrom channel u i) 8 = 0x00

instance (channel : U16) (u : ℕ → U8) (i : ℕ) : Decidable (EmptyPduAt channel u i) :=
  let x := octetAt (unwhitenedFrom channel u i) 0
  decidable_of_iff ((x = 0x01 ∨ x = 0x05 ∨ x = 0x09 ∨ x = 0x0d) ∧
    octetAt (unwhitenedFrom channel u i) 8 = 0x00) (by simp [EmptyPduAt, x])

/-- The ten octets of a report: the 32 symbols before `i`, and six octets unwhitened. -/
def reportOctets (channel : U16) (u : ℕ → U8) (i : ℕ) : List U8 :=
  (List.range 4).map (fun j => octetAt u (i - 32 + j * 8)) ++
    (List.range 6).map fun j => octetAt (unwhitenedFrom channel u i) (j * 8)

/-- A report gives the octets to `enqueue`, and the first four of them, the first one lowest, to
`see_aa`. -/
def report (channel : U16) (u : ℕ → U8) (s : Fw) (i : ℕ) : Fw :=
  let octets := reportOctets channel u i
  (enqueue .lePacket (Vector.ofFn fun j => octets.getD j 0)
    { s with lePromisc := seeAa s.lePromisc ((joinLow 4 fun j => octets.getD j 0).setWidth 32) }).2

/-- The end of `cb_le_promisc`: an address that was seen often enough is followed. -/
def followHeard (s : Fw) : Option U32 × Fw :=
  match s.lePromisc.heard with
  | some aa => (some aa, followAddress aa s)
  | none => (none, s)

/-- What a call of `cb_le_promisc` is to do: report the empty PDUs from place 32 to place 751, in
turn, and look at nothing but the 800 symbols. -/
structure ExactDetection (u : ℕ → U8) (s : Fw) : Prop where
  reports : ∃ places : List ℕ,
    (∀ i, i ∈ places ↔ (32 ≤ i ∧ i < 752) ∧ EmptyPduAt s.channel u i) ∧
    places.Pairwise (· < ·) ∧
    cbLePromisc u s = followHeard (places.foldl (report s.channel u) s)
  inside : ∀ v, (∀ n < 2 * blockSymbols, v n = u n) → cbLePromisc v s = cbLePromisc u s

/-! ## Symbols and octets -/

theorem IsSymbol.eq_ofBool {x : U8} (h : IsSymbol x) :
    x = (BitVec.ofBool (decide (x = 1))).setWidth 8 := by
  obtain rfl | rfl := h <;> rfl

theorem isSymbol_whiteningAt (channel : U16) (n : ℕ) : IsSymbol (whiteningAt channel n) := by
  have hlength : whitening.length = 127 := rfl
  rw [whiteningAt, hlength, whitening_getD_mod]
  cases whiteningBit _
  · exact Or.inl rfl
  · exact Or.inr rfl

theorem IsSymbol.xor {x y : U8} (hx : IsSymbol x) (hy : IsSymbol y) : IsSymbol (x ^^^ y) := by
  obtain rfl | rfl := hx <;> obtain rfl | rfl := hy <;> simp [IsSymbol]

/-- The bits of an octet are its symbols. -/
theorem getLsbD_octetAt {symbol : ℕ → U8} {pos m : ℕ} (hm : m < 8)
    (h : ∀ k < 8, IsSymbol (symbol (pos + k))) :
    (octetAt symbol pos).getLsbD m = decide (symbol (pos + m) = 1) := by
  have hfold : ∀ n ≤ 8, ((List.range n).foldl
      (fun byte k => byte ||| (symbol (pos + k) <<< k)) (0 : U8)).getLsbD m =
        (decide (m < n) && decide (symbol (pos + m) = 1)) := by
    intro n hn
    induction n with
    | zero => simp
    | succ n ih =>
      rw [List.range_succ, List.foldl_append, List.foldl_cons, List.foldl_nil, BitVec.getLsbD_or,
        ih (by omega), (h n (by omega)).eq_ofBool, getLsbD_bit_shiftLeft _ hm]
      obtain hlt | rfl | hgt := Nat.lt_trichotomy m n
      · have hsucc : m < n + 1 := by omega
        simp [hlt, hsucc, hlt.ne]
      · simp
      · have hsucc : ¬m < n + 1 := by omega
        simp [hsucc, hgt.ne', Nat.not_lt.2 hgt.le]
  rw [octetAt, hfold 8 le_rfl, decide_eq_true hm, Bool.true_and]

/-- Bit `k` of a word as a symbol. -/
def symbolOf {w : ℕ} (x : BitVec w) (k : ℕ) : U8 := if x.getLsbD k then 1 else 0

/-- An octet has given bits as soon as its symbols are those. -/
theorem octetAt_eq_iff {symbol : ℕ → U8} {pos : ℕ} (h : ∀ k < 8, IsSymbol (symbol (pos + k)))
    (x : U8) : octetAt symbol pos = x ↔ ∀ k < 8, symbol (pos + k) = symbolOf x k := by
  have hbit : ∀ k < 8, ((octetAt symbol pos).getLsbD k = x.getLsbD k ↔
      symbol (pos + k) = symbolOf x k) := by
    intro k hk
    rw [getLsbD_octetAt hk h, symbolOf]
    obtain hzero | hone := h k hk
    · rw [hzero]
      cases x.getLsbD k <;> simp
    · rw [hone]
      cases x.getLsbD k <;> simp
  constructor
  · intro heq k hk
    rw [← hbit k hk, heq]
  · intro hall
    exact BitVec.eq_of_getLsbD_eq fun k hk => (hbit k hk).2 (hall k hk)

/-! ## The headers -/

/-- The headers are four octets, with the length after them. -/
theorem emptyHeaders_eq : emptyHeaders =
    [(0x01 : U8), 0x09, 0x05, 0x0d].map fun x => (List.range 16).map (symbolOf x) := by
  decide

/-- Comparing with a whitened pattern is comparing the unwhitened symbols. -/
theorem matches_iff (channel : U16) (u : ℕ → U8) (i : ℕ) (f : ℕ → U8) :
    (∀ y ∈ (((List.range 16).map f).zipIdx.map fun z => z.1 ^^^ whiteningAt channel z.2).zipIdx,
      u (i + y.2) = y.1) ↔ ∀ k < 16, unwhitenedFrom channel u i k = f k := by
  have hxor : ∀ k, u (i + k) = f k ^^^ whiteningAt channel k ↔
      unwhitenedFrom channel u i k = f k := by
    intro k
    rw [unwhitenedFrom]
    constructor
    · intro h
      rw [h, BitVec.xor_assoc, BitVec.xor_self, BitVec.xor_zero]
    · intro h
      rw [← h, BitVec.xor_assoc, BitVec.xor_self, BitVec.xor_zero]
  constructor
  · intro hall k hk
    refine (hxor k).1 (hall (f k ^^^ whiteningAt channel k, k) ?_)
    rw [List.mk_mem_zipIdx_iff_getElem?]
    simp [hk]
  · rintro hall ⟨x, k⟩ hmem
    have hk : k < 16 := by simpa using List.snd_lt_of_mem_zipIdx hmem
    rw [List.mk_mem_zipIdx_iff_getElem?] at hmem
    have hx : f k ^^^ whiteningAt channel k = x := by simpa [hk] using hmem
    exact ((hxor k).2 (hall k hk)).trans hx

/-- A header of the buffer is a header of the table, once it is unwhitened. -/
theorem startsHeader_iff_unwhitened (channel : U16) (u : ℕ → U8) (i : ℕ) :
    startsHeader channel u i = true ↔ ∃ x ∈ [(0x01 : U8), 0x09, 0x05, 0x0d],
      ∀ k < 16, unwhitenedFrom channel u i k = symbolOf x k := by
  rw [startsHeader_iff, desired, emptyHeaders_eq]
  simp only [List.mem_map, exists_exists_and_eq_and, matches_iff]

/-- The bits of a header are those of an octet and of the length. -/
theorem symbols_header_iff (f : ℕ → U8) (x : U8) : (∀ k < 16, f k = symbolOf x k) ↔
    (∀ k < 8, f (0 + k) = symbolOf x k) ∧ ∀ k < 8, f (8 + k) = symbolOf (0x00 : U8) k := by
  have hhigh : ∀ k < 8, symbolOf x (8 + k) = symbolOf (0x00 : U8) k := by
    intro k _
    simp [symbolOf]
  constructor
  · intro hall
    exact ⟨fun k hk => by rw [Nat.zero_add, hall k (by omega)],
      fun k hk => by rw [hall (8 + k) (by omega), hhigh k hk]⟩
  · intro ⟨hlow, hlength⟩ k hk
    obtain hlt | hge := Nat.lt_or_ge k 8
    · rw [← hlow k hlt, Nat.zero_add]
    · obtain ⟨m, rfl⟩ := Nat.exists_eq_add_of_le hge
      rw [hlength m (by omega), hhigh m (by omega)]

/-- **The search finds the empty PDUs.** -/
theorem startsHeader_iff_emptyPduAt (h : ∀ n < 2 * blockSymbols, IsSymbol (u n))
    (hi : i + 16 ≤ 2 * blockSymbols) :
    startsHeader channel u i = true ↔ EmptyPduAt channel u i := by
  have hsymbol : ∀ k < 16, IsSymbol (unwhitenedFrom channel u i k) := fun k hk =>
    (h _ (by omega)).xor (isSymbol_whiteningAt channel k)
  have hlow := @octetAt_eq_iff (unwhitenedFrom channel u i) 0
    fun k hk => hsymbol _ (by omega)
  have hlength := @octetAt_eq_iff (unwhitenedFrom channel u i) 8
    fun k hk => hsymbol _ (by omega)
  have hmem : ∀ x : U8, x ∈ [(0x01 : U8), 0x09, 0x05, 0x0d] ↔ x ∈ [(0x01 : U8), 0x05, 0x09, 0x0d] :=
    fun x => (List.Perm.mem_iff (by decide))
  rw [startsHeader_iff_unwhitened, EmptyPduAt]
  simp only [symbols_header_iff, ← hlow, ← hlength, hmem]
  simp only [← and_assoc]
  constructor
  · rintro ⟨x, ⟨hx, rfl⟩, hzero⟩
    exact ⟨hx, hzero⟩
  · rintro ⟨hx, hzero⟩
    exact ⟨_, ⟨hx, rfl⟩, hzero⟩

/-! ## The reports -/

theorem mem_candidates : i ∈ candidates channel u ↔
    (32 ≤ i ∧ i < 752) ∧ startsHeader channel u i = true := by
  rw [candidates, List.mem_filter, List.mem_range'_1]
  exact Iff.rfl

theorem gatherByte_address (h32 : 32 ≤ i) (hi : i < 752) {j : ℕ} (hj : j < 4) :
    gatherByte channel u i j = octetAt u (i - 32 + j * 8) := by
  refine List.foldl_ext _ _ _ fun byte k hk => ?_
  rw [List.mem_range] at hk
  have hplace : k + j * 8 + i - 32 = i - 32 + j * 8 + k := by omega
  have hinside : ¬2 * blockSymbols ≤ i - 32 + j * 8 + k := by
    show ¬800 ≤ i - 32 + j * 8 + k
    omega
  dsimp only [gatherBit]
  rw [hplace, if_neg hinside, if_neg (by omega)]

theorem gatherByte_data (h32 : 32 ≤ i) (hi : i < 752) {j : ℕ} (hj : j < 6) :
    gatherByte channel u i (4 + j) = octetAt (unwhitenedFrom channel u i) (j * 8) := by
  refine List.foldl_ext _ _ _ fun byte k hk => ?_
  rw [List.mem_range] at hk
  have hplace : k + (4 + j) * 8 + i - 32 = i + (j * 8 + k) := by omega
  have hinside : ¬2 * blockSymbols ≤ i + (j * 8 + k) := by
    show ¬800 ≤ i + (j * 8 + k)
    omega
  dsimp only [gatherBit, unwhitenedFrom]
  rw [hplace, if_neg hinside, if_pos (by omega), Nat.add_sub_cancel_left]

theorem getD_reportOctets (h32 : 32 ≤ i) (hi : i < 752) (j : ℕ) :
    (reportOctets channel u i).getD j 0 = if j < 10 then gatherByte channel u i j else 0 := by
  rw [reportOctets, List.getD_eq_getElem?_getD, List.getElem?_append]
  obtain hlt | hge := Nat.lt_or_ge j 4
  · have h10 : j < 10 := by omega
    rw [if_pos h10, gatherByte_address h32 hi hlt]
    simp [hlt]
  · obtain ⟨m, rfl⟩ := Nat.exists_eq_add_of_le hge
    by_cases hm : m < 6
    · have h10 : 4 + m < 10 := by omega
      rw [if_pos h10, gatherByte_data h32 hi hm]
      simp [hm]
    · have h10 : ¬4 + m < 10 := by omega
      rw [if_neg h10]
      simp [hm]

/-- Four octets put together as `cb_le_promisc` does it, and as a loop. -/
theorem joins_four (data : ℕ → U8) : Joins 4 data (((data 3).setWidth 32 <<< 24) |||
    ((data 2).setWidth 32 <<< 16) ||| ((data 1).setWidth 32 <<< 8) |||
    (data 0).setWidth 32 : U32) := by
  have hloop := (joins_zero (w := 32) data).or_shiftLeft.or_shiftLeft.or_shiftLeft.or_shiftLeft
  have hcomm : ∀ a b c d : U32, d ||| c ||| b ||| a = 0 ||| (a <<< (8 * 0)) ||| b ||| c ||| d := by
    intro a b c d
    have ha : 0 ||| (a <<< (8 * 0)) = a := by simp
    rw [ha]
    ac_rfl
  rw [hcomm]
  exact hloop

theorem sendHome_eq_report (h32 : 32 ≤ i) (hi : i < 752) (s : Fw) :
    sendHome channel u s i = report channel u s i := by
  have hbuf : candidateBuf channel u i =
      Vector.ofFn fun j => (reportOctets channel u i).getD j 0 :=
    congrArg Vector.ofFn (funext fun j => (getD_reportOctets h32 hi j).symm)
  have haa : candidateAa channel u i =
      (joinLow 4 fun j => (reportOctets channel u i).getD j 0).setWidth 32 := by
    have hjoin := (joins_foldl_or (w := 64) 4 fun j => (reportOctets channel u i).getD j 0).setWidth
      (v := 32) (by omega)
    have haddress : Joins 4 (gatherByte channel u i) (candidateAa channel u i) := joins_four _
    refine Joins.unique (haddress.congr fun j hj => ?_) hjoin
    rw [getD_reportOctets h32 hi, if_pos (by omega)]
  unfold sendHome report
  rw [hbuf, haa]

/-- Only the symbols of the buffer matter. -/
theorem candidates_congr (h : ∀ n < 2 * blockSymbols, v n = u n) :
    candidates channel v = candidates channel u := by
  refine List.filter_congr fun i hi => startsHeader_congr fun k hk => h _ ?_
  have hrange : 32 ≤ i ∧ i < 752 := List.mem_range'_1.1 hi
  show i + k < 800
  omega

theorem gatherByte_congr (h : ∀ n < 2 * blockSymbols, v n = u n) (j : ℕ) :
    gatherByte channel v i j = gatherByte channel u i j := by
  refine List.foldl_ext _ _ _ fun byte k _ => ?_
  unfold gatherBit
  by_cases hinside : 2 * blockSymbols ≤ k + j * 8 + i - 32
  · rw [if_pos hinside, if_pos hinside]
  · rw [if_neg hinside, if_neg hinside, h _ (by omega)]

theorem sendHome_congr (h : ∀ n < 2 * blockSymbols, v n = u n) :
    sendHome channel v = sendHome channel u := by
  funext s i
  unfold sendHome candidateBuf candidateAa
  simp only [gatherByte_congr h]

/-- **Detection of empty data PDUs.** It is exact for every buffer of zeros and ones, on every
channel. -/
theorem exactDetection {u : ℕ → U8} (s : Fw) (h : ∀ n < 2 * blockSymbols, IsSymbol (u n)) :
    ExactDetection u s := by
  refine ⟨⟨candidates s.channel u, fun i => ?_, ?_, ?_⟩, fun v hv => ?_⟩
  · rw [mem_candidates]
    refine and_congr_right fun hi => startsHeader_iff_emptyPduAt h ?_
    show i + 16 ≤ 800
    omega
  · exact List.Pairwise.filter _ List.pairwise_lt_range'
  · have hfold : (candidates s.channel u).foldl (sendHome s.channel u) s =
        (candidates s.channel u).foldl (report s.channel u) s :=
      List.foldl_ext _ _ _ fun s' i hi => by
        obtain ⟨⟨h32, h752⟩, -⟩ := mem_candidates.1 hi
        exact sendHome_eq_report h32 h752 s'
    rw [← hfold]
    rfl
  · unfold cbLePromisc
    rw [candidates_congr hv, sendHome_congr hv]

/-- A buffer with the PDU of a block. -/
theorem exactDetection_emptyPduBlock :
    ExactDetection (unpack (fun _ => 1) (emptyPduBlock 9)) { channel := 2440 } :=
  exactDetection _ (by decide +kernel)

example : (List.range' 32 720).filter
    (fun i => decide (EmptyPduAt 2440 (unpack (fun _ => 1) (emptyPduBlock 9)) i)) = [504] := by
  decide +kernel

end Ubertooth.LowEnergy
