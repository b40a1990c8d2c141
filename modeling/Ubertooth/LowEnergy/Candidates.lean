import Ubertooth.Foundations.SlidingWindow
import Ubertooth.Foundations.Tally
import Ubertooth.Firmware.Promisc
import Ubertooth.Firmware.Frames

/-!
# Candidate access addresses

Every call of `cb_le_promisc` searches 720 places of a buffer of 800 symbols that moves on by 400,
so that no place of the stream is missed, but the places from 32 to 351 of a block are searched
twice, unless the block is the last. `countedOnce_iff` says when every candidate is counted exactly
once, and that the address followed has then been seen at more than three places.
-/

namespace Ubertooth.LowEnergy

open Firmware Foundations

/-! ## The stream -/

/-- Symbol `t` of a stream of blocks. -/
def streamSymbol (stream : ℕ → Block) (t : ℕ) : U8 :=
  (stream (t / blockSymbols)).symbol (t % blockSymbols)

/-- The symbols that pass through the buffer: the block it held before, and the stream. -/
def symbolAt (unpacked : ℕ → U8) (stream : ℕ → Block) (pos : ℕ) : U8 :=
  if pos < blockSymbols then unpacked (pos + blockSymbols)
  else streamSymbol stream (pos - blockSymbols)

/-- The stream comes after the block the buffer held. -/
theorem symbolAt_add (unpacked : ℕ → U8) (stream : ℕ → Block) (t : ℕ) :
    symbolAt unpacked stream (400 + t) = streamSymbol stream t := by
  have hstream : symbolAt unpacked stream (400 + t) = streamSymbol stream (400 + t - 400) :=
    if_neg (show ¬400 + t < 400 by omega)
  rw [hstream, Nat.add_sub_cancel_left]

/-- Eight symbols from `pos` on, the first one lowest. -/
def octetAt (symbol : ℕ → U8) (pos : ℕ) : U8 :=
  (List.range 8).foldl (fun byte k => byte ||| (symbol (pos + k) <<< k)) 0

/-- The 32 symbols before `pos` as an access address. -/
def addressBefore (symbol : ℕ → U8) (pos : ℕ) : U32 :=
  let octet : ℕ → U32 := fun j => (octetAt symbol (pos - 32 + j * 8)).setWidth 32
  (octet 3 <<< 24) ||| (octet 2 <<< 16) ||| (octet 1 <<< 8) ||| octet 0

/-! ## What a search reads -/

variable {channel : U16} {u v : ℕ → U8} {i j : ℕ}

theorem length_of_mem_desired {header : List U8} (h : header ∈ desired channel) :
    header.length = 16 := by
  obtain ⟨plain, hplain, rfl⟩ := List.mem_map.1 h
  have hlength : ∀ plain ∈ emptyHeaders, plain.length = 16 := by decide
  rw [List.length_map, List.length_zipIdx]
  exact hlength plain hplain

theorem startsHeader_iff (channel : U16) (u : ℕ → U8) (i : ℕ) : startsHeader channel u i = true ↔
    ∃ header ∈ desired channel, ∀ x ∈ header.zipIdx, u (i + x.2) = x.1 := by
  simp only [startsHeader, List.any_eq_true, List.all_eq_true, decide_eq_true_eq]

/-- A header is read from 16 symbols. -/
theorem startsHeader_congr (h : ∀ k < 16, u (i + k) = v (j + k)) :
    startsHeader channel u i = startsHeader channel v j := by
  rw [Bool.eq_iff_iff, startsHeader_iff, startsHeader_iff]
  refine exists_congr fun header => and_congr_right fun hmem => forall₂_congr fun x hx => ?_
  have hlt : x.2 < 16 := length_of_mem_desired hmem ▸ List.snd_lt_of_mem_zipIdx hx
  rw [h x.2 hlt]

theorem startsHeader_symbolAt (unpacked : ℕ → U8) (stream : ℕ → Block) (t : ℕ) :
    startsHeader channel (symbolAt unpacked stream) (400 + t) =
      startsHeader channel (streamSymbol stream) t :=
  startsHeader_congr fun k _ => by rw [Nat.add_assoc, symbolAt_add]

theorem addressBefore_symbolAt (unpacked : ℕ → U8) (stream : ℕ → Block) {t : ℕ} (ht : 32 ≤ t) :
    addressBefore (symbolAt unpacked stream) (400 + t) = addressBefore (streamSymbol stream) t := by
  have hoctet : ∀ j, octetAt (symbolAt unpacked stream) (400 + t - 32 + j) =
      octetAt (streamSymbol stream) (t - 32 + j) := by
    intro j
    refine List.foldl_ext _ _ _ fun byte k _ => ?_
    have hplace : 400 + t - 32 + j + k = 400 + (t - 32 + j + k) := by omega
    rw [hplace, symbolAt_add]
  dsimp only [addressBefore]
  rw [hoctet, hoctet, hoctet, hoctet]

/-- An address is read from the 32 symbols before the header. -/
theorem candidateAa_eq (h32 : 32 ≤ i) (hi : i ≤ 2 * blockSymbols) (c : ℕ)
    (h : ∀ k < i, u k = v (c + k)) : candidateAa channel u i = addressBefore v (c + i) := by
  have hoctet : ∀ j < 4, gatherByte channel u i j = octetAt v (c + i - 32 + j * 8) := by
    intro j hj
    refine List.foldl_ext _ _ _ fun byte k hk => ?_
    rw [List.mem_range] at hk
    have hsymbol : u (k + j * 8 + i - 32) = v (c + i - 32 + j * 8 + k) := by
      rw [h _ (by omega)]
      congr 1
      omega
    dsimp only [gatherBit]
    rw [if_neg (by omega), if_neg (by omega), hsymbol]
  dsimp only [candidateAa, addressBefore]
  rw [hoctet 0 (by omega), hoctet 1 (by omega), hoctet 2 (by omega), hoctet 3 (by omega)]

/-! ## `see_aa` counts no address too often -/

def entries (p : LePromiscState) (i : Fin 32) : U32 × ℤ := ((p.entry i).aa, (p.entry i).count)

theorem entry_setEntry (p : LePromiscState) (i j : ℕ) (x : LePromiscActiveAa) (hj : j < 32) :
    (p.setEntry i x).entry j = if i = j then x else p.entry j := by
  unfold LePromiscState.entry LePromiscState.setEntry
  by_cases h : i = j
  · subst h
    simp [hj]
  · simp [h, hj]

/-- It counts an entry up, or replaces one. -/
theorem touches_seeAa (p : LePromiscState) (aa : U32) :
    Touches aa (entries p) (entries (seeAa p aa)) := by
  intro k
  unfold seeAa
  split
  case h_1 i hi =>
    have haa : (p.entry i).aa = aa := by simpa using List.find?_some hi
    unfold entries
    rw [entry_setEntry p i k _ k.isLt]
    split
    case isTrue h => exact Or.inr (Or.inr ⟨h ▸ haa, by rw [← h, haa]⟩)
    case isFalse => exact Or.inl rfl
  case h_2 =>
    unfold entries
    rw [entry_setEntry p p.killme k _ k.isLt]
    split
    · exact Or.inr (Or.inl rfl)
    · exact Or.inl rfl

theorem lePromisc_sendHome (s : Fw) (i : ℕ) : (sendHome channel u s i).channel = s.channel ∧
    (sendHome channel u s i).lePromisc = seeAa s.lePromisc (candidateAa channel u i) := by
  obtain ⟨q, st, h⟩ := enqueueSlot_frame (enqueueWrites .lePacket (candidateBuf channel u i))
    { s with lePromisc := seeAa s.lePromisc (candidateAa channel u i) }
  unfold sendHome enqueue
  rw [h]
  exact ⟨rfl, rfl⟩

/-- A search hands its candidates to `see_aa` in turn. -/
theorem lePromisc_foldl_sendHome (is : List ℕ) (s : Fw) :
    (is.foldl (sendHome channel u) s).channel = s.channel ∧
      (is.foldl (sendHome channel u) s).lePromisc =
        (is.map (candidateAa channel u)).foldl seeAa s.lePromisc := by
  induction is generalizing s with
  | nil => exact ⟨rfl, rfl⟩
  | cons i is ih =>
    obtain ⟨hchannel, hsee⟩ := @lePromisc_sendHome channel u s i
    obtain ⟨hchannel', hsee'⟩ := ih (sendHome channel u s i)
    rw [List.foldl_cons, List.map_cons, List.foldl_cons, ← hsee]
    exact ⟨hchannel'.trans hchannel, hsee'⟩

theorem followAddress_frame (aa : U32) (s : Fw) : (followAddress aa s).channel = s.channel ∧
    (followAddress aa s).lePromisc = s.lePromisc := by
  obtain ⟨q, st, h⟩ := lePromiscState_frame 0 (octetsOf aa 4) { s with
    le := { leSetAccessAddress aa s.le with crcVerify := false }
    packetCb := .promiscFollow }
  unfold followAddress
  rw [h]
  exact ⟨rfl, rfl⟩

/-- A call of `cb_le_promisc`: what it counts, and what it returns. -/
theorem cbLePromisc_spec (u : ℕ → U8) (s : Fw) :
    (cbLePromisc u s).2.channel = s.channel ∧
      (cbLePromisc u s).2.lePromisc = ((candidates s.channel u).map
        (candidateAa s.channel u)).foldl seeAa s.lePromisc ∧
      (cbLePromisc u s).1 = (cbLePromisc u s).2.lePromisc.heard := by
  obtain ⟨hchannel, hsee⟩ := @lePromisc_foldl_sendHome s.channel u (candidates s.channel u) s
  dsimp only [cbLePromisc]
  split
  case h_1 aa haa =>
    obtain ⟨hchannel', hsee'⟩ := followAddress_frame aa
      ((candidates s.channel u).foldl (sendHome s.channel u) s)
    exact ⟨hchannel'.trans hchannel, hsee'.trans hsee, by rw [hsee', haa]⟩
  case h_2 hnone => exact ⟨hchannel, hsee, hnone.symm⟩

/-! ## Call after call -/

/-- `bt_generic_le` takes all of the first `n` blocks: it still listens when each of them arrives.
-/
def Delivered (s : Fw) (unpacked : ℕ → U8) (stream : ℕ → Block) (n : ℕ) : Prop :=
  ∀ m < n, (listenTo s unpacked stream m).heard = none

/-- The state of the loop after `n` blocks: what it has searched, and that it counted no address
more often than it found it. -/
structure Searched (channel : U16) (symbol : ℕ → U8) (n : ℕ) (g : Listening) : Prop where
  blocks : g.blocks = n
  unpacked : ∀ i < 400, g.unpacked (i + 400) = symbol (400 * n + i)
  seen : g.seen = scanned 400 32 752 (startsHeader channel symbol) n
  channel : g.fw.channel = channel
  tally : NeverOver (g.seen.map (addressBefore symbol)) (entries g.fw.lePromisc)
  heard : ∀ aa, g.heard = some aa → 3 < (g.seen.map (addressBefore symbol)).count aa

theorem three_lt_of_heard {p : LePromiscState} {keys : List U32} (h : NeverOver keys (entries p))
    {aa : U32} (haa : p.heard = some aa) : 3 < keys.count aa := by
  obtain ⟨i, hi, rfl⟩ := Option.map_eq_some_iff.1 haa
  have hlt : i < 32 := List.mem_range.1 (List.mem_of_find?_eq_some hi)
  have hcount : 3 < (p.entry i).count := by simpa using List.find?_some hi
  have hover : (p.entry i).count ≤ keys.count (p.entry i).aa := h ⟨i, hlt⟩
  omega

/-- The buffer, with another block. -/
theorem unpack_eq {old : ℕ → U8} {stream : ℕ → Block} {n : ℕ}
    (h : ∀ i < 400, u (i + 400) = symbolAt old stream (400 * n + i)) {i : ℕ} (hi : i < 800) :
    unpack u (stream n) i = symbolAt old stream (400 * n + i) := by
  show (if i < 400 then u (i + 400) else if i < 800 then (stream n).symbol (i - 400) else u i) =
    symbolAt old stream (400 * n + i)
  by_cases hfront : i < 400
  · rw [if_pos hfront]
    exact h i hfront
  · have hdiv : (400 * n + i - 400) / 400 = n := by omega
    have hmod : (400 * n + i - 400) % 400 = i - 400 := by omega
    have hstream : symbolAt old stream (400 * n + i) = streamSymbol stream (400 * n + i - 400) :=
      if_neg (show ¬400 * n + i < 400 by omega)
    rw [if_neg hfront, if_pos hi, hstream, streamSymbol]
    show (stream n).symbol (i - 400) =
      (stream ((400 * n + i - 400) / 400)).symbol ((400 * n + i - 400) % 400)
    rw [hdiv, hmod]

/-- What a search finds, by its place in the stream. -/
theorem map_candidates {symbol : ℕ → U8} {n : ℕ} (h : ∀ i < 800, u i = symbol (400 * n + i)) :
    (candidates channel u).map (400 * n + ·) = found 400 32 752 (startsHeader channel symbol) n :=
  map_filter_range' (400 * n) 720 fun i _ hi => startsHeader_congr fun k hk => by
    rw [h _ (by omega), Nat.add_assoc]

theorem map_candidateAa {symbol : ℕ → U8} {n : ℕ} (h : ∀ i < 800, u i = symbol (400 * n + i)) :
    (candidates channel u).map (candidateAa channel u) =
      ((candidates channel u).map (400 * n + ·)).map (addressBefore symbol) := by
  rw [List.map_map]
  refine List.map_congr_left fun i hi => ?_
  have hrange : 32 ≤ i ∧ i < 752 := List.mem_range'_1.1 (List.mem_filter.1 hi).1
  exact candidateAa_eq hrange.1 (show i ≤ 800 by omega) _ fun k hk => h k (by omega)

/-- A block that is taken. -/
theorem Searched.round {symbol : ℕ → U8} {n : ℕ} {g : Listening} {block : Block}
    (h : Searched channel symbol n g) (hg : g.heard = none)
    (hblock : ∀ i < 800, unpack g.unpacked block i = symbol (400 * n + i)) :
    Searched channel symbol (n + 1) (listenRound block g) := by
  obtain ⟨hchannel, hsee, hheard⟩ := cbLePromisc_spec (unpack g.unpacked block) g.fw
  have hseen : g.seen ++ (candidates channel (unpack g.unpacked block)).map (400 * n + ·) =
      scanned 400 32 752 (startsHeader channel symbol) (n + 1) := by
    rw [h.seen, map_candidates hblock, ← scanned_succ]
  have htally : NeverOver
      ((scanned 400 32 752 (startsHeader channel symbol) (n + 1)).map (addressBefore symbol))
      (entries (cbLePromisc (unpack g.unpacked block) g.fw).2.lePromisc) := by
    rw [hsee, h.channel, ← hseen, List.map_append, ← map_candidateAa hblock]
    exact neverOver_foldl touches_seeAa h.tally _
  have hround : listenRound block g =
      { fw := (cbLePromisc (unpack g.unpacked block) g.fw).2
        unpacked := unpack g.unpacked block
        heard := (cbLePromisc (unpack g.unpacked block) g.fw).1
        blocks := n + 1
        seen := scanned 400 32 752 (startsHeader channel symbol) (n + 1) } := by
    rw [← hseen, ← h.blocks, ← h.channel]
    unfold listenRound
    rw [hg]
    rfl
  rw [hround]
  refine ⟨rfl, fun i hi => ?_, rfl, hchannel.trans h.channel, htally, fun aa haa => ?_⟩
  · show unpack g.unpacked block (i + 400) = symbol (400 * (n + 1) + i)
    rw [hblock _ (by omega)]
    congr 1
    omega
  · exact three_lt_of_heard htally (hheard ▸ haa)

/-- The cache is empty at the beginning. -/
theorem lePromisc_startListening (s : Fw) :
    (startListening s).lePromisc = { smallestHopInterval := 0xffffffff } := by
  have hjump : (jumpToDataChannel (resetLePromisc s)).lePromisc =
      { smallestHopInterval := 0xffffffff } := by
    unfold jumpToDataChannel
    split <;> rfl
  obtain ⟨a, b, h⟩ := csThresholdCalcAndSet_frame (jumpToDataChannel (resetLePromisc s))
  unfold startListening
  rw [h]
  exact hjump

theorem searched_listenTo {s : Fw} {old : ℕ → U8} {stream : ℕ → Block} {n : ℕ}
    (h : Delivered s old stream n) :
    Searched (startListening s).channel (symbolAt old stream) n (listenTo s old stream n) := by
  induction n with
  | zero =>
    refine ⟨rfl, fun i hi => ?_, rfl, rfl, fun i => ?_, fun _ hheard => ?_⟩
    · have hold : symbolAt old stream (400 * 0 + i) = old (400 * 0 + i + 400) :=
        if_pos (show 400 * 0 + i < 400 by omega)
      have hunpacked : (listenTo s old stream 0).unpacked (i + 400) = old (i + 400) := rfl
      rw [hunpacked]
      refine Eq.trans ?_ hold.symm
      rw [Nat.mul_zero, Nat.zero_add]
    · show ((startListening s).lePromisc.entry i).count ≤ 0
      rw [lePromisc_startListening]
      simp [LePromiscState.entry]
    · exact absurd hheard (by simp [listenTo])
  | succ n ih =>
    have hbefore := ih fun m hm => h m (Nat.lt_succ_of_lt hm)
    exact hbefore.round (h n (Nat.lt_succ_self n)) fun i hi => unpack_eq hbefore.unpacked hi

/-! ## Counted once -/

/-- Place `t` of the first `n` blocks starts a whitened header, with an address before it and the
rest of an empty PDU after it. -/
def IsCandidate (channel : U16) (stream : ℕ → Block) (n t : ℕ) : Prop :=
  32 ≤ t ∧ t + 48 < blockSymbols * n ∧ startsHeader channel (streamSymbol stream) t = true

/-- No candidate lies where two searches overlap: in a block that is not the last, at a place from
32 to 351. -/
def OutsideOverlap (channel : U16) (stream : ℕ → Block) (n : ℕ) : Prop :=
  ∀ t, IsCandidate channel stream n t →
    ¬(t / blockSymbols + 1 < n ∧ 32 ≤ t % blockSymbols ∧ t % blockSymbols < 352)

/-- No header starts in the block that the buffer held before, or in the first 32 symbols. -/
def QuietBefore (channel : U16) (unpacked : ℕ → U8) (stream : ℕ → Block) : Prop :=
  ∀ pos, 32 ≤ pos → pos < blockSymbols + 32 →
    startsHeader channel (symbolAt unpacked stream) pos = false

section Counted

variable (s : Fw) (unpacked : ℕ → U8) (stream : ℕ → Block) (n : ℕ)

/-- Every candidate is passed to `see_aa` exactly once. -/
def PassedOnce : Prop :=
  ∀ t, IsCandidate (startListening s).channel stream n t →
    (listenTo s unpacked stream n).seen.count (blockSymbols + t) = 1

/-- The address followed was seen at more than three places, of the stream or of the block before.
-/
def FollowsFourth : Prop :=
  ∀ aa, (listenTo s unpacked stream n).heard = some aa → ∃ places : Finset ℕ, 3 < places.card ∧
    ∀ pos ∈ places, pos ∈ (listenTo s unpacked stream n).seen ∧
      addressBefore (symbolAt unpacked stream) pos = aa

/-- The address followed was seen at more than three places of the stream. -/
def FollowsFourthInStream : Prop :=
  ∀ aa, (listenTo s unpacked stream n).heard = some aa → ∃ places : Finset ℕ, 3 < places.card ∧
    ∀ t ∈ places, IsCandidate (startListening s).channel stream n t ∧
      addressBefore (streamSymbol stream) t = aa

variable {s unpacked stream n}

/-- How often a candidate is passed on. -/
theorem count_seen (hd : Delivered s unpacked stream n) {t : ℕ}
    (ht : IsCandidate (startListening s).channel stream n t) :
    (listenTo s unpacked stream n).seen.count (400 + t) =
      if t / 400 + 1 < n ∧ 32 ≤ t % 400 ∧ t % 400 < 352 then 2 else 1 := by
  obtain ⟨h32, h48, hheader⟩ := ht
  change t + 48 < 400 * n at h48
  have hstarts : startsHeader (startListening s).channel (symbolAt unpacked stream) (400 + t) =
      true := (startsHeader_symbolAt unpacked stream t).trans hheader
  rw [(searched_listenTo hd).seen, count_scanned (by omega), if_pos hstarts,
    covering_eq (by omega) (by omega) (by omega) (by omega)]
  split_ifs <;> omega

theorem passedOnce_iff (hd : Delivered s unpacked stream n) : PassedOnce s unpacked stream n ↔
    OutsideOverlap (startListening s).channel stream n := by
  refine forall₂_congr fun t ht => ?_
  show (listenTo s unpacked stream n).seen.count (400 + t) = 1 ↔ ¬(_ ∧ 32 ≤ t % 400 ∧ t % 400 < 352)
  rw [count_seen hd ht]
  split
  case isTrue h => exact iff_of_false (by omega) (not_not.2 h)
  case isFalse h => exact iff_of_true rfl h

/-- Outside the overlap no place at all is passed on twice. -/
theorem nodup_seen (hd : Delivered s unpacked stream n)
    (h : OutsideOverlap (startListening s).channel stream n) :
    (listenTo s unpacked stream n).seen.Nodup := by
  rw [List.nodup_iff_count_le_one]
  intro pos
  by_contra htwice
  rw [not_le, (searched_listenTo hd).seen, count_scanned (by omega)] at htwice
  split at htwice
  case isFalse => exact absurd htwice (by omega)
  case isTrue hstarts =>
    rw [covering_eq (by omega) (by omega) (by omega) (by omega)] at htwice
    -- both windows hold the place
    obtain ⟨hfirst, hsecond⟩ : (pos / 400 < n ∧ 32 ≤ pos % 400) ∧ 1 ≤ pos / 400 ∧
        pos % 400 < 352 := by
      split_ifs at htwice <;> omega
    obtain ⟨t, rfl⟩ := Nat.exists_eq_add_of_le (show 400 ≤ pos by omega)
    have hheader := (startsHeader_symbolAt unpacked stream t).symm.trans hstarts
    refine h t ⟨by omega, show t + 48 < 400 * n by omega, hheader⟩ ?_
    show t / 400 + 1 < n ∧ 32 ≤ t % 400 ∧ t % 400 < 352
    omega

/-- An address that is followed was passed on more than three times. -/
theorem exists_places (hd : Delivered s unpacked stream n) {aa : U32}
    (hnodup : (listenTo s unpacked stream n).seen.Nodup)
    (haa : (listenTo s unpacked stream n).heard = some aa) : ∃ places : Finset ℕ,
      3 < places.card ∧ ∀ pos ∈ places, pos ∈ (listenTo s unpacked stream n).seen ∧
        addressBefore (symbolAt unpacked stream) pos = aa := by
  have hheard := (searched_listenTo hd).heard aa haa
  refine ⟨((listenTo s unpacked stream n).seen.filter fun pos =>
    addressBefore (symbolAt unpacked stream) pos == aa).toFinset, ?_, fun pos hpos => ?_⟩
  · rw [List.toFinset_card_of_nodup (hnodup.filter _), ← List.countP_eq_length_filter]
    rwa [List.count, List.countP_map] at hheard
  · rw [List.mem_toFinset, List.mem_filter, beq_iff_eq] at hpos
    exact hpos

/-- After quiet, what was passed on is a candidate of the stream. -/
theorem candidate_of_mem_seen (hd : Delivered s unpacked stream n)
    (hquiet : QuietBefore (startListening s).channel unpacked stream) {pos : ℕ}
    (h : pos ∈ (listenTo s unpacked stream n).seen) :
    400 ≤ pos ∧ IsCandidate (startListening s).channel stream n (pos - 400) := by
  rw [← List.count_pos_iff, (searched_listenTo hd).seen, count_scanned (by omega)] at h
  split at h
  case isFalse => exact absurd h (by omega)
  case isTrue hstarts =>
    rw [covering_eq (by omega) (by omega) (by omega) (by omega)] at h
    have h32 : 32 ≤ pos := by split_ifs at h <;> omega
    have h432 : 400 + 32 ≤ pos := by
      by_contra hlt
      exact absurd hstarts (by rw [hquiet pos h32 (not_le.1 hlt)]; decide)
    obtain ⟨t, rfl⟩ := Nat.exists_eq_add_of_le (show 400 ≤ pos by omega)
    rw [Nat.add_sub_cancel_left]
    refine ⟨by omega, by omega, ?_, (startsHeader_symbolAt unpacked stream t).symm.trans hstarts⟩
    show t + 48 < 400 * n
    split_ifs at h <;> omega

/-- After quiet, the places of the address followed are all of the stream. -/
theorem followsFourthInStream (hd : Delivered s unpacked stream n)
    (hquiet : QuietBefore (startListening s).channel unpacked stream)
    (hnodup : (listenTo s unpacked stream n).seen.Nodup) :
    FollowsFourthInStream s unpacked stream n := by
  intro aa haa
  obtain ⟨places, hcard, hplaces⟩ := exists_places hd hnodup haa
  have hcandidate := fun pos hpos => candidate_of_mem_seen hd hquiet (hplaces pos hpos).1
  have hinj : Set.InjOn (· - 400) (places : Set ℕ) := by
    intro x hx y hy hxy
    have h1 := (hcandidate x hx).1
    have h2 := (hcandidate y hy).1
    dsimp only at hxy
    omega
  refine ⟨places.image (· - 400), by rwa [Finset.card_image_of_injOn hinj], fun t ht => ?_⟩
  obtain ⟨pos, hpos, rfl⟩ := Finset.mem_image.1 ht
  obtain ⟨h400, hstream⟩ := hcandidate pos hpos
  have hplace : 400 + (pos - 400) = pos := Nat.add_sub_of_le h400
  refine ⟨hstream, ?_⟩
  rw [← addressBefore_symbolAt unpacked stream hstream.1, hplace, (hplaces pos hpos).2]

end Counted

/-- **Candidates are counted once.** For every stream of blocks that are taken and whatever the
buffer held before it, every candidate is passed on exactly once and the address followed was seen
at more than three places exactly if no candidate lies where two searches overlap. The places are
all of the stream if no header starts before it, or in its first 32 symbols. -/
theorem countedOnce_iff {s : Fw} {unpacked : ℕ → U8} {stream : ℕ → Block} {n : ℕ}
    (hd : Delivered s unpacked stream n) :
    (PassedOnce s unpacked stream n ∧ FollowsFourth s unpacked stream n ↔
      OutsideOverlap (startListening s).channel stream n) ∧
    (QuietBefore (startListening s).channel unpacked stream →
      (PassedOnce s unpacked stream n ∧ FollowsFourthInStream s unpacked stream n ↔
        OutsideOverlap (startListening s).channel stream n)) := by
  have honce := passedOnce_iff hd
  refine ⟨⟨fun h => honce.1 h.1, fun h => ⟨honce.2 h, fun aa haa => ?_⟩⟩, fun hquiet =>
    ⟨fun h => honce.1 h.1, fun h => ⟨honce.2 h, ?_⟩⟩⟩
  · exact exists_places hd (nodup_seen hd h) haa
  · exact followsFourthInStream hd hquiet (nodup_seen hd h)

/-- An empty PDU of address `0xaaaaaaaa` from octet `o` of a block on; the other symbols are 1. -/
def emptyPduBlock (o : ℕ) : Block := fun j =>
  if j = o + 4 then 0x18 else if j = o + 5 then 0x36 else if o ≤ j ∧ j < o + 4 then 0x55 else 0xff

/-- Two blocks with an empty PDU that starts late are searched. -/
theorem countedOnce_iff_late : PassedOnce {} (fun _ => 1) (fun _ => emptyPduBlock 41) 2 ∧
    FollowsFourth {} (fun _ => 1) (fun _ => emptyPduBlock 41) 2 := by
  have hdelivered : ∀ m < 2,
      (listenTo {} (fun _ => 1) (fun _ => emptyPduBlock 41) m).heard = none := by
    decide +kernel
  have hfound : ∀ t < 800, startsHeader (startListening {}).channel
      (streamSymbol fun _ => emptyPduBlock 41) t = true → t = 360 ∨ t = 760 := by
    decide +kernel
  refine (countedOnce_iff hdelivered).1.2 fun t ht => ?_
  obtain ⟨-, h48, hheader⟩ := ht
  obtain rfl | rfl := hfound t (show t < 800 by change t + 48 < 400 * 2 at h48; omega) hheader
  all_goals decide

/-- Two empty PDUs that start early, and nothing more. -/
def heardTwice : ℕ → Block := fun q => if q < 2 then emptyPduBlock 9 else fun _ => 0xff

theorem delivered_heardTwice : Delivered {} (fun _ => 1) heardTwice 3 := by
  have h : ∀ m < 3, (listenTo {} (fun _ => 1) heardTwice m).heard = none := by
    decide +kernel
  exact h

/-- An address that is seen twice is counted four times, and followed. -/
theorem not_countedOnce_heardTwice : Delivered {} (fun _ => 1) heardTwice 3 ∧
    ¬PassedOnce {} (fun _ => 1) heardTwice 3 ∧
      ¬FollowsFourthInStream {} (fun _ => 1) heardTwice 3 := by
  have hfound : ∀ t < 1200, startsHeader (startListening {}).channel (streamSymbol heardTwice) t =
      true → t = 104 ∨ t = 504 := by
    decide +kernel
  refine ⟨delivered_heardTwice, fun honce => ?_, fun hfollows => ?_⟩
  · have hcandidate : IsCandidate (startListening {}).channel heardTwice 3 104 :=
      ⟨by decide, by decide, by decide +kernel⟩
    exact absurd ⟨by decide, by decide, by decide⟩
      ((passedOnce_iff delivered_heardTwice).1 honce 104 hcandidate)
  · obtain ⟨places, hcard, hplaces⟩ := hfollows 0xaaaaaaaa (by decide +kernel)
    have hsub : places ⊆ {104, 504} := fun t ht => by
      obtain ⟨⟨-, h48, hheader⟩, -⟩ := hplaces t ht
      have h := hfound t (show t < 1200 by change t + 48 < 400 * 3 at h48; omega) hheader
      simpa using h
    have hle := Finset.card_le_card hsub
    have htwo : ({104, 504} : Finset ℕ).card = 2 := by decide
    omega

end Ubertooth.LowEnergy
