import Ubertooth.Host.Callback

/-!
# The signal level

`determine_signal_and_noise` takes the maximum over a history of ten entries for each channel, the
unfilled ones included. Of these only the first of channel 0 is the least value there is; the others
are 0, so that a channel whose packets are all below 0 is reported too strong until it has had ten
of them (`signal_iff`).
-/

namespace Ubertooth.Host

/-! ## What is asked -/

/-- The RSSI maxima of the packets on a channel, in order. -/
def maximaOn (c : Fin numBredrChannels) (rxs : List BredrPkt) : List U8 :=
  (rxs.filter fun rx => rx.channel = c).map fun rx => rx.val.rssiMax

/-- The last ten of them, or all. -/
def recentMaxima (c : Fin numBredrChannels) (rxs : List BredrPkt) : List U8 :=
  (maximaOn c rxs).drop ((maximaOn c rxs).length - rssiHistoryLen)

/-- The history after a sequence of packets. -/
def historyAfter (rxs : List BredrPkt) : RssiHistory :=
  rxs.foldl (fun history rx => (determineSignalAndNoise rx history).2) initialHistory

/-- The signal for a packet after others. -/
def signalAfter (rxs : List BredrPkt) (rx : BredrPkt) : U8 :=
  (determineSignalAndNoise rx (historyAfter rxs)).1.1

/-- The level of the greatest of some maxima. -/
def IsLevelOf (recent : List U8) (level : U8) : Prop :=
  ∃ v ∈ recent, (∀ w ∈ recent, w.toInt ≤ v.toInt) ∧ level = cc2400RssiToDbm v

/-! ## The history -/

/-- The entries of a channel, the oldest first. -/
def window (history : Fin rssiHistoryLen → U8) : List U8 := List.ofFn history

theorem window_shiftHistory (history : Fin rssiHistoryLen → U8) (v : U8) :
    window (shiftHistory history v) = (window history).tail ++ [v] := rfl

theorem length_window (history : Fin rssiHistoryLen → U8) : (window history).length = 10 :=
  List.length_ofFn

/-- The history, with one packet more. -/
theorem historyAfter_concat (rxs : List BredrPkt) (rx : BredrPkt) :
    historyAfter (rxs ++ [rx]) = Function.update (historyAfter rxs) rx.channel
      (shiftHistory (historyAfter rxs rx.channel) rx.val.rssiMax) := by
  rw [historyAfter, List.foldl_append]
  rfl

theorem maximaOn_concat (c : Fin numBredrChannels) (rxs : List BredrPkt) (rx : BredrPkt) :
    maximaOn c (rxs ++ [rx]) =
      maximaOn c rxs ++ if rx.channel = c then [rx.val.rssiMax] else [] := by
  unfold maximaOn
  rw [List.filter_append, List.map_append]
  by_cases hc : rx.channel = c <;> simp [hc]

/-- After some packets the window has moved on by as many as were on the channel. -/
theorem window_historyAfter (c : Fin numBredrChannels) (rxs : List BredrPkt) :
    window (historyAfter rxs c) =
      (window (initialHistory c) ++ maximaOn c rxs).drop (maximaOn c rxs).length := by
  induction rxs using List.reverseRecOn with
  | nil => simp [historyAfter, maximaOn]
  | append_singleton rxs rx ih =>
    rw [historyAfter_concat, maximaOn_concat]
    by_cases hc : rx.channel = c
    · have hlength : (maximaOn c rxs).length + 1 ≤
          (window (initialHistory c) ++ maximaOn c rxs).length := by
        rw [List.length_append, length_window]
        omega
      rw [hc, Function.update_self, window_shiftHistory, ih, List.tail_drop, if_pos rfl,
        List.length_append, List.length_singleton, ← List.append_assoc,
        List.drop_append_of_le_length hlength]
    · rw [Function.update_of_ne (Ne.symm hc), ih, if_neg hc, List.append_nil]

/-- All entries but one are 0 at first. -/
theorem tail_window_initialHistory (c : Fin numBredrChannels) :
    (window (initialHistory c)).tail = List.replicate 9 0 := by
  have hentry : ∀ i : Fin 9, initialHistory c i.succ = 0 := fun i => by simp [initialHistory]
  have htail : (window (initialHistory c)).tail =
      List.ofFn fun i : Fin 9 => initialHistory c i.succ := by
    rw [window, List.ofFn_succ, List.tail_cons]
  rw [htail, funext hentry, List.ofFn_const]

/-- What a packet is measured by: the last ten values of its channel, after zeros where there are
fewer. -/
theorem window_after_packet (rxs : List BredrPkt) (rx : BredrPkt) :
    window (historyAfter (rxs ++ [rx]) rx.channel) =
      List.replicate (10 - (maximaOn rx.channel (rxs ++ [rx])).length) 0 ++
        recentMaxima rx.channel (rxs ++ [rx]) := by
  obtain ⟨n, hn⟩ : ∃ n, (maximaOn rx.channel (rxs ++ [rx])).length = n + 1 := by
    rw [maximaOn_concat, if_pos rfl, List.length_append, List.length_singleton]
    exact ⟨_, rfl⟩
  have hinitial : (window (initialHistory rx.channel)).drop (n + 1) = List.replicate (9 - n) 0 := by
    rw [← List.drop_tail, tail_window_initialHistory, List.drop_replicate]
  have hsub : 10 - (n + 1) = 9 - n := by omega
  rw [window_historyAfter, recentMaxima, hn, List.drop_append, length_window, hinitial, hsub]

/-! ## The maximum -/

theorem max8_cases (a b : U8) : (max8 a b = a ∨ max8 a b = b) ∧ a.toInt ≤ (max8 a b).toInt ∧
    b.toInt ≤ (max8 a b).toInt := by
  unfold max8
  split_ifs with h
  · exact ⟨.inl rfl, le_rfl, h.le⟩
  · exact ⟨.inr rfl, not_lt.1 h, le_rfl⟩

/-- The greatest of some values, the first of them given. -/
theorem foldl_max8 (a : U8) (l : List U8) : l.foldl max8 a ∈ a :: l ∧
    ∀ w ∈ a :: l, w.toInt ≤ (l.foldl max8 a).toInt := by
  induction l generalizing a with
  | nil => simp
  | cons b l ih =>
    obtain ⟨hcases, ha, hb⟩ := max8_cases a b
    obtain ⟨hmem, hmax⟩ := ih (max8 a b)
    rw [List.foldl_cons]
    have hle := hmax _ List.mem_cons_self
    constructor
    · obtain heq | hl := List.mem_cons.1 hmem
      · rw [heq]
        obtain hcase | hcase := hcases <;> simp [hcase]
      · exact List.mem_cons_of_mem _ (List.mem_cons_of_mem _ hl)
    · intro w hw
      obtain rfl | hw := List.mem_cons.1 hw
      · exact ha.trans hle
      obtain rfl | hw := List.mem_cons.1 hw
      · exact hb.trans hle
      · exact hmax w (List.mem_cons_of_mem _ hw)

theorem historyMax_spec (history : Fin rssiHistoryLen → U8) : historyMax history ∈ window history ∧
    ∀ w ∈ window history, w.toInt ≤ (historyMax history).toInt := by
  have hmax : historyMax history = (window history).tail.foldl max8 (history 0) := rfl
  have hwindow : window history = history 0 :: (window history).tail := rfl
  rw [hmax, hwindow, List.tail_cons]
  exact foldl_max8 _ _

/-- No value below 0 has the level of 0. -/
theorem level_ne_of_neg : ∀ v : U8, v.toInt < 0 → cc2400RssiToDbm v ≠ cc2400RssiToDbm 0 := by
  decide +kernel

/-- The level of the greatest entry is that of the greatest recent value, unless zeros are left and
all recent values are below 0. -/
theorem isLevelOf_iff {history : Fin rssiHistoryLen → U8} {n : ℕ} {recent : List U8}
    (h : window history = List.replicate n 0 ++ recent) :
    IsLevelOf recent (cc2400RssiToDbm (historyMax history)) ↔
      n = 0 ∨ ∃ v ∈ recent, 0 ≤ v.toInt := by
  obtain ⟨hmem, hmax⟩ := historyMax_spec history
  rw [h, List.mem_append, List.mem_replicate] at hmem
  rw [h] at hmax
  have hrecent : ∀ w ∈ recent, w.toInt ≤ (historyMax history).toInt :=
    fun w hw => hmax w (List.mem_append_right _ hw)
  constructor
  · rintro ⟨v, hv, -, hlevel⟩
    by_contra hnot
    push Not at hnot
    obtain ⟨hn, hneg⟩ := hnot
    have hzero : 0 ≤ (historyMax history).toInt :=
      hmax 0 (List.mem_append_left _ (List.mem_replicate.2 ⟨hn, rfl⟩))
    obtain ⟨-, heq⟩ | hin := hmem
    · rw [heq] at hlevel
      exact level_ne_of_neg v (hneg v hv) hlevel.symm
    · exact absurd (hneg _ hin) (not_lt.2 hzero)
  · intro hcases
    have hin : historyMax history ∈ recent := by
      obtain ⟨hn, heq⟩ | hin := hmem
      · obtain hzero | ⟨v, hv, hpos⟩ := hcases
        · exact absurd hzero hn
        · have hle := hrecent v hv
          rw [heq] at hle ⊢
          have hv0 : v = 0 := BitVec.eq_of_toInt_eq (le_antisymm hle hpos)
          exact hv0 ▸ hv
      · exact hin
    exact ⟨historyMax history, hin, hrecent, rfl⟩

/-! ## The signal -/

/-- The level of a packet is what its callers call signal. -/
theorem signalAfter_eq (rxs : List BredrPkt) (rx : BredrPkt) : signalAfter rxs rx =
    cc2400RssiToDbm (historyMax (historyAfter (rxs ++ [rx]) rx.channel)) := by
  rw [historyAfter_concat, Function.update_self, signalAfter, determineSignalAndNoise]

/-- **The signal level.** For every sequence of packets on any of the channels, the signal of the
packet received last is the level of the greatest of the last ten maxima on its channel exactly if
there have been ten, or one of them is not below 0; and packets on other channels do not affect
it. -/
theorem signal_iff (rxs : List BredrPkt) (rx : BredrPkt) :
    (IsLevelOf (recentMaxima rx.channel (rxs ++ [rx])) (signalAfter rxs rx) ↔
      10 ≤ (maximaOn rx.channel (rxs ++ [rx])).length ∨
        ∃ v ∈ recentMaxima rx.channel (rxs ++ [rx]), 0 ≤ v.toInt) ∧
    ∀ rxs', maximaOn rx.channel rxs' = maximaOn rx.channel rxs →
      signalAfter rxs' rx = signalAfter rxs rx := by
  constructor
  · have hlevel := isLevelOf_iff (window_after_packet rxs rx)
    rw [Nat.sub_eq_zero_iff_le] at hlevel
    rw [signalAfter_eq]
    exact hlevel
  · intro rxs' h
    have hwindow : window (historyAfter (rxs' ++ [rx]) rx.channel) =
        window (historyAfter (rxs ++ [rx]) rx.channel) := by
      rw [window_historyAfter, window_historyAfter, maximaOn_concat, maximaOn_concat, h]
    rw [signalAfter_eq, signalAfter_eq, List.ofFn_injective hwindow]

/-- A packet on channel 39, and one on channel 40. -/
def packetAt (rssiMax : U8) : BredrPkt :=
  ⟨{ channel := 39, rssiMax := rssiMax }, show 39 < 79 by omega⟩

def packetBeside : BredrPkt := ⟨{ channel := 40, rssiMax := 20 }, by decide⟩

/-- A first packet at 5, with one on the next channel before it or not. -/
theorem signal_iff_first : IsLevelOf (recentMaxima 39 [packetAt 5]) (signalAfter [] (packetAt 5)) ∧
    signalAfter [packetBeside] (packetAt 5) = signalAfter [] (packetAt 5) := by
  obtain ⟨hlevel, hothers⟩ := signal_iff [] (packetAt 5)
  exact ⟨hlevel.2 (Or.inr ⟨5, by decide +kernel, by decide⟩), hothers _ (by decide +kernel)⟩

/-- A first packet at -50 is reported at the level of 0. -/
theorem not_isLevelOf_first :
    signalAfter [] (packetAt (-50)) = -55 ∧ cc2400RssiToDbm (-50) = -120 ∧
      ¬∀ rxs rx, IsLevelOf (recentMaxima rx.channel (rxs ++ [rx])) (signalAfter rxs rx) := by
  have hsignal : signalAfter [] (packetAt (-50)) = -55 := by decide +kernel
  refine ⟨hsignal, by decide +kernel, fun hall => ?_⟩
  obtain ⟨v, hv, -, hlevel⟩ := hall [] (packetAt (-50))
  have hrecent : recentMaxima (packetAt (-50)).channel ([] ++ [packetAt (-50)]) = [-50] := by
    decide +kernel
  rw [hrecent, List.mem_singleton] at hv
  rw [hsignal, hv] at hlevel
  exact absurd hlevel (by decide +kernel)

end Ubertooth.Host
