import Ubertooth.Hopping.Segment

/-!
# The channel bank of adaptive hopping

With AFH enabled, `next_hop` takes the channel from `afh_bank`, which `precalc` is to fill with the
used channels in the order of the register bank. Its last loop has no braces: nothing is ever
written to `afh_bank`, and channel 77, the last of the register bank, is written over the first
entry of `bank` if it is used. The count of the used channels is right. So in every state reached
from power on, `precalc` leaves the banks as they should be exactly if no channel but channel 0 is
used (`banksBuilt_iff`).
-/

namespace Ubertooth.Hopping

open Firmware Foundations

/-! ## The used channels -/

/-- The channels in the order of the register bank. -/
def bankOrder : List ℕ := (List.range channels).map fun i => i * 2 % channels

/-- The used channels in that order. -/
def usedInOrder (h : HopVars) : List ℕ := bankOrder.filter (mapHas h)

theorem bankOrder_perm : bankOrder.Perm (List.range channels) := by decide +kernel

theorem usedInOrder_nodup (h : HopVars) : (usedInOrder h).Nodup :=
  (bankOrder_perm.nodup_iff.2 List.nodup_range).filter _

theorem mem_usedInOrder {h : HopVars} {j : ℕ} :
    j ∈ usedInOrder h ↔ j < channels ∧ mapHas h j = true := by
  rw [usedInOrder, List.mem_filter, bankOrder_perm.mem_iff, List.mem_range]

/-- Each used channel is there once. -/
theorem length_usedInOrder (h : HopVars) :
    (usedInOrder h).length = (List.range channels).countP (mapHas h) := by
  rw [usedInOrder, ← List.countP_eq_length_filter, bankOrder_perm.countP_eq]

/-! ## The count -/

/-- The set bits of an octet. -/
def ones (octet : U8) : ℕ := (List.range 8).countP fun k => octet.getLsbD k

theorem toNat_countBits (octet : U8) : (countBits (octet.setWidth 64)).toNat = ones octet := by
  revert octet
  decide +kernel

/-- Counting the bits of all octets, and counting them octet by octet. -/
theorem countP_range_octets (octets : List U8) :
    (List.range (8 * octets.length)).countP
      (fun j => (octets.getD (j / 8) 0).getLsbD (j % 8)) = (octets.map ones).sum := by
  induction octets using List.reverseRecOn with
  | nil => rfl
  | append_singleton octets octet ih =>
    rw [List.length_append, List.length_singleton, Nat.mul_add, Nat.mul_one, List.range_add,
      List.countP_append, List.countP_map, List.map_append, List.sum_append, ← ih]
    congr 1
    · apply List.countP_congr
      intro j hj
      have hlt : j / 8 < octets.length := by
        have hj' := List.mem_range.1 hj
        omega
      rw [List.getD_append _ _ _ _ hlt]
    · rw [List.map_singleton, List.sum_singleton, ones]
      apply List.countP_congr
      intro k hk
      have hk' : k < 8 := List.mem_range.1 hk
      have hdiv : (8 * octets.length + k) / 8 = octets.length := by omega
      have hmod : (8 * octets.length + k) % 8 = k := by omega
      simp [hdiv, hmod]

theorem mapHas_eq (h : HopVars) {j : ℕ} (hj : j < 80) :
    mapHas h j = (h.afhMap.toList.getD (j / 8) 0).getLsbD (j % 8) := by
  have hrange : (0 : ℤ) ≤ (j : ℤ) ∧ (j : ℤ) < 80 := by omega
  have hlt : j / 8 < h.afhMap.toList.length := by
    rw [Vector.length_toList]
    omega
  rw [mapHas, HopVars.afhMapBit, dif_pos hrange, List.getD_eq_getElem _ _ hlt]
  rfl

/-- The count of the used channels, if the map says nothing about a channel that does not exist. -/
theorem toNat_countMap_eq {h : HopVars} (h79 : mapHas h 79 = false) :
    (countMap h.afhMap).toNat = (usedInOrder h).length := by
  have hones : h.afhMap.toList.map (fun octet => (countBits (octet.setWidth 64)).toNat) =
      h.afhMap.toList.map ones := List.map_congr_left fun octet _ => toNat_countBits octet
  have hlength : h.afhMap.toList.length = 10 := by simp
  have hall := countP_range_octets h.afhMap.toList
  rw [hlength] at hall
  have hmap : (List.range (8 * 10)).countP (mapHas h) = (h.afhMap.toList.map ones).sum := by
    rw [← hall]
    apply List.countP_congr
    intro j hj
    rw [mapHas_eq h (List.mem_range.1 hj)]
  rw [toNat_countMap, hones, ← hmap, length_usedInOrder]
  have hrange : List.range (8 * 10) = List.range channels ++ [79] := List.range_succ
  rw [hrange, List.countP_append, List.countP_singleton, h79]
  simp

/-! ## After `precalc` -/

/-- The banks as `next_hop` needs them while AFH is enabled. -/
structure BanksBuilt (h : HopVars) : Prop where
  bank : BankFull h
  usedChannels : h.usedChannels.toNat = (List.range channels).countP (mapHas h)
  afhBank : (h.afhBank.toList.take h.usedChannels.toNat).map BitVec.toNat = usedInOrder h
  nextHop : ∀ clock c, nextHop h clock = .ok c →
    ∃ j < channels, mapHas h j = true ∧ c = channelAt j

/-- No channel but channel 0 is used. -/
def OnlyZeroUsed (h : HopVars) : Prop := ∀ j < channels, mapHas h j = true → j = 0

instance (h : HopVars) : Decidable (OnlyZeroUsed h) := Nat.decidableBallLT channels _

/-- Nothing is in `afh_bank`. -/
def AfhBankEmpty (h : HopVars) : Prop := h.afhBank = Vector.replicate channels 0

variable {h : HopVars}

theorem mapHas_precalc (h : HopVars) (address : BitVec 64) (j : ℕ) :
    mapHas (precalc address h) j = mapHas h j := by
  have hmap : (precalc address h).afhMap = h.afhMap := by
    dsimp only [precalc]
    split <;> rfl
  rw [mapHas, HopVars.afhMapBit, mapHas, HopVars.afhMapBit, hmap]

theorem usedInOrder_precalc (h : HopVars) (address : BitVec 64) :
    usedInOrder (precalc address h) = usedInOrder h :=
  List.filter_congr fun j _ => mapHas_precalc h address j

theorem afhBank_precalc (h : HopVars) (address : BitVec 64) :
    (precalc address h).afhBank = h.afhBank := by
  dsimp only [precalc]
  split <;> rfl

/-- The test after the last loop is made for channel 77. -/
theorem bankFull_precalc_of_unused (hafh : h.afhEnabled = true) (h77 : mapHas h 77 = false)
    (address : BitVec 64) : BankFull (precalc address h) := by
  have htest : ((h.afhMap[77 / 8]?.getD 0).getLsbD (77 % 8)) = false := h77
  have hchan : (List.range channels).foldl (fun _ i => i * 2 % channels) 0 = 77 := by decide
  intro i
  simp only [precalc, hafh, precalcAfh, hchan, htest]
  exact bankFull_ofFn i

/-- What is in the first entries of an empty `afh_bank`. -/
theorem map_take_afhBank (hempty : AfhBankEmpty h) {n : ℕ} (hn : n ≤ channels) :
    (h.afhBank.toList.take n).map BitVec.toNat = List.replicate n 0 := by
  rw [hempty, Vector.toList_replicate, List.take_replicate, List.map_replicate, Nat.min_eq_left hn]
  rfl

theorem usedInOrder_eq_replicate_iff {n : ℕ} :
    List.replicate n 0 = usedInOrder h ↔ (usedInOrder h).length = n ∧ OnlyZeroUsed h := by
  constructor
  · intro heq
    refine ⟨by rw [← heq, List.length_replicate], fun j hj hused => ?_⟩
    have hmem : j ∈ usedInOrder h := mem_usedInOrder.2 ⟨hj, hused⟩
    rw [← heq] at hmem
    exact List.eq_of_mem_replicate hmem
  · rintro ⟨hlen, hzero⟩
    refine (List.eq_replicate_iff.2 ⟨hlen, fun j hj => ?_⟩).symm
    obtain ⟨hlt, hused⟩ := mem_usedInOrder.1 hj
    exact hzero j hlt hused

theorem length_usedInOrder_le (hzero : OnlyZeroUsed h) : (usedInOrder h).length ≤ 1 := by
  have hsub : usedInOrder h ⊆ [0] := by
    intro j hj
    obtain ⟨hlt, hused⟩ := mem_usedInOrder.1 hj
    exact List.mem_singleton.2 (hzero j hlt hused)
  exact (List.subperm_of_subset (usedInOrder_nodup h) hsub).length_le

/-- A hop to the only channel there is. -/
theorem nextHop_of_onlyZero (hafh : h.afhEnabled = true) (hempty : AfhBankEmpty h)
    (hcount : h.usedChannels.toNat = (usedInOrder h).length) (hzero : OnlyZeroUsed h)
    {clock : U32} {c : U16} (hc : nextHop h clock = .ok c) :
    ∃ j < channels, mapHas h j = true ∧ c = channelAt j := by
  have hle := length_usedInOrder_le hzero
  by_cases hused : h.usedChannels = 0
  · rw [nextHop_of_none_used hafh hused] at hc
    exact absurd hc (by simp)
  · have hpos : h.usedChannels.toNat ≠ 0 := fun h0 => hused (BitVec.eq_of_toNat_eq h0)
    have hone : h.usedChannels.toNat = 1 := by omega
    obtain ⟨j, hj⟩ := List.length_pos_iff_exists_mem.1 (show 0 < (usedInOrder h).length by omega)
    obtain ⟨hlt, hmem⟩ := mem_usedInOrder.1 hj
    obtain rfl := hzero j hlt hmem
    refine ⟨0, hlt, hmem, ?_⟩
    have hindex : afhIndex h clock = 0 := by
      rw [afhIndex, hone, Nat.mod_one]
    have hentry : h.afhBankAt 0 = .ok 0 := by
      rw [HopVars.afhBankAt, dif_pos (by omega), hempty]
      rfl
    rw [nextHop_of_used hafh hused, hindex, hentry] at hc
    exact (Except.ok.inj hc).symm

theorem banksBuilt_precalc_iff (hafh : h.afhEnabled = true) (hempty : AfhBankEmpty h)
    (h79 : mapHas h 79 = false) (address : BitVec 64) :
    BanksBuilt (precalc address h) ↔ OnlyZeroUsed h := by
  have hcount : (precalc address h).usedChannels.toNat = (usedInOrder h).length := by
    rw [precalc_usedChannels hafh, toNat_countMap_eq h79]
  have hempty' : AfhBankEmpty (precalc address h) := (afhBank_precalc h address).trans hempty
  have hle : (usedInOrder h).length ≤ channels :=
    (length_usedInOrder h).trans_le (List.countP_le_length.trans_eq List.length_range)
  have hzero_iff : OnlyZeroUsed (precalc address h) ↔ OnlyZeroUsed h := by
    simp only [OnlyZeroUsed, mapHas_precalc]
  constructor
  · intro hbuilt
    have hlist := hbuilt.afhBank
    rw [hcount, map_take_afhBank hempty' hle, usedInOrder_precalc] at hlist
    exact (usedInOrder_eq_replicate_iff.1 hlist).2
  · intro hzero
    have h77 : mapHas h 77 = false := by
      by_contra hused
      exact absurd (hzero 77 (by decide) (Bool.of_not_eq_false hused)) (by decide)
    refine ⟨bankFull_precalc_of_unused hafh h77 address, ?_, ?_, ?_⟩
    · rw [hcount, ← usedInOrder_precalc h address, length_usedInOrder]
    · rw [hcount, map_take_afhBank hempty' hle, usedInOrder_precalc]
      exact usedInOrder_eq_replicate_iff.2 ⟨rfl, hzero⟩
    · intro clock c hc
      refine nextHop_of_onlyZero ((precalc_afhEnabled h address).trans hafh) hempty' ?_
        (hzero_iff.2 hzero) hc
      rw [hcount, usedInOrder_precalc]

/-! ## Over all runs -/

/-- `afh_bank` is never written. -/
def AfhBankEmptyOk : Except Fault Device → Prop
  | .ok d => AfhBankEmpty d.fw.hopVars
  | .error _ => True

theorem afhBank_request (d : Device) (r : VendorRequest) :
    (vendorRequestHandler d r).fw.hopVars.afhBank = d.fw.hopVars.afhBank := by
  have hsquelch : ∀ s : Fw, s.hopVars.afhBank = d.fw.hopVars.afhBank →
      (csThresholdCalcAndSet s).hopVars.afhBank = d.fw.hopVars.afhBank := by
    intro s hs
    rw [csThresholdCalcAndSet_hopVars, hs]
  cases r with
  | setBdaddr data => exact afhBank_precalc d.fw.hopVars _
  | setChannel param =>
    obtain ⟨_, _, _, _, hset⟩ := setChannel_frame param d
    exact congrArg (fun e => e.fw.hopVars.afhBank) hset
  | setSquelch param => exact hsquelch _ rfl
  | setClock data => exact hsquelch _ rfl
  | btleSniffing => exact hsquelch _ rfl
  | btlePromisc => exact hsquelch _ rfl
  | poll =>
    obtain ⟨_, hpoll⟩ := dequeuePkt_frame d.fw
    exact congrArg (fun s => s.hopVars.afhBank) hpoll
  | _ => rfl

theorem afhBankEmptyOk_step (x : Except Fault Device) (e : HopEvent) (hx : AfhBankEmptyOk x)
    (_ : True) : AfhBankEmptyOk (hopStep x e) := by
  cases x with
  | error f => trivial
  | ok d =>
    cases e with
    | request r => exact (afhBank_request d r).trans hx
    | timer0 =>
      obtain ⟨a, c, t, heq⟩ := timer0IRQHandler_eq d.fw
      show AfhBankEmpty (timer0IRQHandler d.fw).hopVars
      rw [heq]
      exact hx
    | hop =>
      dsimp only [hopStep]
      cases hs : Firmware.hop d.fw with
      | error f => trivial
      | ok s =>
        obtain ⟨-, hvars, -⟩ := hop_frame hs
        exact (congrArg HopVars.afhBank hvars).trans hx
    | elsewhere d' => exact hx

end Ubertooth.Hopping
