import Ubertooth.Host.RecentChannels

/-!
# The channel octet as a subscript

The channel octet of a packet comes from the wire or from a file. Three callbacks compare it with
the channels before they subscript `rssi_history` with it; the two of the AFH monitor subscript
`last_seen` with what they get. So nothing outside the tables is touched in a run exactly if the
matching packets that the AFH monitor handles are on one of the channels (`along_inTable_iff`).
-/

namespace Ubertooth.Host

open Foundations

/-- The tables of the callbacks, and the piconet. -/
structure Tables (κ : Type*) (w : ℕ) where
  history : RssiHistory := initialHistory
  monitor : AfhStatics w := {}
  r : AfhStatics w := {}
  pn : κ

/-- The callbacks that have a table. -/
inductive Callback
  | brRx
  | btle (offenses : UsbPktRx → ℕ) (allowed : Option ℕ)
  | rx
  | afhMonitor
  | afhR

section Calls

variable {κ : Type*} {w : ℕ} (lib : AfhBtbb κ) (packetCounterMax : U32)

/-- A callback on a ring buffer: how it uses the tables, and the tables after it. -/
def Callback.call (x : Tables κ w) (rb : Ringbuffer) : Callback → List TableUse × Tables κ w
  | brRx =>
    let o := cbBrRxHistory rb x.history
    (o.1, { x with history := o.2 })
  | btle offenses allowed =>
    let o := cbBtleHistory offenses allowed rb x.history
    (o.1, { x with history := o.2 })
  | rx =>
    let o := cbRxHistory rb x.history
    (o.1, { x with history := o.2 })
  | afhMonitor =>
    let o := cbAfhMonitor lib packetCounterMax rb x.monitor x.pn
    (o.uses, { x with monitor := o.statics, pn := o.pn })
  | afhR =>
    let o := cbAfhR lib packetCounterMax rb x.r x.pn
    (o.uses, { x with r := o.statics, pn := o.pn })

/-- The tables after a call. -/
def callStep (x : Tables κ w) (c : Callback × Ringbuffer) : Tables κ w :=
  (c.1.call lib packetCounterMax x c.2).2

/-- A call subscripts the tables with channels only. -/
def InTable (x : Tables κ w) (c : Callback × Ringbuffer) : Prop :=
  ∀ use ∈ (c.1.call lib packetCounterMax x c.2).1, use.channel.toNat ≤ 78

/-- A matching packet for the AFH monitor is on one of the channels. -/
def OnChannel (x : Tables κ w) (c : Callback × Ringbuffer) : Prop :=
  match c.1 with
  | .afhMonitor | .afhR => Matching lib x.pn c.2 → c.2.topUsb.channel.toNat ≤ 78
  | _ => True

variable {lib packetCounterMax}

/-! ## A call -/

/-- Behind the check the subscript is a channel. -/
theorem channel_le_of_mem_useHistory {rx : UsbPktRx} {history : RssiHistory} {use : TableUse}
    (hcheck : ¬numBredrChannels - 1 < rx.channel.toNat) (h : use ∈ (useHistory rx history).1) :
    use.channel.toNat ≤ 78 := by
  rw [useHistory, List.mem_singleton] at h
  rw [h]
  exact not_lt.1 hcheck

theorem inTable_brRx (x : Tables κ w) (rb : Ringbuffer) :
    InTable lib packetCounterMax x (.brRx, rb) := by
  intro use h
  simp only [Callback.call, cbBrRxHistory] at h
  split at h
  case isTrue => simp at h
  case isFalse hcheck => exact channel_le_of_mem_useHistory hcheck h

theorem inTable_btle (offenses : UsbPktRx → ℕ) (allowed : Option ℕ) (x : Tables κ w)
    (rb : Ringbuffer) : InTable lib packetCounterMax x (.btle offenses allowed, rb) := by
  intro use h
  simp only [Callback.call, cbBtleHistory] at h
  split at h
  case isTrue => simp at h
  case isFalse =>
    split at h
    case isTrue => simp at h
    case isFalse hcheck =>
      split at h
      case isTrue => simp at h
      case isFalse => exact channel_le_of_mem_useHistory hcheck h

theorem inTable_rx (x : Tables κ w) (rb : Ringbuffer) :
    InTable lib packetCounterMax x (.rx, rb) := by
  intro use h
  simp only [Callback.call, cbRxHistory] at h
  split at h
  case isTrue => simp at h
  case isFalse =>
    split at h
    case isTrue => simp at h
    case isFalse hcheck => exact channel_le_of_mem_useHistory hcheck h

/-- Every matching packet is a use of `last_seen`. -/
theorem uses_cbAfh (report : Bool) (rb : Ringbuffer) (x : AfhStatics w) (pn : κ) :
    (cbAfh lib report packetCounterMax rb x pn).uses =
      if Matching lib pn rb then [.lastSeen rb.topUsb.channel] else [] := by
  rw [cbAfh]
  by_cases h : Matching lib pn rb
  · rw [if_neg (not_not.2 h), if_pos h]
  · rw [if_pos h, if_neg h]

theorem forall_uses_cbAfh_iff (report : Bool) (rb : Ringbuffer) (x : AfhStatics w) (pn : κ) :
    (∀ use ∈ (cbAfh lib report packetCounterMax rb x pn).uses, use.channel.toNat ≤ 78) ↔
      (Matching lib pn rb → rb.topUsb.channel.toNat ≤ 78) := by
  rw [uses_cbAfh]
  by_cases h : Matching lib pn rb
  · simp [h, TableUse.channel]
  · simp [h]

/-- A call stays in the tables exactly if the AFH monitor is given a channel. -/
theorem inTable_iff (x : Tables κ w) (c : Callback × Ringbuffer) :
    InTable lib packetCounterMax x c ↔ OnChannel lib x c := by
  obtain ⟨callback, rb⟩ := c
  cases callback with
  | brRx => exact iff_of_true (inTable_brRx x rb) trivial
  | btle offenses allowed => exact iff_of_true (inTable_btle offenses allowed x rb) trivial
  | rx => exact iff_of_true (inTable_rx x rb) trivial
  | afhMonitor => exact forall_uses_cbAfh_iff true rb x.monitor x.pn
  | afhR => exact forall_uses_cbAfh_iff false rb x.r x.pn

/-! ## A run -/

/-- **The channel octet** is a subscript of a table in every call of a run exactly if the AFH
monitor is given matching packets on the channels only. -/
theorem along_inTable_iff (lib : AfhBtbb κ) (packetCounterMax : U32) (x : Tables κ w)
    (cs : List (Callback × Ringbuffer)) :
    Along (callStep lib packetCounterMax) (InTable lib packetCounterMax) x cs ↔
      Along (callStep lib packetCounterMax) (OnChannel lib) x cs :=
  along_congr inTable_iff

end Calls

/-- A packet with the channel octet 255 that carries the access code. -/
def packetOutside : Ringbuffer := bufferOf { inquiryPacket with channel := 255 }

theorem matching_packetOutside : Matching mapBtbb (fun _ => false) packetOutside := by
  decide +kernel

theorem not_along_inTable : ¬Along (callStep mapBtbb 1) (InTable mapBtbb 1)
    ({ pn := fun _ => false } : Tables (U8 → Bool) 64) [(.afhMonitor, packetOutside)] := by
  rintro ⟨h, -⟩
  have hle : packetOutside.topUsb.channel.toNat ≤ 78 :=
    (inTable_iff _ (.afhMonitor, packetOutside)).1 h matching_packetOutside
  rw [packetOutside, bufferOf, Ringbuffer.topUsb_add] at hle
  revert hle
  decide

end Ubertooth.Host
