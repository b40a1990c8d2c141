import Ubertooth.Usb.VendorRequests

/-!
# What the host can write and read

Requests have a store of `vendorReqSize` octets for their data, and say themselves how long it is.

* `vendorOut_inside_iff`: the data of a vendor request stays in the store exactly if the host has
  not announced more than the store holds.
* `reply_discloses_iff`: how many of the octets that memory held before a request go to the host.
-/

namespace Ubertooth.Usb

open Foundations Firmware

variable {ρ : Type} (build : Build) (board : Board ρ) (layout : UsbLayout)

/-! ## Data of the host -/

/-- The handler stores nothing outside its store. -/
theorem keeps_vendor {a : ℤ}
    (ha : ¬(layout.abVendorReqData ≤ a ∧ a < layout.abVendorReqData + vendorReqSize)) :
    Keeps (ubertoothUsbInit build board layout) reqtypeTypeVendor a := by
  intro h hh pSetup piLen memory app
  obtain rfl : usbVendorRequestHandler build board = h := Option.some_inj.1 hh
  rw [show (ubertoothUsbInit build board layout).apbDataStore reqtypeTypeVendor =
    layout.abVendorReqData from rfl]
  have hlength := (vendorRequest_answers build board pSetup.bRequest (pSetup.wValue, pSetup.wIndex)
    (fun i => memory (layout.abVendorReqData + i)) app).length_stored
  refine storedAt_of_not fun hin => ha ⟨hin.1, hin.2.trans_le ?_⟩
  exact Int.add_le_add_left (Int.ofNat_le.2 hlength) _

/-- **The host writes where it may, if it announces what it may.** The packets after the setup
packet of a vendor request, in whatever order their interrupts are handled, change nothing outside
the store, if and only if they were announced to fit in it. -/
theorem vendorOut_inside_iff (hlayout : 0 < layout.abVendorReqData)
    (p : ControlPipe (VendorState ρ)) {packet : SetupPacket}
    (htype : reqtypeGetType packet.bmRequestType = reqtypeTypeVendor)
    (hdir : reqtypeGetDir packet.bmRequestType ≠ reqtypeDirToHost) (hlen : packet.wLength ≠ 0) :
    (∀ es : List EpInterrupt, (∀ e ∈ es, ∀ packet, e ≠ .setup packet) →
      ∀ a, ¬(layout.abVendorReqData ≤ a ∧ a < layout.abVendorReqData + vendorReqSize) →
        (run (usbHandleControlTransfer (ubertoothUsbInit build board layout)) p
          (.setup (some packet.octets) :: es)).memory a = p.memory a) ↔
      packet.wLength.toNat ≤ vendorReqSize := by
  obtain ⟨q, hq⟩ : ∃ q, q = setupRequest (ubertoothUsbInit build board layout) p
    (some packet.octets) := ⟨_, rfl⟩
  have hsetup := hq.trans (setupRequest_vendor build board layout p htype)
  have hiff := @controlOut_inside_iff _ (ubertoothUsbInit build board layout) q p _ vendorReqSize
    hq (by rw [hsetup]; exact hlen) (by rw [hsetup]; exact hdir) (by rw [hsetup]; exact hlayout)
    (by
      intro a ha
      rw [hsetup] at ha ⊢
      rw [htype]
      exact keeps_vendor build board layout ha)
  rw [hsetup] at hiff
  exact hiff

/-- A host that announces one octet more than the store has changes the octet after it. -/
theorem vendorOut_inside_iff_full :
    (∀ es : List EpInterrupt, (∀ e ∈ es, ∀ packet, e ≠ .setup packet) →
      ∀ a : ℤ, ¬(0x200 ≤ a ∧ a < 0x200 + vendorReqSize) →
        (run (usbHandleControlTransfer (ubertoothUsbInit {} quietBoard sampleLayout)) pipeOn
          (.setup (some (⟨0x40, UsbCommand.ping.toU8, 0, 0, 259⟩ : SetupPacket).octets) ::
            es)).memory a = pipeOn.memory a) ↔ 259 ≤ vendorReqSize :=
  vendorOut_inside_iff {} quietBoard sampleLayout (by decide) pipeOn (by decide) (by decide)
    (by decide)

/-! ## Replies -/

/-- What a command says about the length of its reply: nothing, a number, or how much it has
stored. -/
inductive LengthTold
  | left
  | counted (n : ℕ)
  | stored
  deriving DecidableEq

def lengthTold : UsbCommand → LengthTold
  | .ping | .rxSymbols | .setIsp | .specan | .ledSpecan | .btleSniffing | .btlePromisc => .counted 0
  | .setAfhmap | .clearAfhmap => .counted 10
  | .getUsrled | .getRxled | .getTxled | .get1v8 | .getChannel | .getSerial | .getPartnum
  | .getPaen | .getHgm | .getMod | .getPalevel | .rangeCheck | .getRevNum | .getBoardId
  | .getSquelch | .getClock | .getAccessAddress | .doSomethingReply | .getCrcVerify | .poll
  | .readRegister | .getCompileInfo => .stored
  | _ => .left

/-- How many octets of what memory held at the store go to a host that asks for `wLength`. -/
def heldSent (c : UsbCommand) (wLength : U16) : ℕ :=
  match lengthTold c with
  | .left => wLength.toNat
  | .counted n => min n wLength.toNat
  | .stored => 0

theorem heldSent_le (c : UsbCommand) (wLength : U16) : heldSent c wLength ≤ wLength.toNat := by
  rw [heldSent]
  split
  · exact le_rfl
  · exact min_le_right _ _
  · exact Nat.zero_le _

variable {build board}

/-- What a command that is not refused stores, whatever its data. -/
theorem vendorRequest_lengthTold {c : UsbCommand} {params : U16 × U16} {s : VendorState ρ}
    {data : ℕ → U8} (hrv : (vendorRequest build board c.toU8 params data s).rv = true) :
    let r := vendorRequest build board c.toU8 params data s
    match lengthTold c with
    | .left => r.stored = [] ∧ r.dataLen = none
    | .counted n => r.stored = [] ∧ r.dataLen = some ↑n
    | .stored => r.dataLen = some ↑r.stored.length := by
  rw [vendorRequest, UsbCommand.ofU8_toU8] at hrv ⊢
  cases c
  all_goals first
    | exact ⟨rfl, rfl⟩
    | exact rfl
    | cases hrv
    | (dsimp only at hrv ⊢; split_ifs at hrv ⊢ <;> first | exact ⟨rfl, rfl⟩ | exact rfl | cases hrv)

variable (build board) in
/-- The data of a request has no part in its reply. -/
theorem reply_vendorRequest (c : UsbCommand) (params : U16 × U16) (s : VendorState ρ)
    (data data' : ℕ → U8) :
    let r := vendorRequest build board c.toU8 params data s
    let r' := vendorRequest build board c.toU8 params data' s
    r.rv = r'.rv ∧ r.stored = r'.stored ∧ r.dataLen = r'.dataLen := by
  intro r r'
  rw [show r = vendorRequest build board c.toU8 params data s from rfl,
    show r' = vendorRequest build board c.toU8 params data' s from rfl, vendorRequest,
    vendorRequest, UsbCommand.ofU8_toU8]
  cases c <;> exact ⟨rfl, rfl, rfl⟩

section Reply

variable {c : UsbCommand} {params : U16 × U16} {s : VendorState ρ} {data : ℕ → U8}
  (hrv : (vendorRequest build board c.toU8 params data s).rv = true) (wLength : U16)

include hrv

/-- A command that stores nothing sends what was there. -/
theorem replyOctets_held (hc : lengthTold c ≠ .stored) (held : ℕ → U8) :
    replyOctets (vendorRequest build board c.toU8 params held s) wLength held =
      (List.range (heldSent c wLength)).map held := by
  have htold := vendorRequest_lengthTold
    ((reply_vendorRequest build board c params s held data).1.trans hrv)
  rw [replyOctets, heldSent]
  generalize vendorRequest build board c.toU8 params held s = r at htold
  revert htold hc
  cases lengthTold c with
  | left =>
    rintro - ⟨hstored, hlen⟩
    rw [hlen, hstored, Option.getD_none, min_self, Int.toNat_natCast]
    rfl
  | counted n =>
    rintro - ⟨hstored, hlen⟩
    rw [hlen, hstored, Option.getD_some, ← Nat.cast_min, Int.toNat_natCast]
    rfl
  | stored => exact fun hc => absurd rfl hc

/-- A command that stores its reply sends nothing else. -/
theorem replyOctets_stored (hc : lengthTold c = .stored) (held : ℕ → U8) :
    replyOctets (vendorRequest build board c.toU8 params held s) wLength held =
      (vendorRequest build board c.toU8 params data s).stored.take wLength.toNat := by
  obtain ⟨hrv', hstored, -⟩ :=
    reply_vendorRequest build board c params s held data
  have htold := vendorRequest_lengthTold (hrv'.trans hrv)
  rw [hc] at htold
  rw [← hstored, replyOctets]
  generalize vendorRequest build board c.toU8 params held s = r at htold
  rw [htold, Option.getD_some, ← Nat.cast_min, Int.toNat_natCast]
  apply List.ext_getElem
  · simp [min_comm]
  · intro i hi _
    rw [List.length_map, List.length_range] at hi
    have hi' : i < r.stored.length := hi.trans_le (min_le_left _ _)
    rw [List.getElem_map, List.getElem_range, List.getD_eq_getElem _ _ hi', List.getElem_take]

/-- What the host gets depends on no more of what memory held than is sent of it. -/
theorem replyOctets_eq {held held' : ℕ → U8} (hheld : ∀ i < heldSent c wLength, held i = held' i) :
    replyOctets (vendorRequest build board c.toU8 params held s) wLength held =
      replyOctets (vendorRequest build board c.toU8 params held' s) wLength held' := by
  by_cases hc : lengthTold c = .stored
  · rw [replyOctets_stored hrv wLength hc, replyOctets_stored hrv wLength hc]
  · rw [replyOctets_held hrv wLength hc, replyOctets_held hrv wLength hc]
    exact List.map_congr_left fun i hi => hheld i (List.mem_range.1 hi)

end Reply

/-- **What a reply discloses.** The first `n` octets that memory held at the store are all of the
memory that the host can learn of by a command, if and only if no more are sent. -/
theorem reply_discloses_iff (hlayout : 0 < layout.abVendorReqData) {c : UsbCommand}
    {wValue wIndex wLength : U16} {s : VendorState ρ} {data : ℕ → U8}
    (hrv : (vendorRequest build board c.toU8 (wValue, wIndex) data s).rv = true) (n : ℕ) :
    (∀ p q : ControlPipe (VendorState ρ), p.app = s → q.app = s → p.told = q.told →
      (∀ i : ℕ, i < n →
        p.memory (layout.abVendorReqData + i) = q.memory (layout.abVendorReqData + i)) →
      ∀ is : List EpInterrupt, (∀ e ∈ is, e = .inn ∨ e = .out (some [])) →
        (run (usbHandleControlTransfer (ubertoothUsbInit build board layout)) p
          (setupIn c.toU8 wValue wIndex wLength :: is)).told =
        (run (usbHandleControlTransfer (ubertoothUsbInit build board layout)) q
          (setupIn c.toU8 wValue wIndex wLength :: is)).told) ↔
      heldSent c wLength ≤ n := by
  have htold : ∀ p : ControlPipe (VendorState ρ), p.app = s →
      ∀ is : List EpInterrupt, (∀ e ∈ is, e = .inn ∨ e = .out (some [])) →
        (run (usbHandleControlTransfer (ubertoothUsbInit build board layout)) p
          (setupIn c.toU8 wValue wIndex wLength :: is)).told = p.told ++
          (packets maxPacketSize0 (replyOctets (vendorRequest build board c.toU8 (wValue, wIndex)
            (fun i => p.memory (layout.abVendorReqData + i)) s) wLength
            fun i => p.memory (layout.abVendorReqData + i)) (is.count .inn + 1)).map .write := by
    rintro p rfl is his
    exact ((vendorIn_handled build board layout p hlayout
      ⟨ctrlIn, c.toU8, wValue, wIndex, wLength⟩ reqtypeGetType_ctrlIn reqtypeGetDir_ctrlIn c.toU8_ne
      his).2.1 ((reply_vendorRequest build board c _ _ _ data).1.trans hrv)).1
  constructor
  · intro h
    by_contra hmore
    -- memories that differ in the first octet that is sent and not among the `n`
    have hc : lengthTold c ≠ .stored := fun hc => hmore (by rw [heldSent, hc]; exact Nat.zero_le n)
    let other : ℤ → U8 := fun a => if a = layout.abVendorReqData + n then 1 else 0
    have hsame := h { memory := fun _ => 0, app := s } { memory := other, app := s } rfl rfl rfl
      (fun i hi => (if_neg (by omega)).symm) (List.replicate wLength.toNat .inn)
      fun e he => .inl (List.eq_of_mem_replicate he)
    rw [htold _ rfl _ fun e he => .inl (List.eq_of_mem_replicate he),
      htold _ rfl _ fun e he => .inl (List.eq_of_mem_replicate he), List.append_cancel_left_eq,
      List.map_inj_right fun _ _ => EpCommand.write.inj] at hsame
    have hreply := congrArg List.flatten hsame
    have hlength := heldSent_le c wLength
    rw [flatten_packets, flatten_packets, replyOctets_held hrv wLength hc,
      replyOctets_held hrv wLength hc, List.count_replicate_self,
      List.take_of_length_le (by simp [maxPacketSize0]; omega),
      List.take_of_length_le (by simp [maxPacketSize0]; omega)] at hreply
    have hoctet := List.map_inj_left.1 hreply n (List.mem_range.2 (not_le.1 hmore))
    exact absurd (hoctet.trans (if_pos rfl)) (show (0 : U8) ≠ 1 by decide)
  · intro hle p q hp hq hpq hagree is his
    rw [htold p hp is his, htold q hq is his, hpq,
      replyOctets_eq hrv wLength fun i hi => hagree i (hi.trans_le hle)]

/-- A host that asks `UBERTOOTH_SET_AFHMAP` for 64 octets gets ten that were there. -/
theorem reply_discloses_iff_setAfhmap :
    let x := usbHandleControlTransfer (ubertoothUsbInit {} quietBoard sampleLayout)
    (∀ p q : ControlPipe (VendorState Unit), p.app = pipeOn.app → q.app = pipeOn.app →
      p.told = q.told →
      (∀ i : ℕ, i < 10 → p.memory (0x200 + i) = q.memory (0x200 + i)) →
      ∀ is : List EpInterrupt, (∀ e ∈ is, e = .inn ∨ e = .out (some [])) →
        (run x p (setupIn UsbCommand.setAfhmap.toU8 0 0 64 :: is)).told =
          (run x q (setupIn UsbCommand.setAfhmap.toU8 0 0 64 :: is)).told) ↔
      heldSent .setAfhmap 64 ≤ 10 :=
  @reply_discloses_iff Unit {} quietBoard sampleLayout (by decide) .setAfhmap 0 0 64 pipeOn.app
    (fun _ => 0) rfl 10

end Ubertooth.Usb
