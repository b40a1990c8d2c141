import Ubertooth.Firmware.Rangetest
import Ubertooth.Foundations.Runs

/-!
# The range test over the air

Any number of devices test their range and repeat packets. The air loses what it likes, and a device
hears only while it listens, one channel below the one that is transmitted on.

* `rangetest_sound`: a result that says it is valid is about a request of this test, and about the
  packet that was heard, at the levels that they really were transmitted at.
* `rangetest_counts_losses`: between one device and one repeater, the result is the number of
  packets that were lost each way.
-/

namespace Ubertooth.Radio

open Foundations Firmware

variable {ι : Type}

/-! ## The air -/

/-- A packet that has been transmitted, and who has received it. -/
structure Transmission (ι : Type) where
  sender : ι
  frend : U16
  packet : RangePacket
  received : ι → Bool

structure RangeNetwork (ι : Type) where
  device : ι → RangeDevice
  log : List (Transmission ι) := []

inductive RangeEvent (ι : Type)
  | rangetest (d : ι)
  | repeater (d : ι)
  /-- the host changes `channel` -/
  | tune (d : ι) (channel : U16)
  /-- a device transmits its next packet; `heard` is where it gets through -/
  | transmit (d : ι) (heard : ι → Bool)

section Air

variable [DecidableEq ι]

/-- Whether a device receives what `d` transmits. -/
def gets (x : RangeNetwork ι) (d : ι) (heard : ι → Bool) (e : ι) : Bool :=
  heard e && e ≠ d && (x.device e).listens && (x.device e).fsdiv + 1 = (x.device d).fsdiv

def rangeStep (x : RangeNetwork ι) : RangeEvent ι → RangeNetwork ι
  | .rangetest d =>
    if (x.device d).place = .off then
      { x with device := Function.update x.device d (x.device d).cc2400Rangetest }
    else x
  | .repeater d =>
    if (x.device d).place = .off then
      { x with device := Function.update x.device d (x.device d).cc2400Repeater }
    else x
  | .tune d channel =>
    { x with device := Function.update x.device d { x.device d with channel := channel } }
  | .transmit d heard =>
    match (x.device d).onAir with
    | none => x
    | some (frend, packet) =>
      { device := fun e =>
          if e = d then (x.device d).sent
          else if gets x d heard e then (x.device e).receive packet
          else x.device e
        log := x.log ++ [⟨d, frend, packet, gets x d heard⟩] }

end Air

/-- The level that `FREND` sets. -/
def level (frend : U16) : U8 := (frend &&& 7).setWidth 8

theorem level_frend (pa : Fin 8) : level (8 ||| BitVec.ofNat 16 pa) = BitVec.ofNat 8 pa := by
  revert pa
  decide

/-! ## What is valid -/

/-- The serial number in a packet is `s`. -/
def Carries (s : Fin 16 → U8) (p : RangePacket) : Prop := ∀ j : Fin 16, p (j + 2) = s j

theorem eq_of_foldl_mismatch {differs : ℕ → Prop} [DecidablePred differs] (n : ℕ) (hn : n ≤ 18)
    (h : (List.range n).foldl (fun valid i => if differs i then BitVec.ofNat 8 (2 + i) else valid)
      (1 : U8) = 1) : ∀ i < n, ¬differs i := by
  induction n with
  | zero => exact fun i hi => absurd hi (Nat.not_lt_zero i)
  | succ n ih =>
    rw [List.range_succ, List.foldl_append, List.foldl_cons, List.foldl_nil] at h
    have hlast : BitVec.ofNat 8 (2 + n) ≠ 1 := by
      rw [ne_eq, ← BitVec.toNat_inj, BitVec.toNat_ofNat, Nat.mod_eq_of_lt (by omega)]
      show ¬2 + n = 1
      omega
    split_ifs at h with hdiffers
    · exact absurd h hlast
    · intro i hi
      rcases Nat.lt_succ_iff_lt_or_eq.1 hi with hi | rfl
      · exact ih (by omega) h i hi
      · exact hdiffers

/-- A packet that is found valid is as expected, up to the levels and numbers. -/
theorem eq_of_rangeValid {rxbuf txbuf : RangePacket} (h : rangeValid rxbuf txbuf = 1) {i : ℕ}
    (hi : i < 18) : rxbuf i = txbuf i :=
  not_not.1 (eq_of_foldl_mismatch 18 le_rfl h i hi)

theorem rangeValid_of_eq {rxbuf txbuf : RangePacket} (h : ∀ i < 18, rxbuf i = txbuf i) :
    rangeValid rxbuf txbuf = 1 := by
  have hkept : ∀ n ≤ 18, (List.range n).foldl (fun valid i =>
      if rxbuf i ≠ txbuf i then BitVec.ofNat 8 (2 + i) else valid) (1 : U8) = 1 := by
    intro n hn
    induction n with
    | zero => rfl
    | succ n ih =>
      rw [List.range_succ, List.foldl_append, ih (by omega), List.foldl_cons, List.foldl_nil,
        if_neg (not_not.2 (h n hn))]
  exact hkept 18 le_rfl

/-! ## Where packets come from -/

section Sound

variable (t : ι) (s : Fin 16 → U8)

/-- A repeater has received the request that a packet says it repeats. -/
def Requested (log : List (Transmission ι)) (p : RangePacket) : Prop :=
  ∃ request ∈ log, request.sender = t ∧ (∃ r, request.received r = true) ∧
    p 18 = level request.frend ∧ p 19 = request.packet 19

/-- What a device has measured: a request of its own that has been received, and a packet of another
device that it has received. -/
def Measured (log : List (Transmission ι)) (rr : RangetestResult) : Prop :=
  (∃ request ∈ log, request.sender = t ∧ (∃ r, request.received r = true) ∧
    rr.requestPa = level request.frend ∧ rr.requestNum = request.packet 19) ∧
  ∃ reply ∈ log, reply.sender ≠ t ∧ reply.received t = true ∧
    rr.replyPa = level reply.frend ∧ rr.replyNum = reply.packet 21

/-- What holds of a device of the network, as far as a test of `t`, with the serial number `s`,
goes. -/
structure DeviceSound (log : List (Transmission ι)) (d : ι) (v : RangeDevice) : Prop where
  serial : serialOctets v.result = s ↔ d = t
  requesting : ∀ pa i, v.place = .requesting pa i → Carries (serialOctets v.result) v.buf
  replying : ∀ pa i, v.place = .replying pa i → d ≠ t ∧ (Carries s v.buf → Requested t log v.buf)

/-- What holds of the device that tests its range. -/
structure TesterSound (log : List (Transmission ι)) (v : RangeDevice) : Prop where
  role : v.place ≠ .repeating
  awaiting : v.place = .awaiting → Carries s v.buf
  finished : v.place = .off → v.rr.valid = 1 → Measured t log v.rr

structure RangeSound (x : RangeNetwork ι) : Prop where
  device : ∀ d, DeviceSound t s x.log d (x.device d)
  tester : TesterSound t s x.log (x.device t)

variable {t s}

theorem Carries.update {p : RangePacket} {k : ℕ} (hk : k < 2 ∨ 18 ≤ k) (v : U8) :
    Carries s (Function.update p k v) ↔ Carries s p := by
  refine forall_congr' fun j => ?_
  rw [Function.update_of_ne]
  omega

theorem carries_requestBuf (result : Vector U32 5) :
    Carries (serialOctets result) (requestBuf result) := by
  intro j
  rw [requestBuf, if_neg (by omega), if_neg (by omega), if_pos (by omega), Nat.add_sub_cancel]
  rfl

theorem Requested.append {log : List (Transmission ι)} {p : RangePacket}
    (h : Requested t log p) (more : List (Transmission ι)) : Requested t (log ++ more) p := by
  obtain ⟨request, hmem, hrest⟩ := h
  exact ⟨request, List.mem_append_left _ hmem, hrest⟩

theorem Measured.append {log : List (Transmission ι)} {rr : RangetestResult}
    (h : Measured t log rr) (more : List (Transmission ι)) : Measured t (log ++ more) rr := by
  obtain ⟨⟨request, hrequest, h⟩, reply, hreply, h'⟩ := h
  exact ⟨⟨request, List.mem_append_left _ hrequest, h⟩, reply, List.mem_append_left _ hreply, h'⟩

theorem onAir_cases {d : RangeDevice} {frend : U16} {packet : RangePacket}
    (h : d.onAir = some (frend, packet)) :
    (∃ pa i, d.place = .requesting pa i ∧ frend = 8 ||| BitVec.ofNat 16 pa ∧
        packet = d.requestPacket pa i) ∨
      ∃ pa i, d.place = .replying pa i ∧ frend = 8 ||| BitVec.ofNat 16 pa ∧
        packet = d.replyPacket pa i := by
  rw [RangeDevice.onAir] at h
  split at h
  · rename_i pa i hplace
    cases h
    exact .inl ⟨pa, i, hplace, rfl, rfl⟩
  · rename_i pa i hplace
    cases h
    exact .inr ⟨pa, i, hplace, rfl, rfl⟩
  · cases h

theorem carries_requestPacket (d : RangeDevice) (pa : Fin 8) (i : Fin 16) :
    Carries s (d.requestPacket pa i) ↔ Carries s d.buf :=
  (Carries.update (.inr (by decide)) _).trans (Carries.update (.inr (by decide)) _)

theorem carries_replyPacket (d : RangeDevice) (pa : Fin 8) (i : Fin 16) :
    Carries s (d.replyPacket pa i) ↔ Carries s d.buf :=
  (Carries.update (.inr (by decide)) _).trans (Carries.update (.inr (by decide)) _)

theorem sent_requesting {d : RangeDevice} {pa : Fin 8} {i : Fin 16}
    (h : d.place = .requesting pa i) :
    (nextPacket pa i = none ∧ d.sent = { d with
        buf := d.requestPacket pa i, fsdiv := d.channel - 1, place := .awaiting }) ∨
      ∃ pa' i', nextPacket pa i = some (pa', i') ∧ d.sent = { d with
        buf := d.requestPacket pa i, place := .requesting pa' i' } := by
  cases hnext : nextPacket pa i with
  | none => exact .inl ⟨rfl, by simp only [RangeDevice.sent, h, hnext]⟩
  | some next => exact .inr ⟨next.1, next.2, rfl, by simp only [RangeDevice.sent, h, hnext]⟩

theorem sent_replying {d : RangeDevice} {pa : Fin 8} {i : Fin 16} (h : d.place = .replying pa i) :
    (nextPacket pa i = none ∧ d.sent = { d with
        buf := d.replyPacket pa i, fsdiv := d.channel - 1, place := .repeating }) ∨
      ∃ pa' i', nextPacket pa i = some (pa', i') ∧ d.sent = { d with
        buf := d.replyPacket pa i, place := .replying pa' i' } := by
  cases hnext : nextPacket pa i with
  | none => exact .inl ⟨rfl, by simp only [RangeDevice.sent, h, hnext]⟩
  | some next => exact .inr ⟨next.1, next.2, rfl, by simp only [RangeDevice.sent, h, hnext]⟩

/-- The device after it has transmitted. -/
theorem sent_cases {d : RangeDevice} {frend : U16} {packet : RangePacket}
    (h : d.onAir = some (frend, packet)) :
    d.sent.result = d.result ∧ d.sent.rr = d.rr ∧ d.sent.buf = packet ∧
      ((∃ pa i, d.place = .requesting pa i ∧ packet = d.requestPacket pa i ∧
          (d.sent.place = .awaiting ∨ ∃ pa' i', d.sent.place = .requesting pa' i')) ∨
        ∃ pa i, d.place = .replying pa i ∧ packet = d.replyPacket pa i ∧
          (d.sent.place = .repeating ∨ ∃ pa' i', d.sent.place = .replying pa' i')) := by
  rcases onAir_cases h with ⟨pa, i, hplace, -, rfl⟩ | ⟨pa, i, hplace, -, rfl⟩
  · rcases sent_requesting hplace with ⟨-, h⟩ | ⟨_, _, -, h⟩ <;> rw [h]
    · exact ⟨rfl, rfl, rfl, .inl ⟨pa, i, hplace, rfl, .inl rfl⟩⟩
    · exact ⟨rfl, rfl, rfl, .inl ⟨pa, i, hplace, rfl, .inr ⟨_, _, rfl⟩⟩⟩
  · rcases sent_replying hplace with ⟨-, h⟩ | ⟨_, _, -, h⟩ <;> rw [h]
    · exact ⟨rfl, rfl, rfl, .inr ⟨pa, i, hplace, rfl, .inl rfl⟩⟩
    · exact ⟨rfl, rfl, rfl, .inr ⟨pa, i, hplace, rfl, .inr ⟨_, _, rfl⟩⟩⟩

variable {x : RangeNetwork ι}

/-- A packet that gets through and carries the serial number repeats a request that has got
through. -/
theorem requested_onAir (hx : RangeSound t s x) {d e : ι} {frend : U16} {packet : RangePacket}
    (h : (x.device d).onAir = some (frend, packet)) {received : ι → Bool}
    (he : received e = true) (hcarries : Carries s packet) :
    Requested t (x.log ++ [⟨d, frend, packet, received⟩]) packet := by
  rcases onAir_cases h with ⟨pa, i, hplace, rfl, rfl⟩ | ⟨pa, i, hplace, rfl, rfl⟩
  · have hown := (hx.device d).requesting pa i hplace
    have hserial : serialOctets (x.device d).result = s := by
      funext j
      rw [← hown j, (carries_requestPacket _ _ _).1 hcarries j]
    exact ⟨_, List.mem_append_right _ (List.mem_singleton_self _), (hx.device d).serial.1 hserial,
      ⟨e, he⟩, (level_frend pa).symm, rfl⟩
  · exact (((hx.device d).replying pa i hplace).2
      ((carries_replyPacket _ _ _).1 hcarries)).append _

theorem DeviceSound.append {log : List (Transmission ι)} {d : ι} {v : RangeDevice}
    (h : DeviceSound t s log d v) (more : List (Transmission ι)) :
    DeviceSound t s (log ++ more) d v where
  serial := h.serial
  requesting := h.requesting
  replying pa i hplace :=
    ⟨(h.replying pa i hplace).1, fun hcarries => ((h.replying pa i hplace).2 hcarries).append more⟩

theorem TesterSound.append {log : List (Transmission ι)} {v : RangeDevice}
    (h : TesterSound t s log v) (more : List (Transmission ι)) :
    TesterSound t s (log ++ more) v where
  role := h.role
  awaiting := h.awaiting
  finished hplace hvalid := (h.finished hplace hvalid).append more

/-- The sender of a packet. -/
theorem sound_sent (hx : RangeSound t s x) {d : ι} {frend : U16} {packet : RangePacket}
    (h : (x.device d).onAir = some (frend, packet)) (more : List (Transmission ι)) :
    DeviceSound t s (x.log ++ more) d (x.device d).sent ∧
      (d = t → TesterSound t s (x.log ++ more) (x.device d).sent) := by
  obtain ⟨hresult, hrr, hbuf, ⟨pa, i, hplace, rfl, hnext⟩ | ⟨pa, i, hplace, rfl, hnext⟩⟩ :=
    sent_cases h
  · have hown : Carries (serialOctets (x.device d).result) ((x.device d).requestPacket pa i) :=
      (carries_requestPacket _ _ _).2 ((hx.device d).requesting pa i hplace)
    refine ⟨⟨?_, fun _ _ _ => ?_, fun _ _ hreplying => ?_⟩, fun hd => ⟨?_, fun _ => ?_, ?_⟩⟩
    · rw [hresult]
      exact (hx.device d).serial
    · rwa [hresult, hbuf]
    · rcases hnext with hnext | ⟨_, _, hnext⟩ <;> rw [hnext] at hreplying <;> cases hreplying
    · rcases hnext with hnext | ⟨_, _, hnext⟩ <;> rw [hnext] <;> exact RangePlace.noConfusion
    · rwa [hbuf, ← (hx.device d).serial.2 hd]
    · rcases hnext with hnext | ⟨_, _, hnext⟩ <;> rw [hnext] <;> exact RangePlace.noConfusion
  · have hd := (hx.device d).replying pa i hplace
    refine ⟨⟨?_, fun _ _ hrequesting => ?_, fun _ _ _ => ⟨hd.1, fun hcarries => ?_⟩⟩,
      fun h => absurd h hd.1⟩
    · rw [hresult]
      exact (hx.device d).serial
    · rcases hnext with hnext | ⟨_, _, hnext⟩ <;> rw [hnext] at hrequesting <;> cases hrequesting
    · rw [hbuf] at hcarries ⊢
      exact (hd.2 ((carries_replyPacket _ _ _).1 hcarries)).append more

/-- A device that receives a packet. -/
theorem sound_receive (hx : RangeSound t s x) {d e : ι} (hed : e ≠ d) {frend : U16}
    {packet : RangePacket} (h : (x.device d).onAir = some (frend, packet)) {received : ι → Bool}
    (he : received e = true) :
    let log := x.log ++ [⟨d, frend, packet, received⟩]
    DeviceSound t s log e ((x.device e).receive packet) ∧
      (e = t → TesterSound t s log ((x.device e).receive packet)) := by
  intro log
  rw [RangeDevice.receive]
  split
  · rename_i hplace
    refine ⟨⟨(hx.device e).serial, fun _ _ h => (by cases h), fun _ _ h => (by cases h)⟩, ?_⟩
    rintro rfl
    refine ⟨fun h => (by cases h), fun h => (by cases h), fun _ hvalid => ?_⟩
    -- the packet carries the serial number, and it is not a request
    have hcarries : Carries s packet := fun j => by
      rw [eq_of_rangeValid hvalid (by omega : j.val + 2 < 18), Function.update_of_ne (by omega)]
      exact hx.tester.awaiting hplace j
    have hrequested := requested_onAir hx h he hcarries
    refine ⟨hrequested, _, List.mem_append_right _ (List.mem_singleton_self _), hed.symm, he, ?_,
      rfl⟩
    rcases onAir_cases h with ⟨pa, i, hsender, rfl, rfl⟩ | ⟨pa, i, hsender, rfl, rfl⟩
    · have hserial : serialOctets (x.device d).result = s := by
        funext j
        rw [← (hx.device d).requesting pa i hsender j, (carries_requestPacket _ _ _).1 hcarries j]
      exact absurd ((hx.device d).serial.1 hserial).symm hed
    · exact (level_frend pa).symm
  · rename_i hplace
    have het : e ≠ t := by
      rintro rfl
      exact hx.tester.role hplace
    refine ⟨⟨(hx.device e).serial, fun _ _ h => (by cases h),
      fun _ _ _ => ⟨het, fun hcarries => ?_⟩⟩, fun h => absurd h het⟩
    have hpacket : Carries s packet := (Carries.update (.inl (by decide)) _).1
      ((Carries.update (.inl (by decide)) _).1 hcarries)
    exact requested_onAir hx h he hpacket
  · refine ⟨(hx.device e).append _, ?_⟩
    rintro rfl
    exact hx.tester.append _

variable [DecidableEq ι]

theorem RangeSound.update (hx : RangeSound t s x) {d : ι} {v : RangeDevice}
    (hv : DeviceSound t s x.log d v) (ht : d = t → TesterSound t s x.log v) :
    RangeSound t s { x with device := Function.update x.device d v } := by
  constructor
  · intro e
    dsimp only
    by_cases hed : e = d
    · subst hed
      rwa [Function.update_self]
    · rw [Function.update_of_ne hed]
      exact hx.device e
  · dsimp only
    by_cases htd : t = d
    · subst htd
      rw [Function.update_self]
      exact ht rfl
    · rw [Function.update_of_ne htd]
      exact hx.tester

theorem sound_step (hx : RangeSound t s x) {e : RangeEvent ι}
    (he : e ≠ .rangetest t ∧ e ≠ .repeater t) : RangeSound t s (rangeStep x e) := by
  cases e with
  | rangetest d =>
    have hd : d ≠ t := fun h => he.1 (by rw [h])
    rw [rangeStep]
    split_ifs
    · refine hx.update ?_ fun h => absurd h hd
      rw [RangeDevice.cc2400Rangetest]
      split_ifs
      · exact hx.device d
      · exact ⟨(hx.device d).serial, fun _ _ _ => carries_requestBuf _, fun _ _ h => by cases h⟩
    · exact hx
  | repeater d =>
    have hd : d ≠ t := fun h => he.2 (by rw [h])
    rw [rangeStep]
    split_ifs
    · refine hx.update ?_ fun h => absurd h hd
      exact ⟨(hx.device d).serial, fun _ _ h => (by cases h), fun _ _ h => by cases h⟩
    · exact hx
  | tune d channel =>
    refine hx.update ⟨(hx.device d).serial, (hx.device d).requesting, (hx.device d).replying⟩ ?_
    rintro rfl
    exact ⟨hx.tester.role, hx.tester.awaiting, hx.tester.finished⟩
  | transmit d heard =>
    rw [rangeStep]
    split
    · exact hx
    · rename_i frend packet h
      constructor
      · intro e
        dsimp only
        split_ifs with hed hgets
        · subst hed
          exact (sound_sent hx h _).1
        · exact (sound_receive hx hed h hgets).1
        · exact (hx.device e).append _
      · dsimp only
        split_ifs with htd hgets
        · subst htd
          exact (sound_sent hx h _).2 rfl
        · exact (sound_receive hx htd h hgets).2 rfl
        · exact hx.tester.append _

end Sound

/-- **A valid result is about this test.** Where no device repeats an earlier packet of `t` when it
starts a test, whatever the devices do and the air loses: if the result says that it is valid, it is
about a request of this test that was received, and about the packet of another device that `t` has
received, each at the level that it really was transmitted at. -/
theorem rangetest_sound [DecidableEq ι] {device : ι → RangeDevice} {t : ι}
    (hoff : (device t).place = .off) (hstatus : (device t).result.toList.getD 0 0 &&& 0xff = 0)
    (hserials : ∀ d, serialOctets (device d).result = serialOctets (device t).result → d = t)
    (hothers : ∀ d pa i, (device d).place = .requesting pa i →
      Carries (serialOctets (device d).result) (device d).buf)
    (hfresh : ∀ d pa i, (device d).place = .replying pa i →
      ¬Carries (serialOctets (device t).result) (device d).buf)
    {es : List (RangeEvent ι)} (hes : ∀ e ∈ es, e ≠ .rangetest t ∧ e ≠ .repeater t) :
    let y := run rangeStep { device := device } (.rangetest t :: es)
    (y.device t).place = .off → (y.device t).rr.valid = 1 →
      Measured t y.log (y.device t).rr := by
  intro y
  set s := serialOctets (device t).result
  let x : RangeNetwork ι := { device := device }
  have hstart : RangeSound t s (rangeStep x (.rangetest t)) := by
    have hdevice : ∀ d, d ≠ t → DeviceSound t s [] d (device d) := fun d hd =>
      ⟨⟨hserials d, fun h => absurd h hd⟩, hothers d,
        fun pa i hplace => ⟨hd, fun hcarries => absurd hcarries (hfresh d pa i hplace)⟩⟩
    have htester : (device t).cc2400Rangetest = { device t with
        buf := requestBuf (device t).result
        fsdiv := (device t).channel
        place := .requesting firstPa firstI } := if_neg (not_not.2 hstatus)
    rw [rangeStep, if_pos hoff, htester]
    constructor
    · intro d
      dsimp only [x]
      by_cases hd : d = t
      · subst hd
        rw [Function.update_self]
        exact ⟨⟨fun _ => rfl, fun _ => rfl⟩, fun _ _ _ => carries_requestBuf _,
          fun _ _ h => by cases h⟩
      · rw [Function.update_of_ne hd]
        exact hdevice d hd
    · dsimp only
      rw [Function.update_self]
      exact ⟨RangePlace.noConfusion, fun h => (by cases h), fun h => by cases h⟩
  have hrun : RangeSound t s y := by
    show RangeSound t s (run rangeStep (rangeStep x (.rangetest t)) es)
    exact run_invariant (I := RangeSound t s)
      (C := fun _ (e : RangeEvent ι) => e ≠ .rangetest t ∧ e ≠ .repeater t)
      (fun x e hx he => sound_step hx he) hstart (along_of_forall hes)
  exact hrun.tester.finished

/-- A device and a repeater. -/
def rangePair (d : Bool) : RangeDevice where
  result := Vector.ofFn fun i => if i.val = 4 ∧ d then 1 else 0
  channel := 2441
  fsdiv := 2440
  place := if d then .repeating else .off

/-- The repeater receives request 17, and the fourth of its replies comes back. -/
def seventeenLost : List (RangeEvent Bool) :=
  (List.range 128).map (fun k => .transmit false fun _ => k == 17) ++
    (List.range 4).map fun k => .transmit true fun _ => k == 3

theorem rangetest_sound_seventeen :
    let y := run rangeStep { device := rangePair } (.rangetest false :: seventeenLost)
    Measured false y.log (y.device false).rr := by
  have hevents : ∀ e ∈ seventeenLost, e ≠ .rangetest false ∧ e ≠ .repeater false := by
    intro e he
    rcases List.mem_append.1 he with he | he <;> obtain ⟨k, -, rfl⟩ := List.mem_map.1 he <;>
      exact ⟨by simp, by simp⟩
  have hsound := @rangetest_sound Bool _ rangePair false rfl (by decide) (by decide)
    (fun d pa i h => by cases d <;> cases h) (fun d pa i h => by cases d <;> cases h)
    seventeenLost hevents
  exact hsound (by decide +kernel) (by decide +kernel)

/-! ## One device and one repeater -/

/-- Of the packets that `sender` has transmitted, which ones `receiver` has received. -/
def arrivals [DecidableEq ι] (log : List (Transmission ι)) (sender receiver : ι) : List Bool :=
  (log.filter fun tr => tr.sender = sender).map fun tr => tr.received receiver

/-- The place in the loops over `pa` and `i`. -/
def packetNumber (pa : Fin 8) (i : Fin 16) : ℕ := 16 * pa + i

/-- What a device finds that has lost `k` packets one way and `m` the other. -/
def foundAfter (k m : ℕ) : RangetestResult where
  valid := 1
  requestPa := BitVec.ofNat 8 (k / 16)
  requestNum := BitVec.ofNat 8 (k % 16)
  replyPa := BitVec.ofNat 8 (m / 16)
  replyNum := BitVec.ofNat 8 (m % 16)

section Pair

variable [DecidableEq ι] {t r : ι} {c : U16} {x : RangeNetwork ι}

theorem arrivals_append_self (log : List (Transmission ι)) (d e : ι) (frend : U16)
    (packet : RangePacket) (received : ι → Bool) :
    arrivals (log ++ [⟨d, frend, packet, received⟩]) d e = arrivals log d e ++ [received e] := by
  simp [arrivals]

theorem arrivals_append_of_ne {d d' : ι} (hd : d' ≠ d) (log : List (Transmission ι)) (e : ι)
    (frend : U16) (packet : RangePacket) (received : ι → Bool) :
    arrivals (log ++ [⟨d', frend, packet, received⟩]) d e = arrivals log d e := by
  simp [arrivals, hd]

theorem packetNumber_of_none {pa : Fin 8} {i : Fin 16} (h : nextPacket pa i = none) :
    packetNumber pa i = 127 := by
  rw [nextPacket] at h
  rw [packetNumber]
  split_ifs at h with hi hpa
  omega

theorem packetNumber_of_some {pa pa' : Fin 8} {i i' : Fin 16}
    (h : nextPacket pa i = some (pa', i')) : packetNumber pa' i' = packetNumber pa i + 1 := by
  rw [nextPacket] at h
  split_ifs at h with hi hpa
  · obtain ⟨rfl, rfl⟩ := Prod.mk.inj (Option.some.inj h)
    simp only [packetNumber]
    omega
  · obtain ⟨rfl, rfl⟩ := Prod.mk.inj (Option.some.inj h)
    have hfirst : firstI.val = 0 := rfl
    simp only [packetNumber, hfirst]
    omega

theorem packetNumber_div (pa : Fin 8) (i : Fin 16) :
    packetNumber pa i / 16 = pa ∧ packetNumber pa i % 16 = i := by
  rw [packetNumber]
  omega

/-- How far a test between `t` and the repeater `r` has come: no request is received; one is, and is
repeated; all replies are lost; or one is received. -/
inductive RangePhase (t r : ι) (c : U16) (x : RangeNetwork ι) : Prop
  | silent (place : (x.device r).place = .repeating) (fsdiv : (x.device r).fsdiv + 1 = c)
      (on : (x.device t).place ≠ .off) (requests : true ∉ arrivals x.log t r)
      (replies : arrivals x.log r t = [])
  | answering (pa : Fin 8) (i : Fin 16) (place : (x.device r).place = .replying pa i)
      (fsdiv : (x.device r).fsdiv = c) (on : (x.device t).place ≠ .off)
      (requests : true ∈ arrivals x.log t r)
      (buf : ∀ j < 18, (x.device r).buf j =
        Function.update (requestBuf (x.device t).result) 1 1 j)
      (requestPa : (x.device r).buf 18 = BitVec.ofNat 8 ((arrivals x.log t r).idxOf true / 16))
      (requestNum : (x.device r).buf 19 = BitVec.ofNat 8 ((arrivals x.log t r).idxOf true % 16))
      (replies : arrivals x.log r t = List.replicate (packetNumber pa i) false)
      (waited : packetNumber pa i ≠ 0 → (x.device t).place = .awaiting)
  | unheard (place : (x.device r).place = .repeating) (tester : (x.device t).place = .awaiting)
      (requests : true ∈ arrivals x.log t r)
      (replies : arrivals x.log r t = List.replicate 128 false)
  | found (off : (x.device t).place = .off) (requests : true ∈ arrivals x.log t r)
      (replies : true ∈ arrivals x.log r t)
      (rr : (x.device t).rr = foundAfter ((arrivals x.log t r).idxOf true)
        ((arrivals x.log r t).idxOf true))

/-- A test between `t` and the repeater `r`, while no other device is on. -/
structure RangePair (t r : ι) (c : U16) (x : RangeNetwork ι) : Prop where
  others : ∀ d, d ≠ t → d ≠ r → (x.device d).place = .off
  channels : (x.device t).channel = c ∧ (x.device r).channel = c
  buf : (x.device t).place ≠ .off → ∀ j < 18,
    (x.device t).buf j = requestBuf (x.device t).result j
  requesting : ∀ pa i, (x.device t).place = .requesting pa i →
    (x.device t).fsdiv = c ∧ (arrivals x.log t r).length = packetNumber pa i
  awaiting : (x.device t).place = .awaiting → (x.device t).fsdiv + 1 = c
  role : ∀ pa i, (x.device t).place ≠ .repeating ∧ (x.device t).place ≠ .replying pa i
  phase : RangePhase t r c x

theorem onAir_eq_none {d : RangeDevice}
    (h : d.place = .off ∨ d.place = .awaiting ∨ d.place = .repeating) : d.onAir = none := by
  rw [RangeDevice.onAir]
  rcases h with h | h | h <;> rw [h]

theorem gets_of_not_listens {d e : ι} (h : (x.device e).listens = false) (heard : ι → Bool) :
    gets x d heard e = false := by
  rw [gets, h, Bool.and_false, Bool.false_and]

/-- What a packet changes. -/
theorem rangeStep_transmit {d : ι} {frend : U16} {packet : RangePacket}
    (h : (x.device d).onAir = some (frend, packet)) (heard : ι → Bool) :
    let y := rangeStep x (.transmit d heard)
    y.device d = (x.device d).sent ∧
      (∀ e ≠ d, y.device e = if gets x d heard e then (x.device e).receive packet
        else x.device e) ∧
      y.log = x.log ++ [⟨d, frend, packet, gets x d heard⟩] := by
  simp only [rangeStep, h]
  exact ⟨if_pos trivial, fun e he => if_neg he, trivial⟩

theorem requestPacket_of_lt (d : RangeDevice) (pa : Fin 8) (i : Fin 16) {j : ℕ}
    (hj : j < 18) : d.requestPacket pa i j = d.buf j := by
  rw [RangeDevice.requestPacket, Function.update_of_ne, Function.update_of_ne]
  all_goals
    rintro rfl
    exact absurd hj (by decide)

theorem replyPacket_of_lt (d : RangeDevice) (pa : Fin 8) (i : Fin 16) {j : ℕ}
    (hj : j < 18) : d.replyPacket pa i j = d.buf j := by
  rw [RangeDevice.replyPacket, Function.update_of_ne, Function.update_of_ne]
  all_goals
    rintro rfl
    exact absurd hj (by decide)

theorem sent_request {d : RangeDevice} {pa : Fin 8} {i : Fin 16} (h : d.place = .requesting pa i) :
    d.sent.channel = d.channel ∧ d.sent.result = d.result ∧ d.sent.buf = d.requestPacket pa i ∧
      ((d.sent.place = .awaiting ∧ d.sent.fsdiv = d.channel - 1) ∨
        ∃ pa' i', d.sent.place = .requesting pa' i' ∧ d.sent.fsdiv = d.fsdiv ∧
          packetNumber pa' i' = packetNumber pa i + 1) := by
  rcases sent_requesting h with ⟨-, hsent⟩ | ⟨pa', i', hnext, hsent⟩ <;> rw [hsent]
  · exact ⟨rfl, rfl, rfl, .inl ⟨rfl, rfl⟩⟩
  · exact ⟨rfl, rfl, rfl, .inr ⟨pa', i', rfl, rfl, packetNumber_of_some hnext⟩⟩

theorem sent_reply {d : RangeDevice} {pa : Fin 8} {i : Fin 16} (h : d.place = .replying pa i) :
    d.sent.channel = d.channel ∧ d.sent.buf = d.replyPacket pa i ∧
      ((d.sent.place = .repeating ∧ d.sent.fsdiv = d.channel - 1 ∧ packetNumber pa i = 127) ∨
        ∃ pa' i', d.sent.place = .replying pa' i' ∧ d.sent.fsdiv = d.fsdiv ∧
          packetNumber pa' i' = packetNumber pa i + 1) := by
  rcases sent_replying h with ⟨hnext, hsent⟩ | ⟨pa', i', hnext, hsent⟩ <;> rw [hsent]
  · exact ⟨rfl, rfl, .inl ⟨rfl, rfl, packetNumber_of_none hnext⟩⟩
  · exact ⟨rfl, rfl, .inr ⟨pa', i', rfl, rfl, packetNumber_of_some hnext⟩⟩

/-- A device that is off stays off. -/
theorem off_of_transmit {d e : ι} (he : e ≠ d) (h : (x.device e).place = .off) (heard : ι → Bool) :
    ((rangeStep x (.transmit d heard)).device e) = x.device e := by
  cases hair : (x.device d).onAir with
  | none => simp only [rangeStep, hair]
  | some sending =>
    rw [(rangeStep_transmit hair heard).2.1 e he, gets_of_not_listens (by
      rw [RangeDevice.listens, h]), if_neg Bool.false_ne_true]

/-- `t` transmits a request. -/
theorem pair_request (htr : t ≠ r) (hx : RangePair t r c x) (heard : ι → Bool) :
    RangePair t r c (rangeStep x (.transmit t heard)) := by
  cases hair : (x.device t).onAir with
  | none => simpa only [rangeStep, hair] using hx
  | some sending =>
    obtain ⟨frend, packet⟩ := sending
    obtain ⟨pa, i, hplace, -, rfl⟩ : ∃ pa i, (x.device t).place = .requesting pa i ∧
        frend = 8 ||| BitVec.ofNat 16 pa ∧ packet = (x.device t).requestPacket pa i := by
      rcases onAir_cases hair with h | ⟨pa, i, h, -⟩
      · exact h
      · exact absurd h (hx.role pa i).2
    obtain ⟨ht, hothers, hlog⟩ := rangeStep_transmit hair heard
    have hr := hothers r htr.symm
    obtain ⟨hchannel, hresult, hbuf, hnext⟩ := sent_request hplace
    obtain ⟨hfsdiv, hlength⟩ := hx.requesting pa i hplace
    have hoff : ∀ e ≠ t, (x.device e).place = .off →
        (rangeStep x (.transmit t heard)).device e = x.device e :=
      fun e he h => off_of_transmit he h heard
    generalize rangeStep x (.transmit t heard) = y at ht hothers hlog hr hoff ⊢
    rw [← ht] at hchannel hresult hbuf hnext
    have hon : (x.device t).place ≠ .off := by
      rw [hplace]
      exact RangePlace.noConfusion
    have hon' : (y.device t).place ≠ .off := by
      rcases hnext with ⟨h, -⟩ | ⟨_, _, h, -⟩ <;> rw [h] <;> exact RangePlace.noConfusion
    have hrequests : arrivals y.log t r = arrivals x.log t r ++ [gets x t heard r] := by
      rw [hlog, arrivals_append_self]
    have hreplies : arrivals y.log r t = arrivals x.log r t := by
      rw [hlog, arrivals_append_of_ne htr]
    have hsame : ∀ j < 18,
        (x.device t).requestPacket pa i j = requestBuf (x.device t).result j := fun j hj =>
      (requestPacket_of_lt _ pa i hj).trans (hx.buf hon j hj)
    refine
      { others := fun d hdt hdr => by rw [hoff d hdt (hx.others d hdt hdr), hx.others d hdt hdr]
        channels := ⟨hchannel.trans hx.channels.1, ?_⟩
        buf := fun _ j hj => by rw [hbuf, hresult, hsame j hj]
        requesting := fun pa' i' h => ?_
        awaiting := fun h => ?_
        role := fun pa' i' => ?_
        phase := ?_ }
    · rw [hr]
      split_ifs
      · rw [RangeDevice.receive]
        split <;> exact hx.channels.2
      · exact hx.channels.2
    · rcases hnext with ⟨h', -⟩ | ⟨pa', i', h', hf, hnumber⟩
      · rw [h'] at h
        cases h
      · rw [h'] at h
        cases h
        rw [hf, hrequests, List.length_append, hlength, List.length_singleton, hnumber]
        exact ⟨hfsdiv, rfl⟩
    · rcases hnext with ⟨-, hf⟩ | ⟨_, _, h', -⟩
      · rw [hf, hx.channels.1, BitVec.sub_add_cancel]
      · rw [h'] at h
        cases h
    · rcases hnext with ⟨h', -⟩ | ⟨_, _, h', -⟩ <;> rw [h'] <;>
        exact ⟨RangePlace.noConfusion, RangePlace.noConfusion⟩
    · cases hx.phase with
      | silent hrepeating hf _ hnone hempty =>
        cases hgets : gets x t heard r with
        | false =>
          rw [hgets] at hr hrequests
          refine .silent (by rw [hr]; exact hrepeating) (by rw [hr]; exact hf) hon' ?_
            (hreplies.trans hempty)
          rw [hrequests]
          simpa using hnone
        | true =>
          rw [hgets, if_pos rfl, RangeDevice.receive, hrepeating] at hr
          rw [hgets] at hrequests
          have hidx : (arrivals y.log t r).idxOf true = packetNumber pa i := by
            rw [hrequests, List.idxOf_append_of_notMem hnone, List.idxOf_cons_self, hlength,
              add_zero]
          obtain ⟨hdiv, hmod⟩ := packetNumber_div pa i
          refine .answering firstPa firstI (by rw [hr]) (by rw [hr]; exact hx.channels.2) hon' ?_
            (fun j hj => ?_) ?_ ?_ (hreplies.trans hempty) (fun h => absurd rfl h)
          · rw [hrequests]
            exact List.mem_append_right _ (List.mem_singleton_self _)
          · rw [hr, hresult]
            show Function.update (Function.update ((x.device t).requestPacket pa i) 0 21) 1 1 j =
              Function.update (requestBuf (x.device t).result) 1 1 j
            by_cases hone : j = 1
            · rw [hone, Function.update_self, Function.update_self]
            · rw [Function.update_of_ne hone, Function.update_of_ne hone]
              by_cases hzero : j = 0
              · rw [hzero, Function.update_self]
                rfl
              · rw [Function.update_of_ne hzero, hsame j hj]
          · rw [hr, hidx, hdiv]
            rfl
          · rw [hr, hidx, hmod]
            rfl
      | answering pa' i' hreplying hf _ hsome hexpected hpa hnum hlost hwaited =>
        have hgets : gets x t heard r = false := gets_of_not_listens (by
          rw [RangeDevice.listens, hreplying]) heard
        rw [hgets, if_neg Bool.false_ne_true] at hr
        have hidx : (arrivals y.log t r).idxOf true = (arrivals x.log t r).idxOf true := by
          rw [hrequests, List.idxOf_append_of_mem hsome]
        refine .answering pa' i' (by rw [hr]; exact hreplying) (by rw [hr]; exact hf) hon' ?_
          (fun j hj => by rw [hr, hresult, hexpected j hj]) (by rw [hr, hidx, hpa])
          (by rw [hr, hidx, hnum]) (hreplies.trans hlost) fun h => ?_
        · rw [hrequests]
          exact List.mem_append_left _ hsome
        · rw [hplace] at hwaited
          cases hwaited h
      | unheard _ hawaiting =>
        rw [hplace] at hawaiting
        cases hawaiting
      | found hfinished => exact absurd hfinished hon

/-- The repeater transmits, after `t` has come to listen. -/
theorem pair_reply (htr : t ≠ r) (hx : RangePair t r c x) (heard : ι → Bool)
    (hwaits : ∀ pa i, (x.device t).place ≠ .requesting pa i) :
    RangePair t r c (rangeStep x (.transmit r heard)) := by
  cases hair : (x.device r).onAir with
  | none => simpa only [rangeStep, hair] using hx
  | some sending =>
    obtain ⟨frend, packet⟩ := sending
    obtain ⟨hr, hothers, hlog⟩ := rangeStep_transmit hair heard
    have ht := hothers t htr
    have hoff : ∀ e ≠ r, (x.device e).place = .off →
        (rangeStep x (.transmit r heard)).device e = x.device e :=
      fun e he h => off_of_transmit he h heard
    generalize rangeStep x (.transmit r heard) = y at hr ht hothers hlog hoff ⊢
    have hrequests : arrivals y.log t r = arrivals x.log t r := by
      rw [hlog, arrivals_append_of_ne htr.symm]
    have hreplies : arrivals y.log r t = arrivals x.log r t ++ [gets x r heard t] := by
      rw [hlog, arrivals_append_self]
    have hrchannel : (y.device r).channel = c := by
      rw [hr, ← hx.channels.2]
      rcases onAir_cases hair with ⟨pa, i, h, -⟩ | ⟨pa, i, h, -⟩
      · exact (sent_request h).1
      · exact (sent_reply h).1
    have htchannel : (y.device t).channel = c := by
      rw [ht, ← hx.channels.1]
      split_ifs
      · rw [RangeDevice.receive]
        split <;> rfl
      · rfl
    have hrest : ∀ d, d ≠ t → d ≠ r → (y.device d).place = .off := fun d hdt hdr => by
      rw [hoff d hdr (hx.others d hdt hdr), hx.others d hdt hdr]
    cases hx.phase with
    | silent hrepeating =>
      rw [onAir_eq_none (.inr (.inr hrepeating))] at hair
      cases hair
    | unheard hrepeating =>
      rw [onAir_eq_none (.inr (.inr hrepeating))] at hair
      cases hair
    | found hfinished hsome hreplied hrr =>
      have hkept := hoff t htr hfinished
      exact
        { others := hrest
          channels := ⟨htchannel, hrchannel⟩
          buf := fun h => absurd (by rw [hkept]; exact hfinished) h
          requesting := fun pa i h => by
            rw [hkept, hfinished] at h
            cases h
          awaiting := fun h => by
            rw [hkept, hfinished] at h
            cases h
          role := fun pa i => by
            rw [hkept]
            exact hx.role pa i
          phase := .found (by rw [hkept]; exact hfinished) (by rw [hrequests]; exact hsome)
            (by rw [hreplies]; exact List.mem_append_left _ hreplied)
            (by rw [hkept, hrequests, hreplies, List.idxOf_append_of_mem hreplied, hrr]) }
    | answering pa i hreplying hf hon hsome hexpected hpa hnum hlost hwaited =>
      have hawaiting : (x.device t).place = .awaiting := by
        cases hplace : (x.device t).place with
        | off => exact absurd hplace hon
        | awaiting => rfl
        | requesting pa i => exact absurd hplace (hwaits pa i)
        | repeating => exact absurd hplace (hx.role pa i).1
        | replying pa i => exact absurd hplace (hx.role pa i).2
      obtain rfl : packet = (x.device r).replyPacket pa i := by
        rw [RangeDevice.onAir, hreplying] at hair
        cases hair
        rfl
      obtain ⟨hchannel, hbuf, hnext⟩ := sent_reply hreplying
      have hcount : (arrivals x.log r t).length = packetNumber pa i := by
        rw [hlost, List.length_replicate]
      cases hgets : gets x r heard t with
      | false =>
        rw [hgets, if_neg Bool.false_ne_true] at ht
        rw [hgets, hlost] at hreplies
        refine
          { others := hrest
            channels := ⟨htchannel, hrchannel⟩
            buf := fun h => by
              rw [ht] at h ⊢
              exact hx.buf h
            requesting := fun pa i h => absurd (ht ▸ h) (hwaits pa i)
            awaiting := fun h => by
              rw [ht] at h ⊢
              exact hx.awaiting h
            role := fun pa i => by
              rw [ht]
              exact hx.role pa i
            phase := ?_ }
        rcases hnext with ⟨h, -, hnumber⟩ | ⟨pa', i', h, hf', hnumber⟩
        · refine .unheard (by rw [hr, h]) (by rw [ht, hawaiting])
            (by rw [hrequests]; exact hsome) ?_
          rw [hreplies, hnumber]
          rfl
        · refine .answering pa' i' (by rw [hr, h]) (by rw [hr, hf', hf]) (by rw [ht]; exact hon)
            (by rw [hrequests]; exact hsome) (fun j hj => ?_) ?_ ?_ ?_
            (fun _ => by rw [ht, hawaiting])
          · rw [hr, hbuf, ht, replyPacket_of_lt _ _ _ hj, hexpected j hj]
          · rw [hr, hbuf, hrequests, ← hpa]
            rfl
          · rw [hr, hbuf, hrequests, ← hnum]
            rfl
          · rw [hreplies, hnumber, List.replicate_succ']
      | true =>
        rw [hgets, if_pos rfl, RangeDevice.receive, hawaiting] at ht
        rw [hgets] at hreplies
        have hidx : (arrivals y.log r t).idxOf true = packetNumber pa i := by
          rw [hreplies, List.idxOf_append_of_notMem, List.idxOf_cons_self, hcount, add_zero]
          rw [hlost]
          exact fun h => Bool.noConfusion (List.eq_of_mem_replicate h)
        have hfinished : (y.device t).place = .off := by rw [ht]
        have hvalid : rangeValid ((x.device r).replyPacket pa i)
            (Function.update (x.device t).buf 1 1) = 1 := rangeValid_of_eq fun j hj => by
          rw [replyPacket_of_lt _ _ _ hj, hexpected j hj]
          by_cases hone : j = 1
          · rw [hone, Function.update_self, Function.update_self]
          · rw [Function.update_of_ne hone, Function.update_of_ne hone, hx.buf hon j hj]
        obtain ⟨hdiv, hmod⟩ := packetNumber_div pa i
        refine
          { others := hrest
            channels := ⟨htchannel, hrchannel⟩
            buf := fun h => absurd hfinished h
            requesting := fun pa i h => by
              rw [hfinished] at h
              cases h
            awaiting := fun h => by
              rw [hfinished] at h
              cases h
            role := fun pa i => by
              rw [hfinished]
              exact ⟨RangePlace.noConfusion, RangePlace.noConfusion⟩
            phase := .found hfinished (by rw [hrequests]; exact hsome) ?_ ?_ }
        · rw [hreplies]
          exact List.mem_append_right _ (List.mem_singleton_self _)
        · rw [ht, hrequests, hidx, foundAfter, hdiv, hmod, ← hpa, ← hnum]
          dsimp only
          rw [hvalid]
          rfl

/-- The devices do nothing but transmit, and the repeater not before `t` has sent all its requests:
it allows time for `t` to switch. -/
def Waits (t r : ι) (x : RangeNetwork ι) : RangeEvent ι → Prop
  | .transmit d _ => d = r → ∀ pa i, (x.device t).place ≠ .requesting pa i
  | _ => False

instance decidableWaits (t r : ι) (x : RangeNetwork ι) : ∀ e, Decidable (Waits t r x e)
  | .transmit d _ =>
    inferInstanceAs (Decidable (d = r → ∀ pa i, (x.device t).place ≠ .requesting pa i))
  | .rangetest _ | .repeater _ | .tune .. => isFalse id

theorem pair_step (htr : t ≠ r) (hx : RangePair t r c x) {e : RangeEvent ι} (he : Waits t r x e) :
    RangePair t r c (rangeStep x e) := by
  cases e with
  | transmit d heard =>
    by_cases hdt : d = t
    · exact hdt ▸ pair_request htr hx heard
    · by_cases hdr : d = r
      · exact hdr ▸ pair_reply htr hx heard (he hdr)
      · simpa only [rangeStep, onAir_eq_none (.inl (hx.others d hdt hdr))] using hx
  | rangetest | repeater | tune => exact he.elim

theorem RangePair.off_iff (hx : RangePair t r c x) :
    (x.device t).place = .off ↔ true ∈ arrivals x.log r t := by
  cases hx.phase with
  | silent _ _ hon _ hempty => simp [hon, hempty]
  | answering _ _ _ _ hon _ _ _ _ hlost => simp [hon, hlost]
  | unheard _ hawaiting _ hlost => simp [hawaiting, hlost]
  | found hoff _ hreplied => exact iff_of_true hoff hreplied

end Pair

/-- **The result counts losses.** Between a device and a repeater on the same channel, the test is
over as soon as the device has received a reply, and the result tells exactly how many requests were
lost before the first one that the repeater received, and how many replies before the first one that
came back: the lowest level, and the number at that level, that got through each way. -/
theorem rangetest_counts_losses [DecidableEq ι] {device : ι → RangeDevice} {t r : ι} (htr : t ≠ r)
    (hoff : ∀ d ≠ r, (device d).place = .off) (hrepeating : (device r).place = .repeating)
    (hstatus : (device t).result.toList.getD 0 0 &&& 0xff = 0)
    (hchannel : (device r).channel = (device t).channel)
    (hfsdiv : (device r).fsdiv + 1 = (device r).channel) {es : List (RangeEvent ι)}
    (hes : Along rangeStep (Waits t r) (rangeStep { device := device } (.rangetest t)) es) :
    let y := run rangeStep { device := device } (.rangetest t :: es)
    ((y.device t).place = .off ↔ true ∈ arrivals y.log r t) ∧ (true ∈ arrivals y.log r t →
      true ∈ arrivals y.log t r ∧ (y.device t).rr = foundAfter ((arrivals y.log t r).idxOf true)
        ((arrivals y.log r t).idxOf true)) := by
  intro y
  have htester : (device t).cc2400Rangetest = { device t with
      buf := requestBuf (device t).result
      fsdiv := (device t).channel
      place := .requesting firstPa firstI } := if_neg (not_not.2 hstatus)
  have hstart : RangePair t r (device t).channel
      (rangeStep { device := device } (.rangetest t)) := by
    rw [rangeStep, if_pos (hoff t htr), htester]
    have hself : ∀ v : RangeDevice, Function.update device t v t = v := fun v =>
      Function.update_self t v device
    have hother : ∀ (v : RangeDevice) d, d ≠ t → Function.update device t v d = device d :=
      fun v d hd => Function.update_of_ne hd v device
    exact
      { others := fun d hdt hdr => by
          dsimp only
          rw [hother _ d hdt, hoff d hdr]
        channels := by
          dsimp only
          rw [hself, hother _ r htr.symm]
          exact ⟨rfl, hchannel⟩
        buf := fun _ j _ => by
          dsimp only
          rw [hself]
        requesting := fun pa i h => by
          dsimp only at h ⊢
          rw [hself] at h ⊢
          cases h
          exact ⟨rfl, rfl⟩
        awaiting := fun h => by
          dsimp only at h
          rw [hself] at h
          cases h
        role := fun pa i => by
          dsimp only
          rw [hself]
          exact ⟨RangePlace.noConfusion, RangePlace.noConfusion⟩
        phase := .silent (by dsimp only; rw [hother _ r htr.symm, hrepeating])
          (by dsimp only; rw [hother _ r htr.symm, hfsdiv, hchannel])
          (by dsimp only; rw [hself]; exact RangePlace.noConfusion) List.not_mem_nil rfl }
  have hrun : RangePair t r (device t).channel y := by
    show RangePair t r _ (run rangeStep (rangeStep { device := device } (.rangetest t)) es)
    exact run_invariant (I := RangePair t r (device t).channel)
      (fun x e hx he => pair_step htr hx he) hstart hes
  refine ⟨hrun.off_iff, fun hreplied => ?_⟩
  cases hrun.phase with
  | silent _ _ _ _ hempty => simp [hempty] at hreplied
  | answering _ _ _ _ _ _ _ _ _ hlost => simp [hlost] at hreplied
  | unheard _ _ _ hlost => simp [hlost] at hreplied
  | found _ hsome _ hrr => exact ⟨hsome, hrr⟩

theorem rangetest_counts_losses_seventeen :
    ((run rangeStep { device := rangePair } (.rangetest false :: seventeenLost)).device false).rr =
      foundAfter 17 3 := by
  obtain ⟨-, hfound⟩ := @rangetest_counts_losses Bool _ rangePair false true (by decide)
    (by decide) rfl (by decide) rfl (by decide) seventeenLost (by decide +kernel)
  have hreplied : true ∈ arrivals (run rangeStep { device := rangePair }
    (.rangetest false :: seventeenLost)).log true false := by decide +kernel
  exact (hfound hreplied).2.trans
    (congrArg₂ foundAfter (by decide +kernel) (by decide +kernel))

end Ubertooth.Radio
