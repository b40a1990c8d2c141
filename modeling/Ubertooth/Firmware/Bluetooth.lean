import Ubertooth.Interface

/-!
# `bluetooth.c`: basic rate hop selection

The globals `precalc` fills and `next_hop` reads, `precalc`, the five bit permutation, and the hop
selection kernel. `nextHop` divides by `used_channels` and subscripts `afh_bank` with what the clock
gives; where C leaves the outcome undefined the result is a `Fault`.
-/

namespace Ubertooth.Firmware

/-- What keeps a call from returning normally. -/
inductive Fault
  | hang | divideByZero | subscript
  deriving DecidableEq, Repr

/-- `CHANNELS` -/
abbrev channels : ℕ := 79

/-- The globals of `bluetooth.c` that hop selection reads. -/
structure HopVars where
  a1 : U8 := 0
  b : U8 := 0
  c1 : U8 := 0
  e : U8 := 0
  d1 : U16 := 0
  /-- frequency register bank -/
  bank : Vector U8 channels := Vector.replicate channels 0
  afhBank : Vector U8 channels := Vector.replicate channels 0
  afhEnabled : Bool := false
  afhMap : Vector U8 10 := Vector.replicate 10 0
  usedChannels : U8 := 0
  deriving DecidableEq, Repr

/-! ## Precalculation -/

/-- The loop of `count_bits`: the lowest set bit is cleared until none is left, which takes no more
passes than the word has bits. -/
def countBitsFrom : ℕ → BitVec 64 → U8 → U8
  | 0, _, i => i
  | passes + 1, n, i => if n = 0 then i else countBitsFrom passes (n &&& (n - 1)) (i + 1)

/-- count the number of 1 bits in a uint64_t -/
def countBits (n : BitVec 64) : U8 := countBitsFrom 64 n 0

/-- The value `precalc` gives `used_channels` while AFH is enabled. -/
def countMap (afhMap : Vector U8 10) : U8 :=
  afhMap.toList.foldl (fun used octet => used + countBits (octet.setWidth 64)) 0

/-- What `precalc` does while AFH is enabled. Its last loop has no braces: the loop only computes
`chan`, and the test that follows is made once, for the last channel. -/
def precalcAfh (h : HopVars) : HopVars :=
  let chan := (List.range channels).foldl (fun _ i => i * 2 % channels) 0
  { h with
    usedChannels := countMap h.afhMap
    bank :=
      if (h.afhMap[chan / 8]?.getD 0).getLsbD (chan % 8) then
        h.bank.setIfInBounds 0 (BitVec.ofNat 8 chan)
      else h.bank }

/-- do all of the one time precalculation -/
def precalc (targetAddress : BitVec 64) (h : HopVars) : HopVars :=
  let address : U32 := targetAddress.setWidth 32
  let h := { h with
    bank := Vector.ofFn fun i => BitVec.ofNat 8 (i.val * 2 % channels)
    a1 := ((address >>> 23) &&& 0x1f).setWidth 8
    b := ((address >>> 19) &&& 0x0f).setWidth 8
    c1 := (((address >>> 4) &&& 0x10) + ((address >>> 3) &&& 0x08) + ((address >>> 2) &&& 0x04) +
      ((address >>> 1) &&& 0x02) + (address &&& 0x01)).setWidth 8
    d1 := ((address >>> 10) &&& 0x1ff).setWidth 16
    e := (((address >>> 7) &&& 0x40) + ((address >>> 6) &&& 0x20) + ((address >>> 5) &&& 0x10) +
      ((address >>> 4) &&& 0x08) + ((address >>> 3) &&& 0x04) + ((address >>> 2) &&& 0x02) +
      ((address >>> 1) &&& 0x01)).setWidth 8 }
  if h.afhEnabled then precalcAfh h else h

/-! ## Hop selection -/

def perm5Index1 : Vector (Fin 5) 14 := #v[0, 2, 1, 3, 0, 1, 0, 3, 1, 0, 2, 1, 0, 1]

def perm5Index2 : Vector (Fin 5) 14 := #v[1, 3, 2, 4, 4, 3, 2, 4, 4, 3, 4, 3, 3, 2]

/-- 5 bit permutation: the bits of `z` are exchanged in pairs, from the last pair of the index
arrays to the first, where the control bit (9 from `pLow`, then 5 from `pHigh`) is set. -/
def perm5 (z pHigh : U8) (pLow : U16) : U8 :=
  let p : Fin 14 → Bool := fun i => if i < 9 then pLow.getLsbD i else pHigh.getLsbD (i - 9)
  let zBit : Vector Bool 5 := Vector.ofFn fun i => z.getLsbD i
  let zBit := (List.finRange 14).reverse.foldl
    (fun zBit i => if p i then zBit.swap perm5Index1[i] perm5Index2[i] else zBit) zBit
  (List.finRange 5).foldl
    (fun output i => output + ((BitVec.ofBool zBit[i]).setWidth 8 <<< i.val)) 0

/-- The register bank entry `afh_bank[i]`, for a subscript the code has not checked. -/
def HopVars.afhBankAt (h : HopVars) (i : ℕ) : Except Fault U8 :=
  if hi : i < channels then .ok h.afhBank[i] else .error .subscript

/-- Variable names used in Vol 2, Part B, Section 2.6 of the spec. -/
def nextHop (h : HopVars) (clock : U32) : Except Fault U16 :=
  let x : U8 := ((clock >>> 2) &&& 0x1f).setWidth 8
  let y1 : U8 := ((clock >>> 1) &&& 0x01).setWidth 8
  let y2 : U16 := y1.setWidth 16 <<< 5
  let a : U8 := ((h.a1.setWidth 32 ^^^ (clock >>> 21)) &&& 0x1f).setWidth 8
  let c : U8 := ((h.c1.setWidth 32 ^^^ (clock >>> 16)) &&& 0x1f).setWidth 8
  let d : U16 := ((h.d1.setWidth 32 ^^^ (clock >>> 7)) &&& 0x1ff).setWidth 16
  let baseF := ((clock >>> 3) &&& 0x1fffff0).toNat
  let f := baseF % 79
  let perm := perm5 (((x + a) % 32) ^^^ h.b) ((y1 * 0x1f) ^^^ c) d
  let sum := perm.toNat + h.e.toNat + y2.toNat
  if h.afhEnabled then
    if h.usedChannels = 0 then .error .divideByZero
    else do
      let fDash := baseF % h.usedChannels.toNat
      let nextChannel ← h.afhBankAt ((sum + fDash) % h.usedChannels.toNat)
      return 2402 + nextChannel.setWidth 16
  else
    let nextChannel := h.bank.get ⟨(sum + f) % channels, Nat.mod_lt _ (by decide)⟩
    .ok (2402 + nextChannel.setWidth 16)

end Ubertooth.Firmware
