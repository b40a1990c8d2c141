import Ubertooth.Interface

/-!
# `bluetooth_le.c`

The Bluetooth Low Energy helpers of the firmware: the state of a followed link (`le_state_t`), the
hop sequence, and the three CRC routines (bitwise, bitwise backwards, and from a table). Register
values are the code's own 32-bit words; loops over octets are folds over the first `len` octets
of `data`.
-/

namespace Ubertooth.Firmware

/-- `link_state_t`. -/
inductive LinkState
  | inactive | listening | connPending | connected
  deriving DecidableEq, Repr

/-- `le_state_t`, with the values `bluetooth_rxtx.c` initialises `le` to (fields the initialiser
does not name are zero). -/
structure LeState where
  /-- Access Address to filter by -/
  accessAddress : U32 := 0x8e89bed6
  /-- Access address in CC2400 syncword format, upper half -/
  synch : U16 := 0x6b7d
  /-- lower half thereof -/
  syncl : U16 := 0x9171
  /-- CrcInit: used to calculate CRC -/
  crcInit : U32 := 0x555555
  /-- bits-reversed version of the previous -/
  crcInitReversed : U32 := 0xAAAAAA
  /-- true to reject packets with bad CRC -/
  crcVerify : Bool := true
  linkState : LinkState := .inactive
  /-- current channel index -/
  channelIdx : U8 := 0
  /-- amount to hop -/
  channelIncrement : U8 := 0
  /-- reference time for the start of the connection -/
  connEpoch : U32 := 0
  /-- number of intervals remaining before next hop -/
  intervalTimer : U16 := 0
  /-- connection-specific hop interval -/
  connInterval : U16 := 0
  /-- number of intervals since the start of the connection -/
  connCount : U16 := 0
  winSize : U8 := 0
  winOffset : U16 := 0
  /-- whether a connection update is pending -/
  updatePending : Bool := false
  /-- the connection count when the update takes effect -/
  updateInstant : U16 := 0
  intervalUpdate : U16 := 0
  winSizeUpdate : U8 := 0
  winOffsetUpdate : U16 := 0
  /-- target MAC for connection following (byte order reversed) -/
  target : Vector U8 6 := Vector.replicate 6 0
  targetSet : Bool := false
  /-- when was the last packet received -/
  lastPacket : U32 := 0
  deriving DecidableEq, Repr

/-! ## Channels -/

def btleChannelIndexToPhys (idx : U8) : U16 :=
  let idx := idx.setWidth 16
  if idx < 11 then 2404 + 2 * idx
  else if idx < 37 then 2428 + 2 * (idx - 11)
  else if idx = 37 then 2402
  else if idx = 38 then 2426
  else 2480

/-- The sum `channel_idx + channel_increment` is an `int`: it is taken before the remainder. -/
def btleNextHop (le : LeState) : U16 × LeState :=
  (btleChannelIndexToPhys le.channelIdx,
    { le with
      channelIdx := BitVec.ofNat 8 ((le.channelIdx.toNat + le.channelIncrement.toNat) % 37) })

/-- From the number of channels hopped between data channels 0 and 1 to the hop increment. -/
def hopIntervalLut : Vector U8 37 := #v[
  0, 1, 19, 25, 28, 15, 31, 16, 14, 33, 26, 27, 34, 20, 8,
  5, 7, 24, 35, 2, 13, 30, 32, 29, 17, 3, 10, 11, 4, 23, 21,
  6, 22, 9, 12, 18, 36]

/-! ## CRC -/

/-- The inner loop body of `btle_calc_crc`, on `state` and `cur`. -/
def calcCrcBit (p : U32 × U8) : U32 × U8 :=
  let (state, cur) := p
  let nextBit := (state ^^^ cur.setWidth 32) &&& 1
  let cur := cur >>> 1
  let state := state >>> 1
  if nextBit ≠ 0 then ((state ||| (1 <<< 23)) ^^^ 0x5a6000, cur) else (state, cur)

/-- The inner loop of `btle_calc_crc`: eight passes over one octet. -/
def calcCrcByte (state : U32) (cur : U8) : U32 := (calcCrcBit^[8] (state, cur)).1

def btleCalcCrc (crcInit : U32) (data : List U8) (len : ℕ) : U32 :=
  (data.take len).foldl calcCrcByte (crcInit &&& 0xffffff)

/-- The inner loop body of `btle_reverse_crc`, pass `j` over the octet `cur`. -/
def reverseCrcBit (cur : U8) (state : U32) (j : ℕ) : U32 :=
  let topBit : U32 := state >>> 23
  let state : U32 := (state <<< 1) &&& 0xffffff
  let state : U32 := state ||| (topBit ^^^ BitVec.setWidth 32 ((cur >>> (7 - j)) &&& 1))
  if topBit ≠ 0 then state ^^^ 0xb4c000 else state

def reverseCrcByte (state : U32) (cur : U8) : U32 :=
  (List.range 8).foldl (reverseCrcBit cur) state

/-- The last loop of `btle_reverse_crc`, which `promisc_follow_cb` repeats: the low 24 bits in the
opposite order. -/
def reverse24 (state : U32) : U32 :=
  (List.range 24).foldl (fun (ret : U32) (i : ℕ) => ret ||| (((state >>> i) &&& 1) <<< (23 - i))) 0

def btleReverseCrc (crc : U32) (data : List U8) (len : ℕ) : U32 :=
  reverse24 ((data.take len).reverse.foldl reverseCrcByte crc)

set_option maxRecDepth 2000 in
def btleCrcLut : Vector U32 256 := #v[
  0x000000, 0x01b4c0, 0x036980, 0x02dd40, 0x06d300, 0x0767c0, 0x05ba80, 0x040e40,
  0x0da600, 0x0c12c0, 0x0ecf80, 0x0f7b40, 0x0b7500, 0x0ac1c0, 0x081c80, 0x09a840,
  0x1b4c00, 0x1af8c0, 0x182580, 0x199140, 0x1d9f00, 0x1c2bc0, 0x1ef680, 0x1f4240,
  0x16ea00, 0x175ec0, 0x158380, 0x143740, 0x103900, 0x118dc0, 0x135080, 0x12e440,
  0x369800, 0x372cc0, 0x35f180, 0x344540, 0x304b00, 0x31ffc0, 0x332280, 0x329640,
  0x3b3e00, 0x3a8ac0, 0x385780, 0x39e340, 0x3ded00, 0x3c59c0, 0x3e8480, 0x3f3040,
  0x2dd400, 0x2c60c0, 0x2ebd80, 0x2f0940, 0x2b0700, 0x2ab3c0, 0x286e80, 0x29da40,
  0x207200, 0x21c6c0, 0x231b80, 0x22af40, 0x26a100, 0x2715c0, 0x25c880, 0x247c40,
  0x6d3000, 0x6c84c0, 0x6e5980, 0x6fed40, 0x6be300, 0x6a57c0, 0x688a80, 0x693e40,
  0x609600, 0x6122c0, 0x63ff80, 0x624b40, 0x664500, 0x67f1c0, 0x652c80, 0x649840,
  0x767c00, 0x77c8c0, 0x751580, 0x74a140, 0x70af00, 0x711bc0, 0x73c680, 0x727240,
  0x7bda00, 0x7a6ec0, 0x78b380, 0x790740, 0x7d0900, 0x7cbdc0, 0x7e6080, 0x7fd440,
  0x5ba800, 0x5a1cc0, 0x58c180, 0x597540, 0x5d7b00, 0x5ccfc0, 0x5e1280, 0x5fa640,
  0x560e00, 0x57bac0, 0x556780, 0x54d340, 0x50dd00, 0x5169c0, 0x53b480, 0x520040,
  0x40e400, 0x4150c0, 0x438d80, 0x423940, 0x463700, 0x4783c0, 0x455e80, 0x44ea40,
  0x4d4200, 0x4cf6c0, 0x4e2b80, 0x4f9f40, 0x4b9100, 0x4a25c0, 0x48f880, 0x494c40,
  0xda6000, 0xdbd4c0, 0xd90980, 0xd8bd40, 0xdcb300, 0xdd07c0, 0xdfda80, 0xde6e40,
  0xd7c600, 0xd672c0, 0xd4af80, 0xd51b40, 0xd11500, 0xd0a1c0, 0xd27c80, 0xd3c840,
  0xc12c00, 0xc098c0, 0xc24580, 0xc3f140, 0xc7ff00, 0xc64bc0, 0xc49680, 0xc52240,
  0xcc8a00, 0xcd3ec0, 0xcfe380, 0xce5740, 0xca5900, 0xcbedc0, 0xc93080, 0xc88440,
  0xecf800, 0xed4cc0, 0xef9180, 0xee2540, 0xea2b00, 0xeb9fc0, 0xe94280, 0xe8f640,
  0xe15e00, 0xe0eac0, 0xe23780, 0xe38340, 0xe78d00, 0xe639c0, 0xe4e480, 0xe55040,
  0xf7b400, 0xf600c0, 0xf4dd80, 0xf56940, 0xf16700, 0xf0d3c0, 0xf20e80, 0xf3ba40,
  0xfa1200, 0xfba6c0, 0xf97b80, 0xf8cf40, 0xfcc100, 0xfd75c0, 0xffa880, 0xfe1c40,
  0xb75000, 0xb6e4c0, 0xb43980, 0xb58d40, 0xb18300, 0xb037c0, 0xb2ea80, 0xb35e40,
  0xbaf600, 0xbb42c0, 0xb99f80, 0xb82b40, 0xbc2500, 0xbd91c0, 0xbf4c80, 0xbef840,
  0xac1c00, 0xada8c0, 0xaf7580, 0xaec140, 0xaacf00, 0xab7bc0, 0xa9a680, 0xa81240,
  0xa1ba00, 0xa00ec0, 0xa2d380, 0xa36740, 0xa76900, 0xa6ddc0, 0xa40080, 0xa5b440,
  0x81c800, 0x807cc0, 0x82a180, 0x831540, 0x871b00, 0x86afc0, 0x847280, 0x85c640,
  0x8c6e00, 0x8ddac0, 0x8f0780, 0x8eb340, 0x8abd00, 0x8b09c0, 0x89d480, 0x886040,
  0x9a8400, 0x9b30c0, 0x99ed80, 0x985940, 0x9c5700, 0x9de3c0, 0x9f3e80, 0x9e8a40,
  0x972200, 0x9696c0, 0x944b80, 0x95ff40, 0x91f100, 0x9045c0, 0x929880, 0x932c40]

/-- The loop body of `btle_crcgen_lut`. -/
def crcgenLutByte (state : U32) (cur : U8) : U32 :=
  let key := cur ^^^ (state &&& 0xff).setWidth 8
  (state >>> 8) ^^^ btleCrcLut.get key.toFin

def btleCrcgenLut (crcInit : U32) (data : List U8) (len : ℕ) : U32 :=
  (data.take len).foldl crcgenLutByte (crcInit &&& 0xffffff)

end Ubertooth.Firmware
