import Ubertooth.Firmware.Rxtx

/-!
# Whitening

The two ends of the air interface. `le_transmit` whitens the octets it sends bit by bit from a
sequence of 127 bits, which it enters at a place that depends on the channel; `bt_le_sync`
unwhitens what the SSP delivers to `rxbuf1` a word at a time, from a table of words for each
channel. `bt_slave_le` is what the firmware sends.
-/

namespace Ubertooth.Firmware

/-! ## Tables -/

def whitening : List U8 := [
  1, 1, 1, 1, 0, 1, 0, 1, 0, 1, 0, 0, 0, 0, 1, 0, 1, 1, 0, 1, 1, 1,
  1, 0, 0, 1, 1, 1, 0, 0, 1, 0, 1, 0, 1, 1, 0, 0, 1, 1, 0, 0, 0, 0,
  0, 1, 1, 0, 1, 1, 0, 1, 0, 1, 1, 1, 0, 1, 0, 0, 0, 1, 1, 0, 0, 1,
  0, 0, 0, 1, 0, 0, 0, 0, 0, 0, 1, 0, 0, 1, 0, 0, 1, 1, 0, 1, 0, 0,
  1, 1, 1, 1, 0, 1, 1, 1, 0, 0, 0, 0, 1, 1, 1, 1, 1, 1, 1, 0, 0, 0,
  1, 1, 1, 0, 1, 1, 0, 0, 0, 1, 0, 1, 0, 0, 1, 0, 1]

def whiteningIndex : List U8 := [
  70, 62, 120, 111, 77, 46, 15, 101, 66, 39, 31, 26, 80, 83, 125, 89, 10, 35, 8, 54,
  122, 17, 33, 0, 58, 115, 6, 94, 86, 49, 52, 20, 40, 27, 84, 90, 63, 112, 47, 102]

def whiteningWord : List (List U32) := [
  [0xc3bcb240, 0x5f4a371f, 0x9a9cf685, 0x44c5d6c1, 0xe1de5920, 0xafa51b8f,
   0xcd4e7b42, 0x2262eb60, 0xf0ef2c90, 0x57d28dc7, 0x66a73da1, 0x113175b0],
  [0xbcb24089, 0x4a371fc3, 0x9cf6855f, 0xc5d6c19a, 0xde592044, 0xa51b8fe1,
   0x4e7b42af, 0x62eb60cd, 0xef2c9022, 0xd28dc7f0, 0xa73da157, 0x3175b066],
  [0x3da157d2, 0x75b066a7, 0x96481131, 0x46e3f877, 0x9ed0abe9, 0xbad83353,
   0xcb240898, 0xa371fc3b, 0xcf6855f4, 0x5d6c19a9, 0xe592044c, 0x51b8fe1d],
  [0x42afa51b, 0x60cd4e7b, 0x902262eb, 0xc7f0ef2c, 0xa157d28d, 0xb066a73d,
   0x48113175, 0xe3f87796, 0xd0abe946, 0xd833539e, 0x240898ba, 0x71fc3bcb],
  [0x3f877964, 0x0abe946e, 0x833539ed, 0x40898bad, 0x1fc3bcb2, 0x855f4a37,
   0xc19a9cf6, 0x2044c5d6, 0x8fe1de59, 0x42afa51b, 0x60cd4e7b, 0x902262eb],
  [0x40898bad, 0x1fc3bcb2, 0x855f4a37, 0xc19a9cf6, 0x2044c5d6, 0x8fe1de59,
   0x42afa51b, 0x60cd4e7b, 0x902262eb, 0xc7f0ef2c, 0xa157d28d, 0xb066a73d],
  [0xc19a9cf6, 0x2044c5d6, 0x8fe1de59, 0x42afa51b, 0x60cd4e7b, 0x902262eb,
   0xc7f0ef2c, 0xa157d28d, 0xb066a73d, 0x48113175, 0xe3f87796, 0xd0abe946],
  [0xbe946e3f, 0x3539ed0a, 0x898bad83, 0xc3bcb240, 0x5f4a371f, 0x9a9cf685,
   0x44c5d6c1, 0xe1de5920, 0xafa51b8f, 0xcd4e7b42, 0x2262eb60, 0xf0ef2c90],
  [0x3bcb2408, 0xf4a371fc, 0xa9cf6855, 0x4c5d6c19, 0x1de59204, 0xfa51b8fe,
   0xd4e7b42a, 0x262eb60c, 0x0ef2c902, 0x7d28dc7f, 0x6a73da15, 0x13175b06],
  [0x44c5d6c1, 0xe1de5920, 0xafa51b8f, 0xcd4e7b42, 0x2262eb60, 0xf0ef2c90,
   0x57d28dc7, 0x66a73da1, 0x113175b0, 0xf8779648, 0xabe946e3, 0x33539ed0],
  [0xc5d6c19a, 0xde592044, 0xa51b8fe1, 0x4e7b42af, 0x62eb60cd, 0xef2c9022,
   0xd28dc7f0, 0xa73da157, 0x3175b066, 0x77964811, 0xe946e3f8, 0x539ed0ab],
  [0xbad83353, 0xcb240898, 0xa371fc3b, 0xcf6855f4, 0x5d6c19a9, 0xe592044c,
   0x51b8fe1d, 0xe7b42afa, 0x2eb60cd4, 0xf2c90226, 0x28dc7f0e, 0x73da157d],
  [0xc7f0ef2c, 0xa157d28d, 0xb066a73d, 0x48113175, 0xe3f87796, 0xd0abe946,
   0xd833539e, 0x240898ba, 0x71fc3bcb, 0x6855f4a3, 0x6c19a9cf, 0x92044c5d],
  [0xb8fe1de5, 0xb42afa51, 0xb60cd4e7, 0xc902262e, 0xdc7f0ef2, 0xda157d28,
   0x5b066a73, 0x64811317, 0x6e3f8779, 0xed0abe94, 0xad833539, 0xb240898b],
  [0x39ed0abe, 0x8bad8335, 0xbcb24089, 0x4a371fc3, 0x9cf6855f, 0xc5d6c19a,
   0xde592044, 0xa51b8fe1, 0x4e7b42af, 0x62eb60cd, 0xef2c9022, 0xd28dc7f0],
  [0x46e3f877, 0x9ed0abe9, 0xbad83353, 0xcb240898, 0xa371fc3b, 0xcf6855f4,
   0x5d6c19a9, 0xe592044c, 0x51b8fe1d, 0xe7b42afa, 0x2eb60cd4, 0xf2c90226],
  [0x33539ed0, 0x0898bad8, 0xfc3bcb24, 0x55f4a371, 0x19a9cf68, 0x044c5d6c,
   0xfe1de592, 0x2afa51b8, 0x0cd4e7b4, 0x02262eb6, 0x7f0ef2c9, 0x157d28dc],
  [0x4c5d6c19, 0x1de59204, 0xfa51b8fe, 0xd4e7b42a, 0x262eb60c, 0x0ef2c902,
   0x7d28dc7f, 0x6a73da15, 0x13175b06, 0x87796481, 0xbe946e3f, 0x3539ed0a],
  [0xcd4e7b42, 0x2262eb60, 0xf0ef2c90, 0x57d28dc7, 0x66a73da1, 0x113175b0,
   0xf8779648, 0xabe946e3, 0x33539ed0, 0x0898bad8, 0xfc3bcb24, 0x55f4a371],
  [0xb240898b, 0x371fc3bc, 0xf6855f4a, 0xd6c19a9c, 0x592044c5, 0x1b8fe1de,
   0x7b42afa5, 0xeb60cd4e, 0x2c902262, 0x8dc7f0ef, 0x3da157d2, 0x75b066a7],
  [0xcf6855f4, 0x5d6c19a9, 0xe592044c, 0x51b8fe1d, 0xe7b42afa, 0x2eb60cd4,
   0xf2c90226, 0x28dc7f0e, 0x73da157d, 0x175b066a, 0x79648113, 0x946e3f87],
  [0xb066a73d, 0x48113175, 0xe3f87796, 0xd0abe946, 0xd833539e, 0x240898ba,
   0x71fc3bcb, 0x6855f4a3, 0x6c19a9cf, 0x92044c5d, 0xb8fe1de5, 0xb42afa51],
  [0x3175b066, 0x77964811, 0xe946e3f8, 0x539ed0ab, 0x98bad833, 0x3bcb2408,
   0xf4a371fc, 0xa9cf6855, 0x4c5d6c19, 0x1de59204, 0xfa51b8fe, 0xd4e7b42a],
  [0x4e7b42af, 0x62eb60cd, 0xef2c9022, 0xd28dc7f0, 0xa73da157, 0x3175b066,
   0x77964811, 0xe946e3f8, 0x539ed0ab, 0x98bad833, 0x3bcb2408, 0xf4a371fc],
  [0xcb240898, 0xa371fc3b, 0xcf6855f4, 0x5d6c19a9, 0xe592044c, 0x51b8fe1d,
   0xe7b42afa, 0x2eb60cd4, 0xf2c90226, 0x28dc7f0e, 0x73da157d, 0x175b066a],
  [0xb42afa51, 0xb60cd4e7, 0xc902262e, 0xdc7f0ef2, 0xda157d28, 0x5b066a73,
   0x64811317, 0x6e3f8779, 0xed0abe94, 0xad833539, 0xb240898b, 0x371fc3bc],
  [0x3539ed0a, 0x898bad83, 0xc3bcb240, 0x5f4a371f, 0x9a9cf685, 0x44c5d6c1,
   0xe1de5920, 0xafa51b8f, 0xcd4e7b42, 0x2262eb60, 0xf0ef2c90, 0x57d28dc7],
  [0x4a371fc3, 0x9cf6855f, 0xc5d6c19a, 0xde592044, 0xa51b8fe1, 0x4e7b42af,
   0x62eb60cd, 0xef2c9022, 0xd28dc7f0, 0xa73da157, 0x3175b066, 0x77964811],
  [0x371fc3bc, 0xf6855f4a, 0xd6c19a9c, 0x592044c5, 0x1b8fe1de, 0x7b42afa5,
   0xeb60cd4e, 0x2c902262, 0x8dc7f0ef, 0x3da157d2, 0x75b066a7, 0x96481131],
  [0x48113175, 0xe3f87796, 0xd0abe946, 0xd833539e, 0x240898ba, 0x71fc3bcb,
   0x6855f4a3, 0x6c19a9cf, 0x92044c5d, 0xb8fe1de5, 0xb42afa51, 0xb60cd4e7],
  [0xc902262e, 0xdc7f0ef2, 0xda157d28, 0x5b066a73, 0x64811317, 0x6e3f8779,
   0xed0abe94, 0xad833539, 0xb240898b, 0x371fc3bc, 0xf6855f4a, 0xd6c19a9c],
  [0xb60cd4e7, 0xc902262e, 0xdc7f0ef2, 0xda157d28, 0x5b066a73, 0x64811317,
   0x6e3f8779, 0xed0abe94, 0xad833539, 0xb240898b, 0x371fc3bc, 0xf6855f4a],
  [0x2262eb60, 0xf0ef2c90, 0x57d28dc7, 0x66a73da1, 0x113175b0, 0xf8779648,
   0xabe946e3, 0x33539ed0, 0x0898bad8, 0xfc3bcb24, 0x55f4a371, 0x19a9cf68],
  [0x5d6c19a9, 0xe592044c, 0x51b8fe1d, 0xe7b42afa, 0x2eb60cd4, 0xf2c90226,
   0x28dc7f0e, 0x73da157d, 0x175b066a, 0x79648113, 0x946e3f87, 0x39ed0abe],
  [0xdc7f0ef2, 0xda157d28, 0x5b066a73, 0x64811317, 0x6e3f8779, 0xed0abe94,
   0xad833539, 0xb240898b, 0x371fc3bc, 0xf6855f4a, 0xd6c19a9c, 0x592044c5],
  [0xa371fc3b, 0xcf6855f4, 0x5d6c19a9, 0xe592044c, 0x51b8fe1d, 0xe7b42afa,
   0x2eb60cd4, 0xf2c90226, 0x28dc7f0e, 0x73da157d, 0x175b066a, 0x79648113],
  [0xde592044, 0xa51b8fe1, 0x4e7b42af, 0x62eb60cd, 0xef2c9022, 0xd28dc7f0,
   0xa73da157, 0x3175b066, 0x77964811, 0xe946e3f8, 0x539ed0ab, 0x98bad833],
  [0xa157d28d, 0xb066a73d, 0x48113175, 0xe3f87796, 0xd0abe946, 0xd833539e,
   0x240898ba, 0x71fc3bcb, 0x6855f4a3, 0x6c19a9cf, 0x92044c5d, 0xb8fe1de5],
  [0x2044c5d6, 0x8fe1de59, 0x42afa51b, 0x60cd4e7b, 0x902262eb, 0xc7f0ef2c,
   0xa157d28d, 0xb066a73d, 0x48113175, 0xe3f87796, 0xd0abe946, 0xd833539e],
  [0x5f4a371f, 0x9a9cf685, 0x44c5d6c1, 0xe1de5920, 0xafa51b8f, 0xcd4e7b42,
   0x2262eb60, 0xf0ef2c90, 0x57d28dc7, 0x66a73da1, 0x113175b0, 0xf8779648]]

/-- `btle_channel_index(channel)`, where `channel` counts MHz from 2402. -/
def btleChannelIndex (channel : U8) : U8 :=
  let channel := channel / 2
  if channel = 0 then 37
  else if channel < 12 then channel - 1
  else if channel = 12 then 38
  else if channel < 39 then channel - 2
  else 39

/-- `btle_channel_index(channel-2402)` -/
def channelIndexOf (channel : U16) : ℕ := (btleChannelIndex ((channel - 2402).setWidth 8)).toNat

/-! ## `le_transmit` -/

/-- The inner loop body for the access address, on `byte` and `txbuf[i]`. -/
def reverseBit (x : U8 × U8) (j : ℕ) : U8 × U8 :=
  let (byte, out) := x
  (byte >>> 1, out ||| ((byte &&& 1) <<< (7 - j)))

/-- The first four octets of `txbuf`: AA. -/
def txAccessAddress (aa : U32) : List U8 :=
  (octetsOf aa 4).map fun byte => ((List.range 8).foldl reverseBit (byte, 0)).2

/-- The inner loop body for the data, on `byte`, `idx` and `txbuf[i+4]`. -/
def whitenBit (x : U8 × ℕ × U8) (j : ℕ) : U8 × ℕ × U8 :=
  let (byte, idx, out) := x
  let bit := (byte &&& 1) ^^^ whitening.getD idx 0
  (byte >>> 1, (idx + 1) % whitening.length, out ||| (bit <<< (7 - j)))

/-- The inner loop for the data. -/
def whitenByte (byte : U8) (idx : ℕ) : U8 × ℕ × U8 :=
  (List.range 8).foldl whitenBit (byte, idx, 0)

/-- whiten the data and copy it into the txbuf -/
def whitenData : List U8 → ℕ → List U8
  | [], _ => []
  | byte :: data, idx =>
    (whitenByte byte idx).2.2 :: whitenData data (whitenByte byte idx).2.1

/-- `txbuf` in `le_transmit(aa, len, data)`. -/
def leTxbuf (channel : U16) (aa : U32) (len : ℕ) (data : List U8) : List U8 :=
  txAccessAddress aa ++
    whitenData (data.take len) (whiteningIndex.getD (channelIndexOf channel) 0).toNat

/-! ## `bt_le_sync` -/

/-- `v`: four octets of `rxbuf1`, the first on top. -/
def rxWord (rxbuf1 : ℕ → U8) (i : ℕ) : U32 :=
  ((rxbuf1 i).setWidth 32 <<< 24) ||| ((rxbuf1 (i + 1)).setWidth 32 <<< 16) |||
    ((rxbuf1 (i + 2)).setWidth 32 <<< 8) ||| (rxbuf1 (i + 3)).setWidth 32

/-- `rbit(v) ^ whit[i/4]` -/
def packetWord (channel : U16) (rxbuf1 : ℕ → U8) (i : ℕ) : U32 :=
  (rxWord rxbuf1 i).reverse ^^^ (whiteningWord.getD (channelIndexOf channel) []).getD (i / 4) 0

/-- Octet `b` of a word in memory. -/
def wordOctet (x : U32) (b : ℕ) : U8 := (x >>> (8 * b)).setWidth 8

/-- `packet[k] = x` -/
def Packet.setWord (p : Packet) (k : ℕ) (x : U32) : Packet :=
  ⟨Vector.ofFn fun i => if i.val / 4 = k then wordOctet x (i.val % 4) else p[i.val]⟩

/-- The words `packet[i/4+1]` for `i` from 4 to 40. -/
def unwhitenRest (channel : U16) (rxbuf1 : ℕ → U8) (p : Packet) : Packet :=
  (List.range 10).foldl
    (fun p k => p.setWord (k + 2) (packetWord channel rxbuf1 (4 * (k + 1)))) p

/-- `packet` in `bt_le_sync`. If the length is too great the rest is left as it was, in memory that
held `stack`. -/
def btLeSyncPacket (stack : Packet) (le : LeState) (channel : U16) (rxbuf1 : ℕ → U8) : Packet :=
  let p := (stack.setWord 0 le.accessAddress).setWord 1 (packetWord channel rxbuf1 0)
  if pduLen p ≤ 39 then unwhitenRest channel rxbuf1 p else p

/-! ## `bt_slave_le` -/

/-- The three octets of the CRC, low octet first, after the octets it is taken over. -/
def withCrc (seed : U32) (pdu : List U8) : List U8 :=
  let calcCrc := btleCalcCrc seed pdu pdu.length
  pdu ++ [calcCrc.setWidth 8, (calcCrc >>> 8).setWidth 8, (calcCrc >>> 16).setWidth 8]

/-- `adv_ind`, up to the CRC, with the MAC address copied in. -/
def advInd (slaveMacAddress : ℕ → U8) : List U8 :=
  [0x00, 0x09] ++ (List.range 6).map (fun i => slaveMacAddress (5 - i)) ++ [0x02, 0x01, 0x05]

/-- `data` in the call of `le_transmit`. -/
def slaveData (le : LeState) (slaveMacAddress : ℕ → U8) : List U8 :=
  withCrc le.crcInitReversed (advInd slaveMacAddress)

end Ubertooth.Firmware
