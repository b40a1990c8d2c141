import Ubertooth.Firmware.Session

/-!
# `bluetooth_rxtx.c`: looking for access addresses

`bt_generic_le` unpacks every DMA block into the second half of `unpacked`, whose first half holds
the block before, and `cb_le_promisc` searches the buffer for the header of an empty data PDU, as it
looks whitened on the channel. The 32 symbols before it are taken for an access address, which
`see_aa` counts. A symbol is an octet, 0 or 1. `Listening.seen` is the history of the searches.
-/

namespace Ubertooth.Firmware

/-- `DMA_SIZE*8`: the symbols of a block. -/
abbrev blockSymbols : ℕ := dmaSize * 8

/-! ## `see_aa` -/

/-- `le_promisc.active_aa[i]` -/
def LePromiscState.entry (p : LePromiscState) (i : ℕ) : LePromiscActiveAa := p.activeAa[i]?.getD {}

def LePromiscState.setEntry (p : LePromiscState) (i : ℕ) (x : LePromiscActiveAa) : LePromiscState :=
  { p with activeAa := p.activeAa.setIfInBounds i x }

/-- The loop body that looks for someone to evict, on `killme` and `max`. -/
def evictStep (p : LePromiscState) (x : ℕ × ℤ) (i : ℕ) : ℕ × ℤ :=
  if (p.entry i).count < x.2 ∨ x.2 < 0 then (i, (p.entry i).count) else x

/-- `killme`; the first pass of the loop always assigns it. -/
def LePromiscState.killme (p : LePromiscState) : ℕ :=
  ((List.range 32).foldl (evictStep p) (0, -1)).1

/-- called when we see an AA, add it to the list -/
def seeAa (p : LePromiscState) (aa : U32) : LePromiscState :=
  match (List.range 32).find? fun i => (p.entry i).aa = aa with
  | some i => p.setEntry i { p.entry i with count := (p.entry i).count + 1 }
  -- evict someone
  | none => p.setEntry p.killme { aa := aa, count := 1 }

/-! ## `cb_le_promisc` -/

/-- empty data PDU: 01 00 -/
def emptyHeaders : List (List U8) := [
  [1, 0, 0, 0, 0, 0, 0, 0, 0, 0, 0, 0, 0, 0, 0, 0],
  [1, 0, 0, 1, 0, 0, 0, 0, 0, 0, 0, 0, 0, 0, 0, 0],
  [1, 0, 1, 0, 0, 0, 0, 0, 0, 0, 0, 0, 0, 0, 0, 0],
  [1, 0, 1, 1, 0, 0, 0, 0, 0, 0, 0, 0, 0, 0, 0, 0]]

/-- `whitening[idx]`, `n` places on from where the channel starts. -/
def whiteningAt (channel : U16) (n : ℕ) : U8 :=
  whitening.getD (((whiteningIndex.getD (channelIndexOf channel) 0).toNat + n) % whitening.length) 0

/-- `desired`, with the data whitened. -/
def desired (channel : U16) : List (List U8) :=
  emptyHeaders.map fun header => header.zipIdx.map fun x => x.1 ^^^ whiteningAt channel x.2

/-- `matching >= 0` -/
def startsHeader (channel : U16) (unpacked : ℕ → U8) (i : ℕ) : Bool :=
  (desired channel).any fun header => header.zipIdx.all fun x => decide (unpacked (i + x.2) = x.1)

/-- The loop body that gathers octet `j`, on `byte`. -/
def gatherBit (channel : U16) (unpacked : ℕ → U8) (i j : ℕ) (byte : U8) (k : ℕ) : U8 :=
  let offset := k + j * 8 + i - 32
  if 2 * blockSymbols ≤ offset then byte
  else
    -- unwhiten data bytes
    let bit := if 4 ≤ j then unpacked offset ^^^ whiteningAt channel ((j - 4) * 8 + k)
      else unpacked offset
    byte ||| (bit <<< k)

/-- `idle_rxbuf[j]` -/
def gatherByte (channel : U16) (unpacked : ℕ → U8) (i j : ℕ) : U8 :=
  (List.range 8).foldl (gatherBit channel unpacked i j) 0

/-- `idle_rxbuf`; the unpacking has shifted the rest of it out. -/
def candidateBuf (channel : U16) (unpacked : ℕ → U8) (i : ℕ) : Vector U8 dmaSize :=
  Vector.ofFn fun j => if j.val < 4 + 3 + 3 then gatherByte channel unpacked i j.val else 0

/-- `aa` -/
def candidateAa (channel : U16) (unpacked : ℕ → U8) (i : ℕ) : U32 :=
  let octet : ℕ → U32 := fun j => (gatherByte channel unpacked i j).setWidth 32
  (octet 3 <<< 24) ||| (octet 2 <<< 16) ||| (octet 1 <<< 8) ||| octet 0

/-- Where the search finds a header. -/
def candidates (channel : U16) (unpacked : ℕ → U8) : List ℕ :=
  (List.range' 32 (2 * blockSymbols - 32 - 16 - 32)).filter (startsHeader channel unpacked)

/-- found a match! unwhiten it and send it home -/
def sendHome (channel : U16) (unpacked : ℕ → U8) (s : Fw) (i : ℕ) : Fw :=
  (enqueue .lePacket (candidateBuf channel unpacked i)
    { s with lePromisc := seeAa s.lePromisc (candidateAa channel unpacked i) }).2

/-- The first address that was seen often enough. -/
def LePromiscState.heard (p : LePromiscState) : Option U32 :=
  ((List.range 32).find? fun i => 3 < (p.entry i).count).map fun i => (p.entry i).aa

/-- `cb_le_promisc`, with the address to follow if it returns 0. -/
def cbLePromisc (unpacked : ℕ → U8) (s : Fw) : Option U32 × Fw :=
  let s := (candidates s.channel unpacked).foldl (sendHome s.channel unpacked) s
  match s.lePromisc.heard with
  | some aa => (some aa, followAddress aa s)
  | none => (none, s)

/-! ## `bt_generic_le` -/

/-- A block of received octets, as the DMA leaves it in `idle_rxbuf`. -/
abbrev Block := ℕ → U8

/-- `(idle_rxbuf[i] & 0x80) >> 7`, once it has been shifted `j` times. -/
def Block.symbol (block : Block) (n : ℕ) : U8 := ((block (n / 8) <<< (n % 8)) &&& 0x80) >>> 7

/-- copy the previously unpacked symbols to the front of the buffer, and unpack the new packet to
the end of the buffer -/
def unpack (unpacked : ℕ → U8) (block : Block) : ℕ → U8 := fun i =>
  if i < blockSymbols then unpacked (i + blockSymbols)
  else if i < 2 * blockSymbols then block.symbol (i - blockSymbols)
  else unpacked i

/-- The loop of `bt_generic_le`: the firmware, the buffer, the address it returns with, and how many
blocks it has taken. -/
structure Listening where
  fw : Fw
  unpacked : ℕ → U8
  heard : Option U32 := none
  blocks : ℕ := 0
  /-- Where candidates were found, in symbols from the beginning of the first search. -/
  seen : List ℕ := []

/-- A round with a block that is not squelched. -/
def listenRound (block : Block) (g : Listening) : Listening :=
  match g.heard with
  | some _ => g
  | none =>
    let unpacked := unpack g.unpacked block
    let r := cbLePromisc unpacked g.fw
    { fw := r.2
      unpacked := unpacked
      heard := r.1
      blocks := g.blocks + 1
      seen := g.seen ++ (candidates g.fw.channel unpacked).map (blockSymbols * g.blocks + ·) }

/-- What `bt_promisc_le` and `bt_generic_le` do before the loop. -/
def startListening (s : Fw) : Fw :=
  queueInit (resetLe (csThresholdCalcAndSet (jumpToDataChannel (resetLePromisc s))))

/-- The first `n` blocks of a stream; `unpacked` is what the buffer held before. -/
def listenTo (s : Fw) (unpacked : ℕ → U8) (stream : ℕ → Block) : ℕ → Listening
  | 0 => { fw := startListening s, unpacked := unpacked }
  | n + 1 => listenRound (stream n) (listenTo s unpacked stream n)

end Ubertooth.Firmware
