import Ubertooth.Foundations.Loop
import Ubertooth.Foundations.Stdio
import Ubertooth.Host.Afh
import Ubertooth.Host.PacketOctets

/-!
# `ubertooth.c`: dumps

A dump is a file of packets in full USB packet format, each after the time it was received at.
`rx_dump` writes one and `stream_rx_file` gives its packets to a callback; `cb_btle` dumps what it
does not leave out. What `fwrite` buffers is in the file at once.
-/

namespace Ubertooth.Host

open Foundations

variable {σ : Type*}

/-- `htobe32`, as it lies in memory -/
def htobe32 (word : U32) : List U8 := [octet word 3, octet word 2, octet word 1, octet word 0]

/-- `be32toh` -/
def be32toh (octets : List U8) : U32 :=
  octets.getD 0 0 ++ octets.getD 1 0 ++ octets.getD 2 0 ++ octets.getD 3 0

/-- A packet is written to `dumpfile`. -/
def dumpRx (systime : U32) (rx : UsbPktRx) (dumpfile : CFile) : CFile :=
  (dumpfile.fwrite (htobe32 systime)).fwrite rx.octets

/-! ## Writing -/

/-- The file, and how often `time` was called. -/
structure Dump where
  dumpfile : CFile := { content := [] }
  calls : ℕ := 0

/-- `cb_dump_full`; `time` is what `time(NULL)` returns, call by call. -/
def cbDumpFull (time : ℕ → U64) : RxCallback Dump := fun rb d =>
  let rx := rb.topUsb
  let systime := (time d.calls).setWidth 32
  (false, { dumpfile := dumpRx systime rx d.dumpfile, calls := d.calls + 1 })

/-! ## Reading -/

/-- What a callback given to `stream_rx_file` does, which finds the time in `systime`; its file does
not look at `stop_ubertooth`. -/
abbrev FileCallback (σ : Type*) := U32 → Ringbuffer → σ → σ

/-- What `stream_rx_file` works on, with the data of the callback. -/
structure Playback (σ : Type*) where
  fp : CFile
  systime : U32
  packets : Ringbuffer
  args : σ

/-- The body of the loop of `stream_rx_file`; a packet that is not whole ends it. -/
def playPacket (cb : FileCallback σ) (x : Playback σ) : Playback σ ⊕ Playback σ :=
  let (systimeBe, fp) := x.fp.fread 4
  if systimeBe.length ≠ 4 then .inr { x with fp := fp }
  else
    let systime := be32toh systimeBe
    let (buf, fp) := fp.fread pktLen
    if buf.length ≠ pktLen then .inr { x with fp := fp, systime := systime }
    else
      let packets := x.packets.add (packetOf buf)
      .inl ⟨fp, systime, packets, cb systime packets x.args⟩

/-- `stream_rx_file`, for as many rounds at most -/
def streamRxFile (cb : FileCallback σ) : ℕ → Playback σ → Option (Playback σ) :=
  iterate (playPacket cb)

/-! ## `cb_btle` -/

/-- `cb_btle` with `dumpfile`: its static variables, and the lines it prints, with `systime` where
it does. The levels that it computes go to captures of other formats only. -/
structure BtleSniffer where
  state : CallbackState := {}
  history : RssiHistory := initialHistory
  dumpfile : CFile := { content := [] }
  lines : List (Option U32 × CallbackOutput) := []

/-- The lines printed for packets. -/
def BtleSniffer.packets (x : BtleSniffer) : List (Option U32 × CallbackOutput) :=
  x.lines.filter fun line => line.1.isSome

/-- Whether `cb_btle` comes to its dump. -/
def BtleDumps (rx : UsbPktRx) : Prop :=
  rx.pktType ≠ UsbPktType.lePromisc.toU8 ∧ ¬numBredrChannels - 1 < rx.channel.toNat

instance (rx : UsbPktRx) : Decidable (BtleDumps rx) := inferInstanceAs (Decidable (_ ∧ _))

/-- Whether the options then leave a packet out. -/
def BtleFiltered (offenses : UsbPktRx → ℕ) (allowed : Option ℕ) (rx : UsbPktRx) : Prop :=
  allowed.any fun n => decide (n < offenses rx)

instance (offenses : UsbPktRx → ℕ) (allowed : Option ℕ) (rx : UsbPktRx) :
    Decidable (BtleFiltered offenses allowed rx) := inferInstanceAs (Decidable (_ = true))

/-- `cb_btle`, which has `systime` from its caller or from `time`, and options or none. -/
def cbBtleDump (offenses : UsbPktRx → ℕ) (allowed : Option ℕ) : FileCallback BtleSniffer :=
  fun systime rb x =>
    let rx := rb.topUsb
    let (line, state) := cbBtle offenses allowed rx x.state
    { state := state
      history := (cbBtleHistory offenses allowed rb x.history).2
      dumpfile := if BtleDumps rx then dumpRx systime rx x.dumpfile else x.dumpfile
      lines := match line with
        | .none => x.lines
        | .lePromisc state value => x.lines ++ [(none, .lePromisc state value)]
        | .packet freq diff octets => x.lines ++ [(some systime, .packet freq diff octets)] }

end Ubertooth.Host
