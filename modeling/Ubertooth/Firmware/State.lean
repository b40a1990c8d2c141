import Ubertooth.Firmware.BluetoothLe
import Ubertooth.Firmware.Bluetooth

/-!
# The firmware state

The globals of `bluetooth_rxtx.c` and `ubertooth_usb.c` that the modelled functions read and
write, in one record with the values they have at power on, and the registers those functions
touch. The static variables of `promisc_recover_hop_increment` and `promisc_recover_hop_interval`
are fields too: they outlive the call. The function pointer `packet_cb` is the tag `PacketCb`.
-/

namespace Ubertooth.Firmware

/-- `packet`, the 13 words in which `bt_le_sync` unwhitens a packet: access address, header,
payload and CRC, in octets. -/
structure Packet where
  octets : Vector U8 52
  deriving DecidableEq

/-- `packet[i]`; past the end of the buffer the model reads 0. -/
instance : GetElem Packet ℕ U8 fun _ _ => True where
  getElem packet i _ := packet.octets[i]?.getD 0

/-- The ring buffer `fifo` with its free running counters. -/
structure UsbQueue where
  fifo : Fin 128 → UsbPktRx := fun _ => {}
  head : U32 := 0
  tail : U32 := 0

/-- `le_promisc_active_aa_t` -/
structure LePromiscActiveAa where
  aa : U32 := 0
  count : ℤ := 0
  deriving DecidableEq, Repr

/-- `le_promisc_state_t` -/
structure LePromiscState where
  /-- LFU cache of recently seen AA's -/
  activeAa : Vector LePromiscActiveAa 32 := Vector.replicate 32 {}
  smallestHopInterval : U32 := 0
  consecIntervals : ℤ := 0
  deriving DecidableEq, Repr

/-- The values of the function pointer `packet_cb`. -/
inductive PacketCb
  | null | connectionFollow | promiscFollow | promiscRecoverHopInterval
  | promiscRecoverHopIncrement
  deriving DecidableEq, Repr

/-- The firmware's globals. -/
structure Fw where
  le : LeState := {}
  lePromisc : LePromiscState := {}
  packetCb : PacketCb := .null
  /-- clkn 3200 Hz counter -/
  clkn : U32 := 0
  lastHop : U32 := 0
  clknOffset : U32 := 0
  clk100nsOffset : U16 := 0
  /-- The counter of TIMER0, in units of 100 ns. -/
  t0tc : U32 := 0
  /-- The match register of TIMER0. -/
  t0mr0 : U32 := 3124
  hopMode : HopMode := .none
  /-- set by timer interrupt -/
  doHop : Bool := false
  dmaDiscard : Bool := false
  /-- for hopping directly to a channel -/
  hopDirectChannel : U16 := 0
  hopTimeout : U16 := 158
  channel : U16 := 2441
  /-- The frequency division register of the CC2400; the tuned frequency is one above it. -/
  fsdiv : U16 := 0
  hopVars : HopVars := {}
  /-- rx all packets if set -/
  csNoSquelch : Bool := false
  /-- requested CS threshold in dBm -/
  csThresholdReq : U8 := -120
  /-- current CS threshold in dBm -/
  csThresholdCur : U8 := -120
  idleBufClknHigh : U8 := 0
  idleBufClk100ns : U32 := 0
  idleBufChannel : U16 := 0
  /-- Moving average (IIR) of average RSSI of packets as scaled integers (x256). -/
  rssiIir : Vector U16 79 := Vector.replicate 79 0
  rssiMax : U8 := 127
  rssiMin : U8 := -128
  rssiCount : U8 := 0
  jamMode : U8 := jamNone
  leJamCount : ℤ := 0
  /-- status information byte -/
  status : U8 := 0
  queue : UsbQueue := {}
  /-- `first_ts` of `promisc_recover_hop_increment` -/
  firstTs : U32 := 0
  /-- `prev_clk` of `promisc_recover_hop_interval` -/
  prevClk : U32 := 0

/-- The state at power on. -/
def powerOn : Fw := {}

/-- `CLK100NS`: computed from `clkn` and `timer0`. -/
def Fw.clk100ns (s : Fw) : U32 := 3125 * (s.clkn &&& 0xfffff) + s.t0tc

/-- `rssi_iir[i]`. The code does not check the subscript; outside the array the model reads 0,
and nothing proved here depends on it. -/
def Fw.rssiIirAt (s : Fw) (i : ℤ) : ℤ :=
  if h : 0 ≤ i ∧ i < 79 then (s.rssiIir.get ⟨i.toNat, by omega⟩).toInt else 0

/-- `(int8_t)((rssi_iir[i] + 128)/256)`: the rounded average, truncated to an octet. -/
def Fw.rssiRounded (s : Fw) (i : ℤ) : U8 := BitVec.ofInt 8 ((s.rssiIirAt i + 128).tdiv 256)

end Ubertooth.Firmware
