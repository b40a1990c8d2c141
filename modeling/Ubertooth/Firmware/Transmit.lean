import Ubertooth.Firmware.Whitening

/-!
# `bluetooth_rxtx.c`: transmitting

What `le_transmit` does to the CC2400, in the order it does it: registers set, strobes, and octets
written to the FIFO. The loops that wait for the radio, and the pins of the amplifier and the LED,
are left out.
-/

namespace Ubertooth.Firmware

/-- The registers of the CC2400 that `le_transmit` sets. -/
inductive CcReg
  | manand | lmtst | mdmtst0 | grmdm | fsdiv | frend | mdmctrl | int | synch | iocfg
  deriving DecidableEq, Repr

/-- The strobes of the CC2400 that `le_transmit` uses. -/
inductive CcStrobe
  | sfson | stx | srfoff
  deriving DecidableEq, Repr

/-- What is done to the radio. -/
inductive RadioOp
  /-- `cc2400_set` -/
  | set (reg : CcReg) (val : U16)
  /-- `cc2400_strobe` -/
  | strobe (reg : CcStrobe)
  /-- `cc2400_spi_buf(FIFOREG, ..)` -/
  | fifo (data : List U8)
  deriving DecidableEq, Repr

/-- `aa` after the loop that takes its octets. -/
def aaShifted (aa : U32) : U32 := (List.range 4).foldl (fun aa _ => aa >>> 8) aa

/-- `tx_len` -/
def txLen (len : U8) (i : ℕ) : U8 :=
  let txLen := len - BitVec.ofNat 8 i
  if 16 < txLen then 16 else txLen

/-- put the packet into the FIFO: the loop from `i` on. It ends after 16 rounds at the latest, since
`len` is an octet. -/
def fifoLoop (txbuf : List U8) (len : U8) : ℕ → ℕ → List RadioOp
  | 0, _ => []
  | n + 1, i =>
    if i < len.toNat then
      .fifo ((txbuf.drop i).take (txLen len i).toNat) :: fifoLoop txbuf len n (i + 16)
    else []

/-- `le_transmit(aa, len, data)`, where `IOCFG` reads `gioSave`. -/
def leTransmit (channel gioSave : U16) (aa : U32) (len : U8) (data : List U8) : List RadioOp :=
  let txbuf := leTxbuf channel aa len.toNat data
  let aa := aaShifted aa
  -- include the AA in len
  let len := len + 4
  [.set .manand 0x7fff, .set .lmtst 0x2b22, .set .mdmtst0 0x134b, .set .grmdm 0x0c01,
    .set .fsdiv channel, .set .frend 0b1011, .set .mdmctrl 0x0040, .set .int 0x0014,
    -- sync byte depends on the first transmitted bit of the AA
    .set .synch (if aa &&& 1 ≠ 0 then 0xaaaa else 0x5555),
    -- set GIO to FIFO_FULL
    .set .iocfg (((39 : U16) <<< 9) ||| (gioSave &&& 0x1ff)),
    .strobe .sfson, .strobe .stx] ++
  fifoLoop txbuf len 16 0 ++
  -- reset GIO
  [.strobe .srfoff, .set .iocfg gioSave]

end Ubertooth.Firmware
