import Ubertooth.Host.Arglist

/-!
# `cc2400.c`: the names of the registers

`token_to_int` of `ubertooth-debug.c` finds the register of a name by `cc2400_name2reg`, and how
long the name is by `cc2400_reg2name`. The first searches the table; the second takes the number of
the register for an index.
-/

namespace Ubertooth.Host

/-- `struct reg_t`, without the function that decodes the register. -/
structure RegT where
  num : U8
  name : Option (List U8)
  deriving DecidableEq, Repr

/-- An entry with a name. -/
def reg (num : U8) (name : String) : RegT := { num := num, name := some (name.toList.map asc) }

/-- `cc2400` -/
def cc2400 : List RegT :=
  [reg 0x00 "%MAIN", reg 0x01 "%FSCTRL", reg 0x02 "%FSDIV", reg 0x03 "%MDMCTRL",
    reg 0x04 "%AGCCTRL", reg 0x05 "%FREND", reg 0x06 "%RSSI", reg 0x07 "%FREQUEST",
    reg 0x08 "%IOCFG", reg 0x0b "%FSMTC", reg 0x0c "%RESERVED", reg 0x0d "%MANAND",
    reg 0x0e "%FSMSTATE", reg 0x0f "%ADCTST", reg 0x10 "%RXBPFTST", reg 0x11 "%PAMTST",
    reg 0x12 "%LMTST", reg 0x13 "%MANOR", reg 0x14 "%MDMTST0", reg 0x15 "%MDMTST0",
    reg 0x16 "%DACTST", reg 0x17 "%AGCTST0", reg 0x18 "%AGCTST1", reg 0x19 "%AGCTST2",
    reg 0x1a "%FSTST0", reg 0x1b "%FSTST1", reg 0x1c "%FSTST2", reg 0x1d "%FSTST3",
    reg 0x1e "%MANFIDL", reg 0x1f "%MANFIDH", reg 0x20 "%GRMDM", reg 0x21 "%GRDEC",
    reg 0x22 "%PKTSTATUS", reg 0x23 "%INT", reg 0x24 "%R24", reg 0x25 "%R25", reg 0x26 "%R26",
    reg 0x27 "%R27", reg 0x28 "%R28", reg 0x29 "%R29", reg 0x2a "%R2A", reg 0x2b "%R2B",
    reg 0x2c "%SYNCL", reg 0x2d "%SYNCH", reg 0x60 "%SXOSCON", reg 0x61 "%SFSON",
    reg 0x62 "%SRX", reg 0x63 "%STX", reg 0x64 "%SRFOFF", reg 0x65 "%SXOSCOFF", reg 0x66 "%R66",
    reg 0x67 "%R67", reg 0x68 "%R68", reg 0x69 "%R69", reg 0x6a "%R6A", reg 0x6b "%R6B",
    reg 0x6c "%R6C", reg 0x6d "%R6D", reg 0x6e "%R6E", reg 0x6f "%R6F", reg 0x70 "%FIFOREG",
    -- End of list marker
    { num := 0, name := none }]

/-- The search of `cc2400_name2reg`, from some entry on. -/
def searchName (name : List U8) : List RegT → ℤ
  | [] => -1
  | entry :: entries =>
    match entry.name with
    | none => -1
    | some n => if n.isPrefixOf name then entry.num.toNat else searchName name entries

/-- `cc2400_name2reg`, on the memory from `name` on. -/
def cc2400Name2reg (name : List U8) : ℤ := searchName name cc2400

/-- `cc2400_reg2name`, which is `NULL` for the end of the table. -/
def cc2400Reg2name (r : ℤ) : Except Undefined (Option (List U8)) :=
  match cc2400[r.toNat]? with
  | none => .error .table
  | some entry => .ok entry.name

/-- `token_to_int` -/
def tokenToInt : TokenParser := fun t =>
  let r := cc2400Name2reg t
  if 0 ≤ r then
    match cc2400Reg2name r with
    | .error f => .error f
    -- `strlen(NULL)`
    | .ok none => .error .table
    | .ok (some name) => .ok (some (r, name.length))
  else .ok none

end Ubertooth.Host
