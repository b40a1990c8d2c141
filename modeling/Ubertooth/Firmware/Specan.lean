import Ubertooth.Firmware.Requests

/-!
# `bluetooth_rxtx.c`: spectrum analysis

`specan` sweeps from `low_freq` to `high_freq` and measures the signal at every frequency. Three
octets of each measurement go to `buf`; sixteen measurements make a packet. The index `i` is not
reset at the end of a sweep. Radio strobes are left out; what `cc2400_get(RSSI)` reads is an
argument.
-/

namespace Ubertooth.Firmware

open Foundations

/-- The check of `UBERTOOTH_SPECAN`, of `request_params[0]` and `request_params[1]`. -/
def specanAccepts (low high : U16) : Bool :=
  !(decide (low < 2049) || decide (3072 < low) || decide (high < 2049) || decide (3072 < high) ||
    decide (high < low))

/-- The variables of `specan`; `buf` is as the stack was. -/
structure SpecanVars where
  f : U16
  i : U8 := 0
  buf : Vector U8 dmaSize

/-- The octets of a measurement are stored. -/
def specanStore (rssi : U16) (v : SpecanVars) : SpecanVars :=
  { v with
    buf := ((v.buf.setIfInBounds (3 * v.i.toNat) (octet v.f 1)).setIfInBounds
      (3 * v.i.toNat + 1) (octet v.f 0)).setIfInBounds (3 * v.i.toNat + 2) (octet rssi 1)
    i := v.i + 1 }

/-- `f++`; the sweep goes on while `f < high_freq + 1`, and another starts while it is wanted. -/
def specanNext (low high : U16) (wanted : Bool) (v : SpecanVars) : Option SpecanVars :=
  if (v.f + 1).toNat < high.toNat + 1 then some { v with f := v.f + 1 }
  else if wanted then some { v with f := low }
  else none

end Ubertooth.Firmware
