/-
The interchange form of a binary number: its sign, its biased exponent and the
bits of its significand behind the leading one, packed into a whole number. The
greatest biased exponent marks infinities and what is not a number, the least
one the numbers that do not fill their significand.
-/
import Vitals.Binary.Basic

namespace Vitals.Binary

variable {f : Format}

/-- The numbers of patterns that the bits behind the leading one can take. -/
def Format.fractions (f : Format) : Nat := Nat.pow 2 (f.precision - 1)

/-- The greatest biased exponent. -/
def Format.topExponent (f : Format) : Nat := (f.maxExponent - f.minExponent + 2).toNat

/-- The number that a bit pattern stands for. -/
def ofBits (f : Format) (bits : Nat) : Binary f :=
  let fraction := bits % f.fractions
  let biased := bits / f.fractions % (f.topExponent + 1)
  let negative := bits / f.fractions / (f.topExponent + 1) % 2 == 1
  if biased = f.topExponent then
    if fraction = 0 then infinity negative else nan
  else if biased = 0 then ofUnits f negative fraction f.minExponent
  else ofUnits f negative (f.fractions + fraction) (f.minExponent + (biased - 1))

/-- The pattern of the sign, the biased exponent and the fraction. -/
def pack (f : Format) (negative : Bool) (biased fraction : Nat) : Nat :=
  ((if negative then 1 else 0) * (f.topExponent + 1) + biased) * f.fractions + fraction

/-- The bit pattern of a number; what is not a number has none of its own. -/
def toBits? : Binary f → Option Nat
  | nan => none
  | infinity negative => some (pack f negative f.topExponent 0)
  | finite negative significand exponent _ =>
      if significand < f.fractions then some (pack f negative 0 significand)
      else some (pack f negative ((exponent - f.minExponent).toNat + 1)
        (significand - f.fractions))

end Vitals.Binary
