/-
Binary numbers of a fixed width, held exactly. A finite one is a sign, a whole
significand and a power of two, in the only way its format can write it, so two
numbers are equal precisely when their bit patterns are. A number that is not a
number has one representative, whatever its pattern was.

Arithmetic is done on rationals and brought back by `Binary.nearest`: the
operations of a format are exact operations followed by one rounding, which is
what makes a rate readable both as it is computed and as it is meant.
-/
namespace Vitals

-- =========================================================== formats

/-- A binary format: the bits of a significand and the powers of two that the
unit of a significand ranges over. -/
structure Binary.Format where
  /-- The bits of a significand. -/
  precision : Nat
  /-- The least power of two that a unit can be. -/
  minExponent : Int
  /-- The greatest power of two that a unit can be. -/
  maxExponent : Int
deriving DecidableEq, Repr

/-- The format of sixty-four bits. -/
def Binary.double : Binary.Format := ⟨53, -1074, 971⟩

/-- The format of thirty-two bits. -/
def Binary.single : Binary.Format := ⟨24, -149, 104⟩

/-- A significand and an exponent are canonical when the significand fills its
bits, or has as small a unit as there is. -/
def Binary.Format.Canonical (f : Binary.Format) (significand : Nat) (exponent : Int) :
    Prop :=
  significand < Nat.pow 2 f.precision ∧ f.minExponent ≤ exponent ∧ exponent ≤ f.maxExponent
    ∧ (exponent = f.minExponent ∨ Nat.pow 2 (f.precision - 1) ≤ significand)

instance (f : Binary.Format) (significand : Nat) (exponent : Int) :
    Decidable (f.Canonical significand exponent) := by
  unfold Binary.Format.Canonical
  infer_instance

-- =========================================================== numbers

/-- A number of a binary format. -/
inductive Binary (f : Binary.Format) where
  /-- What is not a number. -/
  | nan
  /-- An infinity, with its sign. -/
  | infinity (negative : Bool)
  /-- The number `± significand · 2 ^ exponent`. Zero keeps its sign. -/
  | finite (negative : Bool) (significand : Nat) (exponent : Int)
      (canonical : f.Canonical significand exponent)
deriving DecidableEq, Repr

namespace Binary

variable {f g : Format}

/-- Whether a number is finite. -/
def IsFinite : Binary f → Prop
  | finite .. => True
  | _ => False

instance : DecidablePred (IsFinite (f := f)) := fun x => by
  cases x <;> unfold IsFinite <;> infer_instance

/-- The size of a finite number, without its sign. -/
def scaled (significand : Nat) (exponent : Int) : Rat := significand * 2 ^ exponent

/-- The exact value of a finite number. -/
def value? : Binary f → Option Rat
  | finite negative significand exponent _ =>
      some (if negative then -scaled significand exponent else scaled significand exponent)
  | _ => none

-- ========================================================== rounding

/-- The greatest power of two that a positive rational reaches. -/
def floorLog2 (q : Rat) : Int :=
  let guess : Int := (q.num.natAbs.log2 : Int) - (q.den.log2 : Int)
  if (2 : Rat) ^ guess ≤ q then guess else guess - 1

/-- The whole number next to a rational; a half goes to the even neighbour. -/
def roundHalfEven (q : Rat) : Int :=
  let below := q.floor
  let rest := q - below
  if rest < 1 / 2 then below
  else if 1 / 2 < rest then below + 1
  else if below % 2 = 0 then below
  else below + 1

/-- The exponent of the unit in which a format writes a positive rational. -/
def Format.unitExponent (f : Format) (q : Rat) : Int :=
  max f.minExponent (floorLog2 q - (f.precision - 1))

/-- How many units of its format a positive rational is, to the nearest one. -/
def Format.units (f : Format) (q : Rat) : Nat :=
  (roundHalfEven (q / 2 ^ f.unitExponent q)).toNat

/-- The rational of the format's grid that is next to `q`, with no upper limit
on the exponent. -/
def Format.round (f : Format) (q : Rat) : Rat :=
  if q = 0 then 0
  else if q < 0 then -scaled (f.units (-q)) (f.unitExponent (-q))
  else scaled (f.units q) (f.unitExponent q)

/-- Zero with a sign. It is canonical in the formats whose exponents are in
order, and there are no others in use. -/
def zero (f : Format) (negative : Bool) : Binary f :=
  if h : f.Canonical 0 f.minExponent then finite negative 0 f.minExponent h else nan

/-- The number with the given significand and exponent, where the significand
may have grown by one bit in rounding; beyond the greatest finite number it is
an infinity. -/
def ofUnits (f : Format) (negative : Bool) (significand : Nat) (exponent : Int) : Binary f :=
  if h : f.Canonical significand exponent then finite negative significand exponent h
  else if h : f.Canonical (significand / 2) (exponent + 1) then
    finite negative (significand / 2) (exponent + 1) h
  else infinity negative

/-- The number of the format that is nearest to `± magnitude`, a tie going to
the even significand, with an infinity beyond the greatest finite number. -/
def nearest (f : Format) (negative : Bool) (magnitude : Rat) : Binary f :=
  if magnitude = 0 then zero f negative
  else ofUnits f negative (f.units magnitude) (f.unitExponent magnitude)

/-- The number of the format that is nearest to a rational. -/
def ofRat (f : Format) (q : Rat) : Binary f := nearest f (q < 0) q.abs

/-- The number of the format that is nearest to a whole number. -/
def ofNat (f : Format) (n : Nat) : Binary f := ofRat f n

/-- The same number in another format, rounded if it has to be. -/
def convert (g : Format) : Binary f → Binary g
  | nan => nan
  | infinity negative => infinity negative
  | finite negative significand exponent _ =>
      nearest g negative (scaled significand exponent)

instance : Inhabited (Binary f) := ⟨zero f false⟩

end Binary

end Vitals
