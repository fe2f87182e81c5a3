/-
Numbers written in decimal, with a point, a power of ten or one of the words
for the infinities and for what is not a number. The value of the digits is
exact, and one rounding brings it to the format.
-/
import Vitals.Binary.Basic
import Vitals.Text.Cut
import Vitals.Text.Numeral

namespace Vitals.Binary

open Vitals.Text

-- ============================================================= value

/-- The number nearest to `± digits · 10 ^ exponent`. A value that is sure to
lie beyond the greatest number, or below half the least one, is settled by its
magnitude, so that the power of ten need not be worked out. -/
def ofDecimal (f : Format) (negative : Bool) (digits : Nat) (exponent : Int) : Binary f :=
  let reach := exponent + (decimal digits).length
  if digits = 0 then zero f negative
  else if f.maxExponent + f.precision < reach then infinity negative
  else if reach < f.minExponent then zero f negative
  else nearest f negative (digits * 10 ^ exponent)

-- ============================================================ reading

/-- The power of ten behind an `e`: a sign, then digits. A power that has
passed sixteen bits takes no further digits. -/
def powerOfTen? (s : List Char) : Option Int :=
  let magnitude (digits : List Char) : Option Int :=
    if digits ≠ [] ∧ digits.all Char.isDigit then
      some (digits.foldl
        (fun power c => if power < 0x10000 then 10 * power + (c.toNat - '0'.toNat) else power)
        (0 : Nat))
    else none
  match s with
  | '-' :: rest => (magnitude rest).map (- ·)
  | '+' :: rest => magnitude rest
  | rest => magnitude rest

/-- The digits of a literal, without its sign: a whole part and a fraction, one
of which has a digit, and a power of ten if there is an `e`. -/
def digitsOf? (f : Format) (negative : Bool) (s : List Char) : Option (Binary f) :=
  let whole := s.takeWhile Char.isDigit
  let afterWhole := s.dropWhile Char.isDigit
  let fraction := match afterWhole with
    | '.' :: rest => rest.takeWhile Char.isDigit
    | _ => []
  let afterFraction := match afterWhole with
    | '.' :: rest => rest.dropWhile Char.isDigit
    | rest => rest
  let value (power : Int) : Binary f :=
    ofDecimal f negative (Nat.ofDigitChars 10 (whole ++ fraction) 0) (power - fraction.length)
  if whole ++ fraction = [] then none
  else match afterFraction with
    | [] => some (value 0)
    | c :: rest => if c.toLower = 'e' then (powerOfTen? rest).map value else none

/-- The words for numbers that have no digits, in any mixture of cases. -/
def wordOf? (f : Format) (negative : Bool) (s : List Char) : Option (Binary f) :=
  let word := s.map Char.toLower
  if word = "inf".toList ∨ word = "infinity".toList then some (infinity negative)
  else if word = "nan".toList then some nan
  else none

/-- The number that a literal stands for, if it is one. -/
def ofLiteral? (f : Format) (s : List Char) : Option (Binary f) :=
  let unsigned (negative : Bool) (rest : List Char) : Option (Binary f) :=
    (digitsOf? f negative rest).or (wordOf? f negative rest)
  match s with
  | '-' :: rest => unsigned true rest
  | '+' :: rest => unsigned false rest
  | rest => unsigned false rest

end Vitals.Binary
