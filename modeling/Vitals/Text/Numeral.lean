/-
Whole numbers in decimal, read and bounded. A numeral is one or more ASCII
digits behind at most one sign; leading zeros are allowed and a value that does
not fit the width asked for is no numeral of that width.
-/
namespace Vitals.Text

-- =========================================================== reading

/-- The value of a run of digits, which has to have one at least. -/
def digits? (s : List Char) : Option Nat :=
  if s ≠ [] ∧ s.all Char.isDigit then some (Nat.ofDigitChars 10 s 0) else none

/-- A numeral without a minus sign. -/
def natural? : List Char → Option Nat
  | '+' :: s => digits? s
  | s => digits? s

/-- A numeral with either sign. -/
def integer? : List Char → Option Int
  | '-' :: s => (digits? s).map fun n => -(n : Int)
  | s => (natural? s).map fun n => (n : Int)

-- ============================================================ widths

/-- A numeral of eight bits. -/
def word8? (s : List Char) : Option UInt8 :=
  (natural? s).bind fun n =>
    if h : n < UInt8.size then some (UInt8.ofNatLT n h) else none

/-- A numeral of thirty-two bits. -/
def word32? (s : List Char) : Option UInt32 :=
  (natural? s).bind fun n =>
    if h : n < UInt32.size then some (UInt32.ofNatLT n h) else none

/-- A numeral of sixty-four bits. -/
def word64? (s : List Char) : Option UInt64 :=
  (natural? s).bind fun n =>
    if h : n < UInt64.size then some (UInt64.ofNatLT n h) else none

/-- A number of thirty-two bits with a sign, if it fits. -/
def fitSigned32? (i : Int) : Option Int32 :=
  if h : Int32.minValue.toInt ≤ i ∧ i ≤ Int32.maxValue.toInt then
    some (Int32.ofIntLE i h.1 h.2)
  else none

/-- A numeral of thirty-two bits with a sign. -/
def signed32? (s : List Char) : Option Int32 := (integer? s).bind fitSigned32?

-- =========================================================== writing

/-- The decimal digits of a number, without leading zeros. -/
def decimal (n : Nat) : List Char := Nat.toDigits 10 n

/-- A number in at least two digits. -/
def twoDigits (n : Nat) : List Char := if n < 10 then '0' :: decimal n else decimal n

/-- A whole number with its minus sign, if it has one. -/
def signedDecimal (i : Int) : List Char :=
  if i < 0 then '-' :: decimal i.natAbs else decimal i.natAbs

/-- The digits written for a number read back as that number. -/
theorem ofDigitChars_decimal (n : Nat) : Nat.ofDigitChars 10 (decimal n) 0 = n :=
  Nat.ofDigitChars_toDigits (by decide) (by decide)

end Vitals.Text
