/-
Numbers in JSON. They are written with the fewest digits that read back, and
always with a point or a power of ten where they are not whole by kind. They are
read through a significand of sixty-four bits and a power of ten, each rounded
once, so a number of many digits can come out beside the nearest one.
-/
import Vitals.Binary.Shortest
import Vitals.Json.Fault
import Vitals.Text.Numeral

namespace Vitals.Json

open Binary Text

-- =========================================================== writing

/-- The powers of ten of the first digit between which a number is written
without one behind it. -/
structure FloatLayout where
  /-- The least of them. -/
  least : Int
  /-- The greatest of them. -/
  greatest : Int

/-- The layout of numbers of thirty-two bits. -/
def singleLayout : FloatLayout := ⟨-6, 12⟩

/-- The layout of numbers of sixty-four bits. -/
def doubleLayout : FloatLayout := ⟨-5, 15⟩

/-- Digits with a point, the first of which counts `10 ^ exponent`. -/
def positional (digits : List Char) (exponent : Int) : List Char :=
  if exponent < 0 then
    ['0', '.'] ++ List.replicate (-exponent - 1).toNat '0' ++ digits
  else
    let whole := exponent.toNat + 1
    if digits.length ≤ whole then
      digits ++ List.replicate (whole - digits.length) '0' ++ ['.', '0']
    else digits.take whole ++ '.' :: digits.drop whole

/-- Digits with a power of ten behind them. -/
def scientific (digits : List Char) (exponent : Int) : List Char :=
  let point := match digits with
    | first :: second :: rest => first :: '.' :: second :: rest
    | few => few
  point ++ 'e' :: (if exponent < 0 then '-' else '+') :: decimal exponent.natAbs

/-- A written number; what is not finite is written as nothing at all. -/
def FloatLayout.write (layout : FloatLayout) {f : Format} : Binary f → List Char
  | .finite negative significand exponent _ =>
      let unsigned :=
        if significand = 0 then ['0', '.', '0']
        else
          let d := shortest f significand exponent
          if layout.least ≤ d.exponent ∧ d.exponent ≤ layout.greatest then
            positional (decimal d.digits) d.exponent
          else scientific (decimal d.digits) d.exponent
      if negative then '-' :: unsigned else unsigned
  | _ => ['n', 'u', 'l', 'l']

-- =========================================================== reading

/-- A number that was read. -/
inductive Number where
  /-- A whole number without a minus sign that fits sixty-four bits. -/
  | count (n : UInt64)
  /-- A whole number below zero that fits sixty-four bits. -/
  | below (n : Int)
  /-- Any other number. -/
  | real (x : Binary double)
deriving DecidableEq, Repr

/-- A power of ten, as near as sixty-four bits hold it. -/
def powerOfTen (n : Nat) : Rat := double.round (10 ^ n)

/-- The greatest power of ten that sixty-four bits hold. -/
def greatestPower : Nat := 308

/-- A magnitude divided by the greatest power of ten until what is left of the
exponent is no larger than that; `fuel` bounds the divisions. Nothing is left
of zero. -/
def scaleDown : (fuel : Nat) → Rat → Nat → Rat
  | 0, q, _ => q
  | fuel + 1, q, exponent =>
      if q = 0 then 0
      else if exponent ≤ greatestPower then double.round (q / powerOfTen exponent)
      else scaleDown fuel (double.round (q / powerOfTen greatestPower))
        (exponent - greatestPower)

/-- The number `± significand · 10 ^ exponent`, in one rounding for each of the
parts and for each operation on them. A number beyond the greatest is none. -/
def realOf (negative : Bool) (significand : Nat) (exponent : Int) :
    Except Fault (Binary double) :=
  let q := double.round significand
  if exponent < 0 then .ok (nearest double negative (scaleDown 4 q exponent.natAbs))
  else if exponent.toNat ≤ greatestPower then
    match nearest double negative (q * powerOfTen exponent.toNat) with
    | .infinity _ => .error .malformed
    | x => .ok x
  else if q = 0 then .ok (zero double negative)
  else .error .malformed

/-- The value of a digit. -/
def digitValue (c : Char) : Nat := c.toNat - '0'.toNat

/-- Digits gathered while they fit sixty-four bits: how many were taken, the
significand, and the text behind them. -/
def gather (significand : Nat) : List Char → Nat × Nat × List Char
  | [] => (0, significand, [])
  | c :: s =>
      if c.isDigit ∧ significand * 10 + digitValue c < UInt64.size then
        let (taken, total, rest) := gather (significand * 10 + digitValue c) s
        (taken + 1, total, rest)
      else (0, significand, c :: s)

/-- The sign of a power of ten, and the text behind it. -/
def powerSign : List Char → Bool × List Char
  | '+' :: s => (false, s)
  | '-' :: s => (true, s)
  | s => (false, s)

/-- A power of ten behind its `e`, and the number it completes. A power beyond
thirty-one bits makes zero of a small number and nothing of a large one. -/
def readPower (negative : Bool) (significand : Nat) (exponent : Int) (s : List Char) :
    Except Fault (Binary double × List Char) :=
  let (down, s) := powerSign s
  match s with
  | [] => .error .truncated
  | c :: _ =>
      if !c.isDigit then .error .malformed
      else
        let power := Nat.ofDigitChars 10 (s.takeWhile Char.isDigit) 0
        let rest := s.dropWhile Char.isDigit
        if power < 0x80000000 then do
          let x ← realOf negative significand
            (if down then exponent - power else exponent + power)
          return (x, rest)
        else if significand ≠ 0 ∧ !down then .error .malformed
        else .ok (zero double negative, rest)

/-- What may follow the digits of a number, and the number it completes. -/
def readTail (negative : Bool) (significand : Nat) (exponent : Int) (s : List Char) :
    Except Fault (Binary double × List Char) :=
  match s with
  | 'e' :: s => readPower negative significand exponent s
  | 'E' :: s => readPower negative significand exponent s
  | s => do return (← realOf negative significand exponent, s)

/-- A fraction behind its point, and the number it completes. Digits that no
longer fit the significand are passed over. -/
def readFraction (negative : Bool) (significand : Nat) (exponent : Int) (s : List Char) :
    Except Fault (Binary double × List Char) :=
  let (taken, total, rest) := gather significand s
  match rest with
  | [] => if taken = 0 then .error .truncated else readTail negative total (exponent - taken) []
  | c :: _ =>
      if c.isDigit then
        readTail negative total (exponent - taken) (rest.dropWhile Char.isDigit)
      else if taken = 0 then .error .malformed
      else readTail negative total (exponent - taken) rest

/-- A whole number that ends here. A negative zero, and what is too far below
zero, is no whole number of sixty-four bits. -/
def wholeNumber (negative : Bool) (significand : Nat) : Except Fault Number :=
  if !negative then .ok (.count (.ofNat significand))
  else if significand = 0 ∨ 0x8000000000000000 < significand then do
    return .real (← realOf true significand 0)
  else .ok (.below (-significand))

/-- A number behind its sign. -/
def readUnsigned (negative : Bool) (s : List Char) : Except Fault (Number × List Char) :=
  match s with
  | [] => .error .truncated
  | c :: s =>
      let leadingZero := c = '0' ∧ (s.head?.map Char.isDigit).getD false
      if !c.isDigit ∨ leadingZero then .error .malformed
      else
        let (_, significand, rest) := gather (digitValue c) s
        let dropped := (rest.takeWhile Char.isDigit).length
        match rest.dropWhile Char.isDigit with
        | '.' :: rest => do
            let (x, rest) ← readFraction negative significand dropped rest
            return (.real x, rest)
        | rest =>
            if dropped = 0 ∧ rest.head? ≠ some 'e' ∧ rest.head? ≠ some 'E' then do
              return (← wholeNumber negative significand, rest)
            else do
              let (x, rest) ← readTail negative significand dropped rest
              return (.real x, rest)

/-- A number. -/
def readNumber : List Char → Except Fault (Number × List Char)
  | '-' :: s => readUnsigned true s
  | s => readUnsigned false s

-- ========================================================== skipping

/-- What follows the power of ten of a number that nobody reads. -/
def skipPower (s : List Char) : Except Fault (List Char) :=
  match (powerSign s).2 with
  | c :: s => if c.isDigit then .ok (s.dropWhile Char.isDigit) else .error .malformed
  | [] => .error .malformed

/-- What may follow the digits of a number that nobody reads. -/
def skipTail : List Char → Except Fault (List Char)
  | 'e' :: s => skipPower s
  | 'E' :: s => skipPower s
  | s => .ok s

/-- What follows a number that nobody reads, behind its sign. -/
def skipUnsigned : List Char → Except Fault (List Char)
  | [] => .error .malformed
  | c :: s =>
      let leadingZero := c = '0' ∧ (s.head?.map Char.isDigit).getD false
      if !c.isDigit ∨ leadingZero then .error .malformed
      else match s.dropWhile Char.isDigit with
        | '.' :: d :: s =>
            if d.isDigit then skipTail (s.dropWhile Char.isDigit) else .error .malformed
        | ['.'] => .error .malformed
        | rest => skipTail rest

/-- What follows a number that nobody reads. -/
def skipNumber : List Char → Except Fault (List Char)
  | '-' :: s => skipUnsigned s
  | s => skipUnsigned s

end Vitals.Json
