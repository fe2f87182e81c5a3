/-
The fewest decimal digits that read back as a given binary number, and among
those of that length the ones nearest to it. For each length the number has two
neighbours on the decimal grid of that length; the first grid on which one of
them reads back decides.
-/
import Vitals.Binary.Basic

namespace Vitals.Binary

/-- A positive decimal: its digits as one whole number, and the power of ten of
the first of them. -/
structure Decimal where
  /-- The digits, read as one whole number. -/
  digits : Nat
  /-- The power of ten that the first digit counts. -/
  exponent : Int
deriving DecidableEq, Repr

/-- The greatest power of ten that a positive rational reaches. -/
def floorLog10 (q : Rat) : Int :=
  let guess : Int :=
    ((Nat.toDigits 10 q.num.natAbs).length : Int) - ((Nat.toDigits 10 q.den).length : Int)
  if (10 : Rat) ^ guess ≤ q then guess else guess - 1

/-- Whether a positive rational reads as the number with this significand and
exponent. -/
def ReadsAs (f : Format) (q : Rat) (significand : Nat) (exponent : Int) : Prop :=
  nearest f false q = ofUnits f false significand exponent

instance (f : Format) (q : Rat) (significand : Nat) (exponent : Int) :
    Decidable (ReadsAs f q significand exponent) := by
  unfold ReadsAs
  infer_instance

/-- The neighbours of a positive rational on the grid of `count` digits, the
nearer one first; of two equally near ones the even one is first. -/
def gridNeighbours (q : Rat) (count : Nat) : List (Nat × Rat) :=
  let unit : Rat := 10 ^ (floorLog10 q - (count - 1))
  let below := (q / unit).floor.toNat
  let rest := q / unit - below
  let low := (below, below * unit)
  let high := (below + 1, (below + 1 : Nat) * unit)
  if rest < 1 / 2 ∨ (rest = 1 / 2 ∧ below % 2 = 0) then [low, high] else [high, low]

/-- A whole number without the zeros that close it; `fuel` bounds their count. -/
def dropZeros : (fuel n : Nat) → Nat
  | 0, n => n
  | fuel + 1, n => if n ≠ 0 ∧ n % 10 = 0 then dropZeros fuel (n / 10) else n

/-- The most digits that the shortest form of a number can need. -/
def Format.digitLimit (f : Format) : Nat := f.precision * 30103 / 100000 + 2

/-- The shortest decimal that reads back as `significand · 2 ^ exponent`, which
is positive. -/
def shortest (f : Format) (significand : Nat) (exponent : Int) : Decimal :=
  let q := scaled significand exponent
  let hit := (List.range f.digitLimit).findSome? fun n =>
    (gridNeighbours q (n + 1)).find? fun neighbour =>
      ReadsAs f neighbour.2 significand exponent
  match hit with
  | some (digits, value) => ⟨dropZeros f.digitLimit digits, floorLog10 value⟩
  | none => ⟨significand, exponent⟩

end Vitals.Binary
