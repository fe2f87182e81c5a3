/-
Spans of time, in whole nanoseconds, and the text that names one in its largest
whole unit.
-/
import Vitals.Text.Numeral

namespace Vitals

open Text

/-- A span of time. -/
structure Duration where
  /-- Its length in nanoseconds. -/
  nanoseconds : Nat
deriving DecidableEq, Repr

namespace Duration

/-- So many seconds and nanoseconds. -/
def ofParts (seconds nanoseconds : Nat) : Duration := ⟨seconds * 1000000000 + nanoseconds⟩

/-- So many milliseconds. -/
def ofMillis (millis : Nat) : Duration := ⟨millis * 1000000⟩

/-- The whole seconds of a span. -/
def wholeSeconds (d : Duration) : Nat := d.nanoseconds / 1000000000

/-- What is left of a span beside its whole seconds. -/
def subsecond (d : Duration) : Nat := d.nanoseconds % 1000000000

/-- A count of units with the fraction `rest / 10 ^ places`, without the zeros
that close the fraction and without a point if nothing is left of it. -/
def inUnits (whole rest places : Nat) : List Char :=
  let digits := decimal rest
  let padded := List.replicate (places - digits.length) '0' ++ digits
  let fraction := (padded.reverse.dropWhile (· == '0')).reverse
  if fraction = [] then decimal whole else decimal whole ++ '.' :: fraction

/-- A span in seconds, milliseconds, microseconds or nanoseconds, whichever is
the largest that it holds a whole one of. -/
def text (d : Duration) : String :=
  let n := d.nanoseconds
  if 1000000000 ≤ n then
    .ofList (inUnits d.wholeSeconds d.subsecond 9 ++ ['s'])
  else if 1000000 ≤ n then
    .ofList (inUnits (n / 1000000) (n % 1000000) 6 ++ ['m', 's'])
  else if 1000 ≤ n then
    .ofList (inUnits (n / 1000) (n % 1000) 3 ++ ['µ', 's'])
  else .ofList (decimal n ++ ['n', 's'])

end Duration

end Vitals
