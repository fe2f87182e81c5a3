/-
Strings in JSON: written with an escape only where one is needed, and read with
every escape there is.
-/
import Vitals.Json.Fault

namespace Vitals.Json

-- =========================================================== writing

/-- A character as it stands in a written string. -/
def escapedChar (c : Char) : List Char :=
  if c = '"' ∨ c = '\\' then ['\\', c]
  else if c = '\x08' then ['\\', 'b']
  else if c = '\t' then ['\\', 't']
  else if c = '\n' then ['\\', 'n']
  else if c = '\x0c' then ['\\', 'f']
  else if c = '\r' then ['\\', 'r']
  else if c.toNat < 0x20 then
    ['\\', 'u', '0', '0', Nat.digitChar (c.toNat / 16), Nat.digitChar (c.toNat % 16)]
  else [c]

/-- A written string. -/
def writeText (s : String) : List Char := '"' :: s.toList.flatMap escapedChar ++ ['"']

-- =========================================================== reading

/-- The value of a hexadecimal digit. -/
def hexValue? (c : Char) : Option Nat :=
  if c.isDigit then some (c.toNat - '0'.toNat)
  else if 'a' ≤ c ∧ c ≤ 'f' then some (c.toNat - 'a'.toNat + 10)
  else if 'A' ≤ c ∧ c ≤ 'F' then some (c.toNat - 'A'.toNat + 10)
  else none

/-- Four hexadecimal digits. Text of fewer than four bytes ends too early for
them, whatever it holds. -/
def readUnit (s : List Char) : Except Fault (Nat × List Char) :=
  if (String.ofList (s.take 4)).utf8ByteSize < 4 then .error .truncated
  else match s with
    | a :: b :: c :: d :: rest =>
        match hexValue? a, hexValue? b, hexValue? c, hexValue? d with
        | some a, some b, some c, some d => .ok (((a * 16 + b) * 16 + c) * 16 + d, rest)
        | _, _, _, _ => .error .malformed
    | _ => .error .malformed

/-- The character of an escape by number, behind its `u`. One beyond the basic
plane takes two escapes, a leading and a trailing half. -/
def readCodeEscape (s : List Char) : Except Fault (Char × List Char) := do
  let (unit, rest) ← readUnit s
  if 0xDC00 ≤ unit ∧ unit ≤ 0xDFFF then .error .malformed
  else if unit < 0xD800 ∨ 0xDBFF < unit then return (Char.ofNat unit, rest)
  else match rest with
    | '\\' :: 'u' :: rest =>
        let (low, rest) ← readUnit rest
        if low < 0xDC00 ∨ 0xDFFF < low then .error .malformed
        else return (Char.ofNat (0x10000 + (unit - 0xD800) * 0x400 + (low - 0xDC00)), rest)
    | [] => .error .truncated
    | ['\\'] => .error .truncated
    | _ => .error .malformed

/-- The character of an escape of one letter. -/
def letterEscape? (c : Char) : Option Char :=
  match c with
  | '"' => some '"'
  | '\\' => some '\\'
  | '/' => some '/'
  | 'b' => some '\x08'
  | 'f' => some '\x0c'
  | 'n' => some '\n'
  | 'r' => some '\r'
  | 't' => some '\t'
  | _ => none

/-- The character of an escape, behind its backslash. -/
def readEscape : List Char → Except Fault (Char × List Char)
  | [] => .error .truncated
  | 'u' :: s => readCodeEscape s
  | c :: s =>
      match letterEscape? c with
      | some x => .ok (x, s)
      | none => .error .malformed

/-- The characters of a string behind its opening quote; `fuel` bounds their
number. -/
def readChars : (fuel : Nat) → List Char → Except Fault (List Char × List Char)
  | 0, _ => .error .truncated
  | _ + 1, [] => .error .truncated
  | _ + 1, '"' :: s => .ok ([], s)
  | fuel + 1, '\\' :: s => do
      let (c, s) ← readEscape s
      let (cs, s) ← readChars fuel s
      return (c :: cs, s)
  | fuel + 1, c :: s =>
      if c.toNat < 0x20 then .error .malformed
      else do
        let (cs, s) ← readChars fuel s
        return (c :: cs, s)

/-- A string behind its opening quote. -/
def readText (s : List Char) : Except Fault (String × List Char) := do
  let (cs, rest) ← readChars (s.length + 1) s
  return (.ofList cs, rest)

-- ========================================================== skipping

/-- What follows an escape, behind its backslash. The halves of a character
need not belong together where nobody reads it. -/
def skipEscape : List Char → Except Fault (List Char)
  | [] => .error .truncated
  | 'u' :: s => (readUnit s).map (·.2)
  | c :: s =>
      match letterEscape? c with
      | some _ => .ok s
      | none => .error .malformed

/-- What follows the characters of a string; `fuel` bounds their number. -/
def skipChars : (fuel : Nat) → List Char → Except Fault (List Char)
  | 0, _ => .error .truncated
  | _ + 1, [] => .error .truncated
  | _ + 1, '"' :: s => .ok s
  | fuel + 1, '\\' :: s => do
      let s ← skipEscape s
      skipChars fuel s
  | fuel + 1, c :: s => if c.toNat < 0x20 then .error .malformed else skipChars fuel s

/-- What follows a string, behind its opening quote. -/
def skipText (s : List Char) : Except Fault (List Char) := skipChars (s.length + 1) s

end Vitals.Json
