/-
Quoted texts, as they stand in messages: between double quotes, with an escape
for every character that would end the quotation or would not be seen.
-/
import Vitals.Text.GraphemeExtend
import Vitals.Text.Unprintable

namespace Vitals.Text

/-- The escape of a character by its code point. -/
def codeEscape (c : Char) : List Char :=
  ['\\', 'u', '{'] ++ Nat.toDigits 16 c.toNat ++ ['}']

/-- The letters that show nothing: the fillers of the Korean script, which hold
the place of a letter. -/
def isFiller (c : Char) : Bool := ['\u115F', '\u1160', '\u3164', '\uFFA0'].contains c

/-- The letters that extend the one before them and yet stand beside it: the two
half-width sound marks of the Japanese script. -/
def isSoundMark (c : Char) : Bool := ['\uFF9E', '\uFF9F'].contains c

/-- Whether a character can be seen by itself. One that extends the character
before it cannot, wherever it stands, unless it has a width of its own. -/
def isSeen (c : Char) : Bool :=
  !isUnprintable c && !isFiller c && (!isGraphemeExtend c || isSoundMark c)

/-- A character as it stands in a quoted text. -/
def quotedChar (c : Char) : List Char :=
  if c = '\x00' then ['\\', '0']
  else if c = '\t' then ['\\', 't']
  else if c = '\r' then ['\\', 'r']
  else if c = '\n' then ['\\', 'n']
  else if c = '"' ∨ c = '\\' then ['\\', c]
  else if isSeen c then [c]
  else codeEscape c

/-- A text between double quotes. -/
def quoted (s : String) : String :=
  .ofList ('"' :: s.toList.flatMap quotedChar ++ ['"'])

end Vitals.Text
