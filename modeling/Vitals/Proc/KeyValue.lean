/-
Files of keys and values: one to a line, with a colon behind the key. A line
without a colon says nothing, blanks around a key or a value do not count, and
of two lines with the same key the last one holds.
-/
import Std.Data.ExtTreeMap
import Vitals.Proc.Error
import Vitals.Text.Blank

namespace Vitals.Proc

open Std (ExtTreeMap)
open Text

/-- The keys of a file and their values. -/
abbrev Fields := ExtTreeMap String String

/-- The key and the value of a line, if it has a colon. -/
def fieldOfLine? (line : List Char) : Option (String × String) :=
  (cut ':' line).map fun (key, value) => (.ofList (trim key), .ofList (trim value))

/-- The fields of a file. -/
def Fields.parse (content : String) : Fields :=
  .ofList ((lines content.toList).filterMap fieldOfLine?)

/-- The field of a key, read by `read?`: nothing if the key is absent, and a
failure if its value is not of the kind. -/
def Fields.read {α : Type} (fields : Fields) (read? : List Char → Option α)
    (key : String) : Except ParseError (Option α) :=
  match fields[key]? with
  | none => .ok none
  | some value =>
      match read? value.toList with
      | some x => .ok (some x)
      | none => .error (.invalidField key value)

/-- An amount in kilobytes, with its unit behind it. -/
def kilobytes (value : String) : Except ParseError UInt64 :=
  match beforeEnding ['k', 'B'] (trim value.toList) with
  | none => .error (.missingUnit value)
  | some number =>
      match word64? (trim number) with
      | some n => .ok n
      | none => .error (.invalidAmount value)

/-- The amount at a key: nothing if the key is absent. -/
def Fields.amount (fields : Fields) (key : String) : Except ParseError (Option UInt64) :=
  match fields[key]? with
  | none => .ok none
  | some value => (kilobytes value).map some

end Vitals.Proc
