/-
Records of named scalars, and their JSON texts. A schema lists the names and the
kinds of the fields; a row has a scalar for each. A row is written as an object
with its fields in the order of the schema. It is read from an object in any
order, whose other keys are passed over, or from a list of exactly its fields in
order; a key of the schema that is missing or repeated is a mismatch.
-/
import Vitals.Json.Skip

namespace Vitals.Json

open Binary Text

-- =========================================================== scalars

/-- The kinds of scalars. -/
inductive Kind where
  | word8
  | word32
  | word64
  | signed32
  | single
  | double
  | text
deriving DecidableEq, Repr

/-- The scalars of a kind. -/
def Kind.Carrier : Kind → Type
  | word8 => UInt8
  | word32 => UInt32
  | word64 => UInt64
  | signed32 => Int32
  | single => Binary Binary.single
  | double => Binary Binary.double
  | text => String

/-- A written scalar. -/
def Kind.write : (k : Kind) → k.Carrier → List Char
  | word8, n => decimal (UInt8.toNat n)
  | word32, n => decimal (UInt32.toNat n)
  | word64, n => decimal (UInt64.toNat n)
  | signed32, n => signedDecimal (Int32.toInt n)
  | single, x => singleLayout.write x
  | double, x => doubleLayout.write x
  | text, s => writeText s

/-- A number as a scalar of a kind, if it fits. -/
def Kind.ofNumber? : (k : Kind) → Number → Option k.Carrier
  | word8, .count n => if n.toNat < UInt8.size then some n.toUInt8 else none
  | word32, .count n => if n.toNat < UInt32.size then some n.toUInt32 else none
  | word64, .count n => some n
  | signed32, .count n => fitSigned32? n.toNat
  | signed32, .below n => fitSigned32? n
  | single, .count n => some (Binary.ofNat Binary.single n.toNat)
  | single, .below n => some (ofRat Binary.single n)
  | single, .real x => some (x.convert Binary.single)
  | double, .count n => some (Binary.ofNat Binary.double n.toNat)
  | double, .below n => some (ofRat Binary.double n)
  | double, .real x => some x
  | _, _ => none

/-- What is wrong with a value of another shape than the one asked for: a fault
of its own if it has one before it is known, and otherwise its shape. -/
def wrongShape (s : List Char) : Fault :=
  let orMismatch {α : Type} : Except Fault α → Fault
    | .ok _ => .mismatch
    | .error e => e
  match s with
  | [] => .truncated
  | 'n' :: s => orMismatch (skipWord ['u', 'l', 'l'] s)
  | 't' :: s => orMismatch (skipWord ['r', 'u', 'e'] s)
  | 'f' :: s => orMismatch (skipWord ['a', 'l', 's', 'e'] s)
  | '"' :: s => orMismatch (readText s)
  | '[' :: _ => .mismatch
  | '{' :: _ => .mismatch
  | c :: s => if c = '-' ∨ c.isDigit then orMismatch (readNumber (c :: s)) else .malformed

/-- Whether a character opens a number. -/
def opensNumber (c : Char) : Bool := c == '-' || c.isDigit

/-- A scalar of a kind that is a number. -/
def readNumeric (k : Kind) (s : List Char) : Except Fault (k.Carrier × List Char) :=
  match skipBlanks s with
  | c :: s =>
      if opensNumber c then do
        let (n, s) ← readNumber (c :: s)
        match k.ofNumber? n with
        | some x => return (x, s)
        | none => .error .mismatch
      else .error (wrongShape (c :: s))
  | [] => .error .truncated

/-- A scalar of a kind. -/
def Kind.read (k : Kind) (s : List Char) : Except Fault (k.Carrier × List Char) :=
  match k with
  | .text =>
      match skipBlanks s with
      | '"' :: s => readText s
      | s => .error (wrongShape s)
  | k => readNumeric k s

-- ============================================================== rows

/-- A named field of a record. -/
structure Field where
  /-- Its key. -/
  name : String
  /-- The kind of its scalar. -/
  kind : Kind
deriving DecidableEq, Repr

/-- The fields of a record, in order. -/
abbrev Schema := List Field

/-- A scalar for each field of a schema. -/
def Row : Schema → Type
  | [] => Unit
  | field :: fields => field.kind.Carrier × Row fields

/-- A scalar for some fields of a schema. -/
def Slots : Schema → Type
  | [] => Unit
  | field :: fields => Option field.kind.Carrier × Slots fields

/-- No scalar for any field. -/
def Slots.none : (schema : Schema) → Slots schema
  | [] => ()
  | _ :: fields => (Option.none, Slots.none fields)

/-- The row of slots that are all filled. -/
def Slots.row? : (schema : Schema) → Slots schema → Option (Row schema)
  | [], _ => some ()
  | _ :: fields, (some x, slots) => (Slots.row? fields slots).map (x, ·)
  | _ :: _, (Option.none, _) => Option.none

-- =========================================================== writing

/-- The members of a row, each with its key. -/
def Row.members : (schema : Schema) → Row schema → List (List Char)
  | [], _ => []
  | field :: fields, (x, row) =>
      (writeText field.name ++ ':' :: field.kind.write x) :: Row.members fields row

/-- A row as an object. -/
def Row.write (schema : Schema) (row : Row schema) : List Char :=
  '{' :: [','].intercalate (Row.members schema row) ++ ['}']

/-- Rows as a list of objects. -/
def Row.writeAll (schema : Schema) (rows : List (Row schema)) : List Char :=
  '[' :: [','].intercalate (rows.map (Row.write schema)) ++ [']']

-- =========================================================== reading

/-- The slots with the value of a key, and what follows it; nothing if the
schema has no such key. A slot that is filled already is a mismatch. -/
def Slots.readAt? : (schema : Schema) → Slots schema → (key : String) → List Char →
    Option (Except Fault (Slots schema × List Char))
  | [], _, _, _ => Option.none
  | field :: fields, (slot, slots), key, s =>
      if field.name = key then some <|
        if slot.isSome then .error .mismatch
        else do
          let s ← skipColon s
          let (x, s) ← field.kind.read s
          return ((some x, slots), s)
      else (Slots.readAt? fields slots key s).map fun result =>
        result.map fun (slots, s) => ((slot, slots), s)

/-- The slots with the member of a key, which is passed over if the schema does
not have it. -/
def Slots.readMember (schema : Schema) (slots : Slots schema) (s : List Char) :
    Except Fault (Slots schema × List Char) := do
  let (key, s) ← readText s
  match Slots.readAt? schema slots key s with
  | some result => result
  | Option.none =>
      let s ← skipColon s
      let s ← skipValue s
      return (slots, s)

/-- The slots with the members of an object from here to its end; `fuel` bounds
their number, and `first` tells whether none came before. -/
def Slots.readMembers (schema : Schema) :
    (fuel : Nat) → (first : Bool) → Slots schema → List Char →
      Except Fault (Slots schema × List Char)
  | 0, _, _, _ => .error .truncated
  | fuel + 1, first, slots, s =>
      let member (s : List Char) : Except Fault (Slots schema × List Char) :=
        match skipBlanks s with
        | '"' :: s => do
            let (slots, s) ← Slots.readMember schema slots s
            Slots.readMembers schema fuel false slots s
        | [] => .error .truncated
        | _ => .error .malformed
      match skipBlanks s with
      | '}' :: s => .ok (slots, s)
      | [] => .error .truncated
      | s =>
          if first then member s
          else match s with
            | ',' :: s => member s
            | _ => .error .malformed

/-- A row from the items of a list, which are its scalars in order. -/
def Row.readItems : (schema : Schema) → (first : Bool) → List Char →
    Except Fault (Row schema × List Char)
  | [], _, s =>
      match skipBlanks s with
      | ']' :: s => .ok ((), s)
      | [] => .error .truncated
      | _ => .error .malformed
  | field :: fields, first, s => do
      let item ← match first, skipBlanks s with
        | _, [] => .error .truncated
        | _, ']' :: _ => .error .mismatch
        | true, s => .ok s
        | false, ',' :: s =>
            match skipBlanks s with
            | ']' :: _ => .error .malformed
            | s => .ok s
        | false, _ => .error .malformed
      let (x, s) ← field.kind.read item
      let (row, s) ← Row.readItems fields false s
      return ((x, row), s)

/-- A row, and what follows it. -/
def Row.readFrom (schema : Schema) (s : List Char) :
    Except Fault (Row schema × List Char) :=
  match skipBlanks s with
  | '[' :: s => Row.readItems schema true s
  | '{' :: s => do
      let (slots, s) ← Slots.readMembers schema (s.length + 1) true (Slots.none schema) s
      match Slots.row? schema slots with
      | some row => return (row, s)
      | Option.none => .error .mismatch
  | s => .error (wrongShape s)

/-- A row that takes the whole of a text. -/
def Row.read (schema : Schema) (s : List Char) : Except Fault (Row schema) := do
  let (row, s) ← Row.readFrom schema s
  if skipBlanks s = [] then return row else .error .malformed

-- ============================================================ codecs

/-- How the values of a type are kept as rows. -/
structure Codec (α : Type) where
  /-- The fields of a value. -/
  schema : Schema
  /-- The row of a value. -/
  toRow : α → Row schema
  /-- The value of a row. -/
  ofRow : Row schema → α
  /-- The row of a value has that value. -/
  ofRow_toRow : ∀ x, ofRow (toRow x) = x := by intro x; rfl

/-- The text of a value. -/
def Codec.encode {α : Type} (codec : Codec α) (x : α) : String :=
  .ofList (Row.write codec.schema (codec.toRow x))

/-- The value of a text. -/
def Codec.decode {α : Type} (codec : Codec α) (text : String) : Except Fault α :=
  (Row.read codec.schema text.toList).map codec.ofRow

end Vitals.Json
