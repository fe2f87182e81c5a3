/-
What is written of a row of scalars, field by field.

A row is written as an object that has a member for each field, with its key in front of
it. A field that is a number has a number there exactly if its scalar is finite
(`isNumber_numerals_iff`): whole numbers always are, and an infinity and what is not a
number have no text of their own in JSON.
-/
import Vitals.Proofs.Json.Number

namespace Vitals.Json

open Binary

-- ============================================================ fields

/-- The fields of a row that are numbers, each with its key and with what is written
of it. -/
def Row.numerals : (schema : Schema) → Row schema → List (String × List Char)
  | [], _ => []
  | field :: fields, (x, row) =>
      if field.kind = .text then Row.numerals fields row
      else (field.name, field.kind.write x) :: Row.numerals fields row

/-- A field as it stands in an object. -/
def member (field : String × List Char) : List Char := writeText field.1 ++ ':' :: field.2

/-- Every scalar of a row that is no string stands among its members, with its key. -/
theorem member_mem_members {schema : Schema} {row : Row schema} {field : String × List Char}
    (h : field ∈ Row.numerals schema row) : member field ∈ Row.members schema row := by
  induction schema with
  | nil => cases h
  | cons head fields ih =>
      obtain ⟨x, row⟩ := row
      rw [Row.numerals] at h
      rw [Row.members]
      split at h
      · exact List.mem_cons_of_mem _ (ih h)
      · rcases List.mem_cons.mp h with rfl | hrest
        · exact List.mem_cons_self ..
        · exact List.mem_cons_of_mem _ (ih hrest)

/-- A scalar that is no infinity, and not `nan`. -/
def Kind.Finite : (k : Kind) → k.Carrier → Prop
  | .single, x => Binary.IsFinite x
  | .double, x => Binary.IsFinite x
  | _, _ => True

/-- A row of such scalars. -/
def Row.Finite : (schema : Schema) → Row schema → Prop
  | [], _ => True
  | field :: fields, (x, row) => field.kind.Finite x ∧ Row.Finite fields row

/-- A scalar is written as a number of JSON precisely if it is finite; anything else is
written as `null`. -/
theorem isNumber_write_kind_iff {k : Kind} (hk : k ≠ .text) (x : k.Carrier) :
    IsNumber (k.write x) ↔ k.Finite x := by
  cases k with
  | word8 => exact iff_of_true (isNumber_of_isUnsigned (isUnsigned_decimal _)) trivial
  | word32 => exact iff_of_true (isNumber_of_isUnsigned (isUnsigned_decimal _)) trivial
  | word64 => exact iff_of_true (isNumber_of_isUnsigned (isUnsigned_decimal _)) trivial
  | signed32 => exact iff_of_true (isNumber_signedDecimal _) trivial
  | single => exact isNumber_write_iff singleLayout x
  | double => exact isNumber_write_iff doubleLayout x
  | text => exact absurd rfl hk

/-- What is written of a row has numbers where they belong if the row is finite, and
only then. -/
theorem isNumber_numerals_iff {schema : Schema} (row : Row schema) :
    (∀ field ∈ Row.numerals schema row, IsNumber field.2) ↔ Row.Finite schema row := by
  induction schema with
  | nil => exact iff_of_true (fun field h => absurd h List.not_mem_nil) trivial
  | cons head fields ih =>
      obtain ⟨x, row⟩ := row
      rw [Row.numerals, Row.Finite, ← ih]
      split
      · next htext =>
          obtain ⟨name, kind⟩ := head
          cases htext
          exact ⟨fun h => ⟨trivial, h⟩, And.right⟩
      · next hkind =>
          rw [List.forall_mem_cons, isNumber_write_kind_iff hkind]

-- ============================================================= texts

/-- What is joined stands in the joined text as it is. -/
theorem infix_intercalate {α : Type} {sep part : List α} {parts : List (List α)}
    (h : part ∈ parts) : part <:+: sep.intercalate parts := by
  induction parts with
  | nil => cases h
  | cons first parts ih =>
      cases parts with
      | nil =>
          rw [List.mem_singleton.mp h, List.intercalate_singleton]
      | cons second parts =>
          rw [List.intercalate_cons_cons]
          rcases List.mem_cons.mp h with rfl | hrest
          · rw [List.append_assoc]
            exact (List.prefix_append _ _).isInfix
          · exact (ih hrest).trans (List.suffix_append _ _).isInfix

/-- A joined text is long enough to hold a separator between any two of its parts. -/
theorem length_le_length_intercalate (c : Char) (texts : List (List Char)) :
    texts.length ≤ ([c].intercalate texts).length + 1 := by
  induction texts with
  | nil => simp
  | cons text texts ih =>
      cases texts with
      | nil => simp
      | cons second texts =>
          rw [List.intercalate_cons_cons, List.length_cons]
          simp only [List.length_append, List.length_singleton]
          omega

/-- Every scalar of a row that is no string stands in the object that is written of it. -/
theorem infix_write {schema : Schema} {row : Row schema} {field : String × List Char}
    (h : field ∈ Row.numerals schema row) : member field <:+: Row.write schema row := by
  have hmember := @infix_intercalate _ [','] _ _ (member_mem_members h)
  rw [Row.write]
  exact List.infix_cons (hmember.trans (List.prefix_append _ _).isInfix)

/-- And in the list of objects, if the row is one of those that are listed. -/
theorem infix_writeAll {schema : Schema} {rows : List (Row schema)} {row : Row schema}
    (hrow : row ∈ rows) {field : String × List Char} (h : field ∈ Row.numerals schema row) :
    member field <:+: Row.writeAll schema rows := by
  have hmem : Row.write schema row ∈ rows.map (Row.write schema) := List.mem_map_of_mem hrow
  have hobject := @infix_intercalate _ [','] _ _ hmem
  rw [Row.writeAll]
  exact List.infix_cons ((infix_write h).trans (hobject.trans (List.prefix_append _ _).isInfix))

end Vitals.Json
