/-
What a query says of its parameters.

A query is cut at its ampersands, and each piece is looked at by itself: one with exactly
one equals sign is a parameter, and any other is passed over. So two queries that are
joined by an ampersand have the pieces of the first and then those of the second, and the
second overrides the first (`parse_append`). That one equation is all that a query is
about. A query that is written piece by piece has the parameters among the pieces, of two
with one key the later, wherever the pieces stand that are none (`parse_written`).

The converse holds as well, as far as it can: neither separator is ever in a key or in a
value (`plain_of_parse`), so every parameter that is read could have been written.
-/
import Vitals.Http.Request
import Vitals.Proofs.Store.Contents
import Vitals.Proofs.Text.Words

namespace Vitals.Http

open Std (ExtTreeMap)
open Text

-- ============================================================= pieces

/-- The ways in which a piece can have equals signs: none, one, or more. -/
theorem equals_cases (piece : List Char) :
    '=' ∉ piece
    ∨ (∃ key value, piece = key ++ '=' :: value ∧ '=' ∉ key ∧ '=' ∉ value)
    ∨ ∃ key value rest, piece = key ++ '=' :: (value ++ '=' :: rest)
      ∧ '=' ∉ key ∧ '=' ∉ value := by
  by_cases hpiece : '=' ∈ piece
  · obtain ⟨key, behind, rfl, hkey⟩ := List.eq_append_cons_of_mem hpiece
    by_cases hbehind : '=' ∈ behind
    · obtain ⟨value, rest, rfl, hvalue⟩ := List.eq_append_cons_of_mem hbehind
      exact .inr (.inr ⟨key, value, rest, rfl, hkey, hvalue⟩)
    · exact .inr (.inl ⟨key, behind, rfl, hkey, hbehind⟩)
  · exact .inl hpiece

/-- A key and a value with one equals sign between them are a parameter. -/
theorem parameterOf?_append_cons {key value : List Char} (hkey : '=' ∉ key) (hvalue : '=' ∉ value) :
    parameterOf? (key ++ '=' :: value) = some (.ofList key, .ofList value) := by
  rw [parameterOf?, List.splitOn_append_cons_self_of_not_mem hkey, List.splitOn_eq_singleton hvalue]

/-- A piece is no parameter if it has no equals sign or more than one. -/
theorem parameterOf?_eq_none_iff {piece : List Char} :
    parameterOf? piece = none ↔ piece.count '=' ≠ 1 := by
  rcases equals_cases piece with hnone | ⟨key, value, rfl, hkey, hvalue⟩
    | ⟨key, value, rest, rfl, hkey, hvalue⟩
  · rw [parameterOf?, List.splitOn_eq_singleton hnone, List.count_eq_zero_of_not_mem hnone]
    simp
  · have hcount : (key ++ '=' :: value).count '=' = 1 := by
      simp [List.count_eq_zero_of_not_mem hkey, List.count_eq_zero_of_not_mem hvalue]
    simp [parameterOf?_append_cons hkey hvalue, hcount]
  · have hcount : 2 ≤ (key ++ '=' :: (value ++ '=' :: rest)).count '=' := by
      simp only [List.count_append, List.count_cons_self]
      omega
    refine iff_of_true ?_ (by omega)
    obtain ⟨first, others, hrest⟩ := List.exists_cons_of_ne_nil (List.splitOn_ne_nil '=' rest)
    rw [parameterOf?, List.splitOn_append_cons_self_of_not_mem hkey,
      List.splitOn_append_cons_self_of_not_mem hvalue, hrest]

/-- A piece gives a parameter precisely if it has one `=`. -/
theorem parameterOf?_eq_some_iff {piece : List Char} {key value : String} :
    parameterOf? piece = some (key, value)
      ↔ piece = key.toList ++ '=' :: value.toList ∧ '=' ∉ key.toList ∧ '=' ∉ value.toList := by
  constructor
  · intro h
    have hcount : piece.count '=' = 1 := by
      by_contra hcount
      rw [parameterOf?_eq_none_iff.mpr hcount] at h
      cases h
    rcases equals_cases piece with hnone | ⟨k, v, rfl, hk, hv⟩ | ⟨k, v, rest, rfl, -, -⟩
    · rw [List.count_eq_zero_of_not_mem hnone] at hcount
      omega
    · rw [parameterOf?_append_cons hk hv] at h
      cases h
      simpa using ⟨hk, hv⟩
    · simp only [List.count_append, List.count_cons_self] at hcount
      omega
  · intro ⟨hpiece, hkey, hvalue⟩
    rw [hpiece, parameterOf?_append_cons hkey hvalue, String.ofList_toList, String.ofList_toList]

-- ============================================================ queries

namespace Parameters

/-- Of two queries with an ampersand between them the second overrides the first. -/
theorem parse_append (a b : List Char) : parse (a ++ '&' :: b) = parse a ∪ parse b := by
  apply ExtTreeMap.ext_getElem?
  intro key
  rw [ExtTreeMap.getElem?_union, parse, parse, parse, List.splitOn_append_cons_self,
    List.filterMap_append, getElem?_ofList, getElem?_ofList, getElem?_ofList]
  simp only [List.findRev?_eq_find?_reverse, List.reverse_append, List.find?_append,
    Option.map_or]

/-- A text of one piece has its parameter, if it gives one. -/
theorem parse_of_notMem {piece : List Char} (h : '&' ∉ piece) :
    parse piece = .ofList (parameterOf? piece).toList := by
  rw [parse, List.splitOn_eq_singleton h, List.filterMap_cons, List.filterMap_nil]
  cases parameterOf? piece <;> rfl

/-- What is read of a query has none of its separators. -/
theorem plain_of_parse {query : List Char} {key value : String}
    (h : (parse query)[key]? = some value) :
    ('&' ∉ key.toList ∧ '=' ∉ key.toList) ∧ '&' ∉ value.toList ∧ '=' ∉ value.toList := by
  obtain ⟨earlier, later, hsplit, -⟩ := getElem?_ofList_eq_some_iff.mp h
  have hmem : (key, value) ∈ (query.splitOn '&').filterMap parameterOf? := by
    rw [hsplit]
    simp
  obtain ⟨piece, hpiece, hparameter⟩ := List.mem_filterMap.mp hmem
  obtain ⟨rfl, hkey, hvalue⟩ := parameterOf?_eq_some_iff.mp hparameter
  have hplain := notMem_of_mem_splitOn hpiece
  simp only [List.mem_append, List.mem_cons, not_or] at hplain
  exact ⟨⟨hplain.1, hkey⟩, hplain.2.2, hvalue⟩

end Parameters

-- ========================================================== rendering

/-- A parameter that can be written. -/
structure Parameter where
  key : List Char
  value : List Char
  key_plain : '&' ∉ key ∧ '=' ∉ key
  value_plain : '&' ∉ value ∧ '=' ∉ value

namespace Parameter

/-- The parameter as it is written. -/
def text (p : Parameter) : List Char := p.key ++ '=' :: p.value

/-- The key and the value as they are kept. -/
def entry (p : Parameter) : String × String := (.ofList p.key, .ofList p.value)

theorem parameterOf?_text (p : Parameter) : parameterOf? p.text = some p.entry :=
  parameterOf?_append_cons p.key_plain.2 p.value_plain.2

end Parameter

/-- What can stand between two ampersands. -/
inductive Piece where
  /-- A parameter. -/
  | parameter (p : Parameter)
  /-- A text that is no parameter, as it has no equals sign or more than one. -/
  | malformed (text : List Char) (plain : '&' ∉ text) (unpaired : text.count '=' ≠ 1)

namespace Piece

/-- The piece as it is written. -/
def text : Piece → List Char
  | parameter p => p.text
  | malformed text _ _ => text

/-- The parameter that a piece is, if it is one. -/
def entry? : Piece → Option (String × String)
  | parameter p => some p.entry
  | malformed .. => none

theorem notMem_text (piece : Piece) : '&' ∉ piece.text := by
  cases piece with
  | parameter p =>
      show '&' ∉ p.key ++ '=' :: p.value
      simp [p.key_plain.1, p.value_plain.1]
  | malformed text plain unpaired => exact plain

theorem parameterOf?_text (piece : Piece) : parameterOf? piece.text = piece.entry? := by
  cases piece with
  | parameter p => exact p.parameterOf?_text
  | malformed text plain unpaired => exact parameterOf?_eq_none_iff.mpr unpaired

end Piece

/-- Some pieces with ampersands between them. -/
def writtenQuery (pieces : List Piece) : List Char := ['&'].intercalate (pieces.map Piece.text)

/-- A query that is written has the parameters among its pieces. -/
theorem parse_written (pieces : List Piece) :
    Parameters.parse (writtenQuery pieces) = .ofList (pieces.filterMap Piece.entry?) := by
  cases pieces with
  | nil => rfl
  | cons first others =>
      have hplain : ∀ text ∈ (first :: others).map Piece.text, '&' ∉ text := by
        intro text htext
        obtain ⟨piece, -, rfl⟩ := List.mem_map.mp htext
        exact piece.notMem_text
      rw [Parameters.parse, writtenQuery, List.splitOn_intercalate '&' hplain (by simp),
        List.filterMap_map]
      congr 1
      exact List.filterMap_congr fun piece _ => piece.parameterOf?_text

/-- What a query says of its parameters.

Of two queries joined by an ampersand the second overrides the first: under a key stands
what the second has there, and what the first has if the second has nothing. A query
without an ampersand has one parameter if it has exactly one equals sign, and that is what
stands before the sign and behind it, both of which may be empty. It has none otherwise.

So if parameters are written with ampersands between them, and other pieces anywhere among
them, then under a key stands the value of the last parameter that has it. No key and no
value that is read of any query has an ampersand or an equals sign in it. -/
theorem later_parameters_override :
    (∀ a b : List Char,
      Parameters.parse (a ++ '&' :: b) = Parameters.parse a ∪ Parameters.parse b
      ∧ ∀ key : String, (Parameters.parse (a ++ '&' :: b))[key]?
          = (Parameters.parse b)[key]?.or (Parameters.parse a)[key]?)
    ∧ (∀ piece : List Char, '&' ∉ piece →
        (piece.count '=' = 1 → ∃ key value, piece = key ++ '=' :: value
          ∧ Parameters.parse piece = (∅ : Parameters).insert (.ofList key) (.ofList value))
        ∧ (piece.count '=' ≠ 1 → Parameters.parse piece = ∅))
    ∧ (∀ (pieces : List Piece) (key value : String),
        (Parameters.parse (writtenQuery pieces))[key]? = some value
          ↔ ∃ earlier later, pieces.filterMap Piece.entry? = earlier ++ (key, value) :: later
            ∧ ∀ entry ∈ later, entry.1 ≠ key)
    ∧ ∀ (query : List Char) (key value : String), (Parameters.parse query)[key]? = some value →
        ('&' ∉ key.toList ∧ '=' ∉ key.toList) ∧ '&' ∉ value.toList ∧ '=' ∉ value.toList := by
  refine ⟨fun a b => ⟨Parameters.parse_append a b, fun key => ?_⟩, fun piece hplain => ⟨?_, ?_⟩,
    fun pieces key value => ?_, fun query key value => Parameters.plain_of_parse⟩
  · rw [Parameters.parse_append, ExtTreeMap.getElem?_union]
  · intro hcount
    cases hparameter : parameterOf? piece with
    | none => exact absurd hcount (parameterOf?_eq_none_iff.mp hparameter)
    | some entry =>
        obtain ⟨key, value⟩ := entry
        have hpiece := (parameterOf?_eq_some_iff.mp hparameter).1
        refine ⟨key.toList, value.toList, hpiece, ?_⟩
        rw [Parameters.parse_of_notMem hplain, hparameter, String.ofList_toList,
          String.ofList_toList]
        rfl
  · intro hcount
    rw [Parameters.parse_of_notMem hplain, parameterOf?_eq_none_iff.mpr hcount]
    rfl
  · rw [parse_written]
    exact getElem?_ofList_eq_some_iff

end Vitals.Http
