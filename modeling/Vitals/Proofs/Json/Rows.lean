/-
Rows are read back as they were.

A list and an object denote the values of their parts, because a comma or the bracket that
closes them stands behind every part. So what is written of a row denotes the object of
its scalars (`denotes_write`), with a member for each field in the order of the schema and
no other, and that object has no other row (`row?_ofRow`) as long as the numbers in it are
finite. What is not finite is written as `null`, which no number is read from.
-/
import Mathlib.Data.List.Forall2
import Vitals.Proofs.Json.Value

namespace Vitals.Json.Value

-- ============================================================= parts

variable {α : Type} {close : Char} {item : List Char → Except Fault (α × List Char)}

/-- An item before the closing mark is the last one. -/
theorem readItems_last (hblank : isBlank close = false) {s rest : List Char} {x : α}
    (h : item s = .ok (x, close :: rest)) (fuel : Nat) :
    readItems close item (fuel + 1) s = .ok ([x], rest) := by
  simp only [readItems, h, bind, Except.bind, skipBlanks_cons hblank, if_pos]
  rfl

/-- An item before a comma is followed by what is read behind the comma. -/
theorem readItems_comma (hcomma : ',' ≠ close) {s s' rest : List Char} {x : α} {xs : List α}
    {fuel : Nat} (h : item s = .ok (x, ',' :: s'))
    (hmore : readItems close item fuel s' = .ok (xs, rest)) :
    readItems close item (fuel + 1) s = .ok (x :: xs, rest) := by
  have hblank : isBlank ',' = false := rfl
  simp only [readItems, h, bind, Except.bind, skipBlanks_cons hblank, if_neg hcomma, if_pos, hmore]
  rfl

/-- Items with commas between them are read one by one, down to what closes them. -/
theorem readItems_intercalate (hclose : close = ']' ∨ close = '}') {texts : List (List Char)}
    {xs : List α} (h : List.Forall₂ (Reads item) texts xs) (hne : texts ≠ []) {fuel : Nat}
    (hfuel : texts.length ≤ fuel) (rest : List Char) :
    readItems close item fuel ([','].intercalate texts ++ close :: rest) = .ok (xs, rest) := by
  have hblank : isBlank close = false := by rcases hclose with rfl | rfl <;> rfl
  have hcomma : ',' ≠ close := by rcases hclose with rfl | rfl <;> decide
  induction h generalizing fuel with
  | nil => exact absurd rfl hne
  | @cons text x texts xs hx hxs ih =>
      rw [List.length_cons] at hfuel
      obtain ⟨fuel, rfl⟩ : ∃ n, fuel = n + 1 := ⟨fuel - 1, by omega⟩
      -- the last item is followed by the closing mark, any other by a comma
      cases texts with
      | nil =>
          cases hxs
          have hapart : Apart (close :: rest) := by
            rintro c ⟨⟩
            exact .inr hclose
          rw [List.intercalate_singleton]
          exact readItems_last hblank (hx _ hapart) fuel
      | cons second texts =>
          have hapart : Apart (',' :: ([','].intercalate (second :: texts) ++ close :: rest)) := by
            rintro c ⟨⟩
            exact .inl rfl
          have hmore := ih (List.cons_ne_nil second texts) (Nat.le_of_succ_le_succ hfuel)
          rw [List.intercalate_cons_cons, List.append_assoc, List.append_assoc]
          exact readItems_comma hcomma (hx _ hapart) hmore

/-- So it is where there may be none, as long as no item opens with what closes them. -/
theorem readBetween_intercalate (hclose : close = ']' ∨ close = '}')
    (hopen : ∀ s r, item s = .ok r → ∃ c t, skipBlanks s = c :: t ∧ c ≠ close)
    {texts : List (List Char)} {xs : List α} (h : List.Forall₂ (Reads item) texts xs)
    {fuel : Nat} (hfuel : texts.length ≤ fuel) (rest : List Char) :
    readBetween close item fuel ([','].intercalate texts ++ close :: rest) = .ok (xs, rest) := by
  have hblank : isBlank close = false := by rcases hclose with rfl | rfl <;> rfl
  cases htexts : texts with
  | nil =>
      subst htexts
      cases h
      simp only [readBetween, List.intercalate_nil, List.nil_append, skipBlanks_cons hblank, if_pos]
  | cons text others =>
      have hne : texts ≠ [] := htexts ▸ List.cons_ne_nil text others
      rw [← htexts]
      have hread := readItems_intercalate hclose h hne hfuel rest
      -- what opens the items opens the first of them, and so is not what closes them
      obtain ⟨c, t, hskip, hc⟩ : ∃ c t,
          skipBlanks ([','].intercalate texts ++ close :: rest) = c :: t ∧ c ≠ close := by
        have hsome := List.length_pos_iff.mpr hne
        obtain ⟨fuel, rfl⟩ : ∃ n, fuel = n + 1 := ⟨fuel - 1, by omega⟩
        cases hitem : item ([','].intercalate texts ++ close :: rest) with
        | ok r => exact hopen _ r hitem
        | error e =>
            rw [readItems, hitem] at hread
            cases hread
      simp only [readBetween, hskip, if_neg hc]
      exact hread

-- ============================================================= values

/-- A value is never read where an array closes. -/
theorem opens_readWithin {fuel : Nat} {s : List Char} {r : Value × List Char}
    (h : readWithin fuel s = .ok r) : ∃ c t, skipBlanks s = c :: t ∧ c ≠ ']' := by
  cases fuel with
  | zero => cases h
  | succ fuel =>
      cases hskip : skipBlanks s with
      | nil =>
          simp only [readWithin, hskip] at h
          cases h
      | cons c t =>
          refine ⟨c, t, rfl, ?_⟩
          rintro rfl
          simp only [readWithin, hskip] at h
          cases h

/-- A member is never read where an object closes. -/
theorem opens_readMember {value : List Char → Except Fault (Value × List Char)} {s : List Char}
    {r : (String × Value) × List Char} (h : readMember value s = .ok r) :
    ∃ c t, skipBlanks s = c :: t ∧ c ≠ '}' := by
  cases hskip : skipBlanks s with
  | nil =>
      simp only [readMember, hskip] at h
      cases h
  | cons c t =>
      refine ⟨c, t, rfl, ?_⟩
      rintro rfl
      simp only [readMember, hskip] at h
      cases h

/-- The texts of a list are each shorter than the joined text, so the fuel for it is enough
for each. -/
theorem forall₂_short {β : Type} {R : List Char → β → Prop} {texts : List (List Char)}
    {values : List β} (h : List.Forall₂ R texts values) {fuel : Nat}
    (hfuel : ([','].intercalate texts).length < fuel) :
    List.Forall₂ (fun text value => text.length < fuel ∧ R text value) texts values := by
  refine (List.forall₂_and_left _ _).mpr ⟨fun text htext => ?_, h⟩
  exact (@infix_intercalate _ [','] _ _ htext).length_le.trans_lt hfuel

/-- Texts of values joined by commas between brackets denote the list of those values. -/
theorem denotes_list {texts : List (List Char)} {values : List Value}
    (h : List.Forall₂ Denotes texts values) :
    Denotes ('[' :: [','].intercalate texts ++ [']']) (list values) := by
  intro fuel hfuel rest hrest
  obtain ⟨fuel, rfl⟩ : ∃ n, fuel = n + 1 := ⟨fuel - 1, by omega⟩
  rw [List.cons_append, List.length_cons, List.length_append, List.length_singleton] at hfuel
  have hitems : List.Forall₂ (Reads (readWithin fuel)) texts values :=
    (forall₂_short h (by omega)).imp fun text value htext => htext.2 fuel htext.1
  have hcount : texts.length ≤ fuel := by
    have := length_le_length_intercalate ',' texts
    omega
  have hread := readBetween_intercalate (.inl rfl) (fun s r => opens_readWithin) hitems hcount rest
  have hblank : isBlank '[' = false := rfl
  rw [List.cons_append, List.cons_append, List.append_assoc, List.singleton_append]
  simp only [readWithin, skipBlanks_cons hblank, hread]
  rfl

/-- A text that denotes a key and a value, as a member of an object. -/
def DenotesMember (s : List Char) (field : String × Value) : Prop :=
  ∃ text, s = writeText field.1 ++ ':' :: text ∧ Denotes text field.2

/-- A text that denotes a member is read as it, whatever follows. -/
theorem reads_member {s : List Char} {field : String × Value} (h : DenotesMember s field)
    {fuel : Nat} (hfuel : s.length < fuel) : Reads (readMember (readWithin fuel)) s field := by
  intro rest hrest
  obtain ⟨text, rfl, hdenotes⟩ := h
  have hshort : text.length < fuel := by
    rw [List.length_append, List.length_cons] at hfuel
    omega
  have hquote : isBlank '"' = false := rfl
  have hcolon : isBlank ':' = false := rfl
  have hkey := readText_writeText field.1 (':' :: (text ++ rest))
  have hvalue := hdenotes fuel hshort rest hrest
  rw [writeText, List.cons_append, List.cons_append, List.cons_append, List.append_assoc _ _ rest,
    List.cons_append]
  simp only [readMember, skipBlanks_cons hquote, hkey, bind, Except.bind, skipColon,
    skipBlanks_cons hcolon, hvalue]
  rfl

/-- Texts of members joined by commas between braces denote the object of those members. -/
theorem denotes_object {texts : List (List Char)} {fields : List (String × Value)}
    (h : List.Forall₂ DenotesMember texts fields) :
    Denotes ('{' :: [','].intercalate texts ++ ['}']) (object fields) := by
  intro fuel hfuel rest hrest
  obtain ⟨fuel, rfl⟩ : ∃ n, fuel = n + 1 := ⟨fuel - 1, by omega⟩
  rw [List.cons_append, List.length_cons, List.length_append, List.length_singleton] at hfuel
  have hitems : List.Forall₂ (Reads (readMember (readWithin fuel))) texts fields :=
    (forall₂_short h (by omega)).imp fun text field htext => reads_member htext.2 htext.1
  have hcount : texts.length ≤ fuel := by
    have := length_le_length_intercalate ',' texts
    omega
  have hread := readBetween_intercalate (.inr rfl) (fun s r => opens_readMember) hitems hcount rest
  have hblank : isBlank '{' = false := rfl
  rw [List.cons_append, List.cons_append, List.append_assoc, List.singleton_append]
  simp only [readWithin, skipBlanks_cons hblank, hread]
  rfl

/-- A text that denotes a value is read as that value and nothing is left behind it. -/
theorem ofText_of_denotes {s : List Char} {value : Value} (h : Denotes s value) :
    ofText s = .ok value := by
  have hread := h (s.length + 1) (Nat.lt_succ_self _) [] (fun c hc => by cases hc)
  rw [List.append_nil] at hread
  rw [ofText, hread]
  rfl

-- ============================================================== rows

/-- The members that a row is written as. -/
def ofRow : (schema : Schema) → Row schema → List (String × Value)
  | [], _ => []
  | field :: fields, (x, row) => (field.name, ofScalar field.kind x) :: ofRow fields row

theorem denotes_members (schema : Schema) (row : Row schema) :
    List.Forall₂ DenotesMember (Row.members schema row) (ofRow schema row) := by
  induction schema with
  | nil => exact .nil
  | cons field fields ih =>
      obtain ⟨x, row⟩ := row
      exact .cons ⟨_, rfl, denotes_ofScalar field.kind x⟩ (ih row)

/-- A written row denotes the object of its fields. -/
theorem denotes_write (schema : Schema) (row : Row schema) :
    Denotes (Row.write schema row) (object (ofRow schema row)) :=
  denotes_object (denotes_members schema row)

/-- A written table denotes the list of the objects of its rows. -/
theorem denotes_writeAll (schema : Schema) (rows : List (Row schema)) :
    Denotes (Row.writeAll schema rows) (list (rows.map fun row => object (ofRow schema row))) := by
  refine denotes_list ?_
  rw [List.forall₂_map_left_iff, List.forall₂_map_right_iff, List.forall₂_same]
  exact fun row _ => denotes_write schema row

/-- The row that some members make, if they are those of the schema, in its order. -/
def members? : (schema : Schema) → List (String × Value) → Option (Row schema)
  | [], [] => some ()
  | field :: fields, (key, value) :: members =>
      if key = field.name then do
        let x ← scalar? field.kind value
        let row ← members? fields members
        return (x, row)
      else none
  | _, _ => none

/-- The row of an object. -/
def row? (schema : Schema) : Value → Option (Row schema)
  | object members => members? schema members
  | _ => none

/-- The rows of a list of objects. -/
def rows? (schema : Schema) : Value → Option (List (Row schema))
  | list items => items.mapM (row? schema)
  | _ => none

/-- A finite row is the one that has its members. -/
theorem members?_ofRow {schema : Schema} {row : Row schema} (h : Row.Finite schema row) :
    members? schema (ofRow schema row) = some row := by
  induction schema with
  | nil => rfl
  | cons field fields ih =>
      obtain ⟨x, row⟩ := row
      show (if field.name = field.name then
        (scalar? field.kind (ofScalar field.kind x)).bind fun x =>
          (members? fields (ofRow fields row)).bind fun row => some (x, row) else none) = _
      rw [if_pos rfl, scalar?_ofScalar h.1, ih h.2]
      rfl

/-- A finite row is read back from what is written of it. -/
theorem row?_ofText {schema : Schema} {row : Row schema} (h : Row.Finite schema row) :
    (ofText (Row.write schema row)).toOption.bind (row? schema) = some row := by
  rw [ofText_of_denotes (denotes_write schema row)]
  exact members?_ofRow h

/-- A written table of finite rows is decoded to the rows themselves. -/
theorem rows?_ofText {schema : Schema} {rows : List (Row schema)}
    (h : ∀ row ∈ rows, Row.Finite schema row) :
    (ofText (Row.writeAll schema rows)).toOption.bind (rows? schema) = some rows := by
  rw [ofText_of_denotes (denotes_writeAll schema rows)]
  show (rows.map fun row => object (ofRow schema row)).mapM (row? schema) = some rows
  induction rows with
  | nil => rfl
  | cons row rows ih =>
      rw [List.map_cons, List.mapM_cons, row?, members?_ofRow (h row (List.mem_cons_self ..)),
        ih fun row hrow => h row (List.mem_cons_of_mem _ hrow)]
      rfl

end Vitals.Json.Value
