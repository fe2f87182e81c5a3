/-
Cutting a text at a character: once, at the first occurrence or behind the last
one, and into lines. Cutting at every occurrence is the standard library's
`List.splitOn`; the functions here are the cuts it does not have.
-/
namespace Vitals.Text

-- ====================================================== a single cut

/-- The parts before and after the first `sep`, or nothing if there is none. -/
def cut (sep : Char) : List Char → Option (List Char × List Char)
  | [] => none
  | c :: cs =>
      if c = sep then some ([], cs)
      else (cut sep cs).map fun (before, after) => (c :: before, after)

/-- The part behind the last `sep`, or nothing if there is none. -/
def afterLast (sep : Char) : List Char → Option (List Char)
  | [] => none
  | c :: cs =>
      match afterLast sep cs with
      | some rest => some rest
      | none => if c = sep then some cs else none

/-- The text in front of `tail`, or nothing if the text does not end so. -/
def beforeEnding (tail s : List Char) : Option (List Char) :=
  if tail.isSuffixOf s then some (s.take (s.length - tail.length)) else none

/-- The text behind `head`, or nothing if the text does not start so. -/
def afterOpening : (head s : List Char) → Option (List Char)
  | [], s => some s
  | _ :: _, [] => none
  | h :: head, c :: s => if h = c then afterOpening head s else none

-- ============================================================= lines

/-- A line without the carriage return that closes it, if one does. -/
def dropReturn (line : List Char) : List Char :=
  if line.getLast? = some '\r' then line.dropLast else line

/-- The lines among the pieces between line feeds: a piece that a line feed
closes is a line and loses one carriage return, the piece behind the last line
feed is a line as it stands unless it is empty. -/
def linesOfPieces : List (List Char) → List (List Char)
  | [] => []
  | [last] => if last = [] then [] else [last]
  | piece :: pieces => dropReturn piece :: linesOfPieces pieces

/-- The lines of a text. They end at a line feed, with or without a carriage
return before it; the last one may lack its line feed, and keeps its carriage
return then. -/
def lines (s : List Char) : List (List Char) := linesOfPieces (s.splitOn '\n')

-- ============================================================== laws

/-- A cut loses nothing but the separator, and takes the first one. -/
theorem cut_eq_some {sep : Char} {s before after : List Char}
    (h : cut sep s = some (before, after)) : s = before ++ sep :: after ∧ sep ∉ before := by
  induction s generalizing before with
  | nil => simp [cut] at h
  | cons c cs ih =>
      rw [cut] at h
      split at h
      · next heq =>
          simp only [Option.some.injEq, Prod.mk.injEq] at h
          obtain ⟨rfl, rfl⟩ := h
          simp [heq]
      · next hne =>
          simp only [Option.map_eq_some_iff, Prod.mk.injEq, Prod.exists] at h
          obtain ⟨b, a, hcut, rfl, rfl⟩ := h
          obtain ⟨rfl, hnot⟩ := ih hcut
          simp [hnot, Ne.symm hne]

/-- What stands before the first separator is cut off. -/
theorem cut_append_cons {sep : Char} {before : List Char} (h : sep ∉ before) (after : List Char) :
    cut sep (before ++ sep :: after) = some (before, after) := by
  induction before with
  | nil => simp [cut]
  | cons c cs ih =>
      rw [List.mem_cons, not_or] at h
      rw [List.cons_append, cut, if_neg (Ne.symm h.1), ih h.2]
      rfl

/-- No cut is found exactly in the texts without the separator. -/
theorem cut_eq_none_iff {sep : Char} {s : List Char} : cut sep s = none ↔ sep ∉ s := by
  induction s with
  | nil => simp [cut]
  | cons c cs ih =>
      rw [cut]
      split
      · next heq => simp [heq]
      · next hne => simp [ih, Ne.symm hne]

/-- There is nothing behind a separator exactly in the texts without it. -/
theorem afterLast_eq_none_iff {sep : Char} {s : List Char} :
    afterLast sep s = none ↔ sep ∉ s := by
  induction s with
  | nil => simp [afterLast]
  | cons c cs ih =>
      rw [afterLast, List.mem_cons, not_or, ← ih]
      cases afterLast sep cs with
      | some rest => simp
      | none => simp [eq_comm]

/-- What stands behind the last separator does not depend on what is in front of it. -/
theorem afterLast_append_cons {sep : Char} (before : List Char) {after : List Char}
    (h : sep ∉ after) : afterLast sep (before ++ sep :: after) = some after := by
  induction before with
  | nil => rw [List.nil_append, afterLast, afterLast_eq_none_iff.mpr h, if_pos rfl]
  | cons c before ih => rw [List.cons_append, afterLast, ih]

/-- What stands behind an opening is all that it leaves. -/
theorem afterOpening_eq_some_iff {head s rest : List Char} :
    afterOpening head s = some rest ↔ s = head ++ rest := by
  induction head generalizing s with
  | nil => simp [afterOpening]
  | cons h head ih =>
      cases s with
      | nil => simp [afterOpening]
      | cons c s =>
          rw [afterOpening]
          by_cases hc : h = c
          · simp [hc, ih]
          · simp [hc, Ne.symm hc]

end Vitals.Text
