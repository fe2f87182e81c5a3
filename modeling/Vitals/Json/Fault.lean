/-
What can be wrong with a JSON text. Reading goes through a text once, and the
first fault that it meets is the one it reports.
-/
namespace Vitals.Json

/-- The kinds of faults. -/
inductive Fault where
  /-- The text is well formed so far, but does not say what was asked for. -/
  | mismatch
  /-- The text is not well formed. -/
  | malformed
  /-- The text ends too early. -/
  | truncated
deriving DecidableEq, Repr

/-- The blanks of JSON. -/
def isBlank (c : Char) : Bool := c == ' ' || c == '\t' || c == '\n' || c == '\r'

/-- The text without the blanks that open it. -/
def skipBlanks (s : List Char) : List Char := s.dropWhile isBlank

/-- A text that does not open with a blank stays as it is. -/
theorem skipBlanks_cons {c : Char} (hc : isBlank c = false) (s : List Char) :
    skipBlanks (c :: s) = c :: s :=
  List.dropWhile_cons_of_neg (by simp [hc])

/-- Blanks in front of a text are skipped, however many there are. -/
theorem skipBlanks_append {blanks : List Char} (h : ∀ c ∈ blanks, isBlank c = true)
    (s : List Char) : skipBlanks (blanks ++ s) = skipBlanks s :=
  List.dropWhile_append_of_pos h

/-- What follows the rest of a word. -/
def skipWord : (word s : List Char) → Except Fault (List Char)
  | [], s => .ok s
  | _ :: _, [] => .error .truncated
  | w :: word, c :: s => if c = w then skipWord word s else .error .malformed

/-- What follows a colon. -/
def skipColon (s : List Char) : Except Fault (List Char) :=
  match skipBlanks s with
  | ':' :: rest => .ok rest
  | [] => .error .truncated
  | _ => .error .malformed

end Vitals.Json
