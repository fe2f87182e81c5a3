/-
Passing over a JSON value that nobody reads, of whatever shape and depth.
-/
import Vitals.Json.Number
import Vitals.Json.Text

namespace Vitals.Json

/-- What follows a key and its colon. -/
def skipKey (s : List Char) : Except Fault (List Char) :=
  match skipBlanks s with
  | '"' :: s => do
      let s ← skipText s
      skipColon s
  | [] => .error .truncated
  | _ => .error .malformed

mutual

/-- What follows a value; `fuel` bounds its parts. -/
def skipWithin : (fuel : Nat) → List Char → Except Fault (List Char)
  | 0, _ => .error .truncated
  | fuel + 1, s =>
      match skipBlanks s with
      | [] => .error .truncated
      | 'n' :: s => skipWord ['u', 'l', 'l'] s
      | 't' :: s => skipWord ['r', 'u', 'e'] s
      | 'f' :: s => skipWord ['a', 'l', 's', 'e'] s
      | '"' :: s => skipText s
      | '[' :: s =>
          match skipBlanks s with
          | ']' :: s => .ok s
          | s => skipItems fuel s
      | '{' :: s =>
          match skipBlanks s with
          | '}' :: s => .ok s
          | s => skipMembers fuel s
      | c :: s => if c = '-' ∨ c.isDigit then skipNumber (c :: s) else .error .malformed

/-- What follows a list behind its opening bracket, if it is not empty. -/
def skipItems : (fuel : Nat) → List Char → Except Fault (List Char)
  | 0, _ => .error .truncated
  | fuel + 1, s => do
      let s ← skipWithin fuel s
      match skipBlanks s with
      | ',' :: s => skipItems fuel s
      | ']' :: s => .ok s
      | [] => .error .truncated
      | _ => .error .malformed

/-- What follows an object behind its opening brace, if it is not empty. -/
def skipMembers : (fuel : Nat) → List Char → Except Fault (List Char)
  | 0, _ => .error .truncated
  | fuel + 1, s => do
      let s ← skipKey s
      let s ← skipWithin fuel s
      match skipBlanks s with
      | ',' :: s => skipMembers fuel s
      | '}' :: s => .ok s
      | [] => .error .truncated
      | _ => .error .malformed

end

/-- What follows a value. Every character opens two parts at most. -/
def skipValue (s : List Char) : Except Fault (List Char) := skipWithin (2 * s.length + 2) s

end Vitals.Json
