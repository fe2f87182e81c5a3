/-
Paths. A path is a text, and two texts are the same path when they have the same
components: doubled separators, a separator at the end and single dots between
names make no difference, while a leading dot and double dots do.
-/
import Vitals.Text.Cut

namespace Vitals

open Text

/-- A path as it is written. -/
structure Path where
  /-- Its text. -/
  text : String
deriving DecidableEq, Repr, Inhabited

namespace Path

-- ======================================================== components

/-- The components of a path, each as its text. The root is the one component
that is a separator, and a leading dot the one that is a dot. -/
abbrev Key := List String

/-- The component that stands for the root. -/
def root : String := "/"

/-- The component that stands for a leading dot. -/
def here : String := "."

/-- The component that stands for the directory above. -/
def above : String := ".."

/-- What a path starts from, and the text behind it. -/
def start (s : List Char) : Key × List Char :=
  match s with
  | '/' :: rest => ([root], rest)
  | ['.'] => ([here], [])
  | '.' :: '/' :: rest => ([here], '/' :: rest)
  | rest => ([], rest)

/-- Whether a piece between separators is a component. -/
def isComponent (piece : List Char) : Bool := piece ≠ [] && piece ≠ ['.']

/-- The components of a path. -/
def key (p : Path) : Key :=
  let (lead, rest) := start p.text.toList
  lead ++ ((rest.splitOn '/').filter isComponent).map String.ofList

/-- Whether two texts are the same path. -/
def Same (p q : Path) : Prop := p.key = q.key

instance (p q : Path) : Decidable (Same p q) := by
  unfold Same
  infer_instance

/-- Whether a path is `p` itself or lies below it. -/
def IsAtOrBelow (p q : Path) : Prop := p.key <+: q.key

instance (p q : Path) : Decidable (IsAtOrBelow p q) := by
  unfold IsAtOrBelow
  infer_instance

-- ============================================================= steps

/-- The path of `name` below `p`; a rooted name stands for itself. -/
def join (p name : Path) : Path :=
  if name.text.toList.head? = some '/' then name
  else if p.text.toList = [] then name
  else if p.text.toList.getLast? = some '/' then ⟨p.text ++ name.text⟩
  else ⟨p.text ++ "/" ++ name.text⟩

/-- The pieces without those at their end that are no components. -/
def dropTrailing (pieces : List (List Char)) : List (List Char) :=
  (pieces.reverse.dropWhile fun piece => !isComponent piece).reverse

/-- The path above a path, unless that is the root or empty. Its text is the
text of the path up to its last component. -/
def parent? (p : Path) : Option Path :=
  let (lead, rest) := start p.text.toList
  match dropTrailing (rest.splitOn '/') with
  | [] => if lead = [here] then some ⟨""⟩ else none
  | pieces =>
      let kept := dropTrailing pieces.dropLast
      some ⟨String.join lead ++ .ofList (['/'].intercalate kept)⟩

/-- The paths above a path, the nearest first; `fuel` bounds their number. -/
def parents : (fuel : Nat) → Path → List Path
  | 0, _ => []
  | fuel + 1, p =>
      match p.parent? with
      | some q => q :: parents fuel q
      | none => []

/-- The paths above a path, the nearest first. -/
def ancestors (p : Path) : List Path := parents (p.key.length + 1) p

/-- The last component of a path, if it is a name. -/
def fileName? (p : Path) : Option String :=
  match p.key.getLast? with
  | some name => if name = root ∨ name = here ∨ name = above then none else some name
  | none => none

/-- Whether a path can only be one of a directory, as it ends in a separator or
in a dot. -/
def namesDirectory (p : Path) : Bool :=
  !isComponent ((p.text.toList.splitOn '/').getLastD [])

/-- Whether a path ends in dots, whatever separators are behind them, and so in
no name that could be taken away. -/
def endsInDots (p : Path) : Bool :=
  match ((p.text.toList.splitOn '/').filter (· ≠ [])).getLast? with
  | some piece => piece == ['.'] || piece == ['.', '.']
  | none => false

end Path

end Vitals
