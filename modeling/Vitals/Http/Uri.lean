/-
The addresses that requests name. A request names its target by a path, by a
full address, by an authority alone, or by an asterisk; only the target reaches
the endpoints, and a fragment never leaves the client.
-/
import Vitals.Http.Request

namespace Vitals.Http

open Text

/-- An address. -/
structure Uri where
  /-- The scheme of a full address. -/
  scheme : Option String := none
  /-- The host and what belongs to it; empty if there is none. -/
  authority : String := ""
  /-- The path as it is written, which may be empty. -/
  path : String := ""
  /-- The query. -/
  query : Option String := none
deriving DecidableEq, Repr, Inhabited

namespace Uri

-- =========================================================== reading

/-- Whether a character may stand in a scheme. -/
def isSchemeChar (c : Char) : Bool :=
  c.isAlphanum || c == '+' || c == '-' || c == '.' || c == '~'

/-- The scheme of a full address, and what is behind its two slashes. The two
usual schemes are known in any case, and written in lower case. -/
def splitScheme? (s : List Char) : Option (String × List Char) :=
  let scheme := s.takeWhile isSchemeChar
  match afterOpening [':', '/', '/'] (s.dropWhile isSchemeChar) with
  | none => none
  | some rest =>
      let lower := scheme.map Char.toLower
      let usual := lower = "http".toList ∨ lower = "https".toList
      some (.ofList (if usual then lower else scheme), rest)

/-- Whether a character ends an authority. -/
def endsAuthority (c : Char) : Bool := c == '/' || c == '?' || c == '#'

/-- The address with the path and the query of a text. -/
def withTarget (u : Uri) (s : List Char) : Uri :=
  let (path, query, _) := Request.targetParts s
  { u with path := .ofList path, query := query.map String.ofList }

/-- The address of a text. -/
def parse (text : String) : Uri :=
  let s := text.toList
  if s.head? = some '/' ∨ s = ['*'] then Uri.withTarget {} s
  else match splitScheme? s with
    | some (scheme, rest) =>
        Uri.withTarget
          { scheme := some scheme, authority := .ofList (rest.takeWhile (!endsAuthority ·)) }
          (rest.dropWhile (!endsAuthority ·))
    | none => { authority := text }

-- =========================================================== writing

/-- The query with its question mark, if there is one. -/
def queryText (u : Uri) : String :=
  match u.query with
  | some query => "?" ++ query
  | none => ""

/-- Whether the address has a target, which one of an authority alone has not. -/
def hasTarget (u : Uri) : Bool := u.scheme.isSome || u.authority == ""

/-- The target of the address: its path and query as they are written, or a
slash if it has neither. -/
def target (u : Uri) : String :=
  let written := u.path ++ u.queryText
  if !u.hasTarget then "" else if written = "" then "/" else written

/-- The text of the address, in which an empty path is a slash. -/
def text (u : Uri) : String :=
  let scheme := match u.scheme with
    | some scheme => scheme ++ "://"
    | none => ""
  let path := if u.path = "" ∧ u.hasTarget then "/" else u.path
  scheme ++ u.authority ++ path ++ u.queryText

end Uri

end Vitals.Http
