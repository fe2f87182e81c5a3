/-
Requests as the endpoints see them. A request comes with its target as a text;
resolving it splits the target into a path, the parameters of its query and a
fragment. What a target does not have stays as an earlier target left it.
-/
import Std.Data.ExtTreeMap
import Vitals.Text.Cut

namespace Vitals.Http

open Std (ExtTreeMap)
open Text

-- ========================================================== versions

/-- The versions of the protocol. -/
inductive Version where
  | http09
  | http10
  | http11
  | http2
  | http3
deriving DecidableEq, Repr

/-- The name of a version. -/
def Version.name : Version → String
  | http09 => "HTTP/0.9"
  | http10 => "HTTP/1.0"
  | http11 => "HTTP/1.1"
  | http2 => "HTTP/2.0"
  | http3 => "HTTP/3.0"

-- ========================================================= parameters

/-- The parameters of a query, by key. -/
abbrev Parameters := ExtTreeMap String String

/-- The parameter of a piece between ampersands: the piece has to have exactly
one equals sign. -/
def parameterOf? (piece : List Char) : Option (String × String) :=
  match piece.splitOn '=' with
  | [key, value] => some (.ofList key, .ofList value)
  | _ => none

/-- The parameters of a query; of two with the same key the last one holds. -/
def Parameters.parse (query : List Char) : Parameters :=
  .ofList ((query.splitOn '&').filterMap parameterOf?)

-- =========================================================== requests

/-- A request. -/
structure Request where
  /-- The method, whose case matters. -/
  method : String
  /-- The target as it was received. -/
  target : String
  /-- The version of the protocol. -/
  version : Version
  /-- Whether the connection is to stay open. -/
  keepAlive : Bool
  /-- The target without its query and its fragment. -/
  resourcePath : String := ""
  /-- The pieces of the path between slashes, empty ones included. -/
  pathSegments : List String := []
  /-- The parameters of the query. -/
  parameters : Parameters := ∅
  /-- The fragment. -/
  fragment : Option String := none

instance : Inhabited Request := ⟨⟨"", "", .http11, true, "", [], ∅, none⟩⟩

namespace Request

/-- A text up to the first `sep`, and what is behind it if there is one. -/
def splitFirst (sep : Char) (s : List Char) : List Char × Option (List Char) :=
  match cut sep s with
  | some (before, after) => (before, some after)
  | none => (s, none)

/-- A target up to its query or fragment, its query, and its fragment. A
question mark behind the first number sign belongs to the fragment. -/
def targetParts (target : List Char) : List Char × Option (List Char) × Option (List Char) :=
  let (rest, fragment) := splitFirst '#' target
  let (path, query) := splitFirst '?' rest
  (path, query, fragment)

/-- The request with its target split. -/
def resolve (r : Request) : Request :=
  let (path, query, fragment) := targetParts r.target.toList
  { r with
    resourcePath := .ofList path
    pathSegments := (path.splitOn '/').map String.ofList
    parameters := match query with
      | some query => .parse query
      | none => r.parameters
    fragment := match fragment with
      | some fragment => some (.ofList fragment)
      | none => r.fragment }

/-- The request with another target, split in turn. -/
def retarget (r : Request) (target : String) : Request := { r with target }.resolve

/-- A request to read a target over a connection that stays open. -/
def get (target : String) : Request :=
  resolve { method := "GET", target, version := .http11, keepAlive := true }

/-- The parameter of a key. -/
def parameter? (r : Request) (key : String) : Option String := r.parameters[key]?

end Request

end Vitals.Http
