/-
A session: the requests of one connection, answered in order and one at a time
until an answer closes it. What comes after that is not answered.
-/
import Vitals.Http.Router

namespace Vitals.Http

open Text

-- =========================================================== reading

/-- The version of a name; a session speaks the first two with a number. -/
def Version.ofName (name : List Char) : Version :=
  if name = "HTTP/1.0".toList then .http10 else .http11

/-- Whether a character may stand around the value of a header; no other blank
may. -/
def isPadding (c : Char) : Bool := c == ' ' || c == '\t'

/-- A value without the padding around it. -/
def unpadded (value : List Char) : List Char :=
  ((value.dropWhile isPadding).reverse.dropWhile isPadding).reverse

/-- A header line, its value without the padding around it. -/
def headerOf? (line : List Char) : Option (String × String) :=
  (cut ':' line).map fun (name, value) => (.ofList name, .ofList (unpadded value))

/-- The request of a text that is well formed: a line with the method, the
address and the version between single spaces, a line for each header, and an
empty line. What is behind that is the body, which has no part in the answer. -/
def Incoming.parse (text : String) : Option Incoming :=
  match lines text.toList with
  | [] => none
  | first :: headers =>
      match first.splitOn ' ' with
      | [method, uri, version] => some {
          method := .ofList method
          uri := .ofList uri
          version := .ofName version
          headers := (headers.takeWhile (· ≠ [])).filterMap headerOf? }
      | _ => none

-- =========================================================== answers

/-- The words for a status code. -/
def reason (status : Nat) : String :=
  if status = 200 then "OK"
  else if status = 400 then "Bad Request"
  else if status = 404 then "Not Found"
  else if status = 408 then "Request Timeout"
  else if status = 500 then "Internal Server Error"
  else ""

/-- An answer as it goes over a connection. -/
structure Reply where
  /-- The version, the status code and its words. -/
  statusLine : String
  /-- The headers. -/
  headers : List (String × String)
  /-- The body. -/
  body : String
  /-- Whether the connection closes behind it, as the headers tell. -/
  closes : Bool
deriving DecidableEq, Repr

/-- Whether a message says that the connection closes behind it. -/
def Message.Closes (m : Message) : Prop := ("connection", "close") ∈ m.headers

instance (m : Message) : Decidable m.Closes := by
  unfold Message.Closes
  infer_instance

/-- The reply to a request. It is of the version of the request, and the connection
closes behind it if the message says so. To a request of an earlier version that asks
for the connection to stay open, it says that it does. -/
def Message.reply (m : Message) (r : Incoming) : Reply where
  statusLine := r.version.name ++ " " ++ Log.count m.status ++ " " ++ reason m.status
  headers :=
    if r.version = .http10 ∧ keepsAlive r.version r.headers ∧ ¬ m.Closes then
      m.headers ++ [("connection", "keep-alive")]
    else m.headers
  body := m.body
  closes := m.Closes

/-- The text of a reply. -/
def Reply.text (r : Reply) : String :=
  r.statusLine ++ "\r\n"
    ++ String.join (r.headers.map fun (name, value) => name ++ ": " ++ value ++ "\r\n")
    ++ "\r\n" ++ r.body

/-- The replies to the requests of a connection: one each, up to the first that
closes it. -/
def session {σ : Type} (limit : Duration) :
    Dispatcher σ → σ → List Incoming → List Reply
  | _, _, [] => []
  | d, state, r :: rs =>
      let answered := answer limit d state r
      let reply := answered.message.reply r
      if reply.closes then [reply]
      else reply :: session limit answered.dispatcher answered.state rs

end Vitals.Http
