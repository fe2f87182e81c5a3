/-
The way of a request from its connection to the dispatcher and back. The router
decides whether the connection stays open, hands the request on, and completes
the answer with the headers that every answer has. A request for which there is
no time is answered without being handed on.
-/
import Vitals.Duration
import Vitals.Http.Api
import Vitals.Http.Uri
import Vitals.Text.Blank

namespace Vitals.Http

open Text

/-- A request as it came in, without a body. -/
structure Incoming where
  /-- The method. -/
  method : String
  /-- The address as it was written. -/
  uri : String
  /-- The version of the protocol. -/
  version : Version
  /-- The headers, in the order in which they came. -/
  headers : List (String × String)
deriving DecidableEq, Repr

-- ======================================================== keep-alive

/-- Whether a header value can be read: it has printable characters of ASCII and
tabs only. -/
def isReadable (value : List Char) : Bool :=
  value.all fun c => (0x20 ≤ c.toNat && c.toNat < 0x7F) || c == '\t'

/-- The tokens of a header value, between commas and in lower case. -/
def tokensOf (value : List Char) : List (List Char) :=
  (value.splitOn ',').map fun token => (trim token).map Char.toLower

/-- The tokens of all connection headers that can be read. -/
def connectionTokens (headers : List (String × String)) : List (List Char) :=
  (headers.filter fun (name, value) =>
      name.toList.map Char.toLower == "connection".toList && isReadable value.toList).flatMap
    fun (_, value) => tokensOf value.toList

/-- Whether the connection stays open after a request. Later versions keep it
unless they are told to close it, earlier ones close it unless they are told to
keep it, and closing goes before keeping. -/
def keepsAlive (version : Version) (headers : List (String × String)) : Bool :=
  let tokens := connectionTokens headers
  if "close".toList ∈ tokens then false
  else match version with
    | .http09 | .http10 => "keep-alive".toList ∈ tokens
    | _ => true

-- ============================================================ answers

/-- The request as it is dispatched. -/
def Incoming.request (r : Incoming) : Request :=
  { method := r.method, target := (Uri.parse r.uri).target, version := r.version,
    keepAlive := keepsAlive r.version r.headers }

/-- A message with the headers that every answer has. An answer to a request for
the head alone has no body, but tells the length of the one it would have. -/
def Message.completed (m : Message) (method : String) : Message :=
  { m with
    headers := m.headers ++
      [("content-length", Log.count m.body.utf8ByteSize), ("access-control-allow-origin", "*")]
    body := if method = "HEAD" then "" else m.body }

/-- The answer to a request for which there was no time. -/
def timedOut : Message := ⟨408, [], ""⟩

/-- The record of a request that was answered. -/
def Incoming.record (r : Incoming) (status : Nat) : Log.Record :=
  ⟨.info, "request",
    [("method", r.method), ("uri", (Uri.parse r.uri).text), ("status", Log.count status)]⟩

/-- What became of a request that came in. -/
structure Answered (σ : Type) where
  /-- The answer. -/
  message : Message
  /-- The dispatcher afterwards. -/
  dispatcher : Dispatcher σ
  /-- The state afterwards. -/
  state : σ
  /-- The log. -/
  log : List Log.Record

/-- Answers a request within a time. The timer is idealised: it does not go in ticks,
handling a request takes no time, and a time that is over at once is over before the
request is looked at. So the time runs out if there is none, and only then. -/
def answer {σ : Type} (limit : Duration) (d : Dispatcher σ) (state : σ) (r : Incoming) :
    Answered σ :=
  if limit.nanoseconds = 0 then
    { message := timedOut.completed r.method, dispatcher := d, state
      log := [r.record timedOut.status] }
  else
    let done := d.dispatch r.request state
    { message := done.response.message.completed r.method
      dispatcher := done.dispatcher
      state := done.state
      log := done.events.map DispatchEvent.record ++ [r.record done.response.status] }

end Vitals.Http
