/-
Routes, and the way of a request to its endpoint. A route is a method and a
resource; the case of the resource does not matter, nor a slash at its end, and
nothing else stands for anything but itself. A request without a route, or
without a target, is a bad one.

An endpoint answers from a state and may leave another one, so what is called,
and with what, can be told from the state. What it has to tell is told behind what
the dispatcher tells.

Requests are numbered by a word that goes round: the number behind the greatest
one is zero.
-/
import Std.Data.ExtTreeMap
import Vitals.Http.Request
import Vitals.Http.Response
import Vitals.Log
import Vitals.Text.Lowercase

namespace Vitals.Http

open Std (ExtTreeMap)
open Text

-- ============================================================ routes

/-- A resource in lower case and with a slash at its end. -/
def normalised (resource : List Char) : List Char :=
  let path := lowercase resource
  if path.getLast? = some '/' then path else path ++ ['/']

/-- The key of a route: its method, a colon, and its resource as it is
compared. -/
def routeKey (method resource : String) : String :=
  method ++ ":" ++ .ofList (normalised resource.toList)

-- ============================================================ events

/-- What happens in dispatching. -/
inductive DispatchEvent where
  /-- A route was added. -/
  | registered (key : String)
  /-- A request came in. -/
  | dispatching (id : UInt64) (request : Request)
  /-- The request has no target. -/
  | emptyTarget (id : UInt64)
  /-- There is a route for the request. -/
  | matched (key : String)
  /-- There is no route for the request. -/
  | unmatched (key : String)
  /-- The body of an answer could not be written. -/
  | unwritten (target cause : String)

/-- The record of what happens in dispatching. -/
def DispatchEvent.record : DispatchEvent → Log.Record
  | registered key => ⟨.debug, "route registered", [("route", key)]⟩
  | dispatching id request =>
      ⟨.debug, "dispatching",
        [("request_id", Log.count id.toNat), ("method", request.method), ("uri", request.target),
          ("version", request.version.name)]⟩
  | emptyTarget id => ⟨.debug, "target is empty", [("request_id", Log.count id.toNat)]⟩
  | matched key => ⟨.debug, "matched", [("route", key)]⟩
  | unmatched key => ⟨.debug, "no route", [("route", key)]⟩
  | unwritten target cause =>
      ⟨.error, "failed to serialize response", [("uri", target), ("error", cause)]⟩

-- ======================================================== dispatcher

/-- What an endpoint made of a request. -/
structure Handled (σ : Type) where
  /-- The answer to it. -/
  response : Response
  /-- The state that it left. -/
  state : σ
  /-- What it told of. -/
  events : List DispatchEvent := []

/-- What answers the requests of a route. -/
abbrev Endpoint (σ : Type) := Request → σ → Handled σ

/-- The routes, and the count of the requests so far. -/
structure Dispatcher (σ : Type) where
  /-- The endpoint of each key. -/
  routes : ExtTreeMap String (Endpoint σ) := ∅
  /-- How many requests came in, and the number of the last one. -/
  requests : UInt64 := 0

/-- What became of a request. -/
structure Dispatched (σ : Type) where
  /-- The answer to it. -/
  response : Response
  /-- The dispatcher afterwards. -/
  dispatcher : Dispatcher σ
  /-- The state that the endpoint left. -/
  state : σ
  /-- What happened. -/
  events : List DispatchEvent

namespace Dispatcher

variable {σ τ : Type}

/-- The dispatcher without routes. -/
def empty : Dispatcher σ := {}

instance : Inhabited (Dispatcher σ) := ⟨empty⟩

/-- The number of routes. -/
def routeCount (d : Dispatcher σ) : Nat := d.routes.size

/-- The dispatcher with a route, which takes the place of one with its key. -/
def addRoute (d : Dispatcher σ) (method resource : String) (endpoint : Endpoint σ) :
    Dispatcher σ × List DispatchEvent :=
  let key := routeKey method resource
  ({ d with routes := d.routes.insert key endpoint }, [.registered key])

/-- The way of a request to its endpoint. -/
def dispatch (d : Dispatcher σ) (request : Request) (state : σ) : Dispatched σ :=
  let id := d.requests + 1
  let dispatcher := { d with requests := id }
  let refuse (state : σ) (events : List DispatchEvent) : Dispatched σ :=
    { response := .badRequest request.keepAlive, dispatcher, state, events }
  let arrival := DispatchEvent.dispatching id request
  if request.target = "" then refuse state [arrival, .emptyTarget id]
  else
    let resolved := request.resolve
    let key := routeKey resolved.method resolved.resourcePath
    match d.routes[key]? with
    | none => refuse state [arrival, .unmatched key]
    | some endpoint =>
        let handled := endpoint resolved state
        { response := handled.response, dispatcher, state := handled.state
          events := [arrival, .matched key] ++ handled.events }

end Dispatcher

end Vitals.Http
