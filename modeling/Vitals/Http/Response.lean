/-
Responses: a status, a body with its content type, and whether the connection
stays open.
-/
namespace Vitals.Http

/-- What is said of the content of a body. -/
inductive ContentType where
  | json
  | html
deriving DecidableEq, Repr

/-- The name of a content type. -/
def ContentType.name : ContentType → String
  | json => "application/json"
  | html => "text/html"

/-- A response. -/
structure Response where
  /-- The status code. -/
  status : Nat
  /-- Whether the connection stays open. -/
  keepAlive : Bool
  /-- What the body holds. -/
  contentType : ContentType
  /-- The body. -/
  body : String
deriving DecidableEq, Repr

namespace Response

/-- The answer to a request that succeeded. -/
def ok (keepAlive : Bool) (body : String) : Response := ⟨200, keepAlive, .json, body⟩

/-- The answer to a request that makes no sense here. -/
def badRequest (keepAlive : Bool) : Response := ⟨400, keepAlive, .html, "Bad request"⟩

/-- The answer to a request for what does not exist. -/
def notFound (keepAlive : Bool) (target : String) : Response :=
  ⟨404, keepAlive, .html, "The resource '" ++ target ++ "' was not found."⟩

/-- The answer to a request that failed on this side. -/
def serverError (keepAlive : Bool) : Response := ⟨500, keepAlive, .html, "Server error"⟩

end Response

/-- A response as it is sent: headers by name, in lower case. -/
structure Message where
  /-- The status code. -/
  status : Nat
  /-- The headers. -/
  headers : List (String × String)
  /-- The body. -/
  body : String
deriving DecidableEq, Repr

/-- The message of a response. A connection that closes says so. -/
def Response.message (r : Response) : Message where
  status := r.status
  headers :=
    (if r.keepAlive then [] else [("connection", "close")])
      ++ [("content-type", r.contentType.name)]
  body := r.body

end Vitals.Http
