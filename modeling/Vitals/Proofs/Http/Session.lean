/-
Which requests of a connection are answered, and which answer closes it.

# Why it holds

Whether the connection stays open is read off the headers once, and carried along: into
the request, through the dispatcher, whose answers keep what the request asks for
(`keepAlive_dispatch`), and out into the message, which says `close` if it is not kept.
Nothing else in a message is about the connection. So a connection that is closed behind a
message that says so is closed behind the first request that does not keep it, and what is
served of it is what the session answers (`served_eq`, `session_eq`).

There is one answer that the dispatcher has no part in. Where there is no time for a request
at all, the answer says so and nothing else, and it does not say whether the connection
closes.
-/
import Vitals.Http.Session
import Vitals.Proofs.Http.Answers
import Vitals.Proofs.Http.KeepAlive

namespace Vitals.Http

variable {limit : Duration} {d : Dispatcher Store} {s : Store}

-- =========================================================== messages

/-- Whether a request keeps its connection open. -/
def Incoming.keeps (r : Incoming) : Bool := keepsAlive r.version r.headers

/-- The message of a response says that the connection closes if the response does not keep
it, whatever is added to complete it. -/
theorem closes_message_iff (r : Response) (method : String) :
    (r.message.completed method).Closes ↔ r.keepAlive = false := by
  unfold Message.Closes Message.completed Response.message
  cases r.keepAlive <;> simp

/-- An answer of the categories keeps the connection as its request does. -/
theorem keepAlive_dispatch (hroutes : d.routes = api.routes) (request : Request) (s : Store) :
    (d.dispatch request s).response.keepAlive = request.keepAlive := by
  rcases dispatch_eq hroutes request s with ⟨category, -, hok⟩ | ⟨-, hbad⟩
  · rw [hok]
    rfl
  · rw [hbad]
    rfl

/-- With time for a request, its answer is what the dispatcher made of it. -/
theorem answer_of_time (hlimit : limit.nanoseconds ≠ 0) (d : Dispatcher Store) (s : Store)
    (r : Incoming) :
    (answer limit d s r).message = (d.dispatch r.request s).response.message.completed r.method
      ∧ (answer limit d s r).dispatcher = (d.dispatch r.request s).dispatcher
      ∧ (answer limit d s r).state = (d.dispatch r.request s).state := by
  unfold answer
  rw [if_neg hlimit]
  exact ⟨rfl, rfl, rfl⟩

/-- With time for a request, its answer says that the connection closes if it does. -/
theorem closes_answer_iff (hlimit : limit.nanoseconds ≠ 0) (hroutes : d.routes = api.routes)
    (s : Store) (r : Incoming) : (answer limit d s r).message.Closes ↔ r.keeps = false := by
  rw [(answer_of_time hlimit d s r).1, closes_message_iff, keepAlive_dispatch hroutes]
  rfl

/-- Without time, the answer says nothing of the connection. -/
theorem answer_of_no_time (hlimit : limit.nanoseconds = 0) (d : Dispatcher Store) (s : Store)
    (r : Incoming) : (answer limit d s r).message.status = 408
      ∧ ∀ value, ("connection", value) ∉ (answer limit d s r).message.headers := by
  unfold answer
  rw [if_pos hlimit]
  exact ⟨rfl, by simp [timedOut, Message.completed]⟩

/-- What a dispatcher has answered before makes no difference to its next message. -/
theorem message_answer_congr (hlimit : limit.nanoseconds ≠ 0) (hroutes : d.routes = api.routes)
    (s : Store) (r : Incoming) :
    (answer limit d s r).message = (answer limit api s r).message := by
  rw [(answer_of_time hlimit d s r).1, (answer_of_time hlimit api s r).1]
  by_cases hgets : ∃ category, r.request.Gets category
  · obtain ⟨category, h⟩ := hgets
    rw [(dispatch_of_gets hroutes h s).1, (dispatch_of_gets rfl h s).1]
  · rw [not_exists] at hgets
    rw [(dispatch_of_not_gets hroutes hgets s).1, (dispatch_of_not_gets rfl hgets s).1]

-- =========================================================== sessions

/-- The messages of a connection on which requests are answered in order, one at a time,
and which is closed behind a message that says so. -/
def served (limit : Duration) : Dispatcher Store → Store → List Incoming → List Message
  | _, _, [] => []
  | d, s, r :: rs =>
      let answered := answer limit d s r
      if answered.message.Closes then [answered.message]
      else answered.message :: served limit answered.dispatcher answered.state rs

/-- Requests up to the first that does not keep its connection open, and that one. -/
def upToClosing (rs : List Incoming) : List Incoming :=
  rs.takeWhile Incoming.keeps ++ (rs.dropWhile Incoming.keeps).take 1

/-- The first request is answered in any case, and the others if it keeps the connection. -/
theorem upToClosing_cons (r : Incoming) (rs : List Incoming) :
    upToClosing (r :: rs) = r :: if r.keeps then upToClosing rs else [] := by
  unfold upToClosing
  cases hkeeps : r.keeps <;> simp [hkeeps]

/-- An answer leaves the routes as they were. -/
theorem routes_answer (hlimit : limit.nanoseconds ≠ 0) (hroutes : d.routes = api.routes)
    (s : Store) (r : Incoming) : (answer limit d s r).dispatcher.routes = api.routes := by
  rw [(answer_of_time hlimit d s r).2.1, dispatcher_dispatch, hroutes]

/-- An answer leaves the store as it was. -/
theorem state_answer (hlimit : limit.nanoseconds ≠ 0) (hroutes : d.routes = api.routes)
    (s : Store) (r : Incoming) : (answer limit d s r).state = s := by
  rw [(answer_of_time hlimit d s r).2.2, state_dispatch hroutes]

/-- What is served are the messages for the requests up to the first that does not keep the
connection. -/
theorem served_eq (hlimit : limit.nanoseconds ≠ 0) (hroutes : d.routes = api.routes) (s : Store)
    (rs : List Incoming) :
    served limit d s rs = (upToClosing rs).map fun r => (answer limit api s r).message := by
  induction rs generalizing d with
  | nil => rfl
  | cons r rs ih =>
      have hcloses := closes_answer_iff hlimit hroutes s r
      rw [served, upToClosing_cons]
      rw [message_answer_congr hlimit hroutes] at hcloses ⊢
      cases hkeeps : r.keeps with
      | false =>
          rw [if_pos (hcloses.mpr hkeeps)]
          rfl
      | true =>
          have hopen : ¬ (answer limit api s r).message.Closes := by
            rw [hcloses, hkeeps]
            decide
          rw [if_neg hopen, state_answer hlimit hroutes, ih (routes_answer hlimit hroutes s r)]
          rfl

/-- A session closes where what is served closes, so it replies with what is served. -/
theorem session_eq (hlimit : limit.nanoseconds ≠ 0) (hroutes : d.routes = api.routes) (s : Store)
    (rs : List Incoming) :
    session limit d s rs
      = (upToClosing rs).map fun r => (answer limit api s r).message.reply r := by
  induction rs generalizing d with
  | nil => rfl
  | cons r rs ih =>
      have hcloses := closes_answer_iff hlimit hroutes s r
      rw [session, upToClosing_cons]
      rw [message_answer_congr hlimit hroutes] at hcloses ⊢
      -- a reply closes if its message does
      have hreply : ((answer limit api s r).message.reply r).closes = true ↔ r.keeps = false := by
        rw [← hcloses]
        exact decide_eq_true_iff
      cases hkeeps : r.keeps with
      | false =>
          rw [if_pos (hreply.mpr hkeeps)]
          rfl
      | true =>
          rw [if_neg (by rw [hreply, hkeeps]; decide), state_answer hlimit hroutes,
            ih (routes_answer hlimit hroutes s r)]
          rfl

/-- When a connection closes, from the headers of a request to the end of a session.

A request keeps its connection unless a token of its headers is `close`, and in the two
earliest versions only if one is `keep-alive`. So the set of the tokens decides, and neither
their order, nor their number, nor their lines. With time for requests, the messages of the
categories say `close` for the requests that do not keep the connection, and for no others.
So a connection that is closed behind the first such message has answered the requests up to
the first that does not keep it, each of them once and in order, and that is what a session
replies. Without time a message has no word on the connection. -/
theorem closing_follows_tokens (limit : Duration) (earlier : UInt64) (s : Store) :
    let d : Dispatcher Store := { api with requests := earlier }
    (∀ version headers, keepsAlive version headers = true ↔
      ¬ HasToken headers "close".toList
        ∧ (version = .http09 ∨ version = .http10 → HasToken headers "keep-alive".toList))
    ∧ (∀ version headers headers',
        (∀ token, HasToken headers token ↔ HasToken headers' token) →
        keepsAlive version headers = keepsAlive version headers')
    ∧ (∀ version headers headers', headers.Perm headers' →
        keepsAlive version headers = keepsAlive version headers')
    ∧ (∀ version before name values values' later, (∀ value, value ∈ values ↔ value ∈ values') →
        keepsAlive version (before ++ [joined name values] ++ later)
          = keepsAlive version (before ++ [joined name values'] ++ later))
    ∧ (∀ version before name values later, values ≠ [] →
        (∀ value ∈ values, isReadable value = true) →
        keepsAlive version (before ++ [joined name values] ++ later)
          = keepsAlive version
              (before ++ (values.map fun value => (name, String.ofList value)) ++ later))
    ∧ (limit.nanoseconds ≠ 0 → ∀ r : Incoming, ("connection", "close")
        ∈ (answer limit d s r).message.headers ↔ keepsAlive r.version r.headers = false)
    ∧ (limit.nanoseconds = 0 → ∀ r : Incoming, (answer limit d s r).message.status = 408
        ∧ ∀ value, ("connection", value) ∉ (answer limit d s r).message.headers)
    ∧ (limit.nanoseconds ≠ 0 → ∀ rs : List Incoming,
        served limit d s rs = ((upToClosing rs).map fun r => (answer limit d s r).message)
        ∧ session limit d s rs
          = (upToClosing rs).map fun r => (answer limit d s r).message.reply r) := by
  intro d
  have hroutes : d.routes = api.routes := rfl
  refine ⟨fun _ _ => keepsAlive_iff, fun version _ _ h => keepsAlive_congr h version,
    fun version _ _ h => keepsAlive_congr (hasToken_perm h) version, ?_, ?_,
    fun hlimit r => closes_answer_iff hlimit hroutes s r,
    fun hlimit r => answer_of_no_time hlimit d s r, fun hlimit rs => ?_⟩
  · intro version before name values values' later h
    refine keepsAlive_congr (fun token => ?_) version
    rw [hasToken_append, hasToken_append, hasToken_append, hasToken_append,
      hasToken_joined_congr h]
  · intro version before name values later hne hreadable
    refine keepsAlive_congr (fun token => ?_) version
    rw [hasToken_append, hasToken_append, hasToken_append, hasToken_append,
      hasToken_lines hne hreadable]
  · simp only [message_answer_congr hlimit hroutes]
    exact ⟨served_eq hlimit hroutes s rs, session_eq hlimit hroutes s rs⟩

/-- A request of an early version that does not ask to keep its connection. -/
def hurried : Incoming := { method := "GET", uri := "/v0/mem", version := .http10, headers := [] }

/-- Without time for it, its answer does not say that the connection closes. -/
theorem hurried_is_not_told_to_close :
    ¬ (("connection", "close") ∈ (answer (.ofMillis 0) api .empty hurried).message.headers
      ↔ keepsAlive hurried.version hurried.headers = false) := by
  decide +kernel

end Vitals.Http
