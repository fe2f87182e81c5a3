/-
A dispatcher over a whole run: routes are added and requests come in, in any order.

# Why it holds

The routes are the map of a list (`routes_after`). Every call that adds a route writes one
entry under its key and nothing else touches the map, so what stands under a key is what
the last call with that key wrote, and the routes are as many as the keys that differ. The
count of the requests moves in one place, before anything is looked at, so it moves for
every request alike. It is held in a word, which is the count as far as a word goes
(`requests_after`).

What becomes of a request is then a matter of its key. The key is built from the path of
the target, behind the check that there is a target at all, so a target that is nothing but
a query or a fragment has the empty path, and its request may reach the route of a slash.

An endpoint works on a state that it is given and gives back. To say of a request what it
does to the state is to say which endpoints were called, and how often: an endpoint could
note each of its calls there.
-/
import Mathlib.Data.List.Dedup
import Mathlib.Data.List.Induction
import Vitals.Http.Dispatcher
import Vitals.Proofs.Http.Target
import Vitals.Proofs.Store.Contents

namespace Vitals.Http

open Std (ExtTreeMap)

variable {σ : Type}

-- ============================================================== runs

/-- A call on a dispatcher. -/
inductive Call (σ : Type) where
  | addRoute (method resource : String) (endpoint : Endpoint σ)
  | dispatch (request : Request)

/-- Whether a call dispatches a request. -/
def Call.isDispatch : Call σ → Bool
  | addRoute .. => false
  | dispatch _ => true

/-- A dispatcher and the state of its endpoints after one more call. -/
def Call.apply : Dispatcher σ × σ → Call σ → Dispatcher σ × σ
  | (d, state), addRoute method resource endpoint => ((d.addRoute method resource endpoint).1, state)
  | (d, state), dispatch request =>
      ((d.dispatch request state).dispatcher, (d.dispatch request state).state)

/-- A new dispatcher and the state of its endpoints after some calls. -/
def after (calls : List (Call σ)) (start : σ) : Dispatcher σ × σ :=
  calls.foldl Call.apply (.empty, start)

/-- The routes that calls have added, in order. -/
def registered (calls : List (Call σ)) : List (String × Endpoint σ) :=
  calls.filterMap fun
    | .addRoute method resource endpoint => some (routeKey method resource, endpoint)
    | .dispatch _ => none

/-- The endpoint that was added last under a key. -/
def lastRegistered (calls : List (Call σ)) (key : String) : Option (Endpoint σ) :=
  ((registered calls).findRev? (·.1 = key)).map (·.2)

/-- One more call is made on what the calls before it left. -/
theorem after_concat (calls : List (Call σ)) (call : Call σ) (start : σ) :
    after (calls ++ [call]) start = Call.apply (after calls start) call := by
  simp [after]

/-- The routes of one more call stand behind those of the calls before it. -/
theorem registered_concat (calls : List (Call σ)) (call : Call σ) :
    registered (calls ++ [call]) = registered calls ++ registered [call] := by
  simp [registered]

/-- A request is counted, whatever becomes of it, and changes nothing else of a dispatcher. -/
theorem dispatcher_dispatch (d : Dispatcher σ) (request : Request) (state : σ) :
    (d.dispatch request state).dispatcher = { d with requests := d.requests + 1 } := by
  unfold Dispatcher.dispatch
  dsimp only
  split
  · rfl
  · split <;> rfl

/-- The map of a list with one entry more has that entry in the place of one with its key. -/
theorem ofList_concat {α β : Type} {cmp : α → α → Ordering} [Std.TransCmp cmp]
    (entries : List (α × β)) (k : α) (v : β) :
    ExtTreeMap.ofList (entries ++ [(k, v)]) cmp = (ExtTreeMap.ofList entries cmp).insert k v := by
  rw [ExtTreeMap.ofList_eq_foldl, ExtTreeMap.ofList_eq_foldl]
  simp

/-- The routes are those that were added, a later one in the place of an earlier one. -/
theorem routes_after (calls : List (Call σ)) (start : σ) :
    (after calls start).1.routes = ExtTreeMap.ofList (registered calls) := by
  induction calls using List.reverseRecOn with
  | nil => rfl
  | append_singleton calls call ih =>
      rw [after_concat, registered_concat]
      cases call with
      | dispatch request =>
          have hnone : registered [Call.dispatch request] = ([] : List (String × Endpoint σ)) := rfl
          rw [hnone, List.append_nil, ← ih]
          show ((after calls start).1.dispatch request _).dispatcher.routes = _
          rw [dispatcher_dispatch]
      | addRoute method resource endpoint =>
          have hone : registered [Call.addRoute method resource endpoint]
              = [(routeKey method resource, endpoint)] := rfl
          rw [hone, ofList_concat, ← ih]
          rfl

/-- The word that counts the requests holds their number, or what is left of it in a word. -/
theorem requests_after (calls : List (Call σ)) (start : σ) :
    (after calls start).1.requests = .ofNat (calls.countP Call.isDispatch) := by
  induction calls using List.reverseRecOn with
  | nil => rfl
  | append_singleton calls call ih =>
      rw [after_concat, List.countP_append, UInt64.ofNat_add, ← ih]
      cases call with
      | addRoute method resource endpoint => exact (UInt64.add_zero _).symm
      | dispatch request =>
          show ((after calls start).1.dispatch request _).dispatcher.requests = _
          rw [dispatcher_dispatch]
          rfl

/-- Under a key stands the endpoint that was added with it last. -/
theorem getElem?_routes_after (calls : List (Call σ)) (start : σ) (key : String) :
    (after calls start).1.routes[key]? = lastRegistered calls key := by
  rw [routes_after, getElem?_ofList, lastRegistered]

/-- There are as many routes as keys that were added, however often each was. -/
theorem routeCount_after (calls : List (Call σ)) (start : σ) :
    (after calls start).1.routeCount = ((registered calls).map (·.1)).dedup.length := by
  rw [Dispatcher.routeCount, routes_after, ← ExtTreeMap.length_keys]
  refine List.Perm.length_eq ?_
  rw [List.perm_ext_iff_of_nodup ExtTreeMap.nodup_keys (List.nodup_dedup _)]
  intro k
  rw [ExtTreeMap.mem_keys, ExtTreeMap.mem_ofList, List.mem_dedup]
  simp

-- ========================================================== requests

/-- Events of a request that came in under a number: each of them that names a request
names it by this number, and the first of them does. -/
def Identified (id : UInt64) (events : List DispatchEvent) : Prop :=
  (∃ event ∈ events.head?, ("request_id", Log.count id.toNat) ∈ event.record.fields)
    ∧ ∀ event ∈ events, ∀ value, ("request_id", value) ∈ event.record.fields →
        value = Log.count id.toNat

/-- Of a request a dispatcher tells two things itself, under the next number: that it came
in, and what became of it. -/
theorem take_events_dispatch (d : Dispatcher σ) (request : Request) (state : σ) :
    ∃ event, (d.dispatch request state).events.take 2
        = [.dispatching (d.requests + 1) request, event]
      ∧ (event = .emptyTarget (d.requests + 1) ∨ (∃ key, event = .matched key)
        ∨ ∃ key, event = .unmatched key) := by
  unfold Dispatcher.dispatch
  dsimp only
  split
  · exact ⟨_, rfl, .inl rfl⟩
  · split
    · exact ⟨_, rfl, .inr (.inr ⟨_, rfl⟩)⟩
    · exact ⟨_, rfl, .inr (.inl ⟨_, rfl⟩)⟩

theorem identified_dispatch (d : Dispatcher σ) (request : Request) (state : σ) :
    Identified (d.requests + 1) ((d.dispatch request state).events.take 2) := by
  obtain ⟨event, hevents, hevent⟩ := take_events_dispatch d request state
  rw [hevents]
  generalize d.requests + 1 = id at hevent ⊢
  obtain rfl | ⟨key, rfl⟩ | ⟨key, rfl⟩ := hevent
  all_goals simp [Identified, DispatchEvent.record]

/-- Without a target a request is refused, and nothing is told of it but that. -/
theorem dispatch_of_no_target (d : Dispatcher σ) {request : Request} (h : request.target = "")
    (state : σ) :
    (d.dispatch request state).response = .badRequest request.keepAlive
      ∧ (d.dispatch request state).state = state
      ∧ (d.dispatch request state).events.drop 2 = [] := by
  unfold Dispatcher.dispatch
  dsimp only
  rw [if_pos h]
  exact ⟨rfl, rfl, rfl⟩

/-- What a dispatcher makes of a request with a route is what its endpoint makes of it. -/
theorem dispatch_of_route (d : Dispatcher σ) {request : Request} (h : request.target ≠ "")
    {endpoint : Endpoint σ}
    (hroute : d.routes[routeKey request.method request.resolve.resourcePath]? = some endpoint)
    (state : σ) :
    (⟨(d.dispatch request state).response, (d.dispatch request state).state,
        (d.dispatch request state).events.drop 2⟩ : Handled σ)
      = endpoint request.resolve state := by
  have hkey : d.routes[routeKey request.resolve.method request.resolve.resourcePath]?
      = some endpoint := hroute
  unfold Dispatcher.dispatch
  dsimp only
  rw [if_neg h, hkey]
  rfl

/-- A request without a route is refused as one without a target is. -/
theorem dispatch_of_no_route (d : Dispatcher σ) {request : Request} (h : request.target ≠ "")
    (hroute : d.routes[routeKey request.method request.resolve.resourcePath]? = none) (state : σ) :
    (d.dispatch request state).response = .badRequest request.keepAlive
      ∧ (d.dispatch request state).state = state
      ∧ (d.dispatch request state).events.drop 2 = [] := by
  have hkey : d.routes[routeKey request.resolve.method request.resolve.resourcePath]?
      = none := hroute
  unfold Dispatcher.dispatch
  dsimp only
  rw [if_neg h, hkey]
  exact ⟨rfl, rfl, rfl⟩

/-- What a dispatcher does after any calls on it.

The word that counts its requests holds their number, modulo the size of a word, and it has
a route for each key. The next request has the next number, in the count and in the two
events that the dispatcher tells of it, whatever becomes of it. Without a target it is
refused, and no endpoint is called. With one, its path and method make a key. If a route
was added with that key, the endpoint that was added last is called, once, on the request
with the parts of its target, and what it makes of it is the outcome: the answer, the
state, and what is told behind the two events. If none was, the request is refused, and no
endpoint is called. -/
theorem last_registered_answers (calls : List (Call σ)) (start : σ) :
    (after calls start).1.requests = .ofNat (calls.countP Call.isDispatch)
    ∧ (after calls start).1.routeCount = ((registered calls).map (·.1)).dedup.length
    ∧ ∀ request : Request, request.Fresh → ∃ t : Target, t.text = request.target.toList ∧
        let (d, state) := after calls start
        let done := d.dispatch request state
        let id := UInt64.ofNat (calls.countP Call.isDispatch + 1)
        let key := routeKey request.method (.ofList t.path)
        done.dispatcher = { d with requests := id }
        ∧ Identified id (done.events.take 2)
        ∧ (request.target = "" →
            done.response = .badRequest request.keepAlive ∧ done.state = state
              ∧ done.events.drop 2 = [])
        ∧ (request.target ≠ "" → ∀ endpoint, lastRegistered calls key = some endpoint →
            ⟨done.response, done.state, done.events.drop 2⟩ = endpoint (request.seen t) state)
        ∧ (request.target ≠ "" → lastRegistered calls key = none →
            done.response = .badRequest request.keepAlive ∧ done.state = state
              ∧ done.events.drop 2 = []) := by
  refine ⟨requests_after calls start, routeCount_after calls start, fun request hfresh => ?_⟩
  obtain ⟨t, ht⟩ := exists_target request.target.toList
  have hseen : request.resolve = request.seen t := hfresh.resolve_eq_seen ht
  have hpath : request.resolve.resourcePath = .ofList t.path := by rw [hseen, Request.seen]
  have hnext : UInt64.ofNat (calls.countP Call.isDispatch + 1)
      = (after calls start).1.requests + 1 := by
    rw [requests_after, UInt64.ofNat_add]
    rfl
  refine ⟨t, ht, ?_⟩
  dsimp only
  rw [hnext, ← hpath]
  refine ⟨dispatcher_dispatch _ _ _, identified_dispatch _ _ _,
    fun h => dispatch_of_no_target _ h _, fun h endpoint hlast => ?_, fun h hnone => ?_⟩
  · rw [← hseen]
    exact dispatch_of_route _ h (by rw [getElem?_routes_after, hlast]) _
  · exact dispatch_of_no_route _ h (by rw [getElem?_routes_after, hnone]) _

end Vitals.Http
