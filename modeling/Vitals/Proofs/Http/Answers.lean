/-
Which requests the endpoints of the categories answer, and how.

# Why it holds

There are four keys, one for each category, and none of them has a colon behind the method
(`routeKey_eq_iff`). So a request has the key of a category precisely if its method is `GET`
and its path has the normal form of the resource of the category. That form is small letters
and a slash at the end. No resource has a slash at its end, nor a `k`, so the path is the
resource in some case, or that with one slash behind it (`normalised_eq_iff`): what is
beyond ASCII is not taken for one of its letters.

Whatever a store holds has a body, and writing it does not fail (`endpoint_eq`). So the
endpoints never come to say that they failed, and they leave the store as it was.
-/
import Mathlib.Data.List.Basic
import Vitals.Http.Api
import Vitals.Proofs.Http.Dispatch
import Vitals.Proofs.Store.Order
import Vitals.Proofs.Text.Lowercase

namespace Vitals.Http

open Text

-- ============================================================== paths

/-- A path that is the resource of a category up to the case of the letters of ASCII and
a slash at the end. -/
def Category.Named (category : Category) (path : List Char) : Prop :=
  path.map Char.toLower = category.resource.toList
    ∨ path.map Char.toLower = category.resource.toList ++ ['/']

instance (category : Category) (path : List Char) : Decidable (category.Named path) := by
  unfold Category.Named
  infer_instance

/-- The normal form of a text that has no slash at its end is that of no other text than
the one with the slash. -/
theorem normalised_eq_append_slash_iff {path resource : List Char}
    (hresource : resource.getLast? ≠ some '/') :
    normalised path = resource ++ ['/']
      ↔ lowercase path = resource ∨ lowercase path = resource ++ ['/'] := by
  unfold normalised
  dsimp only
  split
  · next hslash =>
      refine ⟨.inr, fun h => h.resolve_left ?_⟩
      rintro rfl
      exact hresource hslash
  · next hslash =>
      rw [List.append_cancel_right_eq]
      refine ⟨.inl, fun h => h.resolve_right fun h => hslash ?_⟩
      rw [h, List.getLast?_concat]

/-- A closed resource is ASCII and holds no `k`, so that only its own ASCII case variants
give it. -/
theorem resource_plain (category : Category) :
    ∀ c ∈ category.resource.toList ++ ['/'], c.toNat < 0x80 ∧ c ≠ 'k' := by
  cases category <;> simp [Category.resource]

/-- A path is normalised to a resource exactly when it names the category. -/
theorem normalised_eq_iff (category : Category) (path : List Char) :
    normalised path = category.resource.toList ++ ['/'] ↔ category.Named path := by
  have hplain := resource_plain category
  have hlast : category.resource.toList.getLast? ≠ some '/' := by cases category <;> decide
  rw [normalised_eq_append_slash_iff hlast, lowercase_eq_iff hplain,
    lowercase_eq_iff fun c hc => hplain c (List.mem_append_left _ hc), Category.Named]

/-- The key of the route of a category. -/
def Category.key (category : Category) : String := routeKey "GET" category.resource

theorem toList_routeKey (method resource : String) :
    (routeKey method resource).toList = method.toList ++ ':' :: normalised resource.toList := by
  simp [routeKey]

/-- A request has the key of a category if it is to get it, and only then. -/
theorem routeKey_eq_iff (category : Category) (method path : String) :
    routeKey method path = category.key ↔ method = "GET" ∧ category.Named path.toList := by
  have hkey : category.key.toList = "GET".toList ++ ':' :: (category.resource.toList ++ ['/']) := by
    cases category <;> decide +kernel
  have hmethod : ':' ∉ "GET".toList := by decide
  have hresource : ':' ∉ category.resource.toList ++ ['/'] := by cases category <;> decide
  rw [← String.toList_inj, toList_routeKey, hkey, ← normalised_eq_iff, ← String.toList_inj,
    eq_comm, List.append_cons_inj_of_notMem hmethod hresource]
  simp only [eq_comm, true_and]

-- ============================================================= routes

/-- The calls that make the dispatcher of the categories. -/
def apiCalls : List (Call Store) :=
  Category.all.map fun category => .addRoute "GET" category.resource (category.endpoint id)

/-- The interface registers one endpoint under the key of each category. -/
theorem registered_apiCalls :
    registered apiCalls = Category.all.map fun category => (category.key, category.endpoint id) := by
  rfl

/-- The routes are those of the categories. -/
theorem routes_api_eq_some_iff (key : String) (endpoint : Endpoint Store) :
    api.routes[key]? = some endpoint
      ↔ ∃ category : Category, category.key = key ∧ category.endpoint id = endpoint := by
  have hnodup : ((registered apiCalls).map (·.1)).Nodup := by
    rw [registered_apiCalls, List.map_map]
    decide +kernel
  have hmem : ∀ entry, entry ∈ registered apiCalls
      ↔ ∃ category : Category, (category.key, category.endpoint id) = entry := by
    intro entry
    rw [registered_apiCalls, List.mem_map]
    refine exists_congr fun category => and_iff_right ?_
    cases category <;> decide
  have hafter : api = (after apiCalls Store.empty).1 := rfl
  rw [hafter, getElem?_routes_after, lastRegistered, Option.map_eq_some_iff]
  simp only [findRev?_eq_some_iff_of_nodup hnodup, hmem]
  constructor
  · rintro ⟨-, ⟨⟨category, rfl⟩, rfl⟩, rfl⟩
    exact ⟨category, rfl, rfl⟩
  · rintro ⟨category, rfl, rfl⟩
    exact ⟨_, ⟨⟨category, rfl⟩, rfl⟩, rfl⟩

-- ============================================================ answers

variable {d : Dispatcher Store} {request : Request} {s : Store}

/-- Whether a request is to get a category. -/
def Request.Gets (request : Request) (category : Category) : Prop :=
  request.method = "GET" ∧ category.Named (pathOf request.target.toList)

/-- An endpoint has its body written, so it succeeds, leaves the state as it was, and has
nothing to tell. -/
theorem endpoint_eq {σ : Type} (store : σ → Store) (category : Category) (request : Request)
    (state : σ) :
    category.endpoint store request state
      = { response := .ok request.keepAlive (category.body (store state)), state } := by
  rw [Category.endpoint, Category.write, answerWritten]

/-- The path of a resolved request is what stands before query and fragment. -/
theorem resourcePath_resolve (request : Request) :
    request.resolve.resourcePath = .ofList (pathOf request.target.toList) := by
  obtain ⟨t, ht⟩ := exists_target request.target.toList
  rw [resolve_eq request ht, ← ht, pathOf_text]

theorem target_ne_of_gets {category : Category} (h : request.Gets category) :
    request.target ≠ "" := by
  intro htarget
  have hnamed := h.2
  rw [htarget] at hnamed
  revert hnamed
  cases category <;> decide

/-- A request that gets a category finds its endpoint. -/
theorem routes_of_gets (hroutes : d.routes = api.routes) {category : Category}
    (h : request.Gets category) :
    d.routes[routeKey request.method request.resolve.resourcePath]?
      = some (category.endpoint id) := by
  rw [hroutes, routes_api_eq_some_iff, resourcePath_resolve]
  refine ⟨category, ((routeKey_eq_iff category _ _).mpr ?_).symm, rfl⟩
  rwa [String.toList_ofList]

/-- A request that gets a category is answered with its body. -/
theorem dispatch_of_gets (hroutes : d.routes = api.routes) {category : Category}
    (h : request.Gets category) (s : Store) :
    (d.dispatch request s).response = .ok request.keepAlive (category.body s)
      ∧ (d.dispatch request s).state = s
      ∧ (d.dispatch request s).events.drop 2 = [] := by
  have hdone := dispatch_of_route d (target_ne_of_gets h) (routes_of_gets hroutes h) s
  rw [endpoint_eq] at hdone
  exact Handled.mk.inj hdone

/-- A request that gets no category is refused. -/
theorem dispatch_of_not_gets (hroutes : d.routes = api.routes)
    (h : ∀ category, ¬ request.Gets category) (s : Store) :
    (d.dispatch request s).response = .badRequest request.keepAlive
      ∧ (d.dispatch request s).state = s
      ∧ (d.dispatch request s).events.drop 2 = [] := by
  by_cases htarget : request.target = ""
  · exact dispatch_of_no_target d htarget s
  · refine dispatch_of_no_route d htarget ?_ s
    by_contra hsome
    obtain ⟨endpoint, hendpoint⟩ := Option.ne_none_iff_exists'.mp hsome
    rw [hroutes, routes_api_eq_some_iff, resourcePath_resolve] at hendpoint
    obtain ⟨category, hkey, -⟩ := hendpoint
    refine h category ?_
    have hgets := (routeKey_eq_iff category _ _).mp hkey.symm
    rwa [String.toList_ofList] at hgets

/-- A dispatcher of the categories answers a request that gets one of them, with its body,
and refuses every other request. -/
theorem dispatch_eq (hroutes : d.routes = api.routes) (request : Request) (s : Store) :
    (∃ category, request.Gets category
        ∧ (d.dispatch request s).response = .ok request.keepAlive (category.body s))
      ∨ ((∀ category, ¬ request.Gets category)
        ∧ (d.dispatch request s).response = .badRequest request.keepAlive) := by
  by_cases hgets : ∃ category, request.Gets category
  · obtain ⟨category, h⟩ := hgets
    exact .inl ⟨category, h, (dispatch_of_gets hroutes h s).1⟩
  · rw [not_exists] at hgets
    exact .inr ⟨hgets, (dispatch_of_not_gets hroutes hgets s).1⟩

/-- A request leaves the store. -/
theorem state_dispatch (hroutes : d.routes = api.routes) (request : Request) (s : Store) :
    (d.dispatch request s).state = s := by
  by_cases hgets : ∃ category, request.Gets category
  · obtain ⟨category, h⟩ := hgets
    exact (dispatch_of_gets hroutes h s).2.1
  · exact (dispatch_of_not_gets hroutes (not_exists.mp hgets) s).2.1

/-- Of a request to a dispatcher of the categories no more is told than what the dispatcher
tells itself, so never that a body could not be written. -/
theorem unwritten_notMem_dispatch (hroutes : d.routes = api.routes) (request : Request)
    (s : Store) (target cause : String) :
    .unwritten target cause ∉ (d.dispatch request s).events := by
  have hrest : (d.dispatch request s).events.drop 2 = [] := by
    by_cases hgets : ∃ category, request.Gets category
    · obtain ⟨category, h⟩ := hgets
      exact (dispatch_of_gets hroutes h s).2.2
    · exact (dispatch_of_not_gets hroutes (not_exists.mp hgets) s).2.2
  obtain ⟨event, hown, hevent⟩ := take_events_dispatch d request s
  rw [← List.take_append_drop 2 (d.dispatch request s).events, hrest, List.append_nil, hown]
  obtain rfl | ⟨key, rfl⟩ | ⟨key, rfl⟩ := hevent
  all_goals simp

/-- Two requests that differ in what comes behind the path of their targets, or in their
versions and connections, are answered with one status and one body. -/
theorem dispatch_congr (hroutes : d.routes = api.routes) {other : Request}
    (hmethod : other.method = request.method)
    (hpath : pathOf other.target.toList = pathOf request.target.toList) (s : Store) :
    (d.dispatch other s).response.status = (d.dispatch request s).response.status
      ∧ (d.dispatch other s).response.body = (d.dispatch request s).response.body := by
  have hiff : ∀ category, other.Gets category ↔ request.Gets category := by
    intro category
    rw [Request.Gets, Request.Gets, hmethod, hpath]
  by_cases hgets : ∃ category, request.Gets category
  · obtain ⟨category, h⟩ := hgets
    rw [(dispatch_of_gets hroutes h s).1, (dispatch_of_gets hroutes ((hiff category).mpr h) s).1]
    exact ⟨rfl, rfl⟩
  · rw [not_exists] at hgets
    have hother : ∀ category, ¬ other.Gets category := fun category =>
      mt (hiff category).mp (hgets category)
    rw [(dispatch_of_not_gets hroutes hgets s).1, (dispatch_of_not_gets hroutes hother s).1]
    exact ⟨rfl, rfl⟩

/-- What the dispatcher of the categories answers, whatever it has answered before.

A request that gets a path is answered with success if the path, up to the case of the
letters of ASCII and one slash at its end, is the resource of a category. Every other
request is a bad one. There is no third answer, no matter what the store holds. The answer
keeps the connection if the request does, a query or a fragment makes no difference to it,
and the store stays as it is. -/
theorem api_answers_reads_of_categories (earlier : UInt64) (request : Request) (s : Store) :
    let d : Dispatcher Store := { api with requests := earlier }
    let done := d.dispatch request s
    (done.response.status = 200 ↔ request.method = "GET"
        ∧ ∃ category : Category, category.Named (pathOf request.target.toList))
    ∧ (done.response.status ≠ 200 →
        done.response.status = 400 ∧ done.response.body = "Bad request")
    ∧ done.response.status ≠ 404 ∧ done.response.status ≠ 500
    ∧ done.response.keepAlive = request.keepAlive
    ∧ (∀ other : Request, other.method = request.method →
        pathOf other.target.toList = pathOf request.target.toList →
        (d.dispatch other s).response.status = done.response.status
          ∧ (d.dispatch other s).response.body = done.response.body)
    ∧ done.state = s := by
  intro d done
  have hroutes : d.routes = api.routes := rfl
  have hcongr : ∀ other : Request, other.method = request.method →
      pathOf other.target.toList = pathOf request.target.toList →
      (d.dispatch other s).response.status = done.response.status
        ∧ (d.dispatch other s).response.body = done.response.body :=
    fun other hmethod hpath => dispatch_congr hroutes hmethod hpath s
  have hstate : done.state = s := state_dispatch hroutes request s
  -- there are two answers, and each settles all that is asked of it
  rcases dispatch_eq hroutes request s with ⟨category, hgets, hok⟩ | ⟨hnot, hbad⟩
  · have hok : done.response = .ok request.keepAlive (category.body s) := hok
    rw [hok] at hcongr ⊢
    exact ⟨iff_of_true rfl ⟨hgets.1, category, hgets.2⟩, fun h => absurd rfl h,
      by simp [Response.ok], by simp [Response.ok], rfl, hcongr, hstate⟩
  · have hbad : done.response = .badRequest request.keepAlive := hbad
    rw [hbad] at hcongr ⊢
    refine ⟨iff_of_false (by simp [Response.badRequest]) ?_, fun _ => ⟨rfl, rfl⟩,
      by simp [Response.badRequest], by simp [Response.badRequest], rfl, hcongr, hstate⟩
    rintro ⟨hmethod, category, hnamed⟩
    exact hnot category ⟨hmethod, hnamed⟩

example : Category.processes.Named (pathOf "/V0/Procs/?a=1#top".toList)
    ∧ ¬ Category.memory.Named (pathOf "/v0/mem//".toList) := by decide

end Vitals.Http
