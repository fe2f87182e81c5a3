/-
What a request says of its target, and of the targets that it had before.

A target is cut into its parts in one way only, and put together again they are the target
(`Target.eq_of_text_eq`). A request says of the last target it looked at its path and its
segments, for these are written each time. The other two parts are written only if the
target has them, so they are those of the last target that has, and a request that was used
before may say of a target what an earlier one had (`fragment_retargeted`,
`parameters_retargeted`).

To look at one target twice is to look at it once (`resolve_resolve`). A dispatcher looks at
the target of every request, and so it does not matter to it whether that was done before.
-/
import Mathlib.Data.List.Induction
import Vitals.Proofs.Http.Dispatch
import Vitals.Proofs.Text.Words

namespace Vitals.Http

open Text

-- ============================================================ targets

/-- A text is cut into the parts of a target in one way. -/
theorem Target.eq_of_text_eq {t t' : Target} (h : t'.text = t.text) : t' = t := by
  have hparts : (t'.path, t'.query, t'.fragment) = (t.path, t.query, t.fragment) := by
    rw [← targetParts_text, ← targetParts_text, h]
  obtain ⟨hpath, hrest⟩ := Prod.mk.inj hparts
  obtain ⟨hquery, hfragment⟩ := Prod.mk.inj hrest
  cases t
  cases t'
  subst hpath hquery hfragment
  rfl

/-- The segments of a path are its pieces between slashes, and joined they are the path. -/
theorem segments_of_path (path : List Char) :
    (∀ segment ∈ (path.splitOn '/').map String.ofList, '/' ∉ segment.toList)
      ∧ "/".intercalate ((path.splitOn '/').map String.ofList) = .ofList path := by
  constructor
  · intro segment hsegment
    obtain ⟨piece, hpiece, rfl⟩ := List.mem_map.mp hsegment
    rw [String.toList_ofList]
    exact notMem_of_mem_splitOn hpiece
  · have hid : String.toList ∘ String.ofList = id := funext fun s => String.toList_ofList
    rw [← String.toList_inj, String.toList_intercalate, List.map_map, hid, List.map_id]
    exact (List.intercalate_splitOn '/').trans String.toList_ofList.symm

-- =========================================================== requests

namespace Request

/-- Looking at the same target once more changes nothing. -/
theorem resolve_resolve (r : Request) : r.resolve.resolve = r.resolve := by
  obtain ⟨t, ht⟩ := exists_target r.target.toList
  have hsame : t.text = r.resolve.target.toList := ht
  rw [resolve_eq _ hsame, resolve_eq _ ht]
  cases t.query <;> cases t.fragment <;> rfl

/-- A request that is given these targets in turn, and looks at each. -/
def retargeted (r : Request) (targets : List Target) : Request :=
  targets.foldl (fun r t => r.retarget (.ofList t.text)) r

theorem retargeted_concat (r : Request) (targets : List Target) (t : Target) :
    r.retargeted (targets ++ [t]) = (r.retargeted targets).retarget (.ofList t.text) := by
  rw [retargeted, List.foldl_append]
  rfl

/-- What one more target does to a request. -/
theorem retarget_text (r : Request) (t : Target) :
    r.retarget (.ofList t.text) = { r with
      target := .ofList t.text
      resourcePath := .ofList t.path
      pathSegments := (t.path.splitOn '/').map String.ofList
      parameters := (t.query.map Parameters.parse).getD r.parameters
      fragment := (t.fragment.map String.ofList).or r.fragment } :=
  resolve_eq _ (String.toList_ofList).symm

theorem fragment_retargeted (r : Request) (targets : List Target) :
    (r.retargeted targets).fragment
      = ((targets.filterMap (·.fragment)).getLast?.map String.ofList).or r.fragment := by
  induction targets using List.reverseRecOn with
  | nil => rfl
  | append_singleton targets t ih =>
      rw [retargeted_concat, retarget_text, List.filterMap_append]
      cases hfragment : t.fragment with
      | none => simpa [hfragment] using ih
      | some fragment => simp [hfragment]

theorem parameters_retargeted (r : Request) (targets : List Target) :
    (r.retargeted targets).parameters
      = ((targets.filterMap (·.query)).getLast?.map Parameters.parse).getD r.parameters := by
  induction targets using List.reverseRecOn with
  | nil => rfl
  | append_singleton targets t ih =>
      rw [retargeted_concat, retarget_text, List.filterMap_append]
      cases hquery : t.query with
      | none => simpa [hquery] using ih
      | some query => simp [hquery]

end Request

-- ========================================================== dispatch

/-- What became of a request, with what was told of it. -/
def Dispatched.outcome {σ : Type} (done : Dispatched σ) : Response × Dispatcher σ × σ × List Log.Record :=
  (done.response, done.dispatcher, done.state, done.events.map (·.record))

/-- It does not matter to a dispatcher whether a request has looked at its target. -/
theorem outcome_dispatch_resolve {σ : Type} (d : Dispatcher σ) (r : Request) (state : σ) :
    (d.dispatch r.resolve state).outcome = (d.dispatch r state).outcome := by
  have htarget : r.resolve.target = r.target := rfl
  unfold Dispatcher.dispatch
  dsimp only
  rw [r.resolve_resolve, htarget]
  split
  · rfl
  · split <;> rfl

/-- What a request says of its target.

A target is its path, its query behind a question mark, if there is one before any number
sign, and its fragment behind a number sign, if there is one; this is the one way to cut it
so. The request has the path for its resource, which has neither mark. Its segments have no
slash, and joined by slashes they are the path. Of a query and a fragment it has what the
target has of them.

After several targets a request has the path and the segments of the last. Its fragment and
its parameters are those of the last target that has a fragment or a query, and those that
it had at the start if none has, which are none in a request that is new. To look at the
same target again changes nothing, and a dispatcher does the same with a request that has
looked at its target as with one that has not. -/
theorem request_has_parts_of_last_targets :
    (∀ r : Request, ∃ t : Target, t.text = r.target.toList
      ∧ (∀ t' : Target, t'.text = r.target.toList → t' = t)
      ∧ r.resolve.resourcePath = .ofList t.path
      ∧ (∀ segment ∈ r.resolve.pathSegments, '/' ∉ segment.toList)
      ∧ "/".intercalate r.resolve.pathSegments = r.resolve.resourcePath
      ∧ (∀ query ∈ t.query, r.resolve.parameters = .parse query)
      ∧ ∀ fragment ∈ t.fragment, r.resolve.fragment = some (.ofList fragment))
    ∧ (∀ (r : Request) (targets : List Target) (last : Target),
        (r.retargeted (targets ++ [last])).resourcePath = .ofList last.path
        ∧ (r.retargeted (targets ++ [last])).pathSegments
          = (last.path.splitOn '/').map String.ofList)
    ∧ (∀ (r : Request) (targets : List Target),
        (r.retargeted targets).fragment
          = ((targets.filterMap (·.fragment)).getLast?.map String.ofList).or r.fragment
        ∧ (r.retargeted targets).parameters
          = ((targets.filterMap (·.query)).getLast?.map Parameters.parse).getD r.parameters)
    ∧ (∀ (method target : String) (version : Version) (keepAlive : Bool) (targets : List Target),
        let r : Request := { method, target, version, keepAlive }
        (r.retargeted targets).fragment
          = (targets.filterMap (·.fragment)).getLast?.map String.ofList
        ∧ (r.retargeted targets).parameters
          = ((targets.filterMap (·.query)).getLast?.map Parameters.parse).getD ∅)
    ∧ (∀ r : Request, r.resolve.resolve = r.resolve)
    ∧ ∀ (σ : Type) (d : Dispatcher σ) (target : String) (state : σ),
        let fresh : Request := { method := "GET", target, version := .http11, keepAlive := true }
        (Request.get target).resolve = fresh.resolve
        ∧ (d.dispatch (Request.get target) state).outcome = (d.dispatch fresh state).outcome := by
  refine ⟨fun r => ?_, fun r targets last => ?_, fun r targets => ⟨r.fragment_retargeted targets,
    r.parameters_retargeted targets⟩, fun method target version keepAlive targets => ⟨?_, ?_⟩,
    Request.resolve_resolve, fun σ d target state => ⟨Request.resolve_resolve _,
    outcome_dispatch_resolve d _ state⟩⟩
  · obtain ⟨t, ht⟩ := exists_target r.target.toList
    obtain ⟨hslash, hjoined⟩ := segments_of_path t.path
    rw [resolve_eq r ht]
    refine ⟨t, ht, fun t' ht' => Target.eq_of_text_eq (ht'.trans ht.symm), rfl, hslash, hjoined,
      fun query hquery => ?_, fun fragment hfragment => ?_⟩
    · rw [Option.mem_def.mp hquery]
      rfl
    · rw [Option.mem_def.mp hfragment]
      rfl
  · rw [Request.retargeted_concat, Request.retarget_text]
    exact ⟨rfl, rfl⟩
  · rw [Request.fragment_retargeted, Option.or_none]
  · rw [Request.parameters_retargeted]

end Vitals.Http
