/-
Which routes have one key.

A key is the method, a colon and the resource in lower case with a slash at its end. No
method has a colon in it, so the first colon of a key is the one behind the method, and the
key can be taken apart again (`cut_routeKey`), whatever colons there are in the resource.
Two keys are equal if and only if the methods are, and the resources in their normal form.

The rest is about that form. It adds a slash where there is none, so it forgets of a
resource in lower case whether it had one, and nothing else (`closed_eq_closed_iff`). To
have the slash from the start makes no difference, as lower-casing does not reach across a
slash. What is lowered stays as it is, and so does what ends in a slash, and so the form of
a form is the form itself (`normalised_normalised`).
-/
import Vitals.Proofs.Http.Answers

namespace Vitals.Http

open Text

-- ============================================================ methods

/-- Whether a character can stand in the name of a method. -/
def isTokenChar (c : Char) : Bool :=
  inRanges
    [(0x21, 0x21), (0x23, 0x27), (0x2A, 0x2B), (0x2D, 0x2E), (0x30, 0x39), (0x41, 0x5A),
     (0x5E, 0x7A), (0x7C, 0x7C), (0x7E, 0x7E)] c

/-- A method of the protocol, known or not. -/
structure Method where
  /-- Its name, whose case matters. -/
  name : String
  name_ne : name ≠ ""
  isTokenChar_of_mem : ∀ c ∈ name.toList, isTokenChar c = true

theorem Method.eq_of_name {m m' : Method} (h : m.name = m'.name) : m = m' := by
  cases m
  cases m'
  cases h
  rfl

theorem Method.colon_notMem (m : Method) : ':' ∉ m.name.toList := by
  intro hmem
  exact absurd (m.isTokenChar_of_mem ':' hmem) (by decide)

-- =============================================================== keys

/-- A text with a colon behind a method is of no other method and of no other rest. -/
theorem append_colon_inj {m m' : Method} {rest rest' : String} :
    m.name ++ ":" ++ rest = m'.name ++ ":" ++ rest' ↔ m = m' ∧ rest = rest' := by
  constructor
  · intro h
    have hlists : m.name.toList ++ ':' :: rest.toList = m'.name.toList ++ ':' :: rest'.toList := by
      simpa using congrArg String.toList h
    have hcut := cut_append_cons m.colon_notMem rest.toList
    rw [hlists, cut_append_cons m'.colon_notMem] at hcut
    obtain ⟨hname, hrest⟩ := Prod.mk.inj (Option.some.inj hcut)
    exact ⟨Method.eq_of_name (String.toList_inj.mp hname.symm), String.toList_inj.mp hrest.symm⟩
  · intro ⟨hm, hrest⟩
    rw [hm, hrest]

/-- The first colon of a key stands between its method and its path. -/
theorem cut_routeKey (m : Method) (resource : String) :
    cut ':' (routeKey m.name resource).toList
      = some (m.name.toList, normalised resource.toList) := by
  rw [toList_routeKey, cut_append_cons m.colon_notMem]

/-- Two keys are equal exactly when their methods and normalised resources are. -/
theorem routeKey_eq_routeKey_iff {m m' : Method} {p p' : String} :
    routeKey m.name p = routeKey m'.name p'
      ↔ m = m' ∧ normalised p.toList = normalised p'.toList := by
  rw [routeKey, routeKey, append_colon_inj, ← String.toList_inj, String.toList_ofList,
    String.toList_ofList]

-- ======================================================== normal forms

/-- A text with a slash at its end, which is added if it is missing. -/
def closed (s : List Char) : List Char := if s.getLast? = some '/' then s else s ++ ['/']

/-- Whether two texts are the same once the one that lacks a slash at its end is given it. -/
def SameButSlash (s t : List Char) : Prop :=
  s = t ∨ (s.getLast? ≠ some '/' ∧ s ++ ['/'] = t) ∨ (t.getLast? ≠ some '/' ∧ t ++ ['/'] = s)

instance (s t : List Char) : Decidable (SameButSlash s t) := by
  unfold SameButSlash
  infer_instance

theorem normalised_eq_closed (s : List Char) : normalised s = closed (lowercase s) := rfl

theorem closed_of_slash {s : List Char} (h : s.getLast? = some '/') : closed s = s := if_pos h

theorem closed_of_no_slash {s : List Char} (h : s.getLast? ≠ some '/') : closed s = s ++ ['/'] :=
  if_neg h

/-- A slash at the end is all that is forgotten. -/
theorem closed_eq_closed_iff {s t : List Char} : closed s = closed t ↔ SameButSlash s t := by
  unfold SameButSlash
  by_cases hs : s.getLast? = some '/'
  · by_cases ht : t.getLast? = some '/'
    · simp [closed_of_slash hs, closed_of_slash ht, hs, ht]
    · have hne : s ≠ t := fun h => ht (h ▸ hs)
      simp [closed_of_slash hs, closed_of_no_slash ht, hs, ht, hne, eq_comm]
  · by_cases ht : t.getLast? = some '/'
    · have hne : s ≠ t := fun h => hs (h ▸ ht)
      simp [closed_of_no_slash hs, closed_of_slash ht, hs, ht, hne]
    · have hleft : s ++ ['/'] ≠ t := fun h => ht (by rw [← h, List.getLast?_concat])
      have hright : t ++ ['/'] ≠ s := fun h => hs (by rw [← h, List.getLast?_concat])
      simp [closed_of_no_slash hs, closed_of_no_slash ht, hleft, hright]

/-- Resources are normalised alike when they agree in lower case but for a slash at the end.
-/
theorem normalised_eq_normalised_iff {s t : List Char} :
    normalised s = normalised t ↔ SameButSlash (lowercase s) (lowercase t) := by
  rw [normalised_eq_closed, normalised_eq_closed, closed_eq_closed_iff]

/-- A slash more makes no difference, unless there was one already. -/
theorem normalised_append_slash_iff {s : List Char} :
    normalised (s ++ ['/']) = normalised s ↔ s.getLast? ≠ some '/' := by
  rw [normalised_eq_closed, normalised_eq_closed, lowercase_append_slash,
    closed_of_slash List.getLast?_concat, ne_eq, ← not_congr (getLast?_lowercase s)]
  by_cases hslash : (lowercase s).getLast? = some '/'
  · simp [closed_of_slash hslash, hslash]
  · simp [closed_of_no_slash hslash, hslash]

/-- A normal form is its own: it is in lower case, and so is the slash at its end. -/
theorem normalised_normalised (s : List Char) : normalised (normalised s) = normalised s := by
  rw [normalised_eq_closed (normalised s), normalised_eq_closed s]
  by_cases hslash : (lowercase s).getLast? = some '/'
  · rw [closed_of_slash hslash, lowercase_lowercase, closed_of_slash hslash]
  · rw [closed_of_no_slash hslash, lowercase_append_slash, lowercase_lowercase,
      closed_of_slash List.getLast?_concat]

/-- Which routes have one key.

Two routes have one key if and only if they have one method, case by case, and their
resources in lower case are the same but for a slash at the end that one of them lacks. So
a resource has the key of the one with another slash behind it, unless it ends in a slash
already. Resources of ASCII have one key if they are the same but for the case of letters
and that slash.

A key is told apart at its first colon into the method and a path. That path is a resource
with the very same key, and different methods or different paths make different texts, no
matter what is in the paths. -/
theorem keys_identify_normalised_routes :
    (∀ (m m' : Method) (p p' : String), routeKey m.name p = routeKey m'.name p'
      ↔ m = m' ∧ SameButSlash (lowercase p.toList) (lowercase p'.toList))
    ∧ (∀ (m : Method) (p : String),
        routeKey m.name (p ++ "/") = routeKey m.name p ↔ p.toList.getLast? ≠ some '/')
    ∧ (∀ (m : Method) (p p' : String), (∀ c ∈ p.toList, c.toNat < 0x80) →
        (∀ c ∈ p'.toList, c.toNat < 0x80) →
        (routeKey m.name p = routeKey m.name p'
          ↔ SameButSlash (p.toList.map Char.toLower) (p'.toList.map Char.toLower)))
    ∧ (∀ (m : Method) (p : String), ∃ path,
        cut ':' (routeKey m.name p).toList = some (m.name.toList, path)
        ∧ routeKey m.name (.ofList path) = routeKey m.name p)
    ∧ ∀ (m m' : Method) (path path' : String), (m, path) ≠ (m', path') →
        m.name ++ ":" ++ path ≠ m'.name ++ ":" ++ path' := by
  refine ⟨fun m m' p p' => ?_, fun m p => ?_, fun m p p' hp hp' => ?_, fun m p => ?_,
    fun m m' path path' hne heq => ?_⟩
  · rw [routeKey_eq_routeKey_iff, normalised_eq_normalised_iff]
  · rw [routeKey_eq_routeKey_iff, String.toList_append, and_iff_right rfl]
    exact normalised_append_slash_iff
  · rw [routeKey_eq_routeKey_iff, and_iff_right rfl, normalised_eq_normalised_iff, lowercase,
      lowercase, lowerFrom_of_ascii hp, lowerFrom_of_ascii hp']
  · refine ⟨_, cut_routeKey m p, ?_⟩
    rw [routeKey_eq_routeKey_iff, String.toList_ofList]
    exact ⟨rfl, normalised_normalised _⟩
  · obtain ⟨hm, hpath⟩ := append_colon_inj.mp heq
    exact hne (by rw [hm, hpath])

example : routeKey "GET" "/ΟΔΟΣ:Σ" = "GET:/οδοσ:ς/" ∧ routeKey "GET" "/ΟΔΟΣ:Σ/" = "GET:/οδοσ:ς/" := by
  decide +kernel

end Vitals.Http
