/-
The parts of a target.

A target is a path, then perhaps a query behind a question mark, then perhaps a
fragment behind a number sign. A path holds neither of the two marks and a query no
number sign, which leaves one way to cut a text into such parts: at the first number
sign, and at the first question mark before it. That is the way a request cuts its
target (`targetParts_text`), so what a request says of its target is what the parts
say, and nothing of an earlier target is left in a request that is new.
-/
import Vitals.Http.Request

namespace Vitals.Http

open Text

-- ============================================================= parts

/-- A target in its parts. -/
structure Target where
  /-- The text before the first question mark or number sign. -/
  path : List Char
  /-- The text between the question mark and the fragment. -/
  query : Option (List Char)
  /-- The text behind the number sign. -/
  fragment : Option (List Char)
  path_plain : '?' ∉ path ∧ '#' ∉ path
  query_plain : ∀ q ∈ query, '#' ∉ q

/-- A part with the mark in front of it, or nothing if there is no such part. -/
def marked (mark : Char) : Option (List Char) → List Char
  | some part => mark :: part
  | none => []

/-- The target as it is written. -/
def Target.text (t : Target) : List Char := t.path ++ marked '?' t.query ++ marked '#' t.fragment

/-- The text of a target before its first question mark or number sign. -/
def pathOf (target : List Char) : List Char := target.takeWhile fun c => c != '?' && c != '#'

theorem splitFirst_append_marked {sep : Char} {s : List Char} (hs : sep ∉ s)
    (rest : Option (List Char)) : Request.splitFirst sep (s ++ marked sep rest) = (s, rest) := by
  unfold Request.splitFirst
  cases rest with
  | none => rw [marked, List.append_nil, cut_eq_none_iff.mpr hs]
  | some after => rw [marked, cut_append_cons hs]

theorem exists_append_marked (sep : Char) (s : List Char) :
    ∃ before rest, s = before ++ marked sep rest ∧ sep ∉ before := by
  cases hcut : cut sep s with
  | none => exact ⟨s, none, (List.append_nil s).symm, cut_eq_none_iff.mp hcut⟩
  | some parts =>
      obtain ⟨before, after⟩ := parts
      obtain ⟨heq, hnot⟩ := cut_eq_some hcut
      exact ⟨before, some after, heq, hnot⟩

/-- Every text is a target. -/
theorem exists_target (s : List Char) : ∃ t : Target, t.text = s := by
  obtain ⟨rest, fragment, rfl, hrest⟩ := exists_append_marked '#' s
  obtain ⟨path, query, rfl, hpath⟩ := exists_append_marked '?' rest
  rw [List.mem_append, not_or] at hrest
  refine ⟨⟨path, query, fragment, ⟨hpath, hrest.1⟩, ?_⟩, rfl⟩
  rintro q ⟨⟩
  exact fun hmem => hrest.2 (List.mem_cons_of_mem '?' hmem)

/-- A target is cut into its parts, and there are no others that it could be cut into. -/
theorem targetParts_text (t : Target) :
    Request.targetParts t.text = (t.path, t.query, t.fragment) := by
  have hfront : '#' ∉ t.path ++ marked '?' t.query := by
    rw [List.mem_append]
    rintro (hpath | hquery)
    · exact t.path_plain.2 hpath
    · cases hq : t.query with
      | none =>
          rw [hq] at hquery
          cases hquery
      | some q =>
          rw [hq] at hquery
          rcases List.mem_cons.mp hquery with hmark | hmem
          · exact absurd hmark (by decide)
          · exact t.query_plain q hq hmem
  unfold Request.targetParts Target.text
  rw [splitFirst_append_marked hfront]
  dsimp only
  rw [splitFirst_append_marked t.path_plain.1]

/-- The path is all that stands before the first mark. -/
theorem pathOf_text (t : Target) : pathOf t.text = t.path := by
  have hplain : ∀ c ∈ t.path, (c != '?' && c != '#') = true := by
    intro c hc
    have hquestion : c ≠ '?' := fun h => t.path_plain.1 (h ▸ hc)
    have hnumber : c ≠ '#' := fun h => t.path_plain.2 (h ▸ hc)
    simp [hquestion, hnumber]
  have hstop : (marked '?' t.query ++ marked '#' t.fragment).takeWhile
      (fun c => c != '?' && c != '#') = [] := by
    cases t.query with
    | some q => rfl
    | none => cases t.fragment <;> rfl
  rw [pathOf, Target.text, List.append_assoc, List.takeWhile_append_of_pos hplain, hstop,
    List.append_nil]

-- ========================================================== requests

/-- A request with what a target says, and with nothing else. -/
def Request.seen (r : Request) (t : Target) : Request :=
  { r with
    resourcePath := .ofList t.path
    pathSegments := (t.path.splitOn '/').map String.ofList
    parameters := (t.query.map Parameters.parse).getD ∅
    fragment := t.fragment.map String.ofList }

/-- A request as it is made: of its method, target, version and connection alone, or to
read a target, which it has looked at by then. -/
inductive Request.Fresh : Request → Prop where
  | new (method target : String) (version : Version) (keepAlive : Bool) :
      Fresh { method, target, version, keepAlive }
  | get (target : String) : Fresh (Request.get target)

/-- A request is resolved to the parts of its target. -/
theorem resolve_eq (r : Request) {t : Target} (ht : t.text = r.target.toList) :
    r.resolve = { r with
      resourcePath := .ofList t.path
      pathSegments := (t.path.splitOn '/').map String.ofList
      parameters := (t.query.map Parameters.parse).getD r.parameters
      fragment := (t.fragment.map String.ofList).or r.fragment } := by
  unfold Request.resolve
  rw [← ht, targetParts_text]
  dsimp only
  cases t.query <;> cases t.fragment <;> rfl

/-- A request that is new says of its target what the target says. -/
theorem Request.Fresh.resolve_eq_seen {r : Request} (h : r.Fresh) {t : Target}
    (ht : t.text = r.target.toList) : r.resolve = r.seen t := by
  cases h with
  | new method target version keepAlive =>
      rw [resolve_eq _ ht, Request.seen, Option.or_none]
  | get target =>
      -- looking at the target once more finds what was found the first time
      have hparts : t.text = target.toList := ht
      rw [resolve_eq _ ht, Request.get, resolve_eq _ hparts, Request.seen]
      cases t.query <;> cases t.fragment <;> rfl

end Vitals.Http
