/-
When a connection stays open after a request.

The headers have a say only through the set of their tokens (`keepsAlive_congr`): whether
`close` is among them, and whether `keep-alive` is. It does not matter in which line a
token stands, in which place of it, or how often, so lines can be put in another order, and
a value can be cut at its commas into lines of their own. The one thing that cannot be
rearranged is a value with a character that cannot be read. Its tokens do not count, and
they would count in a line without that character.
-/
import Mathlib.Data.List.Basic
import Vitals.Http.Router

namespace Vitals.Http

open Text

-- ============================================================= tokens

/-- A token of the connection headers, in small letters: what stands between commas, but
for the blanks around it, in a value of printable characters of ASCII and tabs. -/
def HasToken (headers : List (String × String)) (token : List Char) : Prop :=
  ∃ name value, (name, value) ∈ headers ∧ name.toList.map Char.toLower = "connection".toList
    ∧ (∀ c ∈ value.toList, (0x20 ≤ c.toNat ∧ c.toNat < 0x7F) ∨ c = '\t')
    ∧ ∃ piece ∈ value.toList.splitOn ',', (trim piece).map Char.toLower = token

/-- A readable value holds printable ASCII characters and tabs only. -/
theorem isReadable_iff {value : List Char} :
    isReadable value = true ↔ ∀ c ∈ value, (0x20 ≤ c.toNat ∧ c.toNat < 0x7F) ∨ c = '\t' := by
  simp [isReadable]

/-- The connection tokens are those of the readable connection headers. -/
theorem mem_connectionTokens {headers : List (String × String)} {token : List Char} :
    token ∈ connectionTokens headers ↔ HasToken headers token := by
  unfold connectionTokens tokensOf HasToken
  simp only [List.mem_flatMap, List.mem_filter, List.mem_map, Bool.and_eq_true, beq_iff_eq,
    isReadable_iff, Prod.exists]
  constructor
  · rintro ⟨name, value, ⟨hmem, hname, hreadable⟩, hpiece⟩
    exact ⟨name, value, hmem, hname, hreadable, hpiece⟩
  · rintro ⟨name, value, hmem, hname, hreadable, hpiece⟩
    exact ⟨name, value, ⟨hmem, hname, hreadable⟩, hpiece⟩

/-- A connection is kept open when no token closes it and, before version 1.1, one asks for it. -/
theorem keepsAlive_iff {version : Version} {headers : List (String × String)} :
    keepsAlive version headers = true ↔ ¬ HasToken headers "close".toList
      ∧ (version = .http09 ∨ version = .http10 → HasToken headers "keep-alive".toList) := by
  rw [← mem_connectionTokens, ← mem_connectionTokens]
  unfold keepsAlive
  generalize "close".toList = close, "keep-alive".toList = keep
  by_cases hclose : close ∈ connectionTokens headers
  · simp [hclose]
  · cases version <;> simp [hclose]

/-- Headers with the same tokens keep the same connections. -/
theorem keepsAlive_congr {headers headers' : List (String × String)}
    (h : ∀ token, HasToken headers token ↔ HasToken headers' token) (version : Version) :
    keepsAlive version headers = keepsAlive version headers' := by
  rw [Bool.eq_iff_iff, keepsAlive_iff, keepsAlive_iff, h, h]

-- =============================================================== lines

theorem hasToken_append {a b : List (String × String)} {token : List Char} :
    HasToken (a ++ b) token ↔ HasToken a token ∨ HasToken b token := by
  simp [← mem_connectionTokens, connectionTokens]

/-- The order of the headers does not matter for their tokens. -/
theorem hasToken_perm {headers headers' : List (String × String)} (h : headers.Perm headers')
    (token : List Char) : HasToken headers token ↔ HasToken headers' token := by
  simp only [HasToken, h.mem_iff]

/-- A line of values between commas. -/
def joined (name : String) (values : List (List Char)) : String × String :=
  (name, .ofList ([','].intercalate values))

theorem tokensOf_append (a b : List Char) : tokensOf (a ++ ',' :: b) = tokensOf a ++ tokensOf b := by
  rw [tokensOf, List.splitOn_append_cons_self, List.map_append]
  rfl

theorem isReadable_append (a b : List Char) :
    isReadable (a ++ ',' :: b) = (isReadable a && isReadable b) := by
  simp [isReadable]

/-- Values joined by commas have the tokens of each of them. -/
theorem tokensOf_intercalate {values : List (List Char)} (hne : values ≠ []) :
    tokensOf ([','].intercalate values) = values.flatMap tokensOf := by
  induction values with
  | nil => exact absurd rfl hne
  | cons value values ih =>
      cases values with
      | nil => simp
      | cons next values =>
          rw [List.intercalate_cons_cons, List.append_assoc, List.singleton_append, tokensOf_append,
            ih (by simp)]
          rfl

/-- Values joined by commas are readable when each of them is. -/
theorem isReadable_intercalate {values : List (List Char)} :
    isReadable ([','].intercalate values) = values.all isReadable := by
  induction values with
  | nil => rfl
  | cons value values ih =>
      cases values with
      | nil => simp
      | cons next values =>
          rw [List.intercalate_cons_cons, List.append_assoc, List.singleton_append,
            isReadable_append, ih]
          rfl

/-- The tokens of a line are those of its values, if these can all be read, and there are
none otherwise. -/
theorem hasToken_joined {name : String} {values : List (List Char)} (hne : values ≠ [])
    {token : List Char} : HasToken [joined name values] token
      ↔ name.toList.map Char.toLower = "connection".toList
        ∧ (∀ value ∈ values, isReadable value = true) ∧ ∃ value ∈ values, token ∈ tokensOf value := by
  rw [← List.all_eq_true, ← isReadable_intercalate, ← List.mem_flatMap,
    ← tokensOf_intercalate hne, ← mem_connectionTokens]
  simp [connectionTokens, joined, and_assoc]

/-- Values that can be read have their tokens on one line or on a line for each. -/
theorem hasToken_lines {name : String} {values : List (List Char)} (hne : values ≠ [])
    (hreadable : ∀ value ∈ values, isReadable value = true) {token : List Char} :
    HasToken (values.map fun value => (name, .ofList value)) token
      ↔ HasToken [joined name values] token := by
  rw [hasToken_joined hne, ← mem_connectionTokens]
  simp only [connectionTokens, List.mem_flatMap, List.mem_filter, List.mem_map, Bool.and_eq_true,
    beq_iff_eq]
  constructor
  · rintro ⟨-, ⟨⟨value, hvalue, rfl⟩, hname, -⟩, htoken⟩
    rw [String.toList_ofList] at htoken
    exact ⟨hname, hreadable, value, hvalue, htoken⟩
  · rintro ⟨hname, -, value, hvalue, htoken⟩
    refine ⟨_, ⟨⟨value, hvalue, rfl⟩, hname, ?_⟩, ?_⟩
    · rw [String.toList_ofList]
      exact hreadable value hvalue
    · rwa [String.toList_ofList]

/-- The values of a line can stand in another order, and more than once. -/
theorem hasToken_joined_congr {name : String} {values values' : List (List Char)}
    (h : ∀ value, value ∈ values ↔ value ∈ values') (token : List Char) :
    HasToken [joined name values] token ↔ HasToken [joined name values'] token := by
  cases values with
  | nil =>
      have hnil : values' = [] := List.eq_nil_iff_forall_not_mem.mpr fun value hvalue =>
        List.not_mem_nil ((h value).mpr hvalue)
      rw [hnil]
  | cons value values =>
      have hne : values' ≠ [] := List.ne_nil_of_mem ((h value).mp (List.mem_cons_self ..))
      rw [hasToken_joined (List.cons_ne_nil value values), hasToken_joined hne]
      simp only [h]

end Vitals.Http
