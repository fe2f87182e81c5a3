/-
Lower-casing, from its table to whole texts.

On a text of ASCII the full mapping of Unicode is the mapping of the standard library,
which knows those letters only. The other way round it takes more: a character beyond
ASCII may have a small letter that is one of them. There is one such character, the sign
of the kelvin, which becomes a `k`; the dotted capital I becomes an `i`, but brings its dot
along, and both small sigmas are beyond ASCII. So a text of ASCII without a `k` comes out
of nothing but itself in some case (`lowercase_eq_iff`).

No small letter is a capital in its turn. The table is too long to look at each letter, and
so it is looked at in pairs of runs: the small letters of the one lie beside the other, or
in its gaps (`apart_of_mem`). What comes out is thus in lower case already, and to lower it
once more changes nothing (`lowercase_lowercase`).

What a sigma becomes depends on all that stands around it, so a text cannot be cut anywhere
and its parts lowered by themselves. Behind a character that has no case, and that is not
passed over when a case is looked for, it can (`lowerFrom_concat`). A slash is such a
character, and it comes out of nothing but a slash (`getLast?_lowercase`).
-/
import Mathlib.Data.List.Basic
import Vitals.Text.Lowercase

namespace Vitals.Text

-- ============================================================== capitals

namespace CapitalRun

/-- The code of the small letter of a capital. -/
def small (run : CapitalRun) (capital : Nat) : Nat := (capital + run.offset).toNat

/-- Whether the small letters of a run are seen to be no capitals of another: they lie on one
side of it, or else they fall into its gaps, as both go by steps of two. -/
def apart (run other : CapitalRun) : Bool :=
  (run.small run.last).blt other.first || other.last.blt (run.small run.first)
    || (run.first == run.last || run.stride == 2) && other.stride == 2
      && (run.small run.first + other.first) % 2 == 1

/-- The dotted capital I, which has no small letter to itself. -/
def dotted : CapitalRun := ⟨0x130, 0x130, 1, 0⟩

/-- The small letters of the table are characters. -/
theorem valid_of_mem :
    ∀ run ∈ capitalRuns, 0 ≤ run.first + run.offset ∧ (run.last + run.offset < 0xD800
      ∨ (0xDFFF < run.first + run.offset ∧ run.last + run.offset < 0x110000)) := by
  decide +kernel

/-- No run of capitals meets the small letters of any run. -/
theorem apart_of_mem :
    capitalRuns.all (fun run => (dotted :: capitalRuns).all run.apart) = true := by
  decide +kernel

/-- The small letter of a capital is a character. -/
theorem toNat_ofNat_small {run : CapitalRun} (hrun : run ∈ capitalRuns) {c : Char}
    (hc : run.contains c = true) : (Char.ofNat (run.small c.toNat)).toNat = run.small c.toNat := by
  simp only [contains, Bool.and_eq_true, decide_eq_true_eq] at hc
  have hvalid := valid_of_mem run hrun
  have hchar : (run.small c.toNat).isValidChar := by
    unfold small Nat.isValidChar
    omega
  rw [Char.ofNat, dif_pos hchar]
  rfl

/-- Between runs that are seen to be apart no small letter of the one is in the other. -/
theorem not_contains_of_apart {run other : CapitalRun} (h : run.apart other = true)
    (hpos : 0 ≤ run.first + run.offset) {c d : Char} (hc : run.contains c = true)
    (hd : d.toNat = run.small c.toNat) : other.contains d = false := by
  by_contra hother
  simp only [contains, Bool.not_eq_false, Bool.and_eq_true, decide_eq_true_eq,
    beq_iff_eq] at hc hother
  simp only [apart, small, Bool.or_eq_true, Bool.and_eq_true, beq_iff_eq, Nat.blt_eq] at h hd
  obtain ⟨⟨hfirst, hlast⟩, hstep⟩ := hc
  obtain ⟨⟨hfirst', hlast'⟩, hstep'⟩ := hother
  rcases h with (h | h) | ⟨⟨hone | htwo, hstride⟩, hparity⟩
  · omega
  · omega
  · rw [hstride] at hstep'
    omega
  · rw [hstride] at hstep'
    rw [htwo] at hstep
    omega

end CapitalRun

-- ======================================================== characters

/-- The code of the sign of the kelvin. -/
def kelvin : Nat := 0x212A

/-- An ASCII character has its ASCII small letter. -/
theorem lowerChar_of_ascii {c : Char} (hc : c.toNat < 0x80) : lowerChar c = [c.toLower] := by
  have hall : ∀ n : Fin 0x80, lowerChar (Char.ofNat n) = [(Char.ofNat n).toLower] := by
    decide +kernel
  simpa using hall ⟨c.toNat, hc⟩

/-- What a character becomes: two characters, its small letter, or itself. -/
theorem lowerChar_cases (c : Char) :
    (c = '\u0130' ∧ lowerChar c = ['i', '\u0307'])
    ∨ (∃ run ∈ capitalRuns, run.contains c = true ∧ lowerChar c = [Char.ofNat (run.small c.toNat)])
    ∨ (c ≠ '\u0130' ∧ (∀ run ∈ capitalRuns, run.contains c = false) ∧ lowerChar c = [c]) := by
  unfold lowerChar
  by_cases hdotted : c = '\u0130'
  · exact .inl ⟨hdotted, if_pos hdotted⟩
  · rw [if_neg hdotted]
    cases hrun : capitalRuns.find? (·.contains c) with
    | some run =>
        refine .inr (.inl ⟨run, List.mem_of_find?_eq_some hrun, ?_, rfl⟩)
        simpa using List.find?_some hrun
    | none =>
        refine .inr (.inr ⟨hdotted, ?_, rfl⟩)
        simpa using List.find?_eq_none.mp hrun

/-- Capitals beyond ASCII have small letters beyond it, but for the sign of the kelvin. -/
theorem capitalRuns_beyond_ascii :
    ∀ run ∈ capitalRuns, run.last < 0x80 ∨ (run.first = kelvin ∧ run.last = kelvin)
      ∨ 0x80 ≤ run.first + run.offset := by
  decide +kernel

theorem lowerChar_kelvin : lowerChar (Char.ofNat kelvin) = ['k'] := by decide +kernel

/-- The lower case of a character beyond ASCII holds one beyond ASCII or a `k`. -/
theorem exists_mem_lowerChar {c : Char} (hc : 0x80 ≤ c.toNat) :
    ∃ d ∈ lowerChar c, 0x80 ≤ d.toNat ∨ d = 'k' := by
  rcases lowerChar_cases c with ⟨-, h⟩ | ⟨run, hrun, hcontains, h⟩ | ⟨-, -, h⟩
  · exact ⟨'\u0307', by simp [h], .inl (by decide)⟩
  · refine ⟨Char.ofNat (run.small c.toNat), by simp [h], ?_⟩
    have hsmall := CapitalRun.toNat_ofNat_small hrun hcontains
    simp only [CapitalRun.contains, Bool.and_eq_true, decide_eq_true_eq] at hcontains
    rcases capitalRuns_beyond_ascii run hrun with hascii | ⟨hfirst, hlast⟩ | hlow
    · omega
    · -- the sign of the kelvin itself
      have hkelvin : c = Char.ofNat kelvin := by
        rw [← Char.ofNat_toNat c]
        congr 1
        omega
      rw [hkelvin, lowerChar_kelvin] at h
      rw [hkelvin, ← List.singleton_inj.mp h]
      exact .inr rfl
    · left
      rw [hsmall, CapitalRun.small]
      omega
  · exact ⟨c, by simp [h], .inl hc⟩

theorem toLower_of_not_ascii {c : Char} (hc : 0x80 ≤ c.toNat) : c.toLower = c := by
  refine dif_neg ?_
  rintro ⟨-, hz⟩
  have : c.toNat ≤ 90 := hz
  omega

-- ============================================================= texts

/-- An ASCII text is put in lower case letter by letter. -/
theorem lowerFrom_of_ascii {s : List Char} (hs : ∀ c ∈ s, c.toNat < 0x80) (before : List Char) :
    lowerFrom before s = s.map Char.toLower := by
  induction s generalizing before with
  | nil => rfl
  | cons c s ih =>
      have hc := hs c (List.mem_cons_self ..)
      have hsigma : c ≠ 'Σ' := by
        rintro rfl
        exact absurd hc (by decide)
      rw [lowerFrom, if_neg hsigma, lowerChar_of_ascii hc,
        ih fun d hd => hs d (List.mem_cons_of_mem c hd)]
      rfl

/-- A text whose lower case is ASCII and holds no `k` was ASCII. -/
theorem ascii_of_lowerFrom {s before : List Char}
    (h : ∀ d ∈ lowerFrom before s, d.toNat < 0x80 ∧ d ≠ 'k') : ∀ c ∈ s, c.toNat < 0x80 := by
  induction s generalizing before with
  | nil => simp
  | cons c s ih =>
      simp only [lowerFrom, List.mem_append] at h
      refine List.forall_mem_cons.mpr ⟨?_, ih fun d hd => h d (.inr hd)⟩
      by_contra hc
      split at h
      · have hsmall := h _ (.inl (List.mem_singleton_self _))
        have hbeyond : 0x80 ≤ (lowerSigma before s).toNat := by
          unfold lowerSigma
          split <;> decide
        omega
      · obtain ⟨d, hd, hbad⟩ := exists_mem_lowerChar (c := c) (by omega)
        have hgood := h d (.inl hd)
        rcases hbad with hbeyond | hk
        · omega
        · exact hgood.2 hk

/-- A text of ASCII without a `k` is the small form of those texts only that are
equal to it up to the case of the letters of ASCII. -/
theorem lowercase_eq_iff {s t : List Char} (ht : ∀ d ∈ t, d.toNat < 0x80 ∧ d ≠ 'k') :
    lowercase s = t ↔ s.map Char.toLower = t := by
  constructor
  · rintro rfl
    exact (lowerFrom_of_ascii (ascii_of_lowerFrom ht) []).symm
  · rintro rfl
    refine lowerFrom_of_ascii (fun c hc => ?_) []
    by_contra hbeyond
    have hsmall := (ht c.toLower (List.mem_map_of_mem hc)).1
    rw [toLower_of_not_ascii (by omega)] at hsmall
    exact hbeyond hsmall

-- ==================================================== texts in lower case

/-- Whether a character is in lower case, or has no case: it stays as it is. -/
def IsSmall (c : Char) : Prop := c ≠ 'Σ' ∧ lowerChar c = [c]

/-- What is in no run of capitals is small. -/
theorem isSmall_of_not_contains {c : Char}
    (h : ∀ run ∈ CapitalRun.dotted :: capitalRuns, run.contains c = false) : IsSmall c := by
  have hruns : ∀ run ∈ capitalRuns, run.contains c = false :=
    fun run hrun => h run (List.mem_cons_of_mem _ hrun)
  constructor
  · intro hsigma
    have hcapital : capitalRuns.any (·.contains 'Σ') = true := by decide +kernel
    obtain ⟨run, hrun, hcontains⟩ := List.any_eq_true.mp hcapital
    rw [← hsigma, hruns run hrun] at hcontains
    cases hcontains
  · rcases lowerChar_cases c with ⟨hdotted, -⟩ | ⟨run, hrun, hcontains, -⟩ | ⟨-, -, hself⟩
    · have := h CapitalRun.dotted (List.mem_cons_self ..)
      rw [hdotted] at this
      exact absurd this (by decide)
    · rw [hruns run hrun] at hcontains
      cases hcontains
    · exact hself

/-- What a character becomes is in lower case. -/
theorem isSmall_of_mem_lowerChar {c d : Char} (hc : c ≠ 'Σ') (hd : d ∈ lowerChar c) : IsSmall d := by
  rcases lowerChar_cases c with ⟨-, h⟩ | ⟨run, hrun, hcontains, h⟩ | ⟨-, -, h⟩
  · have hletter : IsSmall 'i' := ⟨by decide, by decide +kernel⟩
    have hdot : IsSmall '\u0307' := ⟨by decide, by decide +kernel⟩
    rw [h, List.mem_cons, List.mem_singleton] at hd
    rcases hd with rfl | rfl
    · exact hletter
    · exact hdot
  · rw [h, List.mem_singleton] at hd
    have hsmall := CapitalRun.toNat_ofNat_small hrun hcontains
    rw [← hd] at hsmall
    have hapart := List.all_eq_true.mp (List.all_eq_true.mp CapitalRun.apart_of_mem run hrun)
    exact isSmall_of_not_contains fun other hother =>
      CapitalRun.not_contains_of_apart (hapart other hother) (CapitalRun.valid_of_mem run hrun).1
        hcontains hsmall
  · rw [h, List.mem_singleton] at hd
    rw [hd]
    exact ⟨hc, h⟩

/-- Both forms of the sigma are small. -/
theorem isSmall_lowerSigma (before after : List Char) : IsSmall (lowerSigma before after) := by
  have hclosing : IsSmall 'ς' := ⟨by decide, by decide +kernel⟩
  have hother : IsSmall 'σ' := ⟨by decide, by decide +kernel⟩
  unfold lowerSigma
  split
  · exact hclosing
  · exact hother

/-- Every character of a text in lower case is small. -/
theorem isSmall_of_mem_lowerFrom {s before : List Char} {d : Char} (hd : d ∈ lowerFrom before s) :
    IsSmall d := by
  induction s generalizing before with
  | nil => cases hd
  | cons c s ih =>
      rw [lowerFrom, List.mem_append] at hd
      rcases hd with hfirst | hrest
      · split at hfirst
        · rw [List.mem_singleton.mp hfirst]
          exact isSmall_lowerSigma before s
        · next hsigma => exact isSmall_of_mem_lowerChar hsigma hfirst
      · exact ih hrest

/-- A text of small characters is in lower case already. -/
theorem lowerFrom_of_isSmall {s : List Char} (hs : ∀ c ∈ s, IsSmall c) (before : List Char) :
    lowerFrom before s = s := by
  induction s generalizing before with
  | nil => rfl
  | cons c s ih =>
      obtain ⟨hsigma, hself⟩ := hs c (List.mem_cons_self ..)
      rw [lowerFrom, if_neg hsigma, hself, ih fun d hd => hs d (List.mem_cons_of_mem c hd)]
      rfl

/-- A text that was lowered stays as it is. -/
theorem lowercase_lowercase (s : List Char) : lowercase (lowercase s) = lowercase s :=
  lowerFrom_of_isSmall (fun _ => isSmall_of_mem_lowerFrom) []

-- ======================================================= ends of texts

section Ends

variable {c : Char} (hcased : isCased c = false) (hignorable : isCaseIgnorable c = false)
include hcased hignorable

/-- A character without a case ends the search for one, as the end of a text does. -/
theorem meetsCased_concat (s : List Char) : meetsCased (s ++ [c]) = meetsCased s := by
  unfold meetsCased
  rw [List.dropWhile_append]
  cases hrest : s.dropWhile isCaseIgnorable with
  | nil => simp [hignorable, hcased]
  | cons d rest => rfl

/-- A last character at which no sigma looks for case is put in lower case on its own. -/
theorem lowerFrom_concat (before s : List Char) :
    lowerFrom before (s ++ [c]) = lowerFrom before s ++ lowerChar c := by
  induction s generalizing before with
  | nil =>
      have hsigma : c ≠ 'Σ' := by
        intro h
        rw [h] at hcased
        exact absurd hcased (by decide)
      simp [lowerFrom, hsigma]
  | cons d s ih =>
      rw [List.cons_append, lowerFrom, lowerFrom, ih, lowerSigma, lowerSigma,
        meetsCased_concat hcased hignorable, List.append_assoc]

end Ends

/-- A slash at the end does not matter for the lower case of the rest. -/
theorem lowercase_append_slash (s : List Char) : lowercase (s ++ ['/']) = lowercase s ++ ['/'] :=
  lowerFrom_concat (by decide) (by decide +kernel) [] s

/-- The last character of a text is lowered behind all others. -/
theorem exists_lowerFrom_concat (before s : List Char) (c : Char) :
    ∃ front last, lowerFrom before (s ++ [c]) = front ++ last
      ∧ (last = lowerChar c ∨ last = ['σ'] ∨ last = ['ς']) := by
  induction s generalizing before with
  | nil =>
      refine ⟨[], lowerFrom before [c], rfl, ?_⟩
      simp only [lowerFrom, List.append_nil]
      split
      · unfold lowerSigma
        split <;> simp
      · exact .inl rfl
  | cons d s ih =>
      obtain ⟨front, last, hsplit, hlast⟩ := ih (d :: before)
      rw [List.cons_append, lowerFrom, hsplit, ← List.append_assoc]
      exact ⟨_, last, rfl, hlast⟩

/-- A character other than a slash becomes something without one. -/
theorem slash_notMem_lowerChar {c : Char} (hc : c ≠ '/') : lowerChar c ≠ [] ∧ '/' ∉ lowerChar c := by
  by_cases hascii : c.toNat < 0x80
  · have hall : ∀ n : Fin 0x80, Char.ofNat n ≠ '/' → (Char.ofNat n).toLower ≠ '/' := by
      decide +kernel
    have hlower : c.toLower ≠ '/' := by simpa using hall ⟨c.toNat, hascii⟩ (by simpa using hc)
    simp [lowerChar_of_ascii hascii, hlower.symm]
  · obtain ⟨d, hd, hsmall⟩ := @exists_mem_lowerChar c (by omega)
    have hne : d ≠ '/' := by
      intro h
      rw [h] at hsmall
      exact absurd hsmall (by decide)
    rcases lowerChar_cases c with ⟨-, h⟩ | ⟨run, -, -, h⟩ | ⟨-, -, h⟩
    · rw [h]
      decide
    · rw [h, List.mem_singleton] at hd
      simp [h, ← hd, hne.symm]
    · simp [h, hc.symm]

/-- A text ends in a slash once it is lowered if it did before. -/
theorem getLast?_lowercase (s : List Char) :
    (lowercase s).getLast? = some '/' ↔ s.getLast? = some '/' := by
  rcases List.eq_nil_or_concat' s with rfl | ⟨s, c, rfl⟩
  · rfl
  · by_cases hc : c = '/'
    · rw [hc, lowercase_append_slash]
      simp
    · obtain ⟨front, last, hsplit, hlast⟩ := exists_lowerFrom_concat [] s c
      -- what the last character becomes is something, and no slash
      have hplain : last ≠ [] ∧ '/' ∉ last := by
        rcases hlast with rfl | rfl | rfl
        · exact slash_notMem_lowerChar hc
        · decide
        · decide
      refine iff_of_false ?_ (by simpa using hc)
      rw [lowercase, hsplit, List.getLast?_append]
      intro hend
      cases hgot : last.getLast? with
      | none => exact hplain.1 (List.getLast?_eq_none_iff.mp hgot)
      | some d =>
          rw [hgot] at hend
          cases hend
          exact hplain.2 (List.mem_of_getLast? hgot)

end Vitals.Text
