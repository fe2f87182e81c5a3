/-
What is written of a number is a number of JSON, if the number is finite.

# Why it holds

A number of JSON is one that a reader passes over as a whole (`IsNumber`): digits
that do not open with a zero unless it is the only one (`Whole`), then perhaps a
point with digits behind it, and perhaps a power of ten (`Power`). Every layout has
that shape as long as the digits that are laid out do not open with a zero, and those
of a number other than zero do not (`whole_decimal`). So what has to be seen is that
the shortest digits of a number are not those of zero. They are not because they read
back: zero would read back as zero (`digits_shortest_ne_zero`).
-/
import Mathlib.Data.List.TakeWhile
import Vitals.Json.Record
import Vitals.Proofs.Binary.Shortest

namespace Vitals

open Binary Text

-- ============================================================ digits

namespace Text

theorem isDigit_of_mem_decimal {n : Nat} {c : Char} (hc : c ∈ decimal n) : c.isDigit = true :=
  Nat.isDigit_of_mem_toDigits (by decide) (by decide) hc

theorem decimal_ne_nil (n : Nat) : decimal n ≠ [] := Nat.toDigits_ne_nil

/-- The digits of a number open with a zero only if the number is zero. -/
theorem head?_decimal {n : Nat} (hn : n ≠ 0) : (decimal n).head? ≠ some '0' := by
  induction n using Nat.strongRecOn with
  | _ n ih =>
      by_cases hten : n < 10
      · rw [decimal, Nat.toDigits_of_lt_base hten, List.head?_cons]
        intro hzero
        have hcode := congrArg Char.toNat (Option.some.inj hzero)
        rw [Nat.toNat_digitChar_of_lt_ten hten] at hcode
        have : ('0' : Char).toNat = 48 := rfl
        omega
      · have htens : (decimal n).head? = (decimal (n / 10)).head? := by
          unfold decimal
          rw [Nat.toDigits_of_base_le (by decide) (by omega), List.head?_append,
            List.head?_eq_some_head Nat.toDigits_ne_nil]
          rfl
        rw [htens]
        exact ih (n / 10) (by omega) (by omega)

end Text

namespace Binary

variable {f : Format}

/-- A number that is not zero has a digit that is not. -/
theorem digits_shortest_ne_zero {significand : Nat} {exponent : Int} (hs : significand ≠ 0)
    (hcanonical : f.Canonical significand exponent) :
    (shortest f significand exponent).digits ≠ 0 := by
  unfold shortest
  dsimp only
  split
  · next digits value hhit =>
      apply dropZeros_ne_zero
      obtain ⟨n, -, hfound⟩ := List.exists_of_findSome?_eq_some hhit
      have hreads := ne_zero_of_readsAs hs hcanonical (by simpa using List.find?_some hfound)
      have hvalue := snd_of_mem_gridNeighbours (List.mem_of_find?_eq_some hfound)
      dsimp only at hvalue
      rintro rfl
      exact hreads (hvalue.trans (Rat.zero_mul _))
  · exact hs

end Binary

namespace Json

-- ============================================================ shapes

/-- A number of JSON: one that a reader passes over as a whole. -/
def IsNumber (s : List Char) : Prop := skipNumber s = .ok []

/-- A number of JSON behind its sign. -/
def IsUnsigned (s : List Char) : Prop := skipUnsigned s = .ok []

/-- Digits that do not open with a zero, unless there is nothing else. -/
def Whole (s : List Char) : Prop :=
  s ≠ [] ∧ (∀ c ∈ s, c.isDigit = true) ∧ (s.head? = some '0' → s.length = 1)

/-- A power of ten behind a number, or none. -/
def Power (s : List Char) : Prop :=
  s = [] ∨ ∃ sign digits, s = 'e' :: sign :: digits ∧ (sign = '+' ∨ sign = '-')
    ∧ digits ≠ [] ∧ ∀ c ∈ digits, c.isDigit = true

/-- Digits in front are passed over, and what stands behind them decides where that ends. -/
theorem dropWhile_digits {s : List Char} (h : ∀ c ∈ s, c.isDigit = true) (rest : List Char) :
    (s ++ rest).dropWhile Char.isDigit = rest.dropWhile Char.isDigit :=
  List.dropWhile_append_of_pos h

/-- A power is empty or opens with its letter. -/
theorem Power.head? {s : List Char} (h : Power s) : s.head? = none ∨ s.head? = some 'e' := by
  rcases h with rfl | ⟨sign, digits, rfl, -⟩
  · exact .inl rfl
  · exact .inr rfl

/-- So no digit of a power is taken for one of what stands in front of it. -/
theorem Power.dropWhile {s : List Char} (h : Power s) : s.dropWhile Char.isDigit = s := by
  rcases h with rfl | ⟨sign, digits, rfl, -⟩
  · rfl
  · exact List.dropWhile_cons_of_neg (by decide)

/-- A power is passed over to its end. -/
theorem Power.skipTail {s : List Char} (h : Power s) : skipTail s = .ok [] := by
  rcases h with rfl | ⟨sign, digits, rfl, hsign, hne, hdigits⟩
  · rfl
  · have hrest : powerSign (sign :: digits) = (sign == '-', digits) := by
      rcases hsign with rfl | rfl <;> rfl
    obtain ⟨d, digits, rfl⟩ := List.exists_cons_of_ne_nil hne
    show skipPower (sign :: d :: digits) = _
    rw [skipPower, hrest]
    dsimp only
    rw [if_pos (hdigits d (List.mem_cons_self ..))]
    have hall : digits.dropWhile Char.isDigit = [] :=
      List.dropWhile_eq_nil_iff.mpr fun c hc => hdigits c (List.mem_cons_of_mem d hc)
    rw [hall]

/-- A number without a sign is a number. -/
theorem isNumber_of_isUnsigned {s : List Char} (h : IsUnsigned s) : IsNumber s := by
  unfold IsNumber skipNumber
  split
  · cases h
  · exact h

/-- What follows a number that nobody reads, behind the digits that it opens with. -/
def skipBehindWhole : List Char → Except Fault (List Char)
  | '.' :: d :: s =>
      if d.isDigit then skipTail (s.dropWhile Char.isDigit) else .error .malformed
  | ['.'] => .error .malformed
  | rest => skipTail rest

/-- A whole part is passed over, if no digit goes on behind it. -/
theorem skipUnsigned_append {s rest : List Char} (hs : Whole s)
    (hrest : ∀ c ∈ rest.head?, c.isDigit = false) :
    skipUnsigned (s ++ rest) = skipBehindWhole rest := by
  obtain ⟨hne, hdigits, hzero⟩ := hs
  obtain ⟨c, s, rfl⟩ := List.exists_cons_of_ne_nil hne
  have hopen : c.isDigit = true := hdigits c (List.mem_cons_self ..)
  have hmore : ∀ d ∈ s, d.isDigit = true := fun d hd => hdigits d (List.mem_cons_of_mem c hd)
  have hstop : rest.dropWhile Char.isDigit = rest := by
    cases rest with
    | nil => rfl
    | cons d rest =>
        have := hrest d rfl
        exact List.dropWhile_cons_of_neg (by simp [this])
  -- a zero in front stands alone, and no digit follows in the rest
  have hlead : ¬ (c = '0' ∧ ((s ++ rest).head?.map Char.isDigit).getD false = true) := by
    rintro ⟨rfl, hnext⟩
    have halone : s = [] := by simpa using hzero rfl
    rw [halone, List.nil_append] at hnext
    cases hhead : rest.head? with
    | none =>
        rw [hhead] at hnext
        cases hnext
    | some d =>
        rw [hhead, Option.map_some, Option.getD_some, hrest d hhead] at hnext
        cases hnext
  rw [List.cons_append, skipUnsigned, if_neg (not_or.mpr ⟨by simp [hopen], hlead⟩),
    dropWhile_digits hmore, hstop]
  rfl

/-- A whole part with a power is a number without a sign. -/
theorem isUnsigned_whole {s power : List Char} (hs : Whole s) (hpower : Power power) :
    IsUnsigned (s ++ power) := by
  have hstop : ∀ c ∈ power.head?, c.isDigit = false := by
    intro c hc
    rcases hpower.head? with hnone | he
    · rw [hnone] at hc
      cases hc
    · rw [he] at hc
      cases hc
      decide
  rw [IsUnsigned, skipUnsigned_append hs hstop]
  have htail : skipBehindWhole power = skipTail power := by
    rcases hpower with rfl | ⟨sign, digits, rfl, -⟩ <;> rfl
  rw [htail, hpower.skipTail]

/-- So is one with a fraction between the two. -/
theorem isUnsigned_point {s fraction power : List Char} (hs : Whole s) (hne : fraction ≠ [])
    (hfraction : ∀ c ∈ fraction, c.isDigit = true) (hpower : Power power) :
    IsUnsigned (s ++ '.' :: (fraction ++ power)) := by
  obtain ⟨d, fraction, rfl⟩ := List.exists_cons_of_ne_nil hne
  have hstop : ∀ c ∈ ('.' :: (d :: fraction ++ power)).head?, c.isDigit = false := by
    rintro c ⟨⟩
    decide
  rw [IsUnsigned, skipUnsigned_append hs hstop]
  show (if d.isDigit then skipTail ((fraction ++ power).dropWhile Char.isDigit)
    else .error .malformed) = _
  rw [if_pos (hfraction d (List.mem_cons_self ..)),
    dropWhile_digits fun c hc => hfraction c (List.mem_cons_of_mem d hc), hpower.dropWhile,
    hpower.skipTail]

/-- What can open a number is no blank. -/
theorem isBlank_of_opensNumber {c : Char} (hc : opensNumber c = true) : isBlank c = false := by
  rw [← Bool.not_eq_true]
  intro h
  simp only [isBlank, Bool.or_eq_true, beq_iff_eq] at h
  rcases h with ((rfl | rfl) | rfl) | rfl <;> revert hc <;> decide

-- =========================================================== writing

/-- The decimal text of a count is a whole part. -/
theorem whole_decimal (n : Nat) : Whole (decimal n) := by
  refine ⟨decimal_ne_nil n, fun c hc => isDigit_of_mem_decimal hc, ?_⟩
  intro hhead
  by_cases hn : n = 0
  · rw [hn]
    rfl
  · exact absurd hhead (head?_decimal hn)

/-- And a number without a sign. -/
theorem isUnsigned_decimal (n : Nat) : IsUnsigned (decimal n) := by
  have h := isUnsigned_whole (whole_decimal n) (.inl rfl)
  rwa [List.append_nil] at h

/-- Digits are a whole part if they do not open with a zero. -/
theorem whole_of_head? {s : List Char} (hne : s ≠ []) (hdigits : ∀ c ∈ s, c.isDigit = true)
    (hhead : s.head? ≠ some '0') : Whole s :=
  ⟨hne, hdigits, fun h => absurd h hhead⟩

/-- A single digit is one, even if it is the zero. -/
theorem whole_singleton {c : Char} (hc : c.isDigit = true) : Whole [c] := by
  refine ⟨List.cons_ne_nil c [], fun d hd => ?_, fun _ => rfl⟩
  rw [List.mem_singleton.mp hd]
  exact hc

/-- Digits with a point are digits, the point and digits, and make up as much of a power
of ten as was laid out. -/
theorem exists_positional {digits : List Char} (hne : digits ≠ [])
    (hdigits : ∀ c ∈ digits, c.isDigit = true) (hhead : digits.head? ≠ some '0')
    (exponent : Int) :
    ∃ whole fraction : List Char, ∃ k : Nat,
      positional digits exponent = whole ++ '.' :: fraction
      ∧ Whole whole ∧ fraction ≠ [] ∧ (∀ c ∈ fraction, c.isDigit = true)
      ∧ Nat.ofDigitChars 10 (whole ++ fraction) 0 = 10 ^ k * Nat.ofDigitChars 10 digits 0
      ∧ (k : Int) = exponent + 1 - digits.length + fraction.length := by
  have hzeros : ∀ n, ∀ c ∈ List.replicate n '0', c.isDigit = true := by
    intro n c hc
    rw [List.eq_of_mem_replicate hc]
    decide
  unfold positional
  split
  · -- all digits are behind the point
    refine ⟨['0'], List.replicate (-exponent - 1).toNat '0' ++ digits, 0, by simp,
      whole_decimal 0, List.append_ne_nil_of_right_ne_nil _ hne,
      fun c hc => (List.mem_append.mp hc).elim (hzeros _ c) (hdigits c), ?_, ?_⟩
    · have hzero : ['0'] = List.replicate 1 '0' := rfl
      rw [hzero, Nat.ofDigitChars_append, Nat.ofDigitChars_append, Nat.ofDigitChars_replicate_zero,
        Nat.ofDigitChars_replicate_zero, Nat.mul_zero, Nat.pow_zero, Nat.one_mul]
    · rw [List.length_append, List.length_replicate]
      omega
  · dsimp only
    split
    · -- all are before it, and zeros make up what is missing
      refine ⟨digits ++ List.replicate (exponent.toNat + 1 - digits.length) '0', ['0'],
        exponent.toNat + 1 - digits.length + 1, rfl, ?_, List.cons_ne_nil '0' [], hzeros 1, ?_, ?_⟩
      · refine whole_of_head? (List.append_ne_nil_of_left_ne_nil hne _)
          (fun c hc => (List.mem_append.mp hc).elim (hdigits c) (hzeros _ c)) ?_
        rwa [List.head?_append, List.head?_eq_some_head hne, Option.some_or,
          ← List.head?_eq_some_head]
      · have hzero : ['0'] = List.replicate 1 '0' := rfl
        rw [hzero, List.append_assoc, List.replicate_append_replicate, Nat.ofDigitChars_append,
          Nat.ofDigitChars_replicate_zero]
      · rw [List.length_singleton]
        omega
    · next hmore =>
      -- the point stands between them
      refine ⟨digits.take (exponent.toNat + 1), digits.drop (exponent.toNat + 1), 0, rfl, ?_, ?_,
        fun c hc => hdigits c (List.mem_of_mem_drop hc), ?_, ?_⟩
      · refine whole_of_head? (by simpa using hne) (fun c hc => hdigits c (List.mem_of_mem_take hc)) ?_
        rwa [List.head?_take, if_neg (by omega)]
      · rw [ne_eq, List.drop_eq_nil_iff]
        omega
      · rw [List.take_append_drop, Nat.pow_zero, Nat.one_mul]
      · rw [List.length_drop]
        omega

/-- Digits with a point put into them, or zeros put beside them, are a number. -/
theorem isUnsigned_positional {digits : List Char} (hne : digits ≠ [])
    (hdigits : ∀ c ∈ digits, c.isDigit = true) (hhead : digits.head? ≠ some '0')
    (exponent : Int) : IsUnsigned (positional digits exponent) := by
  obtain ⟨whole, fraction, k, hlaid, hwhole, hfraction, hmore, -⟩ :=
    exists_positional hne hdigits hhead exponent
  have h := isUnsigned_point hwhole hfraction hmore (.inl rfl)
  rwa [List.append_nil, ← hlaid] at h

/-- A letter, a sign and a count are a power. -/
theorem power_decimal (exponent : Int) :
    Power ('e' :: (if exponent < 0 then '-' else '+') :: decimal exponent.natAbs) := by
  refine .inr ⟨_, _, rfl, ?_, decimal_ne_nil _, fun c hc => isDigit_of_mem_decimal hc⟩
  split
  · exact .inr rfl
  · exact .inl rfl

/-- Digits with a power are a number, with a point behind the first of them or without. -/
theorem isUnsigned_scientific {digits : List Char} (hne : digits ≠ [])
    (hdigits : ∀ c ∈ digits, c.isDigit = true) (exponent : Int) :
    IsUnsigned (scientific digits exponent) := by
  have hone : ∀ {c}, c ∈ digits → Whole [c] := fun hc => whole_singleton (hdigits _ hc)
  unfold scientific
  dsimp only
  split
  · next first second rest =>
      have h := isUnsigned_point (hone (List.mem_cons_self ..)) (List.cons_ne_nil second rest)
        (fun c hc => hdigits c (List.mem_cons_of_mem first hc)) (power_decimal exponent)
      simpa using h
  · next hfew =>
      obtain ⟨c, rest, rfl⟩ := List.exists_cons_of_ne_nil hne
      cases rest with
      | nil => exact isUnsigned_whole (hone (List.mem_cons_self ..)) (power_decimal exponent)
      | cons second rest => exact absurd rfl (hfew c second rest)

/-- A finite number is written as a number of JSON, whatever its layout. -/
theorem isNumber_write (layout : FloatLayout) {f : Format} {x : Binary f} (hx : x.IsFinite) :
    IsNumber (layout.write x) := by
  cases x with
  | nan => cases hx
  | infinity negative => cases hx
  | finite negative significand exponent hcanonical =>
      rw [FloatLayout.write]
      dsimp only
      -- the sign is put in front of one of three forms
      have hunsigned : IsUnsigned (if significand = 0 then ['0', '.', '0']
          else if layout.least ≤ (shortest f significand exponent).exponent
              ∧ (shortest f significand exponent).exponent ≤ layout.greatest then
            positional (decimal (shortest f significand exponent).digits)
              (shortest f significand exponent).exponent
          else scientific (decimal (shortest f significand exponent).digits)
            (shortest f significand exponent).exponent) := by
        split
        · rfl
        · next hs =>
            have hhead := head?_decimal (digits_shortest_ne_zero hs hcanonical)
            split
            · exact isUnsigned_positional (decimal_ne_nil _)
                (fun c hc => isDigit_of_mem_decimal hc) hhead _
            · exact isUnsigned_scientific (decimal_ne_nil _)
                (fun c hc => isDigit_of_mem_decimal hc) _
      split
      · exact hunsigned
      · exact isNumber_of_isUnsigned hunsigned

/-- What is not finite is not written as a number. -/
theorem write_of_not_isFinite (layout : FloatLayout) {f : Format} {x : Binary f}
    (hx : ¬ x.IsFinite) : layout.write x = ['n', 'u', 'l', 'l'] := by
  cases x with
  | nan => rfl
  | infinity negative => rfl
  | finite => exact absurd trivial hx

/-- The word for nothing is no number. -/
theorem not_isNumber_null : ¬ IsNumber ['n', 'u', 'l', 'l'] := by
  intro h
  cases h

/-- A floating-point number is written as a number precisely if it is finite. -/
theorem isNumber_write_iff (layout : FloatLayout) {f : Format} (x : Binary f) :
    IsNumber (layout.write x) ↔ x.IsFinite := by
  refine ⟨fun h => ?_, isNumber_write layout⟩
  by_contra hx
  rw [write_of_not_isFinite layout hx] at h
  exact not_isNumber_null h

/-- A whole number is written as a number, be it negative or not. -/
theorem isNumber_signedDecimal (i : Int) : IsNumber (signedDecimal i) := by
  unfold signedDecimal
  split
  · exact isUnsigned_decimal _
  · exact isNumber_of_isUnsigned (isUnsigned_decimal _)

end Json

end Vitals
