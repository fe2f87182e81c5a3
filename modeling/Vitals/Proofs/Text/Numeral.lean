/-
What a numeral is, and what is read of one.

A numeral without a minus sign is a run of digits behind at most one plus sign
(`IsNumeral`), and its value is that of its digits, however many zeros they open with. The
readers accept these texts and no others, as long as the value fits the width that is
asked for. A text of digits alone (`IsDigits`) is a numeral of either kind, with a sign or
without, and the digits that are written for a number are one of the texts that denote it.
-/
import Vitals.Proofs.Json.Number
import Vitals.Text.Blank

namespace Vitals.Text

-- ============================================================ digits

/-- A run of digits, one at least, and its value. -/
structure IsDigits (s : List Char) (n : Nat) : Prop where
  ne_nil : s ≠ []
  digits : ∀ c ∈ s, c.isDigit = true
  value : Nat.ofDigitChars 10 s 0 = n

/-- A run of digits behind at most one plus sign, and its value. -/
def IsNumeral (s : List Char) (n : Nat) : Prop :=
  IsDigits s n ∨ ∃ digits, s = '+' :: digits ∧ IsDigits digits n

/-- The digits of a text are read as the number they stand for. -/
theorem digits?_eq_some_iff {s : List Char} {n : Nat} : digits? s = some n ↔ IsDigits s n := by
  unfold digits?
  split
  · next h =>
      obtain ⟨hne, hall⟩ := h
      rw [List.all_eq_true] at hall
      constructor
      · intro hvalue
        exact ⟨hne, hall, Option.some.inj hvalue⟩
      · rintro ⟨-, -, hvalue⟩
        rw [hvalue]
  · next h =>
      refine iff_of_false nofun ?_
      rintro ⟨hne, hall, -⟩
      exact h ⟨hne, List.all_eq_true.mpr hall⟩

theorem isDigits_decimal (n : Nat) : IsDigits (decimal n) n :=
  ⟨decimal_ne_nil n, fun _ => isDigit_of_mem_decimal, ofDigitChars_decimal n⟩

namespace IsDigits

variable {s : List Char} {n : Nat} (h : IsDigits s n)
include h

/-- A run of digits opens with no sign. -/
theorem head?_ne {c : Char} (hc : c.isDigit = false) : s.head? ≠ some c := by
  intro hhead
  have hdigit := h.digits c (List.mem_of_mem_head? hhead)
  rw [hc] at hdigit
  cases hdigit

/-- A numeral is read as its natural number. -/
theorem natural?_eq : natural? s = some n := by
  unfold natural?
  split
  · next rest => exact absurd rfl (h.head?_ne (c := '+') (by decide))
  · exact digits?_eq_some_iff.mpr h

/-- A numeral is read as its number where a sign is allowed too. -/
theorem integer?_eq : integer? s = some (n : Int) := by
  unfold integer?
  split
  · next rest => exact absurd rfl (h.head?_ne (c := '-') (by decide))
  · rw [h.natural?_eq]
    rfl

end IsDigits

theorem isBlank_of_isDigit {c : Char} (h : c.isDigit = true) : isBlank c = false := by
  have hbounds : 48 ≤ c.toNat ∧ c.toNat ≤ 57 := by
    simpa [Char.isDigit, Char.le_def, UInt32.le_iff_toNat_le] using h
  simp only [isBlank, Bool.or_eq_false_iff, Bool.and_eq_false_iff, decide_eq_false_iff_not,
    beq_eq_false_iff_ne]
  omega

-- ============================================================= words

/-- A natural number is read from its numerals and from nothing else. -/
theorem natural?_eq_some_iff {s : List Char} {n : Nat} : natural? s = some n ↔ IsNumeral s n := by
  constructor
  · intro h
    unfold natural? at h
    split at h
    · next digits => exact .inr ⟨digits, rfl, digits?_eq_some_iff.mp h⟩
    · exact .inl (digits?_eq_some_iff.mp h)
  · rintro (h | ⟨digits, rfl, h⟩)
    · exact h.natural?_eq
    · exact digits?_eq_some_iff.mpr h

namespace IsNumeral

variable {s : List Char} {n : Nat} (h : IsNumeral s n)
include h

theorem ne_nil : s ≠ [] := by
  rcases h with h | ⟨digits, rfl, -⟩
  · exact h.ne_nil
  · exact List.cons_ne_nil '+' digits

theorem not_isBlank : ∀ c ∈ s, isBlank c = false := by
  rcases h with h | ⟨digits, rfl, h⟩
  · exact fun c hc => isBlank_of_isDigit (h.digits c hc)
  · intro c hc
    rcases List.mem_cons.mp hc with rfl | hc
    · decide
    · exact isBlank_of_isDigit (h.digits c hc)

/-- A numeral has one value. -/
theorem eq_of_isNumeral {m : Nat} (h' : IsNumeral s m) : m = n :=
  Option.some.inj ((natural?_eq_some_iff.mpr h').symm.trans (natural?_eq_some_iff.mpr h))

end IsNumeral

/-- A numeral of some width is one whose value fits. -/
theorem fitted_eq_some_iff {α : Type} {size : Nat} (ofNat : (n : Nat) → n < size → α)
    {toNat : α → Nat} (hfits : ∀ a, toNat a < size) (hto : ∀ n h, toNat (ofNat n h) = n)
    (hof : ∀ a, ofNat (toNat a) (hfits a) = a) {s : List Char} {a : α} :
    ((natural? s).bind fun n => if h : n < size then some (ofNat n h) else none) = some a
      ↔ IsNumeral s (toNat a) := by
  rw [← natural?_eq_some_iff, Option.bind_eq_some_iff]
  constructor
  · intro ⟨n, hn, hfit⟩
    split at hfit
    · next h => rw [← Option.some.inj hfit, hto, hn]
    · cases hfit
  · intro hn
    exact ⟨toNat a, hn, by rw [dif_pos (hfits a), hof]⟩

/-- A 32-bit word is read from the numerals of its value. -/
theorem word32?_eq_some_iff {s : List Char} {n : UInt32} :
    word32? s = some n ↔ IsNumeral s n.toNat :=
  fitted_eq_some_iff UInt32.ofNatLT UInt32.toNat_lt_size (fun _ _ => UInt32.toNat_ofNatLT ..)
    UInt32.ofNatLT_toNat

/-- A 64-bit word is read from the numerals of its value. -/
theorem word64?_eq_some_iff {s : List Char} {n : UInt64} :
    word64? s = some n ↔ IsNumeral s n.toNat :=
  fitted_eq_some_iff UInt64.ofNatLT UInt64.toNat_lt_size (fun _ _ => UInt64.toNat_ofNatLT ..)
    UInt64.ofNatLT_toNat

/-- A text is refused as a 64-bit word when it is no numeral of one. -/
theorem word64?_eq_none_iff {s : List Char} :
    word64? s = none ↔ ¬ ∃ n < UInt64.size, IsNumeral s n := by
  rw [Option.eq_none_iff_forall_ne_some, not_exists]
  constructor
  · rintro h n ⟨hn, hs⟩
    refine h (UInt64.ofNatLT n hn) (word64?_eq_some_iff.mpr ?_)
    rwa [UInt64.toNat_ofNatLT]
  · intro h n hn
    exact h n.toNat ⟨n.toNat_lt_size, word64?_eq_some_iff.mp hn⟩

-- ===================================================== process numbers

/-- An integer fits 32 bits when it is the value of such a word. -/
theorem fitSigned32?_eq_some_iff {i : Int} {n : Int32} :
    fitSigned32? i = some n ↔ n.toInt = i := by
  unfold fitSigned32?
  split
  · next h =>
      rw [Option.some.injEq]
      constructor
      · rintro rfl
        exact Int32.toInt_ofIntLE
      · rintro rfl
        exact Int32.toInt.inj Int32.toInt_ofIntLE
  · next h =>
      refine iff_of_false nofun ?_
      rintro rfl
      exact h ⟨n.minValue_le_toInt, n.toInt_le⟩

/-- A reading fails exactly if nothing is read. -/
theorem exists_error_iff {ε α : Type} {reading : Except ε α} :
    (∃ cause, reading = .error cause) ↔ ¬ ∃ a, reading = .ok a := by
  cases reading <;> simp

/-- A reading in two steps goes through both. -/
theorem exists_of_bind_eq_ok {ε α β : Type} {x : Except ε α} {f : α → Except ε β} {b : β}
    (h : (x >>= f) = .ok b) : ∃ a, x = .ok a ∧ f a = .ok b := by
  cases x with
  | error e => cases h
  | ok a => exact ⟨a, rfl, h⟩

/-- What is written for a whole number is read back. -/
theorem integer?_signedDecimal (i : Int) : integer? (signedDecimal i) = some i := by
  unfold signedDecimal
  by_cases hi : i < 0
  · rw [if_pos hi, integer?, digits?_eq_some_iff.mpr (isDigits_decimal _)]
    show some (-(i.natAbs : Int)) = some i
    rw [Int.ofNat_natAbs_of_nonpos (Int.le_of_lt hi), Int.neg_neg]
  · rw [if_neg hi, (isDigits_decimal _).integer?_eq, Int.natAbs_of_nonneg (Int.not_lt.mp hi)]

/-- A run of digits is a numeral with a sign if its value fits. -/
theorem signed32?_eq_some_iff {s : List Char} {m : Nat} (hs : IsDigits s m) {n : Int32} :
    signed32? s = some n ↔ n.toInt = m := by
  rw [signed32?, hs.integer?_eq, Option.bind_some, fitSigned32?_eq_some_iff]

end Vitals.Text
