/-
The texts of JSON as its grammar has them, with blanks wherever they may stand, and what
is done with one that nobody reads.

The grammar is about texts alone. It says nothing about what a text stands for, so it has
no rule about the size of a number, and the halves of a character may stand apart in a
string.

# Why a value is passed over as a whole

Whatever comes behind a value is no part of it as long as it does not go on with a number
(`Stops`), and neither a blank nor a comma nor anything that closes does. So a value is
passed over down to its end, by induction on the grammar (`Value.skip`): the parts of a
list or an object are passed over one by one, each with what is left of the fuel, and every
part takes less of it than two for each of its characters (`loop_intercalate`).
-/
import Mathlib.Data.List.DropRight
import Mathlib.Data.List.Forall2
import Vitals.Proofs.Json.Number
import Vitals.Proofs.Json.Text

namespace Vitals.Json

-- ============================================================ blanks

/-- Blanks, or nothing. -/
def Blanks (s : List Char) : Prop := ∀ c ∈ s, isBlank c = true

/-- A text with blanks around it. -/
def Spaced (t s : List Char) : Prop :=
  ∃ before after, Blanks before ∧ Blanks after ∧ s = before ++ t ++ after

theorem spaced_self (t : List Char) : Spaced t t := by
  refine ⟨[], [], ?_, ?_, ?_⟩ <;> simp [Blanks]

/-- Blanks make a text no shorter. -/
theorem Spaced.length_le {t s : List Char} (h : Spaced t s) : t.length ≤ s.length := by
  obtain ⟨before, after, -, -, rfl⟩ := h
  simp only [List.length_append]
  omega

theorem skipBlanks_skipBlanks (s : List Char) : skipBlanks (skipBlanks s) = skipBlanks s :=
  List.dropWhile_idempotent ..

-- ============================================================== ends

/-- A text that does not go on with a number. -/
def Stops (s : List Char) : Prop :=
  ∀ c ∈ s.head?, c.isDigit = false ∧ c ≠ '.' ∧ c ≠ 'e' ∧ c ≠ 'E'

theorem Stops.isDigit {s : List Char} (h : Stops s) : ∀ c ∈ s.head?, c.isDigit = false :=
  fun c hc => (h c hc).1

/-- Nor does a point or the letter of a power. -/
theorem Stops.head? {s : List Char} (h : Stops s) {c : Char} (hc : c = '.' ∨ c = 'e' ∨ c = 'E') :
    s.head? ≠ some c := by
  intro hhead
  obtain ⟨-, hpoint, hsmall, hlarge⟩ := h c hhead
  rcases hc with hc | hc | hc
  · exact hpoint hc
  · exact hsmall hc
  · exact hlarge hc

/-- Blanks do not go on with a number. -/
theorem Stops.blanks {s : List Char} (h : Stops s) {blanks : List Char} (hblanks : Blanks blanks) :
    Stops (blanks ++ s) := by
  cases blanks with
  | nil => exact h
  | cons c blanks =>
      intro d hd
      cases hd
      have hc := hblanks c (List.mem_cons_self ..)
      simp only [isBlank, Bool.or_eq_true, beq_iff_eq] at hc
      rcases hc with ((rfl | rfl) | rfl) | rfl <;> decide

/-- What a part of a list or an object ends before. -/
def Closing (c : Char) : Prop := c = ',' ∨ c = ']' ∨ c = '}'

theorem Closing.isBlank {c : Char} (hc : Closing c) : isBlank c = false := by
  rcases hc with rfl | rfl | rfl <;> decide

/-- A value ends in front of what closes it. -/
theorem Closing.stops {c : Char} (hc : Closing c) (s : List Char) : Stops (c :: s) := by
  intro d hd
  cases hd
  rcases hc with rfl | rfl | rfl <;> decide

/-- Where no digit stands, none is passed over. -/
theorem dropWhile_isDigit {s : List Char} (h : ∀ c ∈ s.head?, c.isDigit = false) :
    s.dropWhile Char.isDigit = s := by
  cases s with
  | nil => rfl
  | cons c s => exact List.dropWhile_cons_of_neg (by simp [h c rfl])

-- =========================================================== grammar

namespace Grammar

/-- The point of a number and the digits behind it, if there is one. -/
inductive Fraction : List Char → Prop
  | none : Fraction []
  | point {digits : List Char} (ne_nil : digits ≠ []) (isDigit : ∀ c ∈ digits, c.isDigit = true) :
      Fraction ('.' :: digits)

/-- The power of ten of a number, if it has one. -/
inductive Power : List Char → Prop
  | none : Power []
  | signed {e : Char} {sign digits : List Char} (letter : e = 'e' ∨ e = 'E')
      (sign_cases : sign = [] ∨ sign = ['+'] ∨ sign = ['-']) (ne_nil : digits ≠ [])
      (isDigit : ∀ c ∈ digits, c.isDigit = true) : Power (e :: (sign ++ digits))

/-- A number. -/
inductive Number : List Char → Prop
  | parts {whole fraction power : List Char} (negative : Bool) (isWhole : Whole whole)
      (isFraction : Fraction fraction) (isPower : Power power) :
      Number ((if negative then ['-'] else []) ++ (whole ++ (fraction ++ power)))

/-- The letters that stand behind a backslash, other than that of an escape by number. -/
def letters : List Char := ['"', '\\', '/', 'b', 'f', 'n', 'r', 't']

/-- The digits of an escape by number. -/
def hexDigits : List Char := "0123456789abcdefABCDEF".toList

/-- What stands between the quotes of a string. -/
inductive Body : List Char → Prop
  | nil : Body []
  | plain {c : Char} {s : List Char} (quote : c ≠ '"') (backslash : c ≠ '\\')
      (control : 0x20 ≤ c.toNat) (rest : Body s) : Body (c :: s)
  | letter {c : Char} {s : List Char} (mem : c ∈ letters) (rest : Body s) : Body ('\\' :: c :: s)
  | number {a b c d : Char} {s : List Char} (mem : ∀ x ∈ [a, b, c, d], x ∈ hexDigits)
      (rest : Body s) : Body ('\\' :: 'u' :: a :: b :: c :: d :: s)

/-- A list of some items, with commas between them. -/
def Listed (items : List (List Char)) (s : List Char) : Prop :=
  ∃ blanks texts, Blanks blanks ∧ List.Forall₂ Spaced items texts
    ∧ s = '[' :: (blanks ++ ([','].intercalate texts ++ [']']))

/-- A key and a value, with a colon between them. -/
def Member (member : List Char × List Char) (s : List Char) : Prop :=
  ∃ key value, Spaced member.1 key ∧ Spaced member.2 value ∧ s = key ++ ':' :: value

/-- An object of some members, with commas between them. -/
def Object (members : List (List Char × List Char)) (s : List Char) : Prop :=
  ∃ blanks texts, Blanks blanks ∧ List.Forall₂ Member members texts
    ∧ s = '{' :: (blanks ++ ([','].intercalate texts ++ ['}']))

/-- A value of JSON, without blanks around it. -/
inductive Value : List Char → Prop
  | null : Value ['n', 'u', 'l', 'l']
  | true : Value ['t', 'r', 'u', 'e']
  | false : Value ['f', 'a', 'l', 's', 'e']
  | number {s : List Char} (isNumber : Number s) : Value s
  | text {s : List Char} (isBody : Body s) : Value ('"' :: (s ++ ['"']))
  | list {items : List (List Char)} {s : List Char} (values : ∀ item ∈ items, Value item)
      (listed : Listed items s) : Value s
  | object {members : List (List Char × List Char)} {s : List Char}
      (keys : ∀ member ∈ members, ∃ key, Body key ∧ member.1 = '"' :: (key ++ ['"']))
      (values : ∀ member ∈ members, Value member.2) (isObject : Object members s) : Value s

-- =================================================== numbers and texts

/-- Without a point there is no fraction. -/
theorem skipBehindWhole_of_head? {s : List Char} (h : s.head? ≠ some '.') :
    skipBehindWhole s = skipTail s := by
  unfold skipBehindWhole
  split
  · exact absurd rfl h
  · exact absurd rfl h
  · rfl

/-- Without its letter there is no power. -/
theorem skipTail_of_head? {s : List Char} (hsmall : s.head? ≠ some 'e')
    (hlarge : s.head? ≠ some 'E') : skipTail s = .ok s := by
  unfold skipTail
  split
  · exact absurd rfl hsmall
  · exact absurd rfl hlarge
  · rfl

/-- A fraction is passed over up to its power. -/
theorem Fraction.skip {fraction rest : List Char} (h : Fraction fraction)
    (hrest : ∀ c ∈ rest.head?, c.isDigit = false ∧ c ≠ '.') :
    skipBehindWhole (fraction ++ rest) = skipTail rest := by
  cases h with
  | none =>
      rw [List.nil_append, skipBehindWhole_of_head?]
      intro hpoint
      exact (hrest '.' hpoint).2 rfl
  | @point digits hne hdigits =>
      obtain ⟨d, digits, rfl⟩ := List.exists_cons_of_ne_nil hne
      show (if d.isDigit then skipTail ((digits ++ rest).dropWhile Char.isDigit)
        else .error .malformed) = _
      rw [if_pos (hdigits d (List.mem_cons_self ..)),
        dropWhile_digits fun c hc => hdigits c (List.mem_cons_of_mem d hc),
        dropWhile_isDigit fun c hc => (hrest c hc).1]

/-- What goes on with a power of ten, or stops, does not go on with digits or a point. -/
theorem Power.head? {power rest : List Char} (h : Power power) (hrest : Stops rest) :
    ∀ c ∈ (power ++ rest).head?, c.isDigit = false ∧ c ≠ '.' := by
  intro c hc
  cases h with
  | none => exact ⟨(hrest c hc).1, (hrest c hc).2.1⟩
  | signed hletter =>
      cases hc
      rcases hletter with rfl | rfl <;> decide

/-- A power without a sign has none to take off. -/
theorem powerSign_cons {c : Char} (hplus : c ≠ '+') (hminus : c ≠ '-') (s : List Char) :
    powerSign (c :: s) = (false, c :: s) := by
  rw [powerSign]
  · intro t heq
    exact hplus (List.cons.inj heq).1
  · intro t heq
    exact hminus (List.cons.inj heq).1

/-- A sign is taken off a power, and its digits are left. -/
theorem powerSign_signed {sign digits : List Char}
    (hsign : sign = [] ∨ sign = ['+'] ∨ sign = ['-']) (hne : digits ≠ [])
    (hdigits : ∀ c ∈ digits, c.isDigit = true) (rest : List Char) :
    (powerSign (sign ++ digits ++ rest)).2 = digits ++ rest := by
  rcases hsign with rfl | rfl | rfl
  · obtain ⟨d, digits, rfl⟩ := List.exists_cons_of_ne_nil hne
    have hd := hdigits d (List.mem_cons_self ..)
    rw [List.nil_append, List.cons_append, powerSign_cons]
    · intro heq
      rw [heq] at hd
      cases hd
    · intro heq
      rw [heq] at hd
      cases hd
  · rfl
  · rfl

/-- A power is passed over where a value ends behind it. -/
theorem Power.skip {power rest : List Char} (h : Power power) (hrest : Stops rest) :
    skipTail (power ++ rest) = .ok rest := by
  cases h with
  | none =>
      exact skipTail_of_head? (hrest.head? (.inr (.inl rfl))) (hrest.head? (.inr (.inr rfl)))
  | @signed e sign digits hletter hsign hne hdigits =>
      have htail : skipTail ((e :: (sign ++ digits)) ++ rest)
          = skipPower (sign ++ digits ++ rest) := by
        rcases hletter with rfl | rfl <;> rfl
      rw [htail, skipPower, powerSign_signed hsign hne hdigits]
      obtain ⟨d, digits, rfl⟩ := List.exists_cons_of_ne_nil hne
      rw [List.cons_append]
      dsimp only
      rw [if_pos (hdigits d (List.mem_cons_self ..)),
        dropWhile_digits fun c hc => hdigits c (List.mem_cons_of_mem d hc),
        dropWhile_isDigit hrest.isDigit]

/-- A number opens with a digit or a sign. -/
theorem Number.opens {s : List Char} (h : Number s) :
    ∃ c t, s = c :: t ∧ opensNumber c = true := by
  obtain ⟨negative, hwhole, -, -⟩ := h
  cases negative with
  | true => exact ⟨'-', _, rfl, rfl⟩
  | false =>
      obtain ⟨c, whole, rfl⟩ := List.exists_cons_of_ne_nil hwhole.1
      refine ⟨c, _, rfl, ?_⟩
      simp [opensNumber, hwhole.2.1 c (List.mem_cons_self ..)]

/-- A number is passed over where a value ends behind it. -/
theorem Number.skip {s rest : List Char} (h : Number s) (hrest : Stops rest) :
    skipNumber (s ++ rest) = .ok rest := by
  obtain @⟨whole, fraction, power, negative, hwhole, hfraction, hpower⟩ := h
  have hunsigned : skipUnsigned (whole ++ (fraction ++ (power ++ rest))) = .ok rest := by
    have hstop : ∀ c ∈ (fraction ++ (power ++ rest)).head?, c.isDigit = false := by
      intro c hc
      cases hfraction with
      | none => exact (hpower.head? hrest c hc).1
      | point =>
          cases hc
          decide
    rw [skipUnsigned_append hwhole hstop, hfraction.skip (hpower.head? hrest), hpower.skip hrest]
  cases negative with
  | true =>
      simp only [if_true, List.cons_append, List.nil_append, List.append_assoc]
      exact hunsigned
  | false =>
      simp only [Bool.false_eq_true, if_false, List.nil_append, List.append_assoc]
      obtain ⟨c, whole, rfl⟩ := List.exists_cons_of_ne_nil hwhole.1
      rw [List.cons_append, skipNumber]
      · exact hunsigned
      · intro t heq
        have hc := hwhole.2.1 c (List.mem_cons_self ..)
        rw [(List.cons.inj heq).1] at hc
        cases hc

/-- What stands in front of the digits of a power is a sign or nothing. -/
theorem exists_powerSign (s : List Char) :
    ∃ sign, (sign = [] ∨ sign = ['+'] ∨ sign = ['-']) ∧ s = sign ++ (powerSign s).2 := by
  unfold powerSign
  split
  · exact ⟨['+'], .inr (.inl rfl), rfl⟩
  · exact ⟨['-'], .inr (.inr rfl), rfl⟩
  · exact ⟨[], .inl rfl, rfl⟩

/-- What is passed over as a power behind its letter is one. -/
theorem power_of_skipPower {e : Char} (he : e = 'e' ∨ e = 'E') {s : List Char}
    (h : skipPower s = .ok []) : Power (e :: s) := by
  obtain ⟨sign, hsign, hs⟩ := exists_powerSign s
  unfold skipPower at h
  split at h
  · next d digits hdigits =>
      split at h
      · next hd =>
          have hall := List.dropWhile_eq_nil_iff.mp (Except.ok.inj h)
          rw [hs, hdigits]
          exact .signed he hsign (List.cons_ne_nil d digits) (List.forall_mem_cons.mpr ⟨hd, hall⟩)
      · cases h
  · cases h

/-- What is passed over behind a fraction is a power. -/
theorem power_of_skipTail {s : List Char} (h : skipTail s = .ok []) : Power s := by
  unfold skipTail at h
  split at h
  · exact power_of_skipPower (.inl rfl) h
  · exact power_of_skipPower (.inr rfl) h
  · cases h
    exact .none

/-- What is passed over behind a whole part is a fraction and a power. -/
theorem exists_of_skipBehindWhole {s : List Char} (h : skipBehindWhole s = .ok []) :
    ∃ fraction power, s = fraction ++ power ∧ Fraction fraction ∧ Power power := by
  unfold skipBehindWhole at h
  split at h
  · next d s =>
      split at h
      · next hd =>
          refine ⟨'.' :: d :: s.takeWhile Char.isDigit, s.dropWhile Char.isDigit, ?_,
            .point (List.cons_ne_nil _ _) ?_, power_of_skipTail h⟩
          · simp only [List.cons_append, List.takeWhile_append_dropWhile]
          · exact List.forall_mem_cons.mpr ⟨hd, fun c hc => List.mem_takeWhile_imp hc⟩
      · cases h
  · cases h
  · exact ⟨[], s, rfl, .none, power_of_skipTail h⟩

/-- A digit that a number cannot open with: none at all, or a zero with digits behind it. -/
def OpensWrong (c : Char) (s : List Char) : Prop :=
  (!c.isDigit) = true ∨ (c = '0' ∧ (s.head?.map Char.isDigit).getD false = true)

instance (c : Char) (s : List Char) : Decidable (OpensWrong c s) :=
  inferInstanceAs (Decidable (_ ∨ _))

theorem skipUnsigned_cons (c : Char) (s : List Char) :
    skipUnsigned (c :: s)
      = if OpensWrong c s then .error .malformed
        else skipBehindWhole (s.dropWhile Char.isDigit) := rfl

/-- What is passed over as a number opens with a whole part. -/
theorem exists_of_skipUnsigned {s : List Char} (h : skipUnsigned s = .ok []) :
    ∃ whole rest, s = whole ++ rest ∧ Whole whole ∧ skipBehindWhole rest = .ok [] := by
  cases s with
  | nil => cases h
  | cons c s =>
      rw [skipUnsigned_cons] at h
      split at h
      · cases h
      · next hopens =>
          obtain ⟨hc, hzero⟩ := not_or.mp hopens
          have hdigits : ∀ d ∈ c :: s.takeWhile Char.isDigit, d.isDigit = true :=
            List.forall_mem_cons.mpr ⟨by simpa using hc, fun d hd => List.mem_takeWhile_imp hd⟩
          refine ⟨c :: s.takeWhile Char.isDigit, s.dropWhile Char.isDigit, ?_, ?_, h⟩
          · rw [List.cons_append, List.takeWhile_append_dropWhile]
          · refine ⟨List.cons_ne_nil _ _, hdigits, ?_⟩
            intro hhead
            cases s with
            | nil => rfl
            | cons d s =>
                have hd : ¬ d.isDigit = true := fun hd => hzero ⟨Option.some.inj hhead, hd⟩
                rw [List.takeWhile_cons_of_neg hd]
                rfl

/-- A text is passed over as a number only if it is one. -/
theorem isNumber_iff {s : List Char} : IsNumber s ↔ Number s := by
  constructor
  · intro h
    have hunsigned : ∀ {s} (negative : Bool), skipUnsigned s = .ok [] →
        Number ((if negative then ['-'] else []) ++ s) := by
      intro s negative h
      obtain ⟨whole, rest, rfl, hwhole, hrest⟩ := exists_of_skipUnsigned h
      obtain ⟨fraction, power, rfl, hfraction, hpower⟩ := exists_of_skipBehindWhole hrest
      exact .parts negative hwhole hfraction hpower
    unfold IsNumber skipNumber at h
    split at h
    · exact hunsigned true h
    · exact hunsigned false h
  · intro h
    have hskip := @Number.skip s [] h nofun
    rwa [List.append_nil] at hskip

/-- An escape of one letter is passed over. -/
theorem skipEscape_letter {c : Char} (hc : c ∈ letters) (s : List Char) :
    skipEscape (c :: s) = .ok s := by
  simp only [letters, List.mem_cons, List.not_mem_nil, or_false] at hc
  rcases hc with rfl | rfl | rfl | rfl | rfl | rfl | rfl | rfl <;> rfl

/-- An escape by a number is passed over if it has its four digits. -/
theorem skipEscape_number {a b c d : Char} (h : ∀ x ∈ [a, b, c, d], x ∈ hexDigits)
    (s : List Char) : skipEscape ('u' :: a :: b :: c :: d :: s) = .ok s := by
  have hall : hexDigits.all (fun x => (hexValue? x).isSome) = true := by decide
  have hvalue : ∀ x ∈ [a, b, c, d], ∃ n, hexValue? x = some n :=
    fun x hx => Option.isSome_iff_exists.mp (List.all_eq_true.mp hall x (h x hx))
  obtain ⟨i, hi⟩ := hvalue a (by simp)
  obtain ⟨j, hj⟩ := hvalue b (by simp)
  obtain ⟨k, hk⟩ := hvalue c (by simp)
  obtain ⟨l, hl⟩ := hvalue d (by simp)
  rw [skipEscape, readUnit_eq hi hj hk hl]
  rfl

/-- The characters of a string are passed over up to the quote that closes it. -/
theorem Body.skip {s : List Char} (h : Body s) (rest : List Char) {fuel : Nat}
    (hfuel : s.length < fuel) : skipChars fuel (s ++ '"' :: rest) = .ok rest := by
  induction h generalizing fuel with
  | nil =>
      obtain ⟨fuel, rfl⟩ : ∃ n, fuel = n + 1 := ⟨fuel - 1, by omega⟩
      rfl
  | plain hquote hbackslash hcontrol hbody ih =>
      rw [List.length_cons] at hfuel
      obtain ⟨fuel, rfl⟩ : ∃ n, fuel = n + 1 := ⟨fuel - 1, by omega⟩
      rw [List.cons_append, skipChars, if_neg (by omega), ih (by omega)]
      · exact hquote
      · exact hbackslash
  | letter hmem hbody ih =>
      simp only [List.length_cons] at hfuel
      obtain ⟨fuel, rfl⟩ : ∃ n, fuel = n + 1 := ⟨fuel - 1, by omega⟩
      rw [List.cons_append, List.cons_append, skipChars, skipEscape_letter hmem]
      exact ih (by omega)
  | number hmem hbody ih =>
      simp only [List.length_cons] at hfuel
      obtain ⟨fuel, rfl⟩ : ∃ n, fuel = n + 1 := ⟨fuel - 1, by omega⟩
      simp only [List.cons_append]
      rw [skipChars, skipEscape_number hmem]
      exact ih (by omega)

/-- So is a string behind the quote that opens it. -/
theorem Body.skipText {s : List Char} (h : Body s) (rest : List Char) :
    skipText (s ++ '"' :: rest) = .ok rest := by
  refine h.skip rest ?_
  rw [List.length_append]
  omega

/-- Every letter that is read as an escape is one. -/
theorem mem_letters {c x : Char} (h : letterEscape? c = some x) : c ∈ letters := by
  unfold letterEscape? at h
  split at h
  case h_9 => cases h
  all_goals decide

theorem toNat_lt_of_le {c d : Char} (h : c ≤ d) {n : Nat} (hd : d.toNat < n) : c.toNat < n :=
  Nat.lt_of_le_of_lt (UInt32.le_iff_toNat_le.mp h) hd

/-- Every character with a value is a digit of an escape. -/
theorem mem_hexDigits {c : Char} {n : Nat} (h : hexValue? c = some n) : c ∈ hexDigits := by
  have hcode : c.toNat < 128 := by
    unfold hexValue? at h
    split at h
    · next hdigit =>
        simp only [Char.isDigit, Bool.and_eq_true, decide_eq_true_eq] at hdigit
        exact toNat_lt_of_le hdigit.2 (by decide)
    · split at h
      · next hsmall => exact toNat_lt_of_le hsmall.2 (by decide)
      · split at h
        · next hlarge => exact toNat_lt_of_le hlarge.2 (by decide)
        · cases h
  have hall : ∀ i : Fin 128, (hexValue? (Char.ofNat i)).isSome = true →
      Char.ofNat i ∈ hexDigits := by decide
  have hc := hall ⟨c.toNat, hcode⟩
  rw [Char.ofNat_toNat, h] at hc
  exact hc rfl

/-- An escape that is read as a unit may stand in a string. -/
theorem Body.number_of_isCodeUnit {digits : List Char} {unit : Nat} (hunit : IsCodeUnit digits unit)
    {s : List Char} (h : Body s) : Body ('\\' :: 'u' :: (digits ++ s)) := by
  obtain ⟨a, b, c, d, i, j, k, l, rfl, ha, hb, hc, hd, -⟩ := hunit
  refine .number ?_ h
  simp [mem_hexDigits ha, mem_hexDigits hb, mem_hexDigits hc, mem_hexDigits hd]

/-- A spelling of some characters is what may stand in a string. -/
theorem body_of_spells {cs s : List Char} (h : Spells cs s) : Body s := by
  induction h with
  | nil => exact .nil
  | plain hquote hbackslash hcontrol _ ih => exact .plain hquote hbackslash hcontrol ih
  | escape hescapes _ ih =>
      cases hescapes with
      | letter hstands => exact .letter (mem_letters hstands) ih
      | number hunit => exact ih.number_of_isCodeUnit hunit
      | halves hhigh _ hlow =>
          rw [List.cons_append, List.append_assoc]
          exact (ih.number_of_isCodeUnit hlow).number_of_isCodeUnit hhigh

-- ============================================================= values

/-- What can open a number opens nothing else. -/
theorem skipWithin_of_opensNumber {c : Char} (hc : opensNumber c = true) (fuel : Nat)
    (s : List Char) : skipWithin (fuel + 1) (c :: s) = skipNumber (c :: s) := by
  have hother : ∀ d, opensNumber d = false → c ≠ d := by
    intro d hd heq
    rw [heq, hd] at hc
    cases hc
  rw [skipWithin, skipBlanks_cons (isBlank_of_opensNumber hc)]
  split
  · next heq => cases heq
  · next heq => exact absurd (List.cons.inj heq).1 (hother 'n' (by decide))
  · next heq => exact absurd (List.cons.inj heq).1 (hother 't' (by decide))
  · next heq => exact absurd (List.cons.inj heq).1 (hother 'f' (by decide))
  · next heq => exact absurd (List.cons.inj heq).1 (hother '"' (by decide))
  · next heq => exact absurd (List.cons.inj heq).1 (hother '[' (by decide))
  · next heq => exact absurd (List.cons.inj heq).1 (hother '{' (by decide))
  · next heq =>
      rw [← heq, ← (List.cons.inj heq).1, if_pos (by simpa [opensNumber] using hc)]

/-- Blanks in front of a value make no difference to passing over it. -/
theorem skipWithin_skipBlanks (fuel : Nat) (s : List Char) :
    skipWithin fuel (skipBlanks s) = skipWithin fuel s := by
  cases fuel with
  | zero => rfl
  | succ fuel => simp only [skipWithin, skipBlanks_skipBlanks]

/-- A text that is passed over as a whole, blanks behind it apart, given two of the fuel for
each of its characters. -/
def Skips (part : Nat → List Char → Except Fault (List Char)) (s : List Char) : Prop :=
  ∀ fuel rest, 2 * s.length ≤ fuel → Stops rest →
    ∃ r, part fuel (s ++ rest) = .ok r ∧ skipBlanks r = skipBlanks rest

/-- What is passed over by itself is passed over with blanks around it. -/
theorem Skips.spaced {t s : List Char}
    (h : ∀ fuel rest, 2 * t.length ≤ fuel → Stops rest → skipWithin fuel (t ++ rest) = .ok rest)
    (hs : Spaced t s) : Skips skipWithin s := by
  intro fuel rest hfuel hrest
  have hlen := hs.length_le
  obtain ⟨before, after, hbefore, hafter, rfl⟩ := hs
  refine ⟨after ++ rest, ?_, skipBlanks_append hafter rest⟩
  rw [← skipWithin_skipBlanks, List.append_assoc, List.append_assoc, skipBlanks_append hbefore,
    skipWithin_skipBlanks]
  exact h fuel (after ++ rest) (by omega) (hrest.blanks hafter)

/-- Parts with commas between them are passed over one by one, down to what closes them. -/
theorem loop_intercalate {loop part : Nat → List Char → Except Fault (List Char)} {close : Char}
    (hclose : Closing close)
    (hlast : ∀ {fuel s r rest}, part fuel s = .ok r → skipBlanks r = close :: rest →
      loop (fuel + 1) s = .ok rest)
    (hcomma : ∀ {fuel s r more}, part fuel s = .ok r → skipBlanks r = ',' :: more →
      loop (fuel + 1) s = loop fuel more)
    {texts : List (List Char)} (hne : texts ≠ []) (hparts : ∀ t ∈ texts, Skips part t)
    {fuel : Nat} (hfuel : 2 * ([','].intercalate texts).length + 1 ≤ fuel) (rest : List Char) :
    loop fuel ([','].intercalate texts ++ close :: rest) = .ok rest := by
  induction texts generalizing fuel with
  | nil => exact absurd rfl hne
  | cons text texts ih =>
      obtain ⟨fuel, rfl⟩ : ∃ n, fuel = n + 1 := ⟨fuel - 1, by omega⟩
      have hpart := hparts text (List.mem_cons_self ..)
      -- the part before the closing mark ends the loop, any other goes on behind a comma
      cases texts with
      | nil =>
          rw [List.intercalate_singleton] at hfuel ⊢
          obtain ⟨r, hr, hblanks⟩ := hpart fuel (close :: rest) (by omega) (hclose.stops rest)
          exact hlast hr (hblanks.trans (skipBlanks_cons hclose.isBlank rest))
      | cons second texts =>
          rw [List.intercalate_cons_cons] at hfuel ⊢
          simp only [List.length_append, List.length_singleton] at hfuel
          rw [List.append_assoc, List.append_assoc, List.singleton_append]
          obtain ⟨r, hr, hblanks⟩ := hpart fuel
            (',' :: ([','].intercalate (second :: texts) ++ close :: rest)) (by omega)
            ((show Closing ',' from .inl rfl).stops _)
          rw [hcomma hr (hblanks.trans (skipBlanks_cons (by decide) _))]
          exact ih (List.cons_ne_nil second texts)
            (fun t ht => hparts t (List.mem_cons_of_mem text ht)) (by omega)

/-- Items are passed over one by one, with a comma between any two. -/
theorem skipItems_intercalate {texts : List (List Char)} (hne : texts ≠ [])
    (hparts : ∀ t ∈ texts, Skips skipWithin t) {fuel : Nat}
    (hfuel : 2 * ([','].intercalate texts).length + 1 ≤ fuel) (rest : List Char) :
    skipItems fuel ([','].intercalate texts ++ ']' :: rest) = .ok rest := by
  refine loop_intercalate (.inr (.inl rfl)) ?_ ?_ hne hparts hfuel rest
  · intro fuel s r rest hr hclose
    simp only [skipItems, hr, bind, Except.bind, hclose]
  · intro fuel s r more hr hcomma
    simp only [skipItems, hr, bind, Except.bind, hcomma]

/-- A member is passed over as its key and then its value. -/
def skipMember (fuel : Nat) (s : List Char) : Except Fault (List Char) :=
  skipKey s >>= skipWithin fuel

/-- So are members. -/
theorem skipMembers_intercalate {texts : List (List Char)} (hne : texts ≠ [])
    (hparts : ∀ t ∈ texts, Skips skipMember t) {fuel : Nat}
    (hfuel : 2 * ([','].intercalate texts).length + 1 ≤ fuel) (rest : List Char) :
    skipMembers fuel ([','].intercalate texts ++ '}' :: rest) = .ok rest := by
  refine loop_intercalate (.inr (.inr rfl)) ?_ ?_ hne hparts hfuel rest
  · intro fuel s r rest hr hclose
    show (skipKey s >>= fun s => skipWithin fuel s >>= _) = _
    rw [← bind_assoc]
    show (skipMember fuel s >>= _) = _
    simp only [hr, bind, Except.bind, hclose]
  · intro fuel s r more hr hcomma
    show (skipKey s >>= fun s => skipWithin fuel s >>= _) = _
    rw [← bind_assoc]
    show (skipMember fuel s >>= _) = _
    simp only [hr, bind, Except.bind, hcomma]

theorem skipColon_cons (s : List Char) : skipColon (':' :: s) = .ok s := rfl

theorem skipColon_spaced {blanks : List Char} (h : Blanks blanks) (s : List Char) :
    skipColon (blanks ++ ':' :: s) = .ok s := by
  simp only [skipColon, skipBlanks_append h, skipBlanks_cons (show isBlank ':' = false from rfl)]

/-- A key is passed over with its colon, blanks around it or not. -/
theorem skipKey_spaced {body key : List Char} (h : Body body)
    (hkey : Spaced ('"' :: (body ++ ['"'])) key) (s : List Char) :
    skipKey (key ++ ':' :: s) = .ok s := by
  obtain ⟨before, after, hbefore, hafter, rfl⟩ := hkey
  have hskip := h.skipText (after ++ ':' :: s)
  rw [List.append_assoc, List.append_assoc, List.cons_append, skipKey,
    skipBlanks_append hbefore, skipBlanks_cons (by decide)]
  simp only [List.append_assoc, List.singleton_append, hskip, bind, Except.bind,
    skipColon_spaced hafter]

/-- A member is passed over if its key is a string and its value is passed over. -/
theorem Skips.member {member : List Char × List Char} {s : List Char}
    (hkey : ∃ body, Body body ∧ member.1 = '"' :: (body ++ ['"']))
    (hvalue : ∀ t, Spaced member.2 t → Skips skipWithin t) (h : Member member s) :
    Skips skipMember s := by
  intro fuel rest hfuel hrest
  obtain ⟨body, hbody, hmember⟩ := hkey
  obtain ⟨key, value, hspaced, hvalued, rfl⟩ := h
  rw [hmember] at hspaced
  simp only [List.length_append, List.length_cons] at hfuel
  obtain ⟨r, hr, hblanks⟩ := hvalue value hvalued fuel rest (by omega) hrest
  refine ⟨r, ?_, hblanks⟩
  rw [List.append_assoc, List.cons_append, skipMember, skipKey_spaced hbody hspaced]
  exact hr

/-- Nothing that is passed over as a value opens with a closing bracket. -/
theorem opens_skipWithin {fuel : Nat} {s r : List Char} (h : skipWithin fuel s = .ok r) :
    ∃ c t, skipBlanks s = c :: t ∧ c ≠ ']' := by
  cases fuel with
  | zero => cases h
  | succ fuel =>
      cases hskip : skipBlanks s with
      | nil =>
          simp only [skipWithin, hskip] at h
          cases h
      | cons c t =>
          refine ⟨c, t, rfl, ?_⟩
          intro hc
          simp only [skipWithin, hskip, hc] at h
          cases h

/-- Nothing that is passed over as a key opens with a closing brace. -/
theorem opens_skipKey {s r : List Char} (h : skipKey s = .ok r) :
    ∃ c t, skipBlanks s = c :: t ∧ c ≠ '}' := by
  cases hskip : skipBlanks s with
  | nil =>
      simp only [skipKey, hskip] at h
      cases h
  | cons c t =>
      refine ⟨c, t, rfl, ?_⟩
      intro hc
      simp only [skipKey, hskip, hc] at h
      cases h

/-- Blanks in front of items make no difference. -/
theorem skipItems_skipBlanks (fuel : Nat) (s : List Char) :
    skipItems fuel (skipBlanks s) = skipItems fuel s := by
  cases fuel with
  | zero => rfl
  | succ fuel => rw [skipItems, skipItems, skipWithin_skipBlanks]

/-- Nor do blanks in front of members. -/
theorem skipMembers_skipBlanks (fuel : Nat) (s : List Char) :
    skipMembers fuel (skipBlanks s) = skipMembers fuel s := by
  cases fuel with
  | zero => rfl
  | succ fuel => rw [skipMembers, skipMembers, skipKey, skipKey, skipBlanks_skipBlanks]

/-- Where items are passed over, the list does not close at once. -/
theorem opens_skipItems {fuel : Nat} {s r : List Char} (h : skipItems fuel s = .ok r) :
    ∃ c t, skipBlanks s = c :: t ∧ c ≠ ']' := by
  cases fuel with
  | zero => cases h
  | succ fuel =>
      cases hvalue : skipWithin fuel s with
      | ok r => exact opens_skipWithin hvalue
      | error e =>
          rw [skipItems, hvalue] at h
          cases h

/-- Nor does the object where members are. -/
theorem opens_skipMembers {fuel : Nat} {s r : List Char} (h : skipMembers fuel s = .ok r) :
    ∃ c t, skipBlanks s = c :: t ∧ c ≠ '}' := by
  cases fuel with
  | zero => cases h
  | succ fuel =>
      cases hkey : skipKey s with
      | ok r => exact opens_skipKey hkey
      | error e =>
          rw [skipMembers, hkey] at h
          cases h

/-- What stands in the second of two related lists is related to something in the first. -/
theorem exists_mem_of_forall₂ {α β : Type} {R : α → β → Prop} {as : List α} {bs : List β}
    (h : List.Forall₂ R as bs) {b : β} (hb : b ∈ bs) : ∃ a ∈ as, R a b := by
  induction h with
  | nil => cases hb
  | @cons a _ as _ hR _ ih =>
      rcases List.mem_cons.mp hb with rfl | hb
      · exact ⟨a, List.mem_cons_self .., hR⟩
      · obtain ⟨a', ha', hR'⟩ := ih hb
        exact ⟨a', List.mem_cons_of_mem a ha', hR'⟩

/-- A list is passed over if its items are. -/
theorem Listed.skip {items : List (List Char)} {s : List Char} (h : Listed items s)
    (hitems : ∀ item ∈ items, ∀ t, Spaced item t → Skips skipWithin t) {fuel : Nat}
    (hfuel : 2 * s.length ≤ fuel) (rest : List Char) : skipWithin fuel (s ++ rest) = .ok rest := by
  obtain ⟨blanks, texts, hblanks, htexts, rfl⟩ := h
  simp only [List.length_cons, List.length_append, List.length_nil] at hfuel
  obtain ⟨fuel, rfl⟩ : ∃ n, fuel = n + 1 := ⟨fuel - 1, by omega⟩
  have hparts : ∀ t ∈ texts, Skips skipWithin t := by
    intro t ht
    obtain ⟨item, hitem, hspaced⟩ := exists_mem_of_forall₂ htexts ht
    exact hitems item hitem t hspaced
  have hopen : isBlank '[' = false := rfl
  have hclose : isBlank ']' = false := rfl
  simp only [List.cons_append, List.append_assoc, List.nil_append, skipWithin,
    skipBlanks_cons hopen, skipBlanks_append hblanks]
  cases htexts' : texts with
  | nil => simp only [List.intercalate_nil, List.nil_append, skipBlanks_cons hclose]
  | cons text others =>
      have hne : texts ≠ [] := htexts' ▸ List.cons_ne_nil text others
      rw [← htexts']
      have hskip := skipItems_intercalate hne hparts (by omega : _ ≤ fuel) rest
      -- what opens an item is not taken for the end of the list
      obtain ⟨c, t, hopens, hc⟩ := opens_skipItems hskip
      split
      · next heq =>
          rw [hopens] at heq
          exact absurd (List.cons.inj heq).1 hc
      · rw [skipItems_skipBlanks]
        exact hskip

/-- An object is passed over if its keys and its values are. -/
theorem Object.skip {members : List (List Char × List Char)} {s : List Char}
    (h : Object members s)
    (hmembers : ∀ member ∈ members, ∀ t, Member member t → Skips skipMember t) {fuel : Nat}
    (hfuel : 2 * s.length ≤ fuel) (rest : List Char) : skipWithin fuel (s ++ rest) = .ok rest := by
  obtain ⟨blanks, texts, hblanks, htexts, rfl⟩ := h
  simp only [List.length_cons, List.length_append, List.length_nil] at hfuel
  obtain ⟨fuel, rfl⟩ : ∃ n, fuel = n + 1 := ⟨fuel - 1, by omega⟩
  have hparts : ∀ t ∈ texts, Skips skipMember t := by
    intro t ht
    obtain ⟨member, hmember, hmembered⟩ := exists_mem_of_forall₂ htexts ht
    exact hmembers member hmember t hmembered
  have hopen : isBlank '{' = false := rfl
  have hclose : isBlank '}' = false := rfl
  simp only [List.cons_append, List.append_assoc, List.nil_append, skipWithin,
    skipBlanks_cons hopen, skipBlanks_append hblanks]
  cases htexts' : texts with
  | nil => simp only [List.intercalate_nil, List.nil_append, skipBlanks_cons hclose]
  | cons text others =>
      have hne : texts ≠ [] := htexts' ▸ List.cons_ne_nil text others
      rw [← htexts']
      have hskip := skipMembers_intercalate hne hparts (by omega : _ ≤ fuel) rest
      -- what opens a member is not taken for the end of the object
      obtain ⟨c, t, hopens, hc⟩ := opens_skipMembers hskip
      split
      · next heq =>
          rw [hopens] at heq
          exact absurd (List.cons.inj heq).1 hc
      · rw [skipMembers_skipBlanks]
        exact hskip

/-- A value is passed over down to its end, and what follows it is left alone. -/
theorem Value.skip {s : List Char} (h : Value s) {fuel : Nat} {rest : List Char}
    (hfuel : 2 * s.length ≤ fuel) (hrest : Stops rest) :
    skipWithin fuel (s ++ rest) = .ok rest := by
  induction h generalizing fuel rest with
  | @number s h =>
      obtain ⟨c, t, rfl, hc⟩ := h.opens
      rw [List.length_cons] at hfuel
      obtain ⟨fuel, rfl⟩ : ∃ n, fuel = n + 1 := ⟨fuel - 1, by omega⟩
      rw [List.cons_append, skipWithin_of_opensNumber hc, ← List.cons_append]
      exact h.skip hrest
  | list _ h ih =>
      exact h.skip (fun item hitem t ht => .spaced (fun _ _ => ih item hitem) ht) hfuel rest
  | object hkeys _ h ih =>
      refine h.skip (fun member hmember t ht => .member (hkeys member hmember) ?_ ht) hfuel rest
      exact fun t ht => .spaced (fun _ _ => ih member hmember) ht
  | text h =>
      rw [List.length_cons] at hfuel
      obtain ⟨fuel, rfl⟩ : ∃ n, fuel = n + 1 := ⟨fuel - 1, by omega⟩
      rw [List.cons_append, List.append_assoc]
      exact h.skipText rest
  | _ =>
      simp only [List.length_cons] at hfuel
      obtain ⟨fuel, rfl⟩ : ∃ n, fuel = n + 1 := ⟨fuel - 1, by omega⟩
      rfl

/-- A value with blanks around it is passed over as well. -/
theorem Value.skipValue {value s : List Char} (h : Value value) (hs : Spaced value s)
    {rest : List Char} (hrest : Stops rest) :
    ∃ r, skipValue (s ++ rest) = .ok r ∧ skipBlanks r = skipBlanks rest := by
  refine Skips.spaced (fun _ _ => h.skip) hs _ rest ?_ hrest
  rw [List.length_append]
  omega

end Grammar

end Vitals.Json
