/-
The values of JSON and what a text says of one. A value is read as the grammar of JSON
has it, whoever wrote it, and a number is the rational that its digits write, exact and
with its sign, so nothing about the reader depends on the formats that numbers are kept
in. That is what a text means; what a row of scalars is made from one is a second step.

# Why what is written is read back

A text stands for a value if a reader that has the text before it gets the value and is
left with what comes behind, provided that what comes behind does not go on with the
text (`Reads`, `Denotes`). Nothing that follows a comma, a bracket or a brace does. So scalars
are looked at one at a time, and lists and objects are put together from texts that
stand for their parts (`denotes_list`, `denotes_object`).
-/
import Mathlib.Data.List.Forall2
import Vitals.Proofs.Json.Record
import Vitals.Proofs.Json.Text

namespace Vitals.Json

open Binary Text

-- ============================================================ values

/-- A value of JSON. An object keeps the order of its members, and zero its sign. -/
inductive Value where
  | null
  | boolean (b : Bool)
  | number (negative : Bool) (magnitude : Rat)
  | text (s : String)
  | list (items : List Value)
  | object (members : List (String × Value))

namespace Value

-- =========================================================== numbers

/-- Digits, of which there has to be one. -/
def readDigits (s : List Char) : Except Fault (List Char × List Char) :=
  if s = [] then .error .truncated
  else if s.takeWhile Char.isDigit = [] then .error .malformed
  else .ok (s.takeWhile Char.isDigit, s.dropWhile Char.isDigit)

/-- Digits that do not open with a zero, unless there is nothing else. -/
def readWhole (s : List Char) : Except Fault (List Char × List Char) := do
  let (digits, s) ← readDigits s
  if digits.head? = some '0' ∧ digits ≠ ['0'] then .error .malformed else return (digits, s)

/-- The digits behind a point, if there is one. -/
def readFraction : List Char → Except Fault (List Char × List Char)
  | '.' :: s => readDigits s
  | s => .ok ([], s)

/-- The power of ten behind an `e`, if there is one. -/
def readPower : List Char → Except Fault (Int × List Char)
  | [] => .ok (0, [])
  | c :: s =>
      if c = 'e' ∨ c = 'E' then do
        let (down, s) := powerSign s
        let (digits, s) ← readDigits s
        let power := Nat.ofDigitChars 10 digits 0
        return (if down then -power else power, s)
      else .ok (0, c :: s)

/-- The size of a number. -/
def readMagnitude (s : List Char) : Except Fault (Rat × List Char) := do
  let (whole, s) ← readWhole s
  let (fraction, s) ← readFraction s
  let (power, s) ← readPower s
  return (Nat.ofDigitChars 10 (whole ++ fraction) 0 * 10 ^ (power - fraction.length), s)

/-- A number. -/
def readNumber (s : List Char) : Except Fault (Value × List Char) :=
  let signed (negative : Bool) (s : List Char) : Except Fault (Value × List Char) := do
    let (magnitude, s) ← readMagnitude s
    return (number negative magnitude, s)
  match s with
  | '-' :: s => signed true s
  | s => signed false s

-- ============================================================= texts

/-- Items with commas between them and `close` behind them, of which there has to be one;
`fuel` bounds their number. -/
def readItems {α : Type} (close : Char) (item : List Char → Except Fault (α × List Char)) :
    (fuel : Nat) → List Char → Except Fault (List α × List Char)
  | 0, _ => .error .truncated
  | fuel + 1, s => do
      let (x, s) ← item s
      match skipBlanks s with
      | [] => .error .truncated
      | c :: s =>
          if c = close then return ([x], s)
          else if c = ',' then do
            let (xs, s) ← readItems close item fuel s
            return (x :: xs, s)
          else .error .malformed

/-- Items with commas between them and `close` behind them, if there are any. -/
def readBetween {α : Type} (close : Char) (item : List Char → Except Fault (α × List Char))
    (fuel : Nat) (s : List Char) : Except Fault (List α × List Char) :=
  match skipBlanks s with
  | [] => .error .truncated
  | c :: rest => if c = close then .ok ([], rest) else readItems close item fuel s

/-- A key, its colon and a value. -/
def readMember (value : List Char → Except Fault (Value × List Char)) (s : List Char) :
    Except Fault ((String × Value) × List Char) :=
  match skipBlanks s with
  | '"' :: s => do
      let (key, s) ← readText s
      let s ← skipColon s
      let (x, s) ← value s
      return ((key, x), s)
  | [] => .error .truncated
  | _ => .error .malformed

/-- A value, and what follows it; `fuel` bounds its characters. -/
def readWithin : (fuel : Nat) → List Char → Except Fault (Value × List Char)
  | 0, _ => .error .truncated
  | fuel + 1, s =>
      match skipBlanks s with
      | [] => .error .truncated
      | 'n' :: s => do return (null, ← skipWord ['u', 'l', 'l'] s)
      | 't' :: s => do return (boolean true, ← skipWord ['r', 'u', 'e'] s)
      | 'f' :: s => do return (boolean false, ← skipWord ['a', 'l', 's', 'e'] s)
      | '"' :: s => do
          let (s, rest) ← readText s
          return (text s, rest)
      | '[' :: s => do
          let (items, s) ← readBetween ']' (readWithin fuel) fuel s
          return (list items, s)
      | '{' :: s => do
          let (members, s) ← readBetween '}' (readMember (readWithin fuel)) fuel s
          return (object members, s)
      | c :: s => readNumber (c :: s)

/-- The value of a text. -/
def ofText (s : List Char) : Except Fault Value := do
  let (value, rest) ← readWithin (s.length + 1) s
  if skipBlanks rest = [] then return value else .error .malformed

-- ==================================================== numbers read back

/-- A text that does not go on with a number: it ends, or a comma, a bracket or a brace
opens it. -/
def Apart (s : List Char) : Prop := ∀ c ∈ s.head?, c = ',' ∨ c = ']' ∨ c = '}'

theorem Apart.isDigit {s : List Char} (h : Apart s) : ∀ c ∈ s.head?, c.isDigit = false := by
  intro c hc
  rcases h c hc with rfl | rfl | rfl <;> decide

/-- A text that a reader takes for a value, whatever comes behind it apart from it. -/
def Reads {α : Type} (item : List Char → Except Fault (α × List Char)) (s : List Char) (x : α) :
    Prop :=
  ∀ rest, Apart rest → item (s ++ rest) = .ok (x, rest)

/-- Digits are read up to the first character that is none. -/
theorem readDigits_append {digits rest : List Char} (hne : digits ≠ [])
    (hdigits : ∀ c ∈ digits, c.isDigit = true) (hrest : ∀ c ∈ rest.head?, c.isDigit = false) :
    readDigits (digits ++ rest) = .ok (digits, rest) := by
  have hstop : rest.takeWhile Char.isDigit = [] ∧ rest.dropWhile Char.isDigit = rest := by
    cases rest with
    | nil => exact ⟨rfl, rfl⟩
    | cons c rest =>
        have hc := hrest c rfl
        exact ⟨List.takeWhile_cons_of_neg (by simp [hc]), List.dropWhile_cons_of_neg (by simp [hc])⟩
  rw [readDigits, List.takeWhile_append_of_pos hdigits, dropWhile_digits hdigits, hstop.1, hstop.2,
    List.append_nil, if_neg (List.append_ne_nil_of_left_ne_nil hne _), if_neg hne]

/-- A whole part is read up to the first character that is no digit. -/
theorem readWhole_append {digits rest : List Char} (h : Whole digits)
    (hrest : ∀ c ∈ rest.head?, c.isDigit = false) :
    readWhole (digits ++ rest) = .ok (digits, rest) := by
  obtain ⟨hne, hdigits, hzero⟩ := h
  have hopen : ¬ (digits.head? = some '0' ∧ digits ≠ ['0']) := by
    rintro ⟨hhead, hmore⟩
    obtain ⟨c, rfl⟩ := List.length_eq_one_iff.mp (hzero hhead)
    rw [Option.some.inj hhead] at hmore
    exact hmore rfl
  rw [readWhole, readDigits_append hne hdigits hrest]
  exact if_neg hopen

/-- A point and digits are read as a fraction. -/
theorem readFraction_point {digits rest : List Char} (hne : digits ≠ [])
    (hdigits : ∀ c ∈ digits, c.isDigit = true) (hrest : ∀ c ∈ rest.head?, c.isDigit = false) :
    readFraction ('.' :: digits ++ rest) = .ok (digits, rest) :=
  readDigits_append hne hdigits hrest

/-- There is no fraction where there is no point. -/
theorem readFraction_none {rest : List Char} (hrest : rest.head? ≠ some '.') :
    readFraction rest = .ok ([], rest) := by
  unfold readFraction
  split
  · exact absurd rfl hrest
  · rfl

/-- There is no power where a rest stands apart from the number. -/
theorem readPower_none {rest : List Char} (hrest : Apart rest) :
    readPower rest = .ok (0, rest) := by
  cases rest with
  | nil => rfl
  | cons c rest =>
      refine if_neg ?_
      rcases hrest c rfl with rfl | rfl | rfl <;> decide

/-- A signed decimal power is read as that exponent. -/
theorem readPower_decimal (exponent : Int) {rest : List Char} (hrest : Apart rest) :
    readPower ('e' :: (if exponent < 0 then '-' else '+') :: decimal exponent.natAbs ++ rest)
      = .ok (exponent, rest) := by
  have hdigits : readDigits (decimal exponent.natAbs ++ rest) = .ok (decimal exponent.natAbs, rest) :=
    readDigits_append (decimal_ne_nil _) (fun c hc => isDigit_of_mem_decimal hc) hrest.isDigit
  by_cases hneg : exponent < 0
  · rw [if_pos hneg]
    show (readDigits (decimal exponent.natAbs ++ rest) >>= _) = _
    rw [hdigits]
    show Except.ok (-((Nat.ofDigitChars 10 (decimal exponent.natAbs) 0 : Nat) : Int), rest) = _
    rw [ofDigitChars_decimal]
    congr 2
    omega
  · rw [if_neg hneg]
    show (readDigits (decimal exponent.natAbs ++ rest) >>= _) = _
    rw [hdigits]
    show Except.ok (((Nat.ofDigitChars 10 (decimal exponent.natAbs) 0 : Nat) : Int), rest) = _
    rw [ofDigitChars_decimal]
    congr 2
    omega

/-- The magnitude is put together from its whole part, its fraction and its power. -/
theorem readMagnitude_eq {s s' s'' rest whole fraction : List Char} {power : Int}
    (hwhole : readWhole s = .ok (whole, s')) (hfraction : readFraction s' = .ok (fraction, s''))
    (hpower : readPower s'' = .ok (power, rest)) :
    readMagnitude s
      = .ok (Nat.ofDigitChars 10 (whole ++ fraction) 0 * 10 ^ (power - fraction.length), rest) := by
  rw [readMagnitude, hwhole]
  show (readFraction s' >>= _) = _
  rw [hfraction]
  show (readPower s'' >>= _) = _
  rw [hpower]
  rfl

/-- The decimal text of a natural number denotes it. -/
theorem reads_decimal (n : Nat) : Reads readMagnitude (decimal n) (n : Rat) := by
  intro rest hrest
  have hpoint : rest.head? ≠ some '.' := by
    intro hdot
    rcases hrest '.' hdot with h | h | h <;> cases h
  rw [readMagnitude_eq (readWhole_append (whole_decimal n) hrest.isDigit) (readFraction_none hpoint)
    (readPower_none hrest), List.append_nil, ofDigitChars_decimal]
  simp

/-- The magnitude of digits around a point, with the power that follows. -/
theorem readMagnitude_point {whole fraction tail rest : List Char} {power : Int}
    (hwhole : Whole whole) (hne : fraction ≠ []) (hdigits : ∀ c ∈ fraction, c.isDigit = true)
    (htail : ∀ c ∈ tail.head?, c.isDigit = false) (hpower : readPower tail = .ok (power, rest)) :
    readMagnitude (whole ++ '.' :: (fraction ++ tail))
      = .ok (Nat.ofDigitChars 10 (whole ++ fraction) 0 * 10 ^ (power - fraction.length), rest) := by
  refine readMagnitude_eq (readWhole_append hwhole ?_) (readFraction_point hne hdigits htail) hpower
  rintro c ⟨⟩
  decide

/-- Wherever the point is put among the digits of a number, the number is read back. -/
theorem reads_positional {d : Decimal} (hd : d.digits ≠ 0) :
    Reads readMagnitude (positional (decimal d.digits) d.exponent) d.value := by
  intro rest hrest
  obtain ⟨whole, fraction, k, hlaid, hwhole, hne, hdigits, hdenoted, hk⟩ :=
    exists_positional (decimal_ne_nil d.digits) (fun c hc => isDigit_of_mem_decimal hc)
      (head?_decimal hd) d.exponent
  have hread := readMagnitude_point hwhole hne hdigits hrest.isDigit (readPower_none hrest)
  rw [hlaid, List.append_assoc, List.cons_append, hread, hdenoted, ofDigitChars_decimal,
    Decimal.value]
  have hpower : d.exponent + 1 - (decimal d.digits).length = k + (0 - fraction.length) := by
    omega
  rw [hpower, ten_zpow_add, zpow_natCast]
  push_cast
  congr 2
  ring

/-- So it is with a power of ten behind them. -/
theorem reads_scientific (d : Decimal) :
    Reads readMagnitude (scientific (decimal d.digits) d.exponent) d.value := by
  intro rest hrest
  have hdigits : ∀ c ∈ decimal d.digits, c.isDigit = true := fun c hc => isDigit_of_mem_decimal hc
  have hdenoted := ofDigitChars_decimal d.digits
  have hpower := readPower_decimal d.exponent hrest
  have hstop : ∀ c ∈ ('e' :: (if d.exponent < 0 then '-' else '+') :: decimal d.exponent.natAbs
      ++ rest).head?, c.isDigit = false := by
    rintro c ⟨⟩
    decide
  rw [Decimal.value]
  unfold scientific
  dsimp only
  split
  · next first second others heq =>
    -- a digit, the point, and the digits behind it
    rw [heq] at hdigits hdenoted ⊢
    have hwhole : Whole [first] := whole_singleton (hdigits first (List.mem_cons_self ..))
    have hread := readMagnitude_point hwhole (List.cons_ne_nil second others)
      (fun c hc => hdigits c (List.mem_cons_of_mem first hc)) hstop hpower
    refine Eq.trans ?_ (hread.trans ?_)
    · simp
    · rw [List.singleton_append, hdenoted]
      congr 4
      simp only [List.length_cons]
      omega
  · next hfew =>
    -- a single digit is written without a point
    obtain ⟨first, others, heq⟩ := List.exists_cons_of_ne_nil (decimal_ne_nil d.digits)
    rw [heq] at hdigits hdenoted hfew ⊢
    cases others with
    | cons second others => exact absurd rfl (hfew first second others)
    | nil =>
        have hwhole : Whole [first] := whole_singleton (hdigits first (List.mem_cons_self ..))
        have hpoint : ('e' :: (if d.exponent < 0 then '-' else '+') :: decimal d.exponent.natAbs
            ++ rest).head? ≠ some '.' := by
          rintro ⟨⟩
        have hread := readMagnitude_eq (readWhole_append hwhole hstop) (readFraction_none hpoint)
          hpower
        refine Eq.trans ?_ (hread.trans ?_)
        · simp
        · rw [List.append_nil, hdenoted]
          congr 4
          simp

-- ======================================================= texts read back

/-- A text that is read as a value, given as much fuel as it has characters. -/
def Denotes (s : List Char) (value : Value) : Prop :=
  ∀ fuel, s.length < fuel → Reads (readWithin fuel) s value

/-- What a number can open with opens nothing else. -/
theorem readWithin_of_opensNumber {c : Char} (hc : opensNumber c = true) (fuel : Nat)
    (s : List Char) : readWithin (fuel + 1) (c :: s) = readNumber (c :: s) := by
  have hother : ∀ d, opensNumber d = false → c ≠ d := by
    rintro d hd rfl
    rw [hc] at hd
    cases hd
  rw [readWithin, skipBlanks_cons (isBlank_of_opensNumber hc)]
  split
  · next heq => cases heq
  · next heq => exact absurd (List.cons.inj heq).1 (hother 'n' (by decide))
  · next heq => exact absurd (List.cons.inj heq).1 (hother 't' (by decide))
  · next heq => exact absurd (List.cons.inj heq).1 (hother 'f' (by decide))
  · next heq => exact absurd (List.cons.inj heq).1 (hother '"' (by decide))
  · next heq => exact absurd (List.cons.inj heq).1 (hother '[' (by decide))
  · next heq => exact absurd (List.cons.inj heq).1 (hother '{' (by decide))
  · next heq =>
    rw [← heq]

/-- A magnitude opens with a digit. -/
theorem exists_isDigit_of_readMagnitude {s : List Char} {r : Rat × List Char}
    (h : readMagnitude s = .ok r) : ∃ c rest, s = c :: rest ∧ c.isDigit = true := by
  cases s with
  | nil => cases h
  | cons c rest =>
      refine ⟨c, rest, rfl, ?_⟩
      by_contra hc
      have hnone : readDigits (c :: rest) = .error .malformed := by
        rw [readDigits, if_neg (List.cons_ne_nil c rest), List.takeWhile_cons_of_neg hc, if_pos rfl]
      rw [readMagnitude, readWhole, hnone] at h
      cases h

/-- A size with a sign in front of it, if it has one, denotes a number. -/
theorem denotes_number {s : List Char} {magnitude : Rat} (h : Reads readMagnitude s magnitude)
    (negative : Bool) : Denotes (if negative then '-' :: s else s) (number negative magnitude) := by
  intro fuel hfuel rest hrest
  obtain ⟨fuel, rfl⟩ : ∃ n, fuel = n + 1 := ⟨fuel - 1, by omega⟩
  have hread := h rest hrest
  cases negative with
  | true =>
      show readWithin (fuel + 1) ('-' :: (s ++ rest)) = _
      rw [readWithin_of_opensNumber rfl]
      show (readMagnitude (s ++ rest) >>= _) = _
      rw [hread]
      rfl
  | false =>
      obtain ⟨c, t, hcons, hc⟩ := exists_isDigit_of_readMagnitude hread
      show readWithin (fuel + 1) (s ++ rest) = _
      rw [hcons] at hread ⊢
      -- a magnitude opens with a digit and is not taken for a sign
      have hsign : c ≠ '-' := by
        rintro rfl
        revert hc
        decide
      rw [readWithin_of_opensNumber (by simp [opensNumber, hc]), readNumber]
      · show (readMagnitude (c :: t) >>= _) = _
        rw [hread]
        rfl
      · rintro s heq
        exact hsign (List.cons.inj heq).1

theorem denotes_null : Denotes ['n', 'u', 'l', 'l'] null := by
  intro fuel hfuel rest _
  obtain ⟨fuel, rfl⟩ := Nat.exists_eq_add_of_lt hfuel
  rfl

theorem denotes_text (t : String) : Denotes (writeText t) (text t) := by
  intro fuel hfuel rest _
  obtain ⟨fuel, rfl⟩ : ∃ n, fuel = n + 1 := ⟨fuel - 1, by omega⟩
  show (readText ((t.toList.flatMap escapedChar ++ ['"']) ++ rest) >>= _) = _
  rw [readText_writeText]
  rfl

-- =========================================================== scalars

/-- The value that a number of a format is written as. -/
def ofBinary {f : Format} : Binary f → Value
  | .finite negative significand exponent _ =>
      number negative (if significand = 0 then 0 else (shortest f significand exponent).value)
  | _ => null

/-- The value that a scalar is written as. -/
def ofScalar : (k : Kind) → k.Carrier → Value
  | .word8, n => number false (UInt8.toNat n)
  | .word32, n => number false (UInt32.toNat n)
  | .word64, n => number false (UInt64.toNat n)
  | .signed32, n => number (Int32.toInt n < 0) (Int32.toInt n).natAbs
  | .single, x => ofBinary x
  | .double, x => ofBinary x
  | .text, s => text s

/-- A written binary number denotes its value, or nothing when it is not finite. -/
theorem denotes_ofBinary (layout : FloatLayout) {f : Format} (x : Binary f) :
    Denotes (layout.write x) (ofBinary x) := by
  cases x with
  | nan => exact denotes_null
  | infinity negative => exact denotes_null
  | finite negative significand exponent hcanonical =>
      rw [FloatLayout.write, ofBinary]
      refine denotes_number ?_ negative
      split
      · intro rest hrest
        have hread := readMagnitude_point (whole_decimal 0) (decimal_ne_nil 0)
          (fun c hc => isDigit_of_mem_decimal hc) hrest.isDigit (readPower_none hrest)
        refine hread.trans ?_
        congr 2
        exact zero_mul _
      · next hs =>
        have hdigits := digits_shortest_ne_zero hs hcanonical
        dsimp only
        split
        · exact reads_positional hdigits
        · exact reads_scientific _

/-- A written scalar denotes its value. -/
theorem denotes_ofScalar (k : Kind) (x : k.Carrier) : Denotes (k.write x) (ofScalar k x) := by
  have hnatural (n : Nat) : Denotes (decimal n) (number false n) :=
    denotes_number (reads_decimal n) false
  cases k with
  | word8 => exact hnatural _
  | word32 => exact hnatural _
  | word64 => exact hnatural _
  | single => exact denotes_ofBinary singleLayout x
  | double => exact denotes_ofBinary doubleLayout x
  | text => exact denotes_text x
  | signed32 =>
      have h := denotes_number (reads_decimal (Int32.toInt x).natAbs) (Int32.toInt x < 0)
      simpa [Kind.write, signedDecimal, ofScalar] using h

/-- A whole size. -/
def whole? (q : Rat) : Option Nat := if q.den = 1 then some q.num.toNat else none

/-- The scalar of a kind that a value gives. -/
def scalar? : (k : Kind) → Value → Option k.Carrier
  | .word8, number false q =>
      (whole? q).bind fun n => if h : n < UInt8.size then some (UInt8.ofNatLT n h) else none
  | .word32, number false q =>
      (whole? q).bind fun n => if h : n < UInt32.size then some (UInt32.ofNatLT n h) else none
  | .word64, number false q =>
      (whole? q).bind fun n => if h : n < UInt64.size then some (UInt64.ofNatLT n h) else none
  | .signed32, number negative q =>
      (whole? q).bind fun n => fitSigned32? (if negative then -n else n)
  | .single, number negative q => some (nearest Binary.single negative q)
  | .double, number negative q => some (nearest Binary.double negative q)
  | .text, text s => some s
  | _, _ => none

theorem fitSigned32?_toInt (n : Int32) : fitSigned32? n.toInt = some n := by
  unfold fitSigned32?
  rw [dif_pos ⟨n.minValue_le_toInt, n.toInt_le⟩]
  simp

/-- A finite number of a format is the nearest one to the number that is written. -/
theorem exists_ofBinary {f : Format} (hf : f.Legible) {x : Binary f} (hx : x.IsFinite) :
    ∃ negative q, ofBinary x = number negative q ∧ nearest f negative q = x := by
  cases x with
  | nan => cases hx
  | infinity negative => cases hx
  | finite negative significand exponent hcanonical =>
      refine ⟨negative, _, rfl, ?_⟩
      split
      · next hs =>
        subst hs
        have hleast : exponent = f.minExponent :=
          hcanonical.2.2.2.resolve_right (Nat.not_le.mpr (Nat.pow_pos (by omega)))
        subst hleast
        rw [nearest, if_pos rfl, zero, dif_pos hcanonical]
      · next hs => exact nearest_value_shortest hf hs hcanonical negative

theorem scalar?_signed32 (n : Int32) :
    scalar? .signed32 (number (n.toInt < 0) n.toInt.natAbs) = some n := by
  have hsign : (if decide (n.toInt < 0) = true then -(n.toInt.natAbs : Int) else n.toInt.natAbs)
      = n.toInt := by
    simp only [decide_eq_true_eq]
    split <;> omega
  show fitSigned32? (if decide (n.toInt < 0) = true then -(n.toInt.natAbs : Int)
    else n.toInt.natAbs) = some n
  rw [hsign, fitSigned32?_toInt]

/-- The value of a finite scalar gives that scalar. -/
theorem scalar?_ofScalar {k : Kind} {x : k.Carrier} (hx : k.Finite x) :
    scalar? k (ofScalar k x) = some x := by
  cases k with
  | word8 => exact (dif_pos (UInt8.toNat_lt x)).trans (congrArg some (UInt8.ofNatLT_toNat x))
  | word32 => exact (dif_pos (UInt32.toNat_lt x)).trans (congrArg some (UInt32.ofNatLT_toNat x))
  | word64 => exact (dif_pos (UInt64.toNat_lt x)).trans (congrArg some (UInt64.ofNatLT_toNat x))
  | signed32 => exact scalar?_signed32 x
  | text => rfl
  | single =>
      obtain ⟨negative, q, hvalue, hnearest⟩ := exists_ofBinary legible_single hx
      rw [ofScalar, hvalue, scalar?, hnearest]
  | double =>
      obtain ⟨negative, q, hvalue, hnearest⟩ := exists_ofBinary legible_double hx
      rw [ofScalar, hvalue, scalar?, hnearest]

end Value

end Vitals.Json
