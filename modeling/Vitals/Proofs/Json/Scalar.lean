/-
How a scalar is read where others stand behind it, and which scalars are read back.

# Reading and passing over

A reader takes a number apart, and who passes over it does not. Both take the digits, the
point and the power of ten in the same order, so a scalar is passed over as far as it is
read (`skipWithin_of_read`), and where a value ends does not depend on who reads it.

# Where a number ends

A number has no end of its own. What is read of it does not change with what is behind it
as long as that does not go on with the number (`readNumeric_append`), so a scalar that is
read back from its own text is read back wherever it stands (`Kind.ReadsBack.spaced`).
Whole numbers and texts always are (`Kind.readsBack`). Of the others the reader rounds more
than once, so that they are has to be asked for.
-/
import Vitals.Proofs.Json.Grammar
import Vitals.Proofs.Json.Record
import Vitals.Proofs.Text.Numeral

namespace Vitals.Json

open Binary Grammar Text

-- ==================================================== runs of digits

/-- What follows does not reach into the leading digits unless it opens with one. -/
theorem takeWhile_isDigit_append (s : List Char) {rest : List Char}
    (hrest : ∀ c ∈ rest.head?, c.isDigit = false) :
    (s ++ rest).takeWhile Char.isDigit = s.takeWhile Char.isDigit := by
  have hnone : rest.takeWhile Char.isDigit = [] := by
    cases rest with
    | nil => rfl
    | cons c rest => exact List.takeWhile_cons_of_neg (by simp [hrest c rfl])
  rw [List.takeWhile_append, hnone, List.append_nil]
  split
  · next hall =>
      exact ((List.takeWhile_prefix _).eq_of_length hall).symm
  · rfl

theorem dropWhile_isDigit_append (s : List Char) {rest : List Char}
    (hrest : ∀ c ∈ rest.head?, c.isDigit = false) :
    (s ++ rest).dropWhile Char.isDigit = s.dropWhile Char.isDigit ++ rest := by
  rw [List.dropWhile_append]
  split
  · next hnil => rw [dropWhile_isDigit hrest, List.isEmpty_iff.mp hnil, List.nil_append]
  · rfl

/-- Gathering a significand is not disturbed by a rest that opens with no digit. -/
theorem gather_append (significand : Nat) (s : List Char) {rest : List Char}
    (hrest : ∀ c ∈ rest.head?, c.isDigit = false) :
    gather significand (s ++ rest)
      = ((gather significand s).1, (gather significand s).2.1,
        (gather significand s).2.2 ++ rest) := by
  induction s generalizing significand with
  | nil =>
      cases rest with
      | nil => rfl
      | cons c rest => simp [gather, hrest c rfl]
  | cons c s ih =>
      simp only [List.cons_append, gather]
      split
      · rw [ih]
      · rfl

/-- What is gathered is a run of digits in front of the rest. -/
theorem exists_gather (significand : Nat) (s : List Char) :
    ∃ digits, s = digits ++ (gather significand s).2.2
      ∧ digits.length = (gather significand s).1 ∧ ∀ c ∈ digits, c.isDigit = true := by
  induction s generalizing significand with
  | nil => exact ⟨[], rfl, rfl, by simp⟩
  | cons c s ih =>
      rw [gather]
      split
      · next hc =>
          obtain ⟨digits, hs, hlen, hdigits⟩ := ih (significand * 10 + digitValue c)
          refine ⟨c :: digits, congrArg (c :: ·) hs, congrArg (· + 1) hlen, ?_⟩
          exact List.forall_mem_cons.mpr ⟨hc.1, hdigits⟩
      · exact ⟨[], rfl, rfl, by simp⟩

/-- The digits that found no room in the significand and those that did are passed over
alike. -/
theorem dropWhile_gather (significand : Nat) (s : List Char) :
    (gather significand s).2.2.dropWhile Char.isDigit = s.dropWhile Char.isDigit := by
  obtain ⟨digits, hs, -, hdigits⟩ := exists_gather significand s
  conv_rhs => rw [hs]
  exact (dropWhile_digits hdigits _).symm

-- ================================================ reading and skipping

variable {negative : Bool} {significand : Nat} {exponent : Int} {s t : List Char}

/-- Passing over a power stops where reading it stops. -/
theorem skipPower_of_readPower {x : Binary double}
    (h : readPower negative significand exponent s = .ok (x, t)) : skipPower s = .ok t := by
  rcases hsign : powerSign s with ⟨down, digits⟩
  rw [readPower, hsign] at h
  rw [skipPower, hsign]
  cases digits with
  | nil => cases h
  | cons c digits =>
      dsimp only at h ⊢
      by_cases hc : c.isDigit = true
      · rw [if_neg (by simp [hc])] at h
        rw [if_pos hc]
        rw [List.dropWhile_cons_of_pos hc] at h
        split at h
        · obtain ⟨y, -, h⟩ := exists_of_bind_eq_ok h
          cases h
          rfl
        · split at h
          · cases h
          · cases h
            rfl
      · rw [if_pos (by simp [hc])] at h
        cases h

/-- Passing over a tail stops where reading it stops. -/
theorem skipTail_of_readTail {x : Binary double}
    (h : readTail negative significand exponent s = .ok (x, t)) : skipTail s = .ok t := by
  unfold readTail at h
  split at h
  · exact skipPower_of_readPower h
  · exact skipPower_of_readPower h
  · next hsmall hlarge =>
      obtain ⟨y, -, h⟩ := exists_of_bind_eq_ok h
      cases h
      unfold skipTail
      split
      · exact absurd rfl (hsmall _)
      · exact absurd rfl (hlarge _)
      · rfl

/-- A fraction that is read has a digit, and what is behind its digits is passed over. -/
theorem exists_isDigit_of_readFraction {x : Binary double}
    (h : readFraction negative significand exponent s = .ok (x, t)) :
    (∃ d rest, s = d :: rest ∧ d.isDigit = true)
      ∧ skipTail (s.dropWhile Char.isDigit) = .ok t := by
  obtain ⟨digits, hs, hlen, hdigits⟩ := exists_gather significand s
  have hdrop := dropWhile_gather significand s
  rcases hgather : gather significand s with ⟨taken, total, rest⟩
  rw [hgather] at hs hlen hdrop
  rw [readFraction, hgather] at h
  dsimp only at h hs hlen hdrop
  -- a fraction of which something was taken opens with a digit
  have hopens : taken ≠ 0 → ∃ d rest, s = d :: rest ∧ d.isDigit = true := by
    intro htaken
    obtain ⟨d, digits, rfl⟩ := List.exists_cons_of_length_pos (by omega : 0 < digits.length)
    exact ⟨d, _, hs, hdigits d (List.mem_cons_self ..)⟩
  rw [← hdrop]
  cases rest with
  | nil =>
      by_cases htaken : taken = 0
      · rw [if_pos htaken] at h
        cases h
      · rw [if_neg htaken] at h
        exact ⟨hopens htaken, skipTail_of_readTail h⟩
  | cons c rest =>
      dsimp only at h
      by_cases hc : c.isDigit = true
      · rw [if_pos hc] at h
        refine ⟨?_, skipTail_of_readTail h⟩
        cases digits with
        | nil => exact ⟨c, rest, hs, hc⟩
        | cons d digits => exact ⟨d, _, hs, hdigits d (List.mem_cons_self ..)⟩
      · rw [if_neg hc] at h
        by_cases htaken : taken = 0
        · rw [if_pos htaken] at h
          cases h
        · rw [if_neg htaken] at h
          rw [List.dropWhile_cons_of_neg hc]
          exact ⟨hopens htaken, skipTail_of_readTail h⟩

/-- What follows the digits that a number opens with, and the number that it completes. -/
def readBehindWhole (negative : Bool) (significand dropped : Nat) (s : List Char) :
    Except Fault (Number × List Char) :=
  match s with
  | '.' :: rest => do
      let (x, rest) ← readFraction negative significand dropped rest
      return (.real x, rest)
  | rest =>
      if dropped = 0 ∧ rest.head? ≠ some 'e' ∧ rest.head? ≠ some 'E' then do
        return (← wholeNumber negative significand, rest)
      else do
        let (x, rest) ← readTail negative significand dropped rest
        return (.real x, rest)

theorem readUnsigned_cons (negative : Bool) (c : Char) (s : List Char) :
    readUnsigned negative (c :: s)
      = if OpensWrong c s then .error .malformed
        else readBehindWhole negative (gather (digitValue c) s).2.1
          ((gather (digitValue c) s).2.2.takeWhile Char.isDigit).length
          ((gather (digitValue c) s).2.2.dropWhile Char.isDigit) := rfl

/-- Passing over what stands behind the whole part stops where reading it stops. -/
theorem skipBehindWhole_of_readBehindWhole {dropped : Nat} {n : Number}
    (h : readBehindWhole negative significand dropped s = .ok (n, t)) :
    skipBehindWhole s = .ok t := by
  unfold readBehindWhole at h
  split at h
  · next fraction =>
      -- with a point, the reader has seen a digit behind it
      obtain ⟨⟨x, rest⟩, hfraction, h⟩ := exists_of_bind_eq_ok h
      cases h
      obtain ⟨⟨d, fraction, rfl, hd⟩, htail⟩ := exists_isDigit_of_readFraction hfraction
      rw [List.dropWhile_cons_of_pos hd] at htail
      exact (if_pos hd).trans htail
  · next hpoint =>
      have hhead : s.head? ≠ some '.' := by
        intro hhead
        obtain ⟨rest, rfl⟩ := List.head?_eq_some_iff.mp hhead
        exact hpoint rest rfl
      rw [skipBehindWhole_of_head? hhead]
      split at h
      · next hends =>
          obtain ⟨m, -, h⟩ := exists_of_bind_eq_ok h
          cases h
          exact skipTail_of_head? hends.2.1 hends.2.2
      · obtain ⟨⟨x, rest⟩, htail, h⟩ := exists_of_bind_eq_ok h
        cases h
        exact skipTail_of_readTail htail

/-- Passing over a number without its sign stops where reading it stops. -/
theorem skipUnsigned_of_readUnsigned {n : Number} (h : readUnsigned negative s = .ok (n, t)) :
    skipUnsigned s = .ok t := by
  cases s with
  | nil => cases h
  | cons c s =>
      rw [readUnsigned_cons] at h
      rw [skipUnsigned_cons]
      split at h
      · cases h
      · next hopens =>
          rw [if_neg hopens, ← dropWhile_gather (digitValue c)]
          exact skipBehindWhole_of_readBehindWhole h

/-- A number is passed over as far as it is read. -/
theorem skipNumber_of_readNumber {n : Number} (h : readNumber s = .ok (n, t)) :
    skipNumber s = .ok t := by
  unfold readNumber at h
  split at h
  · exact skipUnsigned_of_readUnsigned h
  · next hsign =>
      rw [skipNumber]
      · exact skipUnsigned_of_readUnsigned h
      · exact hsign

/-- A string is passed over as far as it is read. -/
theorem skipText_of_readText {text : String} (h : readText s = .ok (text, t)) :
    skipText s = .ok t := by
  obtain ⟨body, hspells, rfl⟩ := readText_eq_ok_iff.mp h
  rw [List.append_assoc]
  exact (body_of_spells hspells).skipText t

-- ============================================ more text behind a number

theorem powerSign_append (hne : s ≠ []) (rest : List Char) :
    powerSign (s ++ rest) = ((powerSign s).1, (powerSign s).2 ++ rest) := by
  obtain ⟨c, s, rfl⟩ := List.exists_cons_of_ne_nil hne
  by_cases hplus : c = '+'
  · subst hplus
    rfl
  by_cases hminus : c = '-'
  · subst hminus
    rfl
  rw [List.cons_append, powerSign_cons hplus hminus, powerSign_cons hplus hminus]
  rfl

/-- A power is read the same before a rest that ends every number. -/
theorem readPower_append {x : Binary double}
    (h : readPower negative significand exponent s = .ok (x, t)) {rest : List Char}
    (hrest : Stops rest) :
    readPower negative significand exponent (s ++ rest) = .ok (x, t ++ rest) := by
  -- there is a digit, so the rest does not reach the sign
  have hne : s ≠ [] := by
    rintro rfl
    cases h
  rcases hsign : powerSign s with ⟨down, digits⟩
  rw [readPower, hsign] at h
  rw [readPower, powerSign_append hne, hsign]
  cases digits with
  | nil => cases h
  | cons c digits =>
      dsimp only [List.cons_append] at h ⊢
      rw [← List.cons_append, takeWhile_isDigit_append _ hrest.isDigit,
        dropWhile_isDigit_append _ hrest.isDigit]
      split at h
      · cases h
      · next hc =>
          rw [if_neg hc]
          split at h
          · next hpower =>
              obtain ⟨y, hreal, h⟩ := exists_of_bind_eq_ok h
              cases h
              rw [if_pos hpower, hreal]
              rfl
          · next hpower =>
              rw [if_neg hpower]
              split at h
              · cases h
              · next hzero =>
                  cases h
                  rw [if_neg hzero]

/-- A tail is read the same before a rest that ends every number. -/
theorem readTail_append {x : Binary double}
    (h : readTail negative significand exponent s = .ok (x, t)) {rest : List Char}
    (hrest : Stops rest) :
    readTail negative significand exponent (s ++ rest) = .ok (x, t ++ rest) := by
  unfold readTail at h
  split at h
  · exact readPower_append h hrest
  · exact readPower_append h hrest
  · next hsmall hlarge =>
      obtain ⟨y, hreal, h⟩ := exists_of_bind_eq_ok h
      cases h
      rw [readTail, hreal]
      · rfl
      · intro more heq
        cases s with
        | nil => exact hrest.head? (.inr (.inl rfl)) (by rw [← List.nil_append rest, heq]; rfl)
        | cons c s => exact hsmall s (by rw [(List.cons.inj heq).1])
      · intro more heq
        cases s with
        | nil => exact hrest.head? (.inr (.inr rfl)) (by rw [← List.nil_append rest, heq]; rfl)
        | cons c s => exact hlarge s (by rw [(List.cons.inj heq).1])

/-- A fraction is read the same before a rest that ends every number. -/
theorem readFraction_append {x : Binary double}
    (h : readFraction negative significand exponent s = .ok (x, t)) {rest : List Char}
    (hrest : Stops rest) :
    readFraction negative significand exponent (s ++ rest) = .ok (x, t ++ rest) := by
  have hgathered := gather_append significand s hrest.isDigit
  rcases hgather : gather significand s with ⟨taken, total, behind⟩
  rw [hgather] at hgathered
  rw [readFraction, hgather] at h
  rw [readFraction, hgathered]
  -- what was gathered ends the text, or a digit without room or some other character follows
  cases behind with
  | nil =>
      dsimp only at h ⊢
      split at h
      · cases h
      · next htaken =>
          have htail := readTail_append h hrest
          rw [List.nil_append] at htail ⊢
          cases rest with
          | nil => exact (if_neg htaken).trans htail
          | cons c rest =>
              dsimp only
              rw [if_neg (by simp [hrest.isDigit c rfl]), if_neg htaken]
              exact htail
  | cons c behind =>
      dsimp only [List.cons_append] at h ⊢
      rw [← List.cons_append, dropWhile_isDigit_append _ hrest.isDigit]
      split at h
      · next hc =>
          rw [if_pos hc]
          exact readTail_append h hrest
      · next hc =>
          rw [if_neg hc]
          split at h
          · cases h
          · next htaken =>
              rw [if_neg htaken]
              exact readTail_append h hrest

/-- What comes behind a text stops, so the text opens with a letter as it did without. -/
theorem head?_append_iff {rest : List Char} (hrest : Stops rest) {c : Char}
    (hc : c = '.' ∨ c = 'e' ∨ c = 'E') (s : List Char) :
    (s ++ rest).head? = some c ↔ s.head? = some c := by
  cases s with
  | nil => exact iff_of_false (hrest.head? hc) nofun
  | cons d s => exact Iff.rfl

/-- What stands behind the whole part is read the same before a rest that ends every number.
-/
theorem readBehindWhole_append {dropped : Nat} {n : Number}
    (h : readBehindWhole negative significand dropped s = .ok (n, t)) {rest : List Char}
    (hrest : Stops rest) :
    readBehindWhole negative significand dropped (s ++ rest) = .ok (n, t ++ rest) := by
  unfold readBehindWhole at h
  split at h
  · obtain ⟨⟨x, left⟩, hfraction, h⟩ := exists_of_bind_eq_ok h
    cases h
    show (readFraction negative significand _ (_ ++ rest) >>= _) = _
    rw [readFraction_append hfraction hrest]
    rfl
  · next hpoint =>
      -- none of the marks that go on with a number opens the rest
      have hsmall := head?_append_iff hrest (.inr (.inl rfl)) s
      have hlarge := head?_append_iff hrest (.inr (.inr rfl)) s
      have hnopoint : ∀ left, s ++ rest ≠ '.' :: left := by
        intro left heq
        have hhead := (head?_append_iff hrest (.inl rfl) s).mp (by rw [heq]; rfl)
        obtain ⟨left, rfl⟩ := List.head?_eq_some_iff.mp hhead
        exact hpoint left rfl
      rw [readBehindWhole]
      · split at h
        · next hends =>
            obtain ⟨m, hwhole, h⟩ := exists_of_bind_eq_ok h
            cases h
            rw [if_pos ⟨hends.1, mt hsmall.mp hends.2.1, mt hlarge.mp hends.2.2⟩, hwhole]
            rfl
        · next hends =>
            obtain ⟨⟨x, left⟩, htail, h⟩ := exists_of_bind_eq_ok h
            cases h
            rw [if_neg fun hall =>
                hends ⟨hall.1, mt hsmall.mpr hall.2.1, mt hlarge.mpr hall.2.2⟩,
              readTail_append htail hrest]
            rfl
      · exact hnopoint

/-- Whether a number opens wrongly is settled before a rest that ends every number. -/
theorem opensWrong_append_iff {c : Char} (s : List Char) {rest : List Char} (hrest : Stops rest) :
    OpensWrong c (s ++ rest) ↔ OpensWrong c s := by
  unfold OpensWrong
  cases s with
  | nil =>
      cases rest with
      | nil => exact Iff.rfl
      | cons d rest => simp [hrest.isDigit d rfl]
  | cons d s => exact Iff.rfl

/-- A number without its sign is read the same before a rest that ends every number. -/
theorem readUnsigned_append {n : Number} (h : readUnsigned negative s = .ok (n, t))
    {rest : List Char} (hrest : Stops rest) :
    readUnsigned negative (s ++ rest) = .ok (n, t ++ rest) := by
  cases s with
  | nil => cases h
  | cons c s =>
      rw [readUnsigned_cons] at h
      rw [List.cons_append, readUnsigned_cons, gather_append _ _ hrest.isDigit]
      dsimp only
      rw [takeWhile_isDigit_append _ hrest.isDigit, dropWhile_isDigit_append _ hrest.isDigit]
      split at h
      · cases h
      · next hopens =>
          rw [if_neg (mt (opensWrong_append_iff s hrest).mp hopens)]
          exact readBehindWhole_append h hrest

/-- A number is read as it is without what comes behind it. -/
theorem readNumber_append {n : Number} (h : readNumber s = .ok (n, t)) {rest : List Char}
    (hrest : Stops rest) : readNumber (s ++ rest) = .ok (n, t ++ rest) := by
  unfold readNumber at h
  split at h
  · exact readUnsigned_append h hrest
  · next hsign =>
      rw [readNumber]
      · exact readUnsigned_append h hrest
      · intro more heq
        cases s with
        | nil => cases h
        | cons c s => exact hsign s (by rw [(List.cons.inj heq).1])

-- =========================================================== scalars

/-- What a numeric scalar was read from opens as a number, and the number fits the kind. -/
theorem exists_of_readNumeric {k : Kind} {x : k.Carrier} (h : readNumeric k s = .ok (x, t)) :
    ∃ c rest n, skipBlanks s = c :: rest ∧ opensNumber c = true
      ∧ readNumber (c :: rest) = .ok (n, t) ∧ k.ofNumber? n = some x := by
  unfold readNumeric at h
  split at h
  · next c rest hskip =>
      split at h
      · next hc =>
          obtain ⟨⟨n, behind⟩, hnumber, h⟩ := exists_of_bind_eq_ok h
          dsimp only at h
          split at h
          · next y hy =>
              cases h
              exact ⟨c, rest, n, hskip, hc, hnumber, hy⟩
          · cases h
      · cases h
  · cases h

/-- What a text was read from opens with a quotation mark. -/
theorem exists_of_readQuoted {x : String} (h : Kind.read .text s = .ok (x, t)) :
    ∃ rest, skipBlanks s = '"' :: rest ∧ readText rest = .ok (x, t) := by
  rw [Kind.read.eq_def] at h
  dsimp only [Kind.Carrier] at h
  split at h
  · next rest hskip => exact ⟨rest, hskip, h⟩
  · cases h

/-- Every kind but text is read as a number. -/
theorem Kind.read_of_ne_text {k : Kind} (hk : k ≠ .text) (s : List Char) :
    k.read s = readNumeric k s := by
  cases k with
  | text => exact absurd rfl hk
  | _ => rfl

/-- A scalar is passed over as far as it is read. -/
theorem skipWithin_of_read {k : Kind} {x : k.Carrier} (h : k.read s = .ok (x, t)) (fuel : Nat) :
    skipWithin (fuel + 1) s = .ok t := by
  by_cases hk : k = .text
  · subst hk
    obtain ⟨rest, hskip, htext⟩ := exists_of_readQuoted h
    rw [← skipWithin_skipBlanks, hskip]
    exact skipText_of_readText htext
  · rw [Kind.read_of_ne_text hk] at h
    obtain ⟨c, rest, n, hskip, hc, hnumber, -⟩ := exists_of_readNumeric h
    rw [← skipWithin_skipBlanks, hskip, skipWithin_of_opensNumber hc]
    exact skipNumber_of_readNumber hnumber

theorem skipBlanks_append_of_cons {c : Char} (h : skipBlanks s = c :: t) (rest : List Char) :
    skipBlanks (s ++ rest) = c :: (t ++ rest) := by
  unfold skipBlanks at h ⊢
  rw [List.dropWhile_append, h]
  rfl

/-- A numeric scalar is read the same before a rest that ends every number. -/
theorem readNumeric_append {k : Kind} {x : k.Carrier} (h : readNumeric k s = .ok (x, t))
    {rest : List Char} (hrest : Stops rest) : readNumeric k (s ++ rest) = .ok (x, t ++ rest) := by
  obtain ⟨c, digits, n, hskip, hc, hnumber, hx⟩ := exists_of_readNumeric h
  have hmore := readNumber_append hnumber hrest
  rw [List.cons_append] at hmore
  simp only [readNumeric, skipBlanks_append_of_cons hskip, hc, if_true, hmore, bind,
    Except.bind, hx]
  rfl

-- ========================================================= read back

instance : (k : Kind) → DecidableEq k.Carrier
  | .word8 => inferInstanceAs (DecidableEq UInt8)
  | .word32 => inferInstanceAs (DecidableEq UInt32)
  | .word64 => inferInstanceAs (DecidableEq UInt64)
  | .signed32 => inferInstanceAs (DecidableEq Int32)
  | .single => inferInstanceAs (DecidableEq (Binary Binary.single))
  | .double => inferInstanceAs (DecidableEq (Binary Binary.double))
  | .text => inferInstanceAs (DecidableEq String)

/-- A scalar that is read back from what is written of it. -/
def Kind.ReadsBack (k : Kind) (x : k.Carrier) : Prop := k.read (k.write x) = .ok (x, [])

/-- Digits that fit a significand are gathered whole. -/
theorem gather_digits {digits : List Char} (hdigits : ∀ c ∈ digits, c.isDigit = true)
    {significand : Nat} (hfits : Nat.ofDigitChars 10 digits significand < UInt64.size) :
    gather significand digits
      = (digits.length, Nat.ofDigitChars 10 digits significand, []) := by
  induction digits generalizing significand with
  | nil => rfl
  | cons c digits ih =>
      obtain ⟨hc, hdigits⟩ := List.forall_mem_cons.mp hdigits
      have hcons : Nat.ofDigitChars 10 (c :: digits) significand
          = Nat.ofDigitChars 10 digits (significand * 10 + digitValue c) := by
        rw [Nat.ofDigitChars_cons, Nat.mul_comm]
        rfl
      rw [hcons] at hfits ⊢
      -- what is gathered grows with every digit, so it fits all the way
      have hle : significand * 10 + digitValue c
          ≤ Nat.ofDigitChars 10 digits (significand * 10 + digitValue c) := by
        rw [Nat.ofDigitChars_eq_ofDigitChars_zero]
        exact Nat.le_add_right_of_le (Nat.le_mul_of_pos_left _ (Nat.pow_pos (by decide)))
      rw [gather, if_pos ⟨hc, Nat.lt_of_le_of_lt hle hfits⟩, ih hdigits hfits]
      rfl

/-- The decimal text of a natural number is read as that whole number. -/
theorem readUnsigned_decimal (negative : Bool) {n : Nat} (hn : n < UInt64.size) :
    readUnsigned negative (decimal n)
      = (wholeNumber negative n).map fun number => (number, []) := by
  obtain ⟨hne, hdigits, hzero⟩ := whole_decimal n
  have hvalue := ofDigitChars_decimal n
  obtain ⟨c, digits, hcons⟩ := List.exists_cons_of_ne_nil hne
  rw [hcons] at hdigits hzero hvalue ⊢
  obtain ⟨hc, hdigits⟩ := List.forall_mem_cons.mp hdigits
  have hgathered : Nat.ofDigitChars 10 digits (digitValue c) = n := by
    rwa [Nat.ofDigitChars_cons, Nat.mul_zero, Nat.zero_add] at hvalue
  have hopens : ¬ OpensWrong c digits := by
    intro hopens
    rcases hopens with hother | ⟨rfl, hnext⟩
    · simp [hc] at hother
    · have halone : digits = [] := by simpa using hzero rfl
      rw [halone] at hnext
      cases hnext
  rw [readUnsigned_cons, if_neg hopens,
    gather_digits hdigits (by rw [hgathered]; exact hn), hgathered]
  show (wholeNumber negative n >>= fun number => .ok (number, [])) = _
  cases wholeNumber negative n <;> rfl

/-- A number that fits its kind is read as a scalar of that kind. -/
theorem readNumeric_of_readNumber {k : Kind} {x : k.Carrier} {n : Number}
    (hopens : ∃ c rest, s = c :: rest ∧ opensNumber c = true) (hread : readNumber s = .ok (n, t))
    (hx : k.ofNumber? n = some x) : readNumeric k s = .ok (x, t) := by
  obtain ⟨c, rest, rfl, hc⟩ := hopens
  simp only [readNumeric, skipBlanks_cons (isBlank_of_opensNumber hc), hc, if_true, hread, bind,
    Except.bind, hx]
  rfl

theorem opens_decimal (n : Nat) : ∃ c rest, decimal n = c :: rest ∧ c.isDigit = true := by
  obtain ⟨c, rest, hcons⟩ := List.exists_cons_of_ne_nil (decimal_ne_nil n)
  exact ⟨c, rest, hcons, isDigit_of_mem_decimal (hcons ▸ List.mem_cons_self ..)⟩

/-- The decimal text of a 64-bit count is read as that count. -/
theorem readNumber_decimal {n : Nat} (hn : n < UInt64.size) :
    readNumber (decimal n) = .ok (.count (.ofNat n), []) := by
  obtain ⟨c, rest, hcons, hc⟩ := opens_decimal n
  have hread := readUnsigned_decimal false hn
  rw [hcons] at hread ⊢
  rw [readNumber]
  · exact hread
  · intro more heq
    rw [(List.cons.inj heq).1] at hc
    cases hc

/-- The decimal text of a count that fits a kind is read as a scalar of that kind. -/
theorem readNumeric_decimal {k : Kind} {x : k.Carrier} {n : Nat} (hn : n < UInt64.size)
    (hx : k.ofNumber? (.count (.ofNat n)) = some x) :
    readNumeric k (decimal n) = .ok (x, []) := by
  refine readNumeric_of_readNumber ?_ (readNumber_decimal hn) hx
  obtain ⟨c, rest, hcons, hc⟩ := opens_decimal n
  exact ⟨c, rest, hcons, by simp [opensNumber, hc]⟩

theorem toNat_ofNat_of_lt {n : Nat} (hn : n < UInt64.size) : (UInt64.ofNat n).toNat = n := by
  rw [UInt64.toNat_ofNat']
  exact Nat.mod_eq_of_lt hn

/-- The signed decimal text of a 32-bit integer is read as that integer. -/
theorem readNumeric_signedDecimal (x : Int32) :
    readNumeric .signed32 (signedDecimal x.toInt) = .ok (x, []) := by
  have hlow := x.minValue_le_toInt
  have hhigh := x.toInt_le
  have hmin : Int32.minValue.toInt = -2147483648 := by decide
  have hmax : Int32.maxValue.toInt = 2147483647 := by decide
  have hsize : UInt64.size = 18446744073709551616 := rfl
  unfold signedDecimal
  split
  · next hneg =>
      refine readNumeric_of_readNumber ⟨'-', _, rfl, rfl⟩ (n := .below x.toInt) ?_
        (fitSigned32?_eq_some_iff.mpr rfl)
      show readUnsigned true (decimal x.toInt.natAbs) = _
      have hbelow : wholeNumber true x.toInt.natAbs = .ok (.below x.toInt) := by
        unfold wholeNumber
        rw [if_neg (by decide), if_neg (by omega)]
        congr 2
        omega
      rw [readUnsigned_decimal true (by omega), hbelow]
      rfl
  · next hpos =>
      refine readNumeric_decimal (by omega) (fitSigned32?_eq_some_iff.mpr ?_)
      rw [toNat_ofNat_of_lt (by omega)]
      omega

/-- Whole numbers and texts are always read back. -/
theorem Kind.readsBack {k : Kind} (hsingle : k ≠ .single) (hdouble : k ≠ .double)
    (x : k.Carrier) : k.ReadsBack x := by
  cases k with
  | single => exact absurd rfl hsingle
  | double => exact absurd rfl hdouble
  | signed32 => exact readNumeric_signedDecimal x
  | word64 =>
      refine readNumeric_decimal (UInt64.toNat_lt_size x) ?_
      exact congrArg some UInt64.ofNat_toNat
  | word32 =>
      -- a narrower word is read as a count first, and fits
      have hx := UInt32.toNat_lt_size x
      have hfits : UInt32.toNat x < UInt64.size := Nat.lt_trans hx (by decide)
      refine readNumeric_decimal hfits ?_
      refine (if_pos (by rw [toNat_ofNat_of_lt hfits]; exact hx)).trans (congrArg some ?_)
      apply UInt32.toNat.inj
      rw [UInt64.toNat_toUInt32, toNat_ofNat_of_lt hfits]
      exact Nat.mod_eq_of_lt hx
  | word8 =>
      have hx := UInt8.toNat_lt_size x
      have hfits : UInt8.toNat x < UInt64.size := Nat.lt_trans hx (by decide)
      refine readNumeric_decimal hfits ?_
      refine (if_pos (by rw [toNat_ofNat_of_lt hfits]; exact hx)).trans (congrArg some ?_)
      apply UInt8.toNat.inj
      rw [UInt64.toNat_toUInt8, toNat_ofNat_of_lt hfits]
      exact Nat.mod_eq_of_lt hx
  | text =>
      have h := readText_writeText x []
      rw [List.append_nil] at h
      exact h

/-- A finite scalar is written as a JSON value. -/
theorem Kind.value_write {k : Kind} {x : k.Carrier} (h : k.Finite x) :
    Grammar.Value (k.write x) := by
  by_cases hk : k = .text
  · subst hk
    exact .text (body_of_spells (spells_escaped _))
  · exact .number (isNumber_iff.mp ((isNumber_write_kind_iff hk x).mpr h))

/-- What is not finite is written as something else than a number, so it is not read back. -/
theorem Kind.ReadsBack.finite {k : Kind} {x : k.Carrier} (h : k.ReadsBack x) : k.Finite x := by
  by_contra hx
  have hnull : k.write x = ['n', 'u', 'l', 'l'] := by
    cases k with
    | single => exact write_of_not_isFinite singleLayout hx
    | double => exact write_of_not_isFinite doubleLayout hx
    | _ => exact absurd trivial hx
  rw [Kind.ReadsBack, hnull] at h
  cases k <;> cases h

theorem Kind.read_blanks {blanks : List Char} (h : Blanks blanks) (k : Kind) (s : List Char) :
    k.read (blanks ++ s) = k.read s := by
  cases k <;> simp only [Kind.read, readNumeric, skipBlanks_append h]

/-- A scalar that is read back is read wherever it stands, and what follows it is left
alone. -/
theorem Kind.ReadsBack.append {k : Kind} {x : k.Carrier} (h : k.ReadsBack x) {rest : List Char}
    (hrest : Stops rest) : k.read (k.write x ++ rest) = .ok (x, rest) := by
  by_cases hk : k = .text
  · subst hk
    exact readText_writeText x rest
  · rw [Kind.ReadsBack, Kind.read_of_ne_text hk] at h
    rw [Kind.read_of_ne_text hk]
    exact readNumeric_append h hrest

/-- A scalar that is read back is read back with blanks around it. -/
theorem Kind.ReadsBack.spaced {k : Kind} {x : k.Carrier} (h : k.ReadsBack x)
    (hs : Spaced (k.write x) s) {rest : List Char} (hrest : Stops rest) :
    ∃ r, k.read (s ++ rest) = .ok (x, r) ∧ skipBlanks r = skipBlanks rest := by
  obtain ⟨before, after, hbefore, hafter, rfl⟩ := hs
  refine ⟨after ++ rest, ?_, skipBlanks_append hafter rest⟩
  rw [List.append_assoc, List.append_assoc, Kind.read_blanks hbefore]
  exact h.append (hrest.blanks hafter)

end Vitals.Json
