/-
What the text of a string stands for, and that a written string is read back as it was,
whatever characters it has.

A character stands in a string either as itself or as an escape, and an escape opens with
a backslash. The quote, the backslash and the characters below `0x20` never stand as
themselves, so the reader takes one character of the string at every step and stops at the
quote that closes it, and what it has then is what is spelt there (`readText_eq_ok_iff`).
What is written of a string is one of its spellings (`spells_escaped`).
-/
import Vitals.Json.Text
import Vitals.Proofs.Text.Numeral

namespace Vitals.Json

open Text

-- ============================================================= units

theorem hexValue?_digitChar {n : Nat} (hn : n < 16) : hexValue? (Nat.digitChar n) = some n := by
  have hall : ∀ i : Fin 16, hexValue? (Nat.digitChar i) = some i.val := by decide
  exact hall ⟨n, hn⟩

/-- Four hexadecimal digits are read as one code unit. -/
theorem readUnit_eq {a b c d : Char} {i j k l : Nat} (ha : hexValue? a = some i)
    (hb : hexValue? b = some j) (hc : hexValue? c = some k) (hd : hexValue? d = some l)
    (s : List Char) :
    readUnit (a :: b :: c :: d :: s) = .ok (((i * 16 + j) * 16 + k) * 16 + l, s) := by
  have hsize : ¬ (String.ofList [a, b, c, d]).utf8ByteSize < 4 := by
    have := a.utf8Size_pos
    have := b.utf8Size_pos
    have := c.utf8Size_pos
    have := d.utf8Size_pos
    simp only [String.ofList_cons, String.utf8ByteSize_append, String.utf8ByteSize_singleton]
    omega
  show (if _ < 4 then _ else _) = _
  rw [List.take_succ_cons, List.take_succ_cons, List.take_succ_cons, List.take_succ_cons,
    List.take_zero, if_neg hsize]
  simp only [ha, hb, hc, hd]

/-- Four hexadecimal digits of a number. -/
def IsCodeUnit (digits : List Char) (unit : Nat) : Prop :=
  ∃ a b c d i j k l, digits = [a, b, c, d] ∧ hexValue? a = some i ∧ hexValue? b = some j
    ∧ hexValue? c = some k ∧ hexValue? d = some l ∧ unit = ((i * 16 + j) * 16 + k) * 16 + l

/-- The digits of a code unit are read as it. -/
theorem IsCodeUnit.readUnit {digits : List Char} {unit : Nat} (h : IsCodeUnit digits unit)
    (s : List Char) : readUnit (digits ++ s) = .ok (unit, s) := by
  obtain ⟨a, b, c, d, i, j, k, l, rfl, ha, hb, hc, hd, rfl⟩ := h
  exact readUnit_eq ha hb hc hd s

/-- What a code unit was read from are its four digits. -/
theorem exists_isCodeUnit_of_readUnit {s t : List Char} {unit : Nat}
    (h : readUnit s = .ok (unit, t)) : ∃ digits, IsCodeUnit digits unit ∧ s = digits ++ t := by
  unfold readUnit at h
  split at h
  · cases h
  · split at h
    · next a b c d rest _ =>
        split at h
        · next ha hb hc hd =>
            cases h
            exact ⟨[a, b, c, d], ⟨a, b, c, d, _, _, _, _, rfl, ha, hb, hc, hd, rfl⟩, rfl⟩
        · cases h
    · cases h

/-- A control character is written as the four digits of its code. -/
theorem isCodeUnit_of_control {c : Char} (hc : c.toNat < 0x20) :
    IsCodeUnit ['0', '0', Nat.digitChar (c.toNat / 16), Nat.digitChar (c.toNat % 16)] c.toNat := by
  refine ⟨_, _, _, _, 0, 0, c.toNat / 16, c.toNat % 16, rfl, rfl, rfl, ?_, ?_, ?_⟩
  · exact hexValue?_digitChar (by omega)
  · exact hexValue?_digitChar (by omega)
  · omega

-- =========================================================== spellings

/-- An escape of a character, behind its backslash: by a letter, by the number of the
character, or by the numbers of its two halves. -/
inductive Escapes : Char → List Char → Prop
  | letter {c x : Char} (stands : letterEscape? c = some x) : Escapes x [c]
  | number {digits : List Char} {unit : Nat} (isCodeUnit : IsCodeUnit digits unit)
      (whole : unit < 0xD800 ∨ 0xDFFF < unit) : Escapes (Char.ofNat unit) ('u' :: digits)
  | halves {digits more : List Char} {high low : Nat} (isHigh : IsCodeUnit digits high)
      (leads : 0xD800 ≤ high ∧ high ≤ 0xDBFF) (isLow : IsCodeUnit more low)
      (trails : 0xDC00 ≤ low ∧ low ≤ 0xDFFF) :
      Escapes (Char.ofNat (0x10000 + (high - 0xD800) * 0x400 + (low - 0xDC00)))
        ('u' :: (digits ++ '\\' :: 'u' :: more))

/-- A spelling of some characters between the quotes of a string. -/
inductive Spells : List Char → List Char → Prop
  | nil : Spells [] []
  | plain {c : Char} {cs s : List Char} (quote : c ≠ '"') (backslash : c ≠ '\\')
      (control : 0x20 ≤ c.toNat) (rest : Spells cs s) : Spells (c :: cs) (c :: s)
  | escape {c : Char} {cs body s : List Char} (escapes : Escapes c body) (rest : Spells cs s) :
      Spells (c :: cs) ('\\' :: (body ++ s))

/-- An escape of a character is read as that character. -/
theorem Escapes.readEscape {c : Char} {body : List Char} (h : Escapes c body) (s : List Char) :
    readEscape (body ++ s) = .ok (c, s) := by
  cases h with
  | @letter letter c hstands =>
      -- the letter of the numbers stands for no character itself
      have hnumber : letter ≠ 'u' := by
        intro heq
        subst heq
        cases hstands
      show Json.readEscape (letter :: s) = _
      rw [Json.readEscape, hstands]
      exact hnumber
  | @number digits unit hunit hwhole =>
      show (readUnit (digits ++ s) >>= _) = _
      rw [hunit.readUnit]
      show (if _ then _ else if _ then _ else _) = _
      rw [if_neg (by omega), if_pos (by omega)]
      rfl
  | @halves digits more high low hhigh hleads hlow htrails =>
      show (readUnit (digits ++ '\\' :: 'u' :: more ++ s) >>= _) = _
      rw [List.append_assoc, hhigh.readUnit]
      show (if _ then _ else if _ then _ else (readUnit (more ++ s) >>= _)) = _
      rw [if_neg (by omega), if_neg (by omega), hlow.readUnit]
      show (if _ then _ else _) = _
      rw [if_neg (by omega)]
      rfl

/-- What an escape was read from is an escape of the character. -/
theorem exists_escapes_of_readEscape {c : Char} {s t : List Char}
    (h : readEscape s = .ok (c, t)) : ∃ body, Escapes c body ∧ s = body ++ t := by
  unfold readEscape at h
  split at h
  · cases h
  · next s =>
      -- by the number of the character, which is one unit or two halves
      unfold readCodeEscape at h
      obtain ⟨⟨unit, rest⟩, hunit, hcode⟩ := exists_of_bind_eq_ok h
      obtain ⟨digits, hdigits, rfl⟩ := exists_isCodeUnit_of_readUnit hunit
      dsimp only at hcode
      split at hcode
      · cases hcode
      · split at hcode
        · next hwhole =>
            cases hcode
            exact ⟨_, .number hdigits (by omega), rfl⟩
        · split at hcode
          · next more =>
              obtain ⟨⟨low, behind⟩, hlow, hpair⟩ := exists_of_bind_eq_ok hcode
              obtain ⟨more, hmore, rfl⟩ := exists_isCodeUnit_of_readUnit hlow
              dsimp only at hpair
              split at hpair
              · cases hpair
              · obtain ⟨rfl, rfl⟩ := Prod.mk.inj (Except.ok.inj hpair)
                refine ⟨_, .halves hdigits (by omega) hmore (by omega), ?_⟩
                simp
          · cases hcode
          · cases hcode
          · cases hcode
  · -- by a letter that stands for the character
    next letter s hnumber =>
      split at h
      · next x hstands =>
          cases h
          exact ⟨[letter], .letter hstands, rfl⟩
      · cases h

/-- The reader takes a character of the string at a time, however it is spelt. -/
theorem readChars_of_spells {cs s : List Char} (h : Spells cs s) (rest : List Char) {fuel : Nat}
    (hfuel : s.length < fuel) : readChars fuel (s ++ '"' :: rest) = .ok (cs, rest) := by
  induction h generalizing fuel with
  | nil =>
      obtain ⟨fuel, rfl⟩ := Nat.exists_eq_add_of_lt hfuel
      rfl
  | plain hquote hbackslash hcontrol hspells ih =>
      rw [List.length_cons] at hfuel
      obtain ⟨fuel, rfl⟩ : ∃ n, fuel = n + 1 := ⟨fuel - 1, by omega⟩
      rw [List.cons_append, readChars, if_neg (by omega), ih (by omega)]
      · rfl
      · exact hquote
      · exact hbackslash
  | escape hescapes hspells ih =>
      rw [List.length_cons, List.length_append] at hfuel
      obtain ⟨fuel, rfl⟩ : ∃ n, fuel = n + 1 := ⟨fuel - 1, by omega⟩
      rw [List.cons_append, List.append_assoc, readChars, hescapes.readEscape]
      show (readChars fuel _ >>= _) = _
      rw [ih (by omega)]
      rfl

/-- What characters were read from spells them and ends in a quotation mark. -/
theorem exists_spells_of_readChars {fuel : Nat} {cs s t : List Char}
    (h : readChars fuel s = .ok (cs, t)) : ∃ body, Spells cs body ∧ s = body ++ '"' :: t := by
  induction fuel generalizing s cs with
  | zero => cases h
  | succ fuel ih =>
      cases s with
      | nil => cases h
      | cons c s =>
          by_cases hquote : c = '"'
          · subst hquote
            cases h
            exact ⟨[], .nil, rfl⟩
          by_cases hbackslash : c = '\\'
          · subst hbackslash
            obtain ⟨⟨x, rest⟩, hescape, h⟩ := exists_of_bind_eq_ok h
            obtain ⟨⟨xs, behind⟩, hchars, h⟩ := exists_of_bind_eq_ok h
            cases h
            obtain ⟨escape, hescapes, rfl⟩ := exists_escapes_of_readEscape hescape
            obtain ⟨body, hspells, rfl⟩ := ih hchars
            exact ⟨_, .escape hescapes hspells, by simp⟩
          · -- any other character stands for itself, unless it is a control
            rw [readChars] at h
            · split at h
              · cases h
              · next hcontrol =>
                  obtain ⟨⟨xs, behind⟩, hchars, h⟩ := exists_of_bind_eq_ok h
                  cases h
                  obtain ⟨body, hspells, rfl⟩ := ih hchars
                  exact ⟨_, .plain hquote hbackslash (by omega) hspells, rfl⟩
            · exact hquote
            · exact hbackslash

/-- A string is read from whatever spells it, and what follows it is left alone. -/
theorem readText_of_spells {text : String} {body : List Char} (h : Spells text.toList body)
    (s : List Char) : readText ((body ++ ['"']) ++ s) = .ok (text, s) := by
  have hfuel : body.length < (body ++ '"' :: s).length + 1 := by
    rw [List.length_append]
    omega
  rw [List.append_assoc, List.singleton_append, readText, readChars_of_spells h s hfuel]
  exact congrArg (fun text => Except.ok (text, s)) String.ofList_toList

/-- A string is read from what spells it, and from nothing else. -/
theorem readText_eq_ok_iff {text : String} {s t : List Char} :
    readText s = .ok (text, t) ↔ ∃ body, Spells text.toList body ∧ s = (body ++ ['"']) ++ t := by
  constructor
  · intro h
    obtain ⟨⟨cs, rest⟩, hchars, h⟩ := exists_of_bind_eq_ok h
    cases h
    obtain ⟨body, hspells, rfl⟩ := exists_spells_of_readChars hchars
    refine ⟨body, ?_, ?_⟩
    · rwa [String.toList_ofList]
    · simp
  · intro ⟨body, hspells, hs⟩
    rw [hs]
    exact readText_of_spells hspells t

-- ============================================================= writing

/-- A character written the compact way may stand before any spelling. -/
theorem Spells.escapedChar (c : Char) {cs s : List Char} (h : Spells cs s) :
    Spells (c :: cs) (escapedChar c ++ s) := by
  have hletter : ∀ {letter}, letterEscape? letter = some c →
      Spells (c :: cs) (['\\', letter] ++ s) := fun hstands => .escape (.letter hstands) h
  unfold Json.escapedChar
  by_cases hquote : c = '"' ∨ c = '\\'
  · rw [if_pos hquote]
    rcases hquote with rfl | rfl
    · exact hletter rfl
    · exact hletter rfl
  rw [if_neg hquote]
  split
  · next hc => exact hletter (hc ▸ rfl)
  split
  · next hc => exact hletter (hc ▸ rfl)
  split
  · next hc => exact hletter (hc ▸ rfl)
  split
  · next hc => exact hletter (hc ▸ rfl)
  split
  · next hc => exact hletter (hc ▸ rfl)
  -- no letter stands for the character: a control is escaped by its number
  obtain ⟨hquote, hbackslash⟩ := not_or.mp hquote
  split
  · next hcontrol =>
      have hnumber := Escapes.number (isCodeUnit_of_control hcontrol) (by omega)
      rw [Char.ofNat_toNat] at hnumber
      exact .escape hnumber h
  · exact .plain hquote hbackslash (by omega) h

/-- What is written of a string spells it. -/
theorem spells_escaped (cs : List Char) : Spells cs (cs.flatMap escapedChar) := by
  induction cs with
  | nil => exact .nil
  | cons c cs ih => exact ih.escapedChar c

/-- A written string is read back, and what follows it is left alone. -/
theorem readText_writeText (text : String) (s : List Char) :
    readText ((text.toList.flatMap escapedChar ++ ['"']) ++ s) = .ok (text, s) :=
  readText_of_spells (spells_escaped text.toList) s

example : writeText "\"],\\\x00" = ['"', '\\', '"', ']', ',', '\\', '\\', '\\', 'u', '0', '0',
    '0', '0', '"'] := by decide

end Vitals.Json
