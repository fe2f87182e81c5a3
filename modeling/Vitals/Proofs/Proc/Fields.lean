/-
What the files of keys and values tell, line by line.

# Why it holds

A line tells of a key what stands behind its first colon, if what stands in front of that
colon is the key; blanks at the ends of the two do not count, and a line without a colon
tells nothing (`Tells`). The fields of a file are the map of what its lines tell, in their
order, so under a key stands what the last line tells that tells of it at all, and lines
that tell nothing may be anywhere (`fieldsOf_mute`). The ending of a line is blank, if it is a
carriage return, and so has no part in this either.

An amount is a numeral in front of its unit. Between the two and around them may be blanks,
and none of them is left when the numeral is read, so that an amount is read exactly if its
number is one of sixty-four bits (`kilobytes_eq_ok_iff`). There is no greater number that it
could be read as.

The memory of a host is two such amounts, each told by the last line of its key, or not at
all, or by a line that is no amount.
-/
import Vitals.Proofs.Proc.Groups
import Vitals.Proofs.Text.Lines
import Vitals.Proofs.Text.Numeral

namespace Vitals.Proc

open Std (ExtTreeMap)
open Text

-- ============================================================== lines

/-- A line tells a value of a key: the one in front of its first colon, the other behind
it, but for blanks at their ends. -/
def Tells (line : List Char) (key value : String) : Prop :=
  ∃ front behind, line = front ++ ':' :: behind ∧ ':' ∉ front
    ∧ key = .ofList (trim front) ∧ value = .ofList (trim behind)

/-- The last of some lines that tells of a key tells this value of it. -/
def LastTells (lines : List (List Char)) (key value : String) : Prop :=
  ∃ before line after, lines = before ++ line :: after ∧ Tells line key value
    ∧ ∀ later ∈ after, ∀ other, ¬ Tells later key other

/-- A line gives the field it tells and no other. -/
theorem fieldOfLine?_eq_some_iff {line : List Char} {key value : String} :
    fieldOfLine? line = some (key, value) ↔ Tells line key value := by
  unfold fieldOfLine?
  rw [Option.map_eq_some_iff]
  constructor
  · rintro ⟨⟨front, behind⟩, hcut, hfield⟩
    obtain ⟨hline, hcolon⟩ := cut_eq_some hcut
    obtain ⟨rfl, rfl⟩ := Prod.mk.inj hfield
    exact ⟨front, behind, hline, hcolon, rfl, rfl⟩
  · rintro ⟨front, behind, rfl, hcolon, rfl, rfl⟩
    exact ⟨(front, behind), cut_append_cons hcolon behind, rfl⟩

theorem fieldOfLine?_eq_none_iff {line : List Char} : fieldOfLine? line = none ↔ ':' ∉ line := by
  rw [fieldOfLine?, Option.map_eq_none_iff, cut_eq_none_iff]

/-- The first colon of a line parts the key from the value. -/
theorem fieldOfLine?_of_colon {front : List Char} (h : ':' ∉ front) (behind : List Char) :
    fieldOfLine? (front ++ ':' :: behind)
      = some (.ofList (trim front), .ofList (trim behind)) := by
  rw [fieldOfLine?, cut_append_cons h]
  rfl

/-- A carriage return at its end has no part in what a line tells. -/
theorem fieldOfLine?_dropReturn (line : List Char) :
    fieldOfLine? (dropReturn line) = fieldOfLine? line := by
  rcases eq_dropReturn_or line with h | h
  · rw [← h]
  · generalize dropReturn line = short at h
    subst h
    cases hcut : cut ':' short with
    | none =>
        have hcolon : ':' ∉ short ++ ['\r'] := by simpa using cut_eq_none_iff.mp hcut
        rw [fieldOfLine?_eq_none_iff.mpr hcolon,
          fieldOfLine?_eq_none_iff.mpr (cut_eq_none_iff.mp hcut)]
    | some parts =>
        obtain ⟨front, behind⟩ := parts
        obtain ⟨rfl, hcolon⟩ := cut_eq_some hcut
        have htrim := @trim_between [] ['\r'] (by simp) (by simp; decide) behind
        rw [List.append_assoc, List.cons_append, fieldOfLine?_of_colon hcolon,
          fieldOfLine?_of_colon hcolon, ← htrim, List.nil_append]

/-- A carriage return at the end of a line does not matter for its field. -/
theorem fieldOfLine?_read (line : Line) : fieldOfLine? line.read = fieldOfLine? line.text := by
  rw [Line.read]
  split
  · rfl
  · exact fieldOfLine?_dropReturn line.text

-- ============================================================== files

/-- What the lines of a text tell, in their order. -/
def fieldsOf (s : List Char) : List (String × String) := (lines s).filterMap fieldOfLine?

/-- A text gives the fields of its closed lines before those of the rest. -/
theorem fieldsOf_written_append (closed : List Line) (rest : List Char) :
    fieldsOf (written closed ++ rest)
      = closed.filterMap (fun line => fieldOfLine? line.text) ++ fieldsOf rest := by
  rw [fieldsOf, lines_written_append, List.filterMap_append, List.filterMap_map, fieldsOf]
  congr 1
  exact List.filterMap_congr fun line _ => fieldOfLine?_read line

/-- Texts that tell the same have the same fields. -/
theorem parse_ofList (s : List Char) : Fields.parse (.ofList s) = .ofList (fieldsOf s) := by
  rw [Fields.parse, String.toList_ofList, fieldsOf]

/-- A text without a line feed gives the field of its only line. -/
theorem fieldsOf_of_notMem {s : List Char} (hfeed : '\n' ∉ s) : fieldsOf s = (fieldOfLine? s).toList := by
  rw [fieldsOf, lines_of_notMem hfeed]
  split
  · next h => rw [h]; rfl
  · rw [List.filterMap_cons, List.filterMap_nil]
    cases fieldOfLine? s <;> rfl

/-- A line without a colon adds nothing to what the others tell. -/
theorem fieldsOf_mute {line : Line} (h : ':' ∉ line.text) (rest : List Char) :
    fieldsOf (line.written ++ rest) = fieldsOf rest := by
  have hnone : fieldOfLine? line.read = none := by
    rw [fieldOfLine?_read, fieldOfLine?_eq_none_iff]
    exact h
  rw [fieldsOf, line.lines_written_append, List.filterMap_cons_none hnone, fieldsOf]

/-- Under a key stands what the last line tells that tells of it. -/
theorem lastField_eq_some_iff {key content value : String} :
    lastField key content = some value ↔ LastTells (lines content.toList) key value := by
  rw [lastField, List.findRev?_eq_find?_reverse, Option.map_eq_some_iff]
  constructor
  · rintro ⟨⟨k, v⟩, hfind, rfl⟩
    obtain ⟨hkey, others, earlier, hsplit, hothers⟩ := List.find?_eq_some_iff_append.mp hfind
    obtain rfl : k = key := by simpa using hkey
    -- the fields in order: some earlier ones, the one that was found, and later ones of other keys
    have htold : (lines content.toList).filterMap fieldOfLine?
        = earlier.reverse ++ (k, v) :: others.reverse := by
      rw [← List.reverse_reverse (List.filterMap _ _), hsplit]
      simp
    obtain ⟨before, tail, hlines, -, htail⟩ := List.filterMap_eq_append_iff.mp htold
    obtain ⟨mute, line, after, rfl, -, hline, hafter⟩ := List.filterMap_eq_cons_iff.mp htail
    refine ⟨before ++ mute, line, after, by rw [hlines, List.append_assoc],
      fieldOfLine?_eq_some_iff.mp hline, fun later hlater other htells => ?_⟩
    have hmem : (k, other) ∈ others := by
      rw [← List.mem_reverse, ← hafter, List.mem_filterMap]
      exact ⟨later, hlater, fieldOfLine?_eq_some_iff.mpr htells⟩
    simpa using hothers _ hmem
  · rintro ⟨before, line, after, hlines, htells, hlast⟩
    refine ⟨(key, value), ?_, rfl⟩
    rw [hlines, List.filterMap_append, List.filterMap_cons_some
      (fieldOfLine?_eq_some_iff.mpr htells), List.reverse_append, List.reverse_cons,
      List.append_assoc]
    refine List.find?_eq_some_iff_append.mpr ⟨by simp, _, _, rfl, ?_⟩
    rintro ⟨k, v⟩ hmem
    obtain ⟨later, hlater, hfield⟩ := List.mem_filterMap.mp (List.mem_reverse.mp hmem)
    -- a later field of that key would be told by a later line
    have hother : k ≠ key := by
      rintro rfl
      exact hlast later hlater v (fieldOfLine?_eq_some_iff.mp hfield)
    simpa using hother

/-- A key has no value exactly when no line tells it. -/
theorem lastField_eq_none_iff {key content : String} :
    lastField key content = none ↔ ∀ line ∈ lines content.toList, ∀ value, ¬ Tells line key value := by
  rw [lastField, Option.map_eq_none_iff, List.findRev?_eq_find?_reverse, List.find?_eq_none]
  constructor
  · intro h line hline value htells
    have hmem : (key, value) ∈ ((lines content.toList).filterMap fieldOfLine?).reverse := by
      rw [List.mem_reverse, List.mem_filterMap]
      exact ⟨line, hline, fieldOfLine?_eq_some_iff.mpr htells⟩
    exact h _ hmem (by simp)
  · rintro h ⟨k, v⟩ hmem hkey
    obtain ⟨line, hline, hfield⟩ := List.mem_filterMap.mp (List.mem_reverse.mp hmem)
    obtain rfl : k = key := by simpa using hkey
    exact h line hline v (fieldOfLine?_eq_some_iff.mp hfield)

-- ============================================================ entries

/-- A text with blanks around it. -/
structure Padded where
  opening : List Char
  text : List Char
  closing : List Char
  isBlank_of_mem_opening : ∀ c ∈ opening, isBlank c = true
  isBlank_of_mem_closing : ∀ c ∈ closing, isBlank c = true

namespace Padded

def written (p : Padded) : List Char := p.opening ++ p.text ++ p.closing

theorem trim_written (p : Padded) : trim p.written = trim p.text :=
  trim_between p.isBlank_of_mem_opening p.isBlank_of_mem_closing p.text

/-- Padding adds blanks only. -/
theorem notMem_written {p : Padded} {c : Char} (hc : isBlank c = false) (h : c ∉ p.text) :
    c ∉ p.written := by
  have hblank : ∀ blanks : List Char, (∀ d ∈ blanks, isBlank d = true) → c ∉ blanks := by
    intro blanks hblanks hmem
    rw [hblanks c hmem] at hc
    cases hc
  simp [written, h, hblank _ p.isBlank_of_mem_opening, hblank _ p.isBlank_of_mem_closing]

end Padded

/-- A line of a key and a value, with blanks around either, and with an ending. -/
structure Entry where
  key : Padded
  value : Padded
  returned : Bool
  colonless : ':' ∉ key.text
  feedless : '\n' ∉ key.written ++ value.written

namespace Entry

def line (entry : Entry) : Line where
  text := entry.key.written ++ ':' :: entry.value.written
  returned := entry.returned
  feedless := by simpa using entry.feedless

/-- The key and the value of an entry, without the blanks at their ends. -/
def field (entry : Entry) : String × String :=
  (.ofList (trim entry.key.text), .ofList (trim entry.value.text))

theorem fieldOfLine?_line (entry : Entry) : fieldOfLine? entry.line.text = some entry.field := by
  have hcolon : ':' ∉ entry.key.written := Padded.notMem_written (by decide) entry.colonless
  rw [line, fieldOfLine?_of_colon hcolon, Padded.trim_written, Padded.trim_written, field]

end Entry

/-- A file of entries tells their keys and values, the last entry with an ending or without
one. -/
theorem fieldsOf_entries (entries : List Entry) (last : Option Entry) :
    fieldsOf (written (entries.map Entry.line) ++ (last.map (·.line.text)).getD [])
      = (entries ++ last.toList).map Entry.field := by
  have hclosed : (entries.map Entry.line).filterMap (fun line => fieldOfLine? line.text)
      = entries.map Entry.field := by
    rw [List.filterMap_map]
    exact List.filterMap_eq_map_iff_forall_eq_some.mpr fun entry _ => entry.fieldOfLine?_line
  have hlast : fieldsOf ((last.map (·.line.text)).getD []) = last.toList.map Entry.field := by
    cases last with
    | none => rfl
    | some entry =>
        rw [Option.map_some, Option.getD_some, fieldsOf_of_notMem entry.line.feedless,
          entry.fieldOfLine?_line]
        rfl
  rw [fieldsOf_written_append, hclosed, hlast, List.map_append]

-- ============================================================ amounts

/-- An amount as it is written: a numeral in front of its unit, and blanks. -/
structure Amount where
  number : List Char
  kb : Nat
  isNumeral : IsNumeral number kb
  opening : List Char
  gap : List Char
  closing : List Char
  isBlank_of_mem_opening : ∀ c ∈ opening, isBlank c = true
  isBlank_of_mem_gap : ∀ c ∈ gap, isBlank c = true
  isBlank_of_mem_closing : ∀ c ∈ closing, isBlank c = true

def Amount.text (amount : Amount) : List Char :=
  amount.opening ++ (amount.number ++ amount.gap ++ ['k', 'B']) ++ amount.closing

/-- A tail is taken off a text that ends in it. -/
theorem beforeEnding_eq_some_iff {tail s front : List Char} :
    beforeEnding tail s = some front ↔ s = front ++ tail := by
  unfold beforeEnding
  split
  · next h =>
      obtain ⟨others, rfl⟩ := List.isSuffixOf_iff_suffix.mp h
      rw [List.take_left' (by simp), Option.some.injEq]
      exact ⟨fun h => h ▸ rfl, List.append_cancel_right⟩
  · next h =>
      refine iff_of_false nofun ?_
      rintro rfl
      exact h (List.isSuffixOf_iff_suffix.mpr (List.suffix_append front tail))

/-- An amount is a numeral in front of its unit. -/
theorem kilobytes_eq_ok_iff {value : String} {kb : UInt64} :
    kilobytes value = .ok kb ↔ ∃ number, trim value.toList = number ++ ['k', 'B']
      ∧ IsNumeral (trim number) kb.toNat := by
  simp only [← beforeEnding_eq_some_iff, ← word64?_eq_some_iff]
  unfold kilobytes
  cases hunit : beforeEnding ['k', 'B'] (trim value.toList) with
  | none => simp
  | some number =>
      simp only [Option.some.injEq, exists_eq_left']
      cases word64? (trim number) <;> simp

/-- A trimmed amount is its number, the gap and the unit. -/
theorem trim_amount (amount : Amount) :
    trim amount.text = amount.number ++ amount.gap ++ ['k', 'B'] := by
  obtain ⟨c, digits, hnumber⟩ := List.exists_cons_of_ne_nil amount.isNumeral.ne_nil
  have hc : isBlank c = false := amount.isNumeral.not_isBlank c (hnumber ▸ List.mem_cons_self ..)
  have hleft : trimLeft (c :: (digits ++ amount.gap ++ ['k']))
      = c :: (digits ++ amount.gap ++ ['k']) := List.dropWhile_cons_of_neg (by simp [hc])
  have hsplit : amount.number ++ amount.gap ++ ['k', 'B']
      = c :: (digits ++ amount.gap ++ ['k']) ++ 'B' :: [] := by simp [hnumber]
  rw [Amount.text, trim_between amount.isBlank_of_mem_opening amount.isBlank_of_mem_closing, hsplit,
    trim_append_cons (by decide), hleft]
  rfl

/-- An amount that is written is read if it fits, as what it is. -/
theorem kilobytes_text_eq_ok_iff (amount : Amount) {kb : UInt64} :
    kilobytes (.ofList amount.text) = .ok kb ↔ kb.toNat = amount.kb := by
  have hnumber : trim (amount.number ++ amount.gap) = amount.number := by
    have hgap := @trim_between [] amount.gap (by simp) amount.isBlank_of_mem_gap amount.number
    rw [List.nil_append, trim_of_not_isBlank amount.isNumeral.not_isBlank] at hgap
    exact hgap
  rw [kilobytes_eq_ok_iff, String.toList_ofList, trim_amount]
  constructor
  · rintro ⟨number, hsplit, hnumeral⟩
    rw [← List.append_cancel_right hsplit, hnumber] at hnumeral
    exact amount.isNumeral.eq_of_isNumeral hnumeral
  · rintro hkb
    refine ⟨_, rfl, ?_⟩
    rw [hnumber, hkb]
    exact amount.isNumeral

/-- An amount is refused exactly when its number does not fit 64 bits. -/
theorem kilobytes_text_eq_error_iff (amount : Amount) :
    (∃ cause, kilobytes (.ofList amount.text) = .error cause) ↔ UInt64.size ≤ amount.kb := by
  rw [exists_error_iff, ← Nat.not_lt, not_iff_not]
  simp only [kilobytes_text_eq_ok_iff]
  constructor
  · rintro ⟨kb, hkb⟩
    exact hkb ▸ kb.toNat_lt_size
  · intro hfits
    exact ⟨UInt64.ofNatLT amount.kb hfits, UInt64.toNat_ofNatLT ..⟩

/-- A value without the unit is refused for that. -/
theorem kilobytes_of_no_unit {value : String} (h : ¬ ['k', 'B'] <:+ trim value.toList) :
    kilobytes value = .error (.missingUnit value) := by
  have hunit : beforeEnding ['k', 'B'] (trim value.toList) = none :=
    if_neg fun hends => h (List.isSuffixOf_iff_suffix.mp hends)
  rw [kilobytes, hunit]

-- ============================================================= memory

/-- What some lines give for an amount: nothing if none of them tells of its key, and else
what the last one tells, be it an amount or not. -/
def Gives (lines : List (List Char)) (key : String) : Finding UInt64 → Prop
  | .absent => ∀ line ∈ lines, ∀ value, ¬ Tells line key value
  | .wellFormed kb => ∃ value, LastTells lines key value ∧ kilobytes value = .ok kb
  | .malformed cause => ∃ value, LastTells lines key value ∧ kilobytes value = .error cause

/-- What the last telling line of a key gives is what the field is found to hold. -/
theorem gives_amountIn (key content : String) :
    Gives (lines content.toList) key (amountIn key content) := by
  unfold amountIn
  cases hfield : lastField key content with
  | none => exact lastField_eq_none_iff.mp hfield
  | some value =>
      have hlast := lastField_eq_some_iff.mp hfield
      dsimp only
      cases hvalue : kilobytes value with
      | ok kb => exact ⟨value, hlast, hvalue⟩
      | error cause => exact ⟨value, hlast, hvalue⟩

/-- An amount that is missing or refused counts as zero. -/
theorem amountOrZero_amount (key content : String) :
    amountOrZero ((Fields.parse content).amount key) = (amountIn key content).settle 0 id := by
  rw [← ofField_amount]
  rcases (Fields.parse content).amount key with cause | kb | kb <;> rfl

/-- A memory is made of its total and its free amount. -/
theorem value_memoryOfFields (fields : Fields) :
    (memoryOfFields fields).value.totalKb = amountOrZero (fields.amount "MemTotal")
    ∧ (memoryOfFields fields).value.freeKb = amountOrZero (fields.amount "MemFree")
    ∧ (memoryOfFields fields).value.usagePercent
      = Rate.memoryUsagePercent (memoryOfFields fields).value.totalKb
          (memoryOfFields fields).value.freeKb :=
  ⟨rfl, rfl, rfl⟩

/-- The memory is read of a file amount by amount, whatever else the file tells. -/
theorem readMemory_by_amounts {fs : FileSystem} {root : Path} {content : String}
    (h : fs.read (root.join ⟨"meminfo"⟩) = .ok content) :
    ∃ reading, readMemory fs root = .ok reading
      ∧ reading.value.totalKb = (amountIn "MemTotal" content).settle 0 id
      ∧ reading.value.freeKb = (amountIn "MemFree" content).settle 0 id
      ∧ reading.value.usagePercent
        = Rate.memoryUsagePercent reading.value.totalKb reading.value.freeKb
      ∧ reading.issues
        = (amountIn "MemTotal" content).issues ++ (amountIn "MemFree" content).issues := by
  have hissues := Sweep.issues_memoryOfFields content
  rw [List.flatMap_cons, List.flatMap_singleton, amountIssue_eq, amountIssue_eq] at hissues
  have hread := Sweep.readFile_bind_of_ok h fun content => memoryOfFields (.parse content)
  obtain ⟨htotal, hfree, hshare⟩ := value_memoryOfFields (Fields.parse content)
  rw [amountOrZero_amount] at htotal hfree
  exact ⟨_, hread, htotal, hfree, hshare, hissues⟩

/-- What a file of keys and values tells.

Every file is a page of lines. Under a key stands what the last line tells of it that tells
of it at all, and nothing stands under a key that no line tells of. A line without a colon
may be put anywhere, and the fields are the same. Of entries they are the keys with their
values, the last value of a key, whatever blanks are around them and however the lines end.

An amount is read exactly if it is less than two to the power of sixty-four, as itself,
and is a failure otherwise, whatever blanks are in it. A text that does not end in the
unit is a failure.

So the memory of a host is read field by field. For each of the two the amount is the one
that the last line of its key gives, if that is one. It is zero if the line is malformed,
which is one issue, and if there is no such line, which is none. -/
theorem fields_are_told_by_last_lines :
    (∀ content : String, ∃ page : Page, page.text = content.toList ∧ ∀ key : String,
      (∀ value, (Fields.parse content)[key]? = some value ↔ LastTells page.lines key value)
      ∧ ((Fields.parse content)[key]? = none
          ↔ ∀ line ∈ page.lines, ∀ value, ¬ Tells line key value))
    ∧ (∀ (before : List Line) (mute : Line) (rest : List Char), ':' ∉ mute.text →
        Fields.parse (.ofList (written before ++ (mute.written ++ rest)))
          = Fields.parse (.ofList (written before ++ rest)))
    ∧ (∀ (closed : List Line) (mute : List Char), '\n' ∉ mute → ':' ∉ mute →
        Fields.parse (.ofList (written closed ++ mute)) = Fields.parse (.ofList (written closed)))
    ∧ (∀ (entries : List Entry) (last : Option Entry),
        Fields.parse
            (.ofList (written (entries.map Entry.line) ++ (last.map (·.line.text)).getD []))
          = .ofList ((entries ++ last.toList).map Entry.field))
    ∧ (∀ amount : Amount,
        (∀ kb, kilobytes (.ofList amount.text) = .ok kb ↔ kb.toNat = amount.kb)
        ∧ ((∃ cause, kilobytes (.ofList amount.text) = .error cause)
            ↔ UInt64.size ≤ amount.kb))
    ∧ (∀ value : String, ¬ ['k', 'B'] <:+ trim value.toList →
        kilobytes value = .error (.missingUnit value))
    ∧ ∀ (fs : FileSystem) (root : Path) (content : String),
        fs.read (root.join ⟨"meminfo"⟩) = .ok content →
        ∃ (page : Page) (reading : Reading Memory) (total free : Finding UInt64),
          page.text = content.toList
          ∧ readMemory fs root = .ok reading
          ∧ Gives page.lines "MemTotal" total
          ∧ Gives page.lines "MemFree" free
          ∧ reading.value.totalKb = total.settle 0 id
          ∧ reading.value.freeKb = free.settle 0 id
          ∧ reading.value.usagePercent
            = Rate.memoryUsagePercent reading.value.totalKb reading.value.freeKb
          ∧ reading.issues = total.issues ++ free.issues := by
  refine ⟨fun content => ?_, fun before mute rest hcolon => ?_, fun closed mute hfeed hcolon => ?_,
    fun entries last => ?_, fun amount => ⟨fun kb => kilobytes_text_eq_ok_iff amount,
    kilobytes_text_eq_error_iff amount⟩, fun value => kilobytes_of_no_unit,
    fun fs root content hcontent => ?_⟩
  · obtain ⟨page, hpage⟩ := exists_page content.toList
    refine ⟨page, hpage, fun key => ⟨fun value => ?_, ?_⟩⟩
    · rw [getElem?_parse, lastField_eq_some_iff, ← hpage, Page.lines_text]
    · rw [getElem?_parse, lastField_eq_none_iff, ← hpage, Page.lines_text]
  · rw [parse_ofList, parse_ofList, fieldsOf_written_append, fieldsOf_written_append,
      fieldsOf_mute hcolon]
  · have hnone := fieldsOf_of_notMem hfeed
    rw [fieldOfLine?_eq_none_iff.mpr hcolon] at hnone
    have hclosed := fieldsOf_written_append closed []
    rw [List.append_nil] at hclosed
    rw [parse_ofList, parse_ofList, fieldsOf_written_append, hnone, hclosed]
    rfl
  · rw [parse_ofList, fieldsOf_entries]
  · obtain ⟨page, hpage⟩ := exists_page content.toList
    obtain ⟨reading, hread, htotal, hfree, hshare, hissues⟩ := readMemory_by_amounts hcontent
    have hgives := fun key => gives_amountIn key content
    rw [← hpage, Page.lines_text] at hgives
    exact ⟨page, reading, _, _, hpage, hread, hgives "MemTotal", hgives "MemFree", htotal, hfree,
      hshare, hissues⟩

end Vitals.Proc
