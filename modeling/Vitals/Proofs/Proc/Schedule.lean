/-
Where the counters of a scheduling line are found.

A scheduling line has the name of a command in its midst, between parentheses, and the
process has chosen that name itself. It may hold blanks, digits, parentheses and the look
of a whole line. What a process cannot choose is the columns behind its name, and no
column of a line has a parenthesis that closes. So the last such parenthesis is the one
behind the name, however many there are in it, and what stands behind that are the
columns (`exists_afterLast`). The two counters are then the twelfth and the thirteenth of
them, or there are none.
-/
import Vitals.Proc.Rows
import Vitals.Proofs.Text.Numeral
import Vitals.Proofs.Text.Words

namespace Vitals.Proc

open Text

-- =============================================================== lines

/-- A column, behind the blanks that part it from what is in front of it. -/
structure Column where
  blanks : List Char
  text : List Char
  blanks_ne_nil : blanks ≠ []
  text_ne_nil : text ≠ []
  isBlank_of_mem_blanks : ∀ c ∈ blanks, isBlank c = true
  /-- A column is a word, and closes no parenthesis. -/
  plain : ∀ c ∈ text, isBlank c = false ∧ c ≠ ')'

/-- A scheduling line: a number, a command name that may be any text, and columns. -/
structure ScheduleLine where
  opening : List Char
  pid : List Char
  command : List Char
  columns : List Column
  closing : List Char
  isBlank_of_mem_opening : ∀ c ∈ opening, isBlank c = true
  isBlank_of_mem_closing : ∀ c ∈ closing, isBlank c = true

namespace ScheduleLine

/-- The columns as they are written. -/
def columnsText (line : ScheduleLine) : List Char :=
  line.columns.flatMap fun column => column.blanks ++ column.text

/-- The line as it is written. -/
def text (line : ScheduleLine) : List Char :=
  line.opening ++ line.pid ++ ' ' :: '(' :: line.command
    ++ ')' :: (line.columnsText ++ line.closing)

/-- The text of a column, counted from the one behind the command name. -/
def column? (line : ScheduleLine) (index : Nat) : Option (List Char) :=
  (line.columns.map (·.text))[index]?

variable (line : ScheduleLine)

/-- No parenthesis closes behind the comm. -/
theorem closes_notMem : ')' ∉ line.columnsText ++ line.closing := by
  rw [List.mem_append]
  rintro (hcolumn | hclosing)
  · obtain ⟨column, -, hmem⟩ := List.mem_flatMap.mp hcolumn
    rcases List.mem_append.mp hmem with hblank | htext
    · exact absurd (column.isBlank_of_mem_blanks _ hblank) (by decide)
    · exact (column.plain _ htext).2 rfl
  · exact absurd (line.isBlank_of_mem_closing _ hclosing) (by decide)

/-- The columns are the words behind the command name. -/
theorem words_columnsText :
    words (trimRight (line.columnsText ++ line.closing)) = line.columns.map (·.text) := by
  have hcolumns := @words_columns (line.columns.map fun column => (column.blanks, column.text))
  rw [List.flatMap_map, List.map_map] at hcolumns
  rw [words_trimRight, words_append_blank line.isBlank_of_mem_closing]
  refine hcolumns ?_ ?_
  · intro pair hpair
    obtain ⟨column, -, rfl⟩ := List.mem_map.mp hpair
    exact ⟨column.blanks_ne_nil, column.isBlank_of_mem_blanks⟩
  · intro pair hpair
    obtain ⟨column, -, rfl⟩ := List.mem_map.mp hpair
    exact ⟨column.text_ne_nil, fun c hc => (column.plain c hc).1⟩

/-- What is read of a line are its columns. -/
theorem exists_afterLast :
    ∃ rest, afterLast ')' (trim (String.ofList line.text).toList) = some rest
      ∧ words rest = line.columns.map (·.text) := by
  refine ⟨_, ?_, line.words_columnsText⟩
  rw [String.toList_ofList, text, trim_append_cons (by decide)]
  refine afterLast_append_cons _ fun hmem => line.closes_notMem ?_
  exact (List.rdropWhile_prefix isBlank _).subset hmem

end ScheduleLine

-- ============================================================ counters

section Counters

variable {columns : List (List Char)} {index : Nat} {field : TimeField}

/-- A time is read when its column is a numeral of 64 bits. -/
theorem timeAt_eq_ok_iff {n : UInt64} :
    timeAt columns index field = .ok n
      ↔ ∃ column, columns[index]? = some column ∧ IsNumeral column n.toNat := by
  unfold timeAt
  cases columns[index]? with
  | none => simp
  | some column =>
      simp only [Option.some.injEq, exists_eq_left', ← word64?_eq_some_iff]
      cases word64? column <;> simp

/-- A time is refused when its column is missing or no numeral of 64 bits. -/
theorem timeAt_eq_error_iff :
    (∃ cause, timeAt columns index field = .error cause)
      ↔ ∀ column, columns[index]? = some column → ¬ ∃ n < UInt64.size, IsNumeral column n := by
  unfold timeAt
  cases columns[index]? with
  | none => simp
  | some column =>
      simp only [Option.some.injEq, forall_eq', ← word64?_eq_none_iff]
      cases word64? column <;> simp

/-- A time depends on its column only. -/
theorem timeAt_congr {columns' : List (List Char)} (h : columns'[index]? = columns[index]?)
    (field : TimeField) : timeAt columns' index field = timeAt columns index field := by
  rw [timeAt, timeAt, h]

/-- A column is missing or no numeral, of two that follow one another, precisely if there are
too few of them or one of the two is no numeral. -/
theorem timeAt_or_timeAt_eq_error_iff {field' : TimeField} :
    ((∃ cause, timeAt columns index field = .error cause)
        ∨ ∃ cause, timeAt columns (index + 1) field' = .error cause)
      ↔ columns.length < index + 2
        ∨ ∃ column, (columns[index]? = some column ∨ columns[index + 1]? = some column)
          ∧ ¬ ∃ n < UInt64.size, IsNumeral column n := by
  rw [timeAt_eq_error_iff, timeAt_eq_error_iff]
  constructor
  · intro h
    by_cases hshort : columns.length < index + 2
    · exact .inl hshort
    · rcases h with h | h
      · have hcolumn := List.getElem?_eq_getElem (l := columns) (i := index) (by omega)
        exact .inr ⟨_, .inl hcolumn, h _ hcolumn⟩
      · have hcolumn := List.getElem?_eq_getElem (l := columns) (i := index + 1) (by omega)
        exact .inr ⟨_, .inr hcolumn, h _ hcolumn⟩
  · rintro (hshort | ⟨column, hcolumn | hcolumn, hnone⟩)
    · refine .inr fun column hcolumn => ?_
      rw [List.getElem?_eq_none (by omega)] at hcolumn
      cases hcolumn
    · refine .inl fun other hother => ?_
      rwa [← Option.some.inj (hcolumn.symm.trans hother)]
    · refine .inr fun other hother => ?_
      rwa [← Option.some.inj (hcolumn.symm.trans hother)]

variable {content : String} {rest : List Char}
  (h : afterLast ')' (trim content.toList) = some rest)
include h

/-- The counters of a line are had if both are. -/
theorem scheduledTimes_eq_ok_iff {times : ScheduledTimes} :
    scheduledTimes content = .ok times
      ↔ timeAt (words rest) 11 .utime = .ok times.utime
        ∧ timeAt (words rest) 12 .stime = .ok times.stime := by
  rw [scheduledTimes, h]
  dsimp only
  cases timeAt (words rest) 11 .utime with
  | error cause => exact iff_of_false nofun nofun
  | ok utime =>
      cases timeAt (words rest) 12 .stime with
      | error cause => exact iff_of_false nofun nofun
      | ok stime =>
          constructor
          · rintro ⟨⟩
            exact ⟨rfl, rfl⟩
          · rintro ⟨⟨⟩, ⟨⟩⟩
            rfl

/-- The times are refused when either of them is. -/
theorem scheduledTimes_eq_error_iff :
    (∃ cause, scheduledTimes content = .error cause)
      ↔ (∃ cause, timeAt (words rest) 11 .utime = .error cause)
        ∨ ∃ cause, timeAt (words rest) 12 .stime = .error cause := by
  rw [scheduledTimes, h]
  dsimp only
  cases timeAt (words rest) 11 .utime with
  | error cause => exact iff_of_true ⟨cause, rfl⟩ (.inl ⟨cause, rfl⟩)
  | ok utime =>
      cases timeAt (words rest) 12 .stime with
      | error cause => exact iff_of_true ⟨cause, rfl⟩ (.inr ⟨cause, rfl⟩)
      | ok stime => exact iff_of_false nofun (by rintro (⟨_, ⟨⟩⟩ | ⟨_, ⟨⟩⟩))

/-- The times depend on their two columns only. -/
theorem scheduledTimes_congr {content' : String} {rest' : List Char}
    (h' : afterLast ')' (trim content'.toList) = some rest')
    (hutime : (words rest')[11]? = (words rest)[11]?)
    (hstime : (words rest')[12]? = (words rest)[12]?) :
    scheduledTimes content' = scheduledTimes content := by
  rw [scheduledTimes, scheduledTimes, h, h']
  dsimp only
  rw [timeAt_congr hutime, timeAt_congr hstime]

end Counters

/-- The counters of a scheduling line are its twelfth and its thirteenth column behind the
command name, whatever that name is and whatever the other columns are.

They are had exactly if both columns are there and are numerals of sixty-four bits. There
is a failure exactly if the columns are fewer than thirteen or one of the two is no such
numeral. Two lines that agree on the two columns give the same, be it the counters or the
failure. -/
theorem times_stand_in_their_columns (line : ScheduleLine) :
    (∀ times, scheduledTimes (.ofList line.text) = .ok times ↔
      ∃ utime stime, line.column? 11 = some utime ∧ line.column? 12 = some stime
        ∧ IsNumeral utime times.utime.toNat ∧ IsNumeral stime times.stime.toNat)
    ∧ ((∃ cause, scheduledTimes (.ofList line.text) = .error cause) ↔
        line.columns.length < 13
        ∨ ∃ column, (line.column? 11 = some column ∨ line.column? 12 = some column)
          ∧ ¬ ∃ n < UInt64.size, IsNumeral column n)
    ∧ ∀ other : ScheduleLine, other.column? 11 = line.column? 11 →
        other.column? 12 = line.column? 12 →
        scheduledTimes (.ofList other.text) = scheduledTimes (.ofList line.text) := by
  obtain ⟨rest, hrest, hcolumns⟩ := line.exists_afterLast
  refine ⟨fun times => ?_, ?_, fun other hutime hstime => ?_⟩
  · rw [scheduledTimes_eq_ok_iff hrest, timeAt_eq_ok_iff, timeAt_eq_ok_iff, hcolumns]
    constructor
    · rintro ⟨⟨utime, hutime, hu⟩, stime, hstime, hs⟩
      exact ⟨utime, stime, hutime, hstime, hu, hs⟩
    · rintro ⟨utime, stime, hutime, hstime, hu, hs⟩
      exact ⟨⟨utime, hutime, hu⟩, stime, hstime, hs⟩
  · rw [scheduledTimes_eq_error_iff hrest, timeAt_or_timeAt_eq_error_iff, hcolumns,
      List.length_map]
    rfl
  · obtain ⟨rest', hrest', hcolumns'⟩ := other.exists_afterLast
    refine scheduledTimes_congr hrest hrest' ?_ ?_
    · rw [hcolumns', hcolumns]
      exact hutime
    · rw [hcolumns', hcolumns]
      exact hstime

-- a command name with the look of a line
example : scheduledTimes "7 (a) R 1 7 7 0 -1 0 0 0 0 0 5 6 0) S 1 7 7 0 -1 0 0 0 0 0 150 80 0\n"
    = .ok ⟨150, 80⟩ := by
  decide +kernel

end Vitals.Proc
