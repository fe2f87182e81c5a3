/-
The processor rows at the head of a file, each read by itself.

# Why it holds

The rows are the lines that a file opens with, as long as they open with the three letters
of a processor. Whether a line does is settled by the line alone, and so is what is read of
it. A row that is malformed is therefore a failure in its own place and touches no other,
and what stands behind the block has no part in it at all: the first line of another kind
ends it (`takeWhile_lines_of_not_opens`), and what follows is not looked at.

A row is a name and columns. Its words are just these (`CpuLine.words_text`), so the column
that is fourth behind the name is the idle time, and the first seven together are all time,
as much of it as sixty-four bits hold. A row fails if one of these seven is missing or is
no numeral of that width (`cpuRow_eq_ok_iff`). How the line ends does not matter: a
carriage return is a blank, and adds no word.
-/
import Vitals.Proofs.Proc.Rows
import Vitals.Proofs.Text.Lines
import Vitals.Proofs.Text.Numeral

namespace Vitals.Proc

open Text

-- =========================================================== counters

/-- Columns are read as counters exactly if each is a numeral, and then as its value. -/
theorem jiffies_eq_ok_iff {line : String} {columns : List (List Char)} {counters : List UInt64} :
    jiffies line columns = .ok counters
      ↔ List.Forall₂ (fun column n => IsNumeral column n.toNat) columns counters := by
  induction columns generalizing counters with
  | nil =>
      rw [jiffies, List.forall₂_nil_left_iff]
      exact ⟨fun h => (Except.ok.inj h).symm, fun h => congrArg Except.ok h.symm⟩
  | cons column columns ih =>
      rw [jiffies, List.forall₂_cons_left_iff]
      -- the first column that is no counter settles the row
      cases hcolumn : word64? column with
      | none =>
          refine iff_of_false ?_ ?_
          · intro h
            cases h
          · rintro ⟨n, -, hn, -, -⟩
            rw [word64?_eq_some_iff.mpr hn] at hcolumn
            cases hcolumn
      | some m =>
          dsimp only
          constructor
          · intro h
            cases hrest : jiffies line columns with
            | error cause =>
                rw [hrest] at h
                cases h
            | ok others =>
                rw [hrest] at h
                cases h
                exact ⟨m, others, word64?_eq_some_iff.mp hcolumn, ih.mp hrest, rfl⟩
          · rintro ⟨n, others, hn, hothers, rfl⟩
            rw [word64?_eq_some_iff.mpr hn] at hcolumn
            cases hcolumn
            rw [ih.mpr hothers]
            rfl

/-- Columns can be read as counters if each of them is a numeral of their width. -/
theorem exists_counters_iff {columns : List (List Char)} :
    (∃ counters : List UInt64,
        List.Forall₂ (fun column n => IsNumeral column n.toNat) columns counters)
      ↔ ∀ column ∈ columns, ∃ n < UInt64.size, IsNumeral column n := by
  induction columns with
  | nil => exact iff_of_true ⟨[], .nil⟩ (by simp)
  | cons column columns ih =>
      rw [List.forall_mem_cons, ← ih]
      constructor
      · rintro ⟨counters, hcounters⟩
        obtain ⟨n, others, hn, hothers, -⟩ := List.forall₂_cons_left_iff.mp hcounters
        exact ⟨⟨n.toNat, n.toNat_lt_size, hn⟩, others, hothers⟩
      · rintro ⟨⟨n, hlt, hn⟩, others, hothers⟩
        refine ⟨UInt64.ofNatLT n hlt :: others, .cons ?_ hothers⟩
        rwa [UInt64.toNat_ofNatLT]

/-- A capped sum is the sum of the counters, or the greatest counter if that is less. -/
theorem toNat_cappedSum (counters : List UInt64) :
    (cappedSum counters).toNat
      = min (counters.foldr (fun counter total => counter.toNat + total) 0) (UInt64.size - 1) := by
  have hsize : 0 < UInt64.size := by decide
  rw [cappedSum, UInt64.toNat_ofNat_of_lt']
  omega

-- ============================================================ one row

/-- What is read of a row is read of its words. -/
theorem cpuRow_eq_ok_iff {line : String} {times : CpuTimes} :
    cpuRow line = .ok times ↔ ∃ id columns, words line.toList = id :: columns
      ∧ 7 ≤ columns.length
      ∧ ∃ counters : List UInt64,
          List.Forall₂ (fun column n => IsNumeral column n.toNat) (columns.take 7) counters
          ∧ times = { id := .ofList id, idle := counters.getD 3 0, total := cappedSum counters } := by
  constructor
  · intro h
    obtain ⟨id, columns, counters, hwords, hmany, hcounters, htimes⟩ := cpuRow_eq_ok h
    exact ⟨id, columns, hwords, hmany, counters, jiffies_eq_ok_iff.mp hcounters, htimes⟩
  · rintro ⟨id, columns, hwords, hmany, counters, hcounters, rfl⟩
    unfold cpuRow
    rw [hwords]
    dsimp only
    rw [if_neg (by omega), jiffies_eq_ok_iff.mpr hcounters]
    rfl

/-- Two lines of the same words are the same row, or no row either of them. -/
theorem toOption_cpuRow_congr {line line' : String}
    (h : words line'.toList = words line.toList) :
    (cpuRow line').toOption = (cpuRow line).toOption := by
  have hsome : ∀ (row : Except ParseError CpuTimes) (times : CpuTimes),
      row.toOption = some times ↔ row = .ok times := by
    rintro (cause | t) times <;> simp [Except.toOption]
  refine Option.ext fun times => ?_
  rw [hsome, hsome, cpuRow_eq_ok_iff, cpuRow_eq_ok_iff, h]

theorem words_dropReturn (line : List Char) : words (dropReturn line) = words line := by
  rcases eq_dropReturn_or line with h | h
  · rw [← h]
  · conv => rhs; rw [h]
    rw [words_append_blank (by simp; decide)]

/-- A column of a row, behind the blanks that part it from what is in front of it. -/
structure Cell where
  blanks : List Char
  text : List Char
  blanks_ne_nil : blanks ≠ []
  text_ne_nil : text ≠ []
  isBlank_of_mem_blanks : ∀ c ∈ blanks, isBlank c = true
  not_isBlank_of_mem_text : ∀ c ∈ text, isBlank c = false

/-- A row as it is written: a name, columns, and perhaps blanks behind them. -/
structure CpuLine where
  id : List Char
  columns : List Cell
  closing : List Char
  opens : ['c', 'p', 'u'] <+: id
  not_isBlank_of_mem_id : ∀ c ∈ id, isBlank c = false
  isBlank_of_mem_closing : ∀ c ∈ closing, isBlank c = true

namespace CpuLine

def text (row : CpuLine) : List Char :=
  row.id ++ (row.columns.flatMap fun cell => cell.blanks ++ cell.text) ++ row.closing

/-- The first seven columns, or as many as there are. -/
def counted (row : CpuLine) : List (List Char) := (row.columns.map (·.text)).take 7

/-- The words of a row are its name and its columns. -/
theorem words_text (row : CpuLine) : words row.text = row.id :: row.columns.map (·.text) := by
  have hne : row.id ≠ [] := by
    rintro h
    exact absurd (h ▸ row.opens) (by simp)
  have hcells := @words_append_columns row.id (row.columns.map fun cell => (cell.blanks, cell.text))
  rw [List.flatMap_map, List.map_map] at hcells
  rw [text, words_append_blank row.isBlank_of_mem_closing]
  refine (hcells ?_ ?_).trans ?_
  · intro pair hpair
    obtain ⟨cell, -, rfl⟩ := List.mem_map.mp hpair
    exact ⟨cell.blanks_ne_nil, cell.isBlank_of_mem_blanks⟩
  · intro pair hpair
    obtain ⟨cell, -, rfl⟩ := List.mem_map.mp hpair
    exact ⟨cell.text_ne_nil, cell.not_isBlank_of_mem_text⟩
  · rw [words_of_word hne row.not_isBlank_of_mem_id]
    rfl

/-- A row is read of its name and its first seven columns. -/
theorem cpuRow_text_eq (row : CpuLine) {times : CpuTimes} :
    cpuRow (.ofList row.text) = .ok times ↔ 7 ≤ row.columns.length
      ∧ ∃ counters : List UInt64,
          List.Forall₂ (fun column n => IsNumeral column n.toNat) row.counted counters
          ∧ times
            = { id := .ofList row.id, idle := counters.getD 3 0, total := cappedSum counters } := by
  rw [cpuRow_eq_ok_iff, String.toList_ofList, words_text]
  constructor
  · rintro ⟨id, columns, hwords, hmany, hcounters⟩
    obtain ⟨rfl, rfl⟩ := List.cons.inj hwords
    exact ⟨by rwa [List.length_map] at hmany, hcounters⟩
  · rintro ⟨hmany, hcounters⟩
    exact ⟨row.id, _, rfl, by rwa [List.length_map], hcounters⟩

/-- A row is read if it has seven columns and its counters are numerals. -/
theorem cpuRow_text_eq_ok_iff (row : CpuLine) (times : CpuTimes) :
    cpuRow (.ofList row.text) = .ok times ↔
      7 ≤ row.columns.length
      ∧ ∃ counters : List UInt64,
          List.Forall₂ (fun column n => IsNumeral column n.toNat) row.counted counters
          ∧ times.id = .ofList row.id
          ∧ counters[3]? = some times.idle
          ∧ times.total.toNat
              = min (counters.foldr (fun n sum => n.toNat + sum) 0) (UInt64.size - 1) := by
  rw [cpuRow_text_eq]
  refine and_congr_right fun hmany => exists_congr fun counters => and_congr_right fun hcounters => ?_
  have hlength : 3 < counters.length := by
    rw [← hcounters.length_eq, counted, List.length_take, List.length_map]
    omega
  obtain ⟨id, idle, total⟩ := times
  rw [List.getD_eq_getElem _ _ hlength, List.getElem?_eq_getElem hlength, Option.some.injEq,
    ← toNat_cappedSum, UInt64.toNat_inj, CpuTimes.mk.injEq, @eq_comm _ idle]

theorem cpuRow_text_eq_error_iff (row : CpuLine) :
    (∃ cause, cpuRow (.ofList row.text) = .error cause) ↔
      row.columns.length < 7
      ∨ ∃ column ∈ row.counted, ¬ ∃ n < UInt64.size, IsNumeral column n := by
  have hread : (∃ times, cpuRow (.ofList row.text) = .ok times) ↔
      7 ≤ row.columns.length ∧ ∀ column ∈ row.counted, ∃ n < UInt64.size, IsNumeral column n := by
    rw [← exists_counters_iff]
    constructor
    · rintro ⟨times, htimes⟩
      obtain ⟨hmany, counters, hcounters, -⟩ := row.cpuRow_text_eq.mp htimes
      exact ⟨hmany, counters, hcounters⟩
    · rintro ⟨hmany, counters, hcounters⟩
      exact ⟨_, row.cpuRow_text_eq.mpr ⟨hmany, counters, hcounters, rfl⟩⟩
  rw [exists_error_iff, hread, not_and_or, Nat.not_le]
  push Not
  rfl

end CpuLine

-- ========================================================== the block

theorem isCpuLine_iff {line : List Char} : isCpuLine line = true ↔ ['c', 'p', 'u'] <+: line :=
  List.isPrefixOf_iff_prefix

/-- A carriage return at its end has no part in how a line opens. -/
theorem opens_dropReturn_iff {line : List Char} :
    ['c', 'p', 'u'] <+: dropReturn line ↔ ['c', 'p', 'u'] <+: line := by
  constructor
  · exact fun h => h.trans (dropReturn_isPrefix line)
  · intro h
    rcases eq_dropReturn_or line with hline | hline
    · rwa [← hline]
    · rw [hline, List.prefix_concat_iff] at h
      rcases h with hwhole | h
      · have hlast := congrArg List.getLast? hwhole
        rw [List.getLast?_concat] at hlast
        exact absurd hlast (by decide)
      · exact h

theorem isCpuLine_read (line : Line) : isCpuLine line.read = isCpuLine line.text := by
  rw [Bool.eq_iff_iff, isCpuLine_iff, isCpuLine_iff, Line.read]
  split
  · rfl
  · exact opens_dropReturn_iff

/-- How a line ends has no part in what is read of it. -/
theorem toOption_cpuRow_read (line : Line) :
    (cpuRow (.ofList line.read)).toOption = (cpuRow (.ofList line.text)).toOption := by
  refine toOption_cpuRow_congr ?_
  rw [String.toList_ofList, String.toList_ofList, Line.read]
  split
  · rfl
  · exact words_dropReturn line.text

theorem cpuRows_written_append (closed : List Line) (rest : List Char) :
    cpuRows (.ofList (written closed ++ rest))
      = ((closed.map Line.read ++ lines rest).takeWhile isCpuLine).map
          fun line => cpuRow (.ofList line) := by
  rw [cpuRows, String.toList_ofList, lines_written_append]

/-- A line of another kind ends the block, and what is behind it is not looked at. -/
theorem takeWhile_lines_of_not_opens {rest : List Char} (h : ¬ ['c', 'p', 'u'] <+: rest) :
    (lines rest).takeWhile isCpuLine = [] := by
  cases hlines : lines rest with
  | nil => rfl
  | cons first others =>
      refine List.takeWhile_cons_of_neg fun hfirst => h ?_
      have hhead : first ∈ (lines rest).head? := by rw [hlines]; rfl
      exact (isCpuLine_iff.mp hfirst).trans (prefix_of_mem_head?_lines hhead)

theorem takeWhile_append_of_nil {α : Type} {p : α → Bool} (s : List α) {t : List α}
    (h : t.takeWhile p = []) : (s ++ t).takeWhile p = s.takeWhile p := by
  rw [List.takeWhile_append, h, List.append_nil]
  split
  · next hall =>
      have hpre : s.takeWhile p <+: s := List.takeWhile_prefix p
      exact (hpre.eq_of_length hall).symm
  · rfl

/-- Of two lists that differ in one place, and pass the test there, the longest runs that
pass it differ in that place alone. -/
theorem takeWhile_append_cons_eq_set {α : Type} {p : α → Bool} {x y : α} (hx : p x = true)
    (hy : p y = true) (before after : List α) :
    (before ++ y :: after).takeWhile p
      = ((before ++ x :: after).takeWhile p).set before.length y := by
  induction before with
  | nil =>
      rw [List.nil_append, List.nil_append, List.takeWhile_cons_of_pos hx,
        List.takeWhile_cons_of_pos hy]
      rfl
  | cons b before ih =>
      rw [List.cons_append, List.cons_append, List.takeWhile_cons, List.takeWhile_cons]
      split
      · rw [ih, List.length_cons, List.set_cons_succ]
      · rfl

/-- Whatever the endings of their lines, two texts with the same lines are the same rows. -/
theorem map_toOption_cpuRows (closed : List Line) (rest : List Char) :
    (cpuRows (.ofList (written closed ++ rest))).map Except.toOption
      = ((closed.map (·.text) ++ lines rest).takeWhile isCpuLine).map
          fun line => (cpuRow (.ofList line)).toOption := by
  rw [cpuRows_written_append, List.map_map]
  induction closed with
  | nil => rfl
  | cons line closed ih =>
      rw [List.map_cons, List.map_cons, List.cons_append, List.cons_append, List.takeWhile_cons,
        List.takeWhile_cons, isCpuLine_read]
      split
      · rw [List.map_cons, List.map_cons, ih, Function.comp_apply, toOption_cpuRow_read]
      · rfl

/-- The rows of a page are those of its first lines, up to one that is no row. -/
theorem cpuRows_eq_map {page : Page} {block others : List (List Char)}
    (hlines : page.lines = block ++ others) (hblock : ∀ line ∈ block, ['c', 'p', 'u'] <+: line)
    (hothers : ∀ line ∈ others.head?, ¬ ['c', 'p', 'u'] <+: line) :
    cpuRows (.ofList page.text) = block.map fun line => cpuRow (.ofList line) := by
  have hstop : others.takeWhile isCpuLine = [] := by
    cases others with
    | nil => rfl
    | cons first others =>
        exact List.takeWhile_cons_of_neg fun h => hothers first rfl (isCpuLine_iff.mp h)
  rw [cpuRows, String.toList_ofList, Page.lines_text, hlines, takeWhile_append_of_nil block hstop,
    List.takeWhile_eq_self_iff.mpr fun line hline => isCpuLine_iff.mpr (hblock line hline)]

/-- A row in the place of another one changes the reading of that place alone. -/
theorem cpuRows_eq_set {before : List Line} {text text' row row' : List Char}
    {after : List (List Char)} (htext : lines text = row :: after)
    (htext' : lines text' = row' :: after) (hrow : ['c', 'p', 'u'] <+: row)
    (hrow' : ['c', 'p', 'u'] <+: row') :
    cpuRows (.ofList (written before ++ text'))
      = (cpuRows (.ofList (written before ++ text))).set before.length
          (cpuRow (.ofList row')) := by
  have hset := takeWhile_append_cons_eq_set (isCpuLine_iff.mpr hrow) (isCpuLine_iff.mpr hrow')
    (before.map Line.read) after
  rw [cpuRows_written_append, cpuRows_written_append, htext, htext', hset, List.length_map,
    List.map_set]

/-- The processor rows of a file.

Every file is a page of lines, and its rows are those that it opens with, as many as open
with the three letters, each read by itself and in their order. What follows from the first
other line on has no part in it.

A row is its name and its columns. It is read exactly if there are seven columns at least
and the first seven are numerals of sixty-four bits, whatever the columns behind them. Its
idle time is then the fourth, and all its time is their sum, or the greatest number of that
width if the sum is greater. It fails exactly if there are fewer, or one of the seven is no
such numeral.

Another row in the place of a row changes what is read in that place, and nothing else,
whether a line feed closes the row or it is the last of the file. The endings of the lines
change nothing: the same rows are read with the same counters, and the failures are told
alike as well, unless a text ends with a carriage return of its own, which a line feed
makes part of the ending. -/
theorem processor_rows_are_read_apart :
    (∀ content : String, ∃ page : Page, page.text = content.toList
      ∧ ∀ block others : List (List Char), page.lines = block ++ others →
          (∀ line ∈ block, ['c', 'p', 'u'] <+: line) →
          (∀ line ∈ others.head?, ¬ ['c', 'p', 'u'] <+: line) →
          cpuRows content = block.map fun line => cpuRow (.ofList line))
    ∧ (∀ (closed : List Line) (rest rest' : List Char),
        ¬ ['c', 'p', 'u'] <+: rest → ¬ ['c', 'p', 'u'] <+: rest' →
        cpuRows (.ofList (written closed ++ rest')) = cpuRows (.ofList (written closed ++ rest)))
    ∧ (∀ (row : CpuLine) (times : CpuTimes), cpuRow (.ofList row.text) = .ok times ↔
        7 ≤ row.columns.length
        ∧ ∃ counters : List UInt64,
            List.Forall₂ (fun column n => IsNumeral column n.toNat) row.counted counters
            ∧ times.id = .ofList row.id
            ∧ counters[3]? = some times.idle
            ∧ times.total.toNat
                = min (counters.foldr (fun n sum => n.toNat + sum) 0) (UInt64.size - 1))
    ∧ (∀ row : CpuLine, (∃ cause, cpuRow (.ofList row.text) = .error cause) ↔
        row.columns.length < 7
        ∨ ∃ column ∈ row.counted, ¬ ∃ n < UInt64.size, IsNumeral column n)
    ∧ (∀ (before : List Line) (row row' : Line) (after : List Char),
        ['c', 'p', 'u'] <+: row.text → ['c', 'p', 'u'] <+: row'.text →
        cpuRows (.ofList (written before ++ (row'.written ++ after)))
          = (cpuRows (.ofList (written before ++ (row.written ++ after)))).set before.length
              (cpuRow (.ofList row'.read)))
    ∧ (∀ (before : List Line) (last last' : List Char), '\n' ∉ last → '\n' ∉ last' →
        ['c', 'p', 'u'] <+: last → ['c', 'p', 'u'] <+: last' →
        cpuRows (.ofList (written before ++ last'))
          = (cpuRows (.ofList (written before ++ last))).set before.length
              (cpuRow (.ofList last')))
    ∧ ∀ (closed closed' : List Line) (rest : List Char),
        closed'.map (·.text) = closed.map (·.text) →
        (cpuRows (.ofList (written closed' ++ rest))).map Except.toOption
          = (cpuRows (.ofList (written closed ++ rest))).map Except.toOption
        ∧ ((∀ line ∈ closed, line.text.getLast? ≠ some '\r') →
            cpuRows (.ofList (written closed' ++ rest))
              = cpuRows (.ofList (written closed ++ rest))) := by
  -- a carriage return at its end does not take the three letters from a line
  have hopens : ∀ line : Line, ['c', 'p', 'u'] <+: line.text → ['c', 'p', 'u'] <+: line.read :=
    fun line h => isCpuLine_iff.mp ((isCpuLine_read line).trans (isCpuLine_iff.mpr h))
  have hlast : ∀ last : List Char, '\n' ∉ last → ['c', 'p', 'u'] <+: last → lines last = [last] := by
    intro last hfeed h
    rw [lines_of_notMem hfeed, if_neg (by rintro rfl; exact absurd h (by decide))]
  refine ⟨fun content => ?_, fun closed rest rest' hrest hrest' => ?_,
    CpuLine.cpuRow_text_eq_ok_iff, CpuLine.cpuRow_text_eq_error_iff,
    fun before row row' after hrow hrow' => ?_, fun before last last' hfeed hfeed' h h' => ?_,
    fun closed closed' rest htexts => ⟨?_, fun hplain => ?_⟩⟩
  · obtain ⟨page, hpage⟩ := exists_page content.toList
    refine ⟨page, hpage, fun block others hlines hblock hothers => ?_⟩
    rw [← cpuRows_eq_map hlines hblock hothers, hpage, String.ofList_toList]
  · rw [cpuRows_written_append, cpuRows_written_append,
      takeWhile_append_of_nil _ (takeWhile_lines_of_not_opens hrest),
      takeWhile_append_of_nil _ (takeWhile_lines_of_not_opens hrest')]
  · exact cpuRows_eq_set (row.lines_written_append after) (row'.lines_written_append after)
      (hopens row hrow) (hopens row' hrow')
  · exact cpuRows_eq_set (hlast last hfeed h) (hlast last' hfeed' h') h h'
  · rw [map_toOption_cpuRows, map_toOption_cpuRows, htexts]
  · have hplain' : ∀ line ∈ closed', line.text.getLast? ≠ some '\r' := by
      intro line hline
      obtain ⟨other, hother, htext⟩ := List.mem_map.mp (htexts ▸ List.mem_map_of_mem hline)
      exact htext ▸ hplain other hother
    have hread : closed'.map Line.read = closed.map Line.read := by
      rw [List.map_congr_left fun line h => Line.read_of_plain (hplain line h),
        List.map_congr_left fun line h => Line.read_of_plain (hplain' line h), htexts]
    rw [cpuRows_written_append, cpuRows_written_append, hread]

end Vitals.Proc
