/-
How a text is written in lines, and what its lines are when it is read.

A line is written as its text and a line feed, with a carriage return before the feed or
without one (`Line`), and behind the last feed may stand a line that none closes (`Page`).
Every text is written so, in one way if no carriage return before a feed is counted as part
of the text. What is read of a closed line is its text: a return of its ending is dropped,
and so is a single return that the text itself ends with if the ending has none. What is
behind the last feed is read as it stands, and is a line unless it is empty.

All of this rests on one equation, for a text in front of its first line feed
(`lines_append_feed`).
-/
import Mathlib.Data.List.Flatten
import Vitals.Text.Cut

namespace Vitals.Text

-- ======================================================= single lines

theorem dropReturn_eq_self {line : List Char} (h : line.getLast? ≠ some '\r') :
    dropReturn line = line := if_neg h

@[simp] theorem dropReturn_concat (line : List Char) : dropReturn (line ++ ['\r']) = line := by
  rw [dropReturn, if_pos List.getLast?_concat, List.dropLast_concat]

/-- A line is what it is read as, but for one carriage return at most. -/
theorem eq_dropReturn_or (line : List Char) :
    line = dropReturn line ∨ line = dropReturn line ++ ['\r'] := by
  by_cases h : line.getLast? = some '\r'
  · obtain ⟨others, rfl⟩ := List.getLast?_eq_some_iff.mp h
    exact .inr (by rw [dropReturn_concat])
  · exact .inl (dropReturn_eq_self h).symm

theorem dropReturn_isPrefix (line : List Char) : dropReturn line <+: line := by
  rcases eq_dropReturn_or line with h | h
  · exact ⟨[], by rw [List.append_nil, ← h]⟩
  · exact ⟨['\r'], h.symm⟩

-- ==================================================== reading a text

/-- Every piece but the last is a line. -/
theorem linesOfPieces_cons (piece : List Char) {pieces : List (List Char)} (h : pieces ≠ []) :
    linesOfPieces (piece :: pieces) = dropReturn piece :: linesOfPieces pieces := by
  cases pieces with
  | nil => exact absurd rfl h
  | cons next pieces => rfl

/-- The text before a line feed is a line, and the lines behind it are those of the rest. -/
theorem lines_append_feed {s : List Char} (hs : '\n' ∉ s) (rest : List Char) :
    lines (s ++ '\n' :: rest) = dropReturn s :: lines rest := by
  rw [lines, List.splitOn_append_cons_self, List.splitOn_eq_singleton hs, List.singleton_append,
    linesOfPieces_cons _ (List.splitOn_ne_nil _ _), lines]

/-- A text without a line feed is one line, or none when it is empty. -/
theorem lines_of_notMem {s : List Char} (hs : '\n' ∉ s) :
    lines s = if s = [] then [] else [s] := by
  rw [lines, List.splitOn_eq_singleton hs, linesOfPieces]

-- ====================================================== written lines

/-- A line that a line feed closes. -/
structure Line where
  text : List Char
  /-- Whether a carriage return stands before the feed. -/
  returned : Bool
  feedless : '\n' ∉ text

namespace Line

/-- The line as it is written. -/
def written (line : Line) : List Char :=
  line.text ++ if line.returned then ['\r', '\n'] else ['\n']

/-- The line as it is read. -/
def read (line : Line) : List Char := if line.returned then line.text else dropReturn line.text

/-- A line that does not end in a carriage return is read as it stands. -/
theorem read_of_plain {line : Line} (h : line.text.getLast? ≠ some '\r') :
    line.read = line.text := by
  unfold read
  split
  · rfl
  · exact dropReturn_eq_self h

theorem read_isPrefix (line : Line) : line.read <+: line.text := by
  unfold read
  split
  · exact List.prefix_rfl
  · exact dropReturn_isPrefix line.text

/-- A closed line is read before the lines that follow it. -/
theorem lines_written_append (line : Line) (rest : List Char) :
    lines (line.written ++ rest) = line.read :: lines rest := by
  obtain ⟨text, returned, hfeed⟩ := line
  cases returned with
  | false =>
      show lines ((text ++ ['\n']) ++ rest) = dropReturn text :: lines rest
      rw [List.append_assoc, List.singleton_append, lines_append_feed hfeed]
  | true =>
      have hclosed : '\n' ∉ text ++ ['\r'] := by simpa using hfeed
      have hwritten : (text ++ ['\r', '\n']) ++ rest = (text ++ ['\r']) ++ '\n' :: rest := by simp
      show lines ((text ++ ['\r', '\n']) ++ rest) = text :: lines rest
      rw [hwritten, lines_append_feed hclosed, dropReturn_concat]

end Line

/-- Lines as they are written, one behind the other. -/
def written (closed : List Line) : List Char := closed.flatMap Line.written

theorem written_cons (line : Line) (closed : List Line) :
    written (line :: closed) = line.written ++ written closed := List.flatMap_cons

/-- Lines that are written are read as they were, and the rest by itself. -/
theorem lines_written_append (closed : List Line) (rest : List Char) :
    lines (written closed ++ rest) = closed.map Line.read ++ lines rest := by
  induction closed with
  | nil => rfl
  | cons line closed ih =>
      rw [written_cons, List.append_assoc, Line.lines_written_append, ih, List.map_cons,
        List.cons_append]

-- =============================================================== pages

/-- A text in lines: those that are closed, and what stands behind the last line feed. -/
structure Page where
  closed : List Line
  last : List Char
  last_feedless : '\n' ∉ last

namespace Page

/-- The page as it is written. -/
def text (page : Page) : List Char := written page.closed ++ page.last

/-- The lines that are read of a page. -/
def lines (page : Page) : List (List Char) :=
  page.closed.map Line.read ++ if page.last = [] then [] else [page.last]

/-- The lines of a page are those it was put together from. -/
theorem lines_text (page : Page) : Text.lines page.text = page.lines := by
  rw [text, lines_written_append, lines_of_notMem page.last_feedless, lines]

end Page

/-- Every text is a page. -/
theorem exists_page (s : List Char) : ∃ page : Page, page.text = s := by
  -- the page is that of the text behind the first line feed, with one line more in front
  suffices h : ∀ s before : List Char, '\n' ∉ before → ∃ page : Page, page.text = before ++ s from
    h s [] (by simp)
  intro s
  induction s with
  | nil =>
      intro before hbefore
      exact ⟨⟨[], before, hbefore⟩, by simp [Page.text, written]⟩
  | cons c s ih =>
      intro before hbefore
      by_cases hc : c = '\n'
      · obtain ⟨page, hpage⟩ := ih [] (by simp)
        refine ⟨⟨⟨before, false, hbefore⟩ :: page.closed, page.last, page.last_feedless⟩, ?_⟩
        rw [Page.text, written_cons, List.append_assoc, ← Page.text, hpage, hc]
        simp [Line.written]
      · obtain ⟨page, hpage⟩ := ih (before ++ [c]) (by simp [hbefore, Ne.symm hc])
        exact ⟨page, by simpa using hpage⟩

/-- The first line of a text opens it. -/
theorem prefix_of_mem_head?_lines {s line : List Char} (h : line ∈ (lines s).head?) :
    line <+: s := by
  obtain ⟨page, rfl⟩ := exists_page s
  obtain ⟨closed, last, hlast⟩ := page
  rw [Page.lines_text, Page.lines] at h
  cases closed with
  | nil =>
      split at h
      · cases h
      · cases h
        exact List.prefix_rfl
  | cons first closed =>
      cases h
      rw [Page.text, written_cons, Line.written, List.append_assoc, List.append_assoc]
      exact first.read_isPrefix.trans (List.prefix_append _ _)

end Vitals.Text
