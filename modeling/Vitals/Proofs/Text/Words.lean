/-
What the words of a text are made of. A word is a piece between blanks, so it has
none of them, and all of it stands in the text. The first word of a text that
opens with a character of a word is the whole run that this character opens.

The words of two texts with a blank between them are those of the one and those of
the other (`words_append_cons`). So blanks at either end of a text add no word and may
as well be trimmed, and of columns that stand behind blanks each is a word
(`words_columns`).
-/
import Mathlib.Data.List.DropRight
import Mathlib.Data.List.TakeWhile
import Vitals.Text.Blank

namespace Vitals.Text

/-- The pieces of a split have only what was not split at. -/
theorem mem_and_not_of_mem_splitOnP {α : Type} {p : α → Bool} {s piece : List α}
    (hpiece : piece ∈ s.splitOnP p) {x : α} (hx : x ∈ piece) : x ∈ s ∧ p x = false := by
  induction s generalizing piece with
  | nil =>
      rw [List.splitOnP_nil, List.mem_singleton] at hpiece
      rw [hpiece] at hx
      cases hx
  | cons y s ih =>
      rw [List.splitOnP_cons_eq_if_modifyHead] at hpiece
      split at hpiece
      · rcases List.mem_cons.mp hpiece with rfl | hrest
        · cases hx
        · obtain ⟨hmem, hnot⟩ := ih hrest hx
          exact ⟨List.mem_cons_of_mem y hmem, hnot⟩
      · next hy =>
          -- the first piece has grown by this element, and the others are those behind it
          obtain ⟨first, others, hsplit⟩ := List.exists_cons_of_ne_nil (List.splitOnP_ne_nil p s)
          rw [hsplit, List.modifyHead_cons] at hpiece
          rcases List.mem_cons.mp hpiece with rfl | hrest
          · rcases List.mem_cons.mp hx with rfl | hfirst
            · exact ⟨List.mem_cons_self .., by simpa using hy⟩
            · obtain ⟨hmem, hnot⟩ := ih (hsplit ▸ List.mem_cons_self ..) hfirst
              exact ⟨List.mem_cons_of_mem y hmem, hnot⟩
          · obtain ⟨hmem, hnot⟩ := ih (hsplit ▸ List.mem_cons_of_mem _ hrest) hx
            exact ⟨List.mem_cons_of_mem y hmem, hnot⟩

/-- No piece between separators has one. -/
theorem notMem_of_mem_splitOn {α : Type} [BEq α] [LawfulBEq α] {sep : α} {s piece : List α}
    (h : piece ∈ s.splitOn sep) : sep ∉ piece := by
  intro hmem
  rw [List.splitOn_eq_splitOnP] at h
  have hnot := (mem_and_not_of_mem_splitOnP h hmem).2
  simp at hnot

/-- A word has characters of its text that are no blanks. -/
theorem mem_and_not_isBlank_of_mem_words {s word : List Char} (hword : word ∈ words s)
    {c : Char} (hc : c ∈ word) : c ∈ s ∧ isBlank c = false :=
  mem_and_not_of_mem_splitOnP ((List.mem_filter.mp hword).1) hc

/-- The first word of a text that does not open with a blank is the run that the
text opens with. -/
theorem head?_words_cons {c : Char} (hc : isBlank c = false) (s : List Char) :
    (words (c :: s)).head? = some (c :: s.takeWhile fun d => !isBlank d) := by
  have hrun : ∀ d ∈ c :: s.takeWhile fun d => !isBlank d, isBlank d = false := by
    intro d hd
    rcases List.mem_cons.mp hd with rfl | hd
    · exact hc
    · simpa using List.mem_takeWhile_imp hd
  -- the first word is the run of what is not blank, up to the first blank or the end
  have hsplit : c :: s
      = (c :: s.takeWhile fun d => !isBlank d) ++ s.dropWhile fun d => !isBlank d := by
    rw [List.cons_append, List.takeWhile_append_dropWhile]
  rw [hsplit, words]
  cases hrest : s.dropWhile fun d => !isBlank d with
  | nil =>
      rw [List.append_nil, List.splitOnP_eq_singleton hrun]
      rfl
  | cons d rest =>
      have hd : isBlank d = true := by
        have := List.head?_dropWhile_not (fun d => !isBlank d) s
        rw [hrest] at this
        simpa using this
      rw [List.splitOnP_append_cons_of_forall_mem hrun d hd]
      rfl

-- ==================================================== words and blanks

theorem words_append_cons {c : Char} (hc : isBlank c = true) (s t : List Char) :
    words (s ++ c :: t) = words s ++ words t := by
  rw [words, List.splitOnP_append_cons s t hc, List.filter_append]
  rfl

theorem words_of_blank {blanks : List Char} (h : ∀ c ∈ blanks, isBlank c = true) :
    words blanks = [] := by
  induction blanks with
  | nil => rfl
  | cons c blanks ih =>
      have hwords := words_append_cons (h c (List.mem_cons_self ..)) [] blanks
      rw [List.nil_append] at hwords
      rw [hwords, ih fun d hd => h d (List.mem_cons_of_mem c hd)]
      rfl

theorem words_append_blank {blanks : List Char} (h : ∀ c ∈ blanks, isBlank c = true)
    (s : List Char) : words (s ++ blanks) = words s := by
  cases blanks with
  | nil => rw [List.append_nil]
  | cons c blanks =>
      rw [words_append_cons (h c (List.mem_cons_self ..)),
        words_of_blank fun d hd => h d (List.mem_cons_of_mem c hd), List.append_nil]

/-- The blanks that open a text add no word to it. -/
theorem words_blank_append {blanks : List Char} (h : ∀ c ∈ blanks, isBlank c = true)
    (s : List Char) : words (blanks ++ s) = words s := by
  induction blanks with
  | nil => rfl
  | cons c blanks ih =>
      have hfirst := words_append_cons (h c (List.mem_cons_self ..)) [] (blanks ++ s)
      rw [List.cons_append, ← List.nil_append (c :: _), hfirst, words_of_blank (by simp),
        List.nil_append, ih fun d hd => h d (List.mem_cons_of_mem c hd)]

/-- The first word of a text is the run behind the blanks that open it. -/
theorem head?_words (s : List Char) :
    (words s).head?.getD [] = (s.dropWhile isBlank).takeWhile fun c => !isBlank c := by
  have hblank : ∀ c ∈ s.takeWhile isBlank, isBlank c = true := fun c hc =>
    List.mem_takeWhile_imp hc
  have hwords := words_blank_append hblank (s.dropWhile isBlank)
  rw [List.takeWhile_append_dropWhile] at hwords
  rw [hwords]
  cases hrest : s.dropWhile isBlank with
  | nil => rfl
  | cons c rest =>
      have hc : isBlank c = false := by
        have := List.head?_dropWhile_not isBlank s
        rw [hrest] at this
        exact this
      rw [head?_words_cons hc, List.takeWhile_cons_of_pos (by simp [hc])]
      rfl

/-- Blanks between two texts part their words. -/
theorem words_append_blank_append {blanks : List Char} (hne : blanks ≠ [])
    (h : ∀ c ∈ blanks, isBlank c = true) (s t : List Char) :
    words (s ++ blanks ++ t) = words s ++ words t := by
  obtain ⟨others, c, rfl⟩ := (List.eq_nil_or_concat' blanks).resolve_left hne
  have hothers : ∀ d ∈ others, isBlank d = true := fun d hd => h d (List.mem_append_left _ hd)
  rw [← List.append_assoc, List.append_assoc (s ++ others), List.singleton_append,
    words_append_cons (h c (by simp)), words_append_blank hothers]

theorem words_of_word {word : List Char} (hne : word ≠ [])
    (h : ∀ c ∈ word, isBlank c = false) : words word = [word] := by
  rw [words, List.splitOnP_eq_singleton h]
  simp [hne]

theorem trimLeft_append_cons {c : Char} (hc : isBlank c = false) (s t : List Char) :
    trimLeft (s ++ c :: t) = trimLeft s ++ c :: t := by
  unfold trimLeft
  induction s with
  | nil => rw [List.nil_append, List.dropWhile_cons_of_neg (by simp [hc])]; rfl
  | cons d s ih =>
      rw [List.cons_append, List.dropWhile_cons, List.dropWhile_cons]
      split
      · exact ih
      · rfl

/-- Trimming leaves what stands on either side of a character of a word to be trimmed by
itself. -/
theorem trim_append_cons {c : Char} (hc : isBlank c = false) (s t : List Char) :
    trim (s ++ c :: t) = trimLeft s ++ c :: trimRight t := by
  have hreverse : (trimLeft s ++ c :: t).reverse = t.reverse ++ c :: (trimLeft s).reverse := by
    simp
  have hright := trimLeft_append_cons hc t.reverse (trimLeft s).reverse
  rw [trimLeft] at hright
  rw [trim, trimLeft_append_cons hc, trimRight, hreverse, hright]
  simp [trimLeft, trimRight]

/-- Blanks at either end of a text are trimmed with those that it has there itself. -/
theorem trim_between {front behind : List Char} (hfront : ∀ c ∈ front, isBlank c = true)
    (hbehind : ∀ c ∈ behind, isBlank c = true) (s : List Char) :
    trim (front ++ s ++ behind) = trim s := by
  have hleft : trimLeft (front ++ s ++ behind) = trimLeft (s ++ behind) := by
    rw [List.append_assoc, trimLeft, List.dropWhile_append_of_pos hfront, trimLeft]
  have hright : ∀ t : List Char, trimRight (t ++ behind) = trimRight t := by
    intro t
    rw [trimRight, List.reverse_append, List.dropWhile_append_of_pos fun c hc =>
      hbehind c (List.mem_reverse.mp hc), trimRight]
  rw [trim, hleft, trim]
  by_cases hs : trimLeft s = []
  · -- the whole text is blank, and so is all of it
    have hall : ∀ c ∈ s ++ behind, isBlank c = true := by
      intro c hc
      rcases List.mem_append.mp hc with hc | hc
      · exact List.dropWhile_eq_nil_iff.mp hs c hc
      · exact hbehind c hc
    rw [hs, trimLeft, List.dropWhile_eq_nil_iff.mpr hall]
  · have hword : ¬ (s.dropWhile isBlank).isEmpty = true := fun h => hs (List.isEmpty_iff.mp h)
    have happend : trimLeft (s ++ behind) = trimLeft s ++ behind := by
      rw [trimLeft, List.dropWhile_append, if_neg hword, trimLeft]
    rw [happend, hright]

theorem trim_of_not_isBlank {s : List Char} (h : ∀ c ∈ s, isBlank c = false) : trim s = s := by
  have hkept : ∀ t : List Char, (∀ c ∈ t, isBlank c = false) → t.dropWhile isBlank = t := by
    intro t ht
    cases t with
    | nil => rfl
    | cons c t => exact List.dropWhile_cons_of_neg (by simp [ht c])
  rw [trim, trimLeft, hkept s h, trimRight, hkept s.reverse fun c hc => h c (by simpa using hc),
    List.reverse_reverse]

/-- The blanks that close a text add no word to it. -/
theorem words_trimRight (s : List Char) : words (trimRight s) = words s := by
  have hsplit : trimRight s ++ s.rtakeWhile isBlank = s := List.rdropWhile_append_rtakeWhile
  have hblank : ∀ c ∈ s.rtakeWhile isBlank, isBlank c = true := fun c hc =>
    List.mem_rtakeWhile_imp hc
  rw [← words_append_blank hblank (trimRight s), hsplit]

/-- Columns that each stand behind blanks are words more of the text in front of them. -/
theorem words_append_columns (s : List Char) {columns : List (List Char × List Char)}
    (hblanks : ∀ column ∈ columns, column.1 ≠ [] ∧ ∀ c ∈ column.1, isBlank c = true)
    (hwords : ∀ column ∈ columns, column.2 ≠ [] ∧ ∀ c ∈ column.2, isBlank c = false) :
    words (s ++ columns.flatMap fun column => column.1 ++ column.2)
      = words s ++ columns.map (·.2) := by
  induction columns using List.reverseRecOn with
  | nil => simp
  | append_singleton columns column ih =>
      obtain ⟨hne, hblank⟩ := hblanks column (by simp)
      obtain ⟨hne', hword⟩ := hwords column (by simp)
      rw [List.flatMap_append, List.flatMap_singleton, ← List.append_assoc, ← List.append_assoc,
        words_append_blank_append hne hblank, words_of_word hne' hword, ih, List.map_append,
        List.map_singleton, List.append_assoc]
      · exact fun other hother => hblanks other (List.mem_append_left _ hother)
      · exact fun other hother => hwords other (List.mem_append_left _ hother)

/-- Columns that each stand behind blanks are the words of their text. -/
theorem words_columns {columns : List (List Char × List Char)}
    (hblanks : ∀ column ∈ columns, column.1 ≠ [] ∧ ∀ c ∈ column.1, isBlank c = true)
    (hwords : ∀ column ∈ columns, column.2 ≠ [] ∧ ∀ c ∈ column.2, isBlank c = false) :
    words (columns.flatMap fun column => column.1 ++ column.2) = columns.map (·.2) :=
  words_append_columns [] hblanks hwords

end Vitals.Text
