/-
The command that is told of a process, and the program that it was invoked as.

A command line is the program and its arguments, each with a NUL behind it. What is told of
it is a single word: separators are blanks and NULs alike, and the word is the first run of
characters that are none (`commandName_eq`). It is not the text in front of the first
separator, for separators that open the text are passed over. The two are the same unless
there are some of those and something behind them (`firstRun_eq_opening_iff`).

Of a program without separators the command is therefore its name, if it has one. A process
may be invoked without a name, and then it is told under the first word of its arguments.
-/
import Vitals.Proofs.Proc.Rows

namespace Vitals.Proc

open Text

-- ============================================================== runs

/-- What parts the words of a command line: blanks, and the NUL that ends an argument. -/
def isSeparator (c : Char) : Bool := c == '\x00' || isBlank c

/-- The text in front of the first separator. -/
def opening (s : List Char) : List Char := s.takeWhile fun c => !isSeparator c

/-- The first run of characters that are no separators. -/
def firstRun (s : List Char) : List Char := opening (s.dropWhile isSeparator)

theorem isSeparator_of_mem_opening {s : List Char} {c : Char} (h : c ∈ opening s) :
    isSeparator c = false := by
  simpa using List.mem_takeWhile_imp h

/-- A text that opens with a separator has an empty opening run. -/
theorem opening_eq_nil_of_head? {s : List Char} (h : ∀ c ∈ s.head?, isSeparator c = true) :
    opening s = [] := by
  cases s with
  | nil => rfl
  | cons c s => exact List.takeWhile_cons_of_neg (by simp [h c rfl])

/-- There is no run exactly in a text of separators. -/
theorem firstRun_eq_nil_iff {s : List Char} : firstRun s = [] ↔ ∀ c ∈ s, isSeparator c = true := by
  rw [← List.dropWhile_eq_nil_iff, firstRun]
  constructor
  · intro h
    cases hrest : s.dropWhile isSeparator with
    | nil => rfl
    | cons c rest =>
        have hc : isSeparator c = false := by
          have := List.head?_dropWhile_not isSeparator s
          rw [hrest] at this
          exact this
        rw [hrest, opening, List.takeWhile_cons_of_pos (by simp [hc])] at h
        cases h
  · intro h
    rw [h]
    rfl

/-- The first run is what the text opens with, unless a separator stands in front of it. -/
theorem firstRun_eq_opening_iff {s : List Char} :
    firstRun s = opening s
      ↔ (∀ c ∈ s.head?, isSeparator c = false) ∨ ∀ c ∈ s, isSeparator c = true := by
  cases s with
  | nil => exact iff_of_true rfl (.inr (by simp))
  | cons c s =>
      by_cases hc : isSeparator c = true
      · have hopening : opening (c :: s) = [] := opening_eq_nil_of_head? (by simpa using hc)
        rw [hopening, firstRun_eq_nil_iff]
        simp [hc]
      · refine iff_of_true ?_ (.inl (by simpa using hc))
        rw [firstRun, List.dropWhile_cons_of_neg hc]

/-- A text is the separators that open it, its first run, and what a separator parts from
that. -/
theorem exists_append_firstRun (s : List Char) :
    ∃ skipped rest, s = skipped ++ firstRun s ++ rest
      ∧ (∀ c ∈ skipped, isSeparator c = true) ∧ ∀ c ∈ rest.head?, isSeparator c = true := by
  refine ⟨s.takeWhile isSeparator, (s.dropWhile isSeparator).dropWhile fun c => !isSeparator c,
    ?_, fun c hc => List.mem_takeWhile_imp hc, fun c hc => ?_⟩
  · rw [firstRun, opening, List.append_assoc, List.takeWhile_append_dropWhile,
      List.takeWhile_append_dropWhile]
  · have hstop := List.head?_dropWhile_not (fun c => !isSeparator c) (s.dropWhile isSeparator)
    rw [Option.mem_def.mp hc] at hstop
    simpa using hstop

-- =========================================================== commands

/-- The command is the first run of the command line. -/
theorem commandName_eq (content : String) :
    commandName content = .ofList (firstRun content.toList) := by
  have hhead : commandName content = .ofList
      ((words (content.toList.map fun c => if c = '\x00' then ' ' else c)).head?.getD []) := by
    unfold commandName
    cases words (content.toList.map fun c => if c = '\x00' then ' ' else c) <;> rfl
  have hblank : (isBlank ∘ fun c => if c = '\x00' then ' ' else c) = isSeparator := by
    funext c
    by_cases hc : c = '\x00'
    · subst hc
      decide
    · simp [isSeparator, hc]
  have hrun : ∀ t : List Char,
      (t.map fun c => if c = '\x00' then ' ' else c).takeWhile (fun c => !isBlank c)
        = opening t := by
    intro t
    have hnot : ((fun c => !isBlank c) ∘ fun c => if c = '\x00' then ' ' else c)
        = fun c => !isSeparator c := funext fun c => congrArg not (congrFun hblank c)
    rw [List.takeWhile_map, hnot]
    refine (List.map_congr_left fun c hc => ?_).trans (List.map_id _)
    -- no NUL is left in a run
    exact if_neg fun hnul => absurd (isSeparator_of_mem_opening hc) (by rw [hnul]; decide)
  rw [hhead, head?_words, List.dropWhile_map, hblank, hrun, firstRun]

-- ======================================================== invocations

/-- A program and its arguments. The program is one word, or nothing at all. -/
structure Invocation where
  program : List Char
  arguments : List (List Char)
  program_plain : ∀ c ∈ program, isSeparator c = false
  arguments_plain : ∀ argument ∈ arguments, '\x00' ∉ argument

/-- Arguments as they stand in a command line, each with a NUL behind it. -/
def terminated (arguments : List (List Char)) : List Char :=
  arguments.flatMap fun argument => argument ++ ['\x00']

/-- The command line of an invocation. -/
def Invocation.text (invocation : Invocation) : List Char :=
  terminated (invocation.program :: invocation.arguments)

/-- A program without separators is the first run of its command line. -/
theorem firstRun_terminated_cons {program : List Char} (hne : program ≠ [])
    (hplain : ∀ c ∈ program, isSeparator c = false) (arguments : List (List Char)) :
    firstRun (terminated (program :: arguments)) = program := by
  have htext : terminated (program :: arguments) = program ++ '\x00' :: terminated arguments := by
    simp [terminated]
  obtain ⟨c, others, hprogram⟩ := List.exists_cons_of_ne_nil hne
  have hopening : firstRun (terminated (program :: arguments))
      = opening (terminated (program :: arguments)) := by
    refine firstRun_eq_opening_iff.mpr (.inl ?_)
    rw [htext, hprogram]
    simpa using hplain c (hprogram ▸ List.mem_cons_self ..)
  rw [hopening, htext, opening, List.takeWhile_append_of_pos (by simpa using hplain),
    List.takeWhile_cons_of_neg (by decide), List.append_nil]

/-- An empty argument is passed over. -/
theorem firstRun_terminated_nil (arguments : List (List Char)) :
    firstRun (terminated ([] :: arguments)) = firstRun (terminated arguments) := by
  have htext : terminated ([] :: arguments) = '\x00' :: terminated arguments := rfl
  rw [firstRun, htext, List.dropWhile_cons_of_pos (by decide), ← firstRun]

/-- A command line has no run when every argument is blank. -/
theorem firstRun_terminated_eq_nil_iff {arguments : List (List Char)}
    (h : ∀ argument ∈ arguments, '\x00' ∉ argument) :
    firstRun (terminated arguments) = []
      ↔ ∀ argument ∈ arguments, ∀ c ∈ argument, isBlank c = true := by
  have hblank : ∀ argument ∈ arguments, ∀ c ∈ argument, isSeparator c = isBlank c := by
    intro argument hargument c hc
    have hnul : c ≠ '\x00' := fun hnul => h argument hargument (hnul ▸ hc)
    simp [isSeparator, hnul]
  rw [firstRun_eq_nil_iff]
  constructor
  · intro hall argument hargument c hc
    rw [← hblank argument hargument c hc]
    exact hall c (List.mem_flatMap.mpr ⟨argument, hargument, List.mem_append_left _ hc⟩)
  · intro hall c hc
    obtain ⟨argument, hargument, hmem⟩ := List.mem_flatMap.mp hc
    rcases List.mem_append.mp hmem with hmem | hmem
    · rw [hblank argument hargument c hmem]
      exact hall argument hargument c hmem
    · rw [List.mem_singleton.mp hmem]
      decide

/-- The command that is told of a command line.

It is the first run of characters that are no separators: in front of it are separators
alone, and what is behind it, if there is anything, opens with one. It is the text in front
of the first separator precisely if the text does not open with a separator, or has nothing
else. Of an invocation it is therefore the program precisely if that has a name, or if no
argument has a word either. Without a name it is the command of the arguments. -/
theorem command_is_first_run (content : String) (invocation : Invocation) :
    (∃ skipped rest : List Char,
      content.toList = skipped ++ (commandName content).toList ++ rest
      ∧ (∀ c ∈ skipped, isSeparator c = true)
      ∧ (∀ c ∈ (commandName content).toList, isSeparator c = false)
      ∧ (∀ c ∈ rest.head?, isSeparator c = true)
      ∧ (commandName content = "" ↔ ∀ c ∈ content.toList, isSeparator c = true))
    ∧ (commandName content = .ofList (opening content.toList)
        ↔ (∀ c ∈ content.toList.head?, isSeparator c = false)
          ∨ ∀ c ∈ content.toList, isSeparator c = true)
    ∧ (commandName (.ofList invocation.text) = .ofList invocation.program
        ↔ invocation.program ≠ []
          ∨ ∀ argument ∈ invocation.arguments, ∀ c ∈ argument, isBlank c = true)
    ∧ (invocation.program = [] → commandName (.ofList invocation.text)
        = commandName (.ofList (terminated invocation.arguments))) := by
  refine ⟨?_, ?_, ?_⟩
  · obtain ⟨skipped, rest, hsplit, hskipped, hrest⟩ := exists_append_firstRun content.toList
    have hempty : commandName content = "" ↔ firstRun content.toList = [] := by
      rw [commandName_eq, ← String.ofList_inj]
    refine ⟨skipped, rest, ?_, hskipped, ?_, hrest, hempty.trans firstRun_eq_nil_iff⟩
    · rwa [commandName_eq, String.toList_ofList]
    · rw [commandName_eq, String.toList_ofList]
      exact fun c hc => isSeparator_of_mem_opening hc
  · rw [commandName_eq, String.ofList_inj, firstRun_eq_opening_iff]
  · obtain ⟨program, arguments, hprogram, harguments⟩ := invocation
    simp only [Invocation.text, commandName_eq, String.toList_ofList, String.ofList_inj]
    -- without a name the first argument that has a run is told in its place
    cases program with
    | nil =>
        rw [firstRun_terminated_nil, firstRun_terminated_eq_nil_iff harguments]
        simp
    | cons c others =>
        refine ⟨iff_of_true ?_ (.inl (List.cons_ne_nil c others)), nofun⟩
        exact firstRun_terminated_cons (List.cons_ne_nil c others) hprogram arguments

/-- A program that was invoked without a name, on one argument. -/
def unnamed : Invocation := ⟨[], [['x']], by simp, by simp⟩

/-- Its argument is told in its place, although a separator opens the command line. -/
theorem argument_is_told_for_unnamed :
    commandName (.ofList unnamed.text) = "x"
    ∧ commandName (.ofList unnamed.text) ≠ .ofList unnamed.program
    ∧ commandName (.ofList unnamed.text) ≠ .ofList (opening unnamed.text) := by
  decide +kernel

end Vitals.Proc
