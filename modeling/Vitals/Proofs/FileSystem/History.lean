/-
What a tree holds, told from how it was made.

A tree is two flat maps, and nothing in it says when an entry came or what made it. All of
it can still be read off the changes that were made, in their order. A change sets what it
adds and unsets what it removes, and of the changes that set or unset something the last
one decides (`LastIn`). For this the directory and the files of a process are changes of
their own, made one after the other (`Edit.acts`).

One change at a time this is an equation, for the text of a file (`read_act_eq_ok_iff`)
and for a directory (`mem_directories_act`). A run is an induction on its last change,
and the same one for both (`iff_lastIn`).

From this it follows that no path stands without the directory above it: what adds a path
makes the directory, and what removes the directory removes the path.
-/
import Vitals.Proofs.FileSystem.Tree

namespace Vitals

open Vitals.Path (IsName)

theorem Path.Same.isAtOrBelow {p q : Path} (h : p.Same q) : p.IsAtOrBelow q :=
  ⟨[], (List.append_nil p.key).trans h⟩

-- =========================================================== histories

/-- Something in a history sets what is asked for, and nothing behind that unsets it. -/
def LastIn {α : Type} (Sets Unsets : α → Prop) (history : List α) : Prop :=
  ∃ before a after, history = before ++ a :: after ∧ Sets a ∧ ∀ b ∈ after, ¬ Unsets b

namespace LastIn

variable {α : Type} {Sets Unsets : α → Prop}

/-- Nothing is set by no step. -/
theorem not_nil : ¬ LastIn Sets Unsets [] := by
  intro ⟨before, a, after, hsplit, _⟩
  simp at hsplit

/-- What comes last sets, or it leaves what was set before. -/
theorem concat_iff {history : List α} {a : α} :
    LastIn Sets Unsets (history ++ [a])
      ↔ Sets a ∨ LastIn Sets Unsets history ∧ ¬ Unsets a := by
  constructor
  · intro ⟨before, b, after, hsplit, hsets, hafter⟩
    rcases List.eq_nil_or_concat' after with rfl | ⟨after, c, rfl⟩
    · obtain ⟨-, hlast⟩ := List.append_inj' hsplit rfl
      rw [(List.cons.inj hlast).1]
      exact .inl hsets
    · rw [← List.cons_append, ← List.append_assoc] at hsplit
      obtain ⟨hfront, hlast⟩ := List.append_inj' hsplit rfl
      rw [(List.cons.inj hlast).1]
      exact .inr ⟨⟨before, b, after, hfront, hsets,
        fun d hd => hafter d (List.mem_append_left _ hd)⟩, hafter c (by simp)⟩
  · intro h
    rcases h with hsets | ⟨⟨before, b, after, rfl, hsets, hafter⟩, hkept⟩
    · exact ⟨history, a, [], rfl, hsets, by simp⟩
    · refine ⟨before, b, after ++ [a], by simp, hsets, fun d hd => ?_⟩
      rcases List.mem_append.mp hd with hd | hd
      · exact hafter d hd
      · rw [List.mem_singleton.mp hd]
        exact hkept

/-- What is set more and unset less stays set. -/
theorem imp {Sets' Unsets' : α → Prop} {history : List α} (hsets : ∀ a, Sets a → Sets' a)
    (hunsets : ∀ a, Unsets' a → Unsets a) (h : LastIn Sets Unsets history) :
    LastIn Sets' Unsets' history := by
  obtain ⟨before, a, after, hsplit, ha, hafter⟩ := h
  exact ⟨before, a, after, hsplit, hsets a ha, fun b hb hb' => hafter b hb (hunsets b hb')⟩

end LastIn

/-- If each step sets, unsets or keeps a property of a state, a run has it if the last step
that matters set it. -/
theorem iff_lastIn {α σ : Type} {step : σ → α → σ} {P : σ → Prop}
    {Sets Unsets : α → Prop}
    (hstep : ∀ s a, P (step s a) ↔ Sets a ∨ P s ∧ ¬ Unsets a) {s : σ} (hs : ¬ P s)
    (history : List α) : P (history.foldl step s) ↔ LastIn Sets Unsets history := by
  induction history using List.reverseRecOn with
  | nil => exact iff_of_false hs LastIn.not_nil
  | append_singleton history a ih =>
      rw [List.foldl_concat, hstep, ih, LastIn.concat_iff]

namespace Tree

-- ============================================================= changes

/-- A change of one path. -/
inductive Act where
  /-- Adds a file or replaces its text. -/
  | write (path : Path) (content : String)
  /-- Adds a directory. -/
  | make (path : Path)
  /-- Removes a path and all that lies below it. -/
  | remove (path : Path)

/-- The tree after a change of one path. -/
def act (t : Tree) : Act → Tree
  | .write path content => t.addFile path content
  | .make path => t.addDirectory path
  | .remove path => t.remove path

/-- The changes of one path that a change is made of. A process is added as its directory
and those of its files that are not left out. -/
def Edit.acts : Edit → List Act
  | .addFile path content => [.write path content]
  | .addDirectory path => [.make path]
  | .addProcess pid status stat cmdline =>
      let base : Path := ⟨"/proc/" ++ Proc.pidText pid⟩
      [.make base, .write (base.join ⟨"status"⟩) status]
        ++ (if stat = "" then [] else [.write (base.join ⟨"stat"⟩) stat])
        ++ (if cmdline = "" then [] else [.write (base.join ⟨"cmdline"⟩) cmdline])
  | .remove path => [.remove path]

theorem foldl_act_acts (t : Tree) (e : Edit) : e.acts.foldl act t = t.apply e := by
  cases e with
  | addFile path content => rfl
  | addDirectory path => rfl
  | addProcess pid status stat cmdline =>
      show List.foldl act t _ = t.addProcess pid status stat cmdline
      unfold Edit.acts addProcess
      by_cases hstat : stat = ""
      · by_cases hcmdline : cmdline = ""
        · simp [hstat, hcmdline, act]
        · simp [hstat, hcmdline, act]
      · by_cases hcmdline : cmdline = ""
        · simp [hstat, hcmdline, act]
        · simp [hstat, hcmdline, act]
  | remove path => rfl

/-- The changes of one path that a run is made of. -/
def history (edits : List Edit) : List Act := edits.flatMap Edit.acts

/-- The tree after some changes, from nothing. -/
def grown (edits : List Edit) : Tree := edits.foldl apply empty

/-- A tree that was edited is what the acts of its edits make of the empty one. -/
theorem grown_eq (edits : List Edit) : grown edits = (history edits).foldl act empty := by
  rw [history, List.foldl_flatMap]
  simp only [foldl_act_acts]
  rfl

namespace Act

variable (p : Path)

/-- Whether a change gives a file some text. -/
def WritesText (content : String) : Act → Prop
  | write q text => q.Same p ∧ text = content
  | _ => False

/-- Whether a change gives a file a text. -/
def Writes (a : Act) : Prop := ∃ content, a.WritesText p content

/-- Whether a change adds a path as a directory, or something below it. Nothing that is
added below makes the directory of no text. -/
def Makes : Act → Prop
  | write q _ => p.text ≠ "" ∧ p.IsAtOrBelow q ∧ ¬ p.Same q
  | make q => p.Same q ∨ p.text ≠ "" ∧ p.IsAtOrBelow q
  | remove _ => False

/-- Whether a change removes a path or one above it. The path of no text is above all. -/
def Removes : Act → Prop
  | remove q => q.IsAtOrBelow p
  | _ => False

end Act

-- ================================================================ steps

/-- An added file is read back, and nothing else is read otherwise. -/
theorem read_addFile (t : Tree) (p q : Path) (content : String) :
    (t.addFile q content).read p = if q.key = p.key then .ok content else t.read p := by
  unfold read
  rw [addFile]
  dsimp only
  rw [Std.ExtTreeMap.getElem?_insert]
  by_cases hkey : q.key = p.key
  · simp [hkey]
  · simp [hkey]
    rfl

/-- What one change makes of the text of a file. -/
theorem read_act_eq_ok_iff (t : Tree) (a : Act) (p : Path) (content : String) :
    (t.act a).read p = .ok content
      ↔ a.WritesText p content ∨ t.read p = .ok content ∧ ¬ (a.Writes p ∨ a.Removes p) := by
  cases a with
  | write q text =>
      show (t.addFile q text).read p = _ ↔ _
      rw [read_addFile]
      by_cases hsame : q.key = p.key
      · simp [Act.WritesText, Act.Writes, Act.Removes, Path.Same, hsame]
      · simp [Act.WritesText, Act.Writes, Act.Removes, Path.Same, hsame]
  | make q =>
      show t.read p = _ ↔ _
      simp [Act.WritesText, Act.Writes, Act.Removes]
  | remove q =>
      show (t.remove q).read p = _ ↔ _
      rw [read_remove]
      by_cases hpre : q.key <+: p.key
      · simp [Act.WritesText, Act.Writes, Act.Removes, Path.IsAtOrBelow, hpre]
      · simp [Act.WritesText, Act.Writes, Act.Removes, Path.IsAtOrBelow, hpre]

/-- What one change makes of a directory. -/
theorem mem_directories_act (t : Tree) (a : Act) (p : Path) :
    p.key ∈ (t.act a).directories ↔ a.Makes p ∨ p.key ∈ t.directories ∧ ¬ a.Removes p := by
  have hnil : p.key ≠ [] ↔ p.text ≠ "" := not_congr Path.key_eq_nil_iff
  cases a with
  | write q text =>
      show p.key ∈ (t.addParents q).directories ↔ _
      rw [mem_directories_addParents, hnil]
      simp only [Act.Makes, Act.Removes, Path.IsAtOrBelow, Path.Same]
      tauto
  | make q =>
      show p.key ∈ (t.addDirectory q).directories ↔ _
      rw [mem_directories_addDirectory, mem_directories_addParents, hnil]
      simp only [Act.Makes, Act.Removes, Path.IsAtOrBelow, Path.Same, eq_comm]
      tauto
  | remove q =>
      show p.key ∈ (t.remove q).directories ↔ _
      rw [Std.ExtTreeMap.mem_iff_isSome_getElem?, getElem?_directories_remove]
      by_cases hpre : q.key <+: p.key
      · simp [Act.Makes, Act.Removes, Path.IsAtOrBelow, hpre]
      · simp [Act.Makes, Act.Removes, Path.IsAtOrBelow, hpre]

-- ================================================================= runs

/-- A file has the text that it was given last. -/
theorem read_grown_eq_ok_iff (edits : List Edit) (p : Path) (content : String) :
    (grown edits).read p = .ok content
      ↔ LastIn (·.WritesText p content) (fun a => a.Writes p ∨ a.Removes p) (history edits) := by
  rw [grown_eq]
  refine iff_lastIn (P := fun t => t.read p = .ok content)
    (fun t a => read_act_eq_ok_iff t a p content) ?_ _
  simp [read, empty]

/-- A path is a directory as long as what made it so is not removed. -/
theorem mem_directories_grown (edits : List Edit) (p : Path) :
    p.key ∈ (grown edits).directories ↔ LastIn (·.Makes p) (·.Removes p) (history edits) := by
  rw [grown_eq]
  refine iff_lastIn (P := fun t => p.key ∈ t.directories)
    (fun t a => mem_directories_act t a p) ?_ _
  simp [empty]

/-- A path is read or is not found, and there is no other failure. -/
theorem read_cases (t : Tree) (p : Path) :
    (∃ content, t.read p = .ok content) ∨ t.read p = .error (.fileNotFound p) := by
  unfold read
  cases t.files[p.key]? with
  | none => exact .inr rfl
  | some file => exact .inl ⟨file.2, rfl⟩

theorem contains_iff (t : Tree) (p : Path) :
    t.contains p = true ↔ (∃ content, t.read p = .ok content) ∨ p.key ∈ t.directories := by
  have hread : p.key ∈ t.files ↔ ∃ content, t.read p = .ok content := by
    rw [Std.ExtTreeMap.mem_iff_isSome_getElem?]
    unfold read
    cases t.files[p.key]? with
    | none => simp
    | some file => simp
  rw [contains_eq, isSome_node?, hread]

-- ======================================================== the path above

/-- A parent stands above its path. -/
theorem isAbove_of_parent? {p above : Path} (h : p.parent? = some above) :
    above.IsAtOrBelow p ∧ ¬ above.Same p := by
  rcases Path.parent?_cases p with ⟨hnone, -⟩ | ⟨q, hsome, hne, -, hq⟩
  · rw [hnone] at h
    cases h
  · obtain rfl : q = above := Option.some.inj (hsome.symm.trans h)
    have hpre : q.key <+: p.key := by
      rw [hq]
      exact List.dropLast_prefix p.key
    refine ⟨hpre, fun hsame => ?_⟩
    have hlength := congrArg List.length (hq.symm.trans hsame)
    have hpos := List.length_pos_iff.mpr hne
    rw [List.length_dropLast] at hlength
    omega

namespace Act

variable {p above : Path} (hpre : above.IsAtOrBelow p) (hne : ¬ above.Same p)
include hpre

/-- What removes a path from the one above it on removes the path. -/
theorem Removes.below {a : Act} (h : a.Removes above) : a.Removes p := by
  cases a with
  | remove q => exact h.trans hpre
  | write q text => exact h.elim
  | make q => exact h.elim

include hne

/-- What adds something at a path or below it makes the directories above the path. -/
theorem makes_above {q : Path} (htext : above.text ≠ "") (hq : p.IsAtOrBelow q) :
    above.text ≠ "" ∧ above.IsAtOrBelow q ∧ ¬ above.Same q := by
  refine ⟨htext, hpre.trans hq, fun hsame => hne (hpre.eq_of_length_le ?_)⟩
  rw [show above.key = q.key from hsame]
  exact hq.length_le

theorem WritesText.makes_above {a : Act} {content : String} (htext : above.text ≠ "")
    (h : a.WritesText p content) : a.Makes above := by
  cases a with
  | write q text => exact Act.makes_above hpre hne htext (Path.Same.isAtOrBelow h.1.symm)
  | make q => exact h.elim
  | remove q => exact h.elim

theorem Makes.makes_above {a : Act} (htext : above.text ≠ "") (h : a.Makes p) :
    a.Makes above := by
  cases a with
  | write q text => exact Act.makes_above hpre hne htext h.2.1
  | make q =>
      have hq : p.IsAtOrBelow q := h.elim Path.Same.isAtOrBelow And.right
      exact .inr ⟨htext, (Act.makes_above hpre hne htext hq).2.1⟩
  | remove q => exact h

end Act

/-- There is nothing without the directory above it. -/
theorem mem_directories_of_parent? (edits : List Edit) {p above : Path}
    (hp : (grown edits).contains p = true) (habove : p.parent? = some above)
    (htext : above.text ≠ "") : above.key ∈ (grown edits).directories := by
  obtain ⟨hpre, hne⟩ := isAbove_of_parent? habove
  rw [mem_directories_grown]
  rcases (contains_iff _ p).mp hp with ⟨content, hread⟩ | hdirectory
  · exact ((read_grown_eq_ok_iff edits p content).mp hread).imp
      (fun _ h => h.makes_above hpre hne htext) fun _ h => .inr (h.below hpre)
  · exact ((mem_directories_grown edits p).mp hdirectory).imp
      (fun _ h => h.makes_above hpre hne htext) fun _ h => h.below hpre

-- ============================================================== listings

/-- A child of a path has a spelling of it for a parent. -/
theorem isChild_iff_parent? (p child : Path) :
    isChild p child = true ↔ ∃ above, child.parent? = some above ∧ above.Same p := by
  unfold isChild
  cases child.parent? with
  | none => simp
  | some above => simp [Path.Same]

/-- A directory lists what exists right below it, each path once. -/
theorem Spelled.children_spec {t : Tree} (h : t.Spelled) (p : Path) :
    ((t.children p).Pairwise fun a b => ¬ a.Same b)
      ∧ ∀ q, (∃ entry ∈ t.children p, entry.Same q)
        ↔ t.contains q = true ∧ ∃ above, q.parent? = some above ∧ above.Same p := by
  obtain ⟨hnodup, hmem⟩ := h.map_key_children p
  refine ⟨List.pairwise_map.mp hnodup, fun q => ?_⟩
  rw [← isChild_iff_parent?, isChild_iff, contains_eq, ← hmem, List.mem_map]
  rfl

-- =============================================================== removal

/-- What is below a name is not below another one beside it. -/
theorem not_isAtOrBelow_of_sibling (directory : Path) {name sibling : String} (hname : IsName name)
    (hsibling : IsName sibling) (hne : name ≠ sibling) {q : Path}
    (hq : (directory.join ⟨sibling⟩).IsAtOrBelow q) : ¬ (directory.join ⟨name⟩).IsAtOrBelow q := by
  intro hq'
  unfold Path.IsAtOrBelow at hq hq'
  rw [Path.key_join_name directory hname] at hq'
  rw [Path.key_join_name directory hsibling] at hq
  have hpre := List.prefix_of_prefix_length_le hq' hq (by simp)
  exact hne (by simpa using hpre)

/-- Neither spelling nor what a name begins with decides what is below what. -/
example : Path.IsAtOrBelow ⟨"/proc//5/"⟩ ⟨"/proc/5/./stat"⟩
    ∧ ¬ Path.IsAtOrBelow ⟨"/proc//5/"⟩ ⟨"/proc/55/stat"⟩ := by decide

/-- Whatever was added to a tree and removed from it, with paths told apart by their
components alone: a file has the text that it was given last, unless it or something above
it was removed since. A path is a directory if it was added as one, or something below it
was added, and neither it nor something above it was removed since. Nothing exists without
the directory above it. A directory lists each path right below it once, and nothing else
is listed. A removal takes away what is at a path or below it, and leaves all else,
whatever the names beside the path begin with. -/
theorem tree_is_what_its_history_left (edits : List Edit) :
    grown edits = (history edits).foldl act empty
      ∧ (∀ p content, (grown edits).read p = .ok content
        ↔ LastIn (·.WritesText p content) (fun a => a.Writes p ∨ a.Removes p) (history edits))
      ∧ (∀ p, (¬ ∃ content, (grown edits).read p = .ok content) →
          (grown edits).read p = .error (.fileNotFound p))
      ∧ (∀ p, p.key ∈ (grown edits).directories
          ↔ LastIn (·.Makes p) (·.Removes p) (history edits))
      ∧ (∀ p above, (grown edits).contains p = true → p.parent? = some above →
          above.text ≠ "" → above.key ∈ (grown edits).directories)
      ∧ (∀ p, p.key ∈ (grown edits).directories → ∃ entries,
          (grown edits).list p = .ok entries
          ∧ (entries.Pairwise fun a b => ¬ a.Same b)
          ∧ ∀ q, (∃ entry ∈ entries, entry.Same q)
            ↔ (grown edits).contains q = true ∧ ∃ above, q.parent? = some above ∧ above.Same p)
      ∧ (∀ p, p.key ∉ (grown edits).directories →
          (grown edits).list p = .error (.directoryNotFound p))
      ∧ (∀ p q, ¬ p.IsAtOrBelow q →
          ((grown edits).remove p).files[q.key]? = (grown edits).files[q.key]?
          ∧ ((grown edits).remove p).directories[q.key]? = (grown edits).directories[q.key]?)
      ∧ (∀ p q, p.IsAtOrBelow q → ((grown edits).remove p).contains q = false)
      ∧ ∀ (directory : Path) name sibling q, IsName name → IsName sibling → name ≠ sibling →
          (directory.join ⟨sibling⟩).IsAtOrBelow q → ¬ (directory.join ⟨name⟩).IsAtOrBelow q := by
  have hspelled : (grown edits).Spelled := spelled_empty.foldl_apply edits
  refine ⟨grown_eq edits, read_grown_eq_ok_iff edits,
    fun p hno => ((grown edits).read_cases p).resolve_left hno, mem_directories_grown edits,
    fun p above => mem_directories_of_parent? edits,
    fun p hp => ⟨(grown edits).children p, ?_, hspelled.children_spec p⟩, fun p hp => ?_,
    fun p q hpre => ⟨(getElem?_files_remove _ p q.key).trans (if_neg hpre),
      (getElem?_directories_remove _ p q.key).trans (if_neg hpre)⟩,
    fun p q hpre => (contains_remove _ p q).trans (if_pos hpre),
    fun directory name sibling q hname hsibling hne =>
      not_isAtOrBelow_of_sibling directory hname hsibling hne⟩
  · exact if_pos (Std.ExtTreeMap.contains_iff_mem.mpr hp)
  · exact if_neg fun hcontains => hp (Std.ExtTreeMap.contains_iff_mem.mp hcontains)

end Tree

end Vitals
