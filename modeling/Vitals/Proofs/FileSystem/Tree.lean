/-
What there is in a tree after a change, and what is answered of it.

A tree keeps its files and its directories in two maps, but what it has under a key can be
said as a disk would say it (`node?`), a file before a directory. In these words each
change is an equation on look-ups, and it is the one that the change has on a disk
(`Disk.placed`), with one difference: a tree never makes a directory of no text.

A listing goes by the paths that are stored, and not by the keys they are stored under.
The two agree, since a path is stored under its own key (`Spelled`), and so what is listed
in a directory is what has one name behind those of the directory (`list_eq_ok`).
-/
import Vitals.FileSystem.Tree
import Vitals.Proofs.FileSystem.Disk
import Vitals.Proofs.Store.Order

namespace Vitals

open Std (ExtTreeMap)
open Vitals.Path (Key IsName)
open Disk (Node placed)

namespace Tree

-- ============================================================= look-ups

/-- What a tree has under a key. What is a file and a directory is taken as the file. -/
def node? (t : Tree) (k : Key) : Option Node :=
  match t.files[k]? with
  | some (_, content) => some (.file content.toUTF8)
  | none => if k ∈ t.directories then some .directory else none

/-- A tree has no path that is a file and a directory. -/
def Separate (t : Tree) : Prop := ∀ k ∈ t.files, k ∉ t.directories

instance (t : Tree) : Decidable t.Separate :=
  decidable_of_iff (∀ k ∈ t.files.keys, k ∉ t.directories)
    (forall_congr' fun _ => by rw [ExtTreeMap.mem_keys])

/-- Every path of a tree is stored under its own key. -/
structure Spelled (t : Tree) : Prop where
  files : ∀ (k : Key) (p : Path) (content : String), t.files[k]? = some (p, content) → p.key = k
  directories : ∀ (k : Key) (p : Path), t.directories[k]? = some p → p.key = k

/-- There is nothing in the empty tree. -/
theorem node?_empty (k : Key) : empty.node? k = none := by
  rw [node?, empty, ExtTreeMap.getElem?_empty]
  exact if_neg ExtTreeMap.not_mem_empty

/-- Where there is a file, there is the node of a file. -/
theorem node?_of_mem_files {t : Tree} {k : Key} (h : k ∈ t.files) :
    ∃ bytes, t.node? k = some (.file bytes) := by
  rw [ExtTreeMap.mem_iff_isSome_getElem?, Option.isSome_iff_exists] at h
  obtain ⟨⟨p, content⟩, hfile⟩ := h
  exact ⟨content.toUTF8, by rw [node?, hfile]⟩

/-- Where there is no file, there is a directory or nothing. -/
theorem node?_of_not_mem_files {t : Tree} {k : Key} (h : k ∉ t.files) :
    t.node? k = if k ∈ t.directories then some .directory else none := by
  rw [node?, ExtTreeMap.getElem?_eq_none h]

/-- The node of a file is there only because of a file. -/
theorem mem_files_of_node? {t : Tree} {k : Key} {bytes : ByteArray}
    (h : t.node? k = some (.file bytes)) : k ∈ t.files := by
  by_contra hfile
  rw [node?_of_not_mem_files hfile] at h
  split at h <;> cases h

/-- The node of a directory is there only because of a directory. -/
theorem mem_directories_of_node? {t : Tree} {k : Key} (h : t.node? k = some .directory) :
    k ∈ t.directories := by
  unfold node? at h
  split at h
  · cases h
  · split at h
    · assumption
    · cases h

/-- There is a node precisely where there is a file or a directory. -/
theorem isSome_node? (t : Tree) (k : Key) :
    (t.node? k).isSome = true ↔ k ∈ t.files ∨ k ∈ t.directories := by
  by_cases hfile : k ∈ t.files
  · obtain ⟨bytes, hnode⟩ := node?_of_mem_files hfile
    simp [hnode, hfile]
  · rw [node?_of_not_mem_files hfile]
    split <;> simp_all

-- =============================================== directories on the way

section Inserting

variable {β : Type} (l : List (Key × β)) (m : ExtTreeMap Key β)

/-- What is inserted where nothing is yet is found, and so is what was there. -/
theorem mem_foldl_insertIfNew (k : Key) :
    k ∈ l.foldl (fun m e => m.insertIfNew e.1 e.2) m ↔ k ∈ m ∨ k ∈ l.map (·.1) := by
  induction l generalizing m with
  | nil => simp
  | cons e l ih =>
      rw [List.foldl_cons, ih, ExtTreeMap.mem_insertIfNew, List.map_cons, List.mem_cons]
      simp only [Std.LawfulEqCmp.compare_eq_iff_eq]
      rw [eq_comm, or_assoc]
      tauto

/-- Entries that are added where there are none keep a property that all of them have. -/
theorem of_getElem?_foldl_insertIfNew {P : Key → β → Prop} (hm : ∀ k v, m[k]? = some v → P k v)
    (hl : ∀ e ∈ l, P e.1 e.2) {k : Key} {v : β}
    (h : (l.foldl (fun m e => m.insertIfNew e.1 e.2) m)[k]? = some v) : P k v := by
  induction l generalizing m with
  | nil => exact hm k v h
  | cons e l ih =>
      refine ih _ ?_ (fun e he => hl e (List.mem_cons_of_mem _ he)) h
      intro k v hv
      rw [ExtTreeMap.getElem?_insertIfNew] at hv
      split at hv
      · next hnew =>
          cases hv
          rw [← Std.LawfulEqCmp.compare_eq_iff_eq.mp hnew.1]
          exact hl e (List.mem_cons_self ..)
      · exact hm k v hv

end Inserting

/-- Directories are added as entries are: a spelling that is there already is kept. -/
theorem foldl_withDirectory_eq (paths : List Path) (directories : ExtTreeMap Key Path) :
    paths.foldl withDirectory directories
      = (paths.map fun p => (p.key, p)).foldl (fun m e => m.insertIfNew e.1 e.2) directories := by
  rw [List.foldl_map]
  rfl

/-- The parents of a path are all that stands above it, but for the empty path. -/
theorem mem_directories_addParents (t : Tree) (p : Path) (k : Key) :
    k ∈ (t.addParents p).directories
      ↔ k ∈ t.directories ∨ (k ≠ [] ∧ k <+: p.key ∧ k ≠ p.key) := by
  show k ∈ List.foldl withDirectory t.directories _ ↔ _
  rw [foldl_withDirectory_eq, mem_foldl_insertIfNew, List.map_map, ← Path.mem_ancestors_iff]
  rfl

-- ============================================================= changes

/-- A tree with the same file under a key, and directories on the way to a path, has under
the key what it had, or else a directory. -/
theorem node?_eq_or {t t' : Tree} {k path : Key} (hfile : t'.files[k]? = t.files[k]?)
    (hdirectory : k ∈ t'.directories ↔ k ∈ t.directories ∨ k <+: path) :
    t'.node? k = (t.node? k).or (if k <+: path then some .directory else none) := by
  unfold node?
  rw [hfile]
  cases t.files[k]? with
  | some entry => rfl
  | none =>
      by_cases hk : k ∈ t.directories
      · simp [hdirectory, hk]
      · simp [hdirectory, hk]

/-- Where the empty path is of no matter, the directories that are added are those above the
path. -/
theorem mem_directories_addParents_iff {t : Tree} {p : Path} {k : Key} (hself : k ≠ p.key)
    (hk : k ≠ [] ∨ k ∈ t.directories) :
    k ∈ (t.addParents p).directories ↔ k ∈ t.directories ∨ k <+: p.key := by
  rw [mem_directories_addParents]
  constructor
  · rintro (hmem | ⟨-, hpre, -⟩)
    · exact .inl hmem
    · exact .inr hpre
  · rintro (hmem | hpre)
    · exact .inl hmem
    · exact hk.symm.imp_right fun hne => ⟨hne, hpre, hself⟩

/-- A file that is added is one more, or takes the place of one. -/
theorem mem_files_addFile (t : Tree) (p : Path) (content : String) (k : Key) :
    k ∈ (t.addFile p content).files ↔ p.key = k ∨ k ∈ t.files := by
  rw [addFile]
  dsimp only
  rw [ExtTreeMap.mem_insert, Std.LawfulEqCmp.compare_eq_iff_eq]
  rfl

/-- The directories that come with a file are its parents. -/
theorem directories_addFile (t : Tree) (p : Path) (content : String) :
    (t.addFile p content).directories = (t.addParents p).directories := rfl

theorem files_addDirectory (t : Tree) (p : Path) : (t.addDirectory p).files = t.files := rfl

/-- A directory comes with its parents. -/
theorem mem_directories_addDirectory (t : Tree) (p : Path) (k : Key) :
    k ∈ (t.addDirectory p).directories ↔ p.key = k ∨ k ∈ (t.addParents p).directories := by
  show k ∈ (t.addParents p).directories.insertIfNew p.key p ↔ _
  rw [ExtTreeMap.mem_insertIfNew, Std.LawfulEqCmp.compare_eq_iff_eq]

/-- A file stands where it was put, directories stand above it, and the rest of the tree is
as it was. -/
theorem node?_addFile (t : Tree) (p : Path) (content : String) {k : Key}
    (hk : k ≠ p.key → k ≠ [] ∨ k ∈ t.directories) :
    (t.addFile p content).node? k = placed (t.node? k) k p.key (.file content.toUTF8) := by
  rw [placed]
  by_cases hself : k = p.key
  · rw [if_pos hself, hself, node?, addFile]
    dsimp only
    rw [ExtTreeMap.getElem?_insert_self]
  · rw [if_neg hself]
    refine node?_eq_or ?_ (mem_directories_addParents_iff hself (hk hself))
    rw [addFile]
    dsimp only
    rw [ExtTreeMap.getElem?_insert, if_neg (by simpa using Ne.symm hself)]
    rfl

/-- So it is with a directory, where there was no file. -/
theorem node?_addDirectory {t : Tree} {p : Path} (hfile : p.key ∉ t.files) {k : Key}
    (hk : k ≠ p.key → k ≠ [] ∨ k ∈ t.directories) :
    (t.addDirectory p).node? k = placed (t.node? k) k p.key .directory := by
  rw [placed]
  by_cases hself : k = p.key
  · have hmem := (mem_directories_addDirectory t p p.key).mpr (.inl rfl)
    have hnode := @node?_of_not_mem_files (t.addDirectory p) p.key hfile
    rw [if_pos hself, hself, hnode, if_pos hmem]
  · rw [if_neg hself]
    refine node?_eq_or rfl ?_
    rw [mem_directories_addDirectory, or_iff_right (Ne.symm hself),
      mem_directories_addParents_iff hself (hk hself)]

/-- No file at or below a path is left when it is removed, and the others are. -/
theorem getElem?_files_remove (t : Tree) (p : Path) (k : Key) :
    (t.remove p).files[k]? = if p.key <+: k then none else t.files[k]? :=
  Disk.getElem?_filter_not_isPrefixOf t.files p.key k

/-- Nor is a directory. -/
theorem getElem?_directories_remove (t : Tree) (p : Path) (k : Key) :
    (t.remove p).directories[k]? = if p.key <+: k then none else t.directories[k]? :=
  Disk.getElem?_filter_not_isPrefixOf t.directories p.key k

/-- A removed path takes with it all that is below it, and nothing else. -/
theorem node?_remove (t : Tree) (p : Path) (k : Key) :
    (t.remove p).node? k = if p.key <+: k then none else t.node? k := by
  have hdirectories : k ∈ (t.remove p).directories ↔ ¬ p.key <+: k ∧ k ∈ t.directories := by
    rw [ExtTreeMap.mem_iff_isSome_getElem?, ExtTreeMap.mem_iff_isSome_getElem?,
      getElem?_directories_remove]
    by_cases hpre : p.key <+: k
    · simp [hpre]
    · simp [hpre]
  unfold node?
  rw [getElem?_files_remove]
  by_cases hpre : p.key <+: k
  · simp [hpre, hdirectories]
  · simp [hpre, hdirectories]

-- ============================================================ spellings

/-- In the empty tree there is nothing to spell. -/
theorem spelled_empty : empty.Spelled where
  files k p content h := by
    rw [empty, ExtTreeMap.getElem?_empty] at h
    cases h
  directories k p h := by
    rw [empty, ExtTreeMap.getElem?_empty] at h
    cases h

namespace Spelled

variable {t : Tree} (h : t.Spelled)
include h

/-- Parents are spelled as the path that they are of. -/
theorem addParents (p : Path) : (t.addParents p).Spelled where
  files := h.files
  directories k q hq := by
    have hfold : (t.addParents p).directories
        = (p.ancestors.filter (·.text ≠ "")).foldl withDirectory t.directories := rfl
    rw [hfold, foldl_withDirectory_eq] at hq
    refine of_getElem?_foldl_insertIfNew _ _ h.directories ?_ hq
    intro e he
    obtain ⟨q, -, rfl⟩ := List.mem_map.mp he
    rfl

/-- A file keeps the spelling that it is added under. -/
theorem addFile (p : Path) (content : String) : (t.addFile p content).Spelled where
  files k q text hq := by
    rw [Tree.addFile] at hq
    dsimp only at hq
    rw [ExtTreeMap.getElem?_insert] at hq
    split at hq
    · next hk =>
        -- a path that is there already keeps its spelling
        cases hq
        rw [← Std.LawfulEqCmp.compare_eq_iff_eq.mp hk]
        split
        · next first old hfile => exact h.files _ _ _ hfile
        · rfl
    · exact h.files k q text hq
  directories := (h.addParents p).directories

/-- So does a directory. -/
theorem addDirectory (p : Path) : (t.addDirectory p).Spelled where
  files := h.files
  directories k q hq := by
    have hinsert : (t.addDirectory p).directories
        = [(p.key, p)].foldl (fun m e => m.insertIfNew e.1 e.2) (t.addParents p).directories := rfl
    rw [hinsert] at hq
    refine of_getElem?_foldl_insertIfNew _ _ (h.addParents p).directories ?_ hq
    intro e he
    rw [List.mem_singleton.mp he]

/-- What is left keeps its spelling. -/
theorem remove (p : Path) : (t.remove p).Spelled where
  files k q text hq := by
    rw [getElem?_files_remove] at hq
    split at hq
    · cases hq
    · exact h.files k q text hq
  directories k q hq := by
    rw [getElem?_directories_remove] at hq
    split at hq
    · cases hq
    · exact h.directories k q hq

/-- The files of a process are spelled below its directory. -/
theorem addProcess (pid : Int32) (status stat cmdline : String) :
    (t.addProcess pid status stat cmdline).Spelled := by
  unfold Tree.addProcess
  dsimp only
  have hstatus := (h.addDirectory ⟨"/proc/" ++ Proc.pidText pid⟩).addFile
    (Path.join ⟨"/proc/" ++ Proc.pidText pid⟩ ⟨"status"⟩) status
  -- the two other files may be left out
  by_cases hstat : stat = ""
  · rw [if_pos hstat]
    split
    · exact hstatus
    · exact hstatus.addFile _ _
  · rw [if_neg hstat]
    split
    · exact hstatus.addFile _ _
    · exact (hstatus.addFile _ _).addFile _ _

/-- A change keeps paths under their own keys. -/
theorem apply (e : Edit) : (t.apply e).Spelled := by
  cases e with
  | addFile p content => exact h.addFile p content
  | addDirectory p => exact h.addDirectory p
  | addProcess pid status stat cmdline => exact h.addProcess pid status stat cmdline
  | remove p => exact h.remove p

/-- So do changes, one after the other. -/
theorem foldl_apply (edits : List Edit) : (edits.foldl Tree.apply t).Spelled := by
  induction edits generalizing t with
  | nil => exact h
  | cons e edits ih => exact ih (h.apply e)

end Spelled

-- ============================================================== answers

theorem fromUTF8?_toUTF8 (content : String) :
    String.fromUTF8? content.toUTF8 = some content := by
  rw [String.fromUTF8?]
  exact dif_pos content.isValidUTF8

/-- The text of a file is had where there is one. -/
theorem read_toOption (t : Tree) (p : Path) :
    (t.read p).toOption = Disk.textOf (t.node? p.key) := by
  unfold read node?
  cases t.files[p.key]? with
  | some entry => exact (fromUTF8?_toUTF8 entry.2).symm
  | none =>
      by_cases hk : p.key ∈ t.directories
      · rw [if_pos hk]
        rfl
      · rw [if_neg hk]
        rfl

/-- A path is contained precisely if it has a node. -/
theorem contains_eq (t : Tree) (p : Path) : t.contains p = (t.node? p.key).isSome := by
  rw [Bool.eq_iff_iff, isSome_node?, contains, Bool.or_eq_true]
  rfl

/-- What lies at a path that was removed, or below it, is not read any more, and all else is
as it was. -/
theorem read_remove (t : Tree) (p q : Path) :
    (t.remove p).read q = if p.key <+: q.key then .error (.fileNotFound q) else t.read q := by
  unfold read
  rw [getElem?_files_remove]
  by_cases hpre : p.key <+: q.key
  · rw [if_pos hpre, if_pos hpre]
  · rw [if_neg hpre, if_neg hpre]

/-- What is removed is no longer contained, with all that is below it. -/
theorem contains_remove (t : Tree) (p q : Path) :
    (t.remove p).contains q = if p.key <+: q.key then false else t.contains q := by
  rw [contains_eq, node?_remove, contains_eq]
  split
  · rfl
  · rfl

/-- A child is one name below its parent, and the root is none. -/
theorem isChild_iff (p child : Path) :
    isChild p child = true ↔ (∃ name, child.key = p.key ++ [name]) ∧ child.key ≠ [Path.root] := by
  unfold isChild
  rcases Path.parent?_cases child with ⟨hnone, hkey⟩ | ⟨q, hsome, hne, hroot, hq⟩
  · rw [hnone]
    refine iff_of_false Bool.false_ne_true ?_
    rintro ⟨⟨name, hname⟩, hroot⟩
    exact hkey.elim (fun hkey => by simp [hkey] at hname) hroot
  · rw [hsome]
    show (q.key == p.key) = true ↔ _
    rw [beq_iff_eq, hq]
    constructor
    · rintro hlast
      exact ⟨⟨child.key.getLast hne, by rw [← hlast, List.dropLast_append_getLast]⟩, hroot⟩
    · rintro ⟨⟨name, hname⟩, -⟩
      rw [hname, List.dropLast_concat]

/-- The files in a directory, each as it is spelled. -/
def filesIn (t : Tree) (p : Path) : ExtTreeMap Key Path :=
  (t.files.filter fun _ (path, _) => isChild p path).map fun _ (path, _) => path

/-- The directories in a directory, each as it is spelled. -/
def directoriesIn (t : Tree) (p : Path) : ExtTreeMap Key Path :=
  t.directories.filter fun _ path => isChild p path

/-- The children are the files and the directories directly below a path, each once. -/
theorem children_eq (t : Tree) (p : Path) :
    t.children p
      = ((t.directoriesIn p).toList.foldl (fun m e => m.insertIfNew e.1 e.2)
          (t.filesIn p)).values := by
  rw [children, ExtTreeMap.foldl_eq_foldl_toList]
  rfl

namespace Spelled

variable {t : Tree} (h : t.Spelled) (p : Path)
include h

theorem getElem?_filesIn {k : Key} {q : Path} (hq : (t.filesIn p)[k]? = some q) : q.key = k := by
  rw [filesIn, ExtTreeMap.getElem?_map, Option.map_eq_some_iff] at hq
  obtain ⟨⟨q', content⟩, hfile, rfl⟩ := hq
  rw [ExtTreeMap.getElem?_filter', Option.filter_eq_some_iff] at hfile
  exact h.files k q' content hfile.1

theorem getElem?_directoriesIn {k : Key} {q : Path} (hq : (t.directoriesIn p)[k]? = some q) :
    q.key = k := by
  rw [directoriesIn, ExtTreeMap.getElem?_filter', Option.filter_eq_some_iff] at hq
  exact h.directories k q hq.1

/-- The files directly below a path are those with one name more. -/
theorem mem_filesIn (k : Key) :
    k ∈ t.filesIn p ↔ k ∈ t.files ∧ (∃ name, k = p.key ++ [name]) ∧ k ≠ [Path.root] := by
  rw [filesIn, ExtTreeMap.mem_map, ExtTreeMap.mem_iff_isSome_getElem?,
    ExtTreeMap.mem_iff_isSome_getElem?, ExtTreeMap.getElem?_filter']
  cases hfile : t.files[k]? with
  | none => simp
  | some entry =>
      obtain ⟨q, content⟩ := entry
      have hchild := isChild_iff p q
      rw [h.files k q content hfile] at hchild
      simp [Option.filter, hchild]

/-- So are the directories directly below it. -/
theorem mem_directoriesIn (k : Key) :
    k ∈ t.directoriesIn p
      ↔ k ∈ t.directories ∧ (∃ name, k = p.key ++ [name]) ∧ k ≠ [Path.root] := by
  rw [directoriesIn, ExtTreeMap.mem_iff_isSome_getElem?, ExtTreeMap.mem_iff_isSome_getElem?,
    ExtTreeMap.getElem?_filter']
  cases hdirectory : t.directories[k]? with
  | none => simp
  | some q =>
      have hchild := isChild_iff p q
      rw [h.directories k q hdirectory] at hchild
      simp [Option.filter, hchild]

/-- What is in a directory is what has one name behind its own names, each once. -/
theorem map_key_children :
    ((t.children p).map Path.key).Nodup
      ∧ ∀ k, k ∈ (t.children p).map Path.key
        ↔ (t.node? k).isSome = true ∧ (∃ name, k = p.key ++ [name]) ∧ k ≠ [Path.root] := by
  have hkeys : (t.children p).map Path.key
      = ((t.directoriesIn p).toList.foldl (fun m e => m.insertIfNew e.1 e.2)
          (t.filesIn p)).keys := by
    rw [children_eq]
    refine map_key_values fun k q hq => ?_
    refine of_getElem?_foldl_insertIfNew (P := fun k q => q.key = k) _ _ ?_ ?_ hq
    · exact fun k q hq => h.getElem?_filesIn p hq
    · intro e he
      exact h.getElem?_directoriesIn p (ExtTreeMap.mem_toList_iff_getElem?_eq_some.mp he)
  rw [hkeys]
  refine ⟨ExtTreeMap.nodup_keys, fun k => ?_⟩
  rw [ExtTreeMap.mem_keys, mem_foldl_insertIfNew, ExtTreeMap.map_fst_toList_eq_keys,
    ExtTreeMap.mem_keys, h.mem_filesIn, h.mem_directoriesIn, isSome_node?]
  tauto

end Spelled

end Tree

end Vitals
