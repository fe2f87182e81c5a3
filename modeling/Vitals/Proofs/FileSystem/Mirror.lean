/-
A tree in memory stands in for a disk.

The same changes are made to both, each below a root of its own, and between changes both
are swept. What a tree has below its root is then what the disk has below its own
(`Mirrors`): every change is the same equation on look-ups on either side, as long as it
leaves no path of the tree a file and a directory at once. That is the one thing that a
tree does not look after itself. A disk refuses to write through a file or over a
directory, a tree does as it is told, and from then on the two would go different ways.

While they go one way, they answer alike. A disk has a reason of its own for each failure
and lists in an order of its own, and a tree keeps spellings, but neither is seen by a
sweep. So all sweeps report the same and leave the same stores
(`tree_stands_in_for_disk`).
-/
import Vitals.Proofs.FileSystem.Tree
import Vitals.Proofs.Sweep.Likeness

namespace Vitals

open Std (ExtTreeMap)
open Vitals.Path (Key IsName IsPlain)

namespace FileSystem

-- ============================================================= changes

/-- A change below a root. -/
inductive Change where
  /-- Writes a file, and makes the directories above it. -/
  | write (path : Path) (content : String)
  /-- Makes a directory and those above it. -/
  | makeDirectory (path : Path)
  /-- Removes a file, or a directory and all that lies below it. -/
  | remove (path : Path)

namespace Change

/-- The path of a change, from the root. -/
def path : Change → Path
  | write path _ => path
  | makeDirectory path => path
  | remove path => path

/-- The disk after a change below its root. -/
def onDisk (d : Disk) : Change → Disk
  | write path content => d.apply (.write path content.toUTF8)
  | makeDirectory path => d.apply (.makeDirectory path)
  | remove path => d.apply (.remove path)

/-- The tree after a change below one of its directories. -/
def inTree (root : Path) (t : Tree) : Change → Tree
  | write path content => t.apply (.addFile (root.join path) content)
  | makeDirectory path => t.apply (.addDirectory (root.join path))
  | remove path => t.apply (.remove (root.join path))

end Change

-- ============================================================ mirroring

/-- A tree has below a root what a disk has. -/
structure Mirrors (root : Path) (d : Disk) (t : Tree) : Prop where
  sound : d.Sound
  spelled : t.Spelled
  nodes : ∀ names : Key, d.nodes[names]? = t.node? (root.key ++ names)

/-- The tree with nothing in it but a root, and what is above that. -/
def rooted (root : Path) : Tree := Tree.empty.addDirectory root

theorem placed_append (there : Option Disk.Node) (root k path : Key) (node : Disk.Node) :
    Disk.placed there (root ++ k) (root ++ path) node = Disk.placed there k path node := by
  simp only [Disk.placed, List.append_cancel_left_eq, List.prefix_append_right_inj]

/-- A fresh tree holds its root and nothing below it. -/
theorem node?_rooted (root : Path) (names : Key) :
    (rooted root).node? (root.key ++ names) = if names = [] then some .directory else none := by
  have hk : root.key ++ names ≠ root.key →
      root.key ++ names ≠ [] ∨ root.key ++ names ∈ Tree.empty.directories := by
    intro hne
    refine .inl fun hnil => hne ?_
    rw [hnil, (List.append_eq_nil_iff.mp hnil).1]
  rw [rooted, Tree.node?_addDirectory ExtTreeMap.not_mem_empty hk, Tree.node?_empty]
  cases names with
  | nil => simp [Disk.placed]
  | cons name names =>
      -- nothing is made below the root
      have hpre : ¬ root.key ++ name :: names <+: root.key := by
        intro hpre
        have hlength := hpre.length_le
        rw [List.length_append, List.length_cons] at hlength
        omega
      rw [Disk.placed, if_neg (List.cons_ne_nil _ _), if_neg hpre, if_neg (by simp)]
      rfl

/-- A fresh tree is the picture of an empty disk. -/
theorem mirrors_empty (root : Path) : Mirrors root .empty (rooted root) where
  sound := Disk.sound_empty
  spelled := Tree.spelled_empty.addDirectory root
  nodes names := by rw [Disk.getElem?_empty, node?_rooted]

-- ============================================================ listings

/-- The last component of a path, as the name that it is. -/
def lastName (p : Path) : String := p.key.getLastD ""

end FileSystem

namespace Tree.Spelled

variable {t : Tree} (h : t.Spelled) (directory : Path)
include h

/-- What is in a directory has its last name behind those of the directory. -/
theorem key_of_mem_children {entry : Path} (hentry : entry ∈ t.children directory) :
    entry.key = directory.key ++ [FileSystem.lastName entry] := by
  obtain ⟨-, ⟨name, hname⟩, -⟩ :=
    ((h.map_key_children directory).2 entry.key).mp (List.mem_map_of_mem hentry)
  rw [FileSystem.lastName, hname, List.getLastD_concat]

/-- The children of a directory are its key followed by their last names. -/
theorem map_concat_lastName :
    ((t.children directory).map FileSystem.lastName).map (fun name => directory.key ++ [name])
      = (t.children directory).map Path.key := by
  rw [List.map_map]
  exact List.map_congr_left fun entry hentry => (h.key_of_mem_children directory hentry).symm

/-- No two children of a directory share a last name. -/
theorem nodup_lastName : ((t.children directory).map FileSystem.lastName).Nodup := by
  have hnodup := (h.map_key_children directory).1
  rw [← h.map_concat_lastName] at hnodup
  exact List.Nodup.of_map _ hnodup

/-- The last names in a listing are the names something stands under. -/
theorem mem_lastName (name : String) :
    name ∈ (t.children directory).map FileSystem.lastName
      ↔ (t.node? (directory.key ++ [name])).isSome = true
        ∧ directory.key ++ [name] ≠ [Path.root] := by
  rw [← List.mem_map_of_injective (Disk.injective_concat directory.key),
    h.map_concat_lastName, (h.map_key_children directory).2]
  exact and_congr_right fun _ => and_iff_right ⟨name, rfl⟩

end Tree.Spelled

namespace FileSystem

namespace Mirrors

-- ====================================================== changes, mirrored

variable {root : Path} {d : Disk} {t : Tree} (h : Mirrors root d t)
include h

theorem root_mem : root.key ∈ t.directories := by
  refine Tree.mem_directories_of_node? ?_
  rw [← List.append_nil root.key, ← h.nodes, h.sound.root]

/-- What is below the root is not without a name, unless it is there already. -/
theorem ne_nil_or_mem (names : Key) :
    root.key ++ names ≠ [] ∨ root.key ++ names ∈ t.directories := by
  cases names with
  | nil =>
      rw [List.append_nil]
      exact .inr h.root_mem
  | cons name names => exact .inl (by simp)

theorem isFile_eq_false {names : Key} (hfile : root.key ++ names ∉ t.files) :
    d.isFile names = false := by
  rw [← Bool.not_eq_true, Disk.isFile_iff, h.nodes]
  rintro ⟨bytes, hnode⟩
  exact hfile (Tree.mem_files_of_node? hnode)

theorem isDirectory_eq_false {names : Key} (hdirectory : root.key ++ names ∉ t.directories) :
    d.isDirectory names = false := by
  rw [← Bool.not_eq_true, Disk.isDirectory_iff, h.nodes]
  exact fun hnode => hdirectory (Tree.mem_directories_of_node? hnode)

/-- No file is on the way to a path, if no path is a file and a directory once there are
directories on the way. -/
theorem way_free {p : Path} (hp : p.IsPlain) {t' : Tree} (hseparate : t'.Separate)
    (hfiles : ∀ k ∈ t.files, k ∈ t'.files)
    (hdirectories : ∀ k ∈ (t.addParents (root.join p)).directories, k ∈ t'.directories)
    (k : Key) (hpre : k <+: p.key) (hne : k ≠ p.key) : d.isFile k = false := by
  have hkey := Path.key_join root hp.lead_eq_nil
  refine h.isFile_eq_false fun hfile => hseparate _ (hfiles _ hfile) (hdirectories _ ?_)
  have hself : root.key ++ k ≠ (root.join p).key := by
    rw [hkey]
    simpa using hne
  rw [Tree.mem_directories_addParents_iff hself (h.ne_nil_or_mem k), hkey,
    List.prefix_append_right_inj]
  exact .inr hpre

/-- Writing a file keeps the picture. -/
theorem write {p : Path} (hp : p.IsPlain) (content : String)
    (hseparate : (t.addFile (root.join p) content).Separate) :
    Mirrors root (d.write p content.toUTF8) (t.addFile (root.join p) content) := by
  have hkey := Path.key_join root hp.lead_eq_nil
  have hway := h.way_free hp hseparate
    (fun k hk => (Tree.mem_files_addFile _ _ _ k).mpr (.inr hk)) fun k hk => by
      rw [Tree.directories_addFile]
      exact hk
  have hplace : d.isDirectory p.key = false := by
    refine h.isDirectory_eq_false fun hdirectory => ?_
    rw [← hkey] at hdirectory
    refine hseparate (root.join p).key ((Tree.mem_files_addFile _ _ _ _).mpr (.inl rfl)) ?_
    rw [Tree.directories_addFile, Tree.mem_directories_addParents]
    exact .inl hdirectory
  have hnodes := Disk.getElem?_write hp hway hplace content.toUTF8
  refine ⟨h.sound.of_placed hp hway ?_ hnodes, h.spelled.addFile _ _, fun names => ?_⟩
  · rw [hplace]
    exact nofun
  · rw [hnodes, Tree.node?_addFile _ _ _ fun _ => h.ne_nil_or_mem names, hkey, placed_append,
      h.nodes]

/-- Making a directory keeps the picture. -/
theorem makeDirectory {p : Path} (hp : p.IsPlain)
    (hseparate : (t.addDirectory (root.join p)).Separate) :
    Mirrors root (d.makeDirectory p) (t.addDirectory (root.join p)) := by
  have hkey := Path.key_join root hp.lead_eq_nil
  have hfile : (root.join p).key ∉ t.files := by
    intro hfile
    rw [← Tree.files_addDirectory t (root.join p)] at hfile
    exact hseparate _ hfile ((Tree.mem_directories_addDirectory _ _ _).mpr (.inl rfl))
  have hfiles : ∀ k ∈ t.files, k ∈ (t.addDirectory (root.join p)).files := by
    intro k hk
    rw [Tree.files_addDirectory]
    exact hk
  have hway := h.way_free hp hseparate hfiles fun k hk =>
    (Tree.mem_directories_addDirectory t (root.join p) k).mpr (.inr hk)
  have hplace : d.isFile p.key = false := by
    refine h.isFile_eq_false ?_
    rw [← hkey]
    exact hfile
  have hnodes := Disk.getElem?_makeDirectory hp hway hplace
  refine ⟨h.sound.of_placed hp hway (fun _ => rfl) hnodes, h.spelled.addDirectory _,
    fun names => ?_⟩
  rw [hnodes, Tree.node?_addDirectory hfile fun _ => h.ne_nil_or_mem names, hkey, placed_append,
    h.nodes]

/-- Removing a path keeps the picture. -/
theorem remove {p : Path} (hp : p.IsPlain) :
    Mirrors root (d.remove p) (t.remove (root.join p)) := by
  refine ⟨h.sound.remove hp, h.spelled.remove _, fun names => ?_⟩
  rw [h.sound.getElem?_remove hp, Tree.node?_remove, Path.key_join root hp.lead_eq_nil, h.nodes]
  simp only [List.prefix_append_right_inj]

/-- One change keeps a tree and a disk alike. -/
theorem change {c : Change} (hp : c.path.IsPlain) (hseparate : (c.inTree root t).Separate) :
    Mirrors root (c.onDisk d) (c.inTree root t) := by
  cases c with
  | write p content => exact h.write hp content hseparate
  | makeDirectory p => exact h.makeDirectory hp hseparate
  | remove p => exact h.remove hp

-- ============================================================== answers

/-- A child of the root stands under its last name. -/
theorem key_of_mem_children {entry : Path} (hentry : entry ∈ t.children root) :
    IsName (lastName entry) ∧ entry.key = root.key ++ [lastName entry] := by
  have hmem := (h.spelled.mem_lastName root _).mp (List.mem_map_of_mem hentry)
  rw [← h.nodes] at hmem
  obtain ⟨node, hnode⟩ := Option.isSome_iff_exists.mp hmem.1
  exact ⟨h.sound.names _ _ hnode _ (List.mem_singleton_self _),
    h.spelled.key_of_mem_children root hentry⟩

/-- The names that are found in the root of a disk are those that are found in the tree. -/
theorem perm_map_lastName {found : List String} (hnodup : found.Nodup)
    (hfound : ∀ name, name ∈ found ↔ (d.nodes[[] ++ [name]]?).isSome = true) :
    found.Perm ((t.children root).map lastName) := by
  refine (List.perm_ext_iff_of_nodup hnodup (h.spelled.nodup_lastName root)).mpr ?_
  intro name
  rw [hfound, h.spelled.mem_lastName, List.nil_append, h.nodes]
  refine ⟨fun hnode => ⟨hnode, fun hroot => ?_⟩, And.left⟩
  -- the root of all paths is no name
  rw [← h.nodes] at hnode
  obtain ⟨node, hnode⟩ := Option.isSome_iff_exists.mp hnode
  refine (h.sound.names _ _ hnode name (List.mem_singleton_self _)).ne_root ?_
  simpa using congrArg List.getLast? hroot

/-- What is listed of the root on either side has the same names. -/
theorem list (mount : Path) :
    ∃ l l' l'', (d.fileSystem mount).list mount = .ok l ∧ t.fileSystem.list root = .ok l'
      ∧ l.Perm l''
      ∧ List.Forall₂ (fun entry entry' => ∃ name, IsName name
          ∧ entry.key = mount.key ++ [name] ∧ entry'.key = root.key ++ [name]) l'' l' := by
  obtain ⟨found, hfound, hnodup, hmem⟩ := h.sound.list_eq_ok h.sound.root
  have hperm := h.perm_map_lastName hnodup hmem
  refine ⟨found.map fun name => mount.join ⟨name⟩, t.children root, _, ?_, ?_, hperm.map _, ?_⟩
  · rw [Disk.list_fileSystem d (List.append_nil _).symm, hfound]
    rfl
  · exact if_pos (ExtTreeMap.contains_iff_mem.mpr h.root_mem)
  · rw [List.map_map, List.forall₂_map_left_iff, List.forall₂_same]
    intro entry hentry
    obtain ⟨hname, hkey⟩ := h.key_of_mem_children hentry
    exact ⟨lastName entry, hname, Path.key_join_name mount hname, hkey⟩

/-- A disk and the tree that mirrors it answer alike. -/
theorem alike (mount : Path) : Alike mount root (d.fileSystem mount) t.fileSystem where
  read p p' hplace := by
    obtain ⟨names, -, hp, hp'⟩ := hplace
    have htree := t.read_toOption p'
    rw [hp', ← h.nodes] at htree
    rw [Disk.read_fileSystem d hp]
    exact (h.sound.read_toOption names).trans htree.symm
  contains p p' hplace := by
    obtain ⟨names, -, hp, hp'⟩ := hplace
    have htree := t.contains_eq p'
    rw [hp', ← h.nodes] at htree
    rw [Disk.contains_fileSystem d hp]
    exact (h.sound.contains_eq names).trans htree.symm
  list := h.list mount

end Mirrors

-- ================================================================= runs

/-- What has become of a state by each of some sweeps, with changes made before each. -/
def stages {α : Type} (apply : α → Change → α) : α → List (List Change) → List α
  | _, [] => []
  | state, changes :: rest =>
      changes.foldl apply state :: stages apply (changes.foldl apply state) rest

/-- Changes that are made to paths of names, and by which no path of a tree ever becomes a
file and a directory at once. -/
structure Orderly (root : Path) (changes : List Change) : Prop where
  plain : ∀ c ∈ changes, c.path.IsPlain
  separate : ∀ first, first <+: changes →
    (first.foldl (Change.inTree root) (rooted root)).Separate

namespace Mirrors

variable {root : Path}

/-- Any changes that are told to both keep the picture. -/
theorem changes {d : Disk} {t : Tree} (h : Mirrors root d t) {changes : List Change}
    (hplain : ∀ c ∈ changes, c.path.IsPlain)
    (hseparate : ∀ first, first <+: changes → (first.foldl (Change.inTree root) t).Separate) :
    Mirrors root (changes.foldl Change.onDisk d) (changes.foldl (Change.inTree root) t) := by
  induction changes generalizing d t with
  | nil => exact h
  | cons c changes ih =>
      have hfirst : [c] <+: c :: changes := ⟨changes, rfl⟩
      refine ih (h.change (hplain c (List.mem_cons_self ..)) (hseparate _ hfirst)) ?_ ?_
      · exact fun c' hc' => hplain c' (List.mem_cons_of_mem _ hc')
      · exact fun first hpre => hseparate (c :: first) (List.cons_prefix_cons.mpr ⟨rfl, hpre⟩)

/-- After every episode the tree is the picture of the disk. -/
theorem stages {d : Disk} {t : Tree} (h : Mirrors root d t) {episodes : List (List Change)}
    (hplain : ∀ c ∈ episodes.flatten, c.path.IsPlain)
    (hseparate : ∀ first, first <+: episodes.flatten →
      (first.foldl (Change.inTree root) t).Separate) :
    List.Forall₂ (Mirrors root) (FileSystem.stages Change.onDisk d episodes)
      (FileSystem.stages (Change.inTree root) t episodes) := by
  induction episodes generalizing d t with
  | nil => exact .nil
  | cons changes episodes ih =>
      have hnext : Mirrors root (changes.foldl Change.onDisk d)
          (changes.foldl (Change.inTree root) t) := by
        refine h.changes (fun c hc => hplain c (List.mem_append_left _ hc)) ?_
        exact fun first hpre => hseparate first (hpre.trans (List.prefix_append _ _))
      refine .cons hnext (ih hnext ?_ ?_)
      · exact fun c hc => hplain c (List.mem_append_right _ hc)
      · intro first hpre
        rw [← List.foldl_append]
        refine hseparate _ ?_
        rw [List.flatten_cons, List.prefix_append_right_inj]
        exact hpre

end Mirrors

/-- File systems that differ in the order of their listings show the same generations. -/
theorem map_shown_eq_of_forall₂ {config : Proc.Config} {fss fss' : List FileSystem}
    (h : List.Forall₂ SameButOrder fss fss') (s : Store) :
    (Sweep.generations config s fss').map Sweep.Generation.shown
      = (Sweep.generations config s fss).map Sweep.Generation.shown := by
  have hsame := @Sweep.generations_eq_of_forall₂ config _ _ h s
  have hshown := congrArg (List.map Sweep.shown) hsame
  rw [List.map_map, List.map_map] at hshown
  exact hshown

/-- A tree in memory stands in for a disk.

Below a root on a disk and below a directory of a tree, the same changes are made, in
episodes with a sweep behind each: files are written, directories made, and files and
directories removed, at paths of names and as long as none is a file and a directory at
once. Then all sweeps report the same and leave the same stores, whatever the two roots
are, whatever store both start from, and in whatever orders directories are listed. -/
theorem tree_stands_in_for_disk (config : Proc.Config) (root root' : Path)
    (episodes : List (List Change)) (horderly : Orderly root' episodes.flatten)
    (fss fss' : List FileSystem)
    (hdisks : List.Forall₂ SameButOrder
      ((stages Change.onDisk .empty episodes).map fun d => d.fileSystem root) fss)
    (htrees : List.Forall₂ SameButOrder
      ((stages (Change.inTree root') (rooted root') episodes).map Tree.fileSystem) fss')
    (s : Store) :
    (Sweep.generations { config with root := root } s fss).map Sweep.Generation.shown
      = (Sweep.generations { config with root := root' } s fss').map Sweep.Generation.shown := by
  have hmirrors := (mirrors_empty root').stages horderly.plain horderly.separate
  have halike : List.Forall₂ (Alike root root')
      ((stages Change.onDisk .empty episodes).map fun d => d.fileSystem root)
      ((stages (Change.inTree root') (rooted root') episodes).map Tree.fileSystem) := by
    rw [List.forall₂_map_left_iff, List.forall₂_map_right_iff]
    exact hmirrors.imp fun _ _ h => h.alike root
  rw [map_shown_eq_of_forall₂ hdisks, map_shown_eq_of_forall₂ htrees]
  exact Sweep.generations_eq_of_alike halike config s

/-- The file system that lists every directory from its end. -/
def backwards (fs : FileSystem) : FileSystem :=
  { fs with list := fun p => (fs.list p).map List.reverse }

/-- Listing backwards changes the order and nothing else. -/
theorem sameButOrder_backwards (fs : FileSystem) : fs.SameButOrder fs.backwards where
  read _ := rfl
  contains _ := rfl
  list p := by
    show SameListing (fs.list p) ((fs.list p).map List.reverse)
    cases fs.list p with
    | error cause => exact .failure cause
    | ok l => exact .entries (List.reverse_perm l).symm

theorem forall₂_backwards (fss : List FileSystem) :
    List.Forall₂ SameButOrder fss (fss.map backwards) := by
  rw [List.forall₂_map_right_iff, List.forall₂_same]
  exact fun fs _ => sameButOrder_backwards fs

/-- A process comes and goes, and leaves a file where its directory was. -/
def comingAndGoing : List (List Change) :=
  [ [ .write ⟨"uptime"⟩ "10.5 3.0\n", .write ⟨"7/status"⟩ "Pid: 7\n",
      .makeDirectory ⟨"7/fd"⟩ ],
    [ .remove ⟨"7"⟩, .remove ⟨"9/status"⟩, .write ⟨"7"⟩ "" ] ]

/-- The changes of the example name plain paths and keep files and directories apart. -/
theorem orderly_comingAndGoing : Orderly ⟨"/proc"⟩ comingAndGoing.flatten where
  plain := by decide
  separate first hpre := by
    rw [← List.mem_inits] at hpre
    revert first
    decide +kernel

/-- Processes that come and go are told alike from the disk and from its picture. -/
theorem coming_and_going_is_told_alike :
    let disks := (stages Change.onDisk .empty comingAndGoing).map fun d =>
      d.fileSystem ⟨"/host/proc"⟩
    let trees := (stages (Change.inTree ⟨"/proc"⟩) (rooted ⟨"/proc"⟩) comingAndGoing).map
      Tree.fileSystem
    let generations := Sweep.generations { root := ⟨"/proc"⟩ } .empty (trees.map backwards)
    Orderly ⟨"/proc"⟩ comingAndGoing.flatten
    ∧ List.Forall₂ SameButOrder disks (disks.map backwards)
    ∧ List.Forall₂ SameButOrder trees (trees.map backwards)
    ∧ (Sweep.generations { root := ⟨"/host/proc"⟩ } .empty (disks.map backwards)).map
        Sweep.Generation.shown = generations.map Sweep.Generation.shown
    ∧ (generations.map fun g => g.outcome.report.processes) = [1, 0] := by
  refine ⟨orderly_comingAndGoing, forall₂_backwards _, forall₂_backwards _, ?_, ?_⟩
  · exact tree_stands_in_for_disk {} ⟨"/host/proc"⟩ ⟨"/proc"⟩ comingAndGoing
      orderly_comingAndGoing _ _ (forall₂_backwards _) (forall₂_backwards _) .empty
  · decide +kernel

end FileSystem

end Vitals
