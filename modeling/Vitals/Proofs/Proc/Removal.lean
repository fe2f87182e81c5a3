/-
What a removal in memory does to the table of processes.

A removal takes what lies at a path or below it, and this goes by components and not by
letters. A path in the directory of one process is never above a file of another, not even
of one whose number opens with the digits of the first (`collect_remove_of_ne`).

And a removal adds nothing. A number is discovered once for each of its names that has a
status, and afterwards there are as many of these or fewer (`count_remove_le`). What is
discovered is in order before and after, so the second is part of the first
(`discover_remove_sublist`). Since every file is as it was or cannot be read any more, there
is then no more wrong with the processes than there was (`issues_collectAll_remove`).
-/
import Mathlib.Data.List.Flatten
import Mathlib.Data.List.Perm.Subperm
import Mathlib.Data.List.Sort
import Vitals.Proofs.Proc.Discovery
import Vitals.Proofs.Sweep.Account

namespace Vitals

open Vitals.Path (IsName)

/-- The names in a directory after a removal are those whose paths it has left. -/
theorem Tree.Spelled.perm_lastName_remove {t : Tree} (h : t.Spelled) (p directory : Path) :
    (((t.remove p).children directory).map FileSystem.lastName).Perm
      (((t.children directory).map FileSystem.lastName).filter fun name =>
        ¬ p.key <+: directory.key ++ [name]) := by
  have hnodup := (h.nodup_lastName directory).filter fun name =>
    decide ¬ p.key <+: directory.key ++ [name]
  refine (List.perm_ext_iff_of_nodup ((h.remove p).nodup_lastName directory) hnodup).mpr ?_
  intro name
  rw [(h.remove p).mem_lastName, List.mem_filter, h.mem_lastName, Tree.node?_remove]
  by_cases hpre : p.key <+: directory.key ++ [name]
  · simp [hpre]
  · simp [hpre]

namespace Proc

variable {t : Tree} {config : Config} {p : Path} {pids pids' : List Int32} {pid : Int32}
  {totalKb : UInt64}

-- ========================================================== discovery

theorem mem_directories_of_discover (h : discover t.fileSystem config = .ok pids) :
    config.root.key ∈ t.directories := by
  by_contra hroot
  have hlist : t.fileSystem.list config.root = .error (.directoryNotFound config.root) :=
    if_neg (by simpa using hroot)
  rw [discover, hlist] at h
  cases h

/-- A name has its status as before unless the status went with the path. -/
theorem hasStatus_remove {name : String} (hname : IsName name) :
    hasStatus (t.remove p).fileSystem config.root name
      = if p.key <+: config.root.key ++ [name, "status"] then false
        else hasStatus t.fileSystem config.root name := by
  show (t.remove p).contains _ = _
  rw [Tree.contains_remove, Path.key_join_name _ (by decide), Path.key_join_name _ hname,
    List.append_assoc]
  rfl

section Removal

variable (ht : t.Spelled) (hpids : discover t.fileSystem config = .ok pids)
include ht hpids

/-- Pids can be listed as long as the root stays. -/
theorem exists_discover_remove (hkept : ¬ p.key <+: config.root.key) :
    ∃ pids', discover (t.remove p).fileSystem config = .ok pids' := by
  have hroot : config.root.key ∈ (t.remove p).directories := by
    have hmem := mem_directories_of_discover hpids
    rw [Std.ExtTreeMap.mem_iff_isSome_getElem?] at hmem ⊢
    rw [Tree.getElem?_directories_remove, if_neg hkept]
    exact hmem
  exact ⟨_, discover_eq_ok ((ht.remove p).lists hroot)⟩

variable (hpids' : discover (t.remove p).fileSystem config = .ok pids')
include hpids'

/-- Before and after a removal the same names count for a number, each if it has a status
at the time. -/
theorem exists_names_remove (pid : Int32) :
    ∃ names : List String,
      (pids.count pid = names.countP fun name =>
        Denotes name pid && hasStatus t.fileSystem config.root name)
      ∧ pids'.count pid = names.countP fun name =>
          Denotes name pid && hasStatus (t.remove p).fileSystem config.root name := by
  have hlists := ht.lists (mem_directories_of_discover hpids)
  have hlists' := (ht.remove p).lists (mem_directories_of_discover hpids')
  refine ⟨_, count_eq_countP hlists hpids pid, ?_⟩
  rw [count_eq_countP hlists' hpids', (ht.perm_lastName_remove p config.root).countP_eq,
    List.countP_filter]
  refine List.countP_congr fun name _ => ?_
  by_cases hdenotes : Denotes name pid
  · by_cases hpre : p.key <+: config.root.key ++ [name]
    · -- with a name, its status is gone
      have hstatus : p.key <+: config.root.key ++ [name, "status"] := by
        refine hpre.trans ⟨["status"], ?_⟩
        simp
      simp [hasStatus_remove hdenotes.isName, hstatus]
    · simp [hpre]
  · simp [hdenotes]

/-- No pid is listed more often than before. -/
theorem count_remove_le (pid : Int32) : pids'.count pid ≤ pids.count pid := by
  obtain ⟨names, hcount, hcount'⟩ := exists_names_remove ht hpids hpids' pid
  rw [hcount, hcount']
  refine List.countP_mono_left fun name _ hlive => ?_
  rw [Bool.and_eq_true, decide_eq_true_iff] at hlive ⊢
  obtain ⟨hdenotes, hstatus⟩ := hlive
  rw [hasStatus_remove hdenotes.isName] at hstatus
  refine ⟨hdenotes, ?_⟩
  split at hstatus
  · cases hstatus
  · exact hstatus

/-- A number is discovered as often as before, if no status of it is removed. -/
theorem count_remove_eq
    (hkept : ∀ name, Denotes name pid → ¬ p.key <+: config.root.key ++ [name, "status"]) :
    pids'.count pid = pids.count pid := by
  obtain ⟨names, hcount, hcount'⟩ := exists_names_remove ht hpids hpids' pid
  rw [hcount, hcount']
  refine List.countP_congr fun name _ => ?_
  by_cases hdenotes : Denotes name pid
  · rw [hasStatus_remove hdenotes.isName, if_neg (hkept name hdenotes)]
  · simp [hdenotes]

end Removal

/-- Numbers in order are part of others in order, if none is there more often. -/
theorem sublist_of_count_le (h : pids.Pairwise (· ≤ ·)) (h' : pids'.Pairwise (· ≤ ·))
    (hcount : ∀ pid, pids'.count pid ≤ pids.count pid) : pids'.Sublist pids := by
  have hanti : Std.Antisymm (fun a b : Int32 => a ≤ b) := ⟨fun _ _ => Int32.le_antisymm⟩
  exact List.sublist_of_subperm_of_pairwise (List.subperm_iff_count.mpr hcount) h' h

/-- Numbers in order are told apart by how often each is there. -/
theorem eq_of_count_eq (h : pids.Pairwise (· ≤ ·)) (h' : pids'.Pairwise (· ≤ ·))
    (hcount : ∀ pid, pids'.count pid = pids.count pid) : pids' = pids :=
  (sublist_of_count_le h h' fun pid => (hcount pid).le).antisymm
    (sublist_of_count_le h' h fun pid => (hcount pid).ge)

/-- The pids that are left are listed in the order they were. -/
theorem discover_remove_sublist (ht : t.Spelled) (hpids : discover t.fileSystem config = .ok pids)
    (hpids' : discover (t.remove p).fileSystem config = .ok pids') : pids'.Sublist pids :=
  sublist_of_count_le (pairwise_discover _ config hpids) (pairwise_discover _ config hpids')
    (count_remove_le ht hpids hpids')

-- ====================================================== one directory

theorem key_directoryOf (config : Config) (pid : Int32) :
    (directoryOf config pid).key = config.root.key ++ [pidText pid] :=
  Path.key_join_name config.root (isName_pidText pid)

theorem key_file (config : Config) (pid : Int32) {name : String} (hname : IsName name) :
    ((directoryOf config pid).join ⟨name⟩).key = config.root.key ++ [pidText pid, name] := by
  rw [Path.key_join_name _ hname, key_directoryOf, List.append_assoc]
  rfl

theorem isAtOrBelow_file (config : Config) (pid : Int32) {name : String} (hname : IsName name) :
    (directoryOf config pid).IsAtOrBelow ((directoryOf config pid).join ⟨name⟩) := by
  rw [Path.IsAtOrBelow, Path.key_join_name _ hname]
  exact List.prefix_append _ _

section Within

variable (hp : (directoryOf config pid).IsAtOrBelow p)
include hp

theorem exists_key_of_within : ∃ names, p.key = config.root.key ++ pidText pid :: names := by
  obtain ⟨names, hnames⟩ := hp
  rw [key_directoryOf, List.append_assoc] at hnames
  exact ⟨names, hnames.symm⟩

/-- The directory of the table is not below that of a process. -/
theorem root_kept : ¬ p.key <+: config.root.key := by
  obtain ⟨names, hnames⟩ := exists_key_of_within hp
  intro hpre
  have hlength := hpre.length_le
  rw [hnames, List.length_append, List.length_cons] at hlength
  omega

/-- Nothing of another name in the table is in the directory of a process. -/
theorem name_kept {name : String} (hname : name ≠ pidText pid) (names : Path.Key) :
    ¬ p.key <+: config.root.key ++ name :: names := by
  obtain ⟨names', hnames'⟩ := exists_key_of_within hp
  rw [hnames', List.prefix_append_right_inj, List.cons_prefix_cons]
  intro h
  exact hname h.1.symm

/-- Nothing that is read of another process is in its directory. -/
theorem collect_remove_of_ne {other : Int32} (hne : other ≠ pid) (totalKb : UInt64) :
    collect (t.remove p).fileSystem config other totalKb
      = collect t.fileSystem config other totalKb := by
  have hread : ∀ name, IsName name →
      (t.remove p).fileSystem.read ((directoryOf config other).join ⟨name⟩)
        = t.fileSystem.read ((directoryOf config other).join ⟨name⟩) := by
    intro name hname
    show (t.remove p).read _ = t.read _
    rw [Tree.read_remove, key_file config other hname, if_neg]
    exact name_kept hp (fun h => hne (pidText_inj.mp h)) _
  unfold collect
  dsimp only
  rw [hread "status" (by decide), hread "stat" (by decide), hread "cmdline" (by decide)]

/-- The other numbers are discovered as before. -/
theorem filter_discover_remove (ht : t.Spelled) (hpids : discover t.fileSystem config = .ok pids)
    (hpids' : discover (t.remove p).fileSystem config = .ok pids') :
    pids'.filter (· ≠ pid) = pids.filter (· ≠ pid) := by
  refine eq_of_count_eq ((pairwise_discover _ config hpids).filter _)
    ((pairwise_discover _ config hpids').filter _) fun other => ?_
  by_cases hne : other = pid
  · rw [List.count_eq_zero_of_not_mem (by simp [hne]),
      List.count_eq_zero_of_not_mem (by simp [hne])]
  · rw [List.count_filter (by simpa using hne), List.count_filter (by simpa using hne)]
    refine count_remove_eq ht hpids hpids' fun name hdenotes => name_kept hp ?_ _
    rintro rfl
    exact hne (eq_of_denotes_pidText hdenotes)

end Within

/-- Without one of the files beside the status, all numbers are discovered as before. -/
theorem discover_remove_file (ht : t.Spelled) (hpids : discover t.fileSystem config = .ok pids)
    {file : String} (hfile : IsName file) (hstatus : file ≠ "status") :
    discover (t.remove ((directoryOf config pid).join ⟨file⟩)).fileSystem config = .ok pids := by
  have hwithin := isAtOrBelow_file config pid hfile
  obtain ⟨pids', hpids'⟩ := exists_discover_remove ht hpids (root_kept hwithin)
  rw [hpids', eq_of_count_eq (pairwise_discover _ config hpids) (pairwise_discover _ config hpids')]
  intro other
  refine count_remove_eq ht hpids hpids' fun name _ => ?_
  rw [key_file config pid hfile, List.prefix_append_right_inj, List.cons_prefix_cons,
    List.cons_prefix_cons]
  intro h
  exact hstatus h.2.1

-- ============================================================== issues

/-- After a removal a file is as it was, or cannot be read any more. -/
theorem read_remove_cases (t : Tree) (p path : Path) :
    (t.remove p).fileSystem.read path = t.fileSystem.read path
      ∨ ∃ e, (t.remove p).fileSystem.read path = .error e := by
  have hread : (t.remove p).fileSystem.read path
      = if p.key <+: path.key then .error (.fileNotFound path) else t.fileSystem.read path :=
    Tree.read_remove t p path
  by_cases hpre : p.key <+: path.key
  · exact .inr ⟨_, hread.trans (if_pos hpre)⟩
  · exact .inl (hread.trans (if_neg hpre))

/-- A file that goes takes what was found in it along. -/
theorem inFile_remove (t : Tree) (p path : Path) (find : String → List ParseError) :
    (Sweep.inFile (t.remove p).fileSystem path find).Sublist
      (Sweep.inFile t.fileSystem path find) := by
  rcases read_remove_cases t p path with hread | ⟨e, hread⟩
  · rw [Sweep.inFile, Sweep.inFile, hread]
  · rw [Sweep.inFile_of_error hread]
    exact List.nil_sublist _

/-- After a removal there is no more wrong with a process than there was. -/
theorem processIssues_remove (t : Tree) (p : Path) (config : Config) (pid : Int32) :
    (Sweep.processIssues (t.remove p).fileSystem config pid).Sublist
      (Sweep.processIssues t.fileSystem config pid) :=
  (inFile_remove t p _ _).append (inFile_remove t p _ _)

/-- The processes that are left are told in the order they were. -/
theorem presentPids_remove (ht : t.Spelled) (hpids : discover t.fileSystem config = .ok pids)
    (hpids' : discover (t.remove p).fileSystem config = .ok pids') :
    (Sweep.presentPids (t.remove p).fileSystem config).Sublist
      (Sweep.presentPids t.fileSystem config) := by
  rw [Sweep.presentPids, hpids', Sweep.presentPids, hpids]
  refine ((discover_remove_sublist ht hpids hpids').filter _).trans ?_
  refine List.monotone_filter_right _ fun pid hpresent => ?_
  rcases read_remove_cases t p ((directoryOf config pid).join ⟨"status"⟩) with hread | ⟨e, hread⟩
  · rw [hread] at hpresent
    exact hpresent
  · rw [hread] at hpresent
    cases hpresent

/-- A removal anywhere makes nothing wrong. -/
theorem issues_collectAll_remove (ht : t.Spelled) {reading reading' : Reading (List ProcessUsage)}
    (h : collectAll t.fileSystem config totalKb = .ok reading)
    (h' : collectAll (t.remove p).fileSystem config totalKb = .ok reading') :
    reading'.issues.Sublist reading.issues := by
  obtain ⟨pids, hpids, -⟩ := collectAll_eq_ok _ config h
  obtain ⟨pids', hpids', -⟩ := collectAll_eq_ok _ config h'
  rw [(Sweep.collectAll_counts h).2, (Sweep.collectAll_counts h').2]
  refine ((presentPids_remove ht hpids hpids').flatMap _).trans ?_
  exact List.Sublist.flatMap_right _ fun pid _ => (processIssues_remove t p config pid).map _

end Proc

end Vitals
