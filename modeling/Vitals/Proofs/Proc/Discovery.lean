/-
Which processes are discovered.

What the table lists is told apart by the names of its entries (`FileSystem.Lists`), in a
tree in memory as on a disk. A name is one of a process if it is made of digits, its value
fits, and there is a status below it (`namedPid?_eq_some_iff`). So the discovered numbers
are the values of such names, sorted (`discover_eq_ok`), and each is there as often as there
are names for it.

A number has one name without zeros in front of it, the one it is written as, and any
number of others. It is under the name it is written as that a process is read. As long as
no other name has a status, the numbers that are discovered are precisely those whose own
directory has one, and each is there once. One such name breaks that: either its number is
there without a directory to be read, or it is there twice
(`pids_are_values_of_live_names`).
-/
import Vitals.Proofs.FileSystem.Mirror
import Vitals.Proofs.Proc.Table
import Vitals.Proofs.Text.Numeral

namespace Vitals

open Vitals.Path (IsName)
open Text

-- ============================================================ listings

/-- A file system has precisely these names in a directory, each of them once, and tells
paths apart by their components only. -/
structure FileSystem.Lists (fs : FileSystem) (directory : Path) (names : List String) :
    Prop where
  list : ∃ entries, fs.list directory = .ok entries
    ∧ List.Forall₂ (fun entry name => entry.key = directory.key ++ [name]) entries names
  nodup : names.Nodup
  contains : ∀ p q : Path, p.key = q.key → fs.contains p = fs.contains q

/-- Spellings of one path are contained alike. -/
theorem Tree.contains_congr (t : Tree) {p q : Path} (h : p.key = q.key) :
    t.contains p = t.contains q := by
  rw [Tree.contains, Tree.contains, h]

/-- A tree lists what it has in a directory. -/
theorem Tree.Spelled.lists {t : Tree} (h : t.Spelled) {directory : Path}
    (hdirectory : directory.key ∈ t.directories) :
    t.fileSystem.Lists directory ((t.children directory).map FileSystem.lastName) := by
  refine ⟨⟨t.children directory, ?_, ?_⟩, h.nodup_lastName directory, fun p q => t.contains_congr⟩
  · exact if_pos (Std.ExtTreeMap.contains_iff_mem.mpr hdirectory)
  · rw [List.forall₂_map_right_iff, List.forall₂_same]
    exact fun entry => h.key_of_mem_children directory

/-- A disk lists what it has in its root. -/
theorem Disk.Sound.lists {d : Disk} (h : d.Sound) (root : Path) :
    ∃ names, (d.fileSystem root).Lists root names
      ∧ ∀ name, name ∈ names ↔ (d.nodes[[name]]?).isSome = true := by
  obtain ⟨names, hlist, hnodup, hmem⟩ := h.list_eq_ok h.root
  refine ⟨names, ⟨⟨names.map fun name => root.join ⟨name⟩, ?_, ?_⟩, hnodup, ?_⟩, hmem⟩
  · rw [Disk.list_fileSystem d (List.append_nil _).symm, hlist]
    rfl
  · rw [List.forall₂_map_left_iff, List.forall₂_same]
    intro name hname
    obtain ⟨node, hnode⟩ := Option.isSome_iff_exists.mp ((hmem name).mp hname)
    exact Path.key_join_name root (h.names _ _ hnode name (List.mem_singleton_self _))
  · intro p q hkey
    simp only [Disk.fileSystem, Disk.namesBelow?, hkey]

namespace Proc

-- =============================================================== names

/-- A name is written for a number: it is made of digits, with the number as their value. -/
def Denotes (name : String) (pid : Int32) : Prop :=
  ∃ n : Nat, pid.toInt = n ∧ IsDigits name.toList n

/-- The text of a pid that is not negative is its decimal text. -/
theorem pidText_of_nonneg {pid : Int32} (h : 0 ≤ pid.toInt) :
    (pidText pid).toList = decimal pid.toInt.natAbs := by
  rw [pidText, String.toList_ofList, signedDecimal, if_neg (by omega)]

theorem signed32?_pidText (pid : Int32) : signed32? (pidText pid).toList = some pid := by
  rw [signed32?, pidText, String.toList_ofList, integer?_signedDecimal, Option.bind_some,
    fitSigned32?_eq_some_iff]

theorem pidText_inj {pid pid' : Int32} : pidText pid = pidText pid' ↔ pid = pid' := by
  refine ⟨fun h => ?_, congrArg pidText⟩
  have hread := signed32?_pidText pid
  rw [h, signed32?_pidText] at hread
  exact (Option.some.inj hread).symm

/-- The numbers that a name can be written for are those without a minus sign, and each is
written for itself. -/
theorem denotes_pidText_iff {pid : Int32} : Denotes (pidText pid) pid ↔ 0 ≤ pid := by
  rw [Int32.le_iff_toInt_le]
  constructor
  · rintro ⟨n, hn, -⟩
    exact hn ▸ Int.natCast_nonneg n
  · intro h
    refine ⟨pid.toInt.natAbs, (Int.natAbs_of_nonneg h).symm, ?_⟩
    rw [pidText_of_nonneg h]
    exact isDigits_decimal _

namespace Denotes

variable {name : String} {pid : Int32} (h : Denotes name pid)
include h

theorem nonneg : 0 ≤ pid := by
  obtain ⟨n, hn, -⟩ := h
  rw [Int32.le_iff_toInt_le, hn]
  exact Int.natCast_nonneg n

theorem isName : IsName name := by
  obtain ⟨n, -, hdigits⟩ := h
  refine ⟨?_, fun hc => ?_, ?_, ?_⟩
  · rintro rfl
    exact hdigits.ne_nil rfl
  · exact absurd (hdigits.digits _ hc) (by decide)
  · rintro rfl
    exact absurd (hdigits.digits '.' (by decide)) (by decide)
  · rintro rfl
    exact absurd (hdigits.digits '.' (by decide)) (by decide)

end Denotes

/-- A name denotes a pid when it is made of digits and read as it. -/
theorem denotes_iff {name : String} {pid : Int32} :
    Denotes name pid
      ↔ (if name.toList.all Char.isDigit then signed32? name.toList else none) = some pid := by
  constructor
  · rintro ⟨n, hn, hdigits⟩
    rw [if_pos (List.all_eq_true.mpr hdigits.digits), signed32?_eq_some_iff hdigits]
    exact hn
  · intro h
    split at h
    · next hall =>
        rw [List.all_eq_true] at hall
        by_cases hne : name.toList = []
        · rw [hne] at h
          cases h
        · have hdigits : IsDigits name.toList (Nat.ofDigitChars 10 name.toList 0) :=
            ⟨hne, hall, rfl⟩
          exact ⟨_, (signed32?_eq_some_iff hdigits).mp h, hdigits⟩
    · cases h

/-- The text of a pid denotes that pid only. -/
theorem eq_of_denotes_pidText {pid pid' : Int32} (h : Denotes (pidText pid) pid') :
    pid' = pid := by
  rw [denotes_iff, signed32?_pidText] at h
  split at h
  · exact (Option.some.inj h).symm
  · cases h

instance (name : String) (pid : Int32) : Decidable (Denotes name pid) :=
  decidable_of_iff _ denotes_iff.symm

-- =========================================================== discovery

/-- Whether there is a status below a name in the table. -/
def hasStatus (fs : FileSystem) (root : Path) (name : String) : Bool :=
  fs.contains ((root.join ⟨name⟩).join ⟨"status"⟩)

/-- The number of the process that a name in the table is the directory of. -/
def namedPid? (fs : FileSystem) (root : Path) (name : String) : Option Int32 :=
  if hasStatus fs root name then
    if name.toList.all Char.isDigit then signed32? name.toList else none
  else none

/-- A name stands for the pid it denotes when it has a status. -/
theorem namedPid?_eq_some_iff {fs : FileSystem} {root : Path} {name : String} {pid : Int32} :
    namedPid? fs root name = some pid ↔ Denotes name pid ∧ hasStatus fs root name = true := by
  rw [namedPid?, denotes_iff]
  cases hasStatus fs root name <;> simp

variable {fs : FileSystem} {config : Config} {names : List String}

section Listed

variable {directory : Path} (h : fs.Lists directory names)
include h

/-- An entry is taken for a process by its name alone. -/
theorem entryPid?_eq_namedPid? {entry : Path} {name : String}
    (hentry : entry.key = directory.key ++ [name]) :
    entryPid? fs entry = namedPid? fs directory name := by
  have hfile : entry.fileName?
      = if name = Path.root ∨ name = Path.here ∨ name = Path.above then none else some name := by
    rw [Path.fileName?, hentry, List.getLast?_concat]
  rw [entryPid?, hfile, namedPid?]
  split
  · next hname =>
      -- what is no name is not made of digits either
      have hdigits : name.toList.all Char.isDigit = false := by
        rcases hname with rfl | rfl | rfl <;> decide
      simp [hdigits]
  · next hname =>
      rw [Option.bind_eq_bind, Option.bind_some]
      by_cases hdigits : name.toList.all Char.isDigit = true
      · rw [if_pos hdigits, if_pos hdigits]
        cases hpid : signed32? name.toList with
        | none => exact (ite_self none).symm
        | some pid =>
            have hname : IsName name :=
              (denotes_iff.mpr ((if_pos hdigits).trans hpid)).isName
            have hstatus : fs.contains (entry.join ⟨"status"⟩) = hasStatus fs directory name := by
              refine h.contains _ _ ?_
              rw [Path.key_join_name _ (by decide), Path.key_join_name _ (by decide),
                Path.key_join_name directory hname, hentry]
            rw [← hstatus]
            rfl
      · rw [if_neg hdigits, if_neg hdigits]
        exact (ite_self none).symm

/-- Entries are taken for the pids their names stand for. -/
theorem map_entryPid? {entries : List Path}
    (hentries : List.Forall₂ (fun entry name => entry.key = directory.key ++ [name])
      entries names) :
    entries.filterMap (entryPid? fs) = names.filterMap (namedPid? fs directory) := by
  have hpids : List.Forall₂ (fun entry name => entryPid? fs entry = namedPid? fs directory name)
      entries names := hentries.imp fun _ _ hentry => entryPid?_eq_namedPid? h hentry
  clear hentries h
  induction hpids with
  | nil => rfl
  | cons hpid _ ih => rw [List.filterMap_cons, List.filterMap_cons, hpid, ih]

end Listed

/-- The discovered processes are the values of names that have a status, sorted. -/
theorem discover_eq_ok (h : fs.Lists config.root names) :
    discover fs config
      = .ok ((names.filterMap (namedPid? fs config.root)).mergeSort (· ≤ ·)) := by
  obtain ⟨entries, hlist, hentries⟩ := h.list
  rw [discover, hlist]
  dsimp only
  rw [map_entryPid? h hentries]

/-- Pids that are listed in order are found in that order. -/
theorem discover_eq_of_pairwise {pids : List Int32} (h : fs.Lists config.root names)
    (hpids : names.filterMap (namedPid? fs config.root) = pids) (hordered : pids.Pairwise (· ≤ ·)) :
    discover fs config = .ok pids := by
  rw [discover_eq_ok h, hpids, List.mergeSort_of_pairwise]
  exact hordered.imp fun hle => decide_eq_true hle

/-- A number is discovered as often as there are names with a status that are written for
it. -/
theorem count_eq_countP {pids : List Int32} (h : fs.Lists config.root names)
    (hpids : discover fs config = .ok pids) (pid : Int32) :
    pids.count pid
      = names.countP fun name => Denotes name pid && hasStatus fs config.root name := by
  rw [discover_eq_ok h] at hpids
  cases hpids
  rw [(List.mergeSort_perm _ _).count_eq, List.count_filterMap]
  refine List.countP_congr fun name _ => ?_
  rw [beq_iff_eq, namedPid?_eq_some_iff, Bool.and_eq_true, decide_eq_true_iff]

/-- A pid is found exactly when a listed name with a status denotes it. -/
theorem mem_iff_exists_name {pids : List Int32} (h : fs.Lists config.root names)
    (hpids : discover fs config = .ok pids) {pid : Int32} :
    pid ∈ pids
      ↔ ∃ name ∈ names, Denotes name pid ∧ hasStatus fs config.root name = true := by
  rw [discover_eq_ok h] at hpids
  cases hpids
  rw [List.mem_mergeSort, List.mem_filterMap]
  simp only [namedPid?_eq_some_iff]

/-- No name has a status but those that numbers are written as. -/
def Unpadded (fs : FileSystem) (root : Path) (names : List String) : Prop :=
  ∀ name ∈ names, ∀ pid, Denotes name pid → hasStatus fs root name = true → name = pidText pid

/-- Where no name has zeros in front of it, what is discovered is what can be read. -/
theorem discovered_of_unpadded {pids : List Int32} (h : fs.Lists config.root names)
    (hpids : discover fs config = .ok pids) (hnames : Unpadded fs config.root names) :
    pids.Pairwise (· < ·)
      ∧ ∀ pid, pid ∈ pids ↔ 0 ≤ pid ∧ pidText pid ∈ names
          ∧ hasStatus fs config.root (pidText pid) = true := by
  constructor
  · have hnodup : pids.Nodup := by
      rw [List.nodup_iff_count_le_one]
      intro pid
      rw [count_eq_countP h hpids]
      -- all names that are written for a number are one
      refine le_trans (List.countP_mono_left fun name hname hlive => ?_)
        (List.nodup_iff_count_le_one.mp h.nodup (pidText pid))
      rw [Bool.and_eq_true, decide_eq_true_iff] at hlive
      exact beq_iff_eq.mpr (hnames name hname pid hlive.1 hlive.2)
    have hsorted := pairwise_discover fs config hpids
    exact hsorted.imp₂ (fun _ _ hle hne => Int32.lt_of_le_of_ne hle hne) hnodup
  · intro pid
    rw [mem_iff_exists_name h hpids]
    constructor
    · rintro ⟨name, hname, hdenotes, hstatus⟩
      have htext := hnames name hname pid hdenotes hstatus
      exact ⟨hdenotes.nonneg, htext ▸ hname, htext ▸ hstatus⟩
    · rintro ⟨hnonneg, hname, hstatus⟩
      exact ⟨pidText pid, hname, denotes_pidText_iff.mpr hnonneg, hstatus⟩

/-- A name with zeros in front of it that has a status is listed as another process, or a
second time. -/
theorem unpadded_of_discovered {pids : List Int32} (h : fs.Lists config.root names)
    (hpids : discover fs config = .ok pids) (hstrict : pids.Pairwise (· < ·))
    (hmem : ∀ pid ∈ pids, pidText pid ∈ names ∧ hasStatus fs config.root (pidText pid) = true) :
    Unpadded fs config.root names := by
  intro name hname pid hdenotes hstatus
  by_contra hne
  have hpid : pid ∈ pids := (mem_iff_exists_name h hpids).mpr ⟨name, hname, hdenotes, hstatus⟩
  obtain ⟨hself, hselfStatus⟩ := hmem pid hpid
  have hdenotes' := denotes_pidText_iff.mpr hdenotes.nonneg
  -- two names are written for the number, and so it is there twice
  have htwo : [name, pidText pid].countP
      (fun name => Denotes name pid && hasStatus fs config.root name) = 2 := by
    simp [hdenotes, hstatus, hdenotes', hselfStatus]
  have hsub : [name, pidText pid].Subperm names := by
    refine List.Nodup.subperm (by simpa using hne) ?_
    simp [hname, hself]
  have hcount := hsub.countP_le fun name => Denotes name pid && hasStatus fs config.root name
  have hnodup : pids.Nodup := hstrict.imp fun hlt => (Int32.lt_iff_le_and_ne.mp hlt).2
  have hone := List.nodup_iff_count_le_one.mp hnodup pid
  rw [count_eq_countP h hpids] at hone
  omega

/-- The processes that are discovered, in a directory of which the names are known.

They are in ascending order, and each number is there as often as there are names with a
status that are written for it. The numbers are strictly ascending and precisely those
whose own directory, named as the number is written, is listed and has its status where
the process is read, if and only if no name with zeros in front of it has one. -/
theorem pids_are_values_of_live_names (fs : FileSystem) (config : Config) (names : List String)
    (h : fs.Lists config.root names) :
    ∃ pids, discover fs config = .ok pids
      ∧ pids.Pairwise (· ≤ ·)
      ∧ (∀ pid, pids.count pid
          = names.countP fun name => Denotes name pid && hasStatus fs config.root name)
      ∧ ((pids.Pairwise (· < ·)
          ∧ ∀ pid, pid ∈ pids ↔ 0 ≤ pid ∧ pidText pid ∈ names
              ∧ fs.contains ((directoryOf config pid).join ⟨"status"⟩) = true)
        ↔ ∀ name ∈ names, ∀ pid, Denotes name pid → hasStatus fs config.root name = true →
            name = pidText pid) := by
  have hpids := discover_eq_ok h
  refine ⟨_, hpids, pairwise_discover fs config hpids, count_eq_countP h hpids, ?_, ?_⟩
  · rintro ⟨hstrict, hmem⟩
    exact unpadded_of_discovered h hpids hstrict fun pid hpid => ((hmem pid).mp hpid).2
  · exact discovered_of_unpadded h hpids

/-- A table in which two names have zeros in front of their number, and one of the two
numbers has a directory of its own as well. -/
def padded : Tree :=
  [ .addFile ⟨"/proc/007/status"⟩ "Pid: 7\n",
    .addFile ⟨"/proc/9/status"⟩ "Pid: 9\n",
    .addFile ⟨"/proc/09/status"⟩ "Pid: 9\n" ].foldl Tree.apply .empty

theorem lists_padded : padded.fileSystem.Lists ⟨"/proc"⟩ ["007", "09", "9"] := by
  have hspelled : padded.Spelled := Tree.spelled_empty.foldl_apply _
  have hnames : (padded.children ⟨"/proc"⟩).map FileSystem.lastName = ["007", "09", "9"] := by
    decide +kernel
  rw [← hnames]
  exact hspelled.lists (by decide +kernel)

/-- Of the two numbers one is discovered twice. -/
theorem padded_names_are_counted :
    padded.fileSystem.Lists ⟨"/proc"⟩ ["007", "09", "9"]
    ∧ ∃ pids, discover padded.fileSystem {} = .ok pids ∧ pids.count 9 = 2 := by
  refine ⟨lists_padded, ?_⟩
  obtain ⟨pids, hpids, -, hcount, -⟩ :=
    pids_are_values_of_live_names padded.fileSystem {} _ lists_padded
  refine ⟨pids, hpids, ?_⟩
  rw [hcount]
  decide +kernel

/-- And the other one although it has no directory of its own. -/
theorem padded_name_is_listed_as_another :
    discover padded.fileSystem {} = .ok [7, 9, 9]
    ∧ padded.fileSystem.contains ((directoryOf {} 7).join ⟨"status"⟩) = false := by
  constructor
  · exact @discover_eq_of_pairwise _ {} _ _ lists_padded (by decide +kernel) (by decide)
  · decide +kernel

end Proc

end Vitals
