/-
What the store holds of the processes after a sweep that could list them.

A process is stored under the number it reports, and that need not be the number
of its directory: its status may tell another one, and two directories may tell
the same. Who is stored then is settled by two orders at once. The table is read
by ascending directory (`pairwise_collectEach`), and of the entries with one
number the store keeps the last (`Store.process?_replaceProcesses`), so the
greatest directory that reports a number is the one that is found under it.

Nothing else enters: the processes in the store before the sweep are gone, and of
the rest of the store only the total counts, for the shares of the memory.

A process that cannot be read is gone (`collect_eq_error`), so the table has no third
kind of process, and what is read of it is what is read of those that are there
(`collectAll_eq`).
-/
import Vitals.Proofs.Sweep.Isolation

namespace Vitals

open Proc Text

-- ====================================================== ordered lists

/-- In an ascending list, the last entry with a property is the greatest. -/
theorem le_of_findRev?_eq_some {α : Type} {key : α → Int32} {q : α → Bool} {l : List α}
    (hl : l.Pairwise (key · ≤ key ·)) {a : α} (h : l.findRev? q = some a) :
    ∀ b ∈ l, q b = true → key b ≤ key a := by
  induction l with
  | nil => simp
  | cons c l ih =>
      obtain ⟨hc, hl⟩ := List.pairwise_cons.mp hl
      rw [List.findRev?] at h
      intro b hb hqb
      -- the last entry with the property is behind the head, if there is one
      cases hrest : l.findRev? q with
      | some a' =>
          rw [hrest] at h
          obtain rfl : a' = a := by simpa using h
          rcases List.mem_cons.mp hb with rfl | hb
          · refine hc a' ?_
            rw [List.findRev?_eq_find?_reverse] at hrest
            exact List.mem_reverse.mp (List.mem_of_find?_eq_some hrest)
          · exact ih hl hrest b hb hqb
      | none =>
          rw [hrest] at h
          have hnone : ∀ b ∈ l, q b = false := by
            rw [List.findRev?_eq_find?_reverse] at hrest
            simpa using hrest
          rcases List.mem_cons.mp hb with rfl | hb
          · have hba : b = a := by simpa [hqb] using h
            exact hba ▸ Int32.le_refl _
          · rw [hnone b hb] at hqb
            cases hqb

namespace Proc

-- ==================================================== reported numbers

/-- The value of the last line of a file that gives a key. -/
def lastField (key content : String) : Option String :=
  (((lines content.toList).filterMap fieldOfLine?).findRev? (·.1 = key)).map (·.2)

/-- The fields of a file hold the last value of each key. -/
theorem getElem?_parse (key content : String) :
    (Fields.parse content)[key]? = lastField key content :=
  getElem?_ofList _ key

/-- The number that a process reports: that of the last `Pid` field of its status
if it is one, and that of its directory otherwise. -/
def reportedPid (directory : Int32) (status : String) : Int32 :=
  ((lastField "Pid" status).bind (signed32? ·.toList)).getD directory

/-- A process is read under the number it reports. -/
theorem pid_readStatus (directory : Int32) (totalKb : UInt64) (status : String) :
    (readStatus directory totalKb status).value.pid = reportedPid directory status := by
  have hown : valueOr directory ((Fields.parse status).read signed32? "Pid")
      = reportedPid directory status := by
    rw [Fields.read, getElem?_parse, reportedPid]
    cases lastField "Pid" status with
    | none => rfl
    | some value =>
        dsimp only [Option.bind_some]
        cases signed32? value.toList <;> rfl
  rw [← hown, readStatus]
  dsimp only
  split <;> rfl

variable (fs : FileSystem) (config : Config)

/-- What the scheduling line tells leaves the number as it is. -/
theorem pid_withSchedule (stat : Except ReadFailure String) (reading : Reading ProcessUsage) :
    (withSchedule config stat reading).value.pid = reading.value.pid := by
  unfold withSchedule
  split
  · rfl
  · split <;> rfl

theorem pid_withCommand (cmdline : Except ReadFailure String) (reading : Reading ProcessUsage) :
    (withCommand cmdline reading).value.pid = reading.value.pid := by
  unfold withCommand
  split <;> rfl

/-- A process is read precisely when its status is, and carries the number that
its status tells. -/
theorem collect_eq_ok {directory : Int32} {totalKb : UInt64} {reading : Reading ProcessUsage}
    (h : collect fs config directory totalKb = .ok reading) :
    ∃ status, fs.read ((directoryOf config directory).join ⟨"status"⟩) = .ok status
      ∧ reading.value.pid = reportedPid directory status := by
  unfold collect at h
  dsimp only at h
  split at h
  · cases h
  · next status hstatus =>
      refine ⟨status, hstatus, ?_⟩
      cases h
      rw [pid_withCommand, pid_withSchedule, pid_readStatus]

-- ========================================================== the table

/-- The processes are discovered in ascending order. -/
theorem pairwise_discover {pids : List Int32} (h : discover fs config = .ok pids) :
    pids.Pairwise (· ≤ ·) := by
  unfold discover at h
  split at h
  · cases h
  · cases h
    refine (List.pairwise_mergeSort ?_ ?_ _).imp fun hab => of_decide_eq_true hab
    · intro a b c hab hbc
      exact decide_eq_true (Int32.le_trans (of_decide_eq_true hab) (of_decide_eq_true hbc))
    · intro a b
      simpa using Int32.le_total a b

/-- The processes that are discovered are those that the table has entries of. -/
theorem mem_discover {entries : List Path} (hlist : fs.list config.root = .ok entries)
    {pids : List Int32} (h : discover fs config = .ok pids) {pid : Int32} :
    pid ∈ pids ↔ ∃ entry ∈ entries, entryPid? fs entry = some pid := by
  rw [discover, hlist] at h
  cases h
  rw [List.mem_mergeSort, List.mem_filterMap]

/-- The reading of each process that can be read, under the number of its directory. -/
def collectEach (totalKb : UInt64) (pids : List Int32) : List (Int32 × Reading ProcessUsage) :=
  pids.filterMap fun pid =>
    match collect fs config pid totalKb with
    | .ok reading => some (pid, reading)
    | .error _ => none

/-- What is read of the table, from what is read of each process. -/
def gathered (entries : List (Int32 × Reading ProcessUsage)) : Reading (List ProcessUsage) where
  value := entries.map (·.2.value)
  issues := entries.flatMap fun e => e.2.issues.map (.inProcess e.1)

theorem collectEach_cons_of_ok {totalKb : UInt64} {pid : Int32} {reading : Reading ProcessUsage}
    (h : collect fs config pid totalKb = .ok reading) (pids : List Int32) :
    collectEach fs config totalKb (pid :: pids)
      = (pid, reading) :: collectEach fs config totalKb pids := by
  simp [collectEach, h]

theorem collectEach_cons_of_error {totalKb : UInt64} {pid : Int32} {cause : CollectError}
    (h : collect fs config pid totalKb = .error cause) (pids : List Int32) :
    collectEach fs config totalKb (pid :: pids) = collectEach fs config totalKb pids := by
  simp [collectEach, h]

/-- A process that cannot be read is gone, whatever the cause. -/
theorem collect_eq_error {pid : Int32} {totalKb : UInt64} {cause : CollectError}
    (h : collect fs config pid totalKb = .error cause) : cause = .processGone pid := by
  unfold collect at h
  dsimp only at h
  split at h
  · cases h
    rfl
  · cases h

/-- Processes are added to what was read before them, and none of them is told of as one
that is there and could not be read. -/
theorem foldl_withEntry (totalKb : UInt64) (pids : List Int32) (all : Reading (List ProcessUsage)) :
    pids.foldl (fun all pid => withEntry all pid (collect fs config pid totalKb)) all
      = { value := all.value ++ (gathered (collectEach fs config totalKb pids)).value
          issues := all.issues ++ (gathered (collectEach fs config totalKb pids)).issues } := by
  induction pids generalizing all with
  | nil => simp [collectEach, gathered]
  | cons pid pids ih =>
      rw [List.foldl_cons, ih]
      cases hcollect : collect fs config pid totalKb with
      | error cause =>
          rw [collectEach_cons_of_error fs config hcollect, collect_eq_error fs config hcollect,
            withEntry]
      | ok reading =>
          rw [collectEach_cons_of_ok fs config hcollect]
          simp [withEntry, gathered]

/-- All processes of the table are those that can be read of it. -/
theorem collectAll_eq (totalKb : UInt64) :
    collectAll fs config totalKb
      = (discover fs config).map fun pids => gathered (collectEach fs config totalKb pids) := by
  unfold collectAll
  cases discover fs config with
  | error cause => rfl
  | ok pids =>
      show Except.ok (pids.foldl _ _) = _
      rw [foldl_withEntry]
      rfl

/-- The table is read precisely if it can be listed. -/
theorem collectAll_eq_ok_iff {totalKb : UInt64} {reading : Reading (List ProcessUsage)} :
    collectAll fs config totalKb = .ok reading
      ↔ ∃ pids, discover fs config = .ok pids
          ∧ reading = gathered (collectEach fs config totalKb pids) := by
  rw [collectAll_eq]
  cases discover fs config with
  | error cause => exact iff_of_false nofun (by rintro ⟨_, ⟨⟩, _⟩)
  | ok pids =>
      constructor
      · intro h
        cases h
        exact ⟨pids, rfl, rfl⟩
      · intro h
        obtain ⟨_, hpids, hreading⟩ := h
        cases hpids
        rw [hreading]
        rfl

/-- What is read of the table, directory by directory. -/
theorem mem_collectEach {totalKb : UInt64} {pids : List Int32} {directory : Int32}
    {reading : Reading ProcessUsage} :
    (directory, reading) ∈ collectEach fs config totalKb pids
      ↔ directory ∈ pids ∧ collect fs config directory totalKb = .ok reading := by
  rw [collectEach, List.mem_filterMap]
  constructor
  · rintro ⟨pid, hmem, hread⟩
    split at hread
    · next r hcollect =>
        cases hread
        exact ⟨hmem, hcollect⟩
    · cases hread
  · rintro ⟨hmem, hcollect⟩
    exact ⟨directory, hmem, by rw [hcollect]⟩

/-- The table is read by ascending directory. -/
theorem pairwise_collectEach (totalKb : UInt64) {pids : List Int32}
    (h : pids.Pairwise (· ≤ ·)) :
    (collectEach fs config totalKb pids).Pairwise (·.1 ≤ ·.1) := by
  rw [collectEach, List.pairwise_filterMap]
  refine h.imp fun {a b} hab e he e' he' => ?_
  split at he <;> split at he' <;> cases he <;> cases he'
  exact hab

/-- The values of all processes are those of the readings, in their order. -/
theorem collectAll_eq_ok {totalKb : UInt64} {reading : Reading (List ProcessUsage)}
    (h : collectAll fs config totalKb = .ok reading) :
    ∃ pids, discover fs config = .ok pids
      ∧ reading.value = (collectEach fs config totalKb pids).map (·.2.value) := by
  obtain ⟨pids, hpids, rfl⟩ := (collectAll_eq_ok_iff fs config).mp h
  exact ⟨pids, hpids, rfl⟩

/-- A directory reports a number: it is discovered, its process can be read, and
the number is the one in its status. The reading is what comes of it. -/
structure Reports (totalKb : UInt64) (directory pid : Int32) (reading : Reading ProcessUsage) :
    Prop where
  /-- The directory is one of the table. -/
  discovered : ∃ pids, discover fs config = .ok pids ∧ directory ∈ pids
  /-- Its process can be read. -/
  collected : collect fs config directory totalKb = .ok reading
  /-- Its status tells the number. -/
  told : ∃ status, fs.read ((directoryOf config directory).join ⟨"status"⟩) = .ok status
    ∧ reportedPid directory status = pid

variable {fs config}

/-- The readings of the table that carry a number are those of the directories
that report it. -/
theorem mem_collectEach_iff_reports {totalKb : UInt64} {pids : List Int32}
    (hpids : discover fs config = .ok pids) {directory pid : Int32}
    {reading : Reading ProcessUsage} :
    (directory, reading) ∈ collectEach fs config totalKb pids ∧ reading.value.pid = pid
      ↔ Reports fs config totalKb directory pid reading := by
  rw [mem_collectEach]
  constructor
  · rintro ⟨⟨hmem, hcollect⟩, hpid⟩
    obtain ⟨status, hstatus, htold⟩ := collect_eq_ok fs config hcollect
    exact ⟨⟨pids, hpids, hmem⟩, hcollect, status, hstatus, htold.symm.trans hpid⟩
  · rintro ⟨⟨pids', hpids', hmem⟩, hcollect, status, hstatus, htold⟩
    obtain rfl : pids = pids' := Except.ok.inj (hpids.symm.trans hpids')
    obtain ⟨status', hstatus', htold'⟩ := collect_eq_ok fs config hcollect
    obtain rfl : status = status' := Except.ok.inj (hstatus.symm.trans hstatus')
    exact ⟨⟨hmem, hcollect⟩, htold'.trans htold⟩

/-- The last reading that carries a number is that of the greatest directory that
reports it. -/
theorem findRev?_collectEach_eq_some_iff {totalKb : UInt64} {pids : List Int32}
    (hpids : discover fs config = .ok pids) {directory pid : Int32}
    {reading : Reading ProcessUsage} :
    (collectEach fs config totalKb pids).findRev? (·.2.value.pid = pid)
        = some (directory, reading)
      ↔ Reports fs config totalKb directory pid reading
        ∧ ∀ other reading', Reports fs config totalKb other pid reading' →
            other ≤ directory := by
  have hordered := pairwise_collectEach fs config totalKb (pairwise_discover fs config hpids)
  -- one way is enough: the last reading is unique, and so is the greatest directory
  have hsound : ∀ {d r}, (collectEach fs config totalKb pids).findRev? (·.2.value.pid = pid)
        = some (d, r) →
      Reports fs config totalKb d pid r
        ∧ ∀ other r', Reports fs config totalKb other pid r' → other ≤ d := by
    intro d r hfind
    constructor
    · rw [List.findRev?_eq_find?_reverse] at hfind
      have hmem := List.mem_reverse.mp (List.mem_of_find?_eq_some hfind)
      have hpid := List.find?_some hfind
      exact (mem_collectEach_iff_reports hpids).mp ⟨hmem, of_decide_eq_true hpid⟩
    · intro other r' hreports
      obtain ⟨hmem, hpid⟩ := (mem_collectEach_iff_reports hpids).mpr hreports
      exact le_of_findRev?_eq_some hordered hfind _ hmem (decide_eq_true hpid)
  constructor
  · exact hsound
  · rintro ⟨hreports, hgreatest⟩
    cases hfind : (collectEach fs config totalKb pids).findRev? (·.2.value.pid = pid) with
    | none =>
        obtain ⟨hmem, hpid⟩ := (mem_collectEach_iff_reports hpids).mpr hreports
        rw [List.findRev?_eq_find?_reverse, List.find?_eq_none] at hfind
        exact absurd (decide_eq_true hpid) (hfind _ (List.mem_reverse.mpr hmem))
    | some e =>
        obtain ⟨d, r⟩ := e
        obtain ⟨hreports', hgreatest'⟩ := hsound hfind
        obtain rfl : d = directory :=
          Int32.le_antisymm (hgreatest d r hreports') (hgreatest' directory reading hreports)
        obtain rfl : r = reading :=
          Except.ok.inj (hreports'.collected.symm.trans hreports.collected)
        rfl

end Proc

namespace Sweep

variable {fs : FileSystem} {config : Config}

-- ======================================================= after a sweep

/-- The processes after a sweep that could list them are those of the table, read
with the total that the store has by then. -/
theorem exists_processes_sweep (h : unobtainable fs config .processes = false) (s : Store) :
    ∃ pids, discover fs config = .ok pids
      ∧ (sweep fs config s).2.processes
        = Store.indexProcesses
            ((collectEach fs config (sweep fs config s).2.memory.totalKb pids).map
              (·.2.value)) := by
  obtain ⟨reading, hread⟩ := exists_collectAll h (sweep fs config s).2.memory.totalKb
  obtain ⟨pids, hpids, hvalue⟩ := collectAll_eq_ok fs config hread
  refine ⟨pids, hpids, ?_⟩
  have hcontent := replacement_sweep h s
  rw [replacement, hread] at hcontent
  have hprocesses := Content.processes.inj (Option.some.inj hcontent)
  rw [← hprocesses, ← hvalue]

/-- After a sweep that could list the processes, a number has the last reading
that carries it. -/
theorem process?_sweep {pids : List Int32} {s : Store}
    (h : (sweep fs config s).2.processes
      = Store.indexProcesses
          ((collectEach fs config (sweep fs config s).2.memory.totalKb pids).map (·.2.value)))
    (pid : Int32) :
    (sweep fs config s).2.process? pid
      = ((collectEach fs config (sweep fs config s).2.memory.totalKb pids).findRev?
          (·.2.value.pid = pid)).map (·.2.value) := by
  rw [Store.process?, h, Store.indexProcesses, getElem?_ofList_map,
    List.findRev?_eq_find?_reverse, List.findRev?_eq_find?_reverse, ← List.map_reverse,
    List.find?_map]
  rfl

/-- After a sweep whose processes could be listed, a number has the process of the
greatest directory that reports it, and none if no directory does. The processes
are listed once each, in strictly ascending order, and none of them depends on
the processes that were there before. -/
theorem stored_process_is_greatest_report (fs : FileSystem) (config : Config) (s : Store)
    (h : Phase.processes ∉ (sweep fs config s).1.report.failed) :
    (∀ pid process, (sweep fs config s).2.process? pid = some process ↔
      ∃ directory reading,
        Reports fs config (sweep fs config s).2.memory.totalKb directory pid reading
        ∧ (∀ other reading',
            Reports fs config (sweep fs config s).2.memory.totalKb other pid reading' →
              other ≤ directory)
        ∧ reading.value = process)
    ∧ (∀ pid, (sweep fs config s).2.process? pid = none ↔
        ∀ directory reading,
          ¬ Reports fs config (sweep fs config s).2.memory.totalKb directory pid reading)
    ∧ (∀ process, process ∈ (sweep fs config s).2.processList ↔
        (sweep fs config s).2.process? process.pid = some process)
    ∧ (sweep fs config s).2.processList.Pairwise (·.pid < ·.pid)
    ∧ ∀ t, (sweep fs config t).2.memory.totalKb = (sweep fs config s).2.memory.totalKb →
        (sweep fs config t).2.processes = (sweep fs config s).2.processes := by
  have hlisted : unobtainable fs config .processes = false := by
    simpa using mt mem_failed_sweep.mpr h
  -- what is stored is the index of the readings, in the order of the directories
  obtain ⟨pids, hpids, hprocesses⟩ := exists_processes_sweep hlisted s
  have hstored := process?_sweep hprocesses
  refine ⟨?_, ?_, ?_, ?_, ?_⟩
  · intro pid process
    rw [hstored, Option.map_eq_some_iff]
    constructor
    · rintro ⟨⟨directory, reading⟩, hfind, hvalue⟩
      obtain ⟨hreports, hgreatest⟩ := (findRev?_collectEach_eq_some_iff hpids).mp hfind
      exact ⟨directory, reading, hreports, hgreatest, hvalue⟩
    · rintro ⟨directory, reading, hreports, hgreatest, hvalue⟩
      exact ⟨(directory, reading),
        (findRev?_collectEach_eq_some_iff hpids).mpr ⟨hreports, hgreatest⟩, hvalue⟩
  · intro pid
    rw [hstored, Option.map_eq_none_iff, List.findRev?_eq_find?_reverse, List.find?_eq_none]
    constructor
    · intro hnone directory reading hreports
      obtain ⟨hmem, hpid⟩ := (mem_collectEach_iff_reports hpids).mpr hreports
      exact hnone _ (List.mem_reverse.mpr hmem) (decide_eq_true hpid)
    · rintro hnone ⟨directory, reading⟩ hmem hpid
      exact hnone directory reading ((mem_collectEach_iff_reports hpids).mp
        ⟨List.mem_reverse.mp hmem, of_decide_eq_true hpid⟩)
  · intro process
    rw [Store.processList, Store.process?, hprocesses]
    exact Store.mem_processList_replaceProcesses s _
  · rw [Store.processList, hprocesses]
    exact Store.pairwise_processList_replaceProcesses s _
  · intro t htotal
    -- a phase that obtains its category looks at no more of the store than the total
    have hcontent : (sweep fs config t).2.content .processes
        = (sweep fs config s).2.content .processes := by
      apply Option.some.inj
      rw [← replacement_sweep hlisted, ← replacement_sweep hlisted]
      exact replacement_congr nofun fun _ => htotal
    exact Content.processes.inj hcontent

/-- A table in which the directories 3 and 5 both report the number 7, the one of
them at the second attempt. -/
def twins : FileSystem where
  read p :=
    if p.text = "/proc/3/status" then .ok "Name: first\nPid: 7\n"
    else if p.text = "/proc/5/status" then .ok "Name: second\nPid: 9\nPid: 7\n"
    else .error .noEntry
  contains p := p.text = "/proc/3/status" || p.text = "/proc/5/status"
  list p := if p.text = "/proc" then .ok [⟨"/proc/5"⟩, ⟨"/proc/3"⟩] else .error .noEntry

/-- Of two directories with one number the greater one is stored, though it is
listed first. -/
theorem second_of_twins_is_stored :
    Phase.processes ∉ (sweep twins {} .empty).1.report.failed
    ∧ ∃ process, (sweep twins {} .empty).2.process? 7 = some process
        ∧ process.name = "second" := by
  have hlisted : Phase.processes ∉ (sweep twins {} .empty).1.report.failed := by
    decide +kernel
  refine ⟨hlisted, ?_⟩
  have hstored := (stored_process_is_greatest_report twins {} .empty hlisted).1 7
  have htotal : (sweep twins {} .empty).2.memory.totalKb = 0 := by decide +kernel
  rw [htotal] at hstored
  have hname : (collect twins {} 5 0).toOption.map (·.value.name) = some "second" := by
    decide +kernel
  cases hcollect : collect twins {} 5 0 with
  | error e =>
      rw [hcollect] at hname
      cases hname
  | ok reading =>
      rw [hcollect] at hname
      refine ⟨reading.value, (hstored _).mpr ⟨5, reading, ⟨?_, hcollect, ?_⟩, ?_, rfl⟩,
        Option.some.inj hname⟩
      · obtain ⟨pids, hpids, -⟩ := exists_processes_sweep (s := .empty)
          (by simpa using mt mem_failed_sweep.mpr hlisted)
        refine ⟨pids, hpids, (mem_discover twins {} rfl hpids).mpr ⟨⟨"/proc/5"⟩, ?_, ?_⟩⟩
        · exact List.mem_cons_self ..
        · decide +kernel
      · exact ⟨"Name: second\nPid: 9\nPid: 7\n", by decide +kernel, by decide +kernel⟩
      · rintro other reading' ⟨⟨pids, hpids, hmem⟩, -, -⟩
        obtain ⟨entry, hentry, hpid⟩ := (mem_discover twins {} rfl hpids).mp hmem
        rcases List.mem_cons.mp hentry with rfl | hentry
        · have hfive : entryPid? twins ⟨"/proc/5"⟩ = some 5 := by decide +kernel
          rw [hfive] at hpid
          cases hpid
          decide
        · obtain rfl := List.mem_singleton.mp hentry
          have hthree : entryPid? twins ⟨"/proc/3"⟩ = some 3 := by decide +kernel
          rw [hthree] at hpid
          cases hpid
          decide

end Sweep

end Vitals
