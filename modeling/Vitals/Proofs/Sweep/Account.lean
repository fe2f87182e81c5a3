/-
What a sweep tells, read off the files.

A sweep tells of itself twice, by the counts of its report and by the events of
its log, and the two are written in different places. Here both are said of the
files alone: which lines are malformed, which fields, which processes are there.
Nothing of the store comes in (`run_phase_fst`), since a store only lends the
counters and the total that shares are taken of, and a share is never a failure.

# Why each failure is told once

A phase either cannot have its source, and tells of one failure and of nothing
malformed, or it has it, and tells of each line or field that is malformed in
turn. So what it tells is balanced (`length_warnings`): as many events as
warnings, and one more if it fails. Balance carries over from phases to a sweep,
and the order of the events is that of the phases.

A process whose status cannot be read by then is in none of this. Its number is
among those discovered and not among those that are there (`presentPids`).
-/
import Vitals.Log
import Vitals.Proofs.Proc.Table

namespace Vitals.Sweep

open Proc Text

variable (fs : FileSystem) (config : Config)

-- ============================================================= findings

/-- What is found in a file, if the file can be read. -/
def inFile {α : Type} (path : Path) (find : String → List α) : List α :=
  match fs.read path with
  | .ok content => find content
  | .error _ => []

/-- The lines at the head of the host's counters that open like processor rows. -/
def rowLines : List String :=
  inFile fs (config.root.join ⟨"stat"⟩) fun content =>
    ((lines content.toList).takeWhile isCpuLine).map .ofList

/-- What is wrong with the lines that are malformed, in the order of the file. -/
def malformedRows : List ParseError :=
  (rowLines fs config).flatMap fun line => issueOf (cpuRow line)

/-- What is wrong with a field that should be an amount; nothing if it is absent. -/
def amountIssue (key content : String) : List ParseError :=
  match lastField key content with
  | some value => issueOf (kilobytes value)
  | none => []

/-- What is wrong with a field that should be a number; nothing if it is absent. -/
def numberIssue (key content : String) : List ParseError :=
  match lastField key content with
  | some value => if (signed32? value.toList).isSome then [] else [.invalidField key value]
  | none => []

def malformedAmounts : List ParseError :=
  inFile fs (config.root.join ⟨"meminfo"⟩) fun content =>
    ["MemTotal", "MemFree"].flatMap fun key => amountIssue key content

/-- The processes that are discovered and whose status can be read. -/
def presentPids : List Int32 :=
  match discover fs config with
  | .ok pids => pids.filter fun pid =>
      (fs.read ((directoryOf config pid).join ⟨"status"⟩)).isOk
  | .error _ => []

/-- What is wrong with the fields of a process: those of its status, and then its
scheduling line. -/
def processIssues (pid : Int32) : List ParseError :=
  inFile fs ((directoryOf config pid).join ⟨"status"⟩) (fun content =>
      numberIssue "Pid" content ++ numberIssue "PPid" content ++ amountIssue "VmSize" content)
    ++ inFile fs ((directoryOf config pid).join ⟨"stat"⟩) fun content =>
        issueOf (scheduledTimes content)

/-- Why a reading failed, if it did. -/
def causeOf {α : Type} : Except CollectError α → List CollectError
  | .ok _ => []
  | .error cause => [cause]

/-- Why the source of a phase could not be had, if it could not. -/
def causes : Phase → List CollectError
  | .uptime => causeOf (readUptime fs config.root)
  | .cpu => causeOf (readFile fs (config.root.join ⟨"stat"⟩))
  | .memory => causeOf (readFile fs (config.root.join ⟨"meminfo"⟩))
  | .processes => causeOf (discover fs config)

/-- What a phase tells of lines and fields that are malformed, in order. -/
def malformed : Phase → List Event
  | .uptime => []
  | .cpu => (malformedRows fs config).map .malformedRow
  | .memory => (malformedAmounts fs config).map .malformedMemory
  | .processes => (presentPids fs config).flatMap fun pid =>
      (processIssues fs config pid).map fun issue => .malformedProcess (.inProcess pid issue)

/-- What a phase warns of: its failure, or what is malformed. -/
def warnings (p : Phase) : List Event :=
  (causes fs config p).map (.phaseFailed p) ++ malformed fs config p

/-- What a phase counts, its failure left out. -/
def tally : Phase → Report
  | .uptime => {}
  | .cpu => {
      cpus := ((rowLines fs config).filter fun line => (cpuRow line).isOk).length
      rowsSkipped := (malformedRows fs config).length
      warnings := (malformedRows fs config).length }
  | .memory => { warnings := (malformedAmounts fs config).length }
  | .processes => {
      processes := (presentPids fs config).length
      warnings := ((presentPids fs config).flatMap (processIssues fs config)).length }

/-- What a phase tells: what it counts, its failure with it, and what it warns of. -/
def told (p : Phase) : Outcome where
  report := { tally fs config p with failed := (causes fs config p).map fun _ => p }
  events := warnings fs config p

-- ============================================================ processes

variable {fs config}

/-- What is found in a file that can be read is what its text gives. -/
theorem inFile_of_ok {α : Type} {path : Path} {content : String}
    (h : fs.read path = .ok content) (find : String → List α) :
    inFile fs path find = find content := by
  rw [inFile, h]

/-- In one that cannot be read nothing is found. -/
theorem inFile_of_error {α : Type} {path : Path} {e : ReadFailure}
    (h : fs.read path = .error e) (find : String → List α) : inFile fs path find = [] := by
  rw [inFile, h]

/-- What is wrong with an amount is wrong with the last line that gives it. -/
theorem issueOf_amount (key content : String) :
    issueOf ((Fields.parse content).amount key) = amountIssue key content := by
  rw [Fields.amount, getElem?_parse, amountIssue]
  cases lastField key content with
  | none => rfl
  | some value =>
      dsimp only
      cases kilobytes value <;> rfl

/-- So it is with a number. -/
theorem issueOf_read (key content : String) :
    issueOf ((Fields.parse content).read signed32? key) = numberIssue key content := by
  rw [Fields.read, getElem?_parse, numberIssue]
  cases lastField key content with
  | none => rfl
  | some value =>
      dsimp only
      cases signed32? value.toList <;> rfl

/-- What is wrong with a status is wrong with its three fields, in their order. -/
theorem issues_readStatus (pid : Int32) (totalKb : UInt64) (content : String) :
    (readStatus pid totalKb content).issues
      = numberIssue "Pid" content ++ numberIssue "PPid" content
        ++ amountIssue "VmSize" content := by
  rw [readStatus, ← issueOf_read, ← issueOf_read, ← issueOf_amount]

/-- The scheduling line adds its own failure, if it can be read. -/
theorem issues_withSchedule (path : Path) (reading : Reading ProcessUsage) :
    (withSchedule config (fs.read path) reading).issues
      = reading.issues ++ inFile fs path fun content => issueOf (scheduledTimes content) := by
  unfold withSchedule inFile
  cases fs.read path with
  | error e => simp
  | ok content =>
      dsimp only
      cases scheduledTimes content <;> simp [issueOf]

/-- The command line adds none. -/
theorem issues_withCommand (cmdline : Except ReadFailure String)
    (reading : Reading ProcessUsage) :
    (withCommand cmdline reading).issues = reading.issues := by
  cases cmdline <;> rfl

/-- A process whose status cannot be read is gone. -/
theorem collect_of_unreadable {pid : Int32} {e : ReadFailure}
    (h : fs.read ((directoryOf config pid).join ⟨"status"⟩) = .error e) (totalKb : UInt64) :
    collect fs config pid totalKb = .error (.processGone pid) := by
  unfold collect
  dsimp only
  rw [h]

/-- A process with a status is read, and what is wrong with it is wrong with its sources. -/
theorem exists_collect {pid : Int32} {content : String}
    (h : fs.read ((directoryOf config pid).join ⟨"status"⟩) = .ok content) (totalKb : UInt64) :
    ∃ reading, collect fs config pid totalKb = .ok reading
      ∧ reading.issues = processIssues fs config pid := by
  unfold collect
  dsimp only
  rw [h]
  refine ⟨_, rfl, ?_⟩
  rw [issues_withCommand, issues_withSchedule, issues_readStatus, processIssues, inFile_of_ok h]

/-- Of the processes that are listed, those with a status are read, each with what is wrong
with it. -/
theorem issues_collectEach (totalKb : UInt64) (pids : List Int32) :
    (collectEach fs config totalKb pids).map (fun e => (e.1, e.2.issues))
      = (pids.filter fun pid => (fs.read ((directoryOf config pid).join ⟨"status"⟩)).isOk).map
          fun pid => (pid, processIssues fs config pid) := by
  -- the readings and the statuses are gone through in step
  induction pids with
  | nil => rfl
  | cons pid pids ih =>
      rw [List.filter_cons]
      cases hstatus : fs.read ((directoryOf config pid).join ⟨"status"⟩) with
      | error e =>
          rw [collectEach_cons_of_error fs config (collect_of_unreadable hstatus totalKb)]
          exact ih
      | ok content =>
          obtain ⟨reading, hcollect, hissues⟩ := exists_collect hstatus totalKb
          rw [collectEach_cons_of_ok fs config hcollect, List.map_cons, ih, hissues]
          rfl

/-- What is read of the table: as many processes as are there, and what is wrong with
each in turn. -/
theorem collectAll_counts {totalKb : UInt64} {reading : Reading (List ProcessUsage)}
    (h : collectAll fs config totalKb = .ok reading) :
    reading.value.length = (presentPids fs config).length
      ∧ reading.issues = (presentPids fs config).flatMap fun pid =>
          (processIssues fs config pid).map (.inProcess pid) := by
  obtain ⟨pids, hpids, rfl⟩ := (collectAll_eq_ok_iff fs config).mp h
  have heach := @issues_collectEach fs config totalKb pids
  unfold presentPids
  rw [hpids]
  constructor
  · have hlength := congrArg List.length heach
    rw [List.length_map, List.length_map] at hlength
    rw [gathered, List.length_map]
    exact hlength
  · have hflat := congrArg (List.flatMap fun e : Int32 × List ParseError =>
      e.2.map (ParseError.inProcess e.1)) heach
    rw [List.flatMap_map, List.flatMap_map] at hflat
    exact hflat

/-- Nothing but the listing keeps the table from being read. -/
theorem discover_of_collectAll_eq_error {totalKb : UInt64} {cause : CollectError}
    (h : collectAll fs config totalKb = .error cause) : discover fs config = .error cause := by
  rw [collectAll_eq] at h
  cases hpids : discover fs config with
  | error e =>
      rw [hpids] at h
      cases h
      rfl
  | ok pids =>
      rw [hpids] at h
      cases h

-- ============================================================== phases

/-- The rows that are kept are the lines that are well formed. -/
theorem length_wellFormed (ls : List String) :
    (wellFormed (ls.map cpuRow)).length = (ls.filter fun line => (cpuRow line).isOk).length := by
  induction ls with
  | nil => rfl
  | cons line ls ih =>
      rw [wellFormed] at ih ⊢
      rw [List.map_cons, List.filterMap_cons, List.filter_cons]
      cases cpuRow line with
      | error e => exact ih
      | ok times => exact congrArg (· + 1) ih

/-- What is wrong with the rows is told line by line. -/
theorem rowIssues_map (ls : List String) :
    rowIssues (ls.map cpuRow) = ls.flatMap fun line => issueOf (cpuRow line) := by
  rw [rowIssues, List.flatMap_map]

/-- The rows are the lines that open the file and are meant as rows. -/
theorem cpuRows_eq_map (content : String) :
    cpuRows content
      = (((lines content.toList).takeWhile isCpuLine).map .ofList).map cpuRow := by
  rw [cpuRows, List.map_map]
  rfl

variable {α : Type} {path : Path}

/-- What goes on from a file that can be read goes on from its text. -/
theorem readFile_bind_of_ok {content : String} (h : fs.read path = .ok content)
    (f : String → α) : (do return f (← readFile fs path)) = Except.ok (f content) := by
  rw [readFile, h]
  rfl

/-- Nothing goes on from one that cannot. -/
theorem readFile_bind_of_error {e : ReadFailure} (h : fs.read path = .error e)
    (f : String → α) :
    (do return f (← readFile fs path)) = Except.error (.unreadable path e) := by
  rw [readFile, h]
  rfl

/-- What is wrong with a memory is wrong with its two fields. -/
theorem issues_memoryOfFields (content : String) :
    (memoryOfFields (.parse content)).issues
      = ["MemTotal", "MemFree"].flatMap fun key => amountIssue key content := by
  rw [memoryOfFields]
  simp only [issueOf_amount, List.flatMap_cons, List.flatMap_nil, List.append_nil]

/-- The processor rows tell what their file accounts for, from any store. -/
theorem run_cpuPhase_fst (s : Store) :
    ((phase fs config .cpu).run s).1 = told fs config .cpu := by
  rw [told, warnings, causes, malformed, tally, malformedRows, rowLines, readFile]
  cases hstat : fs.read (config.root.join ⟨"stat"⟩) with
  | error e =>
      have hread := readFile_bind_of_error hstat cpuRows
      rw [inFile_of_error hstat, phase, cpuPhase, readCpuRows, hread]
      rfl
  | ok content =>
      rw [run_cpuPhase (readFile_bind_of_ok hstat cpuRows), inFile_of_ok hstat, cpuRows_eq_map,
        length_wellFormed, rowIssues_map]
      rfl

/-- So does the memory. -/
theorem run_memoryPhase_fst (s : Store) :
    ((phase fs config .memory).run s).1 = told fs config .memory := by
  rw [told, warnings, causes, malformed, tally, malformedAmounts, readFile]
  cases hmeminfo : fs.read (config.root.join ⟨"meminfo"⟩) with
  | error e =>
      have hread := readFile_bind_of_error hmeminfo fun content => memoryOfFields (.parse content)
      rw [inFile_of_error hmeminfo, phase, memoryPhase, Proc.readMemory, hread]
      rfl
  | ok content =>
      have hread := readFile_bind_of_ok hmeminfo fun content => memoryOfFields (.parse content)
      rw [run_memoryPhase hread, inFile_of_ok hmeminfo, issues_memoryOfFields]
      rfl

/-- So do the processes, whatever the total that their shares are taken of. -/
theorem run_processPhase_fst (s : Store) :
    ((phase fs config .processes).run s).1 = told fs config .processes := by
  rw [told, warnings, causes, malformed, tally]
  cases hread : collectAll fs config s.memory.totalKb with
  | error cause =>
      have hpids := discover_of_collectAll_eq_error hread
      rw [phase, processPhase, Script.run, hread, presentPids, hpids]
      rfl
  | ok reading =>
      obtain ⟨pids, hpids, -⟩ := collectAll_eq_ok fs config hread
      obtain ⟨hlength, hissues⟩ := collectAll_counts hread
      rw [run_processPhase hread, hlength, hissues, hpids]
      simp [causeOf, List.map_flatMap, List.length_flatMap, Function.comp_def]

/-- What a phase tells is settled by the files: no store comes into it. -/
theorem run_phase_fst (p : Phase) (s : Store) :
    ((phase fs config p).run s).1 = told fs config p := by
  cases p with
  | uptime =>
      rw [phase, uptimePhase, told, warnings, causes]
      cases readUptime fs config.root <;> rfl
  | cpu => exact run_cpuPhase_fst s
  | memory => exact run_memoryPhase_fst s
  | processes => exact run_processPhase_fst s

-- =============================================================== sweep

/-- Phases one behind the other tell what each of them tells. -/
theorem run_phases_fst (ps : List Phase) (s : Store) :
    ((phases fs config ps).run s).1 = ps.foldr (fun p rest => told fs config p ++ rest) {} := by
  induction ps generalizing s with
  | nil => rfl
  | cons p ps ih =>
      rw [phases, Script.run_bind, Script.run_bind, run_phase_fst, ih]
      rfl

/-- A sweep tells what its phases tell, and that it is over. -/
theorem sweep_fst (s : Store) :
    (sweep fs config s).1
      = (Phase.all.foldr (fun p rest => told fs config p ++ rest) {}).closed := by
  rw [sweep, script, Script.run_bind, run_phases_fst]
  rfl

/-- The counts of two parts add up, and the failures of the first stand in front. -/
theorem report_append (a b : Outcome) :
    (a ++ b).report = {
      cpus := a.report.cpus + b.report.cpus
      rowsSkipped := a.report.rowsSkipped + b.report.rowsSkipped
      processes := a.report.processes + b.report.processes
      warnings := a.report.warnings + b.report.warnings
      failed := a.report.failed ++ b.report.failed } := rfl

/-- The report of a sweep, read off the files. -/
theorem report_sweep (s : Store) :
    (sweep fs config s).1.report = {
      cpus := ((rowLines fs config).filter fun line => (cpuRow line).isOk).length
      rowsSkipped := (malformedRows fs config).length
      processes := (presentPids fs config).length
      warnings := (malformedRows fs config).length + (malformedAmounts fs config).length
        + ((presentPids fs config).flatMap (processIssues fs config)).length
      failed := Phase.all.flatMap fun p => (causes fs config p).map fun _ => p } := by
  rw [sweep_fst, Outcome.closed]
  simp [Phase.all, report_append, told, tally, Nat.add_assoc]

/-- Two sweeps over the same files tell the same, whatever their stores. -/
theorem sweep_fst_eq (s t : Store) : (sweep fs config s).1 = (sweep fs config t).1 := by
  rw [sweep_fst, sweep_fst]

/-- A phase warns once for each count of its warnings, and once more if it fails. -/
theorem length_warnings (p : Phase) :
    (warnings fs config p).length
      = (told fs config p).report.warnings + (told fs config p).report.failed.length := by
  rw [warnings, told, List.length_append, List.length_map, List.length_map, Nat.add_comm]
  cases p with
  | uptime => rfl
  | cpu => rw [malformed, tally, List.length_map]
  | memory => rw [malformed, tally, List.length_map]
  | processes => simp [malformed, tally, List.length_flatMap]

/-- Each line that is meant as a row is well formed or wrong. -/
theorem length_rows (ls : List String) :
    (ls.filter fun line => (cpuRow line).isOk).length
      + (ls.flatMap fun line => issueOf (cpuRow line)).length = ls.length := by
  induction ls with
  | nil => rfl
  | cons line ls ih =>
      rw [List.flatMap_cons, List.length_append, List.length_cons, ← ih]
      cases hrow : cpuRow line with
      | error e =>
          rw [List.filter_cons_of_neg (by rw [hrow]; exact Bool.false_ne_true), issueOf,
            List.length_singleton]
          omega
      | ok times =>
          rw [List.filter_cons_of_pos (by rw [hrow]; rfl), issueOf, List.length_cons,
            List.length_nil]
          omega

/-- All that a phase can warn of. -/
theorem exists_of_mem_warnings {p : Phase} {e : Event} (h : e ∈ warnings fs config p) :
    (∃ cause, e = .phaseFailed p cause)
      ∨ (∃ issue, e = .malformedRow issue)
      ∨ (∃ issue, e = .malformedMemory issue)
      ∨ ∃ pid ∈ presentPids fs config, ∃ cause ∈ processIssues fs config pid,
          e = .malformedProcess (.inProcess pid cause) := by
  rcases List.mem_append.mp h with h | h
  · obtain ⟨cause, -, rfl⟩ := List.mem_map.mp h
    exact .inl ⟨cause, rfl⟩
  · cases p with
    | uptime => cases h
    | cpu =>
        obtain ⟨issue, -, rfl⟩ := List.mem_map.mp h
        exact .inr (.inl ⟨issue, rfl⟩)
    | memory =>
        obtain ⟨issue, -, rfl⟩ := List.mem_map.mp h
        exact .inr (.inr (.inl ⟨issue, rfl⟩))
    | processes =>
        obtain ⟨pid, hpid, h⟩ := List.mem_flatMap.mp h
        obtain ⟨cause, hcause, rfl⟩ := List.mem_map.mp h
        exact .inr (.inr (.inr ⟨pid, hpid, cause, hcause, rfl⟩))

/-- Whatever a phase warns of is logged as a warning. -/
theorem level_record_of_mem_warnings {p : Phase} {e : Event} (h : e ∈ warnings fs config p) :
    e.record.level = .warn := by
  obtain ⟨_, rfl⟩ | ⟨_, rfl⟩ | ⟨_, rfl⟩ | ⟨_, -, _, -, rfl⟩ := exists_of_mem_warnings h
    <;> rfl

/-- The events of phases are their warnings, in the order of the phases. -/
theorem events_foldr (ps : List Phase) :
    (ps.foldr (fun p rest => told fs config p ++ rest) {}).events
      = ps.flatMap (warnings fs config) := by
  induction ps with
  | nil => rfl
  | cons p ps ih =>
      rw [List.foldr_cons, List.flatMap_cons, ← ih]
      rfl

/-- The events of a sweep are the warnings of its phases, and its end. -/
theorem events_sweep (s : Store) :
    (sweep fs config s).1.events
      = Phase.all.flatMap (warnings fs config)
        ++ [.complete (sweep fs config s).1.report.cpus (sweep fs config s).1.report.processes
              (sweep fs config s).1.report.warnings] := by
  rw [sweep_fst, Outcome.closed, events_foldr]

/-- So what a sweep logs as warnings are the warnings of its phases. -/
theorem log_sweep (s : Store) :
    ((sweep fs config s).1.events.map Event.record).filter (·.level = .warn)
      = (Phase.all.flatMap (warnings fs config)).map Event.record := by
  -- the end is the one event that does not warn
  have hwarn : ∀ r ∈ (Phase.all.flatMap (warnings fs config)).map Event.record,
      decide (r.level = .warn) = true := by
    intro r hr
    obtain ⟨e, he, rfl⟩ := List.mem_map.mp hr
    obtain ⟨p, -, he⟩ := List.mem_flatMap.mp he
    exact decide_eq_true (level_record_of_mem_warnings he)
  rw [events_sweep, List.map_append, List.filter_append, List.filter_eq_self.mpr hwarn]
  exact List.append_nil _

/-- There are as many warnings as are counted, and one more for each phase that failed. -/
theorem length_flatMap_warnings (ps : List Phase) :
    (ps.flatMap (warnings fs config)).length
      = (ps.foldr (fun p rest => told fs config p ++ rest) {}).report.warnings
        + (ps.foldr (fun p rest => told fs config p ++ rest) {}).report.failed.length := by
  induction ps with
  | nil => rfl
  | cons p ps ih =>
      rw [List.flatMap_cons, List.length_append, ih, length_warnings]
      show _ = (told fs config p).report.warnings + _
        + ((told fs config p).report.failed ++ _).length
      rw [List.length_append]
      omega

/-- The processes that are there stand in ascending order. -/
theorem presentPids_pairwise : (presentPids fs config).Pairwise (· ≤ ·) := by
  unfold presentPids
  split
  · next pids hpids => exact (pairwise_discover fs config hpids).filter _
  · exact .nil

/-- A process that is there has a status. -/
theorem mem_presentPids_isOk {pid : Int32} (h : pid ∈ presentPids fs config) :
    (fs.read ((directoryOf config pid).join ⟨"status"⟩)).isOk = true := by
  unfold presentPids at h
  split at h
  · exact (List.mem_filter.mp h).2
  · cases h

/-- A phase that fails finds nothing malformed. -/
theorem causes_eq_nil_or_malformed_eq_nil (p : Phase) :
    causes fs config p = [] ∨ malformed fs config p = [] := by
  cases p with
  | uptime => exact .inr rfl
  | cpu =>
      rw [causes, readFile, malformed, malformedRows, rowLines, inFile]
      cases fs.read (config.root.join ⟨"stat"⟩) with
      | error e => exact .inr rfl
      | ok content => exact .inl rfl
  | memory =>
      rw [causes, readFile, malformed, malformedAmounts, inFile]
      cases fs.read (config.root.join ⟨"meminfo"⟩) with
      | error e => exact .inr rfl
      | ok content => exact .inl rfl
  | processes =>
      rw [causes, malformed, presentPids]
      cases discover fs config with
      | error e => exact .inr rfl
      | ok pids => exact .inl rfl

/-- A warning about a process is about one that is there, and about something wrong with it.
-/
theorem malformedProcess_mem_warnings {issue : ParseError}
    (h : .malformedProcess issue ∈ Phase.all.flatMap (warnings fs config)) :
    ∃ pid ∈ presentPids fs config, ∃ cause ∈ processIssues fs config pid,
      issue = .inProcess pid cause := by
  obtain ⟨p, -, h⟩ := List.mem_flatMap.mp h
  obtain ⟨_, h⟩ | ⟨_, h⟩ | ⟨_, h⟩ | ⟨pid, hpid, cause, hcause, h⟩ := exists_of_mem_warnings h
  · cases h
  · cases h
  · cases h
  · cases h
    exact ⟨pid, hpid, cause, hcause, rfl⟩

/-- An outcome accounts for the files that it tells of. -/
structure Accounts (fs : FileSystem) (config : Config) (o : Outcome) : Prop where
  /-- Each line at the head of the host's counters is counted, as a row or as skipped. -/
  rows : o.report.cpus + o.report.rowsSkipped = (rowLines fs config).length
  /-- A line is skipped if it is malformed. -/
  rowsSkipped : o.report.rowsSkipped = (malformedRows fs config).length
  /-- Without the host's counters there are no lines. -/
  unread : (fs.read (config.root.join ⟨"stat"⟩)).isOk = false →
    o.report.cpus = 0 ∧ o.report.rowsSkipped = 0
  /-- A warning is counted for each line, each amount of the memory and each field of a
  process that is malformed. -/
  warnings : o.report.warnings
    = o.report.rowsSkipped + (malformedAmounts fs config).length
      + ((presentPids fs config).flatMap (processIssues fs config)).length
  /-- A process is counted if its status can be read. -/
  processes : o.report.processes = (presentPids fs config).length
  /-- The events are the warnings of the phases in their order, and the end. -/
  events : o.events
    = Phase.all.flatMap (Sweep.warnings fs config)
      ++ [.complete o.report.cpus o.report.processes o.report.warnings]
  /-- A phase warns of its failure or of what is malformed. -/
  exclusive : ∀ p, causes fs config p = [] ∨ malformed fs config p = []
  /-- The processes are gone through in ascending order. -/
  ascending : (presentPids fs config).Pairwise (· ≤ ·)
  /-- The log has a record of a warning for each that is counted and each failure. -/
  logged : ((o.events.map Event.record).filter (·.level = .warn)).length
    = o.report.warnings + o.report.failed.length
  /-- What is malformed in a process is told under the number of its directory. -/
  named : ∀ issue, .malformedProcess issue ∈ o.events →
    ∃ pid ∈ presentPids fs config, ∃ cause ∈ processIssues fs config pid,
      (Event.malformedProcess issue).record
        = ⟨.warn, "malformed process field",
            [("error", "parse error: " ++ ("pid " ++ pidText pid ++ ": " ++ cause.detail))]⟩
  /-- Nothing is told of a process that is gone. -/
  gone : ∀ pid, (fs.read ((directoryOf config pid).join ⟨"status"⟩)).isOk = false →
    ∀ cause, .malformedProcess (.inProcess pid cause) ∉ o.events

/-- A sweep tells of each failure once, from every store and over every file system.
What it counts and what it logs are both said of the files: each line at the head of
the host's counters, each amount of the memory and each field of a process is
counted and told of if it is malformed, a phase is told of if it fails, and nothing
else is. A number that two entries of the table have is discovered twice, and its
process counts as two. -/
theorem failures_are_told_once (fs : FileSystem) (config : Config) (s : Store) :
    Accounts fs config (sweep fs config s).1 := by
  have hreport := @report_sweep fs config s
  have hevents := @events_sweep fs config s
  -- the event at the end is none of a process, so it is the warnings that name one
  have hnamed : ∀ issue, .malformedProcess issue ∈ (sweep fs config s).1.events →
      ∃ pid ∈ presentPids fs config, ∃ cause ∈ processIssues fs config pid,
        issue = .inProcess pid cause := by
    intro issue hissue
    rw [hevents, List.mem_append, List.mem_singleton] at hissue
    exact malformedProcess_mem_warnings (hissue.resolve_right nofun)
  exact {
    rows := by
      rw [hreport]
      exact length_rows _
    rowsSkipped := by rw [hreport]
    unread := by
      intro hunread
      have hlines : rowLines fs config = [] := by
        rw [rowLines, inFile]
        cases hstat : fs.read (config.root.join ⟨"stat"⟩) with
        | error e => rfl
        | ok content =>
            rw [hstat] at hunread
            cases hunread
      rw [hreport, malformedRows, hlines]
      exact ⟨rfl, rfl⟩
    warnings := by rw [hreport]
    processes := by rw [hreport]
    events := hevents
    exclusive := causes_eq_nil_or_malformed_eq_nil
    ascending := presentPids_pairwise
    logged := by
      rw [log_sweep, List.length_map, length_flatMap_warnings, sweep_fst]
      rfl
    named := by
      intro issue hissue
      obtain ⟨pid, hpid, cause, hcause, rfl⟩ := hnamed issue hissue
      exact ⟨pid, hpid, cause, hcause, rfl⟩
    gone := by
      intro pid hgone cause hmem
      obtain ⟨pid', hpid', _, -, hpid⟩ := hnamed _ hmem
      cases hpid
      rw [mem_presentPids_isOk hpid'] at hgone
      cases hgone }

end Vitals.Sweep
