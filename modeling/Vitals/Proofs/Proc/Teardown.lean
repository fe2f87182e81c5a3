/-
What a process takes with it when it goes.

A process is torn down path by path. Its directory goes or its status, or first a file that
is read beside the status, and the table is read in between as if nothing had happened.

Without its status a process is gone, and what is read of the table is what was read of the
others (`collectEach_remove_of_gone`). Without one of the two other files it is read as
before but for a step behind the reading, which puts the defaults back for what that file
told (`collect_remove_stat`, `collect_remove_cmdline`). A failure in a scheduling line is
told from one in a status by its kind, so it is precisely the failures of the line that
are missing with the line.

What is wrong with the processes is told in one list, and there it is told apart by the
number that its wording opens with (`toldUnder_inProcess`).
-/
import Vitals.Proofs.Proc.Groups
import Vitals.Proofs.Proc.Removal

namespace Vitals.Proc

open Vitals.Path (IsName)
open Text

variable {t : Tree} {config : Config} {p : Path} {pids pids' : List Int32} {pid : Int32}
  {totalKb : UInt64}

-- ============================================================ readings

variable {fs fs' : FileSystem}

/-- Collecting some of the pids is keeping their entries. -/
theorem filter_collectEach (keep : Int32 → Bool) (pids : List Int32) :
    (collectEach fs config totalKb pids).filter (fun e => keep e.1)
      = collectEach fs config totalKb (pids.filter keep) := by
  rw [collectEach, collectEach, List.filter_filterMap, List.filterMap_filter]
  refine List.filterMap_congr fun pid _ => ?_
  cases collect fs config pid totalKb with
  | error cause => simp
  | ok reading => simp [Option.filter]

/-- Where each process is read as before but for one step behind it, so are all. -/
theorem collectEach_eq_map {f : Int32 → Reading ProcessUsage → Reading ProcessUsage}
    (h : ∀ pid, collect fs' config pid totalKb = (collect fs config pid totalKb).map (f pid))
    (pids : List Int32) :
    collectEach fs' config totalKb pids
      = (collectEach fs config totalKb pids).map fun e => (e.1, f e.1 e.2) := by
  rw [collectEach, collectEach, List.map_filterMap]
  refine List.filterMap_congr fun pid _ => ?_
  rw [h]
  cases collect fs config pid totalKb with
  | error cause => rfl
  | ok reading => rfl

-- ====================================================== without a file

theorem read_remove_self (p : Path) :
    (t.remove p).fileSystem.read p = .error (.fileNotFound p) := by
  show (t.remove p).read p = _
  rw [Tree.read_remove, if_pos List.prefix_rfl]

/-- Removing one file of a process leaves the others. -/
theorem read_remove_file {file name : String} (hfile : IsName file) (hname : IsName name)
    (hne : file ≠ name) :
    (t.remove ((directoryOf config pid).join ⟨file⟩)).fileSystem.read
        ((directoryOf config pid).join ⟨name⟩)
      = t.fileSystem.read ((directoryOf config pid).join ⟨name⟩) := by
  show (t.remove _).read _ = t.read _
  rw [Tree.read_remove, key_file config pid hfile, key_file config pid hname, if_neg]
  rw [List.prefix_append_right_inj, List.cons_prefix_cons, List.cons_prefix_cons]
  intro h
  exact hne h.2.1

/-- A sample without what a scheduling line tells. -/
def unscheduled (u : ProcessUsage) : ProcessUsage :=
  { u with
    utime := (default : ProcessUsage).utime
    stime := (default : ProcessUsage).stime
    cpuUsagePercent := (default : ProcessUsage).cpuUsagePercent }

/-- A sample without what a command line tells. -/
def uncommanded (u : ProcessUsage) : ProcessUsage :=
  { u with command := (default : ProcessUsage).command }

/-- What is wrong with a scheduling line, if it can be read. -/
def scheduleIssues (fs : FileSystem) (config : Config) (pid : Int32) : List ParseError :=
  (timesIn (fs.read ((directoryOf config pid).join ⟨"stat"⟩))).issues

/-- A reading without what a scheduling line told, and without what was wrong with it. -/
def withoutSchedule (causes : List ParseError) (reading : Reading ProcessUsage) :
    Reading ProcessUsage where
  value := unscheduled reading.value
  issues := reading.issues.filter (· ∉ causes)

/-- A reading without what a command line told. -/
def withoutCommand (reading : Reading ProcessUsage) : Reading ProcessUsage where
  value := uncommanded reading.value
  issues := reading.issues

-- ================================================ failures of a line

/-- Whether a failure is one of a scheduling line. -/
def isOfSchedule : ParseError → Bool
  | .missingCommand => true
  | .missingTime _ => true
  | .invalidTime _ => true
  | _ => false

/-- An unreadable time is told as one of the schedule. -/
theorem isOfSchedule_of_timeAt {columns : List (List Char)} {index : Nat} {field : TimeField}
    {cause : ParseError} (h : timeAt columns index field = .error cause) :
    isOfSchedule cause = true := by
  unfold timeAt at h
  split at h
  · cases h
    rfl
  · split at h
    · cases h
    · cases h
      rfl

/-- Unreadable times are told as those of the schedule. -/
theorem isOfSchedule_of_scheduledTimes {content : String} {cause : ParseError}
    (h : scheduledTimes content = .error cause) : isOfSchedule cause = true := by
  unfold scheduledTimes at h
  split at h
  · cases h
    rfl
  · next rest hrest =>
      dsimp only at h
      cases hutime : timeAt (words rest) 11 .utime with
      | error cause' =>
          rw [hutime] at h
          cases h
          exact isOfSchedule_of_timeAt hutime
      | ok utime =>
          rw [hutime] at h
          cases hstime : timeAt (words rest) 12 .stime with
          | error cause' =>
              rw [hstime] at h
              cases h
              exact isOfSchedule_of_timeAt hstime
          | ok stime =>
              rw [hstime] at h
              cases h

/-- Every issue of the times is one of the schedule. -/
theorem isOfSchedule_of_mem_timesIn {stat : Except ReadFailure String} {cause : ParseError}
    (h : cause ∈ (timesIn stat).issues) : isOfSchedule cause = true := by
  unfold timesIn at h
  split at h
  · cases h
  · split at h
    · cases h
    · next cause' htimes =>
        rw [List.mem_singleton.mp h]
        exact isOfSchedule_of_scheduledTimes htimes

/-- No issue of a number is one of the schedule. -/
theorem isOfSchedule_of_mem_numberIn {key content : String} {cause : ParseError}
    (h : cause ∈ (numberIn key content).issues) : isOfSchedule cause = false := by
  unfold numberIn at h
  split at h
  · cases h
  · split at h
    · cases h
    · rw [List.mem_singleton.mp h]
      rfl

/-- No issue of an amount is one of the schedule. -/
theorem isOfSchedule_of_mem_amountIn {key content : String} {cause : ParseError}
    (h : cause ∈ (amountIn key content).issues) : isOfSchedule cause = false := by
  unfold amountIn at h
  split at h
  · cases h
  · next value =>
      split at h
      · cases h
      · next cause' hkb =>
          rw [List.mem_singleton.mp h]
          unfold kilobytes at hkb
          split at hkb
          · cases hkb
            rfl
          · split at hkb
            · cases hkb
            · cases hkb
              rfl

/-- No failure of a status is one of a scheduling line. -/
theorem notMem_timesIn {status : String} {cause : ParseError} {directory : Int32}
    (h : cause ∈ (readStatus directory totalKb status).issues)
    (stat : Except ReadFailure String) : cause ∉ (timesIn stat).issues := by
  have hstatus : isOfSchedule cause = false := by
    rw [Sweep.issues_readStatus, numberIssue_eq, numberIssue_eq, amountIssue_eq] at h
    simp only [List.mem_append] at h
    rcases h with (h | h) | h
    · exact isOfSchedule_of_mem_numberIn h
    · exact isOfSchedule_of_mem_numberIn h
    · exact isOfSchedule_of_mem_amountIn h
  intro hstat
  rw [isOfSchedule_of_mem_timesIn hstat] at hstatus
  cases hstatus

-- ============================================== steps behind a reading

/-- A sample has the defaults for a scheduling line that was not read. -/
theorem unscheduled_eq_self {u : ProcessUsage} (h : scheduleGroup u = scheduleGroup default) :
    unscheduled u = u := by
  rw [scheduleGroup, scheduleGroup, Prod.mk.injEq, Prod.mk.injEq] at h
  rw [unscheduled, ← h.1, ← h.2.1, ← h.2.2]

/-- Taking the schedule group out again gives the reading before it. -/
theorem withoutSchedule_withSchedule {reading : Reading ProcessUsage}
    (stat : Except ReadFailure String)
    (hvalue : scheduleGroup reading.value = scheduleGroup default)
    (hissues : ∀ cause ∈ reading.issues, cause ∉ (timesIn stat).issues) :
    withoutSchedule (timesIn stat).issues (withSchedule config stat reading) = reading := by
  have hself : reading.issues.filter (· ∉ (timesIn stat).issues) = reading.issues := by
    rw [List.filter_eq_self]
    intro cause hcause
    exact decide_eq_true (hissues cause hcause)
  have hunscheduled := unscheduled_eq_self hvalue
  unfold withSchedule
  split
  · rw [withoutSchedule, hself, hunscheduled]
  · next content =>
      cases htimes : scheduledTimes content with
      | ok times =>
          dsimp only
          rw [withoutSchedule, hself]
          exact congrArg (Reading.mk · reading.issues) hunscheduled
      | error cause =>
          -- what the line adds is its issue and nothing else
          have hfinding : (timesIn (.ok content)).issues = [cause] := by
            rw [timesIn, htimes]
            rfl
          dsimp only
          rw [withoutSchedule, List.filter_append, hself, hfinding, hunscheduled]
          simp

/-- The command group does not disturb the schedule group. -/
theorem withoutSchedule_withCommand (causes : List ParseError)
    (cmdline : Except ReadFailure String) (reading : Reading ProcessUsage) :
    withoutSchedule causes (withCommand cmdline reading)
      = withCommand cmdline (withoutSchedule causes reading) := by
  cases cmdline with
  | error e => rfl
  | ok content => rfl

/-- Taking the command out again gives the reading before it. -/
theorem withoutCommand_withCommand {reading : Reading ProcessUsage}
    (cmdline : Except ReadFailure String) (hvalue : reading.value.command = "") :
    withoutCommand (withCommand cmdline reading) = reading := by
  have hself : uncommanded reading.value = reading.value := by
    have hdefault : (default : ProcessUsage).command = "" := rfl
    rw [uncommanded, hdefault, ← hvalue]
  unfold withCommand
  split
  · rw [withoutCommand, hself]
  · exact congrArg (Reading.mk · reading.issues) hself

/-- A process whose status is as it was is read as before but for a step, if the two other
files make no more difference than that. -/
theorem collect_eq_map {f : Reading ProcessUsage → Reading ProcessUsage}
    (hstatus : fs'.read ((directoryOf config pid).join ⟨"status"⟩)
      = fs.read ((directoryOf config pid).join ⟨"status"⟩))
    (hfiles : ∀ status,
      withCommand (fs'.read ((directoryOf config pid).join ⟨"cmdline"⟩))
          (withSchedule config (fs'.read ((directoryOf config pid).join ⟨"stat"⟩))
            (readStatus pid totalKb status))
        = f (withCommand (fs.read ((directoryOf config pid).join ⟨"cmdline"⟩))
            (withSchedule config (fs.read ((directoryOf config pid).join ⟨"stat"⟩))
              (readStatus pid totalKb status)))) :
    collect fs' config pid totalKb = (collect fs config pid totalKb).map f := by
  cases hread : fs.read ((directoryOf config pid).join ⟨"status"⟩) with
  | error e =>
      rw [hread] at hstatus
      rw [Sweep.collect_of_unreadable hread, Sweep.collect_of_unreadable hstatus]
      rfl
  | ok status =>
      rw [hread] at hstatus
      rw [collect_of_status hread, collect_of_status hstatus, hfiles]
      rfl

/-- Without its scheduling line, a process is read as before but for what that told. -/
theorem collect_remove_stat (t : Tree) (config : Config) (pid : Int32) (totalKb : UInt64) :
    collect (t.remove ((directoryOf config pid).join ⟨"stat"⟩)).fileSystem config pid totalKb
      = (collect t.fileSystem config pid totalKb).map
          (withoutSchedule (scheduleIssues t.fileSystem config pid)) := by
  refine collect_eq_map (read_remove_file (by decide) (by decide) (by decide)) fun status => ?_
  rw [read_remove_self, read_remove_file (by decide) (by decide) (by decide),
    withoutSchedule_withCommand, scheduleIssues, withoutSchedule_withSchedule]
  · rfl
  · exact (@settled_readStatus config pid totalKb status).schedule
  · exact fun cause hcause => notMem_timesIn hcause _

/-- Without its command line, it is read as before but for the command. -/
theorem collect_remove_cmdline (t : Tree) (config : Config) (pid : Int32) (totalKb : UInt64) :
    collect (t.remove ((directoryOf config pid).join ⟨"cmdline"⟩)).fileSystem config pid totalKb
      = (collect t.fileSystem config pid totalKb).map withoutCommand := by
  refine collect_eq_map (read_remove_file (by decide) (by decide) (by decide)) fun status => ?_
  rw [read_remove_self, read_remove_file (by decide) (by decide) (by decide),
    withoutCommand_withCommand]
  · rfl
  · exact ((@settled_readStatus config pid totalKb status).withSchedule _).command

/-- Where one process is read as before but for a step behind it, and all others as before,
what is read of the table has that step for this process alone. -/
theorem collectEach_remove_file {file : String} (hfile : IsName file)
    {f : Reading ProcessUsage → Reading ProcessUsage}
    (hself : collect (t.remove ((directoryOf config pid).join ⟨file⟩)).fileSystem config pid totalKb
      = (collect t.fileSystem config pid totalKb).map f) (pids : List Int32) :
    collectEach (t.remove ((directoryOf config pid).join ⟨file⟩)).fileSystem config totalKb pids
      = (collectEach t.fileSystem config totalKb pids).map fun e =>
          (e.1, if e.1 = pid then f e.2 else e.2) := by
  refine collectEach_eq_map (f := fun other reading => if other = pid then f reading else reading)
    (fun other => ?_) pids
  by_cases hother : other = pid
  · rw [hother, hself]
    simp only [if_true]
  · rw [collect_remove_of_ne (isAtOrBelow_file config pid hfile) hother]
    simp only [if_neg hother]
    cases collect t.fileSystem config other totalKb with
    | error cause => rfl
    | ok reading => rfl

-- ================================================== without the status

/-- A process without its status is left out, and all others are read as before. -/
theorem collectEach_remove_of_gone (ht : t.Spelled)
    (hpids : discover t.fileSystem config = .ok pids)
    (hpids' : discover (t.remove p).fileSystem config = .ok pids')
    (hp : (directoryOf config pid).IsAtOrBelow p)
    (hstatus : p.key <+: ((directoryOf config pid).join ⟨"status"⟩).key) :
    collectEach (t.remove p).fileSystem config totalKb pids'
      = (collectEach t.fileSystem config totalKb pids).filter (·.1 ≠ pid) := by
  have hunread : (t.remove p).fileSystem.read ((directoryOf config pid).join ⟨"status"⟩)
      = .error (.fileNotFound ((directoryOf config pid).join ⟨"status"⟩)) := by
    show (t.remove p).read _ = _
    rw [Tree.read_remove, if_pos hstatus]
  -- the process is not read again, even if its number is still listed
  have hout : ∀ e ∈ collectEach (t.remove p).fileSystem config totalKb pids',
      decide (e.1 ≠ pid) = true := by
    intro e he
    have hcollect := ((mem_collectEach _ config).mp he).2
    refine decide_eq_true fun hpid => ?_
    rw [hpid, Sweep.collect_of_unreadable hunread] at hcollect
    cases hcollect
  calc collectEach (t.remove p).fileSystem config totalKb pids'
      = (collectEach (t.remove p).fileSystem config totalKb pids').filter (·.1 ≠ pid) :=
        (List.filter_eq_self.mpr hout).symm
    _ = collectEach (t.remove p).fileSystem config totalKb (pids'.filter (· ≠ pid)) :=
        filter_collectEach (· ≠ pid) pids'
    _ = collectEach (t.remove p).fileSystem config totalKb (pids.filter (· ≠ pid)) := by
        rw [filter_discover_remove hp ht hpids hpids']
    _ = collectEach t.fileSystem config totalKb (pids.filter (· ≠ pid)) := by
        refine List.filterMap_congr fun other hother => ?_
        rw [collect_remove_of_ne hp (of_decide_eq_true (List.mem_filter.mp hother).2)]
    _ = (collectEach t.fileSystem config totalKb pids).filter (·.1 ≠ pid) :=
        (filter_collectEach (· ≠ pid) pids).symm

-- ============================================================== issues

/-- A failure is worded as one of a process: it opens with the number of that process. -/
def ToldUnder (pid : Int32) (issue : ParseError) : Prop :=
  ("pid " ++ pidText pid ++ ": ").toList <+: issue.detail.toList

instance (pid : Int32) (issue : ParseError) : Decidable (ToldUnder pid issue) := by
  unfold ToldUnder
  infer_instance

theorem notMem_pidText (pid : Int32) : ':' ∉ (pidText pid).toList := by
  intro h
  exact absurd (of_mem_pidText h) (by decide)

theorem toList_told (pid : Int32) :
    ("pid " ++ pidText pid ++ ": ").toList
      = "pid ".toList ++ ((pidText pid).toList ++ ':' :: [' ']) := by
  rw [String.toList_append, String.toList_append, List.append_assoc]
  rfl

/-- A failure in the files of a process opens with the number of no other, not even with one
that opens this number. -/
theorem toldUnder_inProcess {pid directory : Int32} {cause : ParseError} :
    ToldUnder pid (.inProcess directory cause) ↔ directory = pid := by
  have htext : (ParseError.inProcess directory cause).detail.toList
      = "pid ".toList ++ ((pidText directory).toList ++ ':' :: (' ' :: cause.detail.toList)) := by
    show ("pid " ++ pidText directory ++ ": " ++ cause.detail).toList = _
    rw [String.toList_append, toList_told, List.append_assoc, List.append_assoc]
    rfl
  rw [ToldUnder, htext, toList_told, List.prefix_append_right_inj]
  constructor
  · rintro ⟨rest, hrest⟩
    rw [List.append_assoc] at hrest
    -- a number ends before the first colon
    have hcut := congrArg (cut ':') hrest
    have hpid := cut_append_cons (notMem_pidText pid) (' ' :: rest)
    have hdirectory := cut_append_cons (notMem_pidText directory) (' ' :: cause.detail.toList)
    have hnumber := (Prod.mk.inj (Option.some.inj (hpid.symm.trans (hcut.trans hdirectory)))).1
    exact pidText_inj.mp (String.toList_inj.mp hnumber.symm)
  · rintro rfl
    rw [List.prefix_append_right_inj]
    exact ⟨cause.detail.toList, rfl⟩

/-- Leaving a pid out takes away the issues told under it. -/
theorem issues_filter_ne (pid : Int32) (entries : List (Int32 × Reading ProcessUsage)) :
    (gathered (entries.filter (·.1 ≠ pid))).issues
      = (gathered entries).issues.filter fun issue => ¬ ToldUnder pid issue := by
  show (entries.filter (·.1 ≠ pid)).flatMap _ = (entries.flatMap _).filter _
  rw [List.filter_flatMap]
  induction entries with
  | nil => rfl
  | cons e entries ih =>
      rw [List.flatMap_cons, ← ih, List.filter_map]
      by_cases hpid : e.1 = pid
      · simp [hpid, Function.comp_def, toldUnder_inProcess]
      · simp [hpid, Function.comp_def, toldUnder_inProcess]

/-- Without a scheduling line, what was wrong with it is not told, and nothing else is
missing. -/
theorem issues_withoutSchedule (pid : Int32) (causes : List ParseError)
    (entries : List (Int32 × Reading ProcessUsage)) :
    (gathered (entries.map fun e =>
        (e.1, if e.1 = pid then withoutSchedule causes e.2 else e.2))).issues
      = (gathered entries).issues.filter (· ∉ causes.map (.inProcess pid)) := by
  show (entries.map _).flatMap _ = (entries.flatMap _).filter _
  rw [List.filter_flatMap, List.flatMap_map]
  refine List.flatMap_congr fun e _ => ?_
  rw [List.filter_map]
  by_cases hpid : e.1 = pid
  · rw [if_pos hpid, withoutSchedule, hpid]
    have hinjective : Function.Injective (ParseError.inProcess pid) :=
      fun _ _ hcause => (ParseError.inProcess.inj hcause).2
    refine congrArg (List.map _) (List.filter_congr fun cause _ => ?_)
    simp only [Function.comp_apply, List.mem_map_of_injective hinjective]
  · rw [if_neg hpid]
    simp [Function.comp_def, Ne.symm hpid]

/-- Taking a command out takes no issue away. -/
theorem issues_withoutCommand (pid : Int32) (entries : List (Int32 × Reading ProcessUsage)) :
    (gathered (entries.map fun e =>
        (e.1, if e.1 = pid then withoutCommand e.2 else e.2))).issues
      = (gathered entries).issues := by
  show (entries.map _).flatMap _ = entries.flatMap _
  rw [List.flatMap_map]
  refine List.flatMap_congr fun e _ => ?_
  by_cases hpid : e.1 = pid
  · rw [if_pos hpid]
    rfl
  · rw [if_neg hpid]

/-- A step behind the reading of one process is a step on its value. -/
theorem value_gathered_map {f : Reading ProcessUsage → Reading ProcessUsage}
    {g : ProcessUsage → ProcessUsage} (hf : ∀ reading, (f reading).value = g reading.value)
    (pid : Int32) (entries : List (Int32 × Reading ProcessUsage)) :
    (gathered (entries.map fun e => (e.1, if e.1 = pid then f e.2 else e.2))).value
      = entries.map fun e => if e.1 = pid then g e.2.value else e.2.value := by
  rw [gathered, List.map_map]
  refine List.map_congr_left fun e _ => ?_
  show (if e.1 = pid then f e.2 else e.2).value = _
  rw [apply_ite Reading.value, hf]

-- ============================================================= teardown

/-- A table outlasts a process: whatever is removed of the process, the rest of the table is
read as it was, in the same order. -/
structure Outlasts (t : Tree) (config : Config) (totalKb : UInt64) (pid : Int32)
    (entries : List (Int32 × Reading ProcessUsage)) (reading : Reading (List ProcessUsage)) :
    Prop where
  /-- Without its directory or its status, it is left out with all that was wrong with it. -/
  gone : ∀ path,
    path = directoryOf config pid ∨ path = (directoryOf config pid).join ⟨"status"⟩ →
    collectAll (t.remove path).fileSystem config totalKb = .ok {
      value := (entries.filter (·.1 ≠ pid)).map (·.2.value)
      issues := reading.issues.filter fun issue => ¬ ToldUnder pid issue }
  /-- Without its scheduling line, it has the defaults for that, and what was wrong with the
  line is not told. -/
  stat :
    collectAll (t.remove ((directoryOf config pid).join ⟨"stat"⟩)).fileSystem config totalKb
      = .ok {
        value := entries.map fun e =>
          if e.1 = pid then unscheduled e.2.value else e.2.value
        issues := reading.issues.filter
          (· ∉ (scheduleIssues t.fileSystem config pid).map (.inProcess pid)) }
  /-- Without its command line, it has no command. -/
  cmdline :
    collectAll (t.remove ((directoryOf config pid).join ⟨"cmdline"⟩)).fileSystem config totalKb
      = .ok {
        value := entries.map fun e =>
          if e.1 = pid then uncommanded e.2.value else e.2.value
        issues := reading.issues }
  /-- No other process is read in another way, whatever is removed in the directory. -/
  others : ∀ path, (directoryOf config pid).IsAtOrBelow path → ∀ other, other ≠ pid →
    collect (t.remove path).fileSystem config other totalKb
      = collect t.fileSystem config other totalKb
  /-- Nothing that is removed anywhere makes anything wrong. -/
  quiet : ∀ path reading',
    collectAll (t.remove path).fileSystem config totalKb = .ok reading' →
      reading'.issues.Sublist reading.issues

/-- Whatever a tree in memory has been made of: as long as its table can be listed, a process
that is torn down in it disturbs only itself. What was read of the table is read again,
without the process if its directory or its status is removed, and with defaults for what
one of its other files told if that is removed. -/
theorem teardown_disturbs_only_itself (edits : List Tree.Edit) (config : Config) (pid : Int32)
    (totalKb : UInt64) (reading : Reading (List ProcessUsage))
    (h : collectAll (edits.foldl Tree.apply .empty).fileSystem config totalKb = .ok reading) :
    ∃ pids, discover (edits.foldl Tree.apply .empty).fileSystem config = .ok pids
      ∧ reading = gathered
          (collectEach (edits.foldl Tree.apply .empty).fileSystem config totalKb pids)
      ∧ Outlasts (edits.foldl Tree.apply .empty) config totalKb pid
          (collectEach (edits.foldl Tree.apply .empty).fileSystem config totalKb pids) reading := by
  have ht : (edits.foldl Tree.apply .empty).Spelled := Tree.spelled_empty.foldl_apply edits
  -- of how the tree was made only the spelling of its keys is used
  generalize edits.foldl Tree.apply .empty = t at h ht ⊢
  obtain ⟨pids, hpids, rfl⟩ := (collectAll_eq_ok_iff _ config).mp h
  refine ⟨pids, hpids, rfl, ?_⟩
  exact {
    gone := by
      intro path hpath
      -- either path is at or below the directory, and takes the status with it
      obtain ⟨hwithin, hstatus⟩ : (directoryOf config pid).IsAtOrBelow path
          ∧ path.key <+: ((directoryOf config pid).join ⟨"status"⟩).key := by
        have hbelow := isAtOrBelow_file config pid (by decide : IsName "status")
        rcases hpath with hpath | hpath
        · rw [hpath]
          exact ⟨List.prefix_rfl, hbelow⟩
        · rw [hpath]
          exact ⟨hbelow, List.prefix_rfl⟩
      obtain ⟨pids', hpids'⟩ := exists_discover_remove ht hpids (root_kept hwithin)
      have hentries :=
        @collectEach_remove_of_gone _ _ _ _ _ _ totalKb ht hpids hpids' hwithin hstatus
      rw [collectAll_eq_ok_iff]
      refine ⟨pids', hpids', ?_⟩
      rw [hentries, ← issues_filter_ne]
      rfl
    stat := by
      rw [collectAll_eq_ok_iff]
      refine ⟨pids, discover_remove_file ht hpids (by decide) (by decide), ?_⟩
      rw [collectEach_remove_file (by decide) (collect_remove_stat t config pid totalKb),
        ← issues_withoutSchedule,
        ← value_gathered_map (f := withoutSchedule (scheduleIssues t.fileSystem config pid))
          (g := unscheduled) fun _ => rfl]
    cmdline := by
      rw [collectAll_eq_ok_iff]
      refine ⟨pids, discover_remove_file ht hpids (by decide) (by decide), ?_⟩
      rw [collectEach_remove_file (by decide) (collect_remove_cmdline t config pid totalKb),
        ← issues_withoutCommand pid,
        ← value_gathered_map (f := withoutCommand) (g := uncommanded) fun _ => rfl]
    others := fun path hwithin other hne => collect_remove_of_ne hwithin hne totalKb
    quiet := fun path reading' h' => issues_collectAll_remove ht h h' }

/-- Two processes, of which the number of one opens that of the other, and something is wrong
with both. -/
def siblings : List Tree.Edit :=
  [.addProcess 1 "Pid: 1\n" "1 (init" "init", .addProcess 10 "PPid: none\n" "" ""]

theorem discover_siblings :
    discover (siblings.foldl Tree.apply .empty).fileSystem {} = .ok [1, 10] := by
  have hspelled := Tree.spelled_empty.foldl_apply siblings
  have hlists := @Tree.Spelled.lists _ hspelled ⟨"/proc"⟩ (by decide +kernel)
  exact @discover_eq_of_pairwise _ {} _ _ hlists (by decide +kernel) (by decide)

/-- The first of them leaves the other as it was, and what was wrong with it. -/
theorem first_of_siblings_goes_alone :
    ∃ reading,
      collectAll (siblings.foldl Tree.apply .empty).fileSystem {} 0 = .ok reading
      ∧ reading.issues = [.inProcess 1 .missingCommand, .inProcess 10 (.invalidField "PPid" "none")]
      ∧ ∃ reading',
        collectAll ((siblings.foldl Tree.apply .empty).remove ⟨"/proc/1"⟩).fileSystem {} 0
          = .ok reading'
        ∧ reading'.value.map (·.pid) = [10]
        ∧ reading'.issues = [.inProcess 10 (.invalidField "PPid" "none")] := by
  have hread : collectAll (siblings.foldl Tree.apply .empty).fileSystem {} 0
      = .ok (gathered (collectEach (siblings.foldl Tree.apply .empty).fileSystem {} 0 [1, 10])) :=
    (collectAll_eq_ok_iff _ {}).mpr ⟨_, discover_siblings, rfl⟩
  obtain ⟨pids, hpids, -, houtlasts⟩ := teardown_disturbs_only_itself siblings {} 1 0 _ hread
  rw [discover_siblings] at hpids
  cases hpids
  refine ⟨_, hread, by decide +kernel, _, houtlasts.gone ⟨"/proc/1"⟩ (.inl (by decide)), ?_, ?_⟩
  · decide +kernel
  · decide +kernel

end Vitals.Proc
