/-
The entries of the process table: which there are, and what the files of one
tell. An entry is a process while its status can be read; everything else about
it may be missing or malformed without disturbing the rest.
-/
import Vitals.Proc.Host

namespace Vitals.Proc

open Text

-- ====================================================== measurements

/-- How processes are measured: where the table is, how many clock ticks make a
second, and the interval that a share of a core is taken over. -/
structure Config where
  /-- The directory of the process table. -/
  root : Path := ⟨"/proc"⟩
  /-- The time between two sweeps. -/
  interval : Duration := .ofParts 1 0
  /-- Clock ticks in a second. -/
  ticks : UInt64 := 100
deriving DecidableEq, Repr

instance : Inhabited Config := ⟨{}⟩

variable (fs : FileSystem) (config : Config)

-- ========================================================= discovery

/-- The process that a path is the entry of: its last component is a run of
digits, and its status is there. -/
def entryPid? (entry : Path) : Option Int32 := do
  let name ← entry.fileName?
  let pid ← if name.toList.all Char.isDigit then signed32? name.toList else none
  if fs.contains (entry.join ⟨"status"⟩) then return pid else failure

/-- The processes of the table, in ascending order. -/
def discover : Except CollectError (List Int32) :=
  match fs.list config.root with
  | .error e => .error (.unreadable config.root e)
  | .ok entries => .ok ((entries.filterMap (entryPid? fs)).mergeSort (· ≤ ·))

-- ======================================================= one process

/-- The directory of a process. -/
def directoryOf (pid : Int32) : Path := config.root.join ⟨pidText pid⟩

/-- The value of a field, or what stands in for it. -/
def valueOr {α : Type} (default : α) (field : Except ParseError (Option α)) : α :=
  match field with
  | .ok (some x) => x
  | _ => default

/-- What the status of a process tells, for a host with so much memory. -/
def readStatus (pid : Int32) (totalKb : UInt64) (content : String) : Reading ProcessUsage :=
  let fields := Fields.parse content
  let own := fields.read signed32? "Pid"
  let parent := fields.read signed32? "PPid"
  let memory := fields.amount "VmSize"
  let process : ProcessUsage :=
    { (default : ProcessUsage) with
      pid := valueOr pid own
      ppid := valueOr 0 parent
      name := (fields["Name"]?).getD "" }
  { value := match memory with
      | .ok (some kb) =>
          { process with
            memUsageKb := kb
            memUsagePercent := Rate.processMemoryPercent kb totalKb }
      | _ => process
    issues := issueOf own ++ issueOf parent ++ issueOf memory }

/-- A process with what its scheduling line tells, if it can be read. -/
def withSchedule (stat : Except ReadFailure String) (reading : Reading ProcessUsage) :
    Reading ProcessUsage :=
  match stat with
  | .error _ => reading
  | .ok content =>
      match scheduledTimes content with
      | .ok times =>
          { reading with value :=
            { reading.value with
              utime := times.utime
              stime := times.stime
              cpuUsagePercent :=
                Rate.processCpuPercent times.utime times.stime config.ticks
                  config.interval } }
      | .error e => { reading with issues := reading.issues ++ [e] }

/-- A process with its command, if the command line can be read. -/
def withCommand (cmdline : Except ReadFailure String) (reading : Reading ProcessUsage) :
    Reading ProcessUsage :=
  match cmdline with
  | .error _ => reading
  | .ok content => { reading with value := { reading.value with command := commandName content } }

/-- One process. It is gone if its status cannot be read; fields that are
malformed are left at their defaults. -/
def collect (pid : Int32) (totalKb : UInt64) : Except CollectError (Reading ProcessUsage) :=
  let directory := directoryOf config pid
  match fs.read (directory.join ⟨"status"⟩) with
  | .error _ => .error (.processGone pid)
  | .ok content =>
      .ok (withCommand (fs.read (directory.join ⟨"cmdline"⟩))
        (withSchedule config (fs.read (directory.join ⟨"stat"⟩))
          (readStatus pid totalKb content)))

-- ===================================================== all processes

/-- What has been read of the table, with one process more: its reading, and what is
wrong with it under its number. A process that is gone is left out, and one that could
not be read for another cause is told of. -/
def withEntry (all : Reading (List ProcessUsage)) (pid : Int32) :
    Except CollectError (Reading ProcessUsage) → Reading (List ProcessUsage)
  | .ok reading =>
      { value := all.value ++ [reading.value]
        issues := all.issues ++ reading.issues.map (.inProcess pid) }
  | .error (.processGone _) => all
  | .error cause => { all with issues := all.issues ++ [.unreadProcess pid cause.message] }

/-- All processes of the table. A process that ends while they are read is left
out, and a field that is malformed is reported under the process it belongs
to. -/
def collectAll (totalKb : UInt64) : Except CollectError (Reading (List ProcessUsage)) := do
  let pids ← discover fs config
  return pids.foldl (fun all pid => withEntry all pid (collect fs config pid totalKb)) ⟨[], []⟩

/-- The files that are read for one process, in order: its status, and the
others if that can be read. -/
def filesOf (pid : Int32) : List Path :=
  let directory := directoryOf config pid
  let status := directory.join ⟨"status"⟩
  match fs.read status with
  | .ok _ => [status, directory.join ⟨"stat"⟩, directory.join ⟨"cmdline"⟩]
  | .error _ => [status]

end Vitals.Proc
