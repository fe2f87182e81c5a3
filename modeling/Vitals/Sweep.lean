/-
A sweep: every category read in turn, and published as soon as it is read. A
phase whose source cannot be read leaves its category as it was and is named in
the report; whatever is malformed below that is left out or left at its default,
with a warning. The shares of the processor rows are taken against the rows of
the sweep before, and those of the processes against the memory that is in the
store by then.
-/
import Vitals.Proc.Entry
import Vitals.Sweep.Report
import Vitals.Sweep.Script

namespace Vitals.Sweep

open Proc

variable (fs : FileSystem) (config : Config)

-- ============================================================ uptime

/-- Reads and publishes the uptime. -/
def uptimePhase : Script Outcome :=
  match readUptime fs config.root with
  | .ok uptime => .setUptime uptime (pure {})
  | .error e => pure (.failure .uptime e)

-- ==================================================== processor rows

/-- The sample of a row, with its share since the sample before. -/
def sampleOf (before : Option Cpu) (times : CpuTimes) : Cpu where
  id := times.id
  idleJiffies := times.idle
  totalJiffies := times.total
  usagePercent := Rate.cpuUsagePercent before times.idle times.total

/-- Takes the sample of each row that is well formed against the row of its name
in the store, which still is that of the sweep before. -/
def sampleRows : List (Except ParseError CpuTimes) → Script (List Cpu)
  | [] => pure []
  | .error _ :: rows => sampleRows rows
  | .ok times :: rows =>
      .readCpu times.id fun before => do
        let samples ← sampleRows rows
        return sampleOf before times :: samples

/-- The failures of rows that are malformed. -/
def rowIssues (rows : List (Except ParseError CpuTimes)) : List ParseError :=
  rows.flatMap issueOf

/-- Reads and publishes the processor rows. -/
def cpuPhase : Script Outcome :=
  match readCpuRows fs config.root with
  | .error e => pure (.failure .cpu e)
  | .ok rows => do
      let samples ← sampleRows rows
      let issues := rowIssues rows
      .replaceCpus samples <| pure {
        report :=
          { cpus := samples.length, rowsSkipped := issues.length, warnings := issues.length }
        events := issues.map .malformedRow }

-- ============================================================ memory

/-- Reads and publishes the memory. -/
def memoryPhase : Script Outcome :=
  match Proc.readMemory fs config.root with
  | .error e => pure (.failure .memory e)
  | .ok reading =>
      .setMemory reading.value <| pure {
        report := { warnings := reading.issues.length }
        events := reading.issues.map .malformedMemory }

-- ========================================================= processes

/-- Reads and publishes the processes. -/
def processPhase : Script Outcome :=
  .readMemory fun memory =>
    match collectAll fs config memory.totalKb with
    | .error e => pure (.failure .processes e)
    | .ok reading =>
        .replaceProcesses reading.value <| pure {
          report :=
            { processes := reading.value.length, warnings := reading.issues.length }
          events := reading.issues.map .malformedProcess }

-- ============================================================= sweep

/-- The script of a phase. -/
def phase : Phase → Script Outcome
  | .uptime => uptimePhase fs config
  | .cpu => cpuPhase fs config
  | .memory => memoryPhase fs config
  | .processes => processPhase fs config

/-- The script of phases one after the other. -/
def phases : List Phase → Script Outcome
  | [] => pure {}
  | p :: ps => do
      let first ← phase fs config p
      let rest ← phases ps
      return first ++ rest

/-- The script of a sweep. -/
def script : Script Outcome := do
  let outcome ← phases fs config Phase.all
  return outcome.closed

/-- One sweep: what it tells, and the store it leaves. -/
def sweep (s : Store) : Outcome × Store := (script fs config).run s

-- ==================================================== sweeps that die

/-- The files that a phase reads, in order. -/
def filesRead : Phase → List Path
  | .uptime => [config.root.join ⟨"uptime"⟩]
  | .cpu => [config.root.join ⟨"stat"⟩]
  | .memory => [config.root.join ⟨"meminfo"⟩]
  | .processes =>
      match discover fs config with
      | .ok pids => pids.flatMap (filesOf fs config)
      | .error _ => []

/-- Whether a phase reads a path. -/
def reads (path : Path) (p : Phase) : Bool :=
  (filesRead fs config p).any fun file => file.Same path

/-- The store that a sweep leaves when it dies in reading a path. What it has
published by then stays; a sweep that does not read the path ends as usual. -/
def sweepDyingAt (path : Path) (s : Store) : Store :=
  ((phases fs config (Phase.all.takeWhile fun p => !reads fs config path p)).run s).2

end Vitals.Sweep
