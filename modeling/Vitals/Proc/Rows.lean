/-
The files that are read by column: the uptime, the processor rows at the head of
the host's counters, the scheduling line of a process, and its command line.
-/
import Vitals.Binary.Literal
import Vitals.Proc.Error
import Vitals.Snapshot
import Vitals.Text.Blank

namespace Vitals.Proc

open Binary Text

-- ============================================================ uptime

/-- The seconds since the host started, the first word of the uptime file. -/
def uptimeSeconds (content : String) : Except ParseError (Binary double) :=
  match words content.toList with
  | [] => .error .emptyUptime
  | word :: _ =>
      match ofLiteral? double word with
      | some t => .ok t
      | none => .error (.invalidUptime (.ofList word))

-- ==================================================== processor rows

/-- The counters in the columns of a row; the first that is none is named. -/
def jiffies (line : String) : List (List Char) → Except ParseError (List UInt64)
  | [] => .ok []
  | column :: columns =>
      match word64? column with
      | none => .error (.invalidJiffies (.ofList column) line)
      | some n => (jiffies line columns).map (n :: ·)

/-- The sum of counters, as much of it as sixty-four bits hold. -/
def cappedSum (counters : List UInt64) : UInt64 :=
  .ofNat (min (counters.foldr (fun counter total => counter.toNat + total) 0) (UInt64.size - 1))

/-- A processor row: its name and at least seven counters. The fourth is the
idle time, the first seven together are all time. -/
def cpuRow (line : String) : Except ParseError CpuTimes :=
  match words line.toList with
  | id :: columns =>
      if columns.length < 7 then .error (.missingColumns (columns.length + 1) line)
      else (jiffies line (columns.take 7)).map fun counters =>
        { id := .ofList id, idle := counters.getD 3 0, total := cappedSum counters }
  | [] => .error (.missingColumns 0 line)

/-- Whether a line is a processor row, well formed or not. -/
def isCpuLine (line : List Char) : Bool := ['c', 'p', 'u'].isPrefixOf line

/-- The processor rows at the head of a file, each read by itself. The first
line of another kind ends them. -/
def cpuRows (content : String) : List (Except ParseError CpuTimes) :=
  ((lines content.toList).takeWhile isCpuLine).map fun line => cpuRow (.ofList line)

-- ======================================================== scheduling

/-- The clock ticks that a process was scheduled for. -/
structure ScheduledTimes where
  /-- Ticks in user mode. -/
  utime : UInt64
  /-- Ticks in kernel mode. -/
  stime : UInt64
deriving DecidableEq, Repr

/-- The counter at a column. -/
def timeAt (columns : List (List Char)) (index : Nat) (field : TimeField) :
    Except ParseError UInt64 :=
  match columns[index]? with
  | none => .error (.missingTime field)
  | some column =>
      match word64? column with
      | some n => .ok n
      | none => .error (.invalidTime field)

/-- The counters of a scheduling line, the twelfth and the thirteenth column
behind the command name. A command name may hold anything, so the columns are
counted from the last parenthesis that closes. -/
def scheduledTimes (content : String) : Except ParseError ScheduledTimes :=
  match afterLast ')' (trim content.toList) with
  | none => .error .missingCommand
  | some rest => do
      let columns := words rest
      let utime ← timeAt columns 11 .utime
      let stime ← timeAt columns 12 .stime
      return { utime, stime }

-- ====================================================== command line

/-- The program as it was invoked: the first word of the command line, whose
arguments each end in a NUL. -/
def commandName (content : String) : String :=
  match words (content.toList.map fun c => if c = '\x00' then ' ' else c) with
  | [] => ""
  | word :: _ => .ofList word

end Vitals.Proc
