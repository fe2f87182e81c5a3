/-
What a sweep tells about itself: the counts of its report, and its events in the
order in which they happened.
-/
import Vitals.Proc.Error

namespace Vitals.Sweep

-- ============================================================ phases

/-- The phases of a sweep, each for one category, in their order. -/
inductive Phase where
  | uptime
  | cpu
  | memory
  | processes
deriving DecidableEq, Repr

/-- The phases in the order in which a sweep goes through them. -/
def Phase.all : List Phase := [.uptime, .cpu, .memory, .processes]

/-- The name under which a report lists a phase. -/
def Phase.name : Phase → String
  | uptime => "uptime"
  | cpu => "cpu"
  | memory => "meminfo"
  | processes => "processes"

-- ============================================================ events

/-- What happens in a sweep. -/
inductive Event where
  /-- A phase could not read its source, and its category stays as it was. -/
  | phaseFailed (phase : Phase) (cause : CollectError)
  /-- A processor row was malformed, and is left out. -/
  | malformedRow (cause : ParseError)
  /-- A field of the memory was malformed. -/
  | malformedMemory (cause : ParseError)
  /-- A field of a process was malformed. -/
  | malformedProcess (cause : ParseError)
  /-- The sweep is over. -/
  | complete (cpus processes warnings : Nat)
deriving DecidableEq, Repr

-- ============================================================ report

/-- The counts of a sweep, or of a part of one. -/
structure Report where
  /-- Processor rows that were well formed. -/
  cpus : Nat := 0
  /-- Processor rows that were malformed. -/
  rowsSkipped : Nat := 0
  /-- Processes that were read. -/
  processes : Nat := 0
  /-- Rows and fields that were malformed. -/
  warnings : Nat := 0
  /-- The phases that failed. -/
  failed : List Phase := []
deriving DecidableEq, Repr

instance : Inhabited Report := ⟨{}⟩

/-- The report of two parts, the first before the second. -/
def Report.append (a b : Report) : Report where
  cpus := a.cpus + b.cpus
  rowsSkipped := a.rowsSkipped + b.rowsSkipped
  processes := a.processes + b.processes
  warnings := a.warnings + b.warnings
  failed := a.failed ++ b.failed

instance : Append Report := ⟨Report.append⟩

/-- What a sweep, or a part of one, tells. -/
structure Outcome where
  /-- Its counts. -/
  report : Report := {}
  /-- Its events. -/
  events : List Event := []
deriving DecidableEq, Repr

instance : Inhabited Outcome := ⟨{}⟩

/-- What two parts tell together, the first before the second. -/
def Outcome.append (a b : Outcome) : Outcome := ⟨a.report ++ b.report, a.events ++ b.events⟩

instance : Append Outcome := ⟨Outcome.append⟩

/-- What is told of a phase that failed. -/
def Outcome.failure (phase : Phase) (cause : CollectError) : Outcome where
  report := { failed := [phase] }
  events := [.phaseFailed phase cause]

/-- The same with the event that closes a sweep. -/
def Outcome.closed (o : Outcome) : Outcome :=
  { o with events :=
      o.events ++ [.complete o.report.cpus o.report.processes o.report.warnings] }

end Vitals.Sweep
