/-
The newest sample of each category. A category is replaced as a whole: a read
returns what the last write to its category left, and a write to one category
leaves the others alone. Two stores that answer every read alike are equal.

Processor rows stand in the order in which they are listed: the row of all cores
first, then the cores by their number, then rows of other names; a tie goes to
the lesser name, so no two rows are level.
-/
import Std.Data.ExtTreeMap
import Vitals.Snapshot

namespace Vitals

open Std (ExtTreeMap TransCmp LawfulEqCmp)

-- ================================================ order of the rows

/-- The rank of a row: the row of all cores, a core, or anything else. -/
def Cpu.rank (id : String) : Nat :=
  if id = "cpu" then 0
  else match coreIndex? id with
    | some _ => 1
    | none => 2

/-- The number of a core among the cores, and zero for all other rows. -/
def Cpu.place (id : String) : Nat :=
  if id = "cpu" then 0
  else match coreIndex? id with
    | some index => index.toNat
    | none => 0

/-- The order of processor rows: by rank, then by number, then by name. -/
def Cpu.order : String → String → Ordering :=
  compareLex (compareOn Cpu.rank) (compareLex (compareOn Cpu.place) compare)

instance : TransCmp Cpu.order :=
  inferInstanceAs
    (TransCmp (compareLex (compareOn Cpu.rank) (compareLex (compareOn Cpu.place) compare)))

/-- Rows that are level have the same name. -/
instance : LawfulEqCmp Cpu.order where
  eq_of_compare {a b} h := by
    have h := (compareLex_eq_eq.mp h).2
    have h := (compareLex_eq_eq.mp h).2
    exact Std.LawfulEqCmp.eq_of_compare h

-- ============================================================= store

/-- The newest samples. -/
structure Store where
  /-- The uptime. -/
  uptime : Uptime
  /-- The memory. -/
  memory : Memory
  /-- The processor rows, by name. -/
  cpus : ExtTreeMap String Cpu Cpu.order
  /-- The processes, by number. -/
  processes : ExtTreeMap Int32 ProcessUsage

namespace Store

/-- The store before the first sweep. -/
def empty : Store := ⟨default, default, ∅, ∅⟩

instance : Inhabited Store := ⟨empty⟩

-- ============================================================ writes

/-- The rows of a list by name; the last row of a name stands. -/
def indexCpus (rows : List Cpu) : ExtTreeMap String Cpu Cpu.order :=
  .ofList (rows.map fun row => (row.id, row)) _

/-- The processes of a list by number; the last process of a number stands. -/
def indexProcesses (processes : List ProcessUsage) : ExtTreeMap Int32 ProcessUsage :=
  .ofList (processes.map fun process => (process.pid, process))

/-- The store with another uptime. -/
def setUptime (s : Store) (uptime : Uptime) : Store := { s with uptime }

/-- The store with another memory. -/
def setMemory (s : Store) (memory : Memory) : Store := { s with memory }

/-- The store with other processor rows in place of all it had. -/
def replaceCpus (s : Store) (rows : List Cpu) : Store := { s with cpus := indexCpus rows }

/-- The store with other processes in place of all it had. -/
def replaceProcesses (s : Store) (processes : List ProcessUsage) : Store :=
  { s with processes := indexProcesses processes }

-- ============================================================= reads

/-- The processor rows in their order. -/
def cpuList (s : Store) : List Cpu := s.cpus.values

/-- The names of the processor rows in their order. -/
def cpuIds (s : Store) : List String := s.cpuList.map (·.id)

/-- The processor row of a name. -/
def cpu? (s : Store) (id : String) : Option Cpu := s.cpus[id]?

/-- The processes by ascending number. -/
def processList (s : Store) : List ProcessUsage := s.processes.values

/-- The numbers of the processes, ascending. -/
def pids (s : Store) : List Int32 := s.processes.keys

/-- The process of a number. -/
def process? (s : Store) (pid : Int32) : Option ProcessUsage := s.processes[pid]?

end Store

end Vitals
