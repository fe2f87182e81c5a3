/-
The files of the process table that speak of the host as a whole.
-/
import Vitals.FileSystem
import Vitals.Proc.KeyValue
import Vitals.Proc.Rows
import Vitals.Rate

namespace Vitals.Proc

variable (fs : FileSystem) (root : Path)

/-- The text of a file, with the path it should have been at. -/
def readFile (path : Path) : Except CollectError String :=
  (fs.read path).mapError (.unreadable path)

/-- The uptime of the host. -/
def readUptime : Except CollectError Uptime := do
  let content ← readFile fs (root.join ⟨"uptime"⟩)
  let seconds ← (uptimeSeconds content).mapError .malformed
  return .ofTotalSeconds seconds

/-- The processor rows of the host, each read by itself. -/
def readCpuRows : Except CollectError (List (Except ParseError CpuTimes)) := do
  let content ← readFile fs (root.join ⟨"stat"⟩)
  return cpuRows content

/-- The amount that a field gives, zero if it is absent or malformed. -/
def amountOrZero (field : Except ParseError (Option UInt64)) : UInt64 :=
  match field with
  | .ok (some kb) => kb
  | _ => 0

/-- The failure of a field, if it failed. -/
def issueOf {α : Type} (field : Except ParseError α) : List ParseError :=
  match field with
  | .ok _ => []
  | .error e => [e]

/-- The memory that the fields of a file tell of. -/
def memoryOfFields (fields : Fields) : Reading Memory :=
  let total := fields.amount "MemTotal"
  let free := fields.amount "MemFree"
  let totalKb := amountOrZero total
  let freeKb := amountOrZero free
  { value := { totalKb, freeKb, usagePercent := Rate.memoryUsagePercent totalKb freeKb }
    issues := issueOf total ++ issueOf free }

/-- The memory of the host. -/
def readMemory : Except CollectError (Reading Memory) := do
  let content ← readFile fs (root.join ⟨"meminfo"⟩)
  return memoryOfFields (.parse content)

end Vitals.Proc
