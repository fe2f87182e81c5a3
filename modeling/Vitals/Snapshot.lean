/-
The samples that a sweep publishes: one of the uptime, one of the memory, one
for each processor row and one for each process. A sample carries what was read
and what follows from it, and no history.
-/
import Vitals.Binary.Basic
import Vitals.Text.Cut
import Vitals.Text.Numeral

namespace Vitals

open Binary Text

-- ============================================================ uptime

/-- How long the host has been running. -/
structure Uptime where
  /-- Seconds since the host started, with their fraction. -/
  totalSeconds : Binary double
  /-- The whole hours among them. -/
  hours : UInt32
  /-- The whole minutes behind the hours. -/
  minutes : UInt8
  /-- The whole seconds behind the minutes. -/
  seconds : UInt8
deriving DecidableEq, Repr

/-- The whole seconds of an uptime: none unless it is finite and positive, and
never more than sixty-four bits hold. -/
def wholeSeconds (t : Binary double) : Nat :=
  match t.value? with
  | some q => if 0 < q then min q.floor.toNat (UInt64.size - 1) else 0
  | none => 0

namespace Uptime

/-- The uptime of so many seconds, broken down into hours, minutes and seconds.
The hours stop at the greatest number of thirty-two bits. -/
def ofTotalSeconds (t : Binary double) : Uptime :=
  let whole := wholeSeconds t
  { totalSeconds := t
    hours := .ofNat (min (whole / 3600) (UInt32.size - 1))
    minutes := .ofNat (whole % 3600 / 60)
    seconds := .ofNat (whole % 60) }

/-- The breakdown as hours, minutes and seconds of two digits or more. -/
def formatted (u : Uptime) : String :=
  .ofList (twoDigits u.hours.toNat ++ ':' :: twoDigits u.minutes.toNat
    ++ ':' :: twoDigits u.seconds.toNat)

instance : Inhabited Uptime := ⟨⟨zero double false, 0, 0, 0⟩⟩

end Uptime

-- ============================================================ memory

/-- The memory of the host. -/
structure Memory where
  /-- All of it, in kilobytes; zero when unknown. -/
  totalKb : UInt64
  /-- What is free of it, in kilobytes. -/
  freeKb : UInt64
  /-- The used share, between 0 and 100. -/
  usagePercent : Binary single
deriving DecidableEq, Repr

instance : Inhabited Memory := ⟨⟨0, 0, zero single false⟩⟩

-- ======================================================== processors

/-- The counters of one processor row. -/
structure CpuTimes where
  /-- The name of the row. -/
  id : String
  /-- Clock ticks spent idle. -/
  idle : UInt64
  /-- Clock ticks spent in any way. -/
  total : UInt64
deriving DecidableEq, Repr, Inhabited

/-- The sample of one processor row. -/
structure Cpu where
  /-- The name of the row. -/
  id : String
  /-- Clock ticks spent idle since the host started. -/
  idleJiffies : UInt64
  /-- Clock ticks spent in any way since the host started. -/
  totalJiffies : UInt64
  /-- The busy share since the sample before, between 0 and 100. -/
  usagePercent : Binary single
deriving DecidableEq, Repr

instance : Inhabited Cpu := ⟨⟨"", 0, 0, zero single false⟩⟩

/-- The number of the core that a row is named for; the row of all cores and
rows of other names have none. -/
def coreIndex? (id : String) : Option UInt32 :=
  (afterOpening ['c', 'p', 'u'] id.toList).bind word32?

-- ========================================================= processes

/-- The sample of one process. -/
structure ProcessUsage where
  /-- The number that the process reports for itself. -/
  pid : Int32
  /-- The number of its parent. -/
  ppid : Int32
  /-- Its name. -/
  name : String
  /-- The program as it was invoked. -/
  command : String
  /-- Its memory, in kilobytes. -/
  memUsageKb : UInt64
  /-- Its share of the host's memory, between 0 and 100. -/
  memUsagePercent : Binary single
  /-- Clock ticks scheduled in user mode. -/
  utime : UInt64
  /-- Clock ticks scheduled in kernel mode. -/
  stime : UInt64
  /-- Its share of a core over one interval, between 0 and 100. -/
  cpuUsagePercent : Binary single
deriving DecidableEq, Repr

instance : Inhabited ProcessUsage :=
  ⟨⟨0, 0, "", "", 0, zero single false, 0, 0, zero single false⟩⟩

end Vitals
