/-
The percentages, each derived from counters in one formula. The formulas are
written over the rationals with the rounding of each operation as a parameter
`fl`: with the identity they are the formulas as they are meant, and with the
rounding of sixty-four bits they are computed digit for digit. What is
published is clamped to the range from 0 to 100.
-/
import Vitals.Duration
import Vitals.Snapshot

namespace Vitals.Rate

open Binary

-- ========================================================== formulas

section

variable (fl : Rat → Rat)

/-- A part in percent of a whole. -/
def share (part whole : Rat) : Rat := fl (fl (100 * part) / whole)

/-- The busy share of a processor between two samples: the clock ticks that were
not idle, in percent of those that passed. It is zero without a sample before,
and when the count of all ticks did not advance. An idle count that went back
counts as standing still, and never exceeds the ticks that passed. -/
def cpuUsage (before : Option Cpu) (idle total : UInt64) : Rat :=
  match before with
  | none => 0
  | some before =>
      let passed := total.toNat - before.totalJiffies.toNat
      let active := passed - (idle.toNat - before.idleJiffies.toNat)
      if passed = 0 then 0 else share fl (fl active) (fl passed)

/-- The used share of the memory; zero when the total is unknown. -/
def memoryUsage (totalKb freeKb : UInt64) : Rat :=
  if totalKb = 0 then 0
  else fl (100 - share fl (fl freeKb.toNat) (fl totalKb.toNat))

/-- The share of the memory that one process takes; zero when the total is
unknown. -/
def processMemory (memKb totalKb : UInt64) : Rat :=
  if totalKb = 0 then 0 else share fl (fl memKb.toNat) (fl totalKb.toNat)

/-- A span of time in seconds. -/
def seconds (d : Duration) : Rat :=
  fl (fl d.wholeSeconds + fl (fl d.subsecond / fl 1000000000))

/-- The share of an interval that a process was scheduled for: its clock ticks,
as many as sixty-four bits hold, over the ticks of a second, in percent of the
interval. It is zero when a second has no ticks or the interval no length. -/
def processCpu (utime stime ticks : UInt64) (interval : Duration) : Rat :=
  if ticks = 0 ∨ seconds fl interval ≤ 0 then 0
  else
    let scheduled := min (utime.toNat + stime.toNat) (UInt64.size - 1)
    share fl (fl (fl scheduled / fl ticks.toNat)) (seconds fl interval)

end

-- ========================================================= published

/-- A rational held between 0 and 100. -/
def clamped (q : Rat) : Rat := if q < 0 then 0 else if 100 < q then 100 else q

/-- A percentage held between 0 and 100 and rounded to thirty-two bits. What is
not a number becomes zero, and a zero keeps its sign. -/
def clampPercent (x : Binary double) : Binary single :=
  match x.value? with
  | some q => if 0 ≤ q ∧ q ≤ 100 then x.convert single else ofRat single (clamped q)
  | none => ofRat single (if x = .infinity false then 100 else 0)

/-- A percentage as it is published. -/
def published (q : Rat) : Binary single := clampPercent (ofRat double q)

/-- The increase of a counter, or nothing if it went back. -/
def increase? (now before : UInt64) : Option UInt64 :=
  if before ≤ now then some (now - before) else none

/-- The busy share of a processor row since the sample before. -/
def cpuUsagePercent (before : Option Cpu) (idle total : UInt64) : Binary single :=
  published (cpuUsage double.round before idle total)

/-- The used share of the memory. -/
def memoryUsagePercent (totalKb freeKb : UInt64) : Binary single :=
  published (memoryUsage double.round totalKb freeKb)

/-- The share of the memory that one process takes. -/
def processMemoryPercent (memKb totalKb : UInt64) : Binary single :=
  published (processMemory double.round memKb totalKb)

/-- The share of an interval that a process was scheduled for. -/
def processCpuPercent (utime stime ticks : UInt64) (interval : Duration) : Binary single :=
  published (processCpu double.round utime stime ticks interval)

end Vitals.Rate
