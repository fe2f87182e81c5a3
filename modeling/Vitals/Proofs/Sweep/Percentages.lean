/-
The percentages: what they are, and that they stay in their range wherever they
are stored.

A stored percentage need not be one of counters that are stored beside it. That of
a processor row is taken against a sample that the row has replaced, that of a
process perhaps of a total that is no longer there, and one that could not be
worked out is the zero that the sample started from. But some counters there are,
for a zero too (`exists_counters_of_mem_percentages`), and the range of a percentage
does not depend on which.
-/
import Vitals.Proofs.Rate.Formulas
import Vitals.Proofs.Sweep.Coherence

namespace Vitals

open Binary Proc Rate

-- ======================================================= percentages

/-- The percentages of a store: of the memory, of the processor rows, and of the
processes. -/
def Store.percentages (s : Store) : List (Binary single) :=
  s.memory.usagePercent :: s.cpuList.map (·.usagePercent)
    ++ s.processList.flatMap fun process => [process.memUsagePercent, process.cpuUsagePercent]

namespace Sweep

variable {config : Config}

/-- A share that is zero for want of counters is that of some counters as well. -/
theorem exists_counters_zero : ∃ c : Counters, zero single false = c.percent :=
  ⟨.memory 0 0, published_zero.symm⟩

/-- Every percentage of a coherent store is that of some counters. -/
theorem exists_counters_of_mem_percentages {s : Store} (hs : s.Coherent config)
    {x : Binary single} (hx : x ∈ s.percentages) : ∃ c : Counters, x = c.percent := by
  rw [Store.percentages, List.cons_append, List.mem_cons, List.mem_append, List.mem_map,
    List.mem_flatMap] at hx
  rcases hx with rfl | ⟨row, hrow, rfl⟩ | ⟨process, hprocess, hx⟩
  · exact ⟨.memory _ _, hs.memory⟩
  · have hstored := (mem_values_iff fun id row h => (hs.cpus id row h).1).mp hrow
    obtain ⟨-, hcoherent⟩ := hs.cpus _ _ hstored
    obtain ⟨before, hshare⟩ := hcoherent.share
    exact ⟨.cpu before _ _, hshare⟩
  · have hstored := (mem_values_iff fun pid process h => (hs.processes pid process h).1).mp hprocess
    obtain ⟨-, hcoherent⟩ := hs.processes _ _ hstored
    simp only [List.mem_cons, List.not_mem_nil, or_false] at hx
    rcases hx with rfl | rfl
    · obtain ⟨totalKb, hshare | ⟨-, hzero⟩⟩ := hcoherent.memoryShare
      · exact ⟨.footprint _ totalKb, hshare⟩
      · rw [hzero]
        exact exists_counters_zero
    · rcases hcoherent.scheduleShare with hshare | ⟨-, -, hzero⟩
      · exact ⟨.schedule _ _ _ _, hshare⟩
      · rw [hzero]
        exact exists_counters_zero

/-- The percentages of a coherent store are numbers from 0 to 100. -/
theorem value?_of_mem_percentages {s : Store} (hs : s.Coherent config) {x : Binary single}
    (hx : x ∈ s.percentages) : ∃ q, x.value? = some q ∧ 0 ≤ q ∧ q ≤ 100 := by
  obtain ⟨c, rfl⟩ := exists_counters_of_mem_percentages hs hx
  rw [value?_percent]
  exact Arithmetic.exists_percent? Arithmetic.sound_binary c

end Sweep

namespace Rate

open Arithmetic Proc Sweep

-- ================================================== exact percentages

/-- In exact arithmetic a percentage is its formula, brought between the bounds. -/
theorem exact_percent? (c : Counters) : exact.percent? c = some (clamped (c.formula id)) :=
  percent?_eq sound_exact c

theorem clamped_zero : clamped 0 = 0 := clamped_of_nonpos le_rfl

/-- The share of a row, in exact arithmetic. -/
theorem exact_percent?_cpu (before : Option Cpu) (idle total : UInt64) :
    exact.percent? (.cpu before idle total)
      = some (match before with
          | none => 0
          | some before =>
              if before.totalJiffies < total then clamped (signedUsage before idle total)
              else 0) := by
  rw [exact_percent?, Counters.formula]
  cases before with
  | none => exact congrArg some clamped_zero
  | some before =>
      dsimp only
      split
      · next hlt => rw [clamped_cpuUsage hlt]
      · next hge => rw [cpuUsage_of_le id (UInt64.not_lt.mp hge), clamped_zero]

/-- The used share of a memory, in exact arithmetic. -/
theorem exact_percent?_memory (totalKb freeKb : UInt64) :
    exact.percent? (.memory totalKb freeKb)
      = some (if totalKb = 0 then 0
          else clamped (100 - 100 * freeKb.toNat / totalKb.toNat)) := by
  rw [exact_percent?, Counters.formula]
  split
  · next hzero => rw [hzero, memoryUsage, if_pos rfl, clamped_zero]
  · next hsome => rw [memoryUsage_id hsome]

/-- The share of a process in the memory, in exact arithmetic. -/
theorem exact_percent?_footprint (memKb totalKb : UInt64) :
    exact.percent? (.footprint memKb totalKb)
      = some (if totalKb = 0 then 0 else clamped (100 * memKb.toNat / totalKb.toNat)) := by
  rw [exact_percent?, Counters.formula]
  split
  · next hzero => rw [hzero, processMemory, if_pos rfl, clamped_zero]
  · next hsome => rw [processMemory_id hsome]

/-- The share of a process in a core, in exact arithmetic, as long as a word holds its
ticks. -/
theorem exact_percent?_schedule {utime stime ticks : UInt64} {interval : Duration}
    (hsum : utime.toNat + stime.toNat < 2 ^ 64) (hticks : ticks ≠ 0)
    (hinterval : interval.nanoseconds ≠ 0) :
    exact.percent? (.schedule utime stime ticks interval)
      = some (clamped (100 * (utime.toNat + stime.toNat) / ticks.toNat
          / (interval.nanoseconds / 1000000000))) := by
  rw [exact_percent?, Counters.formula, processCpu_id hsum hticks hinterval, ← mul_div_assoc]

/-- There is none if a second has no ticks or the interval no length. -/
theorem exact_percent?_schedule_of_degenerate {utime stime ticks : UInt64} {interval : Duration}
    (h : ticks = 0 ∨ interval.nanoseconds = 0) :
    exact.percent? (.schedule utime stime ticks interval) = some 0 := by
  rw [exact_percent?, Counters.formula, processCpu_of_degenerate h, clamped_zero]

-- ======================================================= whole lives

/-- The percentages by their formulas, for all counters there are.

No division on the way to a percentage is one by zero, whether its operations are
exact or rounded as the formats have it, and either way it lies between 0 and 100;
the rounded one is what is published.

In exact arithmetic the share of a processor row is the signed formula behind the
clamp when the count of all ticks has advanced, and zero otherwise. The shares of
the memory are their formulas behind the clamp, and zero without a total. That of
the scheduled time is its formula behind the clamp as long as sixty-four bits hold
the sum of the ticks, and zero when a second has no ticks or the interval no length.

So every percentage of every store in a life, at every moment of it, is a number
from 0 to 100. -/
theorem percentages_follow_formulas :
    (∀ c : Counters, c.percent.value? = binary.percent? c
      ∧ (∃ q, binary.percent? c = some q ∧ 0 ≤ q ∧ q ≤ 100)
      ∧ ∃ q, exact.percent? c = some q ∧ 0 ≤ q ∧ q ≤ 100)
    ∧ (∀ before idle total, exact.percent? (.cpu before idle total)
        = some (match before with
            | none => 0
            | some before =>
                if before.totalJiffies < total then clamped (signedUsage before idle total)
                else 0))
    ∧ (∀ totalKb freeKb, exact.percent? (.memory totalKb freeKb)
        = some (if totalKb = 0 then 0
            else clamped (100 - 100 * freeKb.toNat / totalKb.toNat)))
    ∧ (∀ memKb totalKb, exact.percent? (.footprint memKb totalKb)
        = some (if totalKb = 0 then 0 else clamped (100 * memKb.toNat / totalKb.toNat)))
    ∧ (∀ utime stime ticks interval,
        (ticks = 0 ∨ interval.nanoseconds = 0 →
          exact.percent? (.schedule utime stime ticks interval) = some 0)
        ∧ (utime.toNat + stime.toNat < 2 ^ 64 → ticks ≠ 0 → interval.nanoseconds ≠ 0 →
          exact.percent? (.schedule utime stime ticks interval)
            = some (clamped (100 * (utime.toNat + stime.toNat) / ticks.toNat
                / (interval.nanoseconds / 1000000000)))))
    ∧ ∀ config fs turns,
        (∀ time, ∀ x ∈ (storeAt config fs turns time).percentages,
          ∃ q, x.value? = some q ∧ 0 ≤ q ∧ q ≤ 100)
        ∧ ∀ x ∈ (latest (history config fs turns)).percentages,
          ∃ q, x.value? = some q ∧ 0 ≤ q ∧ q ≤ 100 := by
  refine ⟨?_, exact_percent?_cpu, exact_percent?_memory, exact_percent?_footprint, ?_, ?_⟩
  · intro c
    exact ⟨value?_percent c, exists_percent? sound_binary c, exists_percent? sound_exact c⟩
  · intro utime stime ticks interval
    exact ⟨exact_percent?_schedule_of_degenerate, exact_percent?_schedule⟩
  · intro config fs turns
    constructor
    · intro time x hx
      exact value?_of_mem_percentages (coherent_storeAt config fs turns time) hx
    · intro x hx
      exact value?_of_mem_percentages (coherent_latest config fs turns) hx

end Rate

end Vitals
