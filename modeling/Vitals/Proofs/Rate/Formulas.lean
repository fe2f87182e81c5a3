/-
The percentages in exact arithmetic, by their formulas.

# The processor rows

The formula of a row is a signed one: the ticks that passed less those that were
idle, in percent of the ticks that passed, where both counters may have moved
either way. What is worked out has no signs; each difference stops at zero. If
the idle counter went back, the signed share is more than 100 and the other one
is 100; if it moved further than the ticks that passed, the signed share is below
zero and the other one is zero. In between they are equal, so behind the clamp
they always are (`clamped_cpuUsage`).
-/
import Vitals.Proofs.Rate.Arithmetic

namespace Vitals.Rate

open Binary

/-- How far a counter has moved, forwards or back. -/
def movement (now before : UInt64) : Int := (now.toNat : Int) - before.toNat

/-- The busy share of a processor between two samples, by signed differences. -/
def signedUsage (before : Cpu) (idle total : UInt64) : Rat :=
  let passed := movement total before.totalJiffies
  100 * ((passed - movement idle before.idleJiffies : Int) : Rat) / (passed : Rat)

/-- Between the bounds, the share of a row whose ticks have gone up is the signed one. -/
theorem clamped_cpuUsage {before : Cpu} {total : UInt64} (h : before.totalJiffies < total)
    (idle : UInt64) :
    clamped (cpuUsage id (some before) idle total) = clamped (signedUsage before idle total) := by
  have hlt : before.totalJiffies.toNat < total.toNat := UInt64.lt_iff_toNat_lt.mp h
  unfold cpuUsage signedUsage movement share
  dsimp only [id]
  rw [if_neg (by omega)]
  generalize hpassed : total.toNat - before.totalJiffies.toNat = passed
  have hsigned : (total.toNat : Int) - before.totalJiffies.toNat = passed := by omega
  have hpos : (0 : Rat) < passed := by
    have : 0 < passed := by omega
    exact_mod_cast this
  rw [hsigned, Int.cast_natCast]
  rcases Nat.lt_or_ge idle.toNat before.idleJiffies.toNat with hback | hforth
  · -- the idle counter went back
    have hstill : idle.toNat - before.idleJiffies.toNat = 0 := by omega
    have hmore : (passed : Rat)
        ≤ ((passed - ((idle.toNat : Int) - before.idleJiffies.toNat) : Int) : Rat) := by
      have : (passed : Int) ≤ passed - ((idle.toNat : Int) - before.idleJiffies.toNat) := by omega
      exact_mod_cast this
    rw [hstill, Nat.sub_zero, clamped_of_le, clamped_of_le]
    · rw [le_div_iff₀ hpos]
      linarith
    · rw [le_div_iff₀ hpos]
  · rcases Nat.lt_or_ge passed (idle.toNat - before.idleJiffies.toNat) with hover | hwithin
    · -- it moved further than the ticks that passed
      have hnone : passed - (idle.toNat - before.idleJiffies.toNat) = 0 := by omega
      have hless : ((passed - ((idle.toNat : Int) - before.idleJiffies.toNat) : Int) : Rat)
          ≤ 0 := by
        have : (passed : Int) - ((idle.toNat : Int) - before.idleJiffies.toNat) ≤ 0 := by omega
        exact_mod_cast this
      rw [hnone, clamped_of_nonpos, clamped_of_nonpos]
      · exact div_nonpos_of_nonpos_of_nonneg (by linarith) hpos.le
      · simp
    · -- within the ticks that passed, the differences are the signed ones
      have hsame : ((passed - (idle.toNat - before.idleJiffies.toNat) : Nat) : Int)
          = passed - ((idle.toNat : Int) - before.idleJiffies.toNat) := by omega
      rw [← hsame, Int.cast_natCast]

/-- A row whose ticks have not gone up has no share, whatever the rounding. -/
theorem cpuUsage_of_le (fl : Rat → Rat) {before : Cpu} {total : UInt64}
    (h : total ≤ before.totalJiffies) (idle : UInt64) :
    cpuUsage fl (some before) idle total = 0 := by
  have hle : total.toNat ≤ before.totalJiffies.toNat := UInt64.le_iff_toNat_le.mp h
  unfold cpuUsage
  dsimp only
  rw [if_pos (by omega)]

/-- Without rounding, the used share of a memory is what its free share leaves. -/
theorem memoryUsage_id {totalKb : UInt64} (h : totalKb ≠ 0) (freeKb : UInt64) :
    memoryUsage id totalKb freeKb = 100 - 100 * freeKb.toNat / totalKb.toNat := by
  unfold memoryUsage
  rw [if_neg h]
  rfl

/-- Without rounding, the share of a process is its part of the total. -/
theorem processMemory_id {totalKb : UInt64} (h : totalKb ≠ 0) (memKb : UInt64) :
    processMemory id memKb totalKb = 100 * memKb.toNat / totalKb.toNat := by
  unfold processMemory
  rw [if_neg h]
  rfl

/-- A span of time in seconds is its nanoseconds in seconds. -/
theorem seconds_id (d : Duration) : seconds id d = d.nanoseconds / 1000000000 := by
  have hparts : (d.nanoseconds : Rat)
      = 1000000000 * (d.nanoseconds / 1000000000 : Nat) + (d.nanoseconds % 1000000000 : Nat) := by
    exact_mod_cast (Nat.div_add_mod d.nanoseconds 1000000000).symm
  unfold seconds Duration.wholeSeconds Duration.subsecond
  dsimp only [id]
  rw [hparts]
  ring

/-- Without rounding, the share of a process is its scheduled seconds over those of the
interval, as long as the sum of its ticks does not go beyond a word. -/
theorem processCpu_id {utime stime ticks : UInt64} {interval : Duration}
    (hsum : utime.toNat + stime.toNat < 2 ^ 64) (hticks : ticks ≠ 0)
    (hinterval : interval.nanoseconds ≠ 0) :
    processCpu id utime stime ticks interval
      = 100 * ((utime.toNat + stime.toNat) / ticks.toNat)
          / (interval.nanoseconds / 1000000000) := by
  have hlength : (0 : Rat) < interval.nanoseconds / 1000000000 := by
    have : 0 < interval.nanoseconds := by omega
    positivity
  have hmin : min (utime.toNat + stime.toNat) (UInt64.size - 1) = utime.toNat + stime.toNat := by
    have : UInt64.size = 2 ^ 64 := rfl
    omega
  unfold processCpu share
  rw [seconds_id, if_neg (by rintro (h | h); exacts [hticks h, not_le.mpr hlength h])]
  dsimp only [id]
  rw [hmin, Nat.cast_add]

/-- There is no share where a second has no ticks or the interval no length. -/
theorem processCpu_of_degenerate {utime stime ticks : UInt64} {interval : Duration}
    (h : ticks = 0 ∨ interval.nanoseconds = 0) :
    processCpu id utime stime ticks interval = 0 := by
  unfold processCpu
  rw [seconds_id, if_pos]
  rcases h with hticks | hinterval
  · exact .inl hticks
  · right
    rw [hinterval]
    norm_num

end Vitals.Rate
