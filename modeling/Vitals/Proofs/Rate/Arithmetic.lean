/-
The percentages in an arithmetic of choice. `percent?` works a percentage out
from its counters step by step: differences in words of sixty-four bits, whole
numbers brought into the arithmetic, a rounding after every operation, a division
that has no value when its divisor is zero, the clamp, and the conversion to
thirty-two bits. The arithmetic says what a rounding and a conversion do.

# Two arithmetics

In `binary` they are those of the formats, and `percent?` is the value of the
percentage that is published (`value?_percent`). In `exact` they do nothing, and
`percent?` is what the formula says. Both are `Sound`: no divisor that is not
zero is rounded to zero, and no conversion leaves the range from 0 to 100. That
is all it takes for every percentage to exist and to lie in that range
(`exists_percent?`), so the two are proved together.
-/
import Vitals.Proofs.Binary.Rounding
import Vitals.Rate

namespace Vitals.Rate

open Binary

-- ========================================================== percentages

/-- What a percentage is taken of. -/
inductive Counters where
  /-- A processor row, with its sample before if there is one. -/
  | cpu (before : Option Cpu) (idle total : UInt64)
  /-- The memory of the host. -/
  | memory (totalKb freeKb : UInt64)
  /-- The memory of a process. -/
  | footprint (memKb totalKb : UInt64)
  /-- The scheduled time of a process. -/
  | schedule (utime stime ticks : UInt64) (interval : Duration)

/-- The percentage of counters, as it is published. -/
def Counters.percent : Counters → Binary single
  | cpu before idle total => cpuUsagePercent before idle total
  | memory totalKb freeKb => memoryUsagePercent totalKb freeKb
  | footprint memKb totalKb => processMemoryPercent memKb totalKb
  | schedule utime stime ticks interval => processCpuPercent utime stime ticks interval

/-- The formula of a percentage, before the clamp. -/
def Counters.formula (fl : Rat → Rat) : Counters → Rat
  | cpu before idle total => cpuUsage fl before idle total
  | memory totalKb freeKb => memoryUsage fl totalKb freeKb
  | footprint memKb totalKb => processMemory fl memKb totalKb
  | schedule utime stime ticks interval => processCpu fl utime stime ticks interval

-- ============================================================= clamp

theorem clamped_nonneg (q : Rat) : 0 ≤ clamped q := by
  unfold clamped
  split
  · exact le_refl _
  · split
    · norm_num
    · linarith

theorem clamped_le (q : Rat) : clamped q ≤ 100 := by
  unfold clamped
  split
  · norm_num
  · split
    · exact le_refl _
    · linarith

theorem clamped_of_nonpos {q : Rat} (h : q ≤ 0) : clamped q = 0 := by
  unfold clamped
  split
  · rfl
  · rw [if_neg (by linarith)]
    linarith

theorem clamped_of_le {q : Rat} (h : 100 ≤ q) : clamped q = 100 := by
  unfold clamped
  rw [if_neg (by linarith)]
  split
  · rfl
  · linarith

-- ========================================================== arithmetics

/-- How exact results are kept. -/
structure Arithmetic where
  /-- What stands for a whole number, or for the exact result of an operation. -/
  round : Rat → Rat
  /-- What stands for a percentage that is published. -/
  narrow : Rat → Rat

namespace Arithmetic

/-- Results as they are. -/
def exact : Arithmetic := ⟨id, id⟩

/-- Results in sixty-four bits, published in thirty-two. -/
def binary : Arithmetic := ⟨double.round, single.round⟩

/-- An arithmetic that makes no zero of a count, and that keeps the range of a
percentage. -/
structure Sound (a : Arithmetic) : Prop where
  round_natCast_ne_zero : ∀ n : Nat, n ≠ 0 → a.round n ≠ 0
  narrow_zero : a.narrow 0 = 0
  narrow_mem : ∀ q, 0 ≤ q → q ≤ 100 → 0 ≤ a.narrow q ∧ a.narrow q ≤ 100

variable (a : Arithmetic)

/-- A quotient, if there is one. -/
def quotient? (x y : Rat) : Option Rat := if y = 0 then none else some (a.round (x / y))

/-- A part in percent of a whole. -/
def share? (part whole : Rat) : Option Rat := a.quotient? (a.round (100 * part)) whole

/-- A span of time in seconds. -/
def seconds? (d : Duration) : Option Rat :=
  (a.quotient? (a.round d.subsecond) (a.round 1000000000)).map fun rest =>
    a.round (a.round d.wholeSeconds + rest)

/-- A difference of counters, zero where it would go below. -/
def difference (now before : UInt64) : UInt64 := (increase? now before).getD 0

/-- A percentage before the clamp, if every division has a value. -/
def unclamped? : Counters → Option Rat
  | .cpu none _ _ => some 0
  | .cpu (some before) idle total =>
      match increase? total before.totalJiffies with
      | none => some 0
      | some passed =>
          let active := difference passed (difference idle before.idleJiffies)
          if passed = 0 then some 0
          else a.share? (a.round active.toNat) (a.round passed.toNat)
  | .memory totalKb freeKb =>
      if totalKb = 0 then some 0
      else (a.share? (a.round freeKb.toNat) (a.round totalKb.toNat)).map fun free =>
        a.round (100 - free)
  | .footprint memKb totalKb =>
      if totalKb = 0 then some 0
      else a.share? (a.round memKb.toNat) (a.round totalKb.toNat)
  | .schedule utime stime ticks interval => do
      let length ← a.seconds? interval
      if ticks = 0 ∨ length ≤ 0 then some 0
      else
        let scheduled := min (utime.toNat + stime.toNat) (UInt64.size - 1)
        let seconds ← a.quotient? (a.round scheduled) (a.round ticks.toNat)
        a.share? seconds length

/-- A percentage, if every division has a value. -/
def percent? (c : Counters) : Option Rat :=
  (a.unclamped? c).map fun q => a.narrow (clamped q)

-- ========================================================== soundness

/-- Exact arithmetic never rounds a divisor to zero. -/
theorem sound_exact : exact.Sound where
  round_natCast_ne_zero n hn := by
    show (n : Rat) ≠ 0
    exact_mod_cast hn
  narrow_zero := rfl
  narrow_mem q h0 h100 := ⟨h0, h100⟩

/-- A hundred is a number of thirty-two bits. -/
theorem round_single_hundred : single.round 100 = 100 := by
  have h : single.round (scaled 100 0) = scaled 100 0 :=
    round_scaled (by decide) (by decide)
  have hvalue : scaled 100 0 = 100 := by
    unfold scaled
    norm_num
  rwa [hvalue] at h

/-- One is a number of sixty-four bits. -/
theorem round_double_one : double.round 1 = 1 := by
  have h : double.round (scaled 1 0) = scaled 1 0 := round_scaled (by decide) (by decide)
  have hvalue : scaled 1 0 = 1 := by
    unfold scaled
    norm_num
  rwa [hvalue] at h

/-- Binary arithmetic never rounds a divisor to zero. -/
theorem sound_binary : binary.Sound where
  round_natCast_ne_zero n hn := by
    have hle : (1 : Rat) ≤ n := by
      have : 1 ≤ n := by omega
      exact_mod_cast this
    have hround := round_le_round proper_double hle
    rw [round_double_one] at hround
    show double.round n ≠ 0
    linarith
  narrow_zero := @round_zero single
  narrow_mem q h0 h100 := by
    refine ⟨round_nonneg h0, ?_⟩
    have hround := round_le_round proper_single h100
    rwa [round_single_hundred] at hround

-- ================================================= no division by zero

/-- The difference of counters stops at zero. -/
theorem toNat_difference (now before : UInt64) :
    (difference now before).toNat = now.toNat - before.toNat := by
  unfold difference increase?
  split
  · next hle => exact UInt64.toNat_sub_of_le _ _ hle
  · next hlt =>
      have : now.toNat < before.toNat := by
        rw [← UInt64.lt_iff_toNat_lt]
        exact UInt64.not_le.mp hlt
      show 0 = _
      omega

theorem quotient?_eq {x y : Rat} (hy : y ≠ 0) : a.quotient? x y = some (a.round (x / y)) :=
  if_neg hy

variable {a}

/-- A duration is turned into seconds without a zero division. -/
theorem seconds?_eq (ha : a.Sound) (d : Duration) :
    a.seconds? d = some (seconds a.round d) := by
  have hunit : a.round 1000000000 ≠ 0 := by
    exact_mod_cast ha.round_natCast_ne_zero 1000000000 (by omega)
  unfold seconds?
  rw [quotient?_eq a hunit]
  rfl

/-- The share of a whole that is not zero has its formula. -/
theorem share?_eq {whole : Rat} (hwhole : whole ≠ 0) (part : Rat) :
    a.share? part whole = some (share a.round part whole) := quotient?_eq a hwhole

theorem toNat_ne_zero {n : UInt64} (hn : n ≠ 0) : n.toNat ≠ 0 :=
  fun h => hn (UInt64.toNat_inj.mp h)

/-- In words of sixty-four bits a processor row has the share of its formula: what is
taken away there is no more than what it is taken from, or is not taken away at all. -/
theorem unclamped?_cpu (ha : a.Sound) (before : Cpu) (idle total : UInt64) :
    a.unclamped? (.cpu (some before) idle total)
      = some (cpuUsage a.round (some before) idle total) := by
  unfold unclamped? cpuUsage increase?
  dsimp only
  by_cases hle : before.totalJiffies ≤ total
  · have hpassed : (total - before.totalJiffies).toNat
        = total.toNat - before.totalJiffies.toNat := UInt64.toNat_sub_of_le _ _ hle
    rw [if_pos hle]
    dsimp only
    by_cases hzero : total - before.totalJiffies = 0
    · rw [if_pos hzero, if_pos (by rw [← hpassed, hzero]; rfl)]
    · have hcount := toNat_ne_zero hzero
      rw [if_neg hzero, share?_eq (ha.round_natCast_ne_zero _ hcount), toNat_difference,
        toNat_difference, hpassed, if_neg (by rwa [← hpassed])]
  · -- the count of all ticks went back
    have hlt : total.toNat < before.totalJiffies.toNat :=
      UInt64.lt_iff_toNat_lt.mp (UInt64.not_le.mp hle)
    rw [if_neg hle, if_pos (by omega)]

/-- Every division on the way to a percentage has a value, and what comes of them
is the formula. -/
theorem unclamped?_eq (ha : a.Sound) (c : Counters) :
    a.unclamped? c = some (c.formula a.round) := by
  cases c with
  | cpu before idle total =>
      cases before with
      | none => rfl
      | some before => exact unclamped?_cpu ha before idle total
  | memory totalKb freeKb =>
      unfold unclamped? Counters.formula memoryUsage
      dsimp only
      split
      · rfl
      · next hzero =>
          rw [share?_eq (ha.round_natCast_ne_zero _ (toNat_ne_zero hzero))]
          rfl
  | footprint memKb totalKb =>
      unfold unclamped? Counters.formula processMemory
      dsimp only
      split
      · rfl
      · next hzero => exact share?_eq (ha.round_natCast_ne_zero _ (toNat_ne_zero hzero)) _
  | schedule utime stime ticks interval =>
      unfold unclamped? Counters.formula processCpu
      dsimp only
      rw [seconds?_eq ha, Option.bind_eq_bind, Option.bind_some]
      split
      · rfl
      · next hguard =>
          obtain ⟨hticks, hlength⟩ := not_or.mp hguard
          rw [quotient?_eq a (ha.round_natCast_ne_zero _ (toNat_ne_zero hticks)),
            Option.bind_some, share?_eq (fun hzero => hlength hzero.le)]

/-- A percentage is calculated without a zero division and has its formula. -/
theorem percent?_eq (ha : a.Sound) (c : Counters) :
    a.percent? c = some (a.narrow (clamped (c.formula a.round))) := by
  rw [percent?, unclamped?_eq ha]
  rfl

/-- Every percentage exists, and lies between 0 and 100. -/
theorem exists_percent? (ha : a.Sound) (c : Counters) :
    ∃ q, a.percent? c = some q ∧ 0 ≤ q ∧ q ≤ 100 :=
  ⟨_, percent?_eq ha c, ha.narrow_mem _ (clamped_nonneg _) (clamped_le _)⟩

end Arithmetic

-- =========================================================== published

/-- A formula ends in an operation, so it is rounded. -/
theorem round_formula (c : Counters) :
    double.round (c.formula double.round) = c.formula double.round := by
  cases c with
  | cpu before idle total =>
      cases before with
      | none => exact round_zero
      | some before =>
          unfold Counters.formula cpuUsage
          dsimp only
          split
          · exact round_zero
          · exact round_round proper_double _
  | memory totalKb freeKb =>
      unfold Counters.formula memoryUsage
      dsimp only
      split
      · exact round_zero
      · exact round_round proper_double _
  | footprint memKb totalKb =>
      unfold Counters.formula processMemory
      dsimp only
      split
      · exact round_zero
      · exact round_round proper_double _
  | schedule utime stime ticks interval =>
      unfold Counters.formula processCpu
      dsimp only
      split
      · exact round_zero
      · exact round_round proper_double _

theorem hundred_lt_two_zpow {e : Int} (he : 7 ≤ e) : (100 : Rat) < 2 ^ e := by
  refine lt_of_lt_of_le ?_ (two_zpow_le he)
  norm_num

/-- Nothing between 0 and 100 is beyond the numbers of thirty-two bits. -/
theorem not_beyond_of_mem {q : Rat} (h0 : 0 ≤ q) (h100 : q ≤ 100) :
    ¬ (2 : Rat) ^ (single.maxExponent + (single.precision - 1)) ≤ q.abs := by
  rw [Rat.abs_of_nonneg h0, not_le]
  exact h100.trans_lt (hundred_lt_two_zpow (by decide))

/-- What is published of a rational that sixty-four bits hold is the clamped
rational in thirty-two bits. -/
theorem value?_published {q : Rat} (hq : double.round q = q) :
    (published q).value? = some (single.round (clamped q)) := by
  have hclamped : (ofRat single (clamped q)).value? = some (single.round (clamped q)) := by
    refine (value?_ofRat_cases proper_single _).resolve_right fun hbeyond => ?_
    exact not_beyond_of_mem (clamped_nonneg q) (clamped_le q) hbeyond.2
  unfold published clampPercent
  -- the wide number has a value, or it is an infinity
  rcases value?_ofRat_cases proper_double q with hvalue | ⟨hinfinity, hbeyond⟩
  · rw [hvalue, hq]
    dsimp only
    split
    · next hmem =>
        have hsame : clamped q = q := by
          unfold clamped
          rw [if_neg (by linarith [hmem.1]), if_neg (by linarith [hmem.2])]
        rw [hsame]
        have hvalue : (ofRat double q).value? = some q := hvalue.trans (congrArg some hq)
        refine (value?_convert_cases proper_single hvalue).resolve_right ?_
        exact not_beyond_of_mem hmem.1 hmem.2
    · exact hclamped
  · -- beyond the greatest number the clamp has settled it
    have hlarge : (100 : Rat) ≤ q.abs :=
      (hundred_lt_two_zpow (by decide)).le.trans hbeyond
    rw [hinfinity]
    dsimp only [value?]
    rcases lt_or_ge q 0 with hneg | hnonneg
    · rw [clamped_of_nonpos hneg.le] at hclamped ⊢
      rw [decide_eq_true hneg]
      exact hclamped
    · rw [Rat.abs_of_nonneg hnonneg] at hlarge
      rw [clamped_of_le hlarge] at hclamped ⊢
      rw [decide_eq_false hnonneg.not_gt]
      exact hclamped

/-- A published percentage is what the steps in binary arithmetic come to. -/
theorem value?_percent (c : Counters) :
    c.percent.value? = Arithmetic.binary.percent? c := by
  have hpublished : c.percent = published (c.formula double.round) := by
    cases c <;> rfl
  rw [hpublished, value?_published (round_formula c),
    Arithmetic.percent?_eq Arithmetic.sound_binary]
  rfl

end Vitals.Rate
