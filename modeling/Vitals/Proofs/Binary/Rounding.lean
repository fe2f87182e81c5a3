/-
Rounding to a format, as a function on the rationals.

# Why it is monotone

A positive rational is written in units of `2 ^ unitExponent q`, and the unit
grows with the rational. Between two rationals with one unit the claim is that
of `roundHalfEven`. Between two with different units a power of two stands: the
smaller one is no more than `2 ^ precision` of its units (`units_le`), the
greater one no less than `2 ^ (precision - 1)` of units that are at least twice
as large (`le_units`), and these two bounds meet.

# What follows

Every number with a significand below `2 ^ precision` and no smaller unit than
the least one is its own rounding (`round_scaled`), so rounding twice is rounding
once. With monotony this carries bounds through a rounding: what lies between two
such numbers stays between them. Nothing here looks at the greatest exponent;
`nearest_cases` says once what that adds, which is an infinity beyond a power of
two.
-/
import Mathlib.Algebra.Order.Field.Power
import Mathlib.Data.Rat.Cast.Order
import Mathlib.Tactic.Linarith
import Mathlib.Tactic.Positivity
import Mathlib.Tactic.Ring
import Vitals.Binary.Basic

namespace Vitals.Binary

variable {f g : Format}

-- ====================================================== powers of a base

/-- A quotient lies between the powers that the lengths of its parts tell. -/
theorem zpow_lt_and_lt_zpow {b : Nat} (hb : 1 < b) {q : Rat} (hq : 0 < q) {i j : Nat}
    (hi : b ^ i ≤ q.num.natAbs) (hi' : q.num.natAbs < b ^ (i + 1))
    (hj : b ^ j ≤ q.den) (hj' : q.den < b ^ (j + 1)) :
    (b : Rat) ^ ((i : Int) - j - 1) < q ∧ q < (b : Rat) ^ ((i : Int) - j + 1) := by
  have hb0 : (b : Rat) ≠ 0 := by
    have : 0 < b := by omega
    positivity
  have hbpos : (0 : Rat) < b := by positivity
  have hden : (0 : Rat) < q.den := by exact_mod_cast q.den_pos
  -- both bounds are taken times the denominator
  have hnum : (q.num.natAbs : Rat) = q * q.den := by
    rw [Rat.mul_den_eq_num, ← Int.cast_natCast, Int.natAbs_of_nonneg (Rat.num_nonneg.mpr hq.le)]
  constructor
  · have hpow : (b : Rat) ^ ((i : Int) - j - 1) * (b : Rat) ^ (j + 1) = (b : Rat) ^ i := by
      rw [← zpow_natCast, ← zpow_natCast, ← zpow_add₀ hb0]
      congr 1
      omega
    have hlt : (b : Rat) ^ ((i : Int) - j - 1) * q.den < q * q.den := by
      calc (b : Rat) ^ ((i : Int) - j - 1) * q.den
          < (b : Rat) ^ ((i : Int) - j - 1) * (b : Rat) ^ (j + 1) := by
            refine mul_lt_mul_of_pos_left ?_ (zpow_pos hbpos _)
            exact_mod_cast hj'
        _ = (b : Rat) ^ i := hpow
        _ ≤ q * q.den := by
            rw [← hnum]
            exact_mod_cast hi
    exact lt_of_mul_lt_mul_right hlt hden.le
  · have hpow : (b : Rat) ^ ((i : Int) - j + 1) * (b : Rat) ^ j = (b : Rat) ^ (i + 1) := by
      rw [← zpow_natCast, ← zpow_natCast, ← zpow_add₀ hb0]
      congr 1
      omega
    have hlt : q * q.den < (b : Rat) ^ ((i : Int) - j + 1) * q.den := by
      calc q * q.den < (b : Rat) ^ (i + 1) := by
            rw [← hnum]
            exact_mod_cast hi'
        _ = (b : Rat) ^ ((i : Int) - j + 1) * (b : Rat) ^ j := hpow.symm
        _ ≤ (b : Rat) ^ ((i : Int) - j + 1) * q.den := by
            refine mul_le_mul_of_nonneg_left ?_ (zpow_pos hbpos _).le
            exact_mod_cast hj
    exact lt_of_mul_lt_mul_right hlt hden.le

theorem two_zpow_pos (e : Int) : (0 : Rat) < 2 ^ e := zpow_pos (by norm_num) e

theorem two_zpow_le {d e : Int} (h : d ≤ e) : (2 : Rat) ^ d ≤ 2 ^ e :=
  zpow_le_zpow_right₀ (by norm_num) h

theorem two_zpow_add (d e : Int) : (2 : Rat) ^ (d + e) = 2 ^ d * 2 ^ e :=
  zpow_add₀ (by norm_num) d e

theorem le_of_two_zpow_lt {d e : Int} (h : (2 : Rat) ^ d < 2 ^ (e + 1)) : d ≤ e := by
  have := (zpow_lt_zpow_iff_right₀ (by norm_num : (1 : Rat) < 2)).mp h
  omega

/-- A positive rational lies between the power of two of its logarithm and the next. -/
theorem floorLog2_spec {q : Rat} (hq : 0 < q) :
    2 ^ floorLog2 q ≤ q ∧ q < 2 ^ (floorLog2 q + 1) := by
  have hnum : q.num.natAbs ≠ 0 := by
    have := Rat.num_pos.mpr hq
    omega
  have hbounds := zpow_lt_and_lt_zpow (b := 2) (by omega) hq (Nat.log2_self_le hnum)
    Nat.lt_log2_self (Nat.log2_self_le q.den_nz) Nat.lt_log2_self
  rw [Nat.cast_ofNat] at hbounds
  unfold floorLog2
  dsimp only
  split
  · next hle => exact ⟨hle, hbounds.2⟩
  · next hlt =>
      rw [Int.sub_add_cancel]
      exact ⟨hbounds.1.le, not_le.mp hlt⟩

/-- A greater rational reaches no smaller power of two. -/
theorem floorLog2_le_floorLog2 {q r : Rat} (hq : 0 < q) (h : q ≤ r) :
    floorLog2 q ≤ floorLog2 r := by
  have hr := (floorLog2_spec (hq.trans_le h)).2
  exact le_of_two_zpow_lt ((floorLog2_spec hq).1.trans_lt (h.trans_lt hr))

-- ==================================================== whole numbers

/-- Rounding to the nearest integer never falls below the floor. -/
theorem floor_le_roundHalfEven (q : Rat) : q.floor ≤ roundHalfEven q := by
  unfold roundHalfEven
  dsimp only
  split
  · exact Int.le_refl _
  · split
    · omega
    · split <;> omega

/-- Rounding to the nearest integer never passes the integer above the floor. -/
theorem roundHalfEven_le_floor_add_one (q : Rat) : roundHalfEven q ≤ q.floor + 1 := by
  unfold roundHalfEven
  dsimp only
  split
  · omega
  · split
    · omega
    · split <;> omega

theorem roundHalfEven_intCast (n : Int) : roundHalfEven n = n := by
  unfold roundHalfEven
  dsimp only
  rw [Rat.floor_intCast, sub_self, if_pos (by norm_num)]

/-- Rounding to the nearest integer keeps the order. -/
theorem roundHalfEven_mono {q r : Rat} (h : q ≤ r) : roundHalfEven q ≤ roundHalfEven r := by
  rcases Int.lt_or_eq_of_le (Rat.floor_monotone h) with hlt | heq
  · -- a whole number separates the two
    have hq := roundHalfEven_le_floor_add_one q
    have hr := floor_le_roundHalfEven r
    omega
  · unfold roundHalfEven
    dsimp only
    rw [heq]
    have hrest : q - r.floor ≤ r - r.floor := by linarith
    by_cases hqdown : q - r.floor < 1 / 2
    · rw [if_pos hqdown]
      have hr := floor_le_roundHalfEven r
      unfold roundHalfEven at hr
      exact hr
    · have hrdown : ¬ r - r.floor < 1 / 2 := by linarith
      rw [if_neg hqdown, if_neg hrdown]
      by_cases hqup : 1 / 2 < q - r.floor
      · have hrup : 1 / 2 < r - r.floor := hqup.trans_le hrest
        rw [if_pos hqup, if_pos hrup]
      · -- the smaller one is halfway, and the greater one at least that
        rw [if_neg hqup]
        split <;> split <;> omega

-- ============================================================= units

/-- A format that has a digit and more than one exponent. -/
structure Format.Proper (f : Format) : Prop where
  precision_pos : 0 < f.precision
  minExponent_lt : f.minExponent < f.maxExponent

theorem proper_double : double.Proper := ⟨by decide, by decide⟩

theorem proper_single : single.Proper := ⟨by decide, by decide⟩

/-- The units of a rational are its quotient by the unit, rounded. -/
theorem intCast_units {q : Rat} (hq : 0 < q) :
    ((f.units q : Nat) : Int) = roundHalfEven (q / 2 ^ f.unitExponent q) := by
  have hnonneg : 0 ≤ roundHalfEven (q / 2 ^ f.unitExponent q) := by
    rw [← roundHalfEven_intCast 0]
    exact roundHalfEven_mono (by rw [Int.cast_zero]; positivity)
  exact Int.toNat_of_nonneg hnonneg

theorem minExponent_le_unitExponent (q : Rat) : f.minExponent ≤ f.unitExponent q :=
  Int.le_max_left _ _

/-- A greater rational is measured in units at least as great. -/
theorem unitExponent_le_unitExponent {q r : Rat} (hq : 0 < q) (h : q ≤ r) :
    f.unitExponent q ≤ f.unitExponent r := by
  have := floorLog2_le_floorLog2 hq h
  unfold Format.unitExponent
  omega

/-- A positive rational is less than `2 ^ precision` of its units, and rounds to
no more of them. -/
theorem units_le {q : Rat} (hq : 0 < q) : f.units q ≤ 2 ^ f.precision := by
  have hexp : floorLog2 q + 1 ≤ (f.precision : Int) + f.unitExponent q := by
    unfold Format.unitExponent
    omega
  have hquot : q / 2 ^ f.unitExponent q ≤ ((2 ^ f.precision : Int) : Rat) := by
    rw [div_le_iff₀ (two_zpow_pos _), Int.cast_pow, Int.cast_ofNat, ← zpow_natCast,
      ← two_zpow_add]
    exact (floorLog2_spec hq).2.le.trans (two_zpow_le hexp)
  have hround := roundHalfEven_mono hquot
  rw [roundHalfEven_intCast, ← intCast_units hq] at hround
  exact_mod_cast hround

/-- If its unit is not the least one, it is at least half as many. -/
theorem le_units (hf : f.Proper) {q : Rat} (hq : 0 < q)
    (h : f.minExponent < f.unitExponent q) : 2 ^ (f.precision - 1) ≤ f.units q := by
  have hexp : ((f.precision - 1 : Nat) : Int) + f.unitExponent q ≤ floorLog2 q := by
    have := hf.precision_pos
    unfold Format.unitExponent at h ⊢
    omega
  have hquot : ((2 ^ (f.precision - 1) : Int) : Rat) ≤ q / 2 ^ f.unitExponent q := by
    rw [le_div_iff₀ (two_zpow_pos _), Int.cast_pow, Int.cast_ofNat, ← zpow_natCast,
      ← two_zpow_add]
    exact (two_zpow_le hexp).trans (floorLog2_spec hq).1
  have hround := roundHalfEven_mono hquot
  rw [roundHalfEven_intCast, ← intCast_units hq] at hround
  exact_mod_cast hround

-- ========================================================== rounding

theorem scaled_nonneg (n : Nat) (e : Int) : 0 ≤ scaled n e := by
  unfold scaled
  positivity

@[simp] theorem scaled_zero (e : Int) : scaled 0 e = 0 := by
  unfold scaled
  simp

/-- Half as many of units twice as large. -/
theorem scaled_two_pow (n : Nat) (hn : 0 < n) (e : Int) :
    scaled (2 ^ n) e = scaled (2 ^ (n - 1)) (e + 1) := by
  unfold scaled
  rw [Nat.cast_pow, Nat.cast_pow, Nat.cast_ofNat, ← zpow_natCast, ← zpow_natCast,
    ← two_zpow_add, ← two_zpow_add]
  congr 1
  omega

theorem two_pow_div_two {n : Nat} (hn : 0 < n) : 2 ^ n / 2 = 2 ^ (n - 1) := by
  obtain ⟨k, rfl⟩ : ∃ k, n = k + 1 := ⟨n - 1, by omega⟩
  rw [Nat.pow_succ, Nat.mul_div_cancel _ (by omega), Nat.add_sub_cancel]

/-- More units make a greater number. -/
theorem scaled_le_scaled {m n : Nat} (h : m ≤ n) (e : Int) : scaled m e ≤ scaled n e := by
  unfold scaled
  refine mul_le_mul_of_nonneg_right ?_ (two_zpow_pos e).le
  exact_mod_cast h

@[simp] theorem round_zero : f.round 0 = 0 := by
  unfold Format.round
  rw [if_pos rfl]

/-- A positive rational is rounded to its units. -/
theorem round_of_pos {q : Rat} (hq : 0 < q) :
    f.round q = scaled (f.units q) (f.unitExponent q) := by
  unfold Format.round
  rw [if_neg hq.ne', if_neg hq.not_gt]

theorem round_neg (q : Rat) : f.round (-q) = -f.round q := by
  rcases lt_trichotomy q 0 with hq | rfl | hq
  · have hpos : 0 < -q := by linarith
    rw [round_of_pos hpos]
    unfold Format.round
    rw [if_neg hq.ne, if_pos hq, neg_neg]
  · simp
  · have hneg : -q < 0 := by linarith
    rw [round_of_pos hq]
    unfold Format.round
    rw [if_neg hneg.ne, if_pos hneg, neg_neg]

theorem round_nonneg {q : Rat} (hq : 0 ≤ q) : 0 ≤ f.round q := by
  rcases hq.eq_or_lt with rfl | hpos
  · rw [round_zero]
  · rw [round_of_pos hpos]
    exact scaled_nonneg _ _

/-- Rounding keeps the order of positive rationals. -/
theorem round_le_round_of_pos (hf : f.Proper) {q r : Rat} (hq : 0 < q) (h : q ≤ r) :
    f.round q ≤ f.round r := by
  have hr : 0 < r := hq.trans_le h
  rw [round_of_pos hq, round_of_pos hr]
  rcases (unitExponent_le_unitExponent (f := f) hq h).eq_or_lt with heq | hlt
  · -- one unit for both: their counts are in order
    rw [heq]
    refine scaled_le_scaled ?_ _
    have hquot : q / 2 ^ f.unitExponent q ≤ r / 2 ^ f.unitExponent r := by
      rw [heq]
      exact div_le_div_of_nonneg_right h (two_zpow_pos _).le
    have hcount := roundHalfEven_mono hquot
    rw [← intCast_units hq, ← intCast_units hr] at hcount
    exact_mod_cast hcount
  · -- a greater unit for the greater one: a power of two stands between
    have hmin := minExponent_le_unitExponent (f := f) q
    calc scaled (f.units q) (f.unitExponent q)
        ≤ scaled (2 ^ f.precision) (f.unitExponent q) := scaled_le_scaled (units_le hq) _
      _ = scaled (2 ^ (f.precision - 1)) (f.unitExponent q + 1) :=
          scaled_two_pow _ hf.precision_pos _
      _ ≤ scaled (2 ^ (f.precision - 1)) (f.unitExponent r) := by
          unfold scaled
          exact mul_le_mul_of_nonneg_left (two_zpow_le (by omega)) (by positivity)
      _ ≤ scaled (f.units r) (f.unitExponent r) :=
          scaled_le_scaled (le_units hf hr (by omega)) _

/-- A greater rational has no smaller rounding. -/
theorem round_le_round (hf : f.Proper) {q r : Rat} (h : q ≤ r) : f.round q ≤ f.round r := by
  rcases lt_or_ge 0 q with hq | hq
  · exact round_le_round_of_pos hf hq h
  · rcases le_or_gt 0 r with hr | hr
    · have hneg : 0 ≤ f.round (-q) := round_nonneg (by linarith)
      rw [round_neg] at hneg
      have := round_nonneg (f := f) hr
      linarith
    · have hneg := round_le_round_of_pos hf (by linarith : 0 < -r) (by linarith : -r ≤ -q)
      rw [round_neg, round_neg] at hneg
      linarith

/-- A number of the grid is its own rounding. -/
theorem round_scaled {n : Nat} (hn : n < 2 ^ f.precision) {e : Int} (he : f.minExponent ≤ e) :
    f.round (scaled n e) = scaled n e := by
  rcases Nat.eq_zero_or_pos n with rfl | hpos
  · rw [scaled_zero, round_zero]
  · have hq : 0 < scaled n e := by
      unfold scaled
      have : (0 : Rat) < n := by exact_mod_cast hpos
      positivity
    -- its unit is no larger than the one it is given in
    have hlog : floorLog2 (scaled n e) ≤ (f.precision : Int) + e - 1 := by
      refine le_of_two_zpow_lt ((floorLog2_spec hq).1.trans_lt ?_)
      rw [Int.sub_add_cancel, two_zpow_add, zpow_natCast]
      unfold scaled
      refine mul_lt_mul_of_pos_right ?_ (two_zpow_pos e)
      exact_mod_cast hn
    have hunit : f.unitExponent (scaled n e) ≤ e := by
      unfold Format.unitExponent
      omega
    obtain ⟨k, hk⟩ := Int.le.dest hunit
    have hquot : scaled n e / 2 ^ f.unitExponent (scaled n e) = ((n * 2 ^ k : Int) : Rat) := by
      rw [div_eq_iff (two_zpow_pos _).ne']
      conv_lhs => rw [scaled, ← hk, two_zpow_add]
      push_cast
      rw [zpow_natCast]
      ring
    have hcount : ((f.units (scaled n e) : Nat) : Int) = n * 2 ^ k := by
      rw [intCast_units hq, hquot, roundHalfEven_intCast]
    rw [round_of_pos hq]
    show ((f.units (scaled n e) : Nat) : Rat) * 2 ^ f.unitExponent (scaled n e) = scaled n e
    rw [← Int.cast_natCast, hcount, ← hquot, div_mul_cancel₀ _ (two_zpow_pos _).ne']

/-- Rounding twice is rounding once. -/
theorem round_round (hf : f.Proper) (q : Rat) : f.round (f.round q) = f.round q := by
  have hpos : ∀ r : Rat, 0 < r → f.round (f.round r) = f.round r := by
    intro r hr
    have hmin := minExponent_le_unitExponent (f := f) r
    rw [round_of_pos hr]
    rcases (units_le (f := f) hr).lt_or_eq with hlt | heq
    · exact round_scaled hlt hmin
    · -- the count has grown by one bit
      rw [heq, scaled_two_pow _ hf.precision_pos]
      refine round_scaled ?_ (by omega)
      exact Nat.pow_lt_pow_right (by omega) (by have := hf.precision_pos; omega)
  rcases lt_trichotomy q 0 with hq | rfl | hq
  · have h := hpos (-q) (by linarith)
    rw [round_neg, round_neg] at h
    exact neg_injective h
  · rw [round_zero, round_zero]
  · exact hpos q hq

-- =========================================================== numbers

/-- A rational with a sign put in front of it. -/
def signed (negative : Bool) (m : Rat) : Rat := if negative then -m else m

/-- A zero of either sign is worth zero. -/
theorem value?_zero (hf : f.Proper) (negative : Bool) : (zero f negative).value? = some 0 := by
  have hcanonical : f.Canonical 0 f.minExponent :=
    ⟨Nat.pow_pos (by omega), Int.le_refl _, hf.minExponent_lt.le, .inl rfl⟩
  unfold zero
  rw [dif_pos hcanonical]
  cases negative <;> simp [value?]

/-- A magnitude that is written in the greatest unit or a greater one is no less than
half the power of two beyond the greatest number. -/
theorem le_of_maxExponent_le (hf : f.Proper) {m : Rat} (hm : 0 < m)
    (h : f.maxExponent ≤ f.unitExponent m) :
    (2 : Rat) ^ (f.maxExponent + (f.precision - 1)) ≤ m := by
  refine (two_zpow_le ?_).trans (floorLog2_spec hm).1
  have := hf.minExponent_lt
  unfold Format.unitExponent at h
  omega

/-- The units of a positive rational that is not too great are canonical, unless they carry.
-/
theorem canonical_units (hf : f.Proper) {m : Rat} (hm : 0 < m)
    (hmax : f.unitExponent m ≤ f.maxExponent) (hcount : f.units m ≠ 2 ^ f.precision) :
    f.Canonical (f.units m) (f.unitExponent m) := by
  have hmin := @minExponent_le_unitExponent f m
  refine ⟨Nat.lt_of_le_of_ne (units_le hm) hcount, hmin, hmax, ?_⟩
  rcases hmin.eq_or_lt with heq | hlt
  · exact .inl heq.symm
  · exact .inr (le_units hf hm hlt)

/-- A count that has grown by one bit is half as many of the next unit. -/
theorem canonical_next (hf : f.Proper) {e : Int} (hmin : f.minExponent ≤ e)
    (hmax : e < f.maxExponent) : f.Canonical (2 ^ f.precision / 2) (e + 1) := by
  have hprecision := hf.precision_pos
  rw [two_pow_div_two hprecision]
  exact ⟨Nat.pow_lt_pow_right (by omega) (by omega), by omega, by omega, .inr (Nat.le_refl _)⟩

/-- The number nearest to a magnitude is its rounding, or an infinity if the
magnitude is no less than half the power of two beyond the greatest number. -/
theorem nearest_cases (hf : f.Proper) (negative : Bool) {m : Rat} (hm : 0 ≤ m) :
    (nearest f negative m).value? = some (signed negative (f.round m))
    ∨ nearest f negative m = infinity negative
      ∧ 2 ^ (f.maxExponent + (f.precision - 1)) ≤ m := by
  rcases hm.eq_or_lt with rfl | hpos
  · left
    unfold nearest
    rw [if_pos rfl, value?_zero hf, round_zero]
    cases negative <;> simp [signed]
  · unfold nearest ofUnits
    rw [if_neg hpos.ne', round_of_pos hpos]
    split
    · left
      cases negative <;> rfl
    · next hnot =>
        -- within the exponents, only a full count of units is not canonical
        have hcount : f.unitExponent m ≤ f.maxExponent → f.units m = 2 ^ f.precision := by
          intro hmax
          by_contra hne
          exact hnot (canonical_units hf hpos hmax hne)
        split
        · next hhalf =>
            left
            -- a full count carries: half as many units, of twice the size
            have hmax : f.unitExponent m ≤ f.maxExponent := by
              have := hhalf.2.2.1
              omega
            show some (signed negative (scaled (f.units m / 2) (f.unitExponent m + 1))) = _
            rw [hcount hmax, scaled_two_pow _ hf.precision_pos, two_pow_div_two hf.precision_pos]
        · next hnot' =>
            right
            -- it cannot carry beyond the greatest exponent
            refine ⟨rfl, le_of_maxExponent_le hf hpos ?_⟩
            by_contra hlt
            apply hnot'
            rw [hcount (by omega)]
            exact canonical_next hf (minExponent_le_unitExponent m) (by omega)

/-- A rational becomes its rounded value, or an infinity when it is too great. -/
theorem value?_ofRat_cases (hf : f.Proper) (q : Rat) :
    (ofRat f q).value? = some (f.round q)
    ∨ ofRat f q = infinity (q < 0)
      ∧ 2 ^ (f.maxExponent + (f.precision - 1)) ≤ q.abs := by
  have hsigned : signed (q < 0) (f.round q.abs) = f.round q := by
    rcases lt_or_ge q 0 with hq | hq
    · rw [Rat.abs_of_nonpos hq.le, round_neg, decide_eq_true hq]
      exact neg_neg _
    · rw [Rat.abs_of_nonneg hq, decide_eq_false hq.not_gt]
      rfl
  rw [← hsigned]
  exact nearest_cases hf _ Rat.abs_nonneg

/-- What a number has for a value, a narrower format has rounded. -/
theorem value?_convert_cases (hg : g.Proper) {x : Binary f} {q : Rat} (hx : x.value? = some q) :
    (x.convert g).value? = some (g.round q)
    ∨ 2 ^ (g.maxExponent + (g.precision - 1)) ≤ q.abs := by
  cases x with
  | nan => cases hx
  | infinity negative => cases hx
  | finite negative n e hcanonical =>
      obtain rfl : signed negative (scaled n e) = q := Option.some.inj hx
      rcases nearest_cases hg negative (scaled_nonneg n e) with hvalue | ⟨-, hbeyond⟩
      · left
        rw [convert, hvalue]
        cases negative with
        | false => rfl
        | true => exact congrArg some (round_neg _).symm
      · right
        cases negative with
        | false =>
            show _ ≤ (scaled n e).abs
            rw [Rat.abs_of_nonneg (scaled_nonneg n e)]
            exact hbeyond
        | true =>
            show _ ≤ (-scaled n e).abs
            rw [Rat.abs_neg, Rat.abs_of_nonneg (scaled_nonneg n e)]
            exact hbeyond

/-- The finite numbers are those that have a value. -/
theorem isFinite_iff {x : Binary f} : x.IsFinite ↔ ∃ q, x.value? = some q := by
  cases x with
  | nan | infinity _ => simp [IsFinite, value?]
  | finite negative n e hcanonical => simp [IsFinite, value?]

end Vitals.Binary
