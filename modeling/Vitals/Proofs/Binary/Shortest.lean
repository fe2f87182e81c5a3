/-
The shortest digits of a number read back as that number.

# Why they do

The digits that `shortest` finds are digits that it has read back, so there are two
things to see. One is that it finds some. A rational that is nearer to a number than
one part in `2 ^ (precision + 1)` reads as that number (`readsAs_of_near`): it lies
within half a unit on either side, and below a power of two, where the unit is half as
large, still within half of that. On the grid of `digitLimit` digits the nearer
neighbour of a number is as near as that, because `10 ^ (digitLimit - 1)` is beyond
`2 ^ precision`. The other is that dropping zeros and counting the power of ten of the
first digit loses nothing of what was found (`value_shortest`).
-/
import Mathlib.Tactic.ByContra
import Vitals.Binary.Shortest
import Vitals.Proofs.Binary.Rounding
import Vitals.Text.Numeral

namespace Vitals.Binary

open Text

variable {f : Format}

-- ====================================================== powers of ten

theorem ten_zpow_pos (k : Int) : (0 : Rat) < 10 ^ k := zpow_pos (by norm_num) k

theorem ten_zpow_add (j k : Int) : (10 : Rat) ^ (j + k) = 10 ^ j * 10 ^ k :=
  zpow_add₀ (by norm_num) j k

theorem length_decimal_pos (n : Nat) : 0 < (decimal n).length :=
  List.length_pos_iff.mpr Nat.toDigits_ne_nil

/-- A number is below the power of ten its length stands for. -/
theorem lt_pow_length_decimal (n : Nat) : n < 10 ^ (decimal n).length :=
  (Nat.length_toDigits_le_iff (by omega) (length_decimal_pos n)).mp (Nat.le_refl _)

/-- A number is at least the power of ten of its leading digit. -/
theorem pow_length_decimal_le {n : Nat} (hn : n ≠ 0) : 10 ^ ((decimal n).length - 1) ≤ n := by
  by_contra hlt
  rcases Nat.eq_zero_or_pos ((decimal n).length - 1) with hone | hmore
  · rw [hone] at hlt
    omega
  · have := (Nat.length_toDigits_le_iff (by omega) hmore).mpr (Nat.not_le.mp hlt)
    have := length_decimal_pos n
    unfold decimal at *
    omega

/-- A positive rational lies between the power of ten of its logarithm and the next. -/
theorem floorLog10_spec {q : Rat} (hq : 0 < q) :
    10 ^ floorLog10 q ≤ q ∧ q < 10 ^ (floorLog10 q + 1) := by
  have hnum : q.num.natAbs ≠ 0 := by
    have := Rat.num_pos.mpr hq
    omega
  have hlast (n : Nat) : (decimal n).length = (decimal n).length - 1 + 1 := by
    have := length_decimal_pos n
    omega
  have hbounds := zpow_lt_and_lt_zpow (b := 10) (by omega) hq (pow_length_decimal_le hnum)
    (by rw [← hlast]; exact lt_pow_length_decimal _) (pow_length_decimal_le q.den_nz)
    (by rw [← hlast]; exact lt_pow_length_decimal _)
  -- the lengths of the decimal texts tell the logarithm, but for one
  have hguess : (((decimal q.num.natAbs).length - 1 : Nat) : Int) - ((decimal q.den).length - 1 : Nat)
      = ((Nat.toDigits 10 q.num.natAbs).length : Int) - (Nat.toDigits 10 q.den).length := by
    have := length_decimal_pos q.num.natAbs
    have := length_decimal_pos q.den
    unfold decimal at *
    omega
  rw [Nat.cast_ofNat, hguess] at hbounds
  unfold floorLog10
  dsimp only
  split
  · next hle => exact ⟨hle, hbounds.2⟩
  · next hlt =>
      rw [Int.sub_add_cancel]
      exact ⟨hbounds.1.le, not_le.mp hlt⟩

/-- The logarithm is the only exponent with a rational between its power and the next. -/
theorem floorLog10_eq {q : Rat} {k : Int} (h : 10 ^ k ≤ q) (h' : q < 10 ^ (k + 1)) :
    floorLog10 q = k := by
  have hq : 0 < q := (ten_zpow_pos k).trans_le h
  obtain ⟨hle, hlt⟩ := floorLog10_spec hq
  have hup := (zpow_lt_zpow_iff_right₀ (by norm_num : (1 : Rat) < 10)).mp (h.trans_lt hlt)
  have hdown := (zpow_lt_zpow_iff_right₀ (by norm_num : (1 : Rat) < 10)).mp (hle.trans_lt h')
  omega

/-- The first digit of a whole number of units counts as many tens more as there are
digits behind it. -/
theorem floorLog10_mul_zpow {n : Nat} (hn : n ≠ 0) (k : Int) :
    floorLog10 (n * 10 ^ k) = k + ((decimal n).length - 1) := by
  have hlen := length_decimal_pos n
  refine floorLog10_eq ?_ ?_
  · have hle : (10 : Rat) ^ ((decimal n).length - 1) ≤ n := by
      exact_mod_cast pow_length_decimal_le hn
    calc (10 : Rat) ^ (k + ((decimal n).length - 1))
        = 10 ^ ((decimal n).length - 1) * 10 ^ k := by
          rw [Int.add_comm, ten_zpow_add, ← zpow_natCast, Nat.cast_sub hlen, Nat.cast_one]
      _ ≤ n * 10 ^ k := mul_le_mul_of_nonneg_right hle (ten_zpow_pos k).le
  · have hlt : (n : Rat) < 10 ^ (decimal n).length := by
      exact_mod_cast lt_pow_length_decimal n
    calc (n : Rat) * 10 ^ k < 10 ^ (decimal n).length * 10 ^ k :=
          mul_lt_mul_of_pos_right hlt (ten_zpow_pos k)
      _ = 10 ^ (k + ((decimal n).length - 1) + 1) := by
          rw [← zpow_natCast, ← ten_zpow_add]
          congr 1
          omega

-- ========================================================== reading

/-- What is less than a half away from a whole number rounds to it. -/
theorem roundHalfEven_eq {q : Rat} {n : Int} (h : n - 1 / 2 < q) (h' : q < n + 1 / 2) :
    roundHalfEven q = n := by
  rcases lt_or_ge q n with hlt | hge
  · -- from below, the floor is one less and more than half is left
    have hfloor : q.floor = n - 1 := by
      refine Int.le_antisymm ?_ (Rat.le_floor_iff.mpr ?_)
      · have : (q.floor : Rat) < n := (Rat.floor_le q).trans_lt hlt
        have : q.floor < n := by exact_mod_cast this
        omega
      · push_cast
        linarith
    unfold roundHalfEven
    dsimp only
    rw [hfloor, if_neg, if_pos]
    · omega
    · push_cast
      linarith
    · push_cast
      linarith
  · -- from above, the floor is the integer and less than half is left
    have hfloor : q.floor = n := by
      refine Int.le_antisymm ?_ (Rat.le_floor_iff.mpr hge)
      have : (q.floor : Rat) < n + 1 := (Rat.floor_le q).trans_lt (by linarith)
      have : q.floor < n + 1 := by exact_mod_cast this
      omega
    unfold roundHalfEven
    dsimp only
    rw [hfloor, if_pos (by linarith)]

theorem ofUnits_of_canonical {negative : Bool} {s : Nat} {e : Int}
    (hcanonical : f.Canonical s e) : ofUnits f negative s e = finite negative s e hcanonical := by
  rw [ofUnits, dif_pos hcanonical]

/-- A power of two in half its unit is the same number. -/
theorem ofUnits_two_pow (hf : f.Proper) {negative : Bool} {e : Int}
    (hcanonical : f.Canonical (2 ^ (f.precision - 1)) e) :
    ofUnits f negative (2 ^ f.precision) (e - 1)
      = finite negative (2 ^ (f.precision - 1)) e hcanonical := by
  have hnot : ¬ f.Canonical (2 ^ f.precision) (e - 1) := fun h => Nat.lt_irrefl _ h.1
  have hhalf : f.Canonical (2 ^ f.precision / 2) (e - 1 + 1) := by
    rw [two_pow_div_two hf.precision_pos, Int.sub_add_cancel]
    exact hcanonical
  rw [ofUnits, dif_neg hnot, dif_pos hhalf]
  simp only [two_pow_div_two hf.precision_pos, Int.sub_add_cancel]

/-- The unit of a rational is the one its binade and the least exponent fix. -/
theorem unitExponent_eq {r : Rat} {e : Int} (hr : 0 < r) (hmin : f.minExponent ≤ e)
    (hup : r < 2 ^ (e + f.precision))
    (hdown : e = f.minExponent ∨ 2 ^ (e + f.precision - 1) ≤ r) : f.unitExponent r = e := by
  have hlog := le_of_two_zpow_lt (e := e + f.precision - 1)
    ((floorLog2_spec hr).1.trans_lt (by rwa [Int.sub_add_cancel]))
  rcases hdown with rfl | hdown
  · unfold Format.unitExponent
    omega
  · have := le_of_two_zpow_lt (hdown.trans_lt (floorLog2_spec hr).2)
    unfold Format.unitExponent
    omega

/-- What is less than half a unit away from so many units is as many of them. -/
theorem nearest_of_unitExponent {negative : Bool} {r : Rat} {n : Nat} {e : Int} (hr : 0 < r)
    (hexp : f.unitExponent r = e) (hdown : scaled n e - 2 ^ e / 2 < r)
    (hup : r < scaled n e + 2 ^ e / 2) : nearest f negative r = ofUnits f negative n e := by
  have hunit := two_zpow_pos e
  unfold scaled at hdown hup
  have hround : roundHalfEven (r / 2 ^ e) = n := by
    refine roundHalfEven_eq ?_ ?_
    · rw [lt_div_iff₀ hunit]
      push_cast
      linarith
    · rw [div_lt_iff₀ hunit]
      push_cast
      linarith
  rw [nearest, if_neg hr.ne', Format.units, hexp, hround]
  rfl

/-- A rational that is nearer to another than one part in `2 ^ (precision + 1)` of it. -/
structure Format.Near (f : Format) (q r : Rat) : Prop where
  pos : 0 < q
  below : q - q / 2 ^ (f.precision + 1) < r
  above : r < q + q / 2 ^ (f.precision + 1)

theorem Format.Near.half_lt {q r : Rat} (h : f.Near q r) : q / 2 < r := by
  have hone : (1 : Rat) ≤ 2 ^ f.precision := one_le_pow₀ (by norm_num)
  have hpart : q / 2 ^ (f.precision + 1) ≤ q / 2 := by
    refine div_le_div_of_nonneg_left h.pos.le (by norm_num) ?_
    rw [pow_succ]
    linarith
  linarith [h.below]

/-- The part allowed is less than half a unit. -/
theorem scaled_div_lt {s : Nat} {e : Int} (hs : s < 2 ^ f.precision) :
    scaled s e / 2 ^ (f.precision + 1) < 2 ^ e / 2 := by
  have hlt : (s : Rat) < 2 ^ f.precision := by exact_mod_cast hs
  have hpow : (0 : Rat) < 2 ^ f.precision := by positivity
  rw [div_lt_div_iff₀ (by positivity) (by norm_num), pow_succ, scaled]
  nlinarith [two_zpow_pos e]

/-- Below a power of two the unit is half as large. What is near enough to the power is
less than half of that away from it. -/
theorem nearest_below_two_pow (hf : f.Proper) {negative : Bool} {e : Int} {r : Rat}
    (hcanonical : f.Canonical (2 ^ (f.precision - 1)) e) (hmin : e ≠ f.minExponent)
    (hnear : f.Near (scaled (2 ^ (f.precision - 1)) e) r)
    (hless : r < scaled (2 ^ (f.precision - 1)) e) :
    nearest f negative r = finite negative (2 ^ (f.precision - 1)) e hcanonical := by
  have hhalf := hnear.half_lt
  obtain ⟨hpos, hdown, -⟩ := hnear
  -- the power of two is a full count of units of half the size
  have hsame : scaled (2 ^ (f.precision - 1)) e = scaled (2 ^ f.precision) (e - 1) := by
    rw [scaled_two_pow _ hf.precision_pos, Int.sub_add_cancel]
  have hpower : scaled (2 ^ f.precision) (e - 1) = 2 ^ (e - 1 + f.precision) := by
    rw [scaled, Int.add_comm, two_zpow_add, zpow_natCast]
    push_cast
    rfl
  have hquarter : scaled (2 ^ f.precision) (e - 1) / 2 ^ (f.precision + 1) = 2 ^ (e - 1) / 2 := by
    rw [scaled, pow_succ]
    push_cast
    exact mul_div_mul_left _ _ (by positivity)
  rw [hsame] at hpos hdown hless hhalf
  have hr : 0 < r := (half_pos hpos).trans hhalf
  have hexp : f.unitExponent r = e - 1 := by
    have hhalved : (2 : Rat) ^ (e - 1 + f.precision - 1) = 2 ^ (e - 1 + f.precision) / 2 := by
      rw [zpow_sub_one₀ (by norm_num), div_eq_mul_inv]
    refine unitExponent_eq hr ?_ (hpower ▸ hless) (.inr ?_)
    · have := hcanonical.2.1
      omega
    · rw [hhalved, ← hpower]
      exact hhalf.le
  have hunit := two_zpow_pos (e - 1)
  have hread : nearest f negative r = ofUnits f negative (2 ^ f.precision) (e - 1) :=
    nearest_of_unitExponent hr hexp (by linarith) (by linarith)
  rw [hread, ofUnits_two_pow hf hcanonical]

/-- What is near enough to a number reads as that number, with whichever sign. -/
theorem nearest_of_near (hf : f.Proper) {negative : Bool} {s : Nat} {e : Int}
    (hcanonical : f.Canonical s e) {r : Rat} (hnear : f.Near (scaled s e) r) :
    nearest f negative r = finite negative s e hcanonical := by
  obtain ⟨hlt, hmin, -, hfull⟩ := id hcanonical
  have hhalf := @scaled_div_lt f s e hlt
  have hr : 0 < r := (half_pos hnear.pos).trans hnear.half_lt
  by_cases hreach : e = f.minExponent ∨ 2 ^ (e + f.precision - 1) ≤ r
  · -- the rational has the unit of the number
    have hbelow : r < 2 ^ (e + f.precision) := by
      have hsmall : (s : Rat) + 1 ≤ 2 ^ f.precision := by exact_mod_cast hlt
      have hup := hnear.above
      rw [two_zpow_add, zpow_natCast]
      unfold scaled at hup hhalf
      nlinarith [two_zpow_pos e]
    have hexp := unitExponent_eq hr hmin hbelow hreach
    have hread : nearest f negative r = ofUnits f negative s e :=
      nearest_of_unitExponent hr hexp (by linarith [hnear.below]) (by linarith [hnear.above])
    rw [hread, ofUnits_of_canonical hcanonical]
  · -- the number is a power of two, and the rational lies below it
    obtain ⟨hnotmin, hless⟩ := not_or.mp hreach
    have hpower : scaled (2 ^ (f.precision - 1)) e = 2 ^ (e + f.precision - 1) := by
      have hprecision := hf.precision_pos
      rw [scaled, Nat.cast_pow, Nat.cast_ofNat, ← zpow_natCast, ← two_zpow_add]
      congr 1
      omega
    rw [not_le, ← hpower] at hless
    obtain rfl : s = 2 ^ (f.precision - 1) := by
      refine Nat.le_antisymm ?_ (hfull.resolve_left hnotmin)
      by_contra hmore
      have hmore : ((2 ^ (f.precision - 1) : Nat) : Rat) + 1 ≤ s := by
        exact_mod_cast Nat.not_le.mp hmore
      have hdown := hnear.below
      unfold scaled at hless hdown hhalf
      nlinarith [two_zpow_pos e]
    exact nearest_below_two_pow hf hcanonical hnotmin hnear hless

-- ============================================================ writing

/-- The value of a decimal. -/
def Decimal.value (d : Decimal) : Rat :=
  d.digits * 10 ^ (d.exponent + 1 - (decimal d.digits).length)

/-- Dropping zeros at the end leaves a number that is not zero. -/
theorem dropZeros_ne_zero {fuel n : Nat} (hn : n ≠ 0) : dropZeros fuel n ≠ 0 := by
  induction fuel generalizing n with
  | zero => exact hn
  | succ fuel ih =>
      rw [dropZeros]
      split
      · next hzero => exact ih (by omega)
      · exact hn

/-- What is dropped is a power of ten. -/
theorem exists_dropZeros (fuel n : Nat) : ∃ z, n = dropZeros fuel n * 10 ^ z := by
  induction fuel generalizing n with
  | zero => exact ⟨0, by simp [dropZeros]⟩
  | succ fuel ih =>
      rw [dropZeros]
      split
      · next hzero =>
          obtain ⟨z, hz⟩ := ih (n / 10)
          refine ⟨z + 1, ?_⟩
          rw [Nat.pow_succ, ← Nat.mul_assoc, ← hz]
          omega
      · exact ⟨0, by simp⟩

/-- To drop zeros and to count the power of ten of the first digit loses nothing. -/
theorem value_dropZeros {n : Nat} (hn : n ≠ 0) (fuel : Nat) (k : Int) :
    Decimal.value ⟨dropZeros fuel n, floorLog10 (n * 10 ^ k)⟩ = n * 10 ^ k := by
  obtain ⟨z, hz⟩ := exists_dropZeros fuel n
  have hvalue : (n : Rat) * 10 ^ k = dropZeros fuel n * 10 ^ (z + k) := by
    conv_lhs => rw [hz]
    push_cast
    rw [ten_zpow_add, zpow_natCast, mul_assoc]
  rw [hvalue, floorLog10_mul_zpow (dropZeros_ne_zero hn), Decimal.value]
  dsimp only
  congr 2
  omega

/-- Half of what the last of enough digits counts is less than the part allowed. -/
theorem half_grid_lt {q : Rat} (hq : 0 < q) {count : Nat} (hcount : 2 ^ f.precision < 10 ^ count) :
    (10 : Rat) ^ (floorLog10 q - ((count + 1 : Nat) - 1)) / 2 < q / 2 ^ (f.precision + 1) := by
  have hunit := ten_zpow_pos (floorLog10 q - ((count + 1 : Nat) - 1))
  have hgrid : (10 : Rat) ^ (floorLog10 q - ((count + 1 : Nat) - 1)) * 10 ^ count ≤ q := by
    refine le_trans (le_of_eq ?_) (floorLog10_spec hq).1
    rw [← zpow_natCast, ← ten_zpow_add]
    congr 1
    omega
  have hmore : ((2 : Rat) ^ f.precision) < 10 ^ count := by exact_mod_cast hcount
  have hless := (mul_lt_mul_of_pos_left hmore hunit).trans_le hgrid
  rw [div_lt_div_iff₀ (by norm_num) (by positivity), pow_succ]
  linarith

/-- One of the neighbours on a grid of enough digits is near enough. -/
theorem exists_near_gridNeighbour {q : Rat} (hq : 0 < q) {count : Nat}
    (hcount : 2 ^ f.precision < 10 ^ count) :
    ∃ neighbour ∈ gridNeighbours q (count + 1), f.Near q neighbour.2 := by
  have hfine := half_grid_lt hq hcount
  have hpos := ten_zpow_pos (floorLog10 q - ((count + 1 : Nat) - 1))
  unfold gridNeighbours
  dsimp only
  generalize (10 : Rat) ^ (floorLog10 q - ((count + 1 : Nat) - 1)) = unit at hfine hpos ⊢
  have hfloor : (((q / unit).floor.toNat : Nat) : Rat) = (q / unit).floor := by
    have hnonneg : 0 ≤ (q / unit).floor := by
      rw [Rat.le_floor_iff, Int.cast_zero]
      positivity
    rw [← Int.cast_natCast, Int.toNat_of_nonneg hnonneg]
  have hbelow : (q / unit).floor * unit ≤ q := by
    rw [← le_div_iff₀ hpos]
    exact Rat.floor_le _
  have habove : q < ((q / unit).floor + 1) * unit := by
    rw [← div_lt_iff₀ hpos]
    have := Rat.lt_floor_add_one (q / unit)
    push_cast at this
    exact this
  -- of the two neighbours, one is no further away than half a step
  rcases le_total (q - (q / unit).floor * unit) (unit / 2) with hlow | hhigh
  · refine ⟨((q / unit).floor.toNat, (q / unit).floor.toNat * unit), ?_, hq, ?_, ?_⟩
    · split <;> simp
    · rw [hfloor]
      linarith
    · rw [hfloor]
      linarith
  · refine ⟨((q / unit).floor.toNat + 1, ((q / unit).floor.toNat + 1 : Nat) * unit), ?_, hq, ?_, ?_⟩
    · split <;> simp
    · push_cast
      rw [hfloor]
      linarith
    · push_cast
      rw [hfloor]
      linarith

-- ============================================================ reading back

/-- A format whose numbers can be told apart by as many digits as it is given. -/
structure Format.Legible (f : Format) : Prop extends f.Proper where
  limit : 2 ^ f.precision < 10 ^ (f.digitLimit - 1)

theorem legible_double : double.Legible := ⟨proper_double, by decide⟩

theorem legible_single : single.Legible := ⟨proper_single, by decide⟩

/-- The sign does not matter for how units are rounded. -/
theorem ofUnits_eq_finite {significand s : Nat} {exponent e : Int} (hcanonical : f.Canonical s e)
    (h : ofUnits f false significand exponent = finite false s e hcanonical) (negative : Bool) :
    ofUnits f negative significand exponent = finite negative s e hcanonical := by
  unfold ofUnits at h ⊢
  split at h
  · next hfirst =>
      rw [dif_pos hfirst]
      cases h
      rfl
  · next hfirst =>
      rw [dif_neg hfirst]
      split at h
      · next hsecond =>
          rw [dif_pos hsecond]
          cases h
          rfl
      · cases h

/-- Only zero is read as zero. -/
theorem ne_zero_of_readsAs {q : Rat} {s : Nat} {e : Int} (hs : s ≠ 0)
    (hcanonical : f.Canonical s e) (h : ReadsAs f q s e) : q ≠ 0 := by
  rintro rfl
  rw [ReadsAs, nearest, if_pos rfl, zero, ofUnits_of_canonical hcanonical] at h
  split at h
  · cases h
    exact hs rfl
  · cases h

/-- What reads as a positive number reads with a sign as the number with that sign. -/
theorem nearest_of_readsAs {q : Rat} {s : Nat} (hs : s ≠ 0) {e : Int}
    (hcanonical : f.Canonical s e) (h : ReadsAs f q s e) (negative : Bool) :
    nearest f negative q = finite negative s e hcanonical := by
  have hq := ne_zero_of_readsAs hs hcanonical h
  rw [ReadsAs, ofUnits_of_canonical hcanonical, nearest, if_neg hq] at h
  rw [nearest, if_neg hq]
  exact ofUnits_eq_finite hcanonical h negative

/-- A neighbour on the grid is worth its count of the grid's step. -/
theorem snd_of_mem_gridNeighbours {q : Rat} {count : Nat} {neighbour : Nat × Rat}
    (h : neighbour ∈ gridNeighbours q count) :
    neighbour.2 = neighbour.1 * 10 ^ (floorLog10 q - (count - 1)) := by
  unfold gridNeighbours at h
  dsimp only at h
  split at h
  · simp only [List.mem_cons, List.not_mem_nil, or_false] at h
    rcases h with rfl | rfl <;> rfl
  · simp only [List.mem_cons, List.not_mem_nil, or_false] at h
    rcases h with rfl | rfl <;> rfl

/-- There are digits that read back, and the shortest digits are made of such. -/
theorem exists_shortest (hf : f.Legible) {s : Nat} (hs : s ≠ 0) {e : Int}
    (hcanonical : f.Canonical s e) :
    ∃ (digits : Nat) (k : Int), digits ≠ 0 ∧ ReadsAs f (digits * 10 ^ k) s e
      ∧ shortest f s e = ⟨dropZeros f.digitLimit digits, floorLog10 (digits * 10 ^ k)⟩ := by
  have hpos : 0 < scaled s e := by
    have : (0 : Rat) < s := by exact_mod_cast Nat.pos_of_ne_zero hs
    have := two_zpow_pos e
    unfold scaled
    positivity
  unfold shortest
  dsimp only
  split
  · next digits value hhit =>
      obtain ⟨n, -, hfound⟩ := List.exists_of_findSome?_eq_some hhit
      have hreads : ReadsAs f value s e := by simpa using List.find?_some hfound
      have hvalue := snd_of_mem_gridNeighbours (List.mem_of_find?_eq_some hfound)
      dsimp only at hvalue
      subst hvalue
      refine ⟨digits, _, ?_, hreads, rfl⟩
      -- no digits at all would be read as zero
      rintro rfl
      exact ne_zero_of_readsAs hs hcanonical hreads (by simp)
  · next hnone =>
      -- with as many digits as the limit allows, a neighbour is near enough
      exfalso
      have hlimit := hf.limit
      have hmost : f.digitLimit - 1 ∈ List.range f.digitLimit := by
        have : 0 < f.digitLimit := by
          unfold Format.digitLimit
          omega
        exact List.mem_range.mpr (by omega)
      rw [List.findSome?_eq_none_iff] at hnone
      obtain ⟨neighbour, hmem, hnear⟩ := exists_near_gridNeighbour (f := f) hpos hlimit
      have hmissed := List.find?_eq_none.mp (hnone _ hmost) neighbour hmem
      refine hmissed (decide_eq_true ?_)
      rw [ReadsAs, nearest_of_near hf.toProper hcanonical hnear, ofUnits_of_canonical hcanonical]

/-- The shortest digits of a number read back as that number, with whichever sign. -/
theorem nearest_value_shortest (hf : f.Legible) {s : Nat} (hs : s ≠ 0) {e : Int}
    (hcanonical : f.Canonical s e) (negative : Bool) :
    nearest f negative (shortest f s e).value = finite negative s e hcanonical := by
  obtain ⟨digits, k, hdigits, hreads, hshortest⟩ := exists_shortest hf hs hcanonical
  rw [hshortest, value_dropZeros hdigits]
  exact nearest_of_readsAs hs hcanonical hreads negative

example : shortest single 11184811 (-25) = ⟨33333334, -1⟩ := by decide +kernel

end Vitals.Binary
