/-
How an uptime is broken down into hours, minutes and seconds, and how the breakdown is
written.

# Why nothing wraps

Three limits are at work: the whole seconds stop at sixty-four bits, the hours at
thirty-two, and the minutes and seconds have eight bits each. Minutes and seconds are
remainders below sixty, and the hours are bounded before they are narrowed, so every
narrowing is of a number that fits (`counts_ofTotalSeconds`). What is lost is lost to the
two bounds alone, and the bound on the hours is the lower one.

The breakdown is written with a colon between its fields, and no field has one, so the
fields are what stands between the colons. A field of one digit has a zero in front of it,
which does not change its value (`isDigits_twoDigits`).
-/
import Vitals.Proofs.Text.Numeral
import Vitals.Snapshot

namespace Vitals

open Binary Text

-- ============================================================= digits

namespace Text

/-- Two digits, or more if it takes more, are a numeral of the number. -/
theorem isDigits_twoDigits (n : Nat) : IsDigits (twoDigits n) n := by
  unfold twoDigits
  split
  · refine ⟨by simp, ?_, ?_⟩
    · intro c hc
      rcases List.mem_cons.mp hc with rfl | hc
      · decide
      · exact isDigit_of_mem_decimal hc
    · rw [Nat.ofDigitChars_cons]
      exact ofDigitChars_decimal n
  · exact isDigits_decimal n

/-- There are never fewer than two of them. -/
theorem two_le_length_twoDigits (n : Nat) : 2 ≤ (twoDigits n).length := by
  unfold twoDigits
  split
  · have := length_decimal_pos n
    simp only [List.length_cons]
    omega
  · next hn =>
      -- a single digit would be that of a number below ten
      by_contra hshort
      have hlt := lt_pow_length_decimal n
      have hone : (decimal n).length = 1 := by
        have := length_decimal_pos n
        omega
      rw [hone] at hlt
      omega

/-- There is no colon among them. -/
theorem colon_notMem_twoDigits (n : Nat) : ':' ∉ twoDigits n := by
  intro hcolon
  have := (isDigits_twoDigits n).digits ':' hcolon
  revert this
  decide

end Text

namespace Uptime

-- ========================================================== breakdown

/-- An uptime whose hours, minutes and seconds tell so many whole seconds, up to the
greatest number of hours that thirty-two bits hold. -/
structure Counts (u : Uptime) (whole : Nat) : Prop where
  seconds : u.seconds.toNat = whole % 60
  minutes : u.minutes.toNat = whole % 3600 / 60
  hours : u.hours.toNat = min (whole / 3600) (2 ^ 32 - 1)

/-- The breakdown of an uptime counts its whole seconds. -/
theorem counts_ofTotalSeconds (t : Binary double) :
    (ofTotalSeconds t).Counts (wholeSeconds t) where
  seconds := by
    show (UInt8.ofNat (wholeSeconds t % 60)).toNat = _
    rw [UInt8.toNat_ofNat']
    omega
  minutes := by
    show (UInt8.ofNat (wholeSeconds t % 3600 / 60)).toNat = _
    rw [UInt8.toNat_ofNat']
    omega
  hours := by
    show (UInt32.ofNat (min (wholeSeconds t / 3600) (UInt32.size - 1))).toNat = _
    rw [UInt32.toNat_ofNat']
    have : UInt32.size = 2 ^ 32 := rfl
    omega

namespace Counts

variable {u : Uptime} {whole : Nat} (h : u.Counts whole)
include h

/-- A full hour is never left over in minutes. -/
theorem minutes_lt : u.minutes.toNat < 60 := by
  rw [h.minutes]
  omega

/-- Nor is a full minute in seconds. -/
theorem seconds_lt : u.seconds.toNat < 60 := by
  rw [h.seconds]
  omega

/-- Hours that are not bounded leave nothing out. -/
theorem sum_eq (hfits : whole < 3600 * 2 ^ 32) :
    3600 * u.hours.toNat + 60 * u.minutes.toNat + u.seconds.toNat = whole := by
  rw [h.hours, h.minutes, h.seconds]
  omega

/-- Of no seconds there is nothing in any place. -/
theorem eq_zero (hnone : whole = 0) : u.hours = 0 ∧ u.minutes = 0 ∧ u.seconds = 0 := by
  have hhours := h.hours
  have hminutes := h.minutes
  have hseconds := h.seconds
  rw [hnone] at hhours hminutes hseconds
  exact ⟨UInt32.toNat.inj hhours, UInt8.toNat.inj hminutes, UInt8.toNat.inj hseconds⟩

end Counts

/-- The whole seconds of a positive number are its floor, as far as a word holds it. -/
theorem wholeSeconds_of_pos {t : Binary double} {q : Rat} (hq : t.value? = some q)
    (hpos : 0 < q) : wholeSeconds t = min q.floor.toNat (2 ^ 64 - 1) := by
  unfold wholeSeconds
  rw [hq]
  exact if_pos hpos

/-- Nothing that is not above zero has a whole second. -/
theorem wholeSeconds_eq_zero {t : Binary double} (h : ∀ q, t.value? = some q → q ≤ 0) :
    wholeSeconds t = 0 := by
  unfold wholeSeconds
  split
  · next q hq => exact if_neg (not_lt.mpr (h q hq))
  · rfl

-- ============================================================ writing

/-- A field of the written breakdown: two digits or more that have its value. -/
structure IsField (s : List Char) (n : Nat) : Prop where
  digits : IsDigits s n
  two_le : 2 ≤ s.length

theorem isField_twoDigits (n : Nat) : IsField (twoDigits n) n :=
  ⟨isDigits_twoDigits n, two_le_length_twoDigits n⟩

/-- Between its colons the text of an uptime has its three numbers. -/
theorem splitOn_formatted (u : Uptime) :
    u.formatted.toList.splitOn ':'
      = [twoDigits u.hours.toNat, twoDigits u.minutes.toNat, twoDigits u.seconds.toNat] := by
  rw [formatted, String.toList_ofList, List.append_assoc, List.cons_append,
    List.splitOn_append_cons_self_of_not_mem (colon_notMem_twoDigits _),
    List.splitOn_append_cons_self_of_not_mem (colon_notMem_twoDigits _),
    List.splitOn_eq_singleton (colon_notMem_twoDigits _)]

/-- The digits tell the number. -/
theorem eq_of_twoDigits_eq {m n : Nat} (h : twoDigits m = twoDigits n) : m = n := by
  have hm := (isDigits_twoDigits m).value
  rw [h, (isDigits_twoDigits n).value] at hm
  exact hm.symm

/-- So the text tells the breakdown, and nothing else. -/
theorem formatted_eq_iff {u v : Uptime} :
    u.formatted = v.formatted
      ↔ u.hours = v.hours ∧ u.minutes = v.minutes ∧ u.seconds = v.seconds := by
  constructor
  · intro h
    have hfields := splitOn_formatted u
    rw [h, splitOn_formatted v] at hfields
    simp only [List.cons.injEq, and_true] at hfields
    obtain ⟨hhours, hminutes, hseconds⟩ := hfields
    exact ⟨UInt32.toNat.inj (eq_of_twoDigits_eq hhours.symm),
      UInt8.toNat.inj (eq_of_twoDigits_eq hminutes.symm),
      UInt8.toNat.inj (eq_of_twoDigits_eq hseconds.symm)⟩
  · intro ⟨hhours, hminutes, hseconds⟩
    rw [formatted, formatted, hhours, hminutes, hseconds]

/-- An uptime keeps the seconds that it was made of. If they are finite and positive, its
hours, minutes and seconds tell as many whole ones as there are, up to the bounds of
sixty-four bits on the seconds and of thirty-two on the hours; in all other cases they are
zero. The breakdown is written as three fields of digits between colons, and no other is
written so. -/
theorem breakdown_tells_whole_seconds :
    (∀ t, (ofTotalSeconds t).totalSeconds = t)
    ∧ (∀ t q, t.value? = some q → 0 < q →
        (ofTotalSeconds t).Counts (min q.floor.toNat (2 ^ 64 - 1))
        ∧ (ofTotalSeconds t).minutes.toNat < 60
        ∧ (ofTotalSeconds t).seconds.toNat < 60
        ∧ (q.floor < 3600 * 2 ^ 32 →
            ((3600 * (ofTotalSeconds t).hours.toNat + 60 * (ofTotalSeconds t).minutes.toNat
              + (ofTotalSeconds t).seconds.toNat : Nat) : Int) = q.floor))
    ∧ (∀ t, (∀ q, t.value? = some q → q ≤ 0) →
        (ofTotalSeconds t).hours = 0 ∧ (ofTotalSeconds t).minutes = 0
          ∧ (ofTotalSeconds t).seconds = 0)
    ∧ (∀ u : Uptime, ∃ hours minutes seconds,
        u.formatted.toList.splitOn ':' = [hours, minutes, seconds]
        ∧ IsField hours u.hours.toNat ∧ IsField minutes u.minutes.toNat
        ∧ IsField seconds u.seconds.toNat)
    ∧ ∀ u v : Uptime, u.formatted = v.formatted
        ↔ u.hours = v.hours ∧ u.minutes = v.minutes ∧ u.seconds = v.seconds := by
  refine ⟨fun t => rfl, ?_, ?_, ?_, fun u v => formatted_eq_iff⟩
  · intro t q hq hpos
    have hcounts := counts_ofTotalSeconds t
    rw [wholeSeconds_of_pos hq hpos] at hcounts
    refine ⟨hcounts, hcounts.minutes_lt, hcounts.seconds_lt, ?_⟩
    -- without the cap the count is the floor itself
    intro hfits
    have hfloor : 0 ≤ q.floor := Rat.le_floor_iff.mpr (by simpa using hpos.le)
    rw [hcounts.sum_eq (by omega)]
    omega
  · intro t hnone
    exact (counts_ofTotalSeconds t).eq_zero (wholeSeconds_eq_zero hnone)
  · intro u
    exact ⟨_, _, _, splitOn_formatted u, isField_twoDigits _, isField_twoDigits _,
      isField_twoDigits _⟩

/-- An hour, two minutes and three seconds, with a fraction behind them. -/
def overAnHour : Binary double := .finite false (14895 * 2 ^ 39) (-41) (by decide)

/-- More seconds than sixty-four bits hold. -/
def overTheLimit : Binary double := .finite false (2 ^ 52) 18 (by decide)

/-- An hour and some is broken down without its fraction, what is over the limit is broken
down as the limit is, and what is not a number is not broken down. -/
theorem overAnHour_and_overTheLimit_are_broken_down :
    (overAnHour.value? = some (14895 / 4) ∧ (0 : Rat) < 14895 / 4
      ∧ (ofTotalSeconds overAnHour).Counts 3723
      ∧ (14895 / 4 : Rat).floor < 3600 * 2 ^ 32
      ∧ ((3600 * (ofTotalSeconds overAnHour).hours.toNat
          + 60 * (ofTotalSeconds overAnHour).minutes.toNat
          + (ofTotalSeconds overAnHour).seconds.toNat : Nat) : Int) = 3723)
    ∧ (overTheLimit.value? = some (2 ^ 70) ∧ (0 : Rat) < 2 ^ 70
      ∧ (ofTotalSeconds overTheLimit).Counts (2 ^ 64 - 1))
    ∧ (∀ q, (nan : Binary double).value? = some q → q ≤ 0)
      ∧ (ofTotalSeconds nan).hours = 0 ∧ (ofTotalSeconds nan).minutes = 0
      ∧ (ofTotalSeconds nan).seconds = 0 := by
  obtain ⟨-, hpositive, hothers, -⟩ := breakdown_tells_whole_seconds
  have hhour : overAnHour.value? = some (14895 / 4) := by decide +kernel
  have hlimit : overTheLimit.value? = some (2 ^ 70) := by decide +kernel
  have hfloor : (14895 / 4 : Rat).floor = 3723 := by decide +kernel
  have hbeyond : (2 ^ 70 : Rat).floor = 2 ^ 70 := by decide +kernel
  have hsmall : (14895 / 4 : Rat).floor < 3600 * 2 ^ 32 := by
    rw [hfloor]
    decide
  have hnan : ∀ q, (nan : Binary double).value? = some q → q ≤ 0 := by
    intro q hq
    cases hq
  obtain ⟨hcounts, -, -, hsum⟩ := hpositive overAnHour _ hhour (by norm_num)
  obtain ⟨hmost, -⟩ := hpositive overTheLimit _ hlimit (by norm_num)
  rw [hfloor] at hcounts
  rw [hbeyond] at hmost
  exact ⟨⟨hhour, by norm_num, hcounts, hsmall, (hsum hsmall).trans hfloor⟩,
    ⟨hlimit, by norm_num, hmost⟩, hnan, hothers nan hnan⟩

end Uptime

end Vitals
