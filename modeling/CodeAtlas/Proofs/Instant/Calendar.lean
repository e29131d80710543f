import CodeAtlas.Instant
import Mathlib.Data.Int.Init
import Mathlib.Data.Nat.Notation
import Mathlib.Tactic.IntervalCases
import Mathlib.Tactic.Linarith
import Mathlib.Tactic.Ring

/-!
# Days and dates

Years are taken to begin with March, so that the day that only some years have comes last. A
period of 400 years has 146097 days: four times 36524, and a last one. One of 100 years has 25
times 1461 days, without the last one unless it ends the 400; one of four years has four times
365, and a last one.

* `IsPlace`: the place of a day in its period.
* `IsPlace.yearOfEra_eq`: the year of a day, found without any case.
* `civil_spec`: **the date of a day is a date, and is the date of this day.**
-/

namespace CodeAtlas.Instant

/-! ## Years -/

/-- **The place of a day in 400 years**: its century, the four years of this, the year of these
and the day of this year. -/
structure IsPlace (day c q y r : ℤ) : Prop where
  day_eq : day = 36524 * c + 1461 * q + 365 * y + r
  century : 0 ≤ c ∧ c ≤ 3
  quad : 0 ≤ q ∧ q ≤ 24
  year : 0 ≤ y ∧ y ≤ 3
  day : 0 ≤ r ∧ r ≤ 365
  leap : r = 365 → y = 3 ∧ (q = 24 → c = 3)

theorem exists_isPlace {day : ℤ} (h0 : 0 ≤ day) (h1 : day ≤ 146096) : ∃ c q y r, IsPlace day c q y r := by
  obtain ⟨c, d, hday, hc, hd, hlast⟩ : ∃ c d : ℤ, day = 36524 * c + d ∧ (0 ≤ c ∧ c ≤ 3) ∧ (0 ≤ d ∧ d ≤ 36524) ∧
      (d = 36524 → c = 3) := by
    -- the last day of all comes after four centuries, and counts to the last of them
    by_cases h : day = 146096
    · exact ⟨3, 36524, by omega⟩
    · exact ⟨day / 36524, day % 36524, by omega⟩
  obtain ⟨y, r, he, hy, hr, hleap⟩ : ∃ y r : ℤ, d % 1461 = 365 * y + r ∧ (0 ≤ y ∧ y ≤ 3) ∧ (0 ≤ r ∧ r ≤ 365) ∧
      (r = 365 → y = 3) := by
    -- and so does the last day of four years
    by_cases h : d % 1461 = 1460
    · exact ⟨3, 365, by omega⟩
    · exact ⟨d % 1461 / 365, d % 1461 % 365, by omega⟩
  exact ⟨c, d / 1461, y, r, by omega, hc, by omega, hy, hr, by omega⟩

variable {day c q y r : ℤ}

/-- **The year of a day in 400 years**, found without any case. -/
theorem IsPlace.yearOfEra_eq (h : IsPlace day c q y r) :
    (day - day / 1460 + day / 36524 - day / 146096) / 365 = 100 * c + 4 * q + y := by
  obtain ⟨hday, hc, hq, hy, hr, hleap⟩ := h
  have hrest : 1461 * q + 365 * y + r < 36524 ∨ 1461 * q + 365 * y + r = 36524 ∧ c = 3 := by omega
  have hcentury : day / 36524 - day / 146096 = c := by
    rcases hrest with hlt | ⟨heq, rfl⟩
    · have hzero : day / 146096 = 0 := by omega
      omega
    · omega
  -- the last days of four years count as one more of the 1460 days
  have hquad : day / 1460 = 25 * c + q + if 1460 ≤ 24 * c + q + 365 * y + r then 1 else 0 := by
    split <;> omega
  split at hquad <;> omega

/-- The day of the year. -/
theorem IsPlace.dayOfYear_eq (h : IsPlace day c q y r) :
    day - (365 * (100 * c + 4 * q + y) + (100 * c + 4 * q + y) / 4 - (100 * c + 4 * q + y) / 100) = r := by
  obtain ⟨hday, -, hq, hy, -⟩ := h
  omega

/-! ## Months -/

/-- **The month of a day of the year**, counted from March on and by its number. -/
structure IsMonth (r shifted : ℤ) (month : ℕ) : Prop where
  bounds : 1 ≤ month ∧ month ≤ 12
  number : (if shifted < 10 then shifted + 3 else shifted - 9) = month
  back : ((month + 9) % 12 : ℕ) = shifted
  first_le : (153 * shifted + 2) / 5 ≤ r
  lt_length : month ≠ 2 → ∀ year, r - (153 * shifted + 2) / 5 < daysInMonth year month
  lt_february : month = 2 → r - (153 * shifted + 2) / 5 < if r = 365 then 29 else 28

theorem exists_isMonth (hr : 0 ≤ r ∧ r ≤ 365) : ∃ month, IsMonth r ((5 * r + 2) / 153) month := by
  have hbounds : 0 ≤ (5 * r + 2) / 153 ∧ (5 * r + 2) / 153 ≤ 11 := by omega
  generalize hs : (5 * r + 2) / 153 = shifted at hbounds
  refine ⟨(if shifted < 10 then shifted + 3 else shifted - 9).toNat, ?_⟩
  obtain ⟨hlow, hhigh⟩ := hbounds
  -- month by month, from March on
  interval_cases shifted <;> constructor <;> simp [daysInMonth] <;> omega

/-- The years whose February has one day more. -/
theorem isLeapYear_of_place (era : ℤ) (hq : 0 ≤ q ∧ q ≤ 24) (hc : q = 24 → c = 3) :
    isLeapYear (100 * c + 4 * q + 3 + era * 400 + 1) = true := by
  simp only [isLeapYear, Bool.and_eq_true, Bool.or_eq_true, decide_eq_true_eq, ne_eq]
  refine ⟨by omega, ?_⟩
  rcases hq.2.lt_or_eq with hlt | rfl
  · left
    omega
  · right
    obtain rfl := hc rfl
    omega

/-- The day of a month is one of the month. -/
theorem IsMonth.lt_daysInMonth {shifted : ℤ} {month : ℕ} (h : IsMonth r shifted month) (hplace : IsPlace day c q y r)
    (era : ℤ) :
    r - (153 * shifted + 2) / 5 <
      daysInMonth (100 * c + 4 * q + y + era * 400 + if month ≤ 2 then 1 else 0) month := by
  by_cases hfeb : month = 2
  · have hlt := h.lt_february hfeb
    rw [hfeb, if_pos le_rfl]
    by_cases hlast : r = 365
    · obtain ⟨rfl, hcentury⟩ := hplace.leap hlast
      rw [if_pos hlast] at hlt
      simpa only [daysInMonth, if_true, isLeapYear_of_place era hplace.quad hcentury, Nat.cast_ofNat] using hlt
    · rw [if_neg hlast] at hlt
      simp only [daysInMonth, if_true]
      split <;> omega
  · exact h.lt_length hfeb _

/-! ## Dates -/

/-- A date of the calendar. -/
def IsDate (year : ℤ) (month day : ℕ) : Prop := 1 ≤ month ∧ month ≤ 12 ∧ 1 ≤ day ∧ day ≤ daysInMonth year month

theorem ofCivil_of_year {year yearOfEra era shifted : ℤ} {month day : ℕ}
    (hyear : (if month ≤ 2 then year - 1 else year) = yearOfEra + era * 400) (hbounds : 0 ≤ yearOfEra ∧ yearOfEra < 400)
    (hshifted : ((month + 9) % 12 : ℕ) = shifted) :
    ofCivil year month day = era * 146097 +
      (365 * yearOfEra + yearOfEra / 4 - yearOfEra / 100 + ((153 * shifted + 2) / 5 + day - 1)) - 719468 := by
  have hera : (yearOfEra + era * 400) / 400 = era := by omega
  simp only [ofCivil, hyear, hera, hshifted, add_sub_cancel_right]
  ring

/-- **The date of a day is a date, and is the date of this day.** -/
theorem civil_spec (days : ℤ) :
    IsDate (civil days).1 (civil days).2.1 (civil days).2.2 ∧
      ofCivil (civil days).1 (civil days).2.1 (civil days).2.2 = days := by
  have hday : 0 ≤ (days + 719468) % 146097 ∧ (days + 719468) % 146097 ≤ 146096 := by omega
  have hofEra : days + 719468 - (days + 719468) / 146097 * 146097 = (days + 719468) % 146097 := by omega
  obtain ⟨c, q, y, r, hplace⟩ := exists_isPlace hday.1 hday.2
  obtain ⟨month, hmonth⟩ := exists_isMonth hplace.day
  have hcivil : civil days =
      (100 * c + 4 * q + y + (days + 719468) / 146097 * 400 + (if month ≤ 2 then 1 else 0), month,
        (r - (153 * ((5 * r + 2) / 153) + 2) / 5 + 1).toNat) := by
    simp only [civil, hofEra, hplace.yearOfEra_eq, hplace.dayOfYear_eq, hmonth.number, Int.toNat_natCast,
      Nat.cast_le_ofNat]
  rw [hcivil]
  -- from here on the divisions are done, and what they came to is known by its bounds
  generalize (5 * r + 2) / 153 = shifted at hmonth
  generalize (days + 719468) / 146097 = era at hofEra
  have hlt := hmonth.lt_daysInMonth hplace era
  have hfirst := hmonth.first_le
  generalize hd : (r - (153 * shifted + 2) / 5 + 1).toNat = d
  have hdInt : (d : ℤ) = r - (153 * shifted + 2) / 5 + 1 := by omega
  dsimp only
  refine ⟨⟨hmonth.bounds.1, hmonth.bounds.2, by omega, by omega⟩, ?_⟩
  have hyear : (if month ≤ 2 then 100 * c + 4 * q + y + era * 400 + (if month ≤ 2 then 1 else 0) - 1
      else 100 * c + 4 * q + y + era * 400 + if month ≤ 2 then 1 else 0) = 100 * c + 4 * q + y + era * 400 := by
    split <;> ring
  have hbounds : 0 ≤ 100 * c + 4 * q + y ∧ 100 * c + 4 * q + y < 400 := by
    have := hplace.century
    have := hplace.quad
    have := hplace.year
    omega
  have hofYear := hplace.dayOfYear_eq
  rw [ofCivil_of_year hyear hbounds hmonth.back, hdInt]
  linarith

end CodeAtlas.Instant
