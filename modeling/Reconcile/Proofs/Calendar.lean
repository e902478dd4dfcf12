import Mathlib
import Reconcile.Time.Calendar

/-!
# Dates, there and back

A count of days is turned into a date and back by different arithmetic: one way
divides days by average lengths of years and months, the other adds up the days
before a year and before a month. Here the two are shown to fit. The year that is
found for a day of an era is the one that the day lies in (`yearOfEra_spec`), and
the one day on which they could disagree, the 366th of a year, only falls in a
leap year. So a count of days comes back from its date, and the date exists.
-/

namespace Reconcile

namespace Date

/-- The year of an era that a day lies in, as it is computed. -/
def yearOfEra (dayOfEra : Int) : Int :=
  (dayOfEra - dayOfEra / 1460 + dayOfEra / 36524 - dayOfEra / 146096) / 365

/-- The month of a March year that a day lies in, as it is computed. -/
def monthOfYear (dayOfYear : Int) : Int :=
  (5 * dayOfYear + 2) / 153

/-! ## Years of an era -/

section Years

variable {day : Int} (first : 0 ≤ day) (last : day < eraDays)

/-- The quotient that the year is read off lies in that year. -/
theorem yearOfEra_quotient (day : Int) :
    365 * yearOfEra day ≤ day - day / 1460 + day / 36524 - day / 146096 ∧
      day - day / 1460 + day / 36524 - day / 146096 < 365 * yearOfEra day + 365 := by
  unfold yearOfEra
  omega

include first last

theorem yearOfEra_bounds : 0 ≤ yearOfEra day ∧ yearOfEra day ≤ 399 := by
  unfold eraDays at last
  unfold yearOfEra
  omega

/-- **The year found for a day is the one that it lies in.** -/
theorem yearOfEra_spec :
    daysBeforeYear (yearOfEra day) ≤ day ∧
      day ≤ daysBeforeYear (yearOfEra day) + 365 := by
  obtain ⟨hlow, hhigh⟩ := yearOfEra_bounds first last
  obtain ⟨hquotient, hquotient'⟩ := yearOfEra_quotient day
  unfold eraDays at last
  unfold daysBeforeYear
  generalize yearOfEra day = year at *
  -- the leap days before the day and those before its year differ by one at most
  have hcenturies : year / 100 ≤ day / 36524 ∧ day / 36524 ≤ year / 100 + 1 := by
    constructor <;> omega
  have hfours : year / 4 ≤ day / 1460 ∧ day / 1460 ≤ year / 4 + 1 := by
    constructor <;> omega
  constructor <;> omega

/-- A 366th day ends a leap year, counted by the January in it. -/
theorem isLeapYear_of_last_day
    (hday : day = daysBeforeYear (yearOfEra day) + 365) :
    isLeapYear (yearOfEra day + 1) = true := by
  obtain ⟨hlow, hhigh⟩ := yearOfEra_bounds first last
  obtain ⟨_, hquotient⟩ := yearOfEra_quotient day
  unfold eraDays at last
  unfold daysBeforeYear at hday
  generalize yearOfEra day = year at *
  by_cases hera : day = 146096
  · obtain rfl : year = 399 := by omega
    rfl
  · have hcenturies : year / 100 ≤ day / 36524 := by omega
    have hend : day / 146096 = 0 := by omega
    have hfours : year / 4 < day / 1460 := by omega
    have hthird : year % 4 = 3 := by omega
    have hfour : (year + 1) % 4 = 0 := by omega
    have hcentury : (year + 1) % 100 ≠ 0 := by omega
    simp [isLeapYear, hfour, hcentury]

end Years

/-- Leap years recur with the eras. -/
theorem isLeapYear_add_era (era year : Int) :
    isLeapYear (era * 400 + year) = isLeapYear year := by
  unfold isLeapYear
  have h4 : (era * 400 + year) % 4 = year % 4 := by omega
  have h100 : (era * 400 + year) % 100 = year % 100 := by omega
  have h400 : (era * 400 + year) % 400 = year % 400 := by omega
  rw [h4, h100, h400]

/-! ## Months of a year -/

/-- **The month found for a day is the one that it lies in**, and the day of the
month is one that the month has, 29 February aside. -/
theorem monthOfYear_spec {day : Int} (first : 0 ≤ day) (last : day ≤ 365) :
    0 ≤ monthOfYear day ∧ monthOfYear day ≤ 11 ∧
    daysBeforeMonth (monthOfYear day) ≤ day ∧
    (∀ year, day < 365 →
      day - daysBeforeMonth (monthOfYear day) + 1 ≤
        monthDays year (if monthOfYear day < 10 then monthOfYear day + 3
          else monthOfYear day - 9)) ∧
    (day = 365 → monthOfYear day = 11) := by
  have hmonth : 0 ≤ monthOfYear day ∧ monthOfYear day ≤ 11 := by
    unfold monthOfYear
    omega
  refine ⟨hmonth.1, hmonth.2, ?_, ?_, ?_⟩
  · unfold daysBeforeMonth monthOfYear
    omega
  · intro year hday
    have hdays := hmonth
    generalize hm : monthOfYear day = month at hdays ⊢
    unfold monthOfYear at hm
    obtain ⟨hlow, hhigh⟩ := hdays
    interval_cases month
    case «11» =>
      have hshort : 28 ≤ monthDays year 2 := by
        unfold monthDays
        split <;> omega
      simp [daysBeforeMonth]
      omega
    all_goals
      simp [daysBeforeMonth, monthDays]
      omega
  · unfold monthOfYear
    omega

/-! ## Days -/

/-- What `ofDays` computes, part by part. -/
theorem ofDays_eq (days : Int) :
    ∃ era dayOfEra dayOfYear, 0 ≤ dayOfEra ∧ dayOfEra < eraDays ∧
      days + epochShift = era * eraDays + dayOfEra ∧
      dayOfYear = dayOfEra - daysBeforeYear (yearOfEra dayOfEra) ∧
      ofDays days =
        if monthOfYear dayOfYear < 10 then
          ⟨era * 400 + yearOfEra dayOfEra, monthOfYear dayOfYear + 3,
            dayOfYear - daysBeforeMonth (monthOfYear dayOfYear) + 1⟩
        else
          ⟨era * 400 + yearOfEra dayOfEra + 1, monthOfYear dayOfYear - 9,
            dayOfYear - daysBeforeMonth (monthOfYear dayOfYear) + 1⟩ := by
  refine ⟨(days + epochShift) / eraDays, (days + epochShift) % eraDays, _,
    Int.emod_nonneg _ (by decide), Int.emod_lt_of_pos _ (by decide), ?_, rfl, rfl⟩
  rw [Int.mul_comm, Int.mul_ediv_add_emod]

/-- **A count of days comes back from its date.** -/
theorem toDays_ofDays (days : Int) : (ofDays days).toDays = days := by
  obtain ⟨era, day, rest, hfirst, hlast, hdays, hrest, hdate⟩ := ofDays_eq days
  obtain ⟨hyear, hyear'⟩ := yearOfEra_bounds hfirst hlast
  obtain ⟨hbefore, hafter⟩ := yearOfEra_spec hfirst hlast
  obtain ⟨hmonth, hmonth', _⟩ := @monthOfYear_spec rest (by omega) (by omega)
  have hera : (era * 400 + yearOfEra day) / 400 = era := by omega
  have hyears : (era * 400 + yearOfEra day) % 400 = yearOfEra day := by omega
  rw [hdate]
  by_cases h : monthOfYear rest < 10
  · rw [if_pos h]
    have hlate : ¬ monthOfYear rest + 3 ≤ 2 := by omega
    simp only [toDays, if_neg hlate, hera, hyears, Int.add_sub_cancel]
    omega
  · rw [if_neg h]
    have hearly : monthOfYear rest - 9 ≤ 2 := by omega
    simp only [toDays, if_pos hearly, hera, hyears, Int.add_sub_cancel, Int.sub_add_cancel]
    omega

/-- **The date of a day exists**, and lies in the range of instants with it. -/
theorem isValid_ofDays {days : Int} (first : -96465292 ≤ days)
    (last : days ≤ 95026236) : (ofDays days).isValid = true := by
  obtain ⟨era, day, rest, hfirst, hlast, hdays, hrest, hdate⟩ := ofDays_eq days
  obtain ⟨hyear, hyear'⟩ := yearOfEra_bounds hfirst hlast
  obtain ⟨hbefore, hafter⟩ := yearOfEra_spec hfirst hlast
  obtain ⟨hmonth, hmonth', hday, hshort, hlong⟩ :=
    @monthOfYear_spec rest (by omega) (by omega)
  have hrange : firstYear ≤ (ofDays days).year ∧ (ofDays days).year ≤ lastYear := by
    unfold eraDays at hdays hlast
    unfold epochShift at hdays
    unfold daysBeforeYear at hrest hbefore hafter
    unfold firstYear lastYear
    have hera : -656 ≤ era ∧ era ≤ 655 := by omega
    have hend : era = 655 → day ≤ 52169 := by omega
    have hbegin : era = -656 → 93808 ≤ day := by omega
    rw [hdate]
    unfold monthOfYear at *
    split
    · dsimp only
      omega
    · dsimp only
      omega
  have hexists : (ofDays days).day ≤
      monthDays (ofDays days).year (ofDays days).month := by
    rw [hdate]
    by_cases hlate : rest = 365
    · have hleap : isLeapYear (yearOfEra day + 1) = true :=
        isLeapYear_of_last_day hfirst hlast (by omega)
      rw [hlong hlate, if_neg (by decide), hlate, Int.add_assoc, monthDays]
      simp [isLeapYear_add_era, hleap, daysBeforeMonth]
    · have hfits := hshort (ofDays days).year (by omega)
      rw [hdate] at hfits
      split at hfits <;> rename_i h
      · simpa only [if_pos h] using hfits
      · simpa only [if_neg h] using hfits
  simp only [isValid, Bool.and_eq_true, decide_eq_true_eq]
  refine ⟨⟨⟨⟨hrange, ?_⟩, ?_⟩, ?_⟩, hexists⟩
  all_goals
    rw [hdate]
    split
    · dsimp only
      omega
    · dsimp only
      omega

theorem bounds_of_isValid {d : Date} (valid : d.isValid = true) :
    (firstYear ≤ d.year ∧ d.year ≤ lastYear) ∧ (1 ≤ d.month ∧ d.month ≤ 12) ∧
      1 ≤ d.day ∧ d.day ≤ 31 := by
  simp only [isValid, Bool.and_eq_true, decide_eq_true_eq] at valid
  obtain ⟨⟨⟨⟨hyear, hmonth⟩, hmonth'⟩, hday⟩, hlast⟩ := valid
  have hlong : monthDays d.year d.month ≤ 31 := by
    unfold monthDays
    split
    · split <;> omega
    · split <;> omega
  exact ⟨hyear, ⟨hmonth, hmonth'⟩, hday, hlast.trans hlong⟩

end Date

end Reconcile
