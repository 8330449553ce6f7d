import Intake.Time.Instant
import Mathlib.Tactic.IntervalCases

/-!
# Dates of day numbers

Every day number in the range of instants is that of a valid date. Years are counted from the
first of March here, so that a leap day is the last day of its year: a day number is split
into a cycle of 400 years, a year in the cycle and a day in the year, and the day into a month
and a day of the month.
-/

namespace Intake.Time.Date

/-! ## Years that begin in March -/

/-- The number of days from the first of March of the year zero to that of a year. -/
def yearStart (year : Int) : Int := 365 * year + year / 4 - year / 100 + year / 400

theorem yearStart_cycle (year cycle : Int) :
    yearStart (year + 400 * cycle) = yearStart year + 146097 * cycle := by
  have hfour : (year + 400 * cycle) / 4 = year / 4 + 100 * cycle := by omega
  have hhundred : (year + 400 * cycle) / 100 = year / 100 + 4 * cycle := by omega
  have hcycle : (year + 400 * cycle) / 400 = year / 400 + cycle := by omega
  rw [yearStart, yearStart, hfour, hhundred, hcycle]
  omega

section cycle

variable {day century leap year : Int}

/-- The century of a day in a cycle is that of its year. -/
theorem century_of_day (hday : 0 ≤ day ∧ day < 146096) (hcentury : century = day / 36524)
    (hleap : leap = day / 1460) (hyear : year = (day - leap + century) / 365) :
    year / 100 = century := by
  have hbounds : 0 ≤ century ∧ century < 4 := by omega
  obtain ⟨hlow, hhigh⟩ := hbounds
  have hyears : 100 * century ≤ year ∧ year < 100 * century + 100 := by
    interval_cases century <;> omega
  omega

/-- The leap days before a day in a cycle are those of the years before its own, and perhaps one
more. -/
theorem leap_of_day (hday : 0 ≤ day ∧ day < 146096) (hcentury : century = day / 36524)
    (hleap : leap = day / 1460) (hyear : year = (day - leap + century) / 365) :
    year / 4 ≤ leap ∧ leap ≤ year / 4 + 1 := by
  have := century_of_day hday hcentury hleap hyear
  omega

/-- A day of a cycle but the last one belongs to its year, and is the leap day if it is the 366th
of it. -/
theorem day_of_year (hday : 0 ≤ day ∧ day < 146096) (hcentury : century = day / 36524)
    (hleap : leap = day / 1460) (hyear : year = (day - leap + century) / 365) :
    0 ≤ day - (365 * year + year / 4 - year / 100) ∧
      day - (365 * year + year / 4 - year / 100) ≤ 365 ∧
      (day - (365 * year + year / 4 - year / 100) = 365 →
        (year + 1) % 4 = 0 ∧ (year + 1) % 100 ≠ 0) := by
  have hhundred := century_of_day hday hcentury hleap hyear
  have hfour := leap_of_day hday hcentury hleap hyear
  refine ⟨by omega, by omega, fun hlast => ?_⟩
  have hafter : leap = year / 4 + 1 := by omega
  have hfew : year / 4 - year / 100 ≤ 96 := by omega
  obtain ⟨rest, hrest⟩ : ∃ rest, year = 4 * (year / 4) + rest :=
    ⟨year - 4 * (year / 4), by omega⟩
  have hthree : rest = 3 := by omega
  constructor
  · omega
  · omega

end cycle

/-! ## Splitting a day number -/

/-- The date of a day of a year, both counted from March. -/
def fromMarch (year day : Int) : Date :=
  let month := (5 * day + 2) / 153
  let dayOfMonth := day - (153 * month + 2) / 5 + 1
  if month < 10 then ⟨year, (month + 3).toNat, dayOfMonth.toNat⟩
  else ⟨year + 1, (month - 9).toNat, dayOfMonth.toNat⟩

/-- A year that begins in March with the number of a day in it, which is the 366th only if the
year after has a leap day. -/
structure DayOfYear (year day : Int) : Prop where
  first : 0 ≤ day
  last : day ≤ 365
  leap : day = 365 → isLeapYear (year + 1) = true

theorem ofDays_eq (days : Int) :
    ∃ year day, DayOfYear year day ∧ days + 719468 = yearStart year + day ∧
      ofDays days = fromMarch year day := by
  have hday : 0 ≤ (days + 719468) % 146097 ∧ (days + 719468) % 146097 < 146097 := by omega
  generalize hd : (days + 719468) % 146097 = day at hday
  generalize hc : (days + 719468) / 146097 = cycle
  generalize hy : (day - day / 1460 + day / 36524 - day / 146096) / 365 = year
  have heq : ofDays days = fromMarch (year + 400 * cycle)
      (day - (365 * year + year / 4 - year / 100)) := by
    rw [ofDays, hd, hc, hy]
    rfl
  by_cases hlast : day = 146096
  · obtain rfl : year = 399 := by omega
    refine ⟨_, _, ⟨by omega, by omega, fun _ => ?_⟩, ?_, heq⟩
    · simp [isLeapYear]
      omega
    · rw [yearStart_cycle, yearStart]
      omega
  · have hrange : 0 ≤ day ∧ day < 146096 := ⟨hday.1, by omega⟩
    have hquotient : year = (day - day / 1460 + day / 36524) / 365 := by omega
    have hsplit := day_of_year hrange rfl rfl hquotient
    have hyears := century_of_day hrange rfl rfl hquotient
    refine ⟨_, _, ⟨hsplit.1, hsplit.2.1, fun h => ?_⟩, ?_, heq⟩
    · have hleap := hsplit.2.2 h
      simp [isLeapYear]
      omega
    · rw [yearStart_cycle, yearStart]
      omega

theorem toDays_fromMarch {year day : Int} (h : DayOfYear year day) :
    (fromMarch year day).toDays = yearStart year + day - 719468 := by
  have hfirst := h.first
  have hlast := h.last
  generalize hm : (5 * day + 2) / 153 = month
  have hbounds : 0 ≤ month ∧ month ≤ 11 := by omega
  simp only [fromMarch, hm]
  split
  · next hmonth =>
      have hback : ((month + 3).toNat + 9) % 12 = month.toNat := by omega
      simp only [toDays, yearStart, hback]
      omega
  · next hmonth =>
      have hback : ((month - 9).toNat + 9) % 12 = month.toNat := by omega
      simp only [toDays, yearStart, hback]
      omega

/-- The months have at least as many days as the splitting gives them. -/
theorem day_fromMarch {year day : Int} (h : DayOfYear year day) :
    1 ≤ (fromMarch year day).day ∧
      (fromMarch year day).day ≤
        daysInMonth (fromMarch year day).year (fromMarch year day).month := by
  have hfirst := h.first
  have hlast := h.last
  generalize hm : (5 * day + 2) / 153 = month
  have hbounds : 0 ≤ month ∧ month ≤ 11 := by omega
  obtain ⟨hlow, hhigh⟩ := hbounds
  simp only [fromMarch, hm]
  by_cases hfebruary : month = 11
  · subst hfebruary
    -- only this month has a length that depends on the year
    have hdays : daysInMonth (year + 1) 2 = 29 ∨
        daysInMonth (year + 1) 2 = 28 ∧ day ≠ 365 := by
      rw [daysInMonth]
      split
      · left
        rfl
      · next hleap => exact Or.inr ⟨rfl, fun h' => hleap (h.leap h')⟩
    simp only [show ¬(11 : Int) < 10 by decide, if_false, show ((11 : Int) - 9).toNat = 2 by decide]
    omega
  · interval_cases month
    all_goals simp [daysInMonth]
    all_goals omega

/-- Day numbers lead back from the dates that they give. -/
theorem toDays_ofDays (days : Int) : (ofDays days).toDays = days := by
  obtain ⟨year, day, hday, hsum, heq⟩ := ofDays_eq days
  rw [heq, toDays_fromMarch hday]
  omega

theorem year_fromMarch (year day : Int) :
    (fromMarch year day).year = if (5 * day + 2) / 153 < 10 then year else year + 1 := by
  simp only [fromMarch]
  split <;> rfl

/-- The years of the dates between the first and the last one that a date may have. -/
theorem year_ofDays {days : Int} (hlow : -96465292 ≤ days) (hhigh : days ≤ 95026236) :
    minYear ≤ (ofDays days).year ∧ (ofDays days).year ≤ maxYear := by
  obtain ⟨year, day, hday, hsum, heq⟩ := ofDays_eq days
  have hfirst := hday.first
  have hlast := hday.last
  rw [yearStart] at hsum
  have hlower : -262144 ≤ year := by omega
  have hupper : year ≤ 262142 := by omega
  rw [heq, year_fromMarch, minYear, maxYear]
  split
  · next hmonth =>
      refine ⟨?_, hupper⟩
      by_contra hbelow
      obtain rfl : year = -262144 := by omega
      omega
  · next hmonth =>
      refine ⟨by omega, ?_⟩
      by_contra habove
      obtain rfl : year = 262142 := by omega
      omega

theorem isValid_ofDays {days : Int} (hlow : -96465292 ≤ days) (hhigh : days ≤ 95026236) :
    (ofDays days).IsValid := by
  obtain ⟨hmin, hmax⟩ := year_ofDays hlow hhigh
  obtain ⟨year, day, hday, hsum, heq⟩ := ofDays_eq days
  obtain ⟨hone, hmonth⟩ := day_fromMarch hday
  rw [← heq] at hone hmonth
  exact ⟨hmin, hmax, hone, hmonth⟩

/-! ## Months and days of valid dates -/

theorem daysInMonth_le (year : Int) (month : Nat) : daysInMonth year month ≤ 31 := by
  rw [daysInMonth.eq_def]
  split
  all_goals first | decide | (split <;> decide)

theorem IsValid.day {d : Date} (h : d.IsValid) : 1 ≤ d.day ∧ d.day ≤ 31 :=
  ⟨h.2.2.1, h.2.2.2.trans (daysInMonth_le _ _)⟩

theorem IsValid.month {d : Date} (h : d.IsValid) : 1 ≤ d.month ∧ d.month ≤ 12 := by
  have hdays : 1 ≤ daysInMonth d.year d.month := h.2.2.1.trans h.2.2.2
  rw [daysInMonth.eq_def] at hdays
  split at hdays
  all_goals omega

end Intake.Time.Date
