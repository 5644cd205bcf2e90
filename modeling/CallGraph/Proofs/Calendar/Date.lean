import CallGraph.Calendar.Instant
import Mathlib.Order.Basic

/-!
# Days and their dates

The date of a day is found by arithmetic on the eras of 400 years and on years that begin in March.
This module splits an era into centuries, groups of four years and years, which shows that the date
exists in the calendar and that it leads back to the day.

Main results:

- Theorem `Date.toDays_ofDays`: the date of a day is that of no other day.
- Theorem `Date.isValid_ofDays_iff`: the date of a day exists if the calendar goes to its year.
-/

namespace CallGraph.Date

/-! ## Years that begin in March -/

/-- The given day, counted from zero, of the year that begins in March of `year`. -/
def ofMarchYear (year day : Int) : Date :=
  let month := (5 * day + 2) / 153
  let dayOfMonth := day - (153 * month + 2) / 5 + 1
  if month < 10 then ⟨year, (month + 3).toNat, dayOfMonth.toNat⟩
  else ⟨year + 1, (month - 9).toNat, dayOfMonth.toNat⟩

/-- Day and month of a day of the year.  The months from March on have 31 and 30 days in turn, but
July and August both have 31, and only what is left of a year is February. -/
theorem month_and_day {day : Int} (hday : 0 ≤ day ∧ day ≤ 365) :
    let month := (5 * day + 2) / 153
    let dayOfMonth := day - (153 * month + 2) / 5 + 1
    (0 ≤ month ∧ month ≤ 11) ∧ (1 ≤ dayOfMonth ∧ dayOfMonth ≤ 31) ∧
      (month = 1 ∨ month = 3 ∨ month = 6 ∨ month = 8 → dayOfMonth ≤ 30) ∧
      (month = 11 → dayOfMonth ≤ 29 ∧ (dayOfMonth = 29 → day = 365)) := by
  intro month dayOfMonth
  omega

/-- The days before a year that begins with March, with its leap days. -/
theorem toDays_ofMarchYear (year : Int) {day : Int} (hday : 0 ≤ day ∧ day ≤ 365) :
    (ofMarchYear year day).toDays =
      365 * year + year / 4 - year / 100 + year / 400 + day - 719468 := by
  obtain ⟨⟨hmonth, hmonth'⟩, ⟨hfirst, -⟩, -⟩ := month_and_day hday
  rw [ofMarchYear]
  generalize (5 * day + 2) / 153 = month at *
  split
  · have hplace : ¬ (month + 3).toNat ≤ 2 := by omega
    have hmonths : ((month + 3).toNat + 9 : Int) % 12 = month := by omega
    simp only [toDays, if_neg hplace, hmonths]
    omega
  · have hplace : (month - 9).toNat ≤ 2 := by omega
    have hmonths : ((month - 9).toNat + 9 : Int) % 12 = month := by omega
    simp only [toDays, if_pos hplace, hmonths, Int.add_sub_cancel]
    omega

/-- A day of the year exists, if the calendar goes to its year and the year is a leap year in case
it is day 365. -/
theorem isValid_ofMarchYear_iff {year day : Int} (hday : 0 ≤ day ∧ day ≤ 365)
    (hleap : day = 365 → isLeap (year + 1) = true) :
    (ofMarchYear year day).isValid = true ↔
      -262143 ≤ (ofMarchYear year day).year ∧ (ofMarchYear year day).year ≤ 262142 := by
  have hdays : 1 ≤ (ofMarchYear year day).month ∧ (ofMarchYear year day).month ≤ 12 ∧
      1 ≤ (ofMarchYear year day).day ∧ (ofMarchYear year day).day ≤
        daysInMonth (ofMarchYear year day).year (ofMarchYear year day).month := by
    obtain ⟨⟨hmonth, hmonth'⟩, ⟨hfirst, hlast⟩, hshort, hfebruary⟩ := month_and_day hday
    rw [ofMarchYear]
    generalize hnumber : (5 * day + 2) / 153 = month at *
    generalize hplace : day - (153 * month + 2) / 5 + 1 = dayOfMonth at *
    by_cases hlong : month = 11
    · -- February ends the year, and has a day 29 only if that is day 365.
      subst hlong
      have hbound := hfebruary rfl
      have hlength : dayOfMonth.toNat ≤ daysInMonth (year + 1) 2 := by
        by_cases hleapDay : dayOfMonth = 29
        · simp [daysInMonth, hleap (hbound.2 hleapDay), hleapDay]
        · have hleast : 28 ≤ daysInMonth (year + 1) 2 := by
            rw [daysInMonth]
            split <;> decide
          omega
      simp only [Int.reduceLT, if_false, Int.reduceSub, Int.reduceToNat]
      omega
    · obtain rfl | rfl | rfl | rfl | rfl | rfl | rfl | rfl | rfl | rfl | rfl :
        month = 0 ∨ month = 1 ∨ month = 2 ∨ month = 3 ∨ month = 4 ∨ month = 5 ∨ month = 6 ∨
          month = 7 ∨ month = 8 ∨ month = 9 ∨ month = 10 := by omega
      all_goals
        simp only [daysInMonth, Int.reduceLT, if_true, if_false, Int.reduceAdd, Int.reduceSub,
          Int.reduceToNat]
        omega
  simp only [isValid, Bool.and_eq_true, decide_eq_true_eq, hdays, and_true]

/-! ## Eras -/

/-- The days of an era of 400 years, counted from zero: `century` full centuries, then groups of
four years, years and days.  A year has a day 365 if it is the last of a group of four, and the
last of its century only if it is also the last of the era. -/
structure SplitsEra (n century group year day : Int) : Prop where
  century_range : 0 ≤ century ∧ century ≤ 3
  group_range : 0 ≤ group ∧ group ≤ 24
  year_range : 0 ≤ year ∧ year ≤ 3
  day_range : 0 ≤ day ∧ day ≤ 365
  leap : day = 365 → year = 3 ∧ (group = 24 → century = 3)
  eq : n = 36524 * century + 1461 * group + 365 * year + day

/-- Every day of an era lies in a century, a group of four years and a year. -/
theorem exists_splitsEra {n : Int} (hn : 0 ≤ n ∧ n ≤ 146096) :
    ∃ century group year day, SplitsEra n century group year day := by
  let century := min (n / 36524) 3
  let group := (n - 36524 * century) / 1461
  let year := min ((n - 36524 * century - 1461 * group) / 365) 3
  refine ⟨century, group, year, n - 36524 * century - 1461 * group - 365 * year,
    ?_, ?_, ?_, ?_, ?_, ?_⟩ <;> omega

/-- The year of an era in which a day lies. -/
theorem SplitsEra.yearOfEra {n century group year day : Int}
    (h : SplitsEra n century group year day) :
    (n - n / 1460 + n / 36524 - n / 146096) / 365 = 100 * century + 4 * group + year := by
  obtain ⟨hcentury, hgroup, hyear, hday, hleap, hn⟩ := h
  have hcenturies : n / 36524 - n / 146096 = century := by
    rcases (by omega : day = 365 ∧ group = 24 ∨ 1461 * group + 365 * year + day < 36524) with
      ⟨hday, hgroup⟩ | hless
    · omega
    · have hlast : n / 146096 = 0 := by omega
      omega
  have hgroups :
      n / 1460 = 25 * century + group ∧ 24 * century + group + 365 * year + day < 1460 ∨
        n / 1460 = 25 * century + group + 1 ∧
          1460 ≤ 24 * century + group + 365 * year + day := by omega
  omega

theorem SplitsEra.isLeap {n century group year day : Int}
    (h : SplitsEra n century group year day) (era : Int) (hday : day = 365) :
    isLeap (100 * century + 4 * group + year + era * 400 + 1) = true := by
  obtain ⟨hcentury, hgroup, -, -, hleap, -⟩ := h
  obtain ⟨rfl, hlast⟩ := hleap hday
  simp only [Date.isLeap, Bool.or_eq_true, Bool.and_eq_true, beq_iff_eq, bne_iff_ne]
  omega

/-- The date of a day, by the year in which it lies. -/
theorem exists_ofDays_eq (days : Int) :
    ∃ year day, ofDays days = ofMarchYear year day ∧ (0 ≤ day ∧ day ≤ 365) ∧
      (day = 365 → isLeap (year + 1) = true) ∧
        days = 365 * year + year / 4 - year / 100 + year / 400 + day - 719468 := by
  obtain ⟨century, group, year, day, h⟩ :=
    exists_splitsEra (n := (days + 719468) % 146097) (by omega)
  refine ⟨100 * century + 4 * group + year + (days + 719468) / 146097 * 400, day, ?_, h.day_range,
    h.isLeap _, ?_⟩
  · have hday : (days + 719468) % 146097 -
        (365 * (100 * century + 4 * group + year) + (100 * century + 4 * group + year) / 4 -
          (100 * century + 4 * group + year) / 100) = day := by
      obtain ⟨hcentury, hgroup, hyear, -, -, heq⟩ := h
      omega
    simp only [ofDays, h.yearOfEra, hday, ofMarchYear]
  · obtain ⟨hcentury, hgroup, hyear, -, -, heq⟩ := h
    omega

/-- The date of a day is that of no other day. -/
theorem toDays_ofDays (days : Int) : (ofDays days).toDays = days := by
  obtain ⟨year, day, hdate, hday, -, heq⟩ := exists_ofDays_eq days
  rw [hdate, toDays_ofMarchYear year hday, ← heq]

/-- The date of a day exists if and only if the calendar goes to its year. -/
theorem isValid_ofDays_iff (days : Int) :
    (ofDays days).isValid = true ↔
      -262143 ≤ (ofDays days).year ∧ (ofDays days).year ≤ 262142 := by
  obtain ⟨year, day, hdate, hday, hleap, -⟩ := exists_ofDays_eq days
  rw [hdate]
  exact isValid_ofMarchYear_iff hday hleap

end CallGraph.Date
