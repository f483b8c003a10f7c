import Mathlib.Algebra.GroupWithZero.Nat
import RemoteFiles.Calendar

/-!
# Days of the calendar

The date of a day, worked out by division in cycles that start in March, is the date that is found
by counting the days of years and months from the start of year zero.

## Main definitions

* `Calendar.isLeap`, `Calendar.monthLength`, `Calendar.IsDate` — the calendar by its rules.
* `Calendar.dayNumber` — the day of a date, counted from the start of 1970.

## Main results

* `Calendar.yearOfCycle_spec` — the year of a day in its cycle.
* `Calendar.dateOfDay_spec` — **the date of a day is a date of the calendar, and its day is that
  day.**
-/

namespace RemoteFiles
namespace Calendar

/-! ### The calendar by its rules -/

/-- Every fourth year is a leap year, but of the last years of centuries only every fourth. -/
def isLeap (year : Nat) : Bool := year % 4 = 0 && (year % 100 ≠ 0 || year % 400 = 0)

/-- The days of a year. -/
def yearLength (year : Nat) : Nat := if isLeap year then 366 else 365

/-- The days of a month, counted from one. -/
def monthLength (year month : Nat) : Nat :=
  if month = 2 then if isLeap year then 29 else 28
  else if month ∈ [4, 6, 9, 11] then 30
  else 31

/-- A date of the calendar. -/
def IsDate (year month day : Nat) : Prop :=
  1 ≤ month ∧ month ≤ 12 ∧ 1 ≤ day ∧ day ≤ monthLength year month

instance (year month day : Nat) : Decidable (IsDate year month day) :=
  inferInstanceAs (Decidable (_ ∧ _))

/-- The days of the years from zero to the one before a year. -/
def daysBeforeYear (year : Nat) : Nat := ((List.range year).map yearLength).sum

/-- The days of the months of a year before a month. -/
def daysBeforeMonth (year month : Nat) : Nat :=
  ((List.range' 1 (month - 1)).map (monthLength year)).sum

/-- The day of a date, counted from the start of 1970. -/
def dayNumber (year month day : Nat) : Int :=
  (daysBeforeYear year + daysBeforeMonth year month + (day - 1) : Nat) - (daysBeforeYear 1970 : Nat)

/-! ### Years -/

theorem yearLength_eq (year : Nat) :
    yearLength year + (year + 1 + 99) / 100 + (year + 3) / 4 + (year + 399) / 400 =
      365 + (year + 99) / 100 + (year + 1 + 3) / 4 + (year + 1 + 399) / 400 := by
  -- each quotient goes up by one in the years that its divisor divides
  unfold yearLength isLeap
  by_cases h4 : year % 4 = 0
  · by_cases h100 : year % 100 = 0
    · by_cases h400 : year % 400 = 0
      · simp only [h4, h400, decide_true, Bool.or_true, Bool.and_true, if_true]
        omega
      · simp only [h4, h100, h400, ne_eq, not_true_eq_false, decide_true, decide_false,
          Bool.or_false, Bool.and_false, Bool.false_eq_true, if_false]
        omega
    · simp only [h4, h100, ne_eq, not_false_eq_true, decide_true, Bool.true_or, Bool.and_true,
        if_true]
      omega
  · simp only [h4, decide_false, Bool.false_and, Bool.false_eq_true, if_false]
    omega

theorem daysBeforeYear_succ (year : Nat) :
    daysBeforeYear (year + 1) = daysBeforeYear year + yearLength year := by
  rw [daysBeforeYear, List.range_succ, List.map_append, List.sum_append]
  rfl

/-- The days before a year, in closed form. -/
theorem daysBeforeYear_eq (year : Nat) :
    daysBeforeYear year + (year + 99) / 100 = 365 * year + (year + 3) / 4 + (year + 399) / 400 := by
  induction year with
  | zero => rfl
  | succ year ih =>
    have hlength := yearLength_eq year
    have hnext := daysBeforeYear_succ year
    omega

/-! ### Cycles of four hundred years -/

/-- The days of a cycle before one of its years, which start in March. -/
def yearStart (year : Nat) : Nat := 365 * year + year / 4 - year / 100

/-- A day of a cycle without the leap days before it. -/
def withoutLeapDays (day : Nat) : Nat := day - day / 1460 + day / 36524 - day / 146096

theorem withoutLeapDays_le_succ (day : Nat) :
    withoutLeapDays day ≤ withoutLeapDays (day + 1) := by
  -- four centuries are counted only where a century is
  have hcycle : ∀ n, n / 146096 = n / 36524 / 4 := fun n => (Nat.div_div_eq_div_mul n 36524 4).symm
  have hcentury : (day + 1) / 36524 = day / 36524 ∨ (day + 1) / 36524 = day / 36524 + 1 := by omega
  unfold withoutLeapDays
  rw [hcycle, hcycle]
  rcases hcentury with h | h
  · rw [h]
    omega
  · rw [h]
    omega

theorem withoutLeapDays_mono {day day' : Nat} (h : day ≤ day') :
    withoutLeapDays day ≤ withoutLeapDays day' := by
  induction h with
  | refl => exact Nat.le_refl _
  | step _ ih => exact Nat.le_trans ih (withoutLeapDays_le_succ _)

/-- Without leap days, every year but the last of a cycle has 365 days. -/
theorem withoutLeapDays_yearStart {year : Nat} (h : year < 400) :
    365 * year ≤ withoutLeapDays (yearStart year) ∧
      (0 < year → withoutLeapDays (yearStart year - 1) < 365 * year) := by
  have hall : ∀ y < 400, 365 * y ≤ withoutLeapDays (yearStart y) ∧
      (0 < y → withoutLeapDays (yearStart y - 1) < 365 * y) := by decide +kernel
  exact hall year h

/-- The year of a day in a cycle starts on that day or before, and the next one after it; the last
year of a cycle is a day longer than the rule for the others tells. -/
theorem yearOfCycle_spec {day : Nat} (hday : day < 146097) :
    withoutLeapDays day / 365 < 400 ∧ yearStart (withoutLeapDays day / 365) ≤ day ∧
      day < yearStart (withoutLeapDays day / 365 + 1) +
        if withoutLeapDays day / 365 = 399 then 1 else 0 := by
  have hlast := withoutLeapDays_mono (Nat.le_of_lt_succ hday)
  rw [show withoutLeapDays 146096 = 145999 from rfl] at hlast
  have hlt : withoutLeapDays day / 365 < 400 := by omega
  have hle := Nat.div_mul_le_self (withoutLeapDays day) 365
  have hgt : withoutLeapDays day < withoutLeapDays day / 365 * 365 + 365 :=
    Nat.lt_div_mul_add (by decide)
  generalize withoutLeapDays day / 365 = year at hlt hle hgt ⊢
  refine ⟨hlt, ?_, ?_⟩
  · -- before the start of the year fewer days count than the years before it have
    refine Nat.le_of_not_lt fun h => ?_
    have hpos : 0 < year := by
      rcases Nat.eq_zero_or_pos year with rfl | hpos
      · exact absurd h (Nat.not_lt_zero day)
      · exact hpos
    have hbefore : withoutLeapDays day ≤ withoutLeapDays (yearStart year - 1) :=
      withoutLeapDays_mono (by omega)
    have := (withoutLeapDays_yearStart hlt).2 hpos
    omega
  · -- and from the start of the next year on, as many as the years up to it have
    by_cases hend : year = 399
    · subst hend
      rw [if_pos rfl]
      exact hday
    · rw [if_neg hend, Nat.add_zero]
      refine Nat.lt_of_not_le fun h => ?_
      have hafter := withoutLeapDays_mono h
      have hnext : year + 1 < 400 := by omega
      have := (withoutLeapDays_yearStart hnext).1
      omega

/-! ### Dates -/

/-- The days of a year before one of its months, counted from March; the months alternate in
length by this rule. -/
def monthStart (month : Nat) : Nat := (153 * month + 2) / 5

/-- The month of a day in a year starts on that day or before, and the next one after it. -/
theorem monthOfYear_spec {day : Nat} (hday : day < 366) :
    (5 * day + 2) / 153 < 12 ∧ monthStart ((5 * day + 2) / 153) ≤ day ∧
      day < monthStart ((5 * day + 2) / 153 + 1) := by
  unfold monthStart
  omega

/-- The month of the year that a month counted from March is. -/
def monthOfMarch (month : Nat) : Nat := if month < 10 then month + 3 else month - 9

/-- January and February come last. -/
theorem monthOfMarch_spec {month : Nat} (h : month < 12) :
    1 ≤ monthOfMarch month ∧ monthOfMarch month ≤ 12 ∧
      (monthOfMarch month ≤ 2 ↔ ¬month < 10) := by
  have hall : ∀ m < 12, 1 ≤ monthOfMarch m ∧ monthOfMarch m ≤ 12 ∧
      (monthOfMarch m ≤ 2 ↔ ¬m < 10) := by decide
  exact hall month h

/-- Between two marches lie the months of one year from March on, and of the next up to February. -/
theorem daysBeforeMonth_march (year : Nat) {month : Nat} (h : month < 12) :
    daysBeforeMonth year (monthOfMarch month) + 306 =
      monthStart month + if month < 10 then yearLength year else 0 := by
  unfold yearLength daysBeforeMonth monthLength
  rcases isLeap year with _ | _
  · have hall : ∀ m < 12, daysBeforeMonth 1 (monthOfMarch m) + 306 =
        monthStart m + if m < 10 then 365 else 0 := by decide
    exact hall month h
  · have hall : ∀ m < 12, daysBeforeMonth 0 (monthOfMarch m) + 306 =
        monthStart m + if m < 10 then 366 else 0 := by decide
    exact hall month h

/-- Every month but February has its length by the rule of the starts. -/
theorem monthLength_march (year : Nat) {month : Nat} (h : month < 11) :
    monthStart month + monthLength year (monthOfMarch month) = monthStart (month + 1) := by
  have hfebruary : ∀ m < 11, monthOfMarch m ≠ 2 := by decide
  have hall : ∀ m < 11, monthStart m +
      (if monthOfMarch m ∈ [4, 6, 9, 11] then 30 else 31) = monthStart (m + 1) := by decide
  rw [monthLength, if_neg (hfebruary month h)]
  exact hall month h

/-- A day of a year that starts in March lies in its month; only for February the length of the
year plays a part. -/
theorem day_le_monthLength {year month day : Nat} (hmonth : month < 12)
    (hstart : monthStart month ≤ day) (hnext : day < monthStart (month + 1))
    (hyear : month = 11 → day < yearLength year) :
    day - monthStart month + 1 ≤ monthLength year (monthOfMarch month) := by
  by_cases h : month < 11
  · have := monthLength_march year h
    omega
  · -- February has what the other months leave of the year
    obtain rfl : month = 11 := by omega
    have hfebruary : monthLength year 2 + 337 = yearLength year := by
      unfold monthLength yearLength
      cases isLeap year <;> rfl
    change day - 337 + 1 ≤ monthLength year 2
    change 337 ≤ day at hstart
    have := hyear rfl
    omega

/-- The years of a cycle that start in March are as long as the years in which they end. -/
theorem yearStart_succ_le {cycle : Int} {year next : Nat} (hyear : year < 400)
    (hnext : (next : Int) = year + 1 + 400 * cycle) :
    yearStart (year + 1) + (if year = 399 then 1 else 0) ≤ yearStart year + yearLength next := by
  have hlength := yearLength_eq next
  unfold yearStart
  by_cases hend : year = 399
  · rw [if_pos hend]
    omega
  · rw [if_neg hend]
    omega

/-- The date of a day of a cycle. -/
theorem dateOfDay_of_cycle (cycle : Int) {day year dayOfYear month : Nat} (hday : day < 146097)
    (hyear : year = withoutLeapDays day / 365) (hdayOfYear : dayOfYear = day - yearStart year)
    (hmonth : month = (5 * dayOfYear + 2) / 153) :
    dateOfDay (146097 * cycle + day - 719468) =
      ⟨year + cycle * 400 + (if monthOfMarch month ≤ 2 then 1 else 0), monthOfMarch month,
        dayOfYear - monthStart month + 1⟩ := by
  have hcycle : (146097 * cycle + day - 719468 + 719468) / 146097 = cycle := by omega
  have hrest : ((146097 * cycle + day - 719468 + 719468) % 146097).toNat = day := by omega
  rw [dateOfDay]
  simp only [hcycle, hrest]
  subst hmonth hdayOfYear hyear
  rfl

/-- The day of a date that is given by a cycle, a year of it from March on and a day of that year.
Up to December the date is in the year in which that year starts, and then in the next. -/
theorem dayNumber_march {cycle : Int} {year month day next number : Nat} (hyear : year < 400)
    (hnext : (next : Int) = year + 1 + 400 * cycle) (hmonth : month < 12)
    (hday : monthStart month ≤ day) (hnumber : next = number + if month < 10 then 1 else 0) :
    dayNumber number (monthOfMarch month) (day - monthStart month + 1) =
      146097 * cycle + (yearStart year + day : Nat) - 719468 := by
  have hyears : daysBeforeYear next =
      daysBeforeYear number + if month < 10 then yearLength number else 0 := by
    by_cases h : month < 10
    · rw [if_pos h] at hnumber ⊢
      rw [hnumber, daysBeforeYear_succ]
    · rw [if_neg h] at hnumber ⊢
      rw [hnumber, Nat.add_zero, Nat.add_zero]
  have hmonths := daysBeforeMonth_march number hmonth
  have hclosed := daysBeforeYear_eq next
  have hepoch := daysBeforeYear_eq 1970
  unfold dayNumber yearStart
  omega

/-- **The date of a day is a date of the calendar, and its day is that day.** -/
theorem dateOfDay_spec {day : Int} (h : 0 ≤ (dateOfDay day).year) :
    IsDate (dateOfDay day).year.toNat (dateOfDay day).month (dateOfDay day).day ∧
      dayNumber (dateOfDay day).year.toNat (dateOfDay day).month (dateOfDay day).day = day := by
  obtain ⟨cycle, dayOfCycle, hcycle, rfl⟩ : ∃ (c : Int) (d : Nat), d < 146097 ∧
      day = 146097 * c + d - 719468 :=
    ⟨(day + 719468) / 146097, ((day + 719468) % 146097).toNat, by omega, by omega⟩
  obtain ⟨hyear, hstart, hend⟩ := yearOfCycle_spec hcycle
  have hdate := dateOfDay_of_cycle cycle hcycle rfl rfl rfl
  generalize withoutLeapDays dayOfCycle / 365 = year at hyear hstart hend hdate
  obtain ⟨dayOfYear, rfl⟩ : ∃ d, dayOfCycle = yearStart year + d :=
    ⟨dayOfCycle - yearStart year, by omega⟩
  rw [Nat.add_sub_cancel_left] at hdate
  rw [hdate] at h ⊢
  dsimp only at h ⊢
  -- the year in which the year from March on ends
  obtain ⟨next, hnext⟩ : ∃ n : Nat, (n : Int) = year + 1 + 400 * cycle :=
    ⟨(year + 1 + 400 * cycle).toNat, by split at h <;> omega⟩
  have hlength : dayOfYear < yearLength next := by
    have := yearStart_succ_le hyear hnext
    omega
  have hlt : dayOfYear < 366 := by
    refine Nat.lt_of_lt_of_le hlength ?_
    unfold yearLength
    split <;> omega
  obtain ⟨hmonth, hfrom, hto⟩ := monthOfYear_spec hlt
  generalize (5 * dayOfYear + 2) / 153 = month at hmonth hfrom hto h ⊢
  obtain ⟨hone, htwelve, hcarry⟩ := monthOfMarch_spec hmonth
  have hnumber : next = (year + cycle * 400 + if monthOfMarch month ≤ 2 then 1 else 0 : Int).toNat +
      if month < 10 then 1 else 0 := by
    by_cases hm : month < 10
    · rw [if_pos hm, if_neg fun hle => hcarry.mp hle hm] at *
      omega
    · rw [if_neg hm, if_pos (hcarry.mpr hm)] at *
      omega
  refine ⟨⟨hone, htwelve, Nat.le_add_left 1 _, ?_⟩, dayNumber_march hyear hnext hmonth hfrom hnumber⟩
  refine day_le_monthLength hmonth hfrom hto fun hm => ?_
  have heq : next = (year + cycle * 400 + if monthOfMarch month ≤ 2 then 1 else 0 : Int).toNat := by
    subst hm
    exact hnumber
  rw [← heq]
  exact hlength

end Calendar
end RemoteFiles
