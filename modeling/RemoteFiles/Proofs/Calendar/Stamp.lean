import Mathlib.Algebra.Group.Nat.Defs
import RemoteFiles.Proofs.Calendar.Days

/-!
# Reading stamps

The stamp of a moment between the years 0 and 9999 has sixteen characters, and read by its rules,
field by field, it gives that moment back.

## Main definitions

* `Calendar.readMoment?` — the moment that a stamp is read as.
* `Calendar.Moment` — a date and a time of day, and their text.
* `Calendar.startOfYear` — the first moment of a year.

## Main results

* `Calendar.year_dateOfDay` — the days of the years from 0 to 9999.
* `Calendar.exists_moment` — a time in those years is that of a date and a time of day.
* `Calendar.readMoment?_stamp` — **a stamp is read as the moment that it is the stamp of.**
-/

namespace RemoteFiles
namespace Calendar

/-! ### Reading by the rules -/

/-- Read a number of just so many digits. -/
def readDigits? (width : Nat) (cs : List Char) : Option (Nat × List Char) :=
  if (cs.take width).length = width ∧ (cs.take width).all Char.isDigit then
    some (Nat.ofDigitChars 10 (cs.take width) 0, cs.drop width)
  else none

/-- Read a mark. -/
def readMark? (mark : Char) : List Char → Option (List Char)
  | [] => none
  | c :: cs => if c = mark then some cs else none

/-- The moment, in seconds since the start of 1970, that a text of the form `YYYYMMDDTHHMMSSZ`
stands for. -/
def readMoment? (s : String) : Option Int := do
  let (year, cs) ← readDigits? 4 s.toList
  let (month, cs) ← readDigits? 2 cs
  let (day, cs) ← readDigits? 2 cs
  let cs ← readMark? 'T' cs
  let (hour, cs) ← readDigits? 2 cs
  let (minute, cs) ← readDigits? 2 cs
  let (second, cs) ← readDigits? 2 cs
  let cs ← readMark? 'Z' cs
  if cs = [] ∧ IsDate year month day ∧ hour < 24 ∧ minute < 60 ∧ second < 60 then
    some (dayNumber year month day * 86400 + (hour * 3600 + minute * 60 + second : Nat))
  else none

/-! ### Padded numbers -/

theorem length_padded {width n : Nat} (hwidth : 0 < width) (hn : n < 10 ^ width) :
    (padded width n).length = width := by
  have hlength := (Nat.length_toDigits_le_iff (b := 10) (by decide) hwidth).mpr hn
  rw [padded, List.length_append, List.length_replicate]
  exact Nat.sub_add_cancel hlength

theorem le_length_padded (width n : Nat) : width ≤ (padded width n).length := by
  rw [padded, List.length_append, List.length_replicate]
  omega

theorem isDigit_of_mem_padded {width n : Nat} {c : Char} (h : c ∈ padded width n) :
    c.isDigit = true := by
  rw [padded, List.mem_append] at h
  rcases h with h | h
  · rw [List.eq_of_mem_replicate h]
    rfl
  · exact Nat.isDigit_of_mem_toDigits (by decide) (by decide) h

theorem mem_yearText {year : Int} {c : Char} (h : c ∈ yearText year) :
    c.isDigit = true ∨ c ∈ ['+', '-'] := by
  unfold yearText at h
  split at h
  · exact Or.inl (isDigit_of_mem_padded h)
  · split at h
    · rcases List.mem_cons.mp h with rfl | h
      · exact Or.inr (by decide)
      · exact Or.inl (isDigit_of_mem_padded h)
    · rcases List.mem_cons.mp h with rfl | h
      · exact Or.inr (by decide)
      · exact Or.inl (isDigit_of_mem_padded h)

/-- A moment is written in digits, a sign and two letters. -/
theorem mem_stampChars {time : Int} {c : Char} (h : c ∈ stampChars time) :
    c.isDigit = true ∨ c ∈ ['+', '-', 'T', 'Z'] := by
  simp only [stampChars, List.mem_append, List.mem_singleton] at h
  rcases h with ((((((h | h) | h) | rfl) | h) | h) | h) | rfl
  · rcases mem_yearText h with h | h
    · exact Or.inl h
    · exact Or.inr (List.mem_append_left ['T', 'Z'] h)
  · exact Or.inl (isDigit_of_mem_padded h)
  · exact Or.inl (isDigit_of_mem_padded h)
  · exact Or.inr (by decide)
  · exact Or.inl (isDigit_of_mem_padded h)
  · exact Or.inl (isDigit_of_mem_padded h)
  · exact Or.inl (isDigit_of_mem_padded h)
  · exact Or.inr (by decide)

theorem ofDigitChars_padded (width n : Nat) : Nat.ofDigitChars 10 (padded width n) 0 = n := by
  rw [padded, Nat.ofDigitChars_append, Nat.ofDigitChars_replicate_zero, Nat.mul_zero,
    Nat.ofDigitChars_ten_toDigits]

/-- A padded number is read back where it has room. -/
theorem readDigits?_padded {width n : Nat} (hwidth : 0 < width) (hn : n < 10 ^ width)
    (cs : List Char) : readDigits? width (padded width n ++ cs) = some (n, cs) := by
  have hlength := length_padded hwidth hn
  have htake : (padded width n ++ cs).take width = padded width n := List.take_left' hlength
  have hdrop : (padded width n ++ cs).drop width = cs := List.drop_left' hlength
  have hdigits : (padded width n).all Char.isDigit = true :=
    List.all_eq_true.mpr fun _ => isDigit_of_mem_padded
  rw [readDigits?, htake, hdrop, if_pos ⟨hlength, hdigits⟩, ofDigitChars_padded]

@[simp] theorem readMark?_cons (mark : Char) (cs : List Char) :
    readMark? mark (mark :: cs) = some cs := if_pos rfl

/-! ### Moments -/

/-- A date of the years from 0 to 9999 and a time of day. -/
structure Moment where
  year : Nat
  month : Nat
  day : Nat
  hour : Nat
  minute : Nat
  second : Nat
  year_lt : year < 10000
  isDate : IsDate year month day
  hour_lt : hour < 24
  minute_lt : minute < 60
  second_lt : second < 60

namespace Moment

/-- The seconds of the day before a moment. -/
def secondOfDay (m : Moment) : Nat := m.hour * 3600 + m.minute * 60 + m.second

/-- A moment in seconds since the start of 1970. -/
def time (m : Moment) : Int := dayNumber m.year m.month m.day * 86400 + m.secondOfDay

/-- The date of a moment as `YYYYMMDD`. -/
def dayChars (m : Moment) : List Char := padded 4 m.year ++ padded 2 m.month ++ padded 2 m.day

/-- The time of day as `HHMMSS`. -/
def clockChars (m : Moment) : List Char :=
  padded 2 m.hour ++ padded 2 m.minute ++ padded 2 m.second

/-- A moment as `YYYYMMDDTHHMMSSZ`. -/
def chars (m : Moment) : List Char := m.dayChars ++ 'T' :: (m.clockChars ++ ['Z'])

/-- Months and days have two digits. -/
theorem month_day_lt (m : Moment) : m.month < 10 ^ 2 ∧ m.day < 10 ^ 2 := by
  have hlength : monthLength m.year m.month ≤ 31 := by
    unfold monthLength
    split
    · split <;> decide
    · split <;> decide
  obtain ⟨-, hmonth, -, hday⟩ := m.isDate
  exact ⟨Nat.lt_of_le_of_lt hmonth (by decide),
    Nat.lt_of_le_of_lt (Nat.le_trans hday hlength) (by decide)⟩

/-- So have the parts of a time of day. -/
theorem clock_lt (m : Moment) : m.hour < 10 ^ 2 ∧ m.minute < 10 ^ 2 ∧ m.second < 10 ^ 2 :=
  ⟨Nat.lt_trans m.hour_lt (by decide), Nat.lt_trans m.minute_lt (by decide),
    Nat.lt_trans m.second_lt (by decide)⟩

/-- The text of a moment is read as that moment. -/
theorem readMoment?_chars (m : Moment) : readMoment? (String.ofList m.chars) = some m.time := by
  obtain ⟨hmonth, hday⟩ := m.month_day_lt
  obtain ⟨hhour, hminute, hsecond⟩ := m.clock_lt
  have htwo : 0 < 2 := by decide
  simp only [readMoment?, chars, dayChars, clockChars, String.toList_ofList, List.append_assoc,
    Option.bind_eq_bind, Option.bind_some, readMark?_cons,
    readDigits?_padded (by decide : 0 < 4) m.year_lt, readDigits?_padded htwo hmonth,
    readDigits?_padded htwo hday, readDigits?_padded htwo hhour, readDigits?_padded htwo hminute,
    readDigits?_padded htwo hsecond]
  exact if_pos ⟨trivial, m.isDate, m.hour_lt, m.minute_lt, m.second_lt⟩

end Moment

/-! ### Stamps -/

/-- The first moment of a year, in seconds since the start of 1970. -/
def startOfYear (year : Nat) : Int := dayNumber year 1 1 * 86400

theorem dayNumber_newYear (year : Nat) :
    dayNumber year 1 1 = (daysBeforeYear year : Int) - daysBeforeYear 1970 := rfl

theorem startOfYear_zero : startOfYear 0 = -62167219200 := by
  have hepoch := daysBeforeYear_eq 1970
  rw [startOfYear, dayNumber_newYear, show daysBeforeYear 0 = 0 from rfl]
  omega

theorem startOfYear_tenThousand : startOfYear 10000 = 253402300800 := by
  have hepoch := daysBeforeYear_eq 1970
  have hlast := daysBeforeYear_eq 10000
  rw [startOfYear, dayNumber_newYear]
  omega

/-- The dates of the years from 0 to 9999. -/
theorem year_dateOfDay {day : Int} (hfrom : dayNumber 0 1 1 ≤ day)
    (hto : day < dayNumber 10000 1 1) :
    0 ≤ (dateOfDay day).year ∧ (dateOfDay day).year ≤ 9999 := by
  have hepoch := daysBeforeYear_eq 1970
  have hlast := daysBeforeYear_eq 10000
  rw [dayNumber_newYear] at hfrom hto
  rw [show daysBeforeYear 0 = 0 from rfl] at hfrom
  obtain ⟨cycle, dayOfCycle, hcycle, rfl⟩ : ∃ (c : Int) (d : Nat), d < 146097 ∧
      day = 146097 * c + d - 719468 :=
    ⟨(day + 719468) / 146097, ((day + 719468) % 146097).toNat, by omega, by omega⟩
  obtain ⟨hyear, hstart, hend⟩ := yearOfCycle_spec hcycle
  rw [dateOfDay_of_cycle cycle hcycle rfl rfl rfl]
  -- a cycle starts in March, so its last sixty days are in the year after it
  by_cases hnext : 146037 ≤ dayOfCycle
  · have hmono := withoutLeapDays_mono hnext
    rw [show withoutLeapDays 146037 = 145940 from rfl] at hmono
    obtain hyear399 : withoutLeapDays dayOfCycle / 365 = 399 := by omega
    rw [hyear399] at hstart hend ⊢
    rw [show yearStart 399 = 145731 from rfl] at hstart ⊢
    have hmonth : (5 * (dayOfCycle - 145731) + 2) / 153 < 12 := by omega
    have hcarry := (monthOfMarch_spec hmonth).2.2.mpr (by omega)
    dsimp only
    rw [if_pos hcarry]
    omega
  · have hmono := withoutLeapDays_mono (Nat.le_of_lt_succ (Nat.lt_of_not_le hnext))
    rw [show withoutLeapDays 146036 = 145939 from rfl] at hmono
    by_cases hyear399 : withoutLeapDays dayOfCycle / 365 = 399
    · rw [hyear399] at hstart hend ⊢
      rw [show yearStart 399 = 145731 from rfl] at hstart ⊢
      have hmonth : (5 * (dayOfCycle - 145731) + 2) / 153 < 10 := by omega
      have hcarry := mt (monthOfMarch_spec (Nat.lt_trans hmonth (by decide))).2.2.mp
        (not_not_intro hmonth)
      dsimp only
      rw [if_neg hcarry]
      omega
    · dsimp only
      split <;> omega

/-- A time of the years from 0 to 9999 is that of a moment, whose text is its stamp. -/
theorem exists_moment {time : Int} (hfrom : startOfYear 0 ≤ time)
    (hto : time < startOfYear 10000) : ∃ m : Moment, m.time = time ∧ stampChars time = m.chars := by
  have hdayFrom : dayNumber 0 1 1 ≤ time / 86400 := Int.le_ediv_of_mul_le (by decide) hfrom
  have hdayTo : time / 86400 < dayNumber 10000 1 1 := Int.ediv_lt_of_lt_mul (by decide) hto
  obtain ⟨hyear, hlast⟩ := year_dateOfDay hdayFrom hdayTo
  clear hfrom hto hdayFrom hdayTo
  obtain ⟨hdate, hday⟩ := dateOfDay_spec hyear
  obtain ⟨second, hsecond, hlt⟩ : ∃ n : Nat, (time % 86400).toNat = n ∧ n < 86400 :=
    ⟨_, rfl, by omega⟩
  refine ⟨⟨(dateOfDay (time / 86400)).year.toNat, _, _, second / 3600, second / 60 % 60,
    second % 60, by omega, hdate, by omega, Nat.mod_lt _ (by decide), Nat.mod_lt _ (by decide)⟩,
    ?_, ?_⟩
  · rw [Moment.time, Moment.secondOfDay, hday]
    dsimp only
    omega
  · rw [stampChars, yearText, if_pos ⟨hyear, hlast⟩, hsecond]
    simp only [Moment.chars, Moment.dayChars, Moment.clockChars, List.append_assoc,
      List.cons_append, List.nil_append]

/-- **A stamp is read as the moment that it is the stamp of.** -/
theorem readMoment?_stamp {time : Int} (hfrom : startOfYear 0 ≤ time)
    (hto : time < startOfYear 10000) : readMoment? (stamp time) = some time := by
  obtain ⟨m, rfl, hchars⟩ := exists_moment hfrom hto
  rw [stamp, hchars, m.readMoment?_chars]

end Calendar
end RemoteFiles
