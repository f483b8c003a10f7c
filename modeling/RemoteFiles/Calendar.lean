/-!
# Calendar

Seconds since the start of 1970 as a date and a time of day in the proleptic Gregorian calendar.

## Main definitions

* `Calendar.Date`, `Calendar.dateOfDay` — the date of a day counted from the start of 1970.
* `Calendar.stamp` — a moment as `YYYYMMDDTHHMMSSZ`.
-/

namespace RemoteFiles
namespace Calendar

/-- A date. -/
structure Date where
  year : Int
  month : Nat
  day : Nat
  deriving DecidableEq, Repr

/-- The date of a day, counted from the first of January 1970.  Days are counted in cycles of four
hundred years that start on the first of March, so that a leap day is the last of its year. -/
def dateOfDay (day : Int) : Date :=
  let shifted := day + 719468
  let cycle := shifted / 146097
  let dayOfCycle := (shifted % 146097).toNat
  let yearOfCycle :=
    (dayOfCycle - dayOfCycle / 1460 + dayOfCycle / 36524 - dayOfCycle / 146096) / 365
  let dayOfYear := dayOfCycle - (365 * yearOfCycle + yearOfCycle / 4 - yearOfCycle / 100)
  let monthOfYear := (5 * dayOfYear + 2) / 153
  let month := if monthOfYear < 10 then monthOfYear + 3 else monthOfYear - 9
  ⟨yearOfCycle + cycle * 400 + (if month ≤ 2 then 1 else 0), month,
    dayOfYear - (153 * monthOfYear + 2) / 5 + 1⟩

/-- A number in at least `width` decimal digits. -/
def padded (width n : Nat) : List Char :=
  let digits := Nat.toDigits 10 n
  List.replicate (width - digits.length) '0' ++ digits

/-- A year in at least four digits, with a sign unless it has exactly four and is not negative. -/
def yearText (year : Int) : List Char :=
  if 0 ≤ year ∧ year ≤ 9999 then padded 4 year.toNat
  else if year < 0 then '-' :: padded 4 (-year).toNat
  else '+' :: padded 4 year.toNat

/-- A moment, in seconds since the start of 1970, as `YYYYMMDDTHHMMSSZ`. -/
def stampChars (time : Int) : List Char :=
  let date := dateOfDay (time / 86400)
  let second := (time % 86400).toNat
  yearText date.year ++ padded 2 date.month ++ padded 2 date.day ++ ['T'] ++
    padded 2 (second / 3600) ++ padded 2 (second / 60 % 60) ++ padded 2 (second % 60) ++ ['Z']

/-- The text of a moment. -/
def stamp (time : Int) : String := String.ofList (stampChars time)

end Calendar
end RemoteFiles
