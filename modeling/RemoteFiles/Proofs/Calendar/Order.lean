import RemoteFiles.Proofs.Calendar.Stamp
import RemoteFiles.Proofs.Text.Digits
import RemoteFiles.Proofs.Text.Order
import RemoteFiles.Signature

/-!
# The order of stamps

A later date has a greater year, or the same year and a greater month, or these and a greater day,
and numbers of one width are in the order of their digits.  So the stamps of the years from 0 to 9999
are in the order of their times, and their first eight characters tell the days apart.  In any other
year a stamp is only longer.

## Main results

* `Calendar.date_le_of_dayNumber_le` — dates are in the order of their days.
* `Calendar.padded_lt_padded` — padded numbers are in the order of the numbers.
* `Calendar.Moment.chars_lt_chars` — texts of moments are in the order of the moments.
* `Signature.stamp_tells_moment` — **the date of a signature tells its moment, and in its first part
  the day.**
-/

namespace RemoteFiles
namespace Calendar

/-! ### Dates in order -/

/-- A year is over before any later one. -/
theorem daysBeforeYear_add_le {year next : Nat} (h : year < next) :
    daysBeforeYear year + yearLength year ≤ daysBeforeYear next := by
  induction h with
  | refl => exact Nat.le_of_eq (daysBeforeYear_succ year).symm
  | @step last _ ih =>
    rw [Nat.succ_eq_add_one, daysBeforeYear_succ last]
    exact Nat.le_add_right_of_le ih

theorem daysBeforeMonth_succ (year : Nat) {month : Nat} (h : 1 ≤ month) :
    daysBeforeMonth year (month + 1) = daysBeforeMonth year month + monthLength year month := by
  obtain ⟨before, rfl⟩ : ∃ n, month = n + 1 := ⟨month - 1, (Nat.sub_add_cancel h).symm⟩
  rw [daysBeforeMonth, Nat.add_sub_cancel, List.range'_1_concat, List.map_append, List.sum_append,
    Nat.add_comm 1 before]
  rfl

/-- A month is over before any later one. -/
theorem daysBeforeMonth_add_le (year : Nat) {month next : Nat} (hmonth : 1 ≤ month)
    (h : month < next) :
    daysBeforeMonth year month + monthLength year month ≤ daysBeforeMonth year next := by
  induction h with
  | refl => exact Nat.le_of_eq (daysBeforeMonth_succ year hmonth).symm
  | @step last hle ih =>
    have hlast : 1 ≤ last := Nat.le_trans (Nat.le_add_left 1 month) hle
    rw [Nat.succ_eq_add_one, daysBeforeMonth_succ year hlast]
    exact Nat.le_add_right_of_le ih

/-- The months make up the year. -/
theorem daysBeforeMonth_thirteen (year : Nat) : daysBeforeMonth year 13 = yearLength year := by
  unfold yearLength daysBeforeMonth monthLength
  cases isLeap year <;> rfl

section Dates

variable {year month day year' month' day' : Nat}

theorem dayNumber_lt_of_year_lt (h : IsDate year month day) (hyear : year < year') :
    dayNumber year month day < dayNumber year' month' day' := by
  obtain ⟨hone, htwelve, hday, hlength⟩ := h
  have hmonths := daysBeforeMonth_add_le year hone (Nat.lt_succ_of_le htwelve)
  have hyears := daysBeforeYear_add_le hyear
  rw [Nat.succ_eq_add_one, daysBeforeMonth_thirteen] at hmonths
  unfold dayNumber
  omega

theorem dayNumber_lt_of_month_lt (h : IsDate year month day) (hmonth : month < month') :
    dayNumber year month day < dayNumber year month' day' := by
  obtain ⟨hone, -, hday, hlength⟩ := h
  have hmonths := daysBeforeMonth_add_le year hone hmonth
  unfold dayNumber
  omega

/-- **Dates are in the order of their days.** -/
theorem date_le_of_dayNumber_le (h : IsDate year month day) (h' : IsDate year' month' day')
    (hle : dayNumber year month day ≤ dayNumber year' month' day') :
    year < year' ∨ year = year' ∧ (month < month' ∨ month = month' ∧ day ≤ day') := by
  -- the first part that differs decides, and it cannot decide the other way
  rcases Nat.lt_trichotomy year year' with hyear | rfl | hyear
  · exact Or.inl hyear
  · refine Or.inr ⟨rfl, ?_⟩
    rcases Nat.lt_trichotomy month month' with hmonth | rfl | hmonth
    · exact Or.inl hmonth
    · refine Or.inr ⟨rfl, ?_⟩
      obtain ⟨-, -, hday, -⟩ := h
      obtain ⟨-, -, hday', -⟩ := h'
      unfold dayNumber at hle
      omega
    · exact absurd hle (Int.not_le.mpr (dayNumber_lt_of_month_lt h' hmonth))
  · exact absurd hle (Int.not_le.mpr (dayNumber_lt_of_year_lt h' hyear))

theorem date_eq_of_dayNumber_eq (h : IsDate year month day) (h' : IsDate year' month' day')
    (heq : dayNumber year month day = dayNumber year' month' day') :
    year = year' ∧ month = month' ∧ day = day' := by
  have hle := date_le_of_dayNumber_le h h' (Int.le_of_eq heq)
  have hge := date_le_of_dayNumber_le h' h (Int.le_of_eq heq.symm)
  omega

/-- A date before another has the smaller first part of those that differ. -/
theorem date_lt_of_dayNumber_lt (h : IsDate year month day) (h' : IsDate year' month' day')
    (hlt : dayNumber year month day < dayNumber year' month' day') :
    year < year' ∨ year = year' ∧ (month < month' ∨ month = month' ∧ day < day') := by
  rcases date_le_of_dayNumber_le h h' (Int.le_of_lt hlt) with hyear | ⟨rfl, hmonth | ⟨rfl, hday⟩⟩
  · exact Or.inl hyear
  · exact Or.inr ⟨rfl, Or.inl hmonth⟩
  · refine Or.inr ⟨rfl, Or.inr ⟨rfl, Nat.lt_of_le_of_ne hday ?_⟩⟩
    rintro rfl
    exact absurd hlt (Int.lt_irrefl _)

end Dates

/-! ### Padded numbers in order -/

/-- **Padded numbers are in the order of the numbers.** -/
theorem padded_lt_padded {width m n : Nat} (hwidth : 0 < width) (h : m < n) (hn : n < 10 ^ width) :
    padded width m < padded width n := by
  have hm : (padded width m).length = width := length_padded hwidth (Nat.lt_trans h hn)
  refine Text.digits_lt_digits (fun _ => isDigit_of_mem_padded) (fun _ => isDigit_of_mem_padded)
    (hm.trans (length_padded hwidth hn).symm) ?_
  rwa [ofDigitChars_padded, ofDigitChars_padded]

theorem padded_injective {width m n : Nat} (h : padded width m = padded width n) : m = n := by
  rw [← ofDigitChars_padded width m, h, ofDigitChars_padded]

/-- A smaller padded number comes first, whatever follows. -/
theorem padded_append_lt {width m n : Nat} (hwidth : 0 < width) (h : m < n) (hn : n < 10 ^ width)
    (s t : List Char) : padded width m ++ s < padded width n ++ t :=
  Utf8.append_lt_append s t
    ((length_padded hwidth (Nat.lt_trans h hn)).trans (length_padded hwidth hn).symm)
    (padded_lt_padded hwidth h hn)

/-! ### Moments in order -/

namespace Moment

variable {m n : Moment}

theorem length_dayChars (m : Moment) : m.dayChars.length = 8 := by
  obtain ⟨hmonth, hday⟩ := m.month_day_lt
  rw [dayChars, List.length_append, List.length_append, length_padded (by decide) m.year_lt,
    length_padded (by decide) hmonth, length_padded (by decide) hday]

theorem length_clockChars (m : Moment) : m.clockChars.length = 6 := by
  obtain ⟨hhour, hminute, hsecond⟩ := m.clock_lt
  rw [clockChars, List.length_append, List.length_append, length_padded (by decide) hhour,
    length_padded (by decide) hminute, length_padded (by decide) hsecond]

theorem length_chars (m : Moment) : m.chars.length = 16 := by
  rw [chars, List.length_append, List.length_cons, List.length_append, length_dayChars,
    length_clockChars]
  rfl

/-- The first eight characters of a moment are its date. -/
theorem take_chars (m : Moment) : m.chars.take 8 = m.dayChars := List.take_left' m.length_dayChars

theorem secondOfDay_lt (m : Moment) : m.secondOfDay < 86400 := by
  have hhour := m.hour_lt
  have hminute := m.minute_lt
  have hsecond := m.second_lt
  unfold secondOfDay
  omega

/-- The day of a moment. -/
theorem time_ediv (m : Moment) : m.time / 86400 = dayNumber m.year m.month m.day := by
  have hlt := m.secondOfDay_lt
  unfold time
  omega

/-- Texts of dates tell the days apart. -/
theorem dayChars_eq_iff : m.dayChars = n.dayChars ↔ m.time / 86400 = n.time / 86400 := by
  rw [time_ediv, time_ediv]
  constructor
  · intro h
    have hlength : (padded 4 m.year).length = (padded 4 n.year).length := by
      rw [length_padded (by decide) m.year_lt, length_padded (by decide) n.year_lt]
    have hmonths : (padded 2 m.month).length = (padded 2 n.month).length := by
      rw [length_padded (by decide) m.month_day_lt.1, length_padded (by decide) n.month_day_lt.1]
    unfold dayChars at h
    rw [List.append_assoc, List.append_assoc] at h
    obtain ⟨hyear, h⟩ := List.append_inj h hlength
    obtain ⟨hmonth, hday⟩ := List.append_inj h hmonths
    rw [padded_injective hyear, padded_injective hmonth, padded_injective hday]
  · intro h
    obtain ⟨hyear, hmonth, hday⟩ := date_eq_of_dayNumber_eq m.isDate n.isDate h
    rw [dayChars, dayChars, hyear, hmonth, hday]

/-- Texts of dates are in the order of the days. -/
theorem dayChars_lt_dayChars
    (h : dayNumber m.year m.month m.day < dayNumber n.year n.month n.day) :
    m.dayChars < n.dayChars := by
  obtain ⟨hmonth, hday⟩ := n.month_day_lt
  rw [dayChars, dayChars, List.append_assoc, List.append_assoc]
  rcases date_lt_of_dayNumber_lt m.isDate n.isDate h with hlt | ⟨heq, hlt | ⟨heq', hlt⟩⟩
  · exact padded_append_lt (by decide) hlt n.year_lt _ _
  · rw [heq]
    exact List.append_left_lt (padded_append_lt (by decide) hlt hmonth _ _)
  · rw [heq, heq']
    exact List.append_left_lt (List.append_left_lt (padded_lt_padded (by decide) hlt hday))

/-- Texts of times of day are in the order of the times. -/
theorem clockChars_lt_clockChars (h : m.secondOfDay < n.secondOfDay) :
    m.clockChars < n.clockChars := by
  obtain ⟨hhour, hminute, hsecond⟩ := n.clock_lt
  have hcases : m.hour < n.hour ∨ m.hour = n.hour ∧
      (m.minute < n.minute ∨ m.minute = n.minute ∧ m.second < n.second) := by
    have hm := m.minute_lt
    have hs := m.second_lt
    have hm' := n.minute_lt
    have hs' := n.second_lt
    unfold secondOfDay at h
    omega
  rw [clockChars, clockChars, List.append_assoc, List.append_assoc]
  rcases hcases with hlt | ⟨heq, hlt | ⟨heq', hlt⟩⟩
  · exact padded_append_lt (by decide) hlt hhour _ _
  · rw [heq]
    exact List.append_left_lt (padded_append_lt (by decide) hlt hminute _ _)
  · rw [heq, heq']
    exact List.append_left_lt (List.append_left_lt (padded_lt_padded (by decide) hlt hsecond))

/-- **Texts of moments are in the order of the moments.** -/
theorem chars_lt_chars (h : m.time < n.time) : m.chars < n.chars := by
  have hdays : m.dayChars.length = n.dayChars.length :=
    m.length_dayChars.trans n.length_dayChars.symm
  have hclocks : m.clockChars.length = n.clockChars.length :=
    m.length_clockChars.trans n.length_clockChars.symm
  have hle : m.time / 86400 ≤ n.time / 86400 := Int.ediv_le_ediv (by decide) (Int.le_of_lt h)
  rcases Int.lt_or_eq_of_le hle with hlt | heq
  · rw [time_ediv, time_ediv] at hlt
    exact Utf8.append_lt_append _ _ hdays (dayChars_lt_dayChars hlt)
  · -- on one day the time of day decides
    have hsecond : m.secondOfDay < n.secondOfDay := by
      rw [time_ediv, time_ediv] at heq
      unfold time at h
      omega
    rw [chars, chars, dayChars_eq_iff.mpr heq]
    refine List.append_left_lt (List.cons_lt_cons_iff.mpr (Or.inr ⟨rfl, ?_⟩))
    exact Utf8.append_lt_append _ _ hclocks (clockChars_lt_clockChars hsecond)

end Moment

/-! ### Stamps -/

/-- Stamps hold ASCII characters only. -/
theorem toNat_lt_of_mem_stampChars {time : Int} {c : Char} (h : c ∈ stampChars time) :
    c.toNat < 0x80 := by
  rcases mem_stampChars h with hdigit | hmark
  · exact Nat.lt_of_le_of_lt (Utf8.toNat_of_isDigit hdigit).2 (by decide)
  · simp only [List.mem_cons, List.not_mem_nil, or_false] at hmark
    rcases hmark with rfl | rfl | rfl | rfl <;> decide

theorem four_le_length_yearText (year : Int) : 4 ≤ (yearText year).length := by
  unfold yearText
  split
  · exact le_length_padded 4 _
  · split
    · exact Nat.le_succ_of_le (le_length_padded 4 _)
    · exact Nat.le_succ_of_le (le_length_padded 4 _)

/-- No stamp is shorter than those of the years from 0 to 9999. -/
theorem sixteen_le_length_stampChars (time : Int) : 16 ≤ (stampChars time).length := by
  have hyear := four_le_length_yearText (dateOfDay (time / 86400)).year
  have htwo := le_length_padded 2
  have hmonth := htwo (dateOfDay (time / 86400)).month
  have hday := htwo (dateOfDay (time / 86400)).day
  have hhour := htwo ((time % 86400).toNat / 3600)
  have hminute := htwo ((time % 86400).toNat / 60 % 60)
  have hsecond := htwo ((time % 86400).toNat % 60)
  simp only [stampChars, List.length_append, List.length_singleton]
  omega

/-- Stamps of the years from 0 to 9999 are in the order of their times, byte by byte. -/
theorem encode_stamp_lt_iff {a b : Int} (ha : startOfYear 0 ≤ a) (ha' : a < startOfYear 10000)
    (hb : startOfYear 0 ≤ b) (hb' : b < startOfYear 10000) :
    Utf8.encode (stamp a) < Utf8.encode (stamp b) ↔ a < b := by
  have hlt : ∀ {a b : Int}, startOfYear 0 ≤ a → a < startOfYear 10000 → startOfYear 0 ≤ b →
      b < startOfYear 10000 → a < b → Utf8.encode (stamp a) < Utf8.encode (stamp b) := by
    intro a b ha ha' hb hb' h
    obtain ⟨m, rfl, hm⟩ := exists_moment ha ha'
    obtain ⟨n, rfl, hn⟩ := exists_moment hb hb'
    rw [stamp, stamp, hm, hn, Utf8.encode_ofList, Utf8.encode_ofList]
    exact Utf8.bytes_lt_bytes (Moment.chars_lt_chars h)
  refine ⟨fun h => Int.not_le.mp fun hle => ?_, hlt ha ha' hb hb'⟩
  rcases Int.lt_or_eq_of_le hle with hba | rfl
  · exact List.lt_asymm h (hlt hb hb' ha ha' hba)
  · exact List.lt_irrefl _ h

end Calendar

/-! ### Signatures -/

namespace Signature

open Calendar

/-- The day of any stamp is eight characters, and its first eight bytes. -/
theorem dayOf_stamp (time : Int) : (dayOf (stamp time)).length = 8 ∧
    Utf8.encode (dayOf (stamp time)) = (Utf8.encode (stamp time)).take 8 := by
  have hlength := sixteen_le_length_stampChars time
  have hascii : ∀ c ∈ stampChars time, c.toNat < 0x80 := fun _ => toNat_lt_of_mem_stampChars
  rw [dayOf, stamp, String.toList_ofList]
  constructor
  · rw [String.length_ofList, List.length_take]
    omega
  · rw [Utf8.encode_ofList, Utf8.encode_ofList, Utf8.bytes_of_ascii hascii,
      Utf8.bytes_of_ascii fun c hc => hascii c (List.mem_of_mem_take hc), List.map_take]

/-- **The date of a signature tells its moment, and in its first part the day.**  At any time it is
ASCII text from whose front eight characters can be cut, and these are the day that the credential
names.  In the years from 0 to 9999 it is a moment as `YYYYMMDDTHHMMSSZ` and is read as that moment;
two signatures name one day exactly if they are made on the same day, and their dates are in the
order of their times. -/
theorem stamp_tells_moment (s : Subject) :
    (∀ c ∈ (sign s).date.toList, c.toNat < 0x80) ∧ 16 ≤ (sign s).date.length ∧
    (dayOf (sign s).date).length = 8 ∧
    Utf8.encode (dayOf (sign s).date) = (Utf8.encode (sign s).date).take 8 ∧
    (∃ rest, (sign s).authorization =
      "HMAC-SHA256 Credential=" ++ s.accessKey ++ "/" ++ dayOf (sign s).date ++ "/" ++ rest) ∧
    (startOfYear 0 ≤ s.time → s.time < startOfYear 10000 →
      (∃ m : Moment, m.time = s.time ∧ (sign s).date = String.ofList m.chars ∧
        dayOf (sign s).date = String.ofList m.dayChars) ∧
      (sign s).date.length = 16 ∧
      readMoment? (sign s).date = some s.time ∧
      ∀ t : Subject, startOfYear 0 ≤ t.time → t.time < startOfYear 10000 →
        (dayOf (sign s).date = dayOf (sign t).date ↔ s.time / 86400 = t.time / 86400) ∧
        (Utf8.encode (sign s).date < Utf8.encode (sign t).date ↔ s.time < t.time)) := by
  change (∀ c ∈ (stamp s.time).toList, c.toNat < 0x80) ∧ 16 ≤ (stamp s.time).length ∧ _
  obtain ⟨hday, hbytes⟩ := dayOf_stamp s.time
  have hmoment : ∀ {time : Int} {m : Moment}, stampChars time = m.chars →
      stamp time = String.ofList m.chars ∧ dayOf (stamp time) = String.ofList m.dayChars := by
    intro time m hm
    rw [dayOf, stamp, String.toList_ofList, hm, m.take_chars]
    exact ⟨rfl, rfl⟩
  refine ⟨?_, ?_, hday, hbytes, ?_, fun hfrom hto => ?_⟩
  · intro c hc
    rw [stamp, String.toList_ofList] at hc
    exact toNat_lt_of_mem_stampChars hc
  · rw [stamp, String.length_ofList]
    exact sixteen_le_length_stampChars s.time
  · refine ⟨s.region ++ "/" ++ s.service ++ "/request" ++ ", SignedHeaders=" ++ signedHeaders ++
      ", Signature=" ++ signature s, ?_⟩
    have hlead : "HMAC-SHA256 Credential=" = algorithm ++ " Credential=" := by decide
    rw [hlead]
    simp only [sign, credential, scope, String.append_assoc]
  · obtain ⟨m, htime, hm⟩ := exists_moment hfrom hto
    obtain ⟨hdate, hdayOf⟩ := hmoment hm
    refine ⟨⟨m, htime, hdate, hdayOf⟩, ?_, readMoment?_stamp hfrom hto, fun t hfrom' hto' => ?_⟩
    · change (stamp s.time).length = 16
      rw [hdate, String.length_ofList, m.length_chars]
    · obtain ⟨n, htime', hn⟩ := exists_moment hfrom' hto'
      refine ⟨?_, encode_stamp_lt_iff hfrom hto hfrom' hto'⟩
      change dayOf (stamp s.time) = dayOf (stamp t.time) ↔ _
      rw [hdayOf, (hmoment hn).2, String.ofList_inj, Moment.dayChars_eq_iff, htime, htime']

/-- The last second of a leap day and the one after it. -/
theorem stamp_of_leap_day :
    let s : Subject := ⟨"POST", "h", "", [], "key", "secret", "cn-beijing", "agentkit", 951868799⟩
    let t : Subject := { s with time := 951868800 }
    (sign s).date = "20000229T235959Z" ∧ (sign t).date = "20000301T000000Z" ∧
      startOfYear 0 ≤ s.time ∧ t.time < startOfYear 10000 ∧
      readMoment? (sign s).date = some 951868799 ∧
      dayOf (sign s).date ≠ dayOf (sign t).date ∧
      Utf8.encode (sign s).date < Utf8.encode (sign t).date := by
  intro s t
  have hfrom : startOfYear 0 ≤ s.time ∧ startOfYear 0 ≤ t.time := by
    rw [startOfYear_zero]
    decide
  have hto : s.time < startOfYear 10000 ∧ t.time < startOfYear 10000 := by
    rw [startOfYear_tenThousand]
    decide
  obtain ⟨-, -, -, -, -, hrange⟩ := stamp_tells_moment s
  obtain ⟨-, -, hread, horder⟩ := hrange hfrom.1 hto.1
  obtain ⟨hday, hlt⟩ := horder t hfrom.2 hto.2
  exact ⟨by decide +kernel, by decide +kernel, hfrom.1, hto.2, hread,
    fun h => absurd (hday.mp h) (by decide), hlt.mpr (by decide)⟩

/-- From the year 10000 on, eight characters are not enough for a day. -/
example : dayOf (stamp 253402300800) = "+1000001" := by decide +kernel

end Signature
end RemoteFiles
