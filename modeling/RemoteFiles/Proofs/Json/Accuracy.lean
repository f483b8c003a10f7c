import RemoteFiles.Proofs.Json.Reals
import RemoteFiles.Proofs.Json.ScalingErrors

/-!
# How exactly numbers are read

A numeral's own value, and how far from it the floating-point number that is read may be.  It need not
be the nearest one, since the digits, the power of ten and their product are rounded one after another;
but it is the nearest where the first two are exact, and never far from it.

## Main definitions

* `Json.Numeral.exactValue` — the number that a numeral spells; `Json.Numeral.magnitude` — without its
  sign.
* `Json.Numeral.IsPlain` — whole numbers that fit, and short decimals.
* `Json.Numeral.Approximates` — a floating-point number is near to the one that is spelled, and the
  nearest for plain numerals.

## Main results

* `Json.Numeral.RoundsTo.abs_sub_le` — **every number is rounded to one that is near.**
* `Json.Numeral.RoundsTo.isNearest` — **plain ones are rounded to the nearest.**
* `Json.Numeral.exists_roundsTo` — numbers below `2 ^ 1022` are in range.
* `Json.Numeral.IsReal.approximates`, `Json.Numeral.Spells.exists_isReal` — **the same of the
  floating-point number that a numeral stands for.**
-/

namespace RemoteFiles
namespace Json

open Binary64

variable {ds es : List UInt8} {b : ℕ}

/-! ### Fronts of digits -/

/-- Each byte is one of the ten digits. -/
def AllDigits (ds : List UInt8) : Prop := ∀ d ∈ ds, digitValue d ≤ 9

theorem numberOf_lt (h : AllDigits ds) : numberOf ds < 10 ^ ds.length := by
  induction ds using List.reverseRecOn with
  | nil => decide
  | append_singleton ds d ih =>
    rw [AllDigits, List.forall_mem_append, List.forall_mem_singleton] at h
    have hds := ih h.1
    rw [numberOf_concat, List.length_append, List.length_singleton, pow_succ]
    omega

theorem numberOf_append_eq (ds es : List UInt8) :
    numberOf (ds ++ es) = numberOf ds * 10 ^ es.length + numberOf es := by
  induction es using List.reverseRecOn with
  | nil => simp [numberOf]
  | append_singleton es e ih =>
    rw [← List.append_assoc, numberOf_concat, numberOf_concat, ih, List.length_append,
      List.length_singleton, pow_succ]
    ring

/-- Digits behind a point put there add less than one. -/
theorem numberOf_append_bounds (ds : List UInt8) (h : AllDigits es) :
    (numberOf ds : ℚ) ≤ numberOf (ds ++ es) / 10 ^ es.length ∧
      (numberOf (ds ++ es) / 10 ^ es.length : ℚ) ≤ numberOf ds + 1 := by
  have hpow : (0 : ℚ) < 10 ^ es.length := by positivity
  have hlt : (numberOf es : ℚ) ≤ 10 ^ es.length := by exact_mod_cast (numberOf_lt h).le
  rw [numberOf_append_eq, le_div_iff₀ hpow, div_le_iff₀ hpow, Nat.cast_add, Nat.cast_mul,
    Nat.cast_pow, Nat.cast_ofNat, add_mul, one_mul]
  exact ⟨le_add_of_nonneg_right (Nat.cast_nonneg _), by linarith⟩

/-! ### Digits that are left out -/

theorem mul_zpow_sub (q : ℚ) (k : ℤ) (l : ℕ) :
    q * (10 : ℚ) ^ (k - l) = q / 10 ^ l * 10 ^ k := by
  rw [zpow_sub₀ (by norm_num), zpow_natCast]
  field_simp

/-- Digits behind as many as fit do not make much of a difference, whatever power of ten they
count. -/
theorem isClose_append {fs : List UInt8} (hds : 2 ^ 60 ≤ numberOf ds) (hes : AllDigits es)
    (hfs : AllDigits fs) (k : ℤ) :
    IsClose 1 ((numberOf (ds ++ es) : ℚ) * 10 ^ (k - es.length))
      (numberOf (ds ++ fs) * 10 ^ (k - fs.length)) := by
  have hes := numberOf_append_bounds ds hes
  have hfs := numberOf_append_bounds ds hfs
  have hlow : (2 ^ 60 : ℚ) ≤ numberOf ds := by exact_mod_cast hds
  have hclose := isClose_of_sub_le (hlow.trans hes.1) (hlow.trans hfs.1) (by linarith)
    (by linarith)
  rw [mul_zpow_sub, mul_zpow_sub]
  exact hclose.mul (isClose_refl (by positivity))

theorem Takes.allDigits {given kept dropped : List UInt8} (h : Takes given ds kept dropped)
    (hds : AllDigits ds) : AllDigits kept ∧ AllDigits dropped := by
  rwa [h.eq_append, AllDigits, List.forall_mem_append] at hds

/-- As many digits as fit, if there is one more. -/
theorem Takes.le_numberOf {given kept dropped : List UInt8} (h : Takes given ds kept dropped)
    (hds : AllDigits ds) (hne : dropped ≠ []) : 2 ^ 60 ≤ numberOf (given ++ kept) := by
  obtain ⟨d, dropped, rfl⟩ := List.exists_cons_of_ne_nil hne
  have hbeyond := h.ge d rfl
  have hdigit : digitValue d ≤ 9 := (h.allDigits hds).2 d List.mem_cons_self
  rw [numberOf_concat] at hbeyond
  omega

namespace Numeral

variable {n : Numeral} {kept : List UInt8} {shift : ℤ} {text : Input} {x : Float}

/-- What the digits and the exponent of a numeral say. -/
def magnitude (n : Numeral) : ℚ :=
  numberOf (n.whole ++ n.places) * 10 ^ (n.power - n.places.length)

theorem magnitude_nonneg (n : Numeral) : 0 ≤ n.magnitude := by
  rw [magnitude]
  positivity

/-- The digits that are kept say nearly the same. -/
theorem Keeps.isClose (h : n.Keeps kept shift) (hwhole : AllDigits n.whole)
    (hplaces : AllDigits n.places) :
    IsClose 1 n.magnitude (numberOf kept * 10 ^ (shift + n.power)) := by
  obtain ⟨whole, dropped, places, cut, htakes, htakes', rfl, rfl⟩ := h
  have hlengths : (n.places.length : ℤ) = places.length + cut.length := by
    rw [htakes'.eq_append, List.length_append, Nat.cast_add]
  obtain ⟨hfront, hcut⟩ := htakes'.allDigits hplaces
  rw [magnitude]
  by_cases hdropped : dropped = []
  · obtain rfl : n.whole = whole := by rw [htakes.eq_append, hdropped, List.append_nil]
    have hkept : (dropped.length : ℤ) - places.length + n.power =
        n.power - places.length - ([] : List UInt8).length := by
      rw [hdropped, List.length_nil]
      ring
    have hall : n.power - n.places.length = n.power - places.length - cut.length := by
      rw [hlengths]
      ring
    rw [hkept, hall]
    by_cases hnone : cut = []
    · -- nothing is left out at all
      rw [htakes'.eq_append, hnone, List.append_nil]
      exact (isClose_refl (by positivity)).mono (Nat.zero_le 1)
    · have hnil : AllDigits [] := by simp [AllDigits]
      have hclose := isClose_append (htakes'.le_numberOf hplaces hnone) hcut hnil
        (n.power - places.length)
      rwa [List.append_nil, List.append_assoc, ← htakes'.eq_append] at hclose
  · have hdigits : AllDigits (dropped ++ n.places) :=
      List.forall_mem_append.mpr ⟨(htakes.allDigits hwhole).2, hplaces⟩
    have hclose := isClose_append (htakes.le_numberOf hwhole hdropped) hdigits hfront
      (dropped.length + n.power)
    rw [List.nil_append, ← List.append_assoc, ← htakes.eq_append, List.length_append] at hclose
    convert hclose using 3
    · push_cast
      ring
    · ring

/-- **Every numeral is rounded to a number that is near**, if it has not too many digits to be one
with an exponent that is not counted. -/
theorem RoundsTo.abs_sub_le (h : n.RoundsTo b) (hb : b < infinite) (hwhole : AllDigits n.whole)
    (hplaces : AllDigits n.places) (hlength : n.whole.length < 2 ^ 30) :
    |Binary64.value b - n.magnitude| ≤ n.magnitude / 2 ^ 50 + 2 * least := by
  cases h with
  | scaled hkept _ h => exact h.abs_sub_le hb hkept.lt (hkept.isClose hwhole hplaces)
  | vanishing hpower hzero =>
    have hleast : 0 < least := by rw [least]; positivity
    have hsmall : n.magnitude ≤ least := by
      rcases hzero with hneg | hzero
      · -- the digits before the point are too few to make up for the exponent
        have hbounds := (numberOf_append_bounds n.whole hplaces).2
        have hfront : (numberOf n.whole + 1 : ℚ) ≤ 10 ^ n.whole.length := by
          exact_mod_cast numberOf_lt hwhole
        rw [abs_of_neg hneg] at hpower
        calc n.magnitude
            = numberOf (n.whole ++ n.places) / 10 ^ n.places.length * 10 ^ n.power :=
              mul_zpow_sub _ _ _
          _ ≤ 10 ^ n.whole.length * 10 ^ n.power :=
              mul_le_mul_of_nonneg_right (hbounds.trans hfront) (by positivity)
          _ = 10 ^ (n.whole.length + n.power) := by
              rw [zpow_add₀ (by norm_num), zpow_natCast]
          _ ≤ 10 ^ (-(1074 : ℕ) : ℤ) := zpow_le_zpow_right₀ (by norm_num) (by omega)
          _ ≤ least := by
              rw [zpow_neg, zpow_natCast, least, ← one_div]
              exact one_div_le_one_div_of_le (by positivity)
                (pow_le_pow_left₀ two_pos.le (by norm_num) _)
      · rw [magnitude, hzero, Nat.cast_zero, zero_mul]
        exact hleast.le
    have hnonneg := n.magnitude_nonneg
    rw [value_zero, zero_sub, abs_neg, abs_of_nonneg hnonneg]
    linarith

/-- Whole numbers below `2 ^ 64`, with no fraction and exponent or with ones that cancel each other,
and numbers of which the digits are at most `2 ^ 53` and the power of ten behind the last digit is
between `10 ^ -22` and `10 ^ 22`. -/
def IsPlain (n : Numeral) : Prop :=
  (numberOf (n.whole ++ n.places) < 2 ^ 64 ∧ n.power - n.places.length = 0) ∨
    (numberOf (n.whole ++ n.places) ≤ 2 ^ 53 ∧ |n.power - n.places.length| ≤ 22)

/-- All digits are kept that stand for less than `2 ^ 64`. -/
theorem keeps_all (h : numberOf (n.whole ++ n.places) < 2 ^ 64) :
    n.Keeps (n.whole ++ n.places) (-n.places.length) := by
  refine ⟨n.whole, [], n.places, [], ⟨?_, ?_, ?_⟩, ⟨?_, h, ?_⟩, rfl, ?_⟩
  · rw [List.append_nil]
  · exact (numberOf_le_append _ _).trans_lt h
  · simp
  · rw [List.append_nil]
  · simp
  · simp

/-- **Plain numerals are rounded to the nearest number.** -/
theorem RoundsTo.isNearest (h : n.RoundsTo b) (hplain : n.IsPlain)
    (hlength : n.places.length < 2 ^ 30) : IsNearest n.magnitude b := by
  have hfit : numberOf (n.whole ++ n.places) < 2 ^ 64 := by
    rcases hplain with ⟨hlt, -⟩ | ⟨hle, -⟩ <;> omega
  cases h with
  | scaled hkept _ h =>
    obtain ⟨rfl, rfl⟩ := hkept.unique (keeps_all hfit)
    rw [neg_add_eq_sub] at h
    rw [magnitude]
    rcases hplain with ⟨-, hzero⟩ | ⟨hle, hpower⟩
    · have hnearest := nearest_digits hfit
      rw [hzero] at h ⊢
      rw [h.unique (isScaled_zero hnearest), zpow_zero, mul_one]
      exact hnearest
    · exact h.isNearest hle hpower
  | vanishing hpower =>
    have hsmall : |n.power - n.places.length| ≤ 22 := by
      rcases hplain with ⟨-, hzero⟩ | ⟨-, hpower⟩
      · rw [hzero]
        decide
      · exact hpower
    rw [abs_le] at hsmall
    rw [le_abs] at hpower
    omega

/-- **Numerals below `2 ^ 1022` are in range.** -/
theorem exists_roundsTo (hwhole : AllDigits n.whole)
    (hplaces : AllDigits n.places) (hlength : n.places.length < 2 ^ 30)
    (hlt : n.magnitude < 2 ^ 1022) : ∃ b < infinite, n.RoundsTo b := by
  obtain ⟨whole, dropped, places, cut, hkeeps, -⟩ := n.exists_keeps
  by_cases hpower : |n.power| < 2 ^ 31
  · obtain ⟨b, hb, ⟨x, -, rfl, hblt⟩ | ⟨-, rfl⟩⟩ := scaled?_spec hkeeps.lt
      (dropped.length - places.length + n.power)
    · exact ⟨_, hblt, .scaled hkeeps hpower hb⟩
    · exact absurd (hb.le_of_infinite hkeeps.lt (hkeeps.isClose hwhole hplaces)) (not_le.mpr hlt)
  · refine ⟨0, by decide, .vanishing (not_lt.mp hpower) ?_⟩
    by_contra hneither
    rw [not_or, not_lt] at hneither
    -- the exponent is too great for any digits but zeros
    rw [abs_of_nonneg hneither.1, not_lt] at hpower
    refine absurd hlt (not_lt.mpr ?_)
    calc (2 : ℚ) ^ 1022 ≤ 10 ^ 1022 := pow_le_pow_left₀ two_pos.le (by norm_num) _
      _ = 10 ^ ((1022 : ℕ) : ℤ) := (zpow_natCast _ _).symm
      _ ≤ 10 ^ (n.power - n.places.length) := zpow_le_zpow_right₀ (by norm_num) (by omega)
      _ ≤ n.magnitude := le_mul_of_one_le_left (by positivity)
          (by exact_mod_cast Nat.one_le_iff_ne_zero.mpr hneither.2)

/-! ### Numbers with a sign -/

/-- The number that a numeral spells. -/
def exactValue (n : Numeral) : ℚ := if n.negative then -n.magnitude else n.magnitude

/-- A floating-point number is near to the number that a numeral spells, and it is the nearest if the
numeral is plain. -/
structure Approximates (n : Numeral) (x : Float) : Prop where
  near : |realOf x - n.exactValue| ≤ |n.exactValue| / 2 ^ 50 + 1 / 2 ^ 1073
  nearest (h : n.IsPlain) : IsNearest |n.exactValue| (pattern x % 2 ^ 63)

theorem abs_exactValue (n : Numeral) : |n.exactValue| = n.magnitude := by
  rw [exactValue]
  split
  · rw [abs_neg, abs_of_nonneg n.magnitude_nonneg]
  · exact abs_of_nonneg n.magnitude_nonneg

theorem Spells.allDigits (hn : n.Spells text) :
    AllDigits n.whole ∧ AllDigits n.places ∧ n.whole.length ≤ text.length ∧
      n.places.length ≤ text.length := by
  have hdigits : ∀ {ds}, IsDigits ds → AllDigits ds := by
    intro ds h d hd
    have hle := UInt8.le_iff_toNat_le.mp (h.2 d hd).2
    change d.toNat ≤ 0x39 at hle
    rw [digitValue]
    omega
  cases hn with
  | mk negative hwhole hfraction hexponent =>
    refine ⟨hdigits hwhole.1, ?_, ?_, ?_⟩
    · cases hfraction with
      | absent => simp [AllDigits, places]
      | digits h => exact hdigits h
    · simp only [List.length_append]
      omega
    · cases hfraction with
      | absent => simp [places]
      | digits h =>
        simp only [places, Option.getD_some, List.length_append, List.length_cons]
        omega

/-- **A numeral is read as a number near to the one that it spells.** -/
theorem IsReal.approximates (h : n.IsReal x) (hn : n.Spells text) (hlength : text.length < 2 ^ 30) :
    n.Approximates x := by
  obtain ⟨b, hb, hlt, hx⟩ := h
  obtain ⟨hwhole, hplaces, hwlength, hplength⟩ := hn.allDigits
  obtain ⟨hreal, hpattern⟩ := realOf_eq hlt hx
  refine ⟨?_, fun hplain => ?_⟩
  · have hleast : (1 : ℚ) / 2 ^ 1073 = 2 * least := by
      rw [least, pow_succ _ 1073]
      generalize (2 : ℚ) ^ 1073 = d
      ring
    have hnear := hb.abs_sub_le hlt hwhole hplaces (by omega)
    rw [abs_exactValue, hleast, hreal, exactValue]
    split
    · rw [neg_sub_neg, abs_sub_comm]
      exact hnear
    · exact hnear
  · rw [abs_exactValue, hpattern]
    exact hb.isNearest hplain (by omega)

/-- Numerals below `2 ^ 1022` stand for a number. -/
theorem Spells.exists_isReal (hn : n.Spells text) (hlength : text.length < 2 ^ 30)
    (hlt : |n.exactValue| < 2 ^ 1022) : ∃ x, n.IsReal x := by
  obtain ⟨hwhole, hplaces, -, hplength⟩ := hn.allDigits
  rw [abs_exactValue] at hlt
  obtain ⟨b, hblt, hb⟩ := exists_roundsTo hwhole hplaces (by omega) hlt
  exact hb.exists_isReal hblt

end Numeral

end Json
end RemoteFiles
