import RemoteFiles.Proofs.Binary64.Errors
import RemoteFiles.Proofs.Json.Scaling

/-!
# Errors of scaling

How far from the true number digits and a power of ten are rounded.  The two are rounded before they
are multiplied or divided, so that it need not be to the nearest; but it is where the digits and the
power are exact.  Where a division takes two steps, the error of the first is carried into the second;
where it takes more, nothing is left.

## Main results

* `Json.IsScaled.isNearest` — **digits up to `2 ^ 53` and a power of ten up to `10 ^ 22` are rounded
  to the nearest number.**
* `Json.IsScaled.abs_sub_le` — **any digits and power are rounded to a number that is near.**
* `Json.IsScaled.le_of_infinite` — digits and a power that are rounded to infinity are great
  themselves.
-/

namespace RemoteFiles
namespace Json

open Binary64

variable {digits b c f n t : ℕ} {power : ℤ} {q : ℚ}

/-! ### Powers of ten -/

theorem zpow_of_neg (h : power < 0) : (10 : ℚ) ^ power = (10 ^ power.natAbs)⁻¹ := by
  rw [← zpow_natCast, ← zpow_neg, Int.ofNat_natAbs_of_nonpos h.le, neg_neg]

theorem zpow_of_not_neg (h : ¬power < 0) : (10 : ℚ) ^ power = 10 ^ power.toNat := by
  rw [← zpow_natCast, Int.toNat_of_nonneg (not_lt.mp h)]

theorem one_le_pow_ten (n : ℕ) : (1 : ℚ) ≤ 10 ^ n := one_le_pow₀ (by norm_num)

/-- A power of ten is one rounding away from the nearest number. -/
theorem isClose_pow (ht : IsNearest (10 ^ n) t) (hn : n ≤ 308) : IsClose 1 (10 ^ n) (value t) := by
  have hlt : t < infinite := by
    rw [ht.unique (nearest_powerOfTen hn)]
    exact pattern_powerOfTen_lt hn
  exact ht.isClose hlt (one_le_pow_ten n)

theorem two_pow_le_of_isClose (h : IsClose 1 (10 ^ 308) q) : 2 ^ 1000 ≤ q := by
  have hpow : (2 : ℚ) ^ 1000 * 2 ≤ 10 ^ 308 := by
    exact_mod_cast (by decide +kernel : 2 ^ 1000 * 2 ≤ 10 ^ 308)
  have hle := h.le
  have hnonneg := h.nonneg
  rw [pow_one, shrink] at hle
  -- the powers are too great to be multiplied out
  generalize (2 : ℚ) ^ 1000 = low, (10 : ℚ) ^ 308 = high at hpow hle hnonneg ⊢
  linarith

/-- No number of that size is left of what is divided by more than `10 ^ 616`. -/
theorem div_pow_le_least (hq : q ≤ 2 ^ 65) (hn : 616 < n) : q / 10 ^ n ≤ least := by
  have hten : (2 : ℚ) ^ 1000 ≤ 10 ^ 308 :=
    two_pow_le_of_isClose ((isClose_refl (by positivity)).mono (Nat.zero_le 1))
  have hpow : (2 : ℚ) ^ 2000 ≤ 10 ^ n :=
    calc (2 : ℚ) ^ 2000 = 2 ^ 1000 * 2 ^ 1000 := by rw [← pow_add]
      _ ≤ 10 ^ 308 * 10 ^ 308 := mul_le_mul hten hten (by positivity) (by positivity)
      _ = 10 ^ 616 := by rw [← pow_add]
      _ ≤ 10 ^ n := pow_le_pow_right₀ (by norm_num) hn.le
  calc q / 10 ^ n ≤ 2 ^ 65 / 2 ^ 2000 := div_le_div₀ (by positivity) hq (by positivity) hpow
    _ ≤ least := by
        rw [least, div_le_div_iff₀ (by positivity) (by positivity), one_mul, ← pow_add]
        exact pow_le_pow_right₀ one_le_two (by norm_num)

/-! ### Exact operands -/

/-- **Exact digits and an exact power of ten are rounded once.** -/
theorem IsScaled.isNearest (h : IsScaled digits power b) (hdigits : digits ≤ 2 ^ 53)
    (hpower : |power| ≤ 22) : IsNearest (digits * 10 ^ power) b := by
  obtain ⟨f, hf, h⟩ := h
  obtain ⟨c, hc, hvalue⟩ := exists_value_eq hdigits
  rw [← hvalue] at hf
  obtain rfl := hf.eq_of_value hc
  rw [abs_le] at hpower
  split at h
  · next hneg =>
    rw [zpow_of_neg hneg, ← div_eq_mul_inv]
    generalize hn : power.natAbs = n at h
    cases h with
    | last _ ht hb =>
      rwa [hvalue, value_of_isNearest_pow (by omega) ht] at hb
    | step => omega
  · next hnonneg =>
    obtain ⟨t, ht, hb⟩ := h
    rwa [hvalue, value_of_isNearest_pow (by omega) ht, ← zpow_of_not_neg hnonneg] at hb

/-! ### Division in steps -/

/-- A quotient by a power of ten is below infinity, and the power is one rounding away from what is
divided by. -/
theorem quotient_spec (hn : n ≤ 308) (ht : IsNearest (10 ^ n) t)
    (hc : IsNearest (value f / value t) c) (hlt : f < infinite) :
    c < infinite ∧ 1 ≤ value t ∧ IsClose 1 (10 ^ n) (value t) := by
  have hone := one_le_value ht
  have hle : value f / value t ≤ value f := div_le_self (value_nonneg f) hone
  exact ⟨Nat.lt_of_le_of_lt (hc.le_of_le_value hlt.le hle) hlt, hone, isClose_pow ht hn⟩

/-- A whole step divides by more than `2 ^ 1000`. -/
theorem quotient_le (ht : IsNearest (10 ^ 308) t) (hf : value f ≤ q) :
    value f / value t ≤ q / 2 ^ 1000 :=
  div_le_div₀ ((value_nonneg f).trans hf) hf (by positivity)
    (two_pow_le_of_isClose (isClose_pow ht le_rfl))

theorem Lowers.lt_infinite (h : Lowers f n b) (hlt : f < infinite) : b < infinite := by
  induction h with
  | last hn ht hc => exact (quotient_spec hn ht hc hlt).1
  | step _ ht hc _ ih => exact ih (quotient_spec le_rfl ht hc hlt).1

/-- Nothing is left after the second step. -/
theorem Lowers.eq_zero (h : Lowers f n b) (hn : 616 < n) (hf : value f ≤ 2 ^ 64) : b = 0 := by
  have hsmall : value (523 * 2 ^ 52) = 1 / 2 ^ 500 := by
    have hunits : units (523 * 2 ^ 52) = 2 ^ 574 := by decide +kernel
    rw [value, hunits, div_eq_div_iff (by positivity) (by positivity), one_mul, Nat.cast_pow,
      Nat.cast_two, ← pow_add]
  cases h with
  | last => omega
  | @step _ n t c _ _ ht hc h =>
    have hfirst : value f / value t ≤ value (523 * 2 ^ 52) := by
      refine (quotient_le ht hf).trans ?_
      rw [hsmall, div_le_div_iff₀ (by positivity) (by positivity), one_mul, ← pow_add]
      exact pow_le_pow_right₀ one_le_two (by norm_num)
    have hc := value_strictMono.monotone (hc.le_of_le_value (by decide +kernel) hfirst)
    cases h with
    | last => omega
    | @step _ n t' d _ _ ht' hd h =>
      have hsecond : value c / value t' < least / 2 := by
        refine (quotient_le ht' (hc.trans_eq hsmall)).trans_lt ?_
        rw [least, div_div, div_div, ← pow_add, ← pow_succ]
        exact one_div_lt_one_div_of_lt (by positivity)
          (pow_lt_pow_right₀ one_lt_two (by norm_num))
      obtain rfl := hd.eq_zero_of_lt (div_nonneg (value_nonneg c) (value_nonneg t')) hsecond
      exact h.unique (lowers_zero n)

/-- The error of a rounding does not grow when it is divided by one or more. -/
theorem abs_div_sub_le (hc : IsNearest q c) (hlt : c < infinite) (hq : 0 ≤ q) {d : ℚ}
    (hd : 1 ≤ d) : |value c / d - q / d| ≤ q / d / 2 ^ 53 + least / 2 := by
  have hpos : 0 < d := by linarith
  have hleast : 0 < least := by rw [least]; positivity
  rw [← sub_div, abs_div, abs_of_pos hpos]
  refine (div_le_div_of_nonneg_right (hc.abs_sub_le hlt hq) hpos.le).trans ?_
  rw [add_div, div_right_comm]
  exact add_le_add_right (div_le_self (by linarith) hd) _

/-- What is divided by a power of ten and rounded is near to the true quotient. -/
theorem Lowers.abs_sub_le (h : Lowers f n b) (hlt : f < infinite) (hle : value f ≤ 2 ^ 64)
    (hf : IsClose 2 q (value f)) : |value b - q / 10 ^ n| ≤ q / 10 ^ n / 2 ^ 50 + 2 * least := by
  have hleast : 0 < least := by rw [least]; positivity
  by_cases hfar : 616 < n
  · -- both are too small to make a difference
    have hq : q ≤ 2 ^ 65 := by
      have hclose := hf.le
      norm_num [shrink] at hclose hle
      linarith
    have hquotient := div_pow_le_least hq hfar
    have hnonneg : 0 ≤ q / 10 ^ n := div_nonneg hf.nonneg (by positivity)
    rw [h.eq_zero hfar hle, value_zero, zero_sub, abs_neg, abs_of_nonneg hnonneg]
    linarith
  cases h with
  | @last _ n t _ hn ht hb =>
    obtain ⟨hblt, hone, hclose⟩ := quotient_spec hn ht hb hlt
    have hquotient := hf.div hclose (by positivity) (by linarith)
    have herror := (hquotient.mono (by decide : 2 + 1 ≤ 5)).abs_value_sub_le hb hblt
    linarith
  | @step _ n t c _ hn ht hc h =>
    cases h with
    | step => omega
    | @last _ _ t' _ hn' ht' hb =>
      obtain ⟨hclt, hone, hclose⟩ := quotient_spec le_rfl ht hc hlt
      obtain ⟨hblt, hone', hclose'⟩ := quotient_spec hn' ht' hb hclt
      have hquotient := (hf.div hclose (by positivity) (by linarith)).div hclose' (by positivity)
        (by linarith)
      rw [add_comm, pow_add, ← div_div]
      refine (hquotient.mono (by decide : 2 + 1 + 1 ≤ 5)).abs_sub_le ?_
      have hfirst := abs_le.mp
        (abs_div_sub_le hc hclt (div_nonneg (value_nonneg f) (value_nonneg t)) hone')
      have hsecond := abs_le.mp
        (hb.abs_sub_le hblt (div_nonneg (value_nonneg c) (value_nonneg t')))
      have hnonneg := hquotient.nonneg'
      rw [abs_le]
      constructor <;> linarith

/-! ### Digits and powers of ten -/

theorem IsScaled.eq_zero (h : IsScaled 0 power b) : b = 0 := by
  obtain ⟨f, hf, h⟩ := h
  rw [Nat.cast_zero] at hf
  obtain rfl := hf.eq_zero
  split at h
  · exact h.unique (lowers_zero _)
  · obtain ⟨t, -, hb⟩ := h
    rw [value_zero, zero_mul] at hb
    exact hb.eq_zero

/-- **Digits and a power of ten are rounded to a number that is near.** -/
theorem IsScaled.abs_sub_le (h : IsScaled digits power b) (hb : b < infinite)
    (hdigits : digits < 2 ^ 64) {v : ℚ} (hv : IsClose 1 v (digits * 10 ^ power)) :
    |value b - v| ≤ v / 2 ^ 50 + 2 * least := by
  have hleast : 0 < least := by rw [least]; positivity
  rcases Nat.eq_zero_or_pos digits with rfl | hpos
  · -- there is nothing to round
    have hle := hv.le
    rw [Nat.cast_zero, zero_mul, pow_one] at hle
    obtain rfl : v = 0 := le_antisymm (nonpos_of_mul_nonpos_left hle shrink_pos) hv.nonneg
    rw [h.eq_zero, value_zero, sub_zero, abs_zero, zero_div, zero_add]
    linarith
  have hone : (1 : ℚ) ≤ digits := by exact_mod_cast hpos
  obtain ⟨f, hf, h⟩ := h
  obtain ⟨hflt, hfle⟩ := value_le_of_isNearest hdigits hf
  have hfclose : IsClose 1 digits (value f) := hf.isClose hflt hone
  split at h
  · next hneg =>
    rw [zpow_of_neg hneg] at hv
    generalize power.natAbs = n at h hv
    have hten : (0 : ℚ) < 10 ^ n := by positivity
    have hdigitsClose := hv.mul (isClose_refl hten.le)
    rw [inv_mul_cancel_right₀ hten.ne'] at hdigitsClose
    have herror := h.abs_sub_le hflt hfle (hdigitsClose.trans hfclose)
    rwa [mul_div_cancel_right₀ _ hten.ne'] at herror
  · next hnonneg =>
    obtain ⟨t, ht, hb'⟩ := h
    have htlt : t < infinite := by
      -- otherwise the product is infinity too
      refine Nat.lt_of_le_of_ne ht.le_infinite fun hinf => hb.ne ?_
      rw [hinf] at hb'
      exact hb'.unique
        (isNearest_infinite (le_mul_of_one_le_left (value_nonneg _) (hf.one_le_value hone)))
    rw [zpow_of_not_neg hnonneg] at hv
    have hclose := hv.trans (hfclose.mul (ht.isClose htlt (one_le_pow_ten _)))
    have herror := (hclose.mono (by decide : 1 + (1 + 1) ≤ 5)).abs_value_sub_le hb' hb
    linarith

/-- Digits and a power of ten that are rounded to infinity are great themselves. -/
theorem IsScaled.le_of_infinite (h : IsScaled digits power infinite) (hdigits : digits < 2 ^ 64)
    {v : ℚ} (hv : IsClose 1 v (digits * 10 ^ power)) : 2 ^ 1022 ≤ v := by
  have hpos : 0 < digits := by
    refine Nat.pos_of_ne_zero fun hzero => ?_
    rw [hzero] at h
    exact absurd h.eq_zero (by decide)
  have hone : (1 : ℚ) ≤ digits := by exact_mod_cast hpos
  obtain ⟨f, hf, h⟩ := h
  have hflt := (value_le_of_isNearest hdigits hf).1
  split at h
  · exact absurd (h.lt_infinite hflt) (lt_irrefl _)
  · next hnonneg =>
    obtain ⟨t, ht, hb⟩ := h
    rw [zpow_of_not_neg hnonneg] at hv
    have hgreat : ∃ q : ℚ, 2 ^ 1022 * 2 ≤ q ∧ IsClose 3 v q := by
      rcases Nat.lt_or_eq_of_le ht.le_infinite with htlt | rfl
      · exact ⟨_, le_of_isNearest_infinite hb,
          hv.trans ((hf.isClose hflt hone).mul (ht.isClose htlt (one_le_pow_ten _)))⟩
      · exact ⟨_, (le_of_isNearest_infinite ht).trans
          (le_mul_of_one_le_left (by positivity) hone), hv.mono (by decide)⟩
    obtain ⟨q, hq, hclose⟩ := hgreat
    have hge := hclose.ge
    norm_num [shrink] at hge
    generalize (2 : ℚ) ^ 1022 = low at hq ⊢
    linarith [hclose.nonneg]

end Json
end RemoteFiles
