import RemoteFiles.Proofs.Binary64.Patterns
import Mathlib.Algebra.Order.Field.Basic

/-!
# Errors of several roundings

Numbers that are some roundings apart, by a factor instead of a difference: that way roundings of the
operands of a product or a quotient just add up, and the order of the two numbers does not matter.

## Main definitions

* `Binary64.IsClose` — two numbers are some roundings apart.

## Main results

* `Binary64.IsNearest.isClose` — a number that is not small is one rounding away.
* `Binary64.IsClose.mul`, `Binary64.IsClose.div`, `Binary64.IsClose.trans` — roundings add up.
* `Binary64.IsClose.abs_value_sub_le` — **after up to five roundings and a last one the error is
  small.**
-/

namespace RemoteFiles
namespace Binary64

variable {p q r p' q' : ℚ} {j k b : ℕ}

/-- What is left of a number when it is rounded down, at least: a little less than `1 - 2 ^ -53`, as
the other number may be the rounded one. -/
def shrink : ℚ := 1 - 9 / 2 ^ 56

theorem shrink_pos : 0 < shrink := by norm_num [shrink]

theorem shrink_le_one : shrink ≤ 1 := by norm_num [shrink]

/-- Two numbers are so many roundings apart. -/
structure IsClose (k : ℕ) (p q : ℚ) : Prop where
  nonneg : 0 ≤ p
  nonneg' : 0 ≤ q
  le : p * shrink ^ k ≤ q
  ge : q * shrink ^ k ≤ p

theorem IsClose.mono (h : IsClose j p q) (hjk : j ≤ k) : IsClose k p q where
  nonneg := h.nonneg
  nonneg' := h.nonneg'
  le := (mul_le_mul_of_nonneg_left (pow_le_pow_of_le_one shrink_pos.le shrink_le_one hjk)
    h.nonneg).trans h.le
  ge := (mul_le_mul_of_nonneg_left (pow_le_pow_of_le_one shrink_pos.le shrink_le_one hjk)
    h.nonneg').trans h.ge

theorem isClose_refl (hp : 0 ≤ p) : IsClose 0 p p :=
  ⟨hp, hp, by rw [pow_zero, mul_one], by rw [pow_zero, mul_one]⟩

theorem IsClose.trans (h : IsClose j p q) (h' : IsClose k q r) : IsClose (j + k) p r where
  nonneg := h.nonneg
  nonneg' := h'.nonneg'
  le := by
    rw [pow_add, ← mul_assoc]
    exact (mul_le_mul_of_nonneg_right h.le (pow_nonneg shrink_pos.le k)).trans h'.le
  ge := by
    rw [add_comm, pow_add, ← mul_assoc]
    exact (mul_le_mul_of_nonneg_right h'.ge (pow_nonneg shrink_pos.le j)).trans h.ge

/-- The roundings of two factors add up. -/
theorem IsClose.mul (h : IsClose j p q) (h' : IsClose k p' q') :
    IsClose (j + k) (p * p') (q * q') where
  nonneg := mul_nonneg h.nonneg h'.nonneg
  nonneg' := mul_nonneg h.nonneg' h'.nonneg'
  le := by
    rw [pow_add, mul_mul_mul_comm]
    exact mul_le_mul h.le h'.le (mul_nonneg h'.nonneg (pow_nonneg shrink_pos.le k)) h.nonneg'
  ge := by
    rw [pow_add, mul_mul_mul_comm]
    exact mul_le_mul h.ge h'.ge (mul_nonneg h'.nonneg' (pow_nonneg shrink_pos.le k)) h.nonneg

theorem IsClose.inv (h : IsClose k p q) (hp : 0 < p) (hq : 0 < q) : IsClose k p⁻¹ q⁻¹ where
  nonneg := (inv_pos.mpr hp).le
  nonneg' := (inv_pos.mpr hq).le
  le := by
    rw [inv_mul_le_iff₀ hp, ← div_eq_mul_inv, le_div_iff₀ hq, mul_comm]
    exact h.ge
  ge := by
    rw [inv_mul_le_iff₀ hq, ← div_eq_mul_inv, le_div_iff₀ hp, mul_comm]
    exact h.le

/-- And so do those of what is divided and what it is divided by. -/
theorem IsClose.div (h : IsClose j p q) (h' : IsClose k p' q') (hp : 0 < p') (hq : 0 < q') :
    IsClose (j + k) (p / p') (q / q') := by
  rw [div_eq_mul_inv, div_eq_mul_inv]
  exact h.mul (h'.inv hp hq)

/-- Two numbers above `2 ^ 60` that differ by one at most are as close as after one rounding. -/
theorem isClose_of_sub_le (hp : 2 ^ 60 ≤ p) (hq : 2 ^ 60 ≤ q) (hpq : p ≤ q + 1) (hqp : q ≤ p + 1) :
    IsClose 1 p q := by
  refine ⟨by linarith, by linarith, ?_, ?_⟩ <;> rw [pow_one, shrink] <;> linarith

theorem least_le : least ≤ 1 / 2 ^ 60 :=
  one_div_le_one_div_of_le (by positivity) (pow_le_pow_right₀ one_le_two (by norm_num))

/-- A number that is not small is one rounding away from the nearest. -/
theorem IsNearest.isClose (h : IsNearest q b) (hb : b < infinite) (hq : 1 ≤ q) :
    IsClose 1 q (value b) := by
  have hdist := abs_le.mp (h.abs_sub_le hb (by linarith))
  have hunit := least_le
  refine ⟨by linarith, value_nonneg b, ?_, ?_⟩ <;> rw [pow_one, shrink] <;> linarith

/-- **After up to five roundings the error is small**, with one or two more for what is added. -/
theorem IsClose.abs_sub_le (h : IsClose 5 p q) {s : ℚ} (hr : |r - q| ≤ q * (17 / 2 ^ 56) + s) :
    |r - p| ≤ p / 2 ^ 50 + s := by
  have hr := abs_le.mp hr
  have hle := h.le
  have hge := h.ge
  have hp := h.nonneg
  have hq := h.nonneg'
  norm_num [shrink] at hle hge hr
  rw [abs_le]
  constructor <;> linarith

/-- **After up to five roundings and a last one the error is small.** -/
theorem IsClose.abs_value_sub_le (h : IsClose 5 p q) (hb : IsNearest q b) (hlt : b < infinite) :
    |value b - p| ≤ p / 2 ^ 50 + least / 2 := by
  refine h.abs_sub_le ((hb.abs_sub_le hlt h.nonneg').trans ?_)
  have hq := h.nonneg'
  linarith

end Binary64
end RemoteFiles
