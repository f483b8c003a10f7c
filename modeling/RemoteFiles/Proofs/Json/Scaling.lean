import RemoteFiles.Json.Number
import RemoteFiles.Proofs.Binary64.Operations
import Mathlib.Algebra.Order.Field.Basic

/-!
# Digits times a power of ten

What comes of some digits and a power of ten, said by what is nearest to what: the digits are rounded,
the power is rounded, and so is their product or quotient.  A power beyond `10 ^ 308` is divided by in
steps.  Only a result below infinity is one.

## Main definitions

* `Json.Lowers` — a pattern is divided by a power of ten.
* `Json.IsScaled` — the pattern that digits and a power of ten are rounded to.

## Main results

* `Json.IsScaled.unique` — digits and a power of ten are rounded in one way only.
* `Json.scaled?_spec` — **this is what is computed**, and nothing is if it is infinity.
-/

namespace RemoteFiles
namespace Json

open Binary64

variable {b c d digits n : ℕ} {power : ℤ} {x : Float}

/-! ### What digits and powers come to -/

/-- A pattern is divided by `10 ^ n`, in steps of at most `10 ^ 308`, and each time the quotient is
rounded. -/
inductive Lowers : ℕ → ℕ → ℕ → Prop where
  | last {b n t c : ℕ} (hn : n ≤ 308) (ht : IsNearest (10 ^ n) t)
      (hc : IsNearest (value b / value t) c) : Lowers b n c
  | step {b n t c d : ℕ} (hn : 0 < n) (ht : IsNearest (10 ^ 308) t)
      (hc : IsNearest (value b / value t) c) (h : Lowers c n d) : Lowers b (n + 308) d

/-- The pattern that digits and a power of ten are rounded to. -/
def IsScaled (digits : ℕ) (power : ℤ) (b : ℕ) : Prop :=
  ∃ f, IsNearest digits f ∧
    if power < 0 then Lowers f power.natAbs b
    else ∃ t, IsNearest (10 ^ power.toNat) t ∧ IsNearest (value f * value t) b

theorem Lowers.unique (h : Lowers b n c) : ∀ {d : ℕ}, Lowers b n d → c = d := by
  induction h with
  | last hn ht hc =>
    intro d hd
    cases hd with
    | last _ ht' hc' =>
      rw [ht.unique ht'] at hc
      exact hc.unique hc'
    | step hn' => omega
  | @step b n t c d hn ht hc h ih =>
    intro d' hd'
    generalize hm : n + 308 = m at hd'
    cases hd' with
    | last => omega
    | step hn' ht' hc' h' =>
      obtain rfl := Nat.add_right_cancel hm
      rw [ht.unique ht'] at hc
      exact ih (hc.unique hc' ▸ h')

/-- Digits and a power of ten are rounded in one way only. -/
theorem IsScaled.unique (hb : IsScaled digits power b) (hc : IsScaled digits power c) : b = c := by
  obtain ⟨f, hf, hb⟩ := hb
  obtain ⟨f', hf', hc⟩ := hc
  obtain rfl := hf.unique hf'
  split at hb
  · rw [if_pos (by assumption)] at hc
    exact hb.unique hc
  · rw [if_neg (by assumption)] at hc
    obtain ⟨t, ht, hb⟩ := hb
    obtain ⟨t', ht', hc⟩ := hc
    obtain rfl := ht.unique ht'
    exact hb.unique hc

/-! ### What is computed -/

theorem nearest_powerOfTen (hn : n ≤ 308) : Nearest (10 ^ n) (powerOfTen n) :=
  nearest_ofScientific hn

/-- A power of ten is one at least. -/
theorem one_le_value {t : ℕ} (ht : IsNearest (10 ^ n) t) : 1 ≤ value t :=
  ht.one_le_value (one_le_pow₀ (by norm_num))

/-- A power of ten up to `10 ^ 308` is below infinity. -/
theorem pattern_powerOfTen_lt (hn : n ≤ 308) : pattern (powerOfTen n) < infinite := by
  have hpow : 10 ^ n ≤ (2 ^ 53 - 1) * 2 ^ 971 :=
    (Nat.pow_le_pow_right (by decide) hn).trans (by decide +kernel)
  refine (nearest_powerOfTen hn).lt_infinite ?_
  rw [value_greatest]
  exact_mod_cast hpow

/-- Nothing is left of zero, whatever it is divided by. -/
theorem lowers_zero (n : ℕ) : Lowers 0 n 0 := by
  have hquotient : ∀ t, IsNearest (value 0 / value t) 0 := by
    intro t
    rw [value_zero, zero_div]
    exact isNearest_zero
  induction n using Nat.strongRecOn with
  | ind n ih =>
    by_cases hn : n ≤ 308
    · exact .last hn (nearest_powerOfTen hn) (hquotient _)
    · obtain ⟨k, rfl⟩ : ∃ k, n = k + 308 := ⟨n - 308, by omega⟩
      exact .step (by omega) (nearest_powerOfTen le_rfl) (hquotient _) (ih k (by omega))

theorem divideDown_spec (x : Float) (n : ℕ) (hx : pattern x < infinite) :
    Lowers (pattern x) n (pattern (divideDown x n)) ∧ pattern (divideDown x n) < infinite := by
  -- a quotient is rounded to what is divided at most, since the power is one at least
  have hquotient : ∀ {x : Float} {n : ℕ}, pattern x < infinite → n ≤ 308 →
      IsNearest (value (pattern x) / value (pattern (powerOfTen n))) (pattern (x / powerOfTen n)) ∧
        pattern (x / powerOfTen n) < infinite := by
    intro x n hx hn
    have hone := one_le_value (nearest_powerOfTen hn)
    have hne : pattern (powerOfTen n) ≠ 0 := by
      intro hzero
      rw [hzero, value_zero] at hone
      exact absurd hone (by norm_num)
    have hdiv := nearest_div hx (pattern_powerOfTen_lt hn) hne
    have hle : value (pattern x) / value (pattern (powerOfTen n)) ≤ value (pattern x) :=
      div_le_self (value_nonneg _) hone
    exact ⟨hdiv, Nat.lt_of_le_of_lt (hdiv.le_of_le_value hx.le hle) hx⟩
  induction x, n using divideDown.induct with
  | case1 x n hn =>
    obtain ⟨hdiv, hlt⟩ := hquotient hx hn
    rw [divideDown, if_pos hn]
    exact ⟨.last hn (nearest_powerOfTen hn) hdiv, hlt⟩
  | case2 x n hn hzero =>
    rw [divideDown, if_neg hn, if_pos hzero, pattern_eq_zero_of_beq hx hzero]
    exact ⟨lowers_zero n, by decide⟩
  | case3 x n hn hne ih =>
    obtain ⟨hdiv, hlt⟩ := hquotient hx le_rfl
    obtain ⟨hlowers, hlt⟩ := ih hlt
    obtain ⟨k, rfl⟩ : ∃ k, n = k + 308 := ⟨n - 308, by omega⟩
    rw [Nat.add_sub_cancel] at hlowers hlt
    rw [divideDown, if_neg hn, if_neg hne, Nat.add_sub_cancel]
    exact ⟨.step (by omega) (nearest_powerOfTen le_rfl) hdiv hlowers, hlt⟩

/-- Digits that fit 64 bits are converted to the number nearest to them. -/
theorem nearest_digits (hdigits : digits < 2 ^ 64) :
    IsNearest digits (pattern (UInt64.ofNat digits).toFloat) := by
  have hnearest := nearest_toFloat (UInt64.ofNat digits)
  rwa [UInt64.toNat_ofNat_of_lt' hdigits] at hnearest

/-- They are rounded to `2 ^ 64` at most, and that is below infinity. -/
theorem value_le_of_isNearest (hdigits : digits < 2 ^ 64) (hb : IsNearest digits b) :
    b < infinite ∧ value b ≤ 2 ^ 64 := by
  have hvalue : value ((1023 + 64) * 2 ^ 52) = 2 ^ 64 := by
    rw [value_of_units (k := 2 ^ 64) (by decide +kernel), Nat.cast_pow, Nat.cast_two]
  have hle : b ≤ (1023 + 64) * 2 ^ 52 := by
    refine hb.le_of_le_value (by decide) ?_
    rw [hvalue]
    exact_mod_cast hdigits.le
  exact ⟨Nat.lt_of_le_of_lt hle (by decide), hvalue ▸ value_strictMono.monotone hle⟩

/-- **This is what is computed**: the pattern that digits and a power of ten are rounded to, and
nothing if that is infinity. -/
theorem scaled?_spec (hdigits : digits < 2 ^ 64) (power : ℤ) :
    ∃ b, IsScaled digits power b ∧
      ((∃ x, scaled? digits power = some x ∧ pattern x = b ∧ b < infinite) ∨
        (scaled? digits power = none ∧ b = infinite)) := by
  have hf := nearest_digits hdigits
  have hlt := (value_le_of_isNearest hdigits hf).1
  rw [scaled?]
  by_cases hneg : power < 0
  · obtain ⟨hlowers, hlow⟩ := divideDown_spec _ power.natAbs hlt
    exact ⟨_, ⟨_, hf, by rwa [if_pos hneg]⟩, .inl ⟨_, if_pos hneg, rfl, hlow⟩⟩
  simp only [if_neg hneg]
  by_cases hpower : power ≤ 308
  · have hten : power.toNat ≤ 308 := by omega
    have hmul := nearest_mul hlt (pattern_powerOfTen_lt hten)
    refine ⟨_, ⟨_, hf, by rw [if_neg hneg]; exact ⟨_, nearest_powerOfTen hten, hmul⟩⟩, ?_⟩
    rw [if_pos hpower]
    rcases Nat.lt_or_eq_of_le hmul.le_infinite with hbelow | hinf
    · exact .inl ⟨_, by rw [isInf_of_lt hbelow]; rfl, rfl, hbelow⟩
    · exact .inr ⟨by rw [isInf_of_eq hinf]; rfl, hinf⟩
  -- the power is rounded to infinity, so only zero stays below
  have hten : IsNearest (10 ^ power.toNat) infinite := by
    obtain ⟨k, hk⟩ : ∃ k, power.toNat = 309 + k := ⟨power.toNat - 309, by omega⟩
    have hleast : 2 ^ 1024 ≤ 10 ^ 309 * 10 ^ k :=
      (show 2 ^ 1024 ≤ 10 ^ 309 by decide +kernel).trans
        (Nat.le_mul_of_pos_right _ (Nat.pow_pos (by decide)))
    refine isNearest_infinite ?_
    rw [value_infinite, hk, pow_add]
    exact_mod_cast hleast
  rw [if_neg hpower]
  by_cases hzero : digits = 0
  · have hpattern : pattern (UInt64.ofNat digits).toFloat = 0 := by
      rw [hzero, Nat.cast_zero] at hf
      rw [hzero]
      exact hf.eq_zero
    refine ⟨0, ⟨_, hf, ?_⟩, .inl ⟨_, if_pos hzero, hpattern, by decide⟩⟩
    rw [if_neg hneg, hpattern]
    refine ⟨_, hten, ?_⟩
    rw [value_zero, zero_mul]
    exact isNearest_zero
  · have hone : 1 ≤ value (pattern (UInt64.ofNat digits).toFloat) :=
      hf.one_le_value (by exact_mod_cast Nat.one_le_iff_ne_zero.mpr hzero)
    refine ⟨infinite, ⟨_, hf, ?_⟩, .inr ⟨if_neg hzero, rfl⟩⟩
    rw [if_neg hneg]
    exact ⟨_, hten, isNearest_infinite (le_mul_of_one_le_left (value_nonneg _) hone)⟩

end Json
end RemoteFiles
