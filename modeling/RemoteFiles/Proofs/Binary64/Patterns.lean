import Mathlib.Algebra.Order.Field.Rat
import Mathlib.Data.Nat.Find
import Mathlib.Tactic.Linarith
import Mathlib.Tactic.Ring

/-!
# Patterns of floating-point numbers

The floating-point numbers of 64 bits that are not negative, taken by their bit patterns.  A greater
pattern stands for a greater number, up to the pattern of infinity, so the neighbours of a number are
those of its pattern, within a power of two and across one alike.  Rounding is said with that: the
number nearest to a given one is the pattern at the least distance, and of two at the same distance
the even one.  Infinity takes part as the number that would come next, `2 ^ 1024`.

## Main definitions

* `Binary64.units`, `Binary64.value` — what a pattern stands for.
* `Binary64.IsNearest` — a pattern is the nearest to a number.
* `Binary64.pattern`, `Binary64.valueOf`, `Binary64.Nearest` — the same for floating-point numbers;
  `Binary64.realOf` — with a sign.

## Main results

* `Binary64.units_strictMono` — a greater pattern stands for a greater number.
* `Binary64.isNearest_of_down`, `Binary64.isNearest_of_up` — the nearer of two neighbours is the
  nearest of all.
* `Binary64.IsNearest.unique` — **a number is rounded in one way only.**
* `Binary64.IsNearest.abs_sub_le` — **the nearest number is near.**
-/

namespace RemoteFiles
namespace Binary64

/-- The pattern of infinity. -/
def infinite : ℕ := 2047 * 2 ^ 52

/-- The pattern of one. -/
def one : ℕ := 1023 * 2 ^ 52

/-- How many times `2 ^ -1074` a pattern stands for: the upper bits from the 52nd on are an exponent,
and where they are not zero there is one more bit in front of the lower ones. -/
def units (b : ℕ) : ℕ := (b - (b / 2 ^ 52 - 1) * 2 ^ 52) * 2 ^ (b / 2 ^ 52 - 1)

/-- The number that a pattern stands for. -/
def value (b : ℕ) : ℚ := units b / 2 ^ 1074

/-- The least positive number. -/
def least : ℚ := 1 / 2 ^ 1074

/-- A pattern is the nearest to a number that is not negative, and the even one of two. -/
structure IsNearest (q : ℚ) (b : ℕ) : Prop where
  le_infinite : b ≤ infinite
  nearest (c : ℕ) (hc : c ≤ infinite) : |value b - q| ≤ |value c - q|
  even (c : ℕ) (hc : c ≤ infinite) (hne : c ≠ b) (heq : |value c - q| = |value b - q|) : b % 2 = 0

/-- The bits of a floating-point number. -/
def pattern (x : Float) : ℕ := x.toBits.toNat

theorem pattern_injective : Function.Injective pattern := by
  rintro ⟨⟨a, ha⟩⟩ ⟨⟨b, hb⟩⟩ h
  obtain rfl : a = b := UInt64.toNat_inj.mp h
  rfl

/-- The number that a floating-point number without sign stands for. -/
def valueOf (x : Float) : ℚ := value (pattern x)

/-- The number that a floating-point number stands for, with its sign. -/
def realOf (x : Float) : ℚ :=
  if pattern x < 2 ^ 63 then value (pattern x) else -value (pattern x - 2 ^ 63)

/-- A floating-point number is the one that a number is rounded to. -/
def Nearest (q : ℚ) (x : Float) : Prop := IsNearest q (pattern x)

/-- A sign in front of a pattern changes the sign of the number. -/
theorem realOf_eq {x : Float} {negative : Bool} {b : ℕ} (hb : b < infinite)
    (hx : pattern x = b + if negative then 2 ^ 63 else 0) :
    realOf x = (if negative then -value b else value b) ∧ pattern x % 2 ^ 63 = b := by
  rw [infinite] at hb
  cases negative with
  | false =>
    rw [if_neg Bool.false_ne_true, Nat.add_zero] at hx
    rw [realOf, hx, if_pos (by omega), if_neg Bool.false_ne_true]
    exact ⟨rfl, by omega⟩
  | true =>
    rw [if_pos rfl] at hx
    rw [realOf, hx, if_neg (by omega), if_pos rfl, Nat.add_sub_cancel]
    exact ⟨rfl, by omega⟩

/-! ### Neighbours -/

/-- A pattern that is put together stands for its lower part, as many times as the upper part
says. -/
theorem units_add {m g : ℕ} (hm : m ≤ 2 ^ 53) (hg : 2 ^ 52 ≤ m ∨ g = 0) :
    units (m + g * 2 ^ 52) = m * 2 ^ g := by
  by_cases htop : m = 2 ^ 53
  · -- the lower part is full, and one more of the upper part takes its place
    have hdiv : (m + g * 2 ^ 52) / 2 ^ 52 - 1 = g + 1 := by omega
    have hsub : m + g * 2 ^ 52 - (g + 1) * 2 ^ 52 = 2 ^ 52 := by omega
    rw [units, hdiv, hsub, htop]
    ring
  · have hdiv : (m + g * 2 ^ 52) / 2 ^ 52 - 1 = g := by omega
    rw [units, hdiv, Nat.add_sub_cancel]

/-- Every pattern is put together in this way. -/
theorem exists_parts (b : ℕ) :
    ∃ m g, b = m + g * 2 ^ 52 ∧ m < 2 ^ 53 ∧ (2 ^ 52 ≤ m ∨ g = 0) :=
  ⟨b - (b / 2 ^ 52 - 1) * 2 ^ 52, b / 2 ^ 52 - 1, by omega, by omega, by omega⟩

theorem units_strictMono : StrictMono units := by
  refine strictMono_nat_of_lt_succ fun b => ?_
  obtain ⟨m, g, rfl, hm, hg⟩ := exists_parts b
  have hsucc : m + g * 2 ^ 52 + 1 = m + 1 + g * 2 ^ 52 := by omega
  rw [hsucc, units_add (by omega) hg, units_add (by omega) (by omega)]
  exact Nat.mul_lt_mul_of_pos_right (Nat.lt_succ_self m) (Nat.two_pow_pos g)

/-- A greater pattern stands for a greater number. -/
theorem value_strictMono : StrictMono value := by
  intro b c h
  have hunits : (units b : ℚ) < units c := by exact_mod_cast units_strictMono h
  exact div_lt_div_of_pos_right hunits (by positivity)

theorem value_zero : value 0 = 0 := by
  simp [value, units]

theorem value_nonneg (b : ℕ) : 0 ≤ value b := by
  rw [← value_zero]
  exact value_strictMono.monotone (Nat.zero_le b)

/-- A pattern stands for a natural number if its units do. -/
theorem value_of_units {b k : ℕ} (h : units b = k * 2 ^ 1074) : value b = k := by
  rw [value, h, Nat.cast_mul, Nat.cast_pow, Nat.cast_two]
  exact mul_div_cancel_right₀ _ (pow_ne_zero _ two_ne_zero)

theorem value_one : value one = 1 := by
  rw [value_of_units (k := 1) (by decide +kernel), Nat.cast_one]

theorem value_least : value 1 = least := by
  rw [value, show units 1 = 1 from rfl, Nat.cast_one, least]

theorem value_greatest : value (infinite - 1) = ((2 ^ 53 - 1) * 2 ^ 971 : ℕ) :=
  value_of_units (by decide +kernel)

theorem value_infinite : value infinite = 2 ^ 1024 := by
  rw [value_of_units (k := 2 ^ 1024) (by decide +kernel), Nat.cast_pow, Nat.cast_two]

/-- A natural number up to `2 ^ 53` is one of the floating-point numbers. -/
theorem exists_value_eq {m : ℕ} (hm : m ≤ 2 ^ 53) : ∃ c ≤ infinite, value c = m := by
  rcases Nat.eq_zero_or_pos m with rfl | hpos
  · exact ⟨0, by decide, by rw [value_zero, Nat.cast_zero]⟩
  by_cases hfull : m = 2 ^ 53
  · refine ⟨(1023 + 53) * 2 ^ 52, by decide, ?_⟩
    rw [value_of_units (k := 2 ^ 53) (by decide +kernel), hfull]
  -- as many zeros are put behind the number as fit
  obtain ⟨s, hs⟩ : ∃ s, m.log2 + s = 52 := by
    have hlog := (Nat.log2_lt hpos.ne').mpr (Nat.lt_of_le_of_ne hm hfull)
    exact ⟨52 - m.log2, by omega⟩
  have hlow : 2 ^ 52 ≤ m * 2 ^ s := by
    rw [← hs, Nat.pow_add]
    exact Nat.mul_le_mul_right _ (Nat.log2_self_le hpos.ne')
  have hhigh : m * 2 ^ s < 2 ^ 53 := by
    have hpow : 2 ^ 53 = 2 ^ (m.log2 + 1) * 2 ^ s := by rw [← Nat.pow_add, Nat.add_right_comm, hs]
    rw [hpow]
    exact Nat.mul_lt_mul_of_pos_right Nat.lt_log2_self (Nat.two_pow_pos s)
  refine ⟨m * 2 ^ s + (1074 - s) * 2 ^ 52, by rw [infinite]; omega, value_of_units ?_⟩
  rw [units_add hhigh.le (.inl hlow), mul_assoc, ← pow_add, Nat.add_sub_cancel' (by omega)]

/-! ### The nearest pattern -/

variable {q : ℚ} {b c : ℕ}

/-- What is at least infinity is rounded to it. -/
theorem isNearest_infinite (h : value infinite ≤ q) : IsNearest q infinite where
  le_infinite := Nat.le_refl _
  nearest c hc := by
    have hle := value_strictMono.monotone hc
    rw [abs_of_nonpos (by linarith), abs_of_nonpos (by linarith)]
    linarith
  even c hc hne _ := by decide

/-- What is nearer to the lower neighbour is rounded down, to infinity if it is beyond that. -/
theorem isNearest_of_down (hlow : value b ≤ q) (hdown : q - value b ≤ value (b + 1) - q)
    (htie : q - value b = value (b + 1) - q → b % 2 = 0) : IsNearest q (min infinite b) := by
  by_cases hb : infinite ≤ b
  · rw [Nat.min_eq_left hb]
    exact isNearest_infinite ((value_strictMono.monotone hb).trans hlow)
  rw [Nat.min_eq_right (by omega)]
  have hdist : |value b - q| = q - value b := by
    rw [abs_of_nonpos (by linarith)]
    ring
  -- the patterns below are farther away, and those above are no nearer than the next one
  have hbelow : ∀ c < b, q - value b < |value c - q| := by
    intro c hc
    have hlt := value_strictMono hc
    rw [abs_of_nonpos (by linarith)]
    linarith
  have habove : ∀ c, b < c → value (b + 1) - q ≤ |value c - q| := by
    intro c hc
    have hle := value_strictMono.monotone (Nat.succ_le_of_lt hc)
    exact (sub_le_sub_right hle q).trans (le_abs_self _)
  refine ⟨by omega, fun c _ => ?_, fun c _ hne heq => ?_⟩
  · rw [hdist]
    rcases Nat.lt_trichotomy c b with hlt | rfl | hgt
    · exact (hbelow c hlt).le
    · exact hdist.ge
    · exact hdown.trans (habove c hgt)
  · rw [hdist] at heq
    rcases Nat.lt_or_gt_of_ne hne with hlt | hgt
    · exact absurd heq (hbelow c hlt).ne'
    · exact htie (le_antisymm hdown ((habove c hgt).trans_eq heq))

/-- What is nearer to the upper neighbour is rounded up. -/
theorem isNearest_of_up (hhigh : q ≤ value (b + 1)) (hup : value (b + 1) - q ≤ q - value b)
    (htie : value (b + 1) - q = q - value b → (b + 1) % 2 = 0) :
    IsNearest q (min infinite (b + 1)) := by
  by_cases hb : infinite ≤ b
  · rw [Nat.min_eq_left (by omega)]
    have hle := value_strictMono.monotone hb
    have hlt := value_strictMono (Nat.lt_succ_self b)
    exact isNearest_infinite (by linarith)
  rw [Nat.min_eq_right (by omega)]
  have hdist : |value (b + 1) - q| = value (b + 1) - q := abs_of_nonneg (by linarith)
  have hbelow : ∀ c ≤ b, q - value b ≤ |value c - q| := by
    intro c hc
    have hle := value_strictMono.monotone hc
    rw [abs_sub_comm]
    exact (sub_le_sub_left hle q).trans (le_abs_self _)
  have habove : ∀ c, b + 1 < c → value (b + 1) - q < |value c - q| := by
    intro c hc
    have hlt := value_strictMono hc
    exact (sub_lt_sub_right hlt q).trans_le (le_abs_self _)
  refine ⟨by omega, fun c _ => ?_, fun c _ hne heq => ?_⟩
  · rw [hdist]
    rcases Nat.lt_trichotomy c (b + 1) with hlt | rfl | hgt
    · exact hup.trans (hbelow c (by omega))
    · exact hdist.ge
    · exact (habove c hgt).le
  · rw [hdist] at heq
    rcases Nat.lt_or_gt_of_ne hne with hlt | hgt
    · exact htie (le_antisymm hup ((hbelow c (by omega)).trans_eq heq))
    · exact absurd heq (habove c hgt).ne'

/-- **A number is rounded in one way only.** -/
theorem IsNearest.unique (hb : IsNearest q b) (hc : IsNearest q c) : b = c := by
  wlog hlt : b < c generalizing b c with hother
  · rcases Nat.lt_or_eq_of_le (Nat.not_lt.mp hlt) with hgt | heq
    · exact (hother hc hb hgt).symm
    · exact heq.symm
  exfalso
  have hdist : |value b - q| = |value c - q| :=
    le_antisymm (hb.nearest c hc.le_infinite) (hc.nearest b hb.le_infinite)
  have hevenb := hb.even c hc.le_infinite hlt.ne' hdist.symm
  have hevenc := hc.even b hb.le_infinite hlt.ne hdist
  -- two even patterns have one between them, and that is nearer
  have hbetween : b < b + 1 ∧ b + 1 < c := ⟨Nat.lt_succ_self b, by omega⟩
  have hlow := value_strictMono hbetween.1
  have hhigh := value_strictMono hbetween.2
  have hnearer := hb.nearest (b + 1) (by have := hc.le_infinite; omega)
  rcases abs_eq_abs.mp hdist with heq | heq
  · linarith
  · rw [abs_of_nonpos (by linarith)] at hnearer
    rcases le_total (value (b + 1)) q with hle | hle
    · rw [abs_of_nonpos (by linarith)] at hnearer
      linarith
    · rw [abs_of_nonneg (by linarith)] at hnearer
      linarith

/-- A number that a pattern stands for is rounded to it. -/
theorem isNearest_value (h : b ≤ infinite) : IsNearest (value b) b := by
  have hlt := value_strictMono (Nat.lt_succ_self b)
  have hdown := isNearest_of_down (q := value b) le_rfl (by linarith) (fun heq => by linarith)
  rwa [Nat.min_eq_right h] at hdown

theorem IsNearest.eq_of_value (h : IsNearest (value b) c) (hb : b ≤ infinite) : c = b :=
  h.unique (isNearest_value hb)

theorem isNearest_zero : IsNearest 0 0 := by
  have h := isNearest_value (Nat.zero_le infinite)
  rwa [value_zero] at h

theorem IsNearest.eq_zero (h : IsNearest 0 b) : b = 0 := h.unique isNearest_zero

/-- A number up to a pattern's is rounded to that pattern at most. -/
theorem IsNearest.le_of_le_value (h : IsNearest q b) (hc : c ≤ infinite) (hq : q ≤ value c) :
    b ≤ c := by
  by_contra hlt
  have hgreater := value_strictMono (Nat.lt_of_not_le hlt)
  have hnearest := h.nearest c hc
  rw [abs_of_nonneg (by linarith), abs_of_nonneg (by linarith)] at hnearest
  linarith

/-- A number up to the greatest one is not rounded to infinity. -/
theorem IsNearest.lt_infinite (h : IsNearest q b) (hq : q ≤ value (infinite - 1)) : b < infinite :=
  Nat.lt_of_le_of_lt (h.le_of_le_value (by decide) hq) (by decide)

/-- A number from a pattern's on is rounded to that pattern at least. -/
theorem IsNearest.ge_of_value_le (h : IsNearest q b) (hc : c ≤ infinite) (hq : value c ≤ q) :
    c ≤ b := by
  by_contra hlt
  have hless := value_strictMono (Nat.lt_of_not_le hlt)
  have hnearest := h.nearest c hc
  rw [abs_of_nonpos (by linarith), abs_of_nonpos (by linarith)] at hnearest
  linarith

/-- What is one at least stays so. -/
theorem IsNearest.one_le_value (h : IsNearest q b) (hq : 1 ≤ q) : 1 ≤ value b := by
  rw [← value_one] at hq ⊢
  exact value_strictMono.monotone (h.ge_of_value_le (by decide) hq)

/-- What is rounded to infinity is not much less. -/
theorem le_of_isNearest_infinite (h : IsNearest q infinite) : 2 ^ 1022 * 2 ≤ q := by
  have hgreatest : (2 : ℚ) ^ 1022 * 2 ≤ value (infinite - 1) := by
    rw [value_greatest]
    exact_mod_cast (by decide +kernel : 2 ^ 1022 * 2 ≤ (2 ^ 53 - 1) * 2 ^ 971)
  by_contra hlt
  exact lt_irrefl _ (h.lt_infinite ((not_le.mp hlt).le.trans hgreatest))

/-- What is below half of the least positive number is rounded to zero. -/
theorem IsNearest.eq_zero_of_lt (h : IsNearest q b) (h0 : 0 ≤ q) (hq : q < least / 2) : b = 0 := by
  by_contra hne
  have hle := value_strictMono.monotone (Nat.one_le_iff_ne_zero.mpr hne)
  have hnearest := h.nearest 0 (by decide)
  rw [value_least] at hle
  rw [value_zero, abs_of_nonneg (by linarith), abs_of_nonpos (by linarith)] at hnearest
  linarith

/-! ### How near the nearest one is -/

theorem units_succ_le (b : ℕ) : units (b + 1) * 2 ^ 52 ≤ units b * (2 ^ 52 + 1) + 2 ^ 52 := by
  obtain ⟨m, g, rfl, hm, hg⟩ := exists_parts b
  rw [Nat.add_right_comm, units_add hm.le hg, units_add hm (by omega)]
  rcases hg with hfull | rfl
  · have hpow := Nat.mul_le_mul_right (2 ^ g) hfull
    nlinarith
  · omega

/-- A pattern is followed by a number that is greater by a `2 ^ 52`th of it, or by the least positive
number. -/
theorem value_succ_le (b : ℕ) : value (b + 1) ≤ value b + value b / 2 ^ 52 + least := by
  have hsucc : (units (b + 1) * 2 ^ 52 : ℚ) ≤ units b * (2 ^ 52 + 1) + units 1 * 2 ^ 52 := by
    exact_mod_cast (units_succ_le b).trans_eq (by rw [show units 1 = 1 from rfl, one_mul])
  have hunits : (units (b + 1) : ℚ) ≤ units b + units b / 2 ^ 52 + units 1 := by linarith
  have hden : (0 : ℚ) ≤ 2 ^ 1074 := by positivity
  rw [← value_least, value, value, value, div_right_comm, ← add_div, ← add_div]
  exact div_le_div_of_nonneg_right hunits hden

/-- **The nearest number is near**, if it is not infinity: it differs by a `2 ^ 53`th at most, or by
half the least positive number. -/
theorem IsNearest.abs_sub_le (h : IsNearest q b) (hb : b < infinite) (hq : 0 ≤ q) :
    |value b - q| ≤ q / 2 ^ 53 + least / 2 := by
  have hlt : q < value infinite := by
    by_contra hle
    exact hb.ne (h.unique (isNearest_infinite (not_lt.mp hle)))
  -- the number lies between two neighbours, and the nearest is no farther than either
  obtain ⟨c, hlow, hhigh⟩ : ∃ c, value c ≤ q ∧ q < value (c + 1) := by
    have hexists : ∃ c, q < value c := ⟨infinite, hlt⟩
    obtain ⟨c, hc⟩ : ∃ c, Nat.find hexists = c + 1 := by
      refine Nat.exists_eq_succ_of_ne_zero fun hzero => ?_
      have hfound := Nat.find_spec hexists
      rw [hzero, value_zero] at hfound
      exact absurd hq (not_le.mpr hfound)
    refine ⟨c, not_lt.mp (Nat.find_min hexists (by omega)), ?_⟩
    rw [← hc]
    exact Nat.find_spec hexists
  have hc : c < infinite := value_strictMono.lt_iff_lt.mp (hlow.trans_lt hlt)
  have hnear := h.nearest c hc.le
  have hnear' := h.nearest (c + 1) hc
  rw [abs_of_nonpos (by linarith : value c - q ≤ 0)] at hnear
  rw [abs_of_nonneg (by linarith : 0 ≤ value (c + 1) - q)] at hnear'
  have hgap := value_succ_le c
  linarith

end Binary64
end RemoteFiles
