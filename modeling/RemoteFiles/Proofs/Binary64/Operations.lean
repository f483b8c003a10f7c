import RemoteFiles.Proofs.Binary64.Rounding

/-!
# Operations on floating-point numbers

Conversion from natural numbers, products, quotients and the powers of ten, each by what the logical
model makes of the parts of its operands.  The operands are not negative and below infinity.

## Main results

* `Binary64.nearest_toFloat`, `Binary64.nearest_mul`, `Binary64.nearest_div` — **conversion,
  multiplication and division give the number nearest to the true result.**
* `Binary64.nearest_ofScientific` — a power of ten is the number nearest to the true one.
* `Binary64.pattern_neg` — negation adds a sign.
-/

namespace RemoteFiles
namespace Binary64

open Float.Model Float.Model.UnpackedFloat

variable {x y : Float} {m g : ℕ} {e : ℤ}

/-! ### Patterns taken apart -/

theorem toNat_unpackMantissa (b : BitVec 64) :
    (@unpackMantissa Format.binary64 b).toNat = b.toNat % 2 ^ 52 := by
  simp [unpackMantissa]

theorem toNat_unpackExponent (b : BitVec 64) :
    (@unpackExponent Format.binary64 b).toNat = b.toNat / 2 ^ 52 % 2 ^ 11 := by
  simp [unpackExponent, Nat.shiftRight_eq_div_pow]

theorem toNat_unpackSign (b : BitVec 64) :
    (@unpackSign Format.binary64 b).toNat = b.toNat / 2 ^ 63 % 2 := by
  change (b.extractLsb 63 63).toNat = _
  simp [Nat.shiftRight_eq_div_pow]

theorem unpackExponent_ne {b : BitVec 64} (hlt : b.toNat < infinite) :
    @unpackExponent Format.binary64 b ≠ -1#_ := by
  intro h
  have hexponent := toNat_unpackExponent b
  rw [h, show (-1#11).toNat = 2047 from rfl] at hexponent
  rw [infinite] at hlt
  omega

theorem sign_unpackSign {b : BitVec 64} (hlt : b.toNat < infinite) :
    Sign.ofBitVec (@unpackSign Format.binary64 b) = .positive := by
  have hzero : @unpackSign Format.binary64 b = 0#1 := by
    apply BitVec.eq_of_toNat_eq
    rw [toNat_unpackSign, BitVec.toNat_zero]
    rw [infinite] at hlt
    omega
  rw [hzero]
  rfl

/-- A pattern below infinity is taken apart into what it was put together from. -/
theorem unpack_eq {b : BitVec 64} (hb : b.toNat = m + g * 2 ^ 52) (hlt : b.toNat < infinite)
    (hpos : 0 < m) (hm : m < 2 ^ 53) (hg : 2 ^ 52 ≤ m ∨ g = 0) :
    UnpackedFloat.unpack Format.binary64 b = .finite .positive m (g - 1074) hpos := by
  have hbound : m + g * 2 ^ 52 < 2047 * 2 ^ 52 := hb ▸ hlt
  have hmantissa := toNat_unpackMantissa b
  have hexponent := toNat_unpackExponent b
  delta UnpackedFloat.unpack
  dsimp only
  rw [sign_unpackSign hlt, if_neg (unpackExponent_ne hlt)]
  by_cases hfull : 2 ^ 52 ≤ m
  · have hne : @unpackExponent Format.binary64 b ≠ 0#_ := by
      intro h
      rw [h, BitVec.toNat_zero] at hexponent
      omega
    have happend : (1#1 ++ @unpackMantissa Format.binary64 b).toNat = m := by
      rw [BitVec.toNat_append, ← Nat.shiftLeft_add_eq_or_of_lt (BitVec.isLt _), hmantissa]
      change 1 <<< 52 + b.toNat % 2 ^ 52 = m
      omega
    rw [if_neg hne, UnpackedFloat.finite.injEq]
    refine ⟨rfl, happend, ?_⟩
    rw [hexponent]
    change ((b.toNat / 2 ^ 52 % 2 ^ 11 : ℕ) : ℤ) - (1023 + 52) = g - 1074
    omega
  · -- nothing is left out in front
    obtain rfl : g = 0 := hg.resolve_left hfull
    have hzero : @unpackExponent Format.binary64 b = 0#_ := by
      apply BitVec.eq_of_toNat_eq
      rw [hexponent, BitVec.toNat_zero]
      omega
    have hsame : (@unpackMantissa Format.binary64 b).toNat = m := by omega
    have hne : @unpackMantissa Format.binary64 b ≠ 0#_ := by
      intro h
      rw [h, BitVec.toNat_zero] at hsame
      omega
    rw [if_pos hzero, dif_neg hne, UnpackedFloat.finite.injEq]
    refine ⟨rfl, hsame, ?_⟩
    rw [hzero]
    rfl

/-- A number below infinity is zero or a whole number of some power of two. -/
theorem unpack_cases (hx : pattern x < infinite) :
    (pattern x = 0 ∧ x.toModel.unpack = .zero .positive) ∨
    ∃ (m g : ℕ) (hpos : 0 < m), pattern x = m + g * 2 ^ 52 ∧ m < 2 ^ 53 ∧ (2 ^ 52 ≤ m ∨ g = 0) ∧
      x.toModel.unpack = .finite .positive m (g - 1074) hpos := by
  obtain ⟨m, g, hparts, hm, hg⟩ := exists_parts (pattern x)
  rcases Nat.eq_zero_or_pos m with rfl | hpos
  · have hzero : pattern x = 0 := by omega
    have hbits : x.toModel.toBits.toBitVec = 0#64 := BitVec.eq_of_toNat_eq hzero
    refine Or.inl ⟨hzero, ?_⟩
    rw [Float.Model.unpack, hbits]
    rfl
  · exact Or.inr ⟨m, g, hpos, hparts, hm, hg, unpack_eq hparts hx hpos hm hg⟩

/-! ### Operations -/

theorem pattern_mul (x y : Float) : pattern (x * y) =
    (UnpackedFloat.pack Format.binary64
      (UnpackedFloat.mul Format.binary64 x.toModel.unpack y.toModel.unpack)).toNat := rfl

theorem pattern_div (x y : Float) : pattern (x / y) =
    (UnpackedFloat.pack Format.binary64
      (UnpackedFloat.div Format.binary64 x.toModel.unpack y.toModel.unpack)).toNat := rfl

theorem nearest_zero (h : pattern x = 0) : Nearest 0 x := by
  rw [Nearest, h]
  exact isNearest_zero

/-- **A product is the number nearest to the true one.** -/
theorem nearest_mul (hx : pattern x < infinite) (hy : pattern y < infinite) :
    Nearest (valueOf x * valueOf y) (x * y) := by
  rcases unpack_cases hx with ⟨hzero, hux⟩ | ⟨m, g, hpos, hparts, hm, hg, hux⟩
  · rw [valueOf, hzero, value_zero, zero_mul]
    apply nearest_zero
    rcases unpack_cases hy with ⟨-, huy⟩ | ⟨m', g', hpos', -, -, -, huy⟩ <;>
      rw [pattern_mul, hux, huy] <;> rfl
  rcases unpack_cases hy with ⟨hzero, huy⟩ | ⟨m', g', hpos', hparts', hm', hg', huy⟩
  · rw [valueOf, valueOf, hzero, value_zero, mul_zero]
    apply nearest_zero
    rw [pattern_mul, hux, huy]
    rfl
  have hbits : 52 ≤ (m * m').log2 ∨ (g - 1074 : ℤ) + (g' - 1074) ≤ -1074 := by
    rw [Nat.le_log2 (Nat.mul_pos hpos hpos').ne']
    rcases hg with hfull | rfl
    · exact Or.inl (hfull.trans (Nat.le_mul_of_pos_right m hpos'))
    · rcases hg' with hfull | rfl
      · exact Or.inl (hfull.trans (Nat.le_mul_of_pos_left m' hpos))
      · right
        omega
  have hnearest := isNearest_roundWithAccuracy (describes_exact (m * m')) hbits
  have hvalue : valueOf x * valueOf y =
      (m * m' : ℕ) * 2 ^ ((g - 1074 : ℤ) + (g' - 1074)) := by
    rw [valueOf, valueOf, hparts, hparts', value_add hm.le hg rfl, value_add hm'.le hg' rfl,
      zpow_add₀ two_ne_zero, Nat.cast_mul]
    ring
  rw [Nearest, pattern_mul, hux, huy, hvalue]
  exact hnearest

/-- What is left over of a division says how much of the quotient is cut off. -/
theorem describes_div (m : ℕ) {k : ℕ} (hk : 0 < k) :
    Describes (.ofMantissaAndAccuracy (m / k) (accuracyOfFraction (m % k) k)) (m / k : ℚ) := by
  have hden : (0 : ℚ) < k := Nat.cast_pos.mpr hk
  have hsum : (m : ℚ) = k * (m / k : ℕ) + (m % k : ℕ) := by
    exact_mod_cast (Nat.div_add_mod m k).symm
  have hrest : (m % k : ℕ) < (k : ℚ) := Nat.cast_lt.mpr (Nat.mod_lt m hk)
  rw [hsum, add_div, mul_div_cancel_left₀ _ hden.ne', accuracyOfFraction]
  generalize m / k = q, m % k = r at hrest
  by_cases hzero : r = 0
  · rw [if_pos hzero, hzero, Nat.cast_zero, zero_div, add_zero]
    exact describes_exact q
  have hpos : (0 : ℚ) < r / k := div_pos (Nat.cast_pos.mpr (Nat.pos_of_ne_zero hzero)) hden
  have hone : (r / k : ℚ) < 1 := (div_lt_one₀ hden).mpr hrest
  rw [if_neg hzero]
  rcases Nat.lt_trichotomy (2 * r) k with hlt | heq | hgt
  · have hhalf : (r / k : ℚ) < 1 / 2 := by
      rw [div_lt_div_iff₀ hden two_pos]
      exact_mod_cast (by omega : r * 2 < 1 * k)
    rw [Nat.compare_eq_lt.mpr hlt]
    simp only [Describes, ExtendedMantissa.ofMantissaAndAccuracy, if_true, Bool.false_eq_true,
      if_false]
    constructor <;> linarith
  · have hhalf : (r / k : ℚ) = 1 / 2 := by
      rw [div_eq_div_iff hden.ne' two_ne_zero]
      exact_mod_cast (by omega : r * 2 = 1 * k)
    rw [Nat.compare_eq_eq.mpr heq, hhalf]
    simp only [Describes, ExtendedMantissa.ofMantissaAndAccuracy, if_true, Bool.false_eq_true,
      if_false]
  · have hhalf : 1 / 2 < (r / k : ℚ) := by
      rw [div_lt_div_iff₀ two_pos hden]
      exact_mod_cast (by omega : 1 * k < r * 2)
    rw [Nat.compare_eq_gt.mpr hgt]
    simp only [Describes, ExtendedMantissa.ofMantissaAndAccuracy, if_true]
    constructor <;> linarith

theorem log2_shiftLeft (hpos : 0 < m) (k : ℕ) : (m <<< k).log2 = m.log2 + k := by
  have hne : m <<< k ≠ 0 := by
    rw [Nat.shiftLeft_eq]
    exact (Nat.mul_pos hpos (Nat.two_pow_pos k)).ne'
  rw [Nat.log2_eq_iff hne, Nat.shiftLeft_eq, Nat.add_right_comm, Nat.pow_add, Nat.pow_add]
  exact ⟨Nat.mul_le_mul_right _ (Nat.log2_self_le hpos.ne'),
    Nat.mul_lt_mul_of_pos_right Nat.lt_log2_self (Nat.two_pow_pos k)⟩

/-- Zeros put behind a number are taken back by the exponent. -/
theorem shiftLeft_mul_zpow (m k : ℕ) (e : ℤ) :
    ((m <<< k : ℕ) : ℚ) * 2 ^ (e - k) = m * 2 ^ e := by
  rw [Nat.shiftLeft_eq, zpow_sub₀ two_ne_zero, zpow_natCast, Nat.cast_mul, Nat.cast_pow,
    Nat.cast_two]
  field_simp

/-- A quotient of numbers of which the upper one is so much longer has enough bits. -/
theorem le_log2_div {k : ℕ} (hk : 0 < k) (h : k.log2 + 53 ≤ m.log2) : 52 ≤ (m / k).log2 := by
  have hm : m ≠ 0 := by
    rintro rfl
    rw [Nat.log2_zero] at h
    omega
  have hfull : 2 ^ 52 ≤ m / k := by
    rw [Nat.le_div_iff_mul_le hk]
    calc 2 ^ 52 * k
        ≤ 2 ^ 52 * 2 ^ (k.log2 + 1) := Nat.mul_le_mul_left _ Nat.lt_log2_self.le
      _ = 2 ^ (k.log2 + 53) := by rw [← Nat.pow_add, Nat.add_comm 52, Nat.add_assoc]
      _ ≤ 2 ^ m.log2 := Nat.pow_le_pow_right two_pos h
      _ ≤ m := Nat.log2_self_le hm
  exact (Nat.le_log2 (Nat.two_pow_pos 52 |>.trans_le hfull).ne').mpr hfull

/-- **A quotient is the number nearest to the true one.** -/
theorem nearest_div (hx : pattern x < infinite) (hy : pattern y < infinite) (hne : pattern y ≠ 0) :
    Nearest (valueOf x / valueOf y) (x / y) := by
  rcases unpack_cases hy with ⟨hzero, -⟩ | ⟨m', g', hpos', hparts', hm', hg', huy⟩
  · exact absurd hzero hne
  rcases unpack_cases hx with ⟨hzero, hux⟩ | ⟨m, g, hpos, hparts, hm, hg, hux⟩
  · rw [valueOf, hzero, value_zero, zero_div]
    apply nearest_zero
    rw [pattern_div, hux, huy]
    rfl
  -- zeros are put behind the upper number until the quotient has enough bits
  obtain ⟨t, ht⟩ : ∃ t : ℤ, min ((g - 1074 : ℤ) - (g' - 1074)) (Format.binary64.targetExponent
    (totalExponent m (g - 1074) - totalExponent m' (g' - 1074))) = t := ⟨_, rfl⟩
  obtain ⟨k, hk⟩ : ∃ k : ℕ, ((g - 1074 : ℤ) - (g' - 1074) - t).toNat = k := ⟨_, rfl⟩
  have htk : t = (g - 1074 : ℤ) - (g' - 1074) - k := by omega
  have hbits : 52 ≤ (m <<< k / m').log2 ∨ t ≤ -1074 := by
    refine or_iff_not_imp_right.mpr fun hlarge => le_log2_div hpos' ?_
    rw [log2_shiftLeft hpos]
    change min _ (max ((m.log2 + 1 + (g - 1074) - (m'.log2 + 1 + (g' - 1074)) : ℤ) - 53) (-1074)) =
      t at ht
    omega
  have hnearest := isNearest_roundWithAccuracy (describes_div (m <<< k) hpos') hbits
  have hvalue : valueOf x / valueOf y = ((m <<< k : ℕ) / m' : ℚ) * 2 ^ t := by
    rw [valueOf, valueOf, hparts, hparts', value_add hm.le hg rfl, value_add hm'.le hg' rfl,
      div_mul_eq_mul_div, htk, shiftLeft_mul_zpow]
    generalize (g : ℤ) - 1074 = a, (g' : ℤ) - 1074 = b
    rw [zpow_sub₀ two_ne_zero]
    field_simp
  rw [Nearest, pattern_div, hux, huy, hvalue]
  dsimp only [UnpackedFloat.div, divCore]
  rw [ht, hk]
  exact hnearest

/-- **A natural number is converted to the nearest number.** -/
theorem nearest_toFloat (n : UInt64) : Nearest n.toNat n.toFloat := by
  have hpattern : pattern n.toFloat = (UnpackedFloat.pack Format.binary64
      (UnpackedFloat.normalize Format.binary64 (n.toNat : ℤ) 0 .positive)).toNat := rfl
  rcases Nat.eq_zero_or_pos n.toNat with hzero | hpos
  · rw [hzero, Nat.cast_zero]
    apply nearest_zero
    rw [hpattern, hzero]
    rfl
  have hsign : compare (n.toNat : ℤ) 0 = .gt := Int.compare_eq_gt.mpr (by omega)
  -- as many zeros are put behind the number as fit
  obtain ⟨k, hk⟩ : ∃ k : ℕ, (0 - Format.binary64.targetExponent
    (totalExponent n.toNat 0)).toNat = k := ⟨_, rfl⟩
  have htarget := targetExponent_totalExponent n.toNat 0
  have hlog := log2_shiftLeft hpos k
  have hnearest := isNearest_roundWithAccuracy (e := 0 - k) (describes_exact (n.toNat <<< k))
    (Or.inl (by omega))
  rw [shiftLeft_mul_zpow, zpow_zero, mul_one] at hnearest
  rw [Nearest, hpattern, UnpackedFloat.normalize, hsign]
  simp only [UnpackedFloat.round, decreaseExponent, Int.toNat_natCast, hk]
  exact hnearest

/-! ### Signs and comparisons -/

/-- Negation adds a sign. -/
theorem pattern_neg (hx : pattern x < infinite) : pattern (-x) = pattern x + 2 ^ 63 := by
  have hpattern : pattern (-x) =
      (UnpackedFloat.pack Format.binary64 x.toModel.unpack.neg).toNat := rfl
  rcases unpack_cases hx with ⟨hzero, hux⟩ | ⟨m, g, hpos, hparts, hm, hg, hux⟩
  · rw [hpattern, hux, hzero]
    rfl
  · rw [hpattern, hux]
    change (UnpackedFloat.pack Format.binary64 (.finite .negative m (g - 1074) hpos)).toNat = _
    rw [toNat_pack rfl hm hg, ← hparts, Nat.min_eq_right hx.le]
    rfl

theorem isInf_of_eq (hx : pattern x = infinite) : x.isInf = true := by
  have hbits : x.toModel.toBits.toBitVec = BitVec.ofNat 64 infinite := BitVec.eq_of_toNat_eq hx
  change (UnpackedFloat.unpack Format.binary64 x.toModel.toBits.toBitVec).isInf = true
  rw [hbits]
  decide

theorem isInf_of_lt (hx : pattern x < infinite) : x.isInf = false := by
  change x.toModel.unpack.isInf = false
  rcases unpack_cases hx with ⟨-, hux⟩ | ⟨m, g, hpos, -, -, -, hux⟩ <;> rw [hux] <;> rfl

theorem pattern_eq_zero_of_beq (hx : pattern x < infinite) (h : (x == 0.0) = true) :
    pattern x = 0 := by
  rcases unpack_cases hx with ⟨hzero, -⟩ | ⟨m, g, hpos, -, -, -, hux⟩
  · exact hzero
  · change x.toModel.unpack.beq (0.0 : Float).toModel.unpack = true at h
    rw [hux] at h
    cases h

/-! ### Powers of ten -/

/-- The powers of ten that are stored are exact. -/
theorem units_stored : ∀ n : Fin Float.exactlyRepresentablePowersOfTen.size,
    units (pattern Float.exactlyRepresentablePowersOfTen[n]) = 10 ^ n.val * 2 ^ 1074 ∧
      pattern Float.exactlyRepresentablePowersOfTen[n] < infinite := by
  decide +kernel

/-- **A power of ten is the number nearest to the true one.** -/
theorem nearest_ofScientific {n : ℕ} (hn : n ≤ 308) :
    Nearest (10 ^ n) (Float.ofScientific 1 false n) := by
  rw [Float.ofScientific]
  by_cases hsmall : n ≤ 22
  · rw [dif_pos ⟨by decide, hsmall⟩]
    obtain ⟨hunits, hlt⟩ := units_stored ⟨n, Nat.lt_succ_of_le hsmall⟩
    obtain ⟨hone, hfinite⟩ : units (pattern (1 : ℕ).toUInt64.toFloat) = 1 * 2 ^ 1074 ∧
        pattern (1 : ℕ).toUInt64.toFloat < infinite := by decide +kernel
    have hmul := nearest_mul hfinite hlt
    rw [valueOf, valueOf, value_of_units hone, value_of_units hunits, Nat.cast_one, one_mul,
      Nat.cast_pow, Nat.cast_ofNat] at hmul
    exact hmul
  · rw [dif_neg fun h => hsmall h.2]
    have hmodel : UnpackedFloat.ofScientific Format.binary64 1 n =
        roundWithAccuracy Format.binary64 .positive ((1 <<< 53) * 10 ^ n) (-53 + 0) .exact := by
      have hbig : ¬(n : ℤ) > 2 ^ Format.binary64.exponentBits := by
        change ¬(n : ℤ) > 2048
        omega
      have hlow : ¬(n : ℤ) < -((2 ^ Format.binary64.exponentBits : ℤ) + Nat.log2 1) := by
        change ¬(n : ℤ) < -(2048 + 0)
        omega
      rw [UnpackedFloat.ofScientific, dif_neg one_ne_zero, if_neg hbig, if_neg hlow,
        if_pos (Int.natCast_nonneg n)]
      rfl
    have hten : 0 < 10 ^ n := Nat.pow_pos (by decide)
    have hbits : 52 ≤ ((1 <<< 53) * 10 ^ n).log2 := by
      have hfull : 2 ^ 52 ≤ (1 <<< 53) * 10 ^ n :=
        (show 2 ^ 52 ≤ 1 <<< 53 by decide).trans (Nat.le_mul_of_pos_right _ hten)
      exact (Nat.le_log2 (Nat.mul_pos (by decide) hten).ne').mpr hfull
    have hnearest := isNearest_roundWithAccuracy (e := -53 + 0)
      (describes_exact ((1 <<< 53) * 10 ^ n)) (Or.inl hbits)
    have hvalue : ((1 <<< 53 * 10 ^ n : ℕ) : ℚ) * 2 ^ (-53 + 0 : ℤ) = 10 ^ n := by
      have hunit := shiftLeft_mul_zpow 1 53 0
      rw [Nat.cast_one, zpow_zero, mul_one] at hunit
      rw [Nat.cast_mul, Nat.cast_pow, Nat.cast_ofNat, mul_right_comm]
      exact (congrArg (· * (10 : ℚ) ^ n) hunit).trans (one_mul _)
    rw [hvalue] at hnearest
    change IsNearest (10 ^ n) (UnpackedFloat.pack Format.binary64
      (UnpackedFloat.ofScientific Format.binary64 1 n)).toNat
    rw [hmodel]
    exact hnearest

/-- Powers of ten up to `10 ^ 22` are among the floating-point numbers. -/
theorem value_of_isNearest_pow {n t : ℕ} (hn : n ≤ 22) (ht : IsNearest (10 ^ n) t) :
    value t = 10 ^ n := by
  obtain ⟨hunits, hlt⟩ := units_stored ⟨n, Nat.lt_succ_of_le hn⟩
  have hvalue := value_of_units hunits
  rw [Nat.cast_pow, Nat.cast_ofNat] at hvalue
  rw [← hvalue] at ht
  rw [ht.eq_of_value hlt.le, hvalue]

end Binary64
end RemoteFiles
