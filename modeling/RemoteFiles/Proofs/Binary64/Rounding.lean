import RemoteFiles.Proofs.Binary64.Patterns
import Mathlib.Algebra.Order.Field.Power
import Mathlib.Tactic.FieldSimp

/-!
# Rounding

The logical model of floating-point arithmetic gives the result of an operation as a whole number of
some power of two, with a word on how much of the true result is missing.  Bits are then cut off the
number until it fits, two bits keep what was cut off apart from a half, and the number is rounded by
those.  What comes out is the pattern nearest to the true result.

## Main definitions

* `Binary64.Describes` — a whole number and two bits describe a number.

## Main results

* `Binary64.Describes.shiftRight` — cutting off bits keeps the description right.
* `Binary64.Describes.rounded` — a number is rounded to the nearer of its neighbours.
* `Binary64.isNearest_roundWithAccuracy` — **rounding gives the nearest pattern.**
-/

namespace RemoteFiles
namespace Binary64

open Float.Model Float.Model.UnpackedFloat

variable {em : ExtendedMantissa} {x : ℚ} {m g : ℕ} {e : ℤ}

/-! ### Cutting off bits -/

/-- A whole number is what is left of a number when its places behind the point are cut off, and of
the two bits one says whether they are a half at least and the other whether they are more than what
the first one says. -/
def Describes (em : ExtendedMantissa) (x : ℚ) : Prop :=
  let known : ℚ := em.mantissa + if em.roundBit then 1 / 2 else 0
  if em.stickyBit then known < x ∧ x < known + 1 / 2 else x = known

theorem mantissa_ofMantissaAndAccuracy (m : ℕ) (acc : Accuracy) :
    (ExtendedMantissa.ofMantissaAndAccuracy m acc).mantissa = m := by
  rcases acc with _ | (_ | _ | _) <;> rfl

theorem describes_exact (m : ℕ) : Describes (.ofMantissaAndAccuracy m .exact) m := by
  simp [Describes, ExtendedMantissa.ofMantissaAndAccuracy]

/-- One bit less. -/
theorem Describes.shiftRightOne (h : Describes em x) : Describes em.shiftRightOne (x / 2) := by
  obtain ⟨m, half, more⟩ := em
  have hparts : (m : ℚ) = 2 * (m / 2 : ℕ) + (m % 2 : ℕ) := by
    exact_mod_cast (Nat.div_add_mod m 2).symm
  -- the last bit of the whole number is the new half
  rcases Nat.mod_two_eq_zero_or_one m with hbit | hbit <;> rw [hbit] at hparts <;>
    cases half <;> cases more <;>
    simp only [Describes, ExtendedMantissa.shiftRightOne, hbit, hparts, bne_self_eq_false,
      Bool.or_false, Bool.or_true, Bool.false_eq_true, if_true, if_false, Nat.cast_zero,
      Nat.cast_one, show (1 != 0) = true from rfl] at h ⊢
  all_goals first | linarith | (constructor <;> linarith)

/-- Any number of bits less. -/
theorem Describes.shiftRight (h : Describes em x) (k : ℕ) : Describes (em >>> k) (x / 2 ^ k) := by
  induction k with
  | zero =>
    rw [pow_zero, div_one]
    exact h
  | succ k ih =>
    rw [pow_succ, ← div_div]
    exact ih.shiftRightOne

theorem mantissa_shiftRight (em : ExtendedMantissa) (k : ℕ) :
    (em >>> k).mantissa = em.mantissa / 2 ^ k := by
  induction k with
  | zero => exact (Nat.div_one _).symm
  | succ k ih =>
    change (em >>> k).mantissa / 2 = _
    rw [ih, Nat.div_div_eq_div_mul, pow_succ]

/-- A number is rounded to the nearer of its neighbours, and to the even one of two. -/
theorem Describes.rounded (h : Describes em x) :
    (em.roundedMantissa = em.mantissa ∧ (em.mantissa : ℚ) ≤ x ∧
      x - em.mantissa ≤ em.mantissa + 1 - x ∧
      (x - em.mantissa = em.mantissa + 1 - x → em.mantissa % 2 = 0)) ∨
    (em.roundedMantissa = em.mantissa + 1 ∧ x ≤ em.mantissa + 1 ∧
      em.mantissa + 1 - x ≤ x - em.mantissa ∧
      (em.mantissa + 1 - x = x - em.mantissa → (em.mantissa + 1) % 2 = 0)) := by
  obtain ⟨m, half, more⟩ := em
  cases half <;> cases more <;>
    simp only [Describes, ExtendedMantissa.roundedMantissa, ExtendedMantissa.accuracy,
      Accuracy.roundToNearestEven, Bool.false_eq_true, if_true, if_false] at h ⊢
  · exact Or.inl ⟨trivial, by linarith, by linarith, fun _ => by linarith⟩
  · exact Or.inl ⟨trivial, by linarith, by linarith, fun _ => by linarith⟩
  · -- just in the middle
    rcases Nat.mod_two_eq_zero_or_one m with hbit | hbit
    · exact Or.inl ⟨by omega, by linarith, by linarith, fun _ => hbit⟩
    · exact Or.inr ⟨by omega, by linarith, by linarith, fun _ => by omega⟩
  · exact Or.inr ⟨trivial, by linarith, by linarith, fun _ => by linarith⟩

/-! ### Packing -/

/-- What a sign adds to a pattern. -/
def signPattern (s : Sign) : ℕ := s.toBitVec.toNat * 2 ^ 63

@[simp] theorem signPattern_positive : signPattern .positive = 0 := rfl

theorem toNat_packComponents (s : Sign) (u : BitVec 11) (v : BitVec 52) :
    (packComponents Format.binary64 s u v).toNat =
      u.toNat * 2 ^ 52 + v.toNat + signPattern s := by
  change ((s.toBitVec ++ u) ++ v).toNat = _
  rw [BitVec.toNat_append, BitVec.toNat_append, ← Nat.shiftLeft_add_eq_or_of_lt v.isLt,
    ← Nat.shiftLeft_add_eq_or_of_lt u.isLt, Nat.shiftLeft_eq, Nat.shiftLeft_eq, signPattern]
  omega

/-- A number that fits is packed into its pattern, or into that of infinity if it is beyond. -/
theorem toNat_pack {s : Sign} {hpos : 0 < m} (he : e = g - 1074) (hm : m < 2 ^ 53)
    (hg : 2 ^ 52 ≤ m ∨ g = 0) :
    (UnpackedFloat.pack Format.binary64 (.finite s m e hpos)).toNat =
      min infinite (m + g * 2 ^ 52) + signPattern s := by
  have hbiased : (e + Format.binary64.exponentBias +
      Format.binary64.mantissaBitsWithoutImplicit).toNat = g + 1 := by
    change (e + 1023 + 52).toNat = g + 1
    omega
  have hbits : m.log2 + 1 = Format.binary64.mantissaBits ↔ 2 ^ 52 ≤ m := by
    change m.log2 + 1 = 53 ↔ _
    rw [← Nat.le_log2 hpos.ne']
    have hlt := (Nat.log2_lt hpos.ne').mpr hm
    omega
  unfold UnpackedFloat.pack
  simp only [hbiased, hbits]
  split
  · next hbeyond =>
    change 2048 ≤ g + 1 + 1 at hbeyond
    rw [Nat.min_eq_left (by simp only [infinite]; omega), packedInfinity, toNat_packComponents]
    rfl
  · next hwithin =>
    change ¬2048 ≤ g + 1 + 1 at hwithin
    rw [Nat.min_eq_right (by simp only [infinite]; omega)]
    split
    · -- the first bit is left out, and counts for the exponent
      rw [toNat_packComponents, BitVec.toNat_ofNat, BitVec.toNat_ofNat]
      omega
    · rw [toNat_packComponents, BitVec.toNat_ofNat, BitVec.toNat_ofNat]
      omega

/-! ### The exponent -/

/-- The exponent that a number has when it fits. -/
theorem targetExponent_totalExponent (m : ℕ) (e : ℤ) :
    Format.binary64.targetExponent (totalExponent m e) = max (m.log2 + e - 52) (-1074) := by
  change max ((m.log2 : ℤ) + 1 + e - 53) (-1074) = _
  omega

theorem shiftToTargetExponent_eq {acc : Accuracy} {k : ℕ}
    (hk : (Format.binary64.targetExponent (totalExponent m e) - e).toNat = k) :
    shiftToTargetExponent Format.binary64 m e acc =
      (ExtendedMantissa.ofMantissaAndAccuracy m acc >>> k, e + k) := by
  simp only [shiftToTargetExponent, shiftToExponent, hk]

/-- Nothing is cut off a number that fits. -/
theorem shiftToTargetExponent_of_lt (he : e = g - 1074) (hm : m < 2 ^ 53) :
    shiftToTargetExponent Format.binary64 m e .exact =
      (.ofMantissaAndAccuracy m .exact, e) := by
  have hlog : m.log2 ≤ 52 := by
    by_cases hzero : m = 0
    · simp [hzero]
    · have hlt := (Nat.log2_lt hzero).mpr hm
      omega
  have hshift : (Format.binary64.targetExponent (totalExponent m e) - e).toNat = 0 := by
    rw [targetExponent_totalExponent]
    omega
  rw [shiftToTargetExponent_eq hshift, Nat.cast_zero, add_zero]
  rfl

/-- One bit is cut off a number that is rounded up to one more than fits. -/
theorem shiftToTargetExponent_of_eq (he : e = g - 1074) :
    shiftToTargetExponent Format.binary64 (2 ^ 53) e .exact =
      (⟨2 ^ 52, false, false⟩, e + 1) := by
  have hshift : (Format.binary64.targetExponent (totalExponent (2 ^ 53) e) - e).toNat = 1 := by
    rw [targetExponent_totalExponent, Nat.log2_two_pow]
    omega
  rw [shiftToTargetExponent_eq hshift]
  rfl

/-- Rounding fits a number twice, the second time after it has been rounded. -/
theorem roundWithAccuracy_eq {acc : Accuracy} {em' : ExtendedMantissa} {e' e'' : ℤ} {r : ℕ}
    (hfirst : shiftToTargetExponent Format.binary64 m e acc = (em, e'))
    (hsecond : shiftToTargetExponent Format.binary64 em.roundedMantissa e' .exact = (em', e''))
    (hr : em'.mantissa = r) :
    roundWithAccuracy Format.binary64 .positive m e acc =
      if h : r = 0 then .zero .positive
      else .finite .positive r e'' (Nat.pos_of_ne_zero h) := by
  subst hr
  rw [roundWithAccuracy, hfirst]
  dsimp only
  rw [hsecond]

/-- What is packed after rounding: the exponent takes in one more where the number has become too
great for its bits. -/
theorem toNat_pack_roundWithAccuracy {acc : Accuracy} {r : ℕ}
    (hfirst : shiftToTargetExponent Format.binary64 m e acc = (em, (g : ℤ) - 1074))
    (hr : em.roundedMantissa = r) (hle : r ≤ 2 ^ 53) (hg : 2 ^ 52 ≤ r ∨ g = 0) :
    (UnpackedFloat.pack Format.binary64
      (roundWithAccuracy Format.binary64 .positive m e acc)).toNat =
        min infinite (r + g * 2 ^ 52) := by
  subst hr
  rcases Nat.lt_or_eq_of_le hle with hlt | hfull
  · rw [roundWithAccuracy_eq hfirst (shiftToTargetExponent_of_lt rfl hlt)
      (mantissa_ofMantissaAndAccuracy _ _)]
    by_cases hzero : em.roundedMantissa = 0
    · obtain rfl : g = 0 := by omega
      rw [dif_pos hzero, hzero]
      rfl
    · rw [dif_neg hzero, toNat_pack rfl hlt hg, signPattern_positive, add_zero]
  · have hsecond := shiftToTargetExponent_of_eq (g := g) rfl
    rw [← hfull] at hsecond
    have hcarry : 2 ^ 52 + (g + 1) * 2 ^ 52 = 2 ^ 53 + g * 2 ^ 52 := by omega
    rw [roundWithAccuracy_eq hfirst hsecond rfl, dif_neg (by decide),
      toNat_pack (g := g + 1) (by omega) (by decide) (Or.inl le_rfl), signPattern_positive,
      add_zero, hcarry, hfull]

/-! ### The nearest pattern -/

/-- What a pattern stands for, by its parts. -/
theorem value_add (hm : m ≤ 2 ^ 53) (hg : 2 ^ 52 ≤ m ∨ g = 0) (he : e = g - 1074) :
    value (m + g * 2 ^ 52) = m * 2 ^ e := by
  rw [value, units_add hm hg, he, zpow_sub₀ two_ne_zero, zpow_natCast, zpow_ofNat, Nat.cast_mul,
    Nat.cast_pow, Nat.cast_two, mul_div_assoc]

/-- Rounding a number with as many bits as fit gives the nearest pattern. -/
theorem Describes.isNearest (h : Describes em x) (hm : em.mantissa < 2 ^ 53)
    (hg : 2 ^ 52 ≤ em.mantissa ∨ g = 0) (he : e = g - 1074) :
    IsNearest (x * 2 ^ e) (min infinite (em.roundedMantissa + g * 2 ^ 52)) := by
  have hunit : (0 : ℚ) < 2 ^ e := zpow_pos two_pos e
  have hlow : value (em.mantissa + g * 2 ^ 52) = em.mantissa * 2 ^ e := value_add hm.le hg he
  have hhigh : value (em.mantissa + g * 2 ^ 52 + 1) = (em.mantissa + 1) * 2 ^ e := by
    rw [Nat.add_right_comm, value_add hm (hg.imp_left Nat.le_succ_of_le) he, Nat.cast_succ]
  rcases h.rounded with ⟨hr, hle, hdist, htie⟩ | ⟨hr, hle, hdist, htie⟩
  · rw [hr]
    apply isNearest_of_down <;> rw [hlow]
    · exact mul_le_mul_of_nonneg_right hle hunit.le
    · rw [hhigh, ← sub_mul, ← sub_mul]
      exact mul_le_mul_of_nonneg_right hdist hunit.le
    · rw [hhigh, ← sub_mul, ← sub_mul, mul_left_inj' hunit.ne']
      intro heq
      have heven := htie heq
      omega
  · rw [hr, Nat.add_right_comm]
    apply isNearest_of_up <;> rw [hhigh]
    · exact mul_le_mul_of_nonneg_right hle hunit.le
    · rw [hlow, ← sub_mul, ← sub_mul]
      exact mul_le_mul_of_nonneg_right hdist hunit.le
    · rw [hlow, ← sub_mul, ← sub_mul, mul_left_inj' hunit.ne']
      intro heq
      have heven := htie heq
      omega

/-- **Rounding gives the nearest pattern**, if the number has enough bits or is small enough. -/
theorem isNearest_roundWithAccuracy {acc : Accuracy} (h : Describes (.ofMantissaAndAccuracy m acc) x)
    (hbits : 52 ≤ m.log2 ∨ e ≤ -1074) :
    IsNearest (x * 2 ^ e) (UnpackedFloat.pack Format.binary64
      (roundWithAccuracy Format.binary64 .positive m e acc)).toNat := by
  have htarget := targetExponent_totalExponent m e
  -- the number of bits that are cut off, and the exponent as a pattern has it
  obtain ⟨k, hk⟩ : ∃ k : ℕ, (Format.binary64.targetExponent (totalExponent m e) - e).toNat = k :=
    ⟨_, rfl⟩
  obtain ⟨g, hg⟩ : ∃ g : ℕ, e + k = (g : ℤ) - 1074 := ⟨(e + k + 1074).toNat, by omega⟩
  have hcut : ((ExtendedMantissa.ofMantissaAndAccuracy m acc) >>> k).mantissa = m / 2 ^ k := by
    rw [mantissa_shiftRight, mantissa_ofMantissaAndAccuracy]
  have hlt : m / 2 ^ k < 2 ^ 53 := by
    have hpow : 2 ^ (m.log2 + 1) ≤ 2 ^ (53 + k) := Nat.pow_le_pow_right two_pos (by omega)
    rw [Nat.div_lt_iff_lt_mul (Nat.two_pow_pos k), ← Nat.pow_add]
    exact Nat.lt_log2_self.trans_le hpow
  have hfull : 2 ^ 52 ≤ m / 2 ^ k ∨ g = 0 := by
    refine or_iff_not_imp_right.mpr fun hne => ?_
    have hlog : m.log2 = 52 + k := by omega
    have hzero : m ≠ 0 := by
      rintro rfl
      rw [Nat.log2_zero] at hlog
      omega
    rw [Nat.le_div_iff_mul_le (Nat.two_pow_pos k), ← Nat.pow_add, ← hlog]
    exact Nat.log2_self_le hzero
  have hnearest := (h.shiftRight k).isNearest (g := g) (e := e + k) (by rwa [hcut])
    (by rwa [hcut]) hg
  have hvalue : x / 2 ^ k * 2 ^ (e + k) = x * 2 ^ e := by
    rw [zpow_add₀ two_ne_zero, zpow_natCast]
    field_simp
  rw [toNat_pack_roundWithAccuracy ((shiftToTargetExponent_eq hk).trans (by rw [hg])) rfl, ← hvalue]
  · exact hnearest
  all_goals rcases (h.shiftRight k).rounded with ⟨hr, -⟩ | ⟨hr, -⟩ <;> rw [hr, hcut] <;> omega

end Binary64
end RemoteFiles
