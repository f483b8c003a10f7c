import Mathlib.Algebra.Group.Nat.Defs
import RemoteFiles.Proofs.Text.Utf8

/-!
# Decimal digits

What rows of decimal digits stand for: no less than the number that they are put behind, less than a
one with as many zeros, and of two rows of one length the one that comes first stands for less.

## Main results

* `Text.le_ofDigitChars` — digits never make a number smaller.
* `Text.ofDigitChars_lt` — what so many digits stand for at most.
* `Text.digits_lt_digits` — **rows of one length are in the order of what they stand for.**
-/

namespace RemoteFiles
namespace Text

/-- Digits never make a number smaller. -/
theorem le_ofDigitChars (n : Nat) (cs : List Char) : n ≤ Nat.ofDigitChars 10 cs n := by
  rw [Nat.ofDigitChars_eq_ofDigitChars_zero]
  exact Nat.le_add_right_of_le (Nat.le_mul_of_pos_left _ (Nat.pow_pos (by decide)))

/-- Digits stand for less than a one with as many zeros. -/
theorem ofDigitChars_lt {cs : List Char} (h : ∀ c ∈ cs, c.isDigit = true) :
    Nat.ofDigitChars 10 cs 0 < 10 ^ cs.length := by
  induction cs with
  | nil => exact Nat.one_pos
  | cons c cs ih =>
    rw [List.forall_mem_cons] at h
    have hdigit := Utf8.toNat_of_isDigit h.1
    have hrest := ih h.2
    have hle : 10 ^ cs.length * (c.toNat - '0'.toNat) ≤ 10 ^ cs.length * 9 :=
      Nat.mul_le_mul_left _ (by change c.toNat - 0x30 ≤ 9; omega)
    rw [Nat.ofDigitChars_cons, Nat.ofDigitChars_eq_ofDigitChars_zero, Nat.mul_zero, Nat.zero_add,
      List.length_cons, Nat.pow_succ]
    omega

/-- **Of two rows of as many digits, the one that stands for less comes first.** -/
theorem digits_lt_digits {cs ds : List Char} (hcs : ∀ c ∈ cs, c.isDigit = true)
    (hds : ∀ d ∈ ds, d.isDigit = true) (hlength : cs.length = ds.length)
    (h : Nat.ofDigitChars 10 cs 0 < Nat.ofDigitChars 10 ds 0) : cs < ds := by
  induction cs generalizing ds with
  | nil =>
    obtain rfl : ds = [] := List.length_eq_zero_iff.mp hlength.symm
    exact absurd h (Nat.lt_irrefl _)
  | cons c cs ih =>
    cases ds with
    | nil => cases hlength
    | cons d ds =>
      rw [List.forall_mem_cons] at hcs hds
      rw [List.length_cons, List.length_cons, Nat.succ.injEq] at hlength
      have hc := Utf8.toNat_of_isDigit hcs.1
      have hd := Utf8.toNat_of_isDigit hds.1
      have hrest := ofDigitChars_lt hds.2
      rw [Nat.ofDigitChars_cons, Nat.ofDigitChars_cons, Nat.ofDigitChars_eq_ofDigitChars_zero,
        Nat.ofDigitChars_eq_ofDigitChars_zero (l := ds), Nat.mul_zero, Nat.zero_add, Nat.zero_add,
        hlength] at h
      rw [List.cons_lt_cons_iff]
      rcases Nat.lt_trichotomy c.toNat d.toNat with hlt | heq | hgt
      · exact Or.inl hlt
      · obtain rfl := Char.toNat_inj.mp heq
        exact Or.inr ⟨rfl, ih hcs.2 hds.2 hlength (Nat.lt_of_add_lt_add_left h)⟩
      · -- a greater first digit is more than all that can come after it
        have hmore : 10 ^ ds.length * (d.toNat - '0'.toNat + 1) ≤
            10 ^ ds.length * (c.toNat - '0'.toNat) :=
          Nat.mul_le_mul_left _ (by change d.toNat - 0x30 + 1 ≤ c.toNat - 0x30; omega)
        rw [Nat.mul_add_one] at hmore
        omega

end Text
end RemoteFiles
