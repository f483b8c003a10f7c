import RemoteFiles.Proofs.Json.Numerals
import RemoteFiles.Proofs.Text.Digits

/-!
# Counts in documents

A natural number below `2 ^ 64` is read back from its decimal digits, as long as what comes after
them cannot be read as more of the number.  Digits are taken to the last just if they stand for less
than that.

## Main results

* `Json.digitsOf_ofDigitChars` — digits behind those of a positive number.
* `Json.takeDigits_of_lt`, `Json.of_takeDigits_eq` — which digits are taken to the last.
* `Json.readNumber_digitsOf` — **a count is read back from its digits.**
-/

namespace RemoteFiles
namespace Json

/-! ### Digits -/

/-- The byte of an ASCII character. -/
def byteOf (c : Char) : UInt8 := UInt8.ofNat c.toNat

theorem toNat_byteOf {c : Char} (h : c.isDigit = true) : (byteOf c).toNat = c.toNat := by
  have := Utf8.toNat_of_isDigit h
  rw [byteOf, UInt8.toNat_ofNat']
  omega

theorem isDigit_byteOf {c : Char} (h : c.isDigit = true) : isDigit (byteOf c) = true := by
  have := Utf8.toNat_of_isDigit h
  simp only [isDigit, Bool.and_eq_true, decide_eq_true_eq, UInt8.le_iff_toNat_le, toNat_byteOf h]
  exact this

theorem isDigit_of_mem_digitsOf {n : Nat} {c : Char} (h : c ∈ Decimal.digitsOf n) :
    c.isDigit = true := Nat.isDigit_of_mem_toDigits (by decide) (by decide) h

theorem bytes_of_digits {cs : List Char} (h : ∀ c ∈ cs, c.isDigit = true) :
    Utf8.bytes cs = cs.map byteOf := by
  refine Utf8.bytes_of_ascii fun c hc => ?_
  have := Utf8.toNat_of_isDigit (h c hc)
  omega

/-- A number has a first digit. -/
theorem exists_digitsOf (n : Nat) :
    ∃ c cs, Decimal.digitsOf n = c :: cs ∧ c.isDigit = true := by
  cases hcs : Decimal.digitsOf n with
  | nil => exact absurd hcs Nat.toDigits_ne_nil
  | cons c cs =>
    refine ⟨c, cs, rfl, isDigit_of_mem_digitsOf (n := n) ?_⟩
    rw [hcs]
    exact List.mem_cons_self

/-- The bytes of a count start with a digit. -/
theorem exists_bytes_digitsOf (n : Nat) :
    ∃ b s, Utf8.bytes (Decimal.digitsOf n) = b :: s ∧ isDigit b = true := by
  obtain ⟨c, cs, hcs, hc⟩ := exists_digitsOf n
  refine ⟨byteOf c, cs.map byteOf, ?_, isDigit_byteOf hc⟩
  rw [bytes_of_digits fun _ => isDigit_of_mem_digitsOf, hcs, List.map_cons]

/-- The first digit of a positive number is not zero. -/
theorem head?_digitsOf {n : Nat} (hn : 0 < n) : (Decimal.digitsOf n).head? ≠ some '0' := by
  unfold Decimal.digitsOf
  induction n using Nat.strongRecOn with
  | ind n ih =>
    by_cases hlt : n < 10
    · have h : ∀ k < 10, 0 < k → (Nat.toDigits 10 k).head? ≠ some '0' := by decide
      exact h n hlt hn
    · -- the last digit aside, the digits are those of a tenth of the number
      rw [Nat.toDigits_of_base_le (by decide) (by omega), List.head?_append]
      have hrec := ih (n / 10) (by omega) (by omega)
      cases hd : (Nat.toDigits 10 (n / 10)).head? with
      | none => exact absurd (List.head?_eq_none_iff.mp hd) Nat.toDigits_ne_nil
      | some c =>
        rw [hd] at hrec
        exact hrec

/-! ### What digits stand for -/

/-- The digits of a digit's number are the digit itself. -/
theorem digitsOf_of_isDigit {c : Char} (h : c.isDigit = true) :
    Decimal.digitsOf (c.toNat - '0'.toNat) = [c] := by
  have hbounds := Utf8.toNat_of_isDigit h
  have hall : ∀ k < 10, Nat.toDigits 10 k = [Char.ofNat (0x30 + k)] := by decide
  have hcode : Char.ofNat (0x30 + (c.toNat - '0'.toNat)) = c := by
    rw [show 0x30 + (c.toNat - '0'.toNat) = c.toNat from Nat.add_sub_of_le hbounds.1,
      Char.ofNat_toNat]
  rw [Decimal.digitsOf, hall _ (by change c.toNat - 0x30 < 10; omega), hcode]

/-- Digits put behind those of a positive number are the digits of the number that all of them stand
for. -/
theorem digitsOf_ofDigitChars {cs : List Char} : ∀ {m : Nat}, 0 < m →
    (∀ c ∈ cs, c.isDigit = true) →
      Decimal.digitsOf (Nat.ofDigitChars 10 cs m) = Decimal.digitsOf m ++ cs := by
  induction cs with
  | nil => intro m _ _; exact (List.append_nil _).symm
  | cons c cs ih =>
    intro m hm h
    rw [List.forall_mem_cons] at h
    have hbounds := Utf8.toNat_of_isDigit h.1
    have hdigit : c.toNat - '0'.toNat < 10 := by change c.toNat - 0x30 < 10; omega
    have hlast : Decimal.digitsOf (10 * m + (c.toNat - '0'.toNat)) = Decimal.digitsOf m ++ [c] := by
      have htoDigits := digitsOf_of_isDigit h.1
      rw [Decimal.digitsOf, Nat.toDigits_of_lt_base hdigit] at htoDigits
      rw [Decimal.digitsOf, Nat.toDigits_of_base_le (by decide) (by omega), ← htoDigits,
        Nat.mul_add_div (by decide), Nat.div_eq_of_lt hdigit, Nat.mul_add_mod,
        Nat.mod_eq_of_lt hdigit]
      rfl
    rw [Nat.ofDigitChars_cons, ih (by omega) h.2, hlast, List.append_assoc, List.singleton_append]

theorem digitValue_byteOf {c : Char} (h : c.isDigit = true) :
    digitValue (byteOf c) = c.toNat - '0'.toNat := by
  rw [digitValue, toNat_byteOf h]
  rfl

/-- Digits that stand for less than `2 ^ 64` are taken to the last. -/
theorem takeDigits_of_lt {cs : List Char} : ∀ {m : Nat}, (∀ c ∈ cs, c.isDigit = true) →
    Nat.ofDigitChars 10 cs m < UInt64.size →
      takeDigits m (cs.map byteOf) = (Nat.ofDigitChars 10 cs m, []) := by
  induction cs with
  | nil => intro m _ _; rfl
  | cons c cs ih =>
    intro m h hlt
    rw [List.forall_mem_cons] at h
    rw [Nat.ofDigitChars_cons] at hlt
    have hnext : m * 10 + digitValue (byteOf c) = 10 * m + (c.toNat - '0'.toNat) := by
      rw [digitValue_byteOf h.1, Nat.mul_comm]
    -- the number only grows with the digits that are still to come
    have hgrow := Text.le_ofDigitChars (10 * m + (c.toNat - '0'.toNat)) cs
    rw [List.map_cons, takeDigits, Nat.ofDigitChars_cons]
    simp only [hnext]
    rw [if_pos (Nat.lt_of_le_of_lt hgrow hlt)]
    exact ih h.2 hlt

/-- If all digits are taken, they stand for the number that they are taken to. -/
theorem of_takeDigits_eq {ds : List UInt8} : ∀ {m n : Nat}, (∀ b ∈ ds, isDigit b = true) →
    m < UInt64.size → takeDigits m ds = (n, []) →
      Nat.ofDigitChars 10 (ds.map Char.ofUInt8) m = n ∧ n < UInt64.size := by
  induction ds with
  | nil =>
    intro m n _ hm h
    rw [takeDigits, Prod.mk.injEq] at h
    obtain ⟨rfl, -⟩ := h
    exact ⟨rfl, hm⟩
  | cons d ds ih =>
    intro m n hds hm h
    rw [List.forall_mem_cons] at hds
    rw [takeDigits] at h
    by_cases hnext : m * 10 + digitValue d < UInt64.size
    · have hvalue : 10 * m + ((Char.ofUInt8 d).toNat - '0'.toNat) = m * 10 + digitValue d := by
        rw [Nat.mul_comm]
        rfl
      rw [if_pos hnext] at h
      rw [List.map_cons, Nat.ofDigitChars_cons, hvalue]
      exact ih hds.2 hnext h
    · -- the digit is left over
      rw [if_neg hnext] at h
      cases h

theorem takeDigits_digitsOf {n : Nat} (hn : n < UInt64.size) :
    takeDigits 0 ((Decimal.digitsOf n).map byteOf) = (n, []) := by
  have hval : Nat.ofDigitChars 10 (Decimal.digitsOf n) 0 = n := Nat.ofDigitChars_ten_toDigits
  rw [takeDigits_of_lt (fun _ => isDigit_of_mem_digitsOf) (by rwa [hval]), hval]

/-! ### Reading them back -/

/-- A count is spelled by a zero alone, or by digits of which the first is not zero. -/
theorem isWhole_digitsOf (n : Nat) : IsWhole ((Decimal.digitsOf n).map byteOf) := by
  have hdigits : IsDigits ((Decimal.digitsOf n).map byteOf) := by
    refine ⟨?_, fun b hb => ?_⟩
    · rw [ne_eq, List.map_eq_nil_iff]
      exact Nat.toDigits_ne_nil
    · obtain ⟨c, hc, rfl⟩ := List.mem_map.mp hb
      have hdigit := isDigit_byteOf (isDigit_of_mem_digitsOf hc)
      simpa only [isDigit, Bool.and_eq_true, decide_eq_true_eq] using hdigit
  refine ⟨hdigits, fun hzero => ?_⟩
  by_cases hn : n = 0
  · subst hn
    rfl
  · obtain ⟨c, cs, hcs, hc⟩ := exists_digitsOf n
    have hhead := head?_digitsOf (Nat.pos_of_ne_zero hn)
    rw [hcs] at hzero hhead
    have hcode := congrArg UInt8.toNat (Option.some.inj hzero)
    rw [toNat_byteOf hc] at hcode
    exact absurd (congrArg some (Char.toNat_inj.mp hcode)) hhead

/-- The digits of a count spell a numeral without a sign, a point or an exponent. -/
theorem spells_digitsOf (n : Nat) :
    Numeral.Spells ⟨false, (Decimal.digitsOf n).map byteOf, none, none⟩
      (Utf8.bytes (Decimal.digitsOf n)) := by
  have hspells := Numeral.Spells.mk false (isWhole_digitsOf n) .absent .absent
  rw [bytes_of_digits fun _ => isDigit_of_mem_digitsOf]
  rwa [List.append_nil, List.append_nil] at hspells

/-- **A count is read back from its digits.** -/
theorem readNumber_digitsOf {n : Nat} (hn : n < UInt64.size) {rest : Input}
    (hrest : EndsNumber rest) :
    readNumber (Utf8.bytes (Decimal.digitsOf n) ++ rest) =
      .ok (.natural (UInt64.ofNat n), rest) := by
  have hvalue : Numeral.value ⟨false, (Decimal.digitsOf n).map byteOf, none, none⟩ rest =
      .ok (.natural (UInt64.ofNat n)) := by
    unfold Numeral.value
    simp only [takeDigits_digitsOf hn, and_self, if_true]
    rfl
  rw [readNumber, (spells_digitsOf n).read _ hrest]
  change (Numeral.value _ rest >>= _) = _
  rw [hvalue]
  rfl

end Json
end RemoteFiles
