import RemoteFiles.Text.Base64

/-!
# Base64 words

Every byte sequence is read back from its word, so the word determines the bytes; and a word holds
nothing but the sixty-four digits and the padding mark.

## Main definitions

* `Base64.isWordChar` — the digits and the padding mark.

## Main results

* `Base64.decodeChars?_encodeChars` — **a byte sequence is read back from its word.**
* `Base64.isWordChar_of_mem_encodeChars` — a word holds word characters only.
-/

namespace RemoteFiles
namespace Base64

/-- The characters of words: letters, decimal digits, `+`, `/` and the padding mark. -/
def isWordChar (c : Char) : Bool := c.isAlphanum || c = '+' || c = '/' || c = '='

/-! ### Digits -/

theorem value?_digit {n : Nat} (hn : n < 64) : value? (digit n) = some n := by
  have h : ∀ k < 64, value? (digit k) = some k := by decide
  exact h n hn

theorem isWordChar_digit {n : Nat} (hn : n < 64) : isWordChar (digit n) = true := by
  have h : ∀ k < 64, isWordChar (digit k) = true := by decide
  exact h n hn

/-- The padding mark is no digit. -/
@[simp] theorem value?_padding : value? '=' = none := rfl

theorem digit_ne_padding {n : Nat} (hn : n < 64) : digit n ≠ '=' := by
  intro h
  have hv := value?_digit hn
  rw [h, value?_padding] at hv
  cases hv

/-! ### Groups of three bytes -/

/-- A full group is read by its four digits, since its last one is not the padding mark. -/
theorem decodeChars?_group {a b c d : Char} {w x y z : Nat} (s : List Char)
    (ha : value? a = some w) (hb : value? b = some x) (hc : value? c = some y)
    (hd : value? d = some z) :
    decodeChars? (a :: b :: c :: d :: s) = (decodeChars? s).map fun bs =>
      UInt8.ofNat (w * 4 + x / 16) :: UInt8.ofNat (x % 16 * 16 + y / 4) ::
        UInt8.ofNat (y % 4 * 64 + z) :: bs := by
  have hne : d ≠ '=' := by
    rintro rfl
    rw [value?_padding] at hd
    cases hd
  -- of the five cases only the one of four digits fits, since none of them is the padding mark
  rw [decodeChars?.eq_def]
  split
  · next h => simp at h
  · next h => simp_all
  · next h => simp_all
  · next h =>
    simp only [List.cons.injEq] at h
    obtain ⟨rfl, rfl, rfl, rfl, rfl⟩ := h
    rw [ha, hb, hc, hd]
    cases decodeChars? s <;> rfl
  · next h => exact (h a b c d s rfl).elim

/-- **A byte sequence is read back from its word.** -/
@[simp] theorem decodeChars?_encodeChars (bs : List UInt8) :
    decodeChars? (encodeChars bs) = some bs := by
  induction bs using encodeChars.induct with
  | case1 => rfl
  | case2 a =>
    -- one byte is left: the low bits of its second digit are zero
    have ha := a.toNat_lt
    have h1 := value?_digit (show a.toNat / 4 < 64 by omega)
    have h2 := value?_digit (show a.toNat % 4 * 16 < 64 by omega)
    simp only [encodeChars, decodeChars?, h1, h2, Option.bind_eq_bind, Option.bind_some]
    rw [if_pos (by omega), show a.toNat / 4 * 4 + a.toNat % 4 * 16 / 16 = a.toNat by omega,
      UInt8.ofNat_toNat]
  | case3 a b =>
    -- two bytes are left: so are those of their third
    have ha := a.toNat_lt
    have hb := b.toNat_lt
    have h1 := value?_digit (show a.toNat / 4 < 64 by omega)
    have h2 := value?_digit (show a.toNat % 4 * 16 + b.toNat / 16 < 64 by omega)
    have h3 := value?_digit (show b.toNat % 16 * 4 < 64 by omega)
    have hne := digit_ne_padding (show b.toNat % 16 * 4 < 64 by omega)
    simp only [encodeChars]
    rw [decodeChars?]
    · simp only [h1, h2, h3, Option.bind_eq_bind, Option.bind_some]
      rw [if_pos (by omega),
        show a.toNat / 4 * 4 + (a.toNat % 4 * 16 + b.toNat / 16) / 16 = a.toNat by omega,
        show (a.toNat % 4 * 16 + b.toNat / 16) % 16 * 16 + b.toNat % 16 * 4 / 4 = b.toNat by omega,
        UInt8.ofNat_toNat, UInt8.ofNat_toNat]
    · exact hne
  | case4 a b c s ih =>
    have ha := a.toNat_lt
    have hb := b.toNat_lt
    have hc := c.toNat_lt
    simp only [encodeChars]
    rw [decodeChars?_group _ (value?_digit (by omega)) (value?_digit (by omega))
      (value?_digit (by omega)) (value?_digit (by omega)), ih]
    simp only [Option.map_some]
    rw [show a.toNat / 4 * 4 + (a.toNat % 4 * 16 + b.toNat / 16) / 16 = a.toNat by omega,
      show (a.toNat % 4 * 16 + b.toNat / 16) % 16 * 16 + (b.toNat % 16 * 4 + c.toNat / 64) / 4
        = b.toNat by omega,
      show (b.toNat % 16 * 4 + c.toNat / 64) % 4 * 64 + c.toNat % 64 = c.toNat by omega,
      UInt8.ofNat_toNat, UInt8.ofNat_toNat, UInt8.ofNat_toNat]

theorem encodeChars_injective {as bs : List UInt8} (h : encodeChars as = encodeChars bs) :
    as = bs := by
  have ha := decodeChars?_encodeChars as
  rw [h, decodeChars?_encodeChars] at ha
  exact (Option.some.inj ha).symm

/-! ### The characters of words -/

/-- The size of a word: four characters for three bytes or fewer. -/
theorem length_encodeChars (bs : List UInt8) :
    (encodeChars bs).length = (bs.length + 2) / 3 * 4 := by
  induction bs using encodeChars.induct with
  | case1 => simp [encodeChars]
  | case2 a => simp [encodeChars]
  | case3 a b => simp [encodeChars]
  | case4 a b c s ih =>
    simp only [encodeChars, List.length_cons, ih]
    omega

/-- A word holds word characters only. -/
theorem isWordChar_of_mem_encodeChars {bs : List UInt8} {c : Char} (h : c ∈ encodeChars bs) :
    isWordChar c = true := by
  induction bs using encodeChars.induct with
  | case1 => simp [encodeChars] at h
  | case2 a =>
    have ha := a.toNat_lt
    simp only [encodeChars, List.mem_cons, List.not_mem_nil, or_false] at h
    rcases h with rfl | rfl | rfl | rfl
    · exact isWordChar_digit (by omega)
    · exact isWordChar_digit (by omega)
    · rfl
    · rfl
  | case3 a b =>
    have ha := a.toNat_lt
    have hb := b.toNat_lt
    simp only [encodeChars, List.mem_cons, List.not_mem_nil, or_false] at h
    rcases h with rfl | rfl | rfl | rfl
    · exact isWordChar_digit (by omega)
    · exact isWordChar_digit (by omega)
    · exact isWordChar_digit (by omega)
    · rfl
  | case4 a b d s ih =>
    have ha := a.toNat_lt
    have hb := b.toNat_lt
    have hd := d.toNat_lt
    simp only [encodeChars, List.mem_cons] at h
    rcases h with rfl | rfl | rfl | rfl | h
    · exact isWordChar_digit (by omega)
    · exact isWordChar_digit (by omega)
    · exact isWordChar_digit (by omega)
    · exact isWordChar_digit (by omega)
    · exact ih h

end Base64
end RemoteFiles
