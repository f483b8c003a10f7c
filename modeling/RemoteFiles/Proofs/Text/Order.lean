import RemoteFiles.Proofs.Text.Utf8

/-!
# The order of texts

Texts are compared character by character.  Since a greater character has greater bytes, and the
bytes of no character start those of another, it makes no difference if they are compared byte by
byte instead.

## Main results

* `Utf8.utf8EncodeChar_append_lt` — a smaller character has smaller bytes, whatever follows.
* `Utf8.encode_le_encode_iff` — **texts are in the order of their bytes.**
-/

namespace RemoteFiles
namespace Utf8

/-! ### Two characters -/

theorem cons_ofNat_lt_iff {m n : Nat} (hm : m < 256) (hn : n < 256) {s t : List UInt8} :
    UInt8.ofNat m :: s < UInt8.ofNat n :: t ↔ m < n ∨ m = n ∧ s < t := by
  have hm' : (UInt8.ofNat m).toNat = m := UInt8.toNat_ofNat_of_lt' hm
  have hn' : (UInt8.ofNat n).toNat = n := UInt8.toNat_ofNat_of_lt' hn
  rw [List.cons_lt_cons_iff, UInt8.lt_iff_toNat_lt, ← UInt8.toNat_inj, hm', hn']

/-- A smaller first byte decides. -/
theorem cons_ofNat_lt {m n : Nat} (h : m < n) (hn : n < 256) (s t : List UInt8) :
    UInt8.ofNat m :: s < UInt8.ofNat n :: t :=
  (cons_ofNat_lt_iff (Nat.lt_trans h hn) hn).mpr (Or.inl h)

/-- Fronts of one length decide. -/
theorem append_lt_append {α : Type} [LT α] {xs ys : List α} (s t : List α)
    (hlength : xs.length = ys.length) (h : xs < ys) : xs ++ s < ys ++ t := by
  induction xs generalizing ys with
  | nil =>
    obtain rfl : ys = [] := List.length_eq_zero_iff.mp hlength.symm
    exact absurd h (List.not_lt_nil [])
  | cons x xs ih =>
    cases ys with
    | nil => cases hlength
    | cons y ys =>
      rw [List.length_cons, List.length_cons, Nat.succ.injEq] at hlength
      rw [List.cons_append, List.cons_append, List.cons_lt_cons_iff]
      rcases List.cons_lt_cons_iff.mp h with hfirst | ⟨hfirst, hrest⟩
      · exact Or.inl hfirst
      · exact Or.inr ⟨hfirst, ih hlength hrest⟩

/-- A code in digits of six bits. -/
theorem sextets (n : Nat) :
    n = 262144 * (n / 262144) + 4096 * (n / 4096 % 64) + 64 * (n / 64 % 64) + n % 64 ∧
      n / 4096 % 64 < 64 ∧ n / 64 % 64 < 64 ∧ n % 64 < 64 := by
  omega

/-- The forms of two bytes are in the order of their codes. -/
theorem twoBytes_lt {m n : Nat} (h : m < n) (hn : n < 0x800) :
    [UInt8.ofNat (m / 64 % 32 + 192), UInt8.ofNat (m % 64 + 128)] <
      [UInt8.ofNat (n / 64 % 32 + 192), UInt8.ofNat (n % 64 + 128)] := by
  simp (disch := omega) only [cons_ofNat_lt_iff, List.lt_irrefl, and_false, or_false]
  omega

/-- The forms of three bytes are in the order of their codes. -/
theorem threeBytes_lt {m n : Nat} (h : m < n) (hn : n < 0x10000) :
    [UInt8.ofNat (m / 4096 % 16 + 224), UInt8.ofNat (m / 64 % 64 + 128),
        UInt8.ofNat (m % 64 + 128)] <
      [UInt8.ofNat (n / 4096 % 16 + 224), UInt8.ofNat (n / 64 % 64 + 128),
        UInt8.ofNat (n % 64 + 128)] := by
  simp (disch := omega) only [cons_ofNat_lt_iff, List.lt_irrefl, and_false, or_false]
  omega

/-- The forms of four bytes are in the order of their codes. -/
theorem fourBytes_lt {m n : Nat} (h : m < n) (hn : n < 0x110000) :
    [UInt8.ofNat (m / 262144 % 8 + 240), UInt8.ofNat (m / 4096 % 64 + 128),
        UInt8.ofNat (m / 64 % 64 + 128), UInt8.ofNat (m % 64 + 128)] <
      [UInt8.ofNat (n / 262144 % 8 + 240), UInt8.ofNat (n / 4096 % 64 + 128),
        UInt8.ofNat (n / 64 % 64 + 128), UInt8.ofNat (n % 64 + 128)] := by
  have hm := sextets m
  have hn' := sextets n
  simp (disch := omega) only [cons_ofNat_lt_iff, List.lt_irrefl, and_false, or_false]
  generalize m / 4096 % 64 = m2, m / 64 % 64 = m1, m % 64 = m0 at hm ⊢
  generalize n / 4096 % 64 = n2, n / 64 % 64 = n1, n % 64 = n0 at hn' ⊢
  omega

/-- A smaller character has smaller bytes, whatever follows. -/
theorem utf8EncodeChar_append_lt {c d : Char} (h : c < d) (s t : List UInt8) :
    String.utf8EncodeChar c ++ s < String.utf8EncodeChar d ++ t := by
  have hlt : c.val.toNat < d.val.toNat := h
  have hd : d.val.toNat < 0x110000 := by
    rcases d.valid with hvalid | hvalid <;> omega
  unfold String.utf8EncodeChar
  generalize c.val.toNat = m at hlt
  generalize d.val.toNat = n at hlt hd
  dsimp only
  -- a longer form has a greater first byte, so only forms of one length are compared any further
  by_cases h1 : n ≤ 0x7f
  · rw [if_pos h1, if_pos (by omega)]
    exact cons_ofNat_lt hlt (by omega) _ _
  · rw [if_neg h1]
    by_cases h2 : n ≤ 0x7ff
    · rw [if_pos h2]
      split
      · exact cons_ofNat_lt (by omega) (by omega) _ _
      · rw [if_pos (by omega)]
        exact append_lt_append s t (by simp) (twoBytes_lt hlt (by omega))
    · rw [if_neg h2]
      by_cases h3 : n ≤ 0xffff
      · rw [if_pos h3]
        split
        · exact cons_ofNat_lt (by omega) (by omega) _ _
        · split
          · exact cons_ofNat_lt (by omega) (by omega) _ _
          · rw [if_pos (by omega)]
            exact append_lt_append s t (by simp) (threeBytes_lt hlt (by omega))
      · rw [if_neg h3]
        split
        · exact cons_ofNat_lt (by omega) (by omega) _ _
        · split
          · exact cons_ofNat_lt (by omega) (by omega) _ _
          · split
            · exact cons_ofNat_lt (by omega) (by omega) _ _
            · exact append_lt_append s t (by simp) (fourBytes_lt hlt hd)

/-! ### Whole texts -/

theorem bytes_lt_bytes {cs ds : List Char} (h : cs < ds) : bytes cs < bytes ds := by
  induction cs generalizing ds with
  | nil =>
    cases ds with
    | nil => exact absurd h (List.lt_irrefl [])
    | cons d ds =>
      have hne : String.utf8EncodeChar d ≠ [] := String.utf8EncodeChar_ne_nil
      obtain ⟨b, bs, hb⟩ := List.exists_cons_of_ne_nil hne
      rw [bytes_cons, hb]
      exact List.nil_lt_cons b _
  | cons c cs ih =>
    cases ds with
    | nil => exact absurd h (List.not_lt_nil _)
    | cons d ds =>
      rw [bytes_cons, bytes_cons]
      rcases List.cons_lt_cons_iff.mp h with hfirst | ⟨rfl, hrest⟩
      · exact utf8EncodeChar_append_lt hfirst _ _
      · exact List.append_left_lt (ih hrest)

theorem encode_lt_encode {s t : String} (h : s < t) : encode s < encode t := by
  rw [encode_eq_bytes, encode_eq_bytes]
  exact bytes_lt_bytes h

/-- **Texts are in the order of their bytes.** -/
theorem encode_le_encode_iff {s t : String} : encode s ≤ encode t ↔ s ≤ t := by
  constructor
  · intro h
    rw [← String.not_lt]
    intro hlt
    exact h (encode_lt_encode hlt)
  · intro h hlt
    -- a text that is no greater is smaller or the same
    by_cases heq : s = t
    · subst heq
      exact List.lt_irrefl _ hlt
    · have hst : s < t := by
        rw [← String.not_le]
        exact fun hts => heq (String.le_antisymm h hts)
      exact absurd (List.lt_trans hlt (encode_lt_encode hst)) (List.lt_irrefl _)

end Utf8
end RemoteFiles
