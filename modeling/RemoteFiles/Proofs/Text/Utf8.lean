import RemoteFiles.Text.Utf8

/-!
# The bytes of characters

The bytes of a text are those of its characters, one after another.  A character below `U+0080` is
one byte, its code; in any other character every byte has its highest bit set, so that no byte of
it can be taken for a character of its own.

## Main definitions

* `Utf8.bytes` — the bytes of some characters.

## Main results

* `Utf8.encode_eq_bytes` — the bytes of a text are those of its characters.
* `Utf8.decode?_eq_some_iff` — bytes are decoded as the text that they are the bytes of.
* `Utf8.encode_injective` — texts with the same bytes are the same.
* `Utf8.le_of_mem_utf8EncodeChar` — the bytes of a character beyond ASCII.
-/

namespace RemoteFiles
namespace Utf8

/-- The bytes of some characters. -/
def bytes (cs : List Char) : List UInt8 := cs.flatMap String.utf8EncodeChar

@[simp] theorem bytes_nil : bytes [] = [] := rfl

theorem bytes_cons (c : Char) (cs : List Char) :
    bytes (c :: cs) = String.utf8EncodeChar c ++ bytes cs := rfl

@[simp] theorem bytes_append (cs ds : List Char) : bytes (cs ++ ds) = bytes cs ++ bytes ds :=
  List.flatMap_append

/-- The bytes of a text are those of its characters. -/
theorem encode_eq_bytes (s : String) : encode s = bytes s.toList := by
  have h : s.toByteArray = s.toList.utf8Encode := String.utf8Encode_toList.symm
  rw [encode, h, List.utf8Encode, List.toList_data_toByteArray]
  rfl

@[simp] theorem encode_ofList (cs : List Char) : encode (String.ofList cs) = bytes cs := by
  rw [encode_eq_bytes, String.toList_ofList]

theorem length_encode (s : String) : (encode s).length = s.utf8ByteSize := rfl

/-- Bytes are decoded as the text that they are the bytes of. -/
theorem decode?_eq_some_iff {bs : List UInt8} {s : String} :
    decode? bs = some s ↔ bs = encode s := by
  constructor
  · intro h
    unfold decode? String.fromUTF8? at h
    split at h
    · rw [← Option.some.inj h]
      simp [encode, String.fromUTF8]
    · cases h
  · rintro rfl
    exact decode?_encode s

/-- Texts with the same bytes are the same. -/
theorem encode_injective {s t : String} (h : encode s = encode t) : s = t := by
  have hs := decode?_encode s
  rw [h, decode?_encode] at hs
  exact (Option.some.inj hs).symm

/-! ### One character -/

theorem toNat_of_isDigit {c : Char} (h : c.isDigit = true) : 0x30 ≤ c.toNat ∧ c.toNat ≤ 0x39 := by
  simp only [Char.isDigit, Bool.and_eq_true, decide_eq_true_eq, UInt32.le_iff_toNat_le] at h
  exact h

theorem utf8EncodeChar_of_lt {c : Char} (h : c.toNat < 0x80) :
    String.utf8EncodeChar c = [UInt8.ofNat c.toNat] := by
  unfold String.utf8EncodeChar
  exact if_pos (Nat.le_of_lt_succ h)

/-- Characters of ASCII are their codes. -/
theorem bytes_of_ascii {cs : List Char} (h : ∀ c ∈ cs, c.toNat < 0x80) :
    bytes cs = cs.map fun c => UInt8.ofNat c.toNat := by
  induction cs with
  | nil => rfl
  | cons c cs ih =>
    rw [List.forall_mem_cons] at h
    rw [bytes_cons, utf8EncodeChar_of_lt h.1, ih h.2]
    rfl

/-- Every byte of a character beyond ASCII has its highest bit set. -/
theorem le_of_mem_utf8EncodeChar {c : Char} (h : 0x80 ≤ c.toNat) {b : UInt8}
    (hb : b ∈ String.utf8EncodeChar c) : 0x80 ≤ b.toNat := by
  have hv : ¬c.val.toNat ≤ 0x7f := Nat.not_le.mpr h
  unfold String.utf8EncodeChar at hb
  rw [if_neg hv] at hb
  split at hb
  · simp only [List.mem_cons, List.not_mem_nil, or_false] at hb
    rcases hb with rfl | rfl <;> rw [UInt8.toNat_ofNat'] <;> omega
  · split at hb
    · simp only [List.mem_cons, List.not_mem_nil, or_false] at hb
      rcases hb with rfl | rfl | rfl <;> rw [UInt8.toNat_ofNat'] <;> omega
    · simp only [List.mem_cons, List.not_mem_nil, or_false] at hb
      rcases hb with rfl | rfl | rfl | rfl <;> rw [UInt8.toNat_ofNat'] <;> omega

/-- A text that starts with the byte of an ASCII character starts with that character. -/
theorem head?_of_head?_bytes {cs : List Char} {b : UInt8} (h : (bytes cs).head? = some b)
    (hb : b.toNat < 0x80) : cs.head? = some (Char.ofNat b.toNat) := by
  cases cs with
  | nil => cases h
  | cons c cs =>
    rw [bytes_cons] at h
    by_cases hc : c.toNat < 0x80
    · rw [utf8EncodeChar_of_lt hc] at h
      rw [← Option.some.inj h, UInt8.toNat_ofNat_of_lt' (Nat.lt_trans hc (by decide)),
        Char.ofNat_toNat]
      rfl
    · obtain ⟨first, more, hbytes⟩ :=
        List.exists_cons_of_ne_nil (String.utf8EncodeChar_ne_nil (c := c))
      rw [hbytes] at h
      obtain rfl : first = b := Option.some.inj h
      have hhigh := le_of_mem_utf8EncodeChar (Nat.not_lt.mp hc) (hbytes ▸ List.mem_cons_self)
      exact absurd hb (Nat.not_lt.mpr hhigh)

end Utf8
end RemoteFiles
