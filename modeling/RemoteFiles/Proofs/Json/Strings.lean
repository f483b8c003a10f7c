import RemoteFiles.Json.Value
import RemoteFiles.Proofs.Json.Spelling

/-!
# Strings in documents

A string is written as one of its spellings, so it is read back, whatever its characters are and
whatever comes after the closing quote.

## Main results

* `Json.spelling_escape` — the escape of a character spells it.
* `Json.readString_escaped` — **every string is read back from its escapes.**
-/

namespace RemoteFiles
namespace Json

/-- The numeric escape of a control character stands for it. -/
theorem isHexNumber_control {n : Nat} (hn : n < 0x20) :
    IsHexNumber 0x30 0x30 (UInt8.ofNat (Hex.digit (n / 16)).toNat)
      (UInt8.ofNat (Hex.digit (n % 16)).toNat) n := by
  have hzero : IsHexDigit 0x30 0 := Or.inl ⟨by decide, rfl⟩
  have hdigit : ∀ k < 0x10, IsHexDigit (UInt8.ofNat (Hex.digit k).toNat) k := by
    unfold IsHexDigit
    decide
  exact ⟨0, 0, n / 16, n % 16, hzero, hzero, hdigit _ (by omega), hdigit _ (by omega), by omega⟩

/-- **The escape of a character spells it.** -/
theorem spelling_escape (c : Char) {cs : List Char} {s : Input} (more : Spelling cs s) :
    Spelling (c :: cs) (Utf8.bytes (escape c) ++ s) := by
  -- the branches of `escape` in their order: the letters, a numeric escape, the character itself
  unfold escape
  split
  · next h => subst h; exact .letter (by decide) more
  split
  · next h => subst h; exact .letter (by decide) more
  split
  · next h => subst h; exact .letter (by decide) more
  split
  · next h => subst h; exact .letter (by decide) more
  split
  · next h => subst h; exact .letter (by decide) more
  split
  · next h => subst h; exact .letter (by decide) more
  split
  · next h => subst h; exact .letter (by decide) more
  split
  · next hcontrol =>
    have hascii : ∀ k < 0x10, (Hex.digit k).toNat < 0x80 := by decide
    simp only [Utf8.bytes_cons, Utf8.bytes_nil, List.append_nil,
      Utf8.utf8EncodeChar_of_lt (hascii (c.toNat / 16) (by omega)),
      Utf8.utf8EncodeChar_of_lt (hascii (c.toNat % 16) (by omega))]
    exact .code (isHexNumber_control hcontrol) more
  · next hquote hback _ _ _ _ _ hcontrol =>
    rw [Utf8.bytes_cons, Utf8.bytes_nil, List.append_nil]
    exact .raw hquote hback (Nat.not_lt.mp hcontrol) more

/-- The escapes of some characters spell them. -/
theorem spelling_escaped (cs : List Char) :
    Spelling cs (Utf8.bytes (cs.flatMap escape) ++ [Byte.quote]) := by
  induction cs with
  | nil => exact .close
  | cons c cs ih =>
    rw [List.flatMap_cons, Utf8.bytes_append, List.append_assoc]
    exact spelling_escape c ih

/-- **Every string is read back from its escapes.** -/
theorem readString_escaped (s : String) (rest : Input) :
    readString (Utf8.bytes (s.toList.flatMap escape) ++ Byte.quote :: rest) = .ok (s, rest) := by
  have hread := (spelling_escaped s.toList).readString rest
  rwa [List.append_assoc, List.singleton_append] at hread

/-- The bytes of a quoted string: the opening quote, the escapes and the closing quote. -/
theorem bytes_quote (s : String) : Utf8.bytes (quote s) =
    Byte.quote :: (Utf8.bytes (s.toList.flatMap escape) ++ [Byte.quote]) := by
  rw [quote, Utf8.bytes_append, Utf8.bytes_cons]
  rfl

/-- A quoted string is one of its spellings. -/
theorem spellsText_quote (s : String) : SpellsText s (Utf8.bytes (quote s)) :=
  ⟨_, spelling_escaped s.toList, bytes_quote s⟩

end Json
end RemoteFiles
