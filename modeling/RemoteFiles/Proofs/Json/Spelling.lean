import RemoteFiles.Json.Lexeme
import RemoteFiles.Proofs.Text.Utf8

/-!
# Spellings of strings

A text has many spellings: each of its characters stands for itself, or is escaped by a letter, by
its code or by the codes of a surrogate pair, in any mix.  All of them are read alike.  A string
that nobody asks for has to have the form only, and may stand for no text at all.

## Main definitions

* `Json.Spelling` — what stands for some characters inside a string.
* `Json.SpellsText` — the strings of a text.
* `Json.IsString` — what has the form of a string.

## Main results

* `Json.Spelling.readString` — **a text is read from each of its strings.**
* `Json.StringTail.skip` — **whatever has the form of a string is skipped.**
-/

namespace RemoteFiles
namespace Json

/-! ### Bytes and escapes -/

/-- A byte that is no quote, no backslash and no control character stands for itself. -/
theorem readContent_plain {b : UInt8} (s : Input) (hquote : b ≠ Byte.quote)
    (hback : b ≠ Byte.backslash) (hcontrol : 0x20 ≤ b.toNat) :
    readContent (b :: s) = prepend [b] (readContent s) := by
  have hlt : ¬b < 0x20 := by
    rw [UInt8.lt_iff_toNat_lt]
    exact Nat.not_lt.mpr hcontrol
  refine (readContent.eq_7 b s hquote (fun h _ => hback h) ?_ ?_ ?_).trans (if_neg hlt)
  · exact fun _ _ _ _ _ h _ => hback h
  · exact fun _ h _ => hback h
  · exact fun _ _ h _ => hback h

/-- A one-letter escape is read as the byte that it stands for. -/
theorem readContent_short {e b : UInt8} (s : Input) (hu : e ≠ Byte.letterU)
    (he : shortEscape? e = some b) :
    readContent (Byte.backslash :: e :: s) = prepend [b] (readContent s) := by
  refine (readContent.eq_6 e s (fun _ _ _ _ _ h _ => hu h) hu).trans ?_
  rw [he]

/-- A numeric escape outside the surrogates is read as the bytes of its character. -/
theorem readContent_numeric {a b c d : UInt8} {n : Nat} (s : Input)
    (hn : hexValue? a b c d = some n) (hlow : isLowSurrogate n = false)
    (hhigh : isHighSurrogate n = false) :
    readContent (Byte.backslash :: Byte.letterU :: a :: b :: c :: d :: s) =
      prepend (bytesOfCode n) (readContent s) := by
  refine (readContent.eq_4 a b c d s).trans ?_
  rw [hn]
  simp [hlow, hhigh]

theorem prepend_prepend (as bs : List UInt8) (r : Except Fault (List UInt8 × Input)) :
    prepend as (prepend bs r) = prepend (as ++ bs) r := by
  cases r <;> simp [prepend, Except.map]

/-- Bytes that stand for themselves are read as they are. -/
theorem readContent_append {bs : List UInt8} (s : Input)
    (h : ∀ b ∈ bs, b ≠ Byte.quote ∧ b ≠ Byte.backslash ∧ 0x20 ≤ b.toNat) :
    readContent (bs ++ s) = prepend bs (readContent s) := by
  induction bs with
  | nil => cases hs : readContent s <;> simp [prepend, Except.map, hs]
  | cons b bs ih =>
    rw [List.forall_mem_cons] at h
    obtain ⟨⟨h1, h2, h3⟩, hrest⟩ := h
    rw [List.cons_append, readContent_plain _ h1 h2 h3, ih hrest, prepend_prepend]
    rfl

/-- A character that is no quote, no backslash and no control character stands for itself. -/
theorem readContent_char {c : Char} (s : Input) (hquote : c ≠ '"') (hback : c ≠ '\\')
    (hcontrol : 0x20 ≤ c.toNat) :
    readContent (String.utf8EncodeChar c ++ s) =
      prepend (String.utf8EncodeChar c) (readContent s) := by
  refine readContent_append s fun b hb => ?_
  by_cases h : c.toNat < 0x80
  · -- the one byte of the character is its code
    rw [Utf8.utf8EncodeChar_of_lt h, List.mem_singleton] at hb
    have hval : b.toNat = c.toNat := by
      rw [hb, UInt8.toNat_ofNat']
      omega
    refine ⟨?_, ?_, by omega⟩
    · rintro rfl
      exact hquote (Char.toNat_inj.mp hval.symm)
    · rintro rfl
      exact hback (Char.toNat_inj.mp hval.symm)
  · -- no byte of it is in ASCII
    have hval := Utf8.le_of_mem_utf8EncodeChar (Nat.not_lt.mp h) hb
    refine ⟨?_, ?_, by omega⟩
    · rintro rfl
      exact absurd hval (by decide)
    · rintro rfl
      exact absurd hval (by decide)

/-! ### Escapes -/

/-- A hexadecimal digit, of either case, and the number that it stands for. -/
def IsHexDigit (b : UInt8) (n : Nat) : Prop :=
  n < 10 ∧ b.toNat = 0x30 + n ∨ 10 ≤ n ∧ n < 16 ∧ (b.toNat = 0x37 + n ∨ b.toNat = 0x57 + n)

/-- Four hexadecimal digits, and the number that they stand for. -/
def IsHexNumber (a b c d : UInt8) (n : Nat) : Prop :=
  ∃ w x y z, IsHexDigit a w ∧ IsHexDigit b x ∧ IsHexDigit c y ∧ IsHexDigit d z ∧
    n = w * 0x1000 + x * 0x100 + y * 0x10 + z

/-- The letters of the short escapes, and the characters that they stand for. -/
def escapeLetters : List (UInt8 × Char) :=
  [(0x22, '"'), (0x5c, '\\'), (0x2f, '/'), (0x62, '\x08'), (0x66, '\x0c'), (0x6e, '\n'),
    (0x72, '\r'), (0x74, '\t')]

theorem value?_of_isHexDigit {b : UInt8} {n : Nat} (h : IsHexDigit b n) :
    Hex.value? b.toNat = some n := by
  unfold Hex.value?
  rcases h with ⟨hn, hb⟩ | ⟨hlow, hhigh, hb | hb⟩
  · rw [if_pos (by omega), hb, Nat.add_sub_cancel_left]
  · rw [if_neg (by omega), if_pos (by omega), hb, Nat.add_sub_cancel_left]
  · rw [if_neg (by omega), if_neg (by omega), if_pos (by omega), hb, Nat.add_sub_cancel_left]

theorem IsHexNumber.hexValue? {a b c d : UInt8} {n : Nat} (h : IsHexNumber a b c d n) :
    hexValue? a b c d = some n := by
  obtain ⟨w, x, y, z, ha, hb, hc, hd, hn⟩ := h
  have hvalue : ((w * 16 + x) * 16 + y) * 16 + z = n := by omega
  simp [Json.hexValue?, value?_of_isHexDigit ha, value?_of_isHexDigit hb, value?_of_isHexDigit hc,
    value?_of_isHexDigit hd, hvalue]

theorem shortEscape?_of_mem {e : UInt8} {c : Char} (h : (e, c) ∈ escapeLetters) :
    e ≠ Byte.letterU ∧ ∃ b, shortEscape? e = some b ∧ String.utf8EncodeChar c = [b] := by
  simp only [escapeLetters, List.mem_cons, Prod.mk.injEq, List.not_mem_nil, or_false] at h
  rcases h with ⟨rfl, rfl⟩ | ⟨rfl, rfl⟩ | ⟨rfl, rfl⟩ | ⟨rfl, rfl⟩ | ⟨rfl, rfl⟩ | ⟨rfl, rfl⟩ |
    ⟨rfl, rfl⟩ | ⟨rfl, rfl⟩ <;> exact ⟨by decide, _, rfl, rfl⟩

/-! ### Strings of a text -/

/-- What stands for some characters inside a string, with the closing quote. -/
inductive Spelling : List Char → Input → Prop where
  | close : Spelling [] [Byte.quote]
  /-- A character that stands for itself. -/
  | raw {c : Char} {cs : List Char} {s : Input} (hquote : c ≠ '"') (hback : c ≠ '\\')
      (hcontrol : 0x20 ≤ c.toNat) (more : Spelling cs s) :
      Spelling (c :: cs) (String.utf8EncodeChar c ++ s)
  /-- A backslash and a letter. -/
  | letter {e : UInt8} {c : Char} {cs : List Char} {s : Input} (h : (e, c) ∈ escapeLetters)
      (more : Spelling cs s) : Spelling (c :: cs) (Byte.backslash :: e :: s)
  /-- The code of a character. -/
  | code {a b x y : UInt8} {c : Char} {cs : List Char} {s : Input}
      (h : IsHexNumber a b x y c.toNat) (more : Spelling cs s) :
      Spelling (c :: cs) (Byte.backslash :: Byte.letterU :: a :: b :: x :: y :: s)
  /-- The codes of a surrogate pair. -/
  | pair {a b x y a' b' x' y' : UInt8} {high low : Nat} {c : Char} {cs : List Char} {s : Input}
      (hhigh : high < 0x400) (hlow : low < 0x400) (h : IsHexNumber a b x y (0xd800 + high))
      (h' : IsHexNumber a' b' x' y' (0xdc00 + low))
      (hc : c.toNat = 0x10000 + high * 0x400 + low) (more : Spelling cs s) :
      Spelling (c :: cs) (Byte.backslash :: Byte.letterU :: a :: b :: x :: y ::
        Byte.backslash :: Byte.letterU :: a' :: b' :: x' :: y' :: s)

/-- The strings of a text. -/
def SpellsText (s : String) (text : Input) : Prop :=
  ∃ tail, Spelling s.toList tail ∧ text = Byte.quote :: tail

/-- No character is a surrogate. -/
theorem not_surrogate (c : Char) :
    isLowSurrogate c.toNat = false ∧ isHighSurrogate c.toNat = false := by
  have hvalid : c.toNat < 0xd800 ∨ 0xdfff < c.toNat ∧ c.toNat < 0x110000 := c.valid
  constructor
  · simp only [isLowSurrogate, Bool.and_eq_false_iff, decide_eq_false_iff_not]
    omega
  · simp only [isHighSurrogate, Bool.and_eq_false_iff, decide_eq_false_iff_not]
    omega

/-- The codes of a surrogate pair are read as the bytes of its character. -/
theorem readContent_pair {a b x y a' b' x' y' : UInt8} {high low : Nat} (s : Input)
    (hhigh : high < 0x400) (hlow : low < 0x400) (h : hexValue? a b x y = some (0xd800 + high))
    (h' : hexValue? a' b' x' y' = some (0xdc00 + low)) :
    readContent (Byte.backslash :: Byte.letterU :: a :: b :: x :: y ::
        Byte.backslash :: Byte.letterU :: a' :: b' :: x' :: y' :: s) =
      prepend (bytesOfCode (0x10000 + high * 0x400 + low)) (readContent s) := by
  have hfirst : isLowSurrogate (0xd800 + high) = false ∧
      isHighSurrogate (0xd800 + high) = true := by
    constructor
    · simp only [isLowSurrogate, Bool.and_eq_false_iff, decide_eq_false_iff_not]
      omega
    · simp only [isHighSurrogate, Bool.and_eq_true, decide_eq_true_eq]
      omega
  have hsecond : isLowSurrogate (0xdc00 + low) = true := by
    simp only [isLowSurrogate, Bool.and_eq_true, decide_eq_true_eq]
    omega
  have hvalue : pairValue (0xd800 + high) (0xdc00 + low) = 0x10000 + high * 0x400 + low := by
    unfold pairValue
    omega
  refine (readContent.eq_4 a b x y _).trans ?_
  rw [h]
  simp only [hfirst.1, hfirst.2, Bool.false_eq_true, if_false, if_true]
  conv =>
    lhs
    whnf
  rw [h']
  simp only [hsecond, if_true, hvalue]

/-- What stands for some characters is read as their bytes. -/
theorem Spelling.read {cs : List Char} {s : Input} (h : Spelling cs s) (rest : Input) :
    readContent (s ++ rest) = .ok (Utf8.bytes cs, rest) := by
  induction h with
  | close => exact readContent.eq_2 rest
  | raw hquote hback hcontrol _ ih =>
    rw [List.append_assoc, readContent_char _ hquote hback hcontrol, ih]
    rfl
  | letter h _ ih =>
    obtain ⟨hu, b, hb, hbytes⟩ := shortEscape?_of_mem h
    rw [Utf8.bytes_cons, hbytes, List.cons_append, List.cons_append, readContent_short _ hu hb, ih]
    rfl
  | @code a b x y c cs s h _ ih =>
    obtain ⟨hlow, hhigh⟩ := not_surrogate c
    simp only [List.cons_append]
    rw [readContent_numeric _ h.hexValue? hlow hhigh, ih, bytesOfCode, Char.ofNat_toNat]
    rfl
  | pair hhigh hlow h h' hc _ ih =>
    simp only [List.cons_append]
    rw [readContent_pair _ hhigh hlow h.hexValue? h'.hexValue?, ih, ← hc, bytesOfCode,
      Char.ofNat_toNat]
    rfl

/-- A string is read when its bytes are those of a text. -/
theorem readString_of_content {s : String} {input rest : Input}
    (h : readContent input = .ok (Utf8.bytes s.toList, rest)) :
    readString input = .ok (s, rest) := by
  have hdecode : Utf8.decode? (Utf8.bytes s.toList) = some s := by
    rw [← Utf8.encode_eq_bytes, Utf8.decode?_encode]
  unfold readString
  rw [h]
  simp only [bind, Except.bind, hdecode]

/-- **A text is read from each of its strings**, once the opening quote is. -/
theorem Spelling.readString {s : String} {tail : Input} (h : Spelling s.toList tail)
    (rest : Input) : readString (tail ++ rest) = .ok (s, rest) :=
  readString_of_content (h.read rest)

/-! ### Strings of any form -/

/-- What has the form of the rest of a string, after its opening quote: bytes that stand for
themselves, letters and codes with a backslash, whatever they stand for, and the closing quote. -/
inductive StringTail : Input → Prop where
  | close : StringTail [Byte.quote]
  | raw {b : UInt8} {s : Input} (hquote : b ≠ Byte.quote) (hback : b ≠ Byte.backslash)
      (hcontrol : 0x20 ≤ b) (more : StringTail s) : StringTail (b :: s)
  | letter {e : UInt8} {c : Char} {s : Input} (h : (e, c) ∈ escapeLetters) (more : StringTail s) :
      StringTail (Byte.backslash :: e :: s)
  | code {a b x y : UInt8} {n : Nat} {s : Input} (h : IsHexNumber a b x y n)
      (more : StringTail s) :
      StringTail (Byte.backslash :: Byte.letterU :: a :: b :: x :: y :: s)

/-- What has the form of a string. -/
def IsString (text : Input) : Prop := ∃ tail, StringTail tail ∧ text = Byte.quote :: tail

/-- **Whatever has the form of a string is skipped.** -/
theorem StringTail.skip {tail : Input} (h : StringTail tail) (rest : Input) :
    skipString (tail ++ rest) = .ok rest := by
  induction h with
  | close => exact skipString.eq_2 rest
  | @raw b s hquote hback hcontrol _ ih =>
    refine (skipString.eq_7 b _ hquote (fun h _ => hback h) ?_ ?_ ?_).trans ?_
    · exact fun _ _ _ _ _ h _ => hback h
    · exact fun _ h _ => hback h
    · exact fun _ _ h _ => hback h
    · rw [if_neg (UInt8.not_lt.mpr hcontrol)]
      exact ih
  | @letter e c s h _ ih =>
    obtain ⟨hu, b, hb, -⟩ := shortEscape?_of_mem h
    refine (skipString.eq_6 e _ (fun _ _ _ _ _ h _ => hu h) hu).trans ?_
    rw [hb]
    exact ih
  | @code a b x y n s h _ ih =>
    refine (skipString.eq_4 a b x y _).trans ?_
    rw [h.hexValue?]
    exact ih

end Json
end RemoteFiles
