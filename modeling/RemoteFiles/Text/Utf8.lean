/-!
# UTF-8

Text as bytes.  Decoding refuses what is not well formed; reading piece by piece tells the
characters apart from the bytes that belong to none.

## Main definitions

* `Utf8.encode`, `Utf8.decode?` — the bytes of a text, and the text of well-formed bytes.
* `Utf8.firstChar?` — the character that a sequence of bytes starts with.
* `Utf8.pieces` — bytes as characters and stray bytes.
* `Utf8.validSize` — how many bytes come before the first stray one.

## Main results

* `Utf8.decode?_encode` — a text is read back from its bytes.
-/

namespace RemoteFiles
namespace Utf8

/-- The bytes of a text. -/
def encode (s : String) : List UInt8 := s.toByteArray.data.toList

/-- The text that well-formed bytes stand for. -/
def decode? (bs : List UInt8) : Option String := String.fromUTF8? ⟨bs.toArray⟩

/-- A byte that continues a character. -/
def isTail (b : UInt8) : Bool := 0x80 ≤ b && b ≤ 0xbf

/-- The six low bits of a continuing byte. -/
def tailBits (b : UInt8) : Nat := b.toNat % 64

/-- The character that the bytes start with, and the rest, if they start with a well-formed one:
no longer form than needed, no surrogate, nothing above `U+10FFFF`. -/
def firstChar? : List UInt8 → Option (Char × List UInt8)
  | [] => none
  | a :: s =>
    if a < 0x80 then some (Char.ofNat a.toNat, s)
    else if 0xc2 ≤ a && a ≤ 0xdf then
      match s with
      | b :: s =>
        if isTail b then some (Char.ofNat (a.toNat % 32 * 64 + tailBits b), s) else none
      | [] => none
    else if 0xe0 ≤ a && a ≤ 0xef then
      match s with
      | b :: c :: s =>
        if isTail b && isTail c && (a ≠ 0xe0 || 0xa0 ≤ b) && (a ≠ 0xed || b ≤ 0x9f) then
          some (Char.ofNat (a.toNat % 16 * 4096 + tailBits b * 64 + tailBits c), s)
        else none
      | _ => none
    else if 0xf0 ≤ a && a ≤ 0xf4 then
      match s with
      | b :: c :: d :: s =>
        if isTail b && isTail c && isTail d && (a ≠ 0xf0 || 0x90 ≤ b) && (a ≠ 0xf4 || b ≤ 0x8f) then
          some (Char.ofNat
            (a.toNat % 8 * 262144 + tailBits b * 4096 + tailBits c * 64 + tailBits d), s)
        else none
      | _ => none
    else none

/-- A piece of a byte sequence that is meant to be text. -/
inductive Piece where
  /-- A well-formed character. -/
  | char (c : Char)
  /-- A byte that is part of no character. -/
  | stray (b : UInt8)
  deriving DecidableEq, Repr

/-- At most `fuel` pieces of the bytes, from the front. -/
def piecesFrom : Nat → List UInt8 → List Piece
  | 0, _ => []
  | _ + 1, [] => []
  | fuel + 1, b :: s =>
    match firstChar? (b :: s) with
    | some (c, rest) => .char c :: piecesFrom fuel rest
    | none => .stray b :: piecesFrom fuel s

/-- The pieces of the bytes; there are no more of them than bytes. -/
def pieces (bs : List UInt8) : List Piece := piecesFrom bs.length bs

/-- The number of bytes before the first one that is part of no character. -/
def validSize (bs : List UInt8) : Nat :=
  go (pieces bs)
where
  /-- The bytes of the characters at the front. -/
  go : List Piece → Nat
    | .char c :: ps => c.utf8Size + go ps
    | _ => 0

/-- **A text is read back from its bytes.** -/
@[simp] theorem decode?_encode (s : String) : decode? (encode s) = some s := by
  have h : (⟨s.toByteArray.data.toList.toArray⟩ : ByteArray) = s.toByteArray := by
    simp
  unfold decode? encode
  rw [h, String.fromUTF8?]
  simp [s.isValidUTF8, String.fromUTF8]

end Utf8
end RemoteFiles
