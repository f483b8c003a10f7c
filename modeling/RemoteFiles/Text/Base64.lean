/-!
# Base64

Bytes as words over the standard alphabet, four digits for three bytes, padded with `=`.

## Main definitions

* `Base64.digit`, `Base64.value?` — the digits and what they stand for.
* `Base64.encodeChars`, `Base64.encode` — the word of a byte sequence.
* `Base64.decodeChars?`, `Base64.decode?` — the bytes of a word, refusing any that is not the word
  of some bytes.
-/

namespace RemoteFiles
namespace Base64

/-- The digit of a number below sixty-four. -/
def digit (n : Nat) : Char :=
  if n < 26 then Char.ofNat (0x41 + n)
  else if n < 52 then Char.ofNat (0x61 + (n - 26))
  else if n < 62 then Char.ofNat (0x30 + (n - 52))
  else if n = 62 then '+' else '/'

/-- The number a digit stands for. -/
def value? (c : Char) : Option Nat :=
  if 'A' ≤ c ∧ c ≤ 'Z' then some (c.toNat - 0x41)
  else if 'a' ≤ c ∧ c ≤ 'z' then some (c.toNat - 0x61 + 26)
  else if '0' ≤ c ∧ c ≤ '9' then some (c.toNat - 0x30 + 52)
  else if c = '+' then some 62
  else if c = '/' then some 63
  else none

/-- The word of a byte sequence. -/
def encodeChars : List UInt8 → List Char
  | [] => []
  | [a] => [digit (a.toNat / 4), digit (a.toNat % 4 * 16), '=', '=']
  | [a, b] =>
    [digit (a.toNat / 4), digit (a.toNat % 4 * 16 + b.toNat / 16), digit (b.toNat % 16 * 4), '=']
  | a :: b :: c :: s =>
    digit (a.toNat / 4) :: digit (a.toNat % 4 * 16 + b.toNat / 16) ::
      digit (b.toNat % 16 * 4 + c.toNat / 64) :: digit (c.toNat % 64) :: encodeChars s

/-- The word of a byte sequence, as text. -/
def encode (bs : List UInt8) : String := String.ofList (encodeChars bs)

/-- The bytes of a word.  Padding stands only at the end, and the bits it leaves over are zero. -/
def decodeChars? : List Char → Option (List UInt8)
  | [] => some []
  | [a, b, '=', '='] => do
    let x ← value? a
    let y ← value? b
    if y % 16 = 0 then some [UInt8.ofNat (x * 4 + y / 16)] else none
  | [a, b, c, '='] => do
    let x ← value? a
    let y ← value? b
    let z ← value? c
    if z % 4 = 0 then some [UInt8.ofNat (x * 4 + y / 16), UInt8.ofNat (y % 16 * 16 + z / 4)]
    else none
  | a :: b :: c :: d :: s => do
    let x ← value? a
    let y ← value? b
    let z ← value? c
    let w ← value? d
    let bs ← decodeChars? s
    some (UInt8.ofNat (x * 4 + y / 16) :: UInt8.ofNat (y % 16 * 16 + z / 4) ::
      UInt8.ofNat (z % 4 * 64 + w) :: bs)
  | _ => none

/-- The bytes of a word given as text. -/
def decode? (s : String) : Option (List UInt8) := decodeChars? s.toList

end Base64
end RemoteFiles
