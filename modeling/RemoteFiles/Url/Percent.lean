import RemoteFiles.Text.Hex
import RemoteFiles.Text.Utf8

/-!
# Percent encoding in addresses

## Main definitions

* `Url.isControl`, `Url.escapesInPath`, `Url.escapesInUser`, `Url.escapesInQuery`,
  `Url.escapesInFragment` — which bytes are escaped where.
* `Url.escape` — a text with those bytes escaped.
* `Url.unescape` — the bytes of a text, escapes undone.
-/

namespace RemoteFiles
namespace Url

/-- Control characters and everything beyond ASCII. -/
def isControl (b : UInt8) : Bool := b < 0x20 || 0x7e < b

/-- Escaped in a fragment: blanks, quotes and angle brackets too. -/
def escapesInFragment (b : UInt8) : Bool :=
  isControl b || b = 0x20 || b = 0x22 || b = 0x3c || b = 0x3e || b = 0x60

/-- Escaped in a path: the marks that end one and braces too. -/
def escapesInPath (b : UInt8) : Bool :=
  escapesInFragment b || b = 0x23 || b = 0x3f || b = 0x7b || b = 0x7d

/-- Escaped in a user and in a password: the marks of an authority too, and a few others. -/
def escapesInUser (b : UInt8) : Bool :=
  escapesInPath b || b = 0x2f || b = 0x3a || b = 0x3b || b = 0x3d || b = 0x40 ||
    (0x5b ≤ b && b ≤ 0x5e) || b = 0x7c

/-- Escaped in a query; the single quote only where the scheme is a special one. -/
def escapesInQuery (special : Bool) (b : UInt8) : Bool :=
  isControl b || b = 0x20 || b = 0x22 || b = 0x23 || b = 0x3c || b = 0x3e || (special && b = 0x27)

/-- A byte as it is, or as `%` and two digits. -/
def escapeByte (escapes : UInt8 → Bool) (b : UInt8) : List Char :=
  if escapes b then '%' :: Hex.upperByte b else [Char.ofNat b.toNat]

/-- A text with some of its bytes escaped; those beyond ASCII have to be among them. -/
def escape (escapes : UInt8 → Bool) (cs : List Char) : List Char :=
  (Utf8.encode (String.ofList cs)).flatMap (escapeByte escapes)

/-- Bytes with the escapes among them undone; a `%` without two digits stands for itself. -/
def unescape : List UInt8 → List UInt8
  | [] => []
  | [a] => [a]
  | [a, b] => [a, b]
  | a :: b :: c :: s =>
    if a = 0x25 then
      match Hex.value? b.toNat, Hex.value? c.toNat with
      | some x, some y => UInt8.ofNat (x * 16 + y) :: unescape s
      | _, _ => a :: unescape (b :: c :: s)
    else a :: unescape (b :: c :: s)

end Url
end RemoteFiles
