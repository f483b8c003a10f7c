import RemoteFiles.Text.Hex
import RemoteFiles.Text.Utf8

/-!
# Query strings

Pairs of a key and a value as one text, in the order of the keys.

## Main definitions

* `Query.encodeText` — a key or a value with all but a few characters escaped.
* `Query.canonical` — pairs in the order of their keys, pairs with one key as they come.
-/

namespace RemoteFiles
namespace Query

/-- The characters that stand for themselves: letters, digits and `*`, `-`, `.`, `_`. -/
def isPlain (b : UInt8) : Bool :=
  (0x30 ≤ b && b ≤ 0x39) || (0x41 ≤ b && b ≤ 0x5a) || (0x61 ≤ b && b ≤ 0x7a) ||
    b = 0x2a || b = 0x2d || b = 0x2e || b = 0x5f

/-- A byte as it is, or as `%` and two digits. -/
def encodeByte (b : UInt8) : List Char :=
  if isPlain b then [Char.ofNat b.toNat] else '%' :: Hex.upperByte b

/-- A key or a value. -/
def encodeText (s : String) : List Char := (Utf8.encode s).flatMap encodeByte

/-- A pair. -/
def encodePair (p : String × String) : List Char := encodeText p.1 ++ '=' :: encodeText p.2

/-- The pairs sorted by key; the order of characters is the order of the bytes they are written
in. -/
def sorted (ps : List (String × String)) : List (String × String) :=
  ps.mergeSort fun p q => p.1 ≤ q.1

/-- The pairs as one text. -/
def canonical (ps : List (String × String)) : String :=
  String.ofList (['&'].intercalate ((sorted ps).map encodePair))

end Query
end RemoteFiles
