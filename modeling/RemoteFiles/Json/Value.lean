import RemoteFiles.Decimal.Notation
import RemoteFiles.Text.Hex

/-!
# Documents

Values and the compact text that they are written as, on one line and without spaces.

## Main definitions

* `Json.Value` — values, with the members of a record in the order in which they are written.
* `Json.escape`, `Json.quote` — a string as it is written.
* `Json.Value.write` — the compact text.
-/

namespace RemoteFiles
namespace Json

/-- A value. -/
inductive Value where
  | null
  | flag (b : Bool)
  | count (n : Nat)
  | real (x : Float)
  | text (s : String)
  | list (items : List Value)
  | record (members : List (String × Value))
  deriving Inhabited

/-- A character inside a string: quotes, backslashes and control characters are escaped, the latter
by a letter where there is one. -/
def escape (c : Char) : List Char :=
  if c = '"' then ['\\', '"']
  else if c = '\\' then ['\\', '\\']
  else if c = '\x08' then ['\\', 'b']
  else if c = '\x09' then ['\\', 't']
  else if c = '\x0a' then ['\\', 'n']
  else if c = '\x0c' then ['\\', 'f']
  else if c = '\x0d' then ['\\', 'r']
  else if c.toNat < 0x20 then
    ['\\', 'u', '0', '0', Hex.digit (c.toNat / 16), Hex.digit (c.toNat % 16)]
  else [c]

/-- A string in quotes. -/
def quote (s : String) : List Char := '"' :: s.toList.flatMap escape ++ ['"']

namespace Value

/-- Texts with commas between them. -/
def joined (parts : List (List Char)) : List Char := [','].intercalate parts

mutual

/-- The compact text of a value. -/
def chars : Value → List Char
  | null => ['n', 'u', 'l', 'l']
  | flag true => ['t', 'r', 'u', 'e']
  | flag false => ['f', 'a', 'l', 's', 'e']
  | count n => Decimal.digitsOf n
  | real x => Decimal.wire.write x
  | text s => quote s
  | list items => '[' :: joined (itemChars items) ++ [']']
  | record members => '\x7b' :: joined (memberChars members) ++ ['\x7d']

/-- The texts of the items of a list. -/
def itemChars : List Value → List (List Char)
  | [] => []
  | v :: vs => chars v :: itemChars vs

/-- The texts of the members of a record. -/
def memberChars : List (String × Value) → List (List Char)
  | [] => []
  | (name, v) :: ms => (quote name ++ ':' :: chars v) :: memberChars ms

end

/-- The compact text of a value. -/
def write (v : Value) : String := String.ofList v.chars

end Value

end Json
end RemoteFiles
