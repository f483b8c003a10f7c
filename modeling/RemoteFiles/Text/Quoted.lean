import RemoteFiles.Text.Hex
import RemoteFiles.Text.Printable
import RemoteFiles.Text.Utf8

/-!
# Quoted text

A text between double quotes, with every character that would not show escaped.

## Main definitions

* `Text.quotedChar` — one character as it stands between the quotes.
* `Text.quoted` — a text in quotes.
* `Text.quotedBytes` — bytes in quotes, those that belong to no character as `\\xNN`.
-/

namespace RemoteFiles
namespace Text

/-- One character between the quotes.  A single quote needs no escape. -/
def quotedChar (c : Char) : List Char :=
  if c = '\x00' then ['\\', '0']
  else if c = '\t' then ['\\', 't']
  else if c = '\r' then ['\\', 'r']
  else if c = '\n' then ['\\', 'n']
  else if c = '"' then ['\\', '"']
  else if c = '\\' then ['\\', '\\']
  else if isExtending c || !isPrintable c then
    ['\\', 'u', '\x7b'] ++ Hex.ofNat c.toNat ++ ['\x7d']
  else [c]

/-- A text in quotes. -/
def quoted (s : String) : String :=
  String.ofList ('"' :: s.toList.flatMap quotedChar ++ ['"'])

/-- One piece of a byte sequence between the quotes. -/
def quotedPiece : Utf8.Piece → List Char
  | .char c => quotedChar c
  | .stray b => ['\\', 'x'] ++ Hex.upperByte b

/-- Bytes in quotes. -/
def quotedBytes (bs : List UInt8) : String :=
  String.ofList ('"' :: (Utf8.pieces bs).flatMap quotedPiece ++ ['"'])

end Text
end RemoteFiles
