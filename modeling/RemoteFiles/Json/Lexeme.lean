import RemoteFiles.Json.Fault
import RemoteFiles.Text.Hex
import RemoteFiles.Text.Utf8

/-!
# Lexemes

White space, words, strings and numbers at the front of an input.

## Main definitions

* `Json.skipSpace` — the input after white space.
* `Json.readWord` — one of the words `null`, `true` and `false`.
* `Json.readString` — a string whose text is wanted; `Json.skipString` — one whose text is not.
* `Json.Numeral`, `Json.readNumeral` — a number as it is spelled.
-/

namespace RemoteFiles
namespace Json

/-! ### Bytes with a meaning -/

namespace Byte

@[match_pattern] def quote : UInt8 := 0x22
@[match_pattern] def plus : UInt8 := 0x2b
@[match_pattern] def comma : UInt8 := 0x2c
@[match_pattern] def minus : UInt8 := 0x2d
@[match_pattern] def point : UInt8 := 0x2e
@[match_pattern] def zero : UInt8 := 0x30
@[match_pattern] def colon : UInt8 := 0x3a
@[match_pattern] def listOpen : UInt8 := 0x5b
@[match_pattern] def backslash : UInt8 := 0x5c
@[match_pattern] def listClose : UInt8 := 0x5d
@[match_pattern] def letterF : UInt8 := 0x66
@[match_pattern] def letterN : UInt8 := 0x6e
@[match_pattern] def letterT : UInt8 := 0x74
@[match_pattern] def letterU : UInt8 := 0x75
@[match_pattern] def recordOpen : UInt8 := 0x7b
@[match_pattern] def recordClose : UInt8 := 0x7d

end Byte

/-- White space: blank, tab, line feed and carriage return. -/
def isSpace (b : UInt8) : Bool := b = 0x20 || b = 0x09 || b = 0x0a || b = 0x0d

/-- A decimal digit. -/
def isDigit (b : UInt8) : Bool := 0x30 ≤ b && b ≤ 0x39

/-- The input after white space. -/
def skipSpace (s : Input) : Input := s.dropWhile isSpace

/-! ### Words -/

/-- Read the rest of a word.  The first byte that differs counts as read. -/
def readWord : List UInt8 → Input → Except Fault Input
  | [], s => .ok s
  | _ :: _, [] => .error ⟨.endInValue, []⟩
  | w :: ws, b :: s => if b = w then readWord ws s else .error ⟨.expectedWord, s⟩

/-- What follows the first letter of `null`. -/
def restOfNull : List UInt8 := [0x75, 0x6c, 0x6c]

/-- What follows the first letter of `true`. -/
def restOfTrue : List UInt8 := [0x72, 0x75, 0x65]

/-- What follows the first letter of `false`. -/
def restOfFalse : List UInt8 := [0x61, 0x6c, 0x73, 0x65]

/-! ### Strings -/

/-- The byte that a one-letter escape stands for. -/
def shortEscape? (b : UInt8) : Option UInt8 :=
  if b = 0x22 then some 0x22
  else if b = 0x5c then some 0x5c
  else if b = 0x2f then some 0x2f
  else if b = 0x62 then some 0x08
  else if b = 0x66 then some 0x0c
  else if b = 0x6e then some 0x0a
  else if b = 0x72 then some 0x0d
  else if b = 0x74 then some 0x09
  else none

/-- The number that four hexadecimal digits stand for. -/
def hexValue? (a b c d : UInt8) : Option Nat := do
  let w ← Hex.value? a.toNat
  let x ← Hex.value? b.toNat
  let y ← Hex.value? c.toNat
  let z ← Hex.value? d.toNat
  return ((w * 16 + x) * 16 + y) * 16 + z

/-- The first half of a surrogate pair. -/
def isHighSurrogate (n : Nat) : Bool := 0xd800 ≤ n && n ≤ 0xdbff

/-- The second half of a surrogate pair. -/
def isLowSurrogate (n : Nat) : Bool := 0xdc00 ≤ n && n ≤ 0xdfff

/-- The code point of a surrogate pair. -/
def pairValue (high low : Nat) : Nat := (high - 0xd800) * 0x400 + (low - 0xdc00) + 0x10000

/-- The bytes of a code point. -/
def bytesOfCode (n : Nat) : List UInt8 := String.utf8EncodeChar (Char.ofNat n)

/-- Bytes in front of what a reader has read. -/
def prepend (bs : List UInt8) (r : Except Fault (List UInt8 × Input)) :
    Except Fault (List UInt8 × Input) :=
  r.map fun (more, s) => (bs ++ more, s)

/-- Read a string after its opening quote, up to and with its closing quote; the result is the
bytes it stands for.  A surrogate is allowed only as half of a pair. -/
def readContent : Input → Except Fault (List UInt8 × Input)
  | [] => .error ⟨.endInString, []⟩
  | Byte.quote :: s => .ok ([], s)
  | [Byte.backslash] => .error ⟨.endInString, []⟩
  | Byte.backslash :: Byte.letterU :: a :: b :: c :: d :: s =>
    match hexValue? a b c d with
    | none => .error ⟨.invalidEscape, s⟩
    | some n =>
      if isLowSurrogate n then .error ⟨.loneSurrogate, s⟩
      else if isHighSurrogate n then
        match s with
        | [] => .error ⟨.endInString, []⟩
        | [Byte.backslash] => .error ⟨.endInString, []⟩
        | Byte.backslash :: Byte.letterU :: a' :: b' :: c' :: d' :: s' =>
          match hexValue? a' b' c' d' with
          | none => .error ⟨.invalidEscape, s'⟩
          | some m =>
            if isLowSurrogate m then prepend (bytesOfCode (pairValue n m)) (readContent s')
            else .error ⟨.loneSurrogate, s'⟩
        | Byte.backslash :: Byte.letterU :: _ => .error ⟨.endInString, []⟩
        | Byte.backslash :: _ :: s' => .error ⟨.halfSurrogate, s'⟩
        | _ :: s' => .error ⟨.halfSurrogate, s'⟩
      else prepend (bytesOfCode n) (readContent s)
  | Byte.backslash :: Byte.letterU :: _ => .error ⟨.endInString, []⟩
  | Byte.backslash :: e :: s =>
    match shortEscape? e with
    | some b => prepend [b] (readContent s)
    | none => .error ⟨.invalidEscape, s⟩
  | b :: s =>
    if b < 0x20 then .error ⟨.controlCharacter, s⟩ else prepend [b] (readContent s)

/-- Read a string after its opening quote.  Its bytes have to be well formed; otherwise the place of
the fault is counted back from the closing quote, by as many bytes as the text holds from its first
malformed one on, so an escape after that one counts as the bytes it stands for. -/
def readString : Reader String := fun s => do
  let (bytes, rest) ← readContent s
  match Utf8.decode? bytes with
  | some t => .ok (t, rest)
  | none =>
    let malformed := bytes.drop (Utf8.validSize bytes)
    .error ⟨.invalidText, s.drop (s.length - (rest.length + malformed.length))⟩

/-- Skip a string after its opening quote.  Escapes are checked for their form only, and a control
character is left unread. -/
def skipString : Input → Except Fault Input
  | [] => .error ⟨.endInString, []⟩
  | Byte.quote :: s => .ok s
  | [Byte.backslash] => .error ⟨.endInString, []⟩
  | Byte.backslash :: Byte.letterU :: a :: b :: c :: d :: s =>
    if (hexValue? a b c d).isSome then skipString s else .error ⟨.invalidEscape, s⟩
  | Byte.backslash :: Byte.letterU :: _ => .error ⟨.endInString, []⟩
  | Byte.backslash :: e :: s =>
    if (shortEscape? e).isSome then skipString s else .error ⟨.invalidEscape, s⟩
  | b :: s =>
    if b < 0x20 then .error ⟨.controlCharacter, b :: s⟩ else skipString s

/-! ### Numbers -/

/-- A number as it is spelled; the parts after a point and after an `e` may be missing, and are not
empty where they are there. -/
structure Numeral where
  negative : Bool
  whole : List UInt8
  fraction : Option (List UInt8)
  exponent : Option (Bool × List UInt8)
  deriving DecidableEq, Repr

/-- Read the digits before the point: a zero alone, or digits that do not start with zero. -/
def readWhole (atEnd : Cause) : Input → Except Fault (List UInt8 × Input)
  | [] => .error ⟨atEnd, []⟩
  | b :: s =>
    if b = Byte.zero then
      if (s.head?.any isDigit) then .error (.next .invalidNumber s) else .ok ([b], s)
    else if isDigit b then .ok (b :: s.takeWhile isDigit, s.dropWhile isDigit)
    else .error ⟨.invalidNumber, s⟩

/-- Read digits, at least one. -/
def readDigits (atEnd : Cause) (s : Input) : Except Fault (List UInt8 × Input) :=
  match s.takeWhile isDigit with
  | [] => .error (if s = [] then ⟨atEnd, []⟩ else .next .invalidNumber s)
  | ds => .ok (ds, s.dropWhile isDigit)

/-- Read a point and the digits after it, if there is one. -/
def readFraction (atEnd : Cause) : Input → Except Fault (Option (List UInt8) × Input)
  | Byte.point :: s => (readDigits atEnd s).map fun (ds, s) => (some ds, s)
  | s => .ok (none, s)

/-- Read an `e`, a sign and the digits after it, if there is one. -/
def readExponent (atEnd : Cause) : Input → Except Fault (Option (Bool × List UInt8) × Input)
  | b :: s =>
    if b = 0x65 ∨ b = 0x45 then
      match s with
      | Byte.minus :: s => (readDigits atEnd s).map fun (ds, s) => (some (true, ds), s)
      | Byte.plus :: s => (readDigits atEnd s).map fun (ds, s) => (some (false, ds), s)
      | s => (readDigits atEnd s).map fun (ds, s) => (some (false, ds), s)
    else .ok (none, b :: s)
  | [] => .ok (none, [])

/-- Read a number.  The cause is what is wrong where the input ends inside it. -/
def readNumeral (atEnd : Cause) (s : Input) : Except Fault (Numeral × Input) := do
  let negative := s.head? = some Byte.minus
  let (whole, s) ← readWhole atEnd (if negative then s.tail else s)
  let (fraction, s) ← readFraction atEnd s
  let (exponent, s) ← readExponent atEnd s
  return (⟨negative, whole, fraction, exponent⟩, s)

end Json
end RemoteFiles
