import RemoteFiles.Decimal.Notation
import RemoteFiles.Text.Quoted

/-!
# Faults of documents

What can be wrong with a document, and where.  While a document is read, the place of a fault is
kept as the input that is unread at it; line and column are worked out at the end.

## Main definitions

* `Json.Found` — a value that stands where another kind was expected.
* `Json.Cause` — what is wrong.
* `Json.Fault` — what is wrong, with the unread input.
* `Json.Error` — what is wrong, with a line and a column.
-/

namespace RemoteFiles
namespace Json

/-- Input that is not read yet. -/
abbrev Input := List UInt8

/-- What stands where another kind of value was expected. -/
inductive Found where
  | null
  | flag (b : Bool)
  | integer (n : Int)
  | real (x : Float)
  | text (s : String)
  | list
  | record

/-- How a misplaced value is named. -/
def Found.describe : Found → String
  | null => "null"
  | flag true => "boolean `true`"
  | flag false => "boolean `false`"
  | integer n => "integer `" ++ toString n ++ "`"
  | real x => "floating point `" ++ String.ofList (Decimal.wire.write x) ++ "`"
  | text s => "string " ++ Text.quoted s
  | list => "sequence"
  | record => "map"

/-- What is wrong with a document. -/
inductive Cause where
  | endInValue
  | endInRecord
  | endInList
  | endInString
  | expectedColon
  | expectedListEnd
  | expectedRecordEnd
  | expectedWord
  | expectedValue
  | expectedKey
  | invalidEscape
  | invalidNumber
  | numberOutOfRange
  | invalidText
  | controlCharacter
  | loneSurrogate
  | halfSurrogate
  | trailingComma
  | trailingCharacters
  /-- A value of the wrong kind. -/
  | wrongKind (found : Found) (wanted : String)
  /-- A value of the right kind that is out of range. -/
  | wrongValue (found : Found) (wanted : String)
  /-- A list in place of a record that is too short. -/
  | tooShort (length : Nat) (wanted : String)
  | missingField (name : String)
  | duplicateField (name : String)

/-- The text of what is wrong. -/
def Cause.message : Cause → String
  | endInValue => "EOF while parsing a value"
  | endInRecord => "EOF while parsing an object"
  | endInList => "EOF while parsing a list"
  | endInString => "EOF while parsing a string"
  | expectedColon => "expected `:`"
  | expectedListEnd => "expected `,` or `]`"
  | expectedRecordEnd => "expected `,` or `\x7d`"
  | expectedWord => "expected ident"
  | expectedValue => "expected value"
  | expectedKey => "key must be a string"
  | invalidEscape => "invalid escape"
  | invalidNumber => "invalid number"
  | numberOutOfRange => "number out of range"
  | invalidText => "invalid unicode code point"
  | controlCharacter => "control character (\\u0000-\\u001F) found while parsing a string"
  | loneSurrogate => "lone leading surrogate in hex escape"
  | halfSurrogate => "unexpected end of hex escape"
  | trailingComma => "trailing comma"
  | trailingCharacters => "trailing characters"
  | wrongKind found wanted => "invalid type: " ++ found.describe ++ ", expected " ++ wanted
  | wrongValue found wanted => "invalid value: " ++ found.describe ++ ", expected " ++ wanted
  | tooShort length wanted => "invalid length " ++ toString length ++ ", expected " ++ wanted
  | missingField name => "missing field `" ++ name ++ "`"
  | duplicateField name => "duplicate field `" ++ name ++ "`"

/-- What is wrong, with the input that is unread at that place. -/
structure Fault where
  cause : Cause
  rest : Input

/-- A fault at the next byte, which counts as read. -/
def Fault.next (cause : Cause) (s : Input) : Fault := ⟨cause, s.tail⟩

/-- A reader takes a value from the front of the input. -/
abbrev Reader (α : Type) := Input → Except Fault (α × Input)

/-- What is wrong with a document, and where: the line, and the bytes read of it. -/
structure Error where
  cause : Cause
  line : Nat
  column : Nat

/-- The text of the error. -/
def Error.message (e : Error) : String :=
  e.cause.message ++ " at line " ++ toString e.line ++ " column " ++ toString e.column

/-- The line that follows some bytes, counted from one. -/
def lineAfter (read : List UInt8) : Nat := read.count 0x0a + 1

/-- The bytes since the last line feed. -/
def columnAfter (read : List UInt8) : Nat := (read.reverse.takeWhile (· ≠ 0x0a)).length

/-- A fault as an error of the whole input. -/
def Fault.locate (input : Input) (f : Fault) : Error :=
  let read := input.take (input.length - f.rest.length)
  ⟨f.cause, lineAfter read, columnAfter read⟩

end Json
end RemoteFiles
