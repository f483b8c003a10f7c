/-!
# Numbers in settings

## Main definitions

* `Text.NumberFault` — why a text is no number.
* `Text.readWord` — the number below `2 ^ 32` that a text stands for.
-/

namespace RemoteFiles
namespace Text

/-- Why a text is no number. -/
inductive NumberFault where
  | empty
  | invalidDigit
  | tooLarge
  deriving DecidableEq, Repr

/-- What is wrong with the text. -/
def NumberFault.message : NumberFault → String
  | empty => "cannot parse integer from empty string"
  | invalidDigit => "invalid digit found in string"
  | tooLarge => "number too large to fit in target type"

/-- Append digits to a number.  A character that is no digit is reported before the number grows
out of range at it, and after it has grown out of range at an earlier one. -/
def appendDigits (n : Nat) : List Char → Except NumberFault Nat
  | [] => .ok n
  | c :: cs =>
    if c.isDigit then
      let next := n * 10 + (c.toNat - '0'.toNat)
      if next < UInt32.size then appendDigits next cs else .error .tooLarge
    else .error .invalidDigit

/-- The number below `2 ^ 32` that decimal digits stand for, with a plus sign or without. -/
def readWordChars : List Char → Except NumberFault Nat
  | [] => .error .empty
  | ['+'] => .error .invalidDigit
  | '+' :: cs => appendDigits 0 cs
  | cs => appendDigits 0 cs

/-- The number below `2 ^ 32` that a text stands for. -/
def readWord (s : String) : Except NumberFault UInt32 := (readWordChars s.toList).map UInt32.ofNat

end Text
end RemoteFiles
