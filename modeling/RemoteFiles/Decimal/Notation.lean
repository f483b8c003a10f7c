import RemoteFiles.Decimal.Shortest

/-!
# Decimal notation

How a binary floating-point number is written: its shortest digits, either in positional notation
or with an exponent.

## Main definitions

* `Decimal.Notation` — the decisions of a format.
* `Decimal.Notation.write` — a finite number in that format.
* `Decimal.wire` — the format of numbers in documents and messages.
-/

namespace RemoteFiles
namespace Decimal

/-- The decisions of a number format.  With the point after the first `place` digits, a number is
written positionally when `lowest < place ≤ highest`. -/
structure Notation where
  /-- The place of the point below which an exponent is written. -/
  lowest : Int
  /-- The place of the point above which an exponent is written. -/
  highest : Int
  /-- What follows the digits of a whole number. -/
  wholeSuffix : String
  /-- What precedes an exponent that is not negative. -/
  exponentMark : String
  /-- What precedes the digits of a negative exponent. -/
  negativeMark : String

/-- Numbers are positional from `0.00001` up to sixteen digits before the point, whole ones end in
`.0`, and an exponent carries its sign. -/
def wire : Notation := ⟨-5, 16, ".0", "e+", "e-"⟩

/-- Decimal digits of a natural number. -/
def digitsOf (n : Nat) : List Char := Nat.toDigits 10 n

namespace Notation

/-- A decimal in positional notation or with an exponent. -/
def writeScaled (f : Notation) (d : Scaled) : List Char :=
  let digits := digitsOf d.digits
  let place : Int := digits.length + d.exponent
  if f.lowest < place ∧ place ≤ f.highest then
    if place ≤ 0 then ['0', '.'] ++ List.replicate (-place).toNat '0' ++ digits
    else if 0 ≤ d.exponent then
      digits ++ List.replicate d.exponent.toNat '0' ++ f.wholeSuffix.toList
    else digits.take place.toNat ++ ['.'] ++ digits.drop place.toNat
  else
    let mantissa := match digits with
      | [] => []
      | [c] => [c]
      | c :: cs => c :: '.' :: cs
    let power := place - 1
    mantissa ++
      if power < 0 then f.negativeMark.toList ++ digitsOf (-power).toNat
      else f.exponentMark.toList ++ digitsOf power.toNat

/-- A finite number, with its sign also on zero. -/
def write (f : Notation) (x : Float) : List Char :=
  let bits := x.toBits
  let sign := if Nat.pow 2 63 ≤ bits.toNat then ['-'] else []
  let b := Binary.ofBits bits
  sign ++
    if b.mantissa = 0 then '0' :: f.wholeSuffix.toList else f.writeScaled (shortest b)

end Notation

end Decimal
end RemoteFiles
