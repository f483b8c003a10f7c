import RemoteFiles.Json.Lexeme

/-!
# Numbers

What a spelled number stands for.  A whole number that fits 64 bits is exact.  Any other is a
binary floating-point number made from as many leading digits as fit 64 bits and a power of ten;
one too large for that is a fault, and one too small is zero.

## Main definitions

* `Json.Number` — an exact natural or negative number, or an inexact one.
* `Json.takeDigits` — as many digits as fit 64 bits.
* `Json.Numeral.value` — the number that a numeral stands for.
-/

namespace RemoteFiles
namespace Json

/-- A number. -/
inductive Number where
  | natural (n : UInt64)
  /-- A negative whole number, by its magnitude. -/
  | negative (magnitude : Nat)
  | real (x : Float)

/-- The number a digit stands for. -/
def digitValue (b : UInt8) : Nat := b.toNat - 0x30

/-- Append digits to a number while it stays below `2 ^ 64`; the digits left over come second. -/
def takeDigits (n : Nat) : List UInt8 → Nat × List UInt8
  | [] => (n, [])
  | d :: ds =>
    let next := n * 10 + digitValue d
    if next < UInt64.size then takeDigits next ds else (n, d :: ds)

/-- Append the digits of an exponent to a number while it stays below `2 ^ 31`; otherwise the
digits that come after the one that took it out of range. -/
def takeExponent (n : Nat) : List UInt8 → Except (List UInt8) Nat
  | [] => .ok n
  | d :: ds =>
    let next := n * 10 + digitValue d
    if next < Nat.pow 2 31 then takeExponent next ds else .error ds

/-- A power of ten up to `10 ^ 308`. -/
def powerOfTen (n : Nat) : Float := Float.ofScientific 1 false n

/-- Divide by `10 ^ n`, in steps of at most `10 ^ 308`. -/
def divideDown (x : Float) (n : Nat) : Float :=
  if n ≤ 308 then x / powerOfTen n
  else if x == 0.0 then x
  else divideDown (x / powerOfTen 308) (n - 308)
termination_by n

/-- The floating-point number `digits · 10 ^ exponent`, if it is in range. -/
def scaled? (digits : Nat) (exponent : Int) : Option Float :=
  let x := (UInt64.ofNat digits).toFloat
  if exponent < 0 then some (divideDown x exponent.natAbs)
  else if exponent ≤ 308 then
    let y := x * powerOfTen exponent.toNat
    if y.isInf then none else some y
  else if digits = 0 then some x
  else none

/-- A floating-point number with a sign. -/
def signed (negative : Bool) (x : Float) : Float := if negative then -x else x

/-- The floating-point number `digits · 10 ^ exponent` with a sign, or a fault after the numeral. -/
def inexact (negative : Bool) (digits : Nat) (exponent : Int) (rest : Input) :
    Except Fault Number :=
  match scaled? digits exponent with
  | some x => .ok (.real (signed negative x))
  | none => .error ⟨.numberOutOfRange, rest⟩

/-- A whole number below `2 ^ 64` with a sign.  A negative zero and a negative number below
`-2 ^ 63` are inexact. -/
def exact (negative : Bool) (n : Nat) : Number :=
  if !negative then .natural (UInt64.ofNat n)
  else if 0 < n ∧ n ≤ Nat.pow 2 63 then .negative n
  else .real (-(UInt64.ofNat n).toFloat)

/-- The number that a numeral stands for; `rest` is the input after it. -/
def Numeral.value (n : Numeral) (rest : Input) : Except Fault Number :=
  let (digits, dropped) := takeDigits 0 n.whole
  if n.fraction = none ∧ n.exponent = none ∧ dropped = [] then .ok (exact n.negative digits)
  else
    let places := n.fraction.getD []
    let (digits, cut) := takeDigits digits places
    let shift : Int := (dropped.length : Int) - (places.length - cut.length : Nat)
    match n.exponent with
    | none => inexact n.negative digits shift rest
    | some (down, ds) =>
      match takeExponent 0 ds with
      | .ok e => inexact n.negative digits (if down then shift - e else shift + e) rest
      | .error after =>
        if digits ≠ 0 ∧ !down then .error ⟨.numberOutOfRange, after ++ rest⟩
        else .ok (.real (signed n.negative 0.0))

/-- Read a number. -/
def readNumber : Reader Number := fun s => do
  let (n, s) ← readNumeral .endInValue s
  let x ← n.value s
  return (x, s)

end Json
end RemoteFiles
