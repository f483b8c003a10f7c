/-!
# The shortest decimal of a binary fraction

A finite binary fraction of 53 bits stands for the interval of reals that round to it.  Of all
decimals in that interval one with the fewest digits is taken, and of those the nearest.

## Main definitions

* `Decimal.Binary` — a magnitude `mantissa · 2 ^ exponent`.
* `Decimal.Scaled` — a decimal `digits · 10 ^ exponent`.
* `Decimal.reads` — the decimals that round to a given magnitude.
* `Decimal.shortest` — the shortest of them that is nearest.
-/

namespace RemoteFiles
namespace Decimal

/-- A magnitude `mantissa · 2 ^ exponent`.  `atEdge` tells that the neighbour below is only half as
far away as the one above, as it is at a power of two. -/
structure Binary where
  mantissa : Nat
  exponent : Int
  atEdge : Bool
  deriving DecidableEq, Repr

/-- A decimal `digits · 10 ^ exponent`. -/
structure Scaled where
  digits : Nat
  exponent : Int
  deriving DecidableEq, Repr

/-- The magnitude of a finite number given by its 64 bits. -/
def Binary.ofBits (bits : UInt64) : Binary :=
  let field : Nat := bits.toNat / Nat.pow 2 52 % Nat.pow 2 11
  let fraction := bits.toNat % Nat.pow 2 52
  if field = 0 then ⟨fraction, -1074, false⟩
  else ⟨Nat.pow 2 52 + fraction, (field : Int) - 1075, fraction = 0 && 1 < field⟩

/-- The numerator of a decimal and a binary magnitude over one common denominator; the binary one
is scaled by four, so that the ends of its interval are whole too. -/
def overCommon (d : Scaled) (b : Binary) : Nat × Nat × Nat :=
  let up2 := b.exponent.toNat
  let down2 := (-b.exponent).toNat
  let up10 := d.exponent.toNat
  let down10 := (-d.exponent).toNat
  -- decimal, magnitude and a quarter of the last place, all times `2 ^ down2 · 10 ^ down10 · 4`
  (d.digits * Nat.pow 10 up10 * Nat.pow 2 down2 * 4,
    b.mantissa * Nat.pow 2 up2 * Nat.pow 10 down10 * 4, Nat.pow 2 up2 * Nat.pow 10 down10)

/-- Whether a decimal rounds to the magnitude: it lies between the middles to the neighbours, the
middles themselves counting when the mantissa is even. -/
def reads (b : Binary) (d : Scaled) : Bool :=
  let (x, m, quarter) := overCommon d b
  let low := m - (if b.atEdge then quarter else 2 * quarter)
  let high := m + 2 * quarter
  if b.mantissa % 2 = 0 then low ≤ x && x ≤ high else low < x && x < high

/-- How far a decimal is from the magnitude, over the common denominator. -/
def distance (b : Binary) (d : Scaled) : Nat :=
  let (x, m, _) := overCommon d b
  if x ≤ m then m - x else x - m

/-- The largest multiple of `10 ^ e` not above the magnitude. -/
def floorAt (b : Binary) (e : Int) : Scaled :=
  ⟨b.mantissa * Nat.pow 2 b.exponent.toNat * Nat.pow 10 (-e).toNat /
    (Nat.pow 2 (-b.exponent).toNat * Nat.pow 10 e.toNat), e⟩

/-- The best decimal that is a multiple of `10 ^ e`, if one rounds to the magnitude: of the two
next to it the nearer, and at equal distance the one with an even last digit. -/
def bestAt (b : Binary) (e : Int) : Option Scaled :=
  let lo := floorAt b e
  let hi : Scaled := ⟨lo.digits + 1, e⟩
  match reads b lo && lo.digits ≠ 0, reads b hi with
  | false, false => none
  | true, false => some lo
  | false, true => some hi
  | true, true =>
    if distance b lo < distance b hi then some lo
    else if distance b hi < distance b lo then some hi
    else if lo.digits % 2 = 0 then some lo else some hi

/-- Try ever finer powers of ten, from `10 ^ e` down. -/
def search (b : Binary) : Nat → Int → Scaled
  | 0, e => floorAt b e
  | fuel + 1, e =>
    match bestAt b e with
    | some d => d
    | none => search b fuel (e - 1)

/-- Drop the zeros at the end of the digits. -/
def trimZeros : Nat → Scaled → Scaled
  | 0, d => d
  | fuel + 1, d =>
    if d.digits ≠ 0 && d.digits % 10 = 0 then trimZeros fuel ⟨d.digits / 10, d.exponent + 1⟩ else d

/-- A power of ten that is at least the magnitude has an exponent of at most this. -/
def startExponent (b : Binary) : Int :=
  ((b.mantissa.log2 : Int) + 1 + b.exponent) * 30103 / 100000 + 2

/-- The shortest decimal that rounds to the magnitude, nearest of those; zero for zero.  Seventeen
digits are always enough, so the search ends before its fuel does. -/
def shortest (b : Binary) : Scaled :=
  if b.mantissa = 0 then ⟨0, 0⟩ else trimZeros 20 (search b 24 (startExponent b))

end Decimal
end RemoteFiles
