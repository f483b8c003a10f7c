import RemoteFiles.Json.Number

/-!
# Scalars

Readers for strings, truth values and numbers.  A value of another kind is a fault that names it:
a scalar is read to its end first, the bracket of a list or a record is left unread.

## Main definitions

* `Json.readText`, `Json.readFlag`, `Json.readCount`, `Json.readReal` — the readers.
* `Json.orNull` — a reader that takes `null` for a missing value.
-/

namespace RemoteFiles
namespace Json

/-- A number as it is named where another kind of value was expected. -/
def Number.found : Number → Found
  | natural n => .integer n.toNat
  | negative n => .integer (-n)
  | real x => .real x

/-- The value that stands at the front, where another kind was wanted. -/
def readFound : Reader Found
  | [] => .error ⟨.expectedValue, []⟩
  | Byte.letterN :: s => (readWord restOfNull s).map fun s => (.null, s)
  | Byte.letterT :: s => (readWord restOfTrue s).map fun s => (.flag true, s)
  | Byte.letterF :: s => (readWord restOfFalse s).map fun s => (.flag false, s)
  | Byte.quote :: s => (readString s).map fun (t, s) => (.text t, s)
  | Byte.listOpen :: s => .ok (.list, Byte.listOpen :: s)
  | Byte.recordOpen :: s => .ok (.record, Byte.recordOpen :: s)
  | b :: s =>
    if b = Byte.minus ∨ isDigit b then (readNumber (b :: s)).map fun (n, s) => (n.found, s)
    else .error ⟨.expectedValue, s⟩

/-- The fault of a value of the wrong kind. -/
def misplaced (wanted : String) (s : Input) : Fault :=
  match readFound s with
  | .error f => f
  | .ok (found, s) => ⟨.wrongKind found wanted, s⟩

/-- Read a string. -/
def readText : Reader String := fun s =>
  match skipSpace s with
  | [] => .error ⟨.endInValue, []⟩
  | Byte.quote :: s => readString s
  | s => .error (misplaced "a string" s)

/-- Read a truth value. -/
def readFlag : Reader Bool := fun s =>
  match skipSpace s with
  | [] => .error ⟨.endInValue, []⟩
  | Byte.letterT :: s => (readWord restOfTrue s).map fun s => (true, s)
  | Byte.letterF :: s => (readWord restOfFalse s).map fun s => (false, s)
  | s => .error (misplaced "a boolean" s)

/-- Read a natural number below `2 ^ 64`. -/
def readCount : Reader UInt64 := fun s =>
  match skipSpace s with
  | [] => .error ⟨.endInValue, []⟩
  | b :: s =>
    if b = Byte.minus ∨ isDigit b then do
      let (n, rest) ← readNumber (b :: s)
      match n with
      | .natural n => .ok (n, rest)
      | .negative m => .error ⟨.wrongValue (Number.negative m).found "u64", rest⟩
      | .real x => .error ⟨.wrongKind (.real x) "u64", rest⟩
    else .error (misplaced "u64" (b :: s))

/-- Read a floating-point number; a whole number is rounded to one. -/
def readReal : Reader Float := fun s =>
  match skipSpace s with
  | [] => .error ⟨.endInValue, []⟩
  | b :: s =>
    if b = Byte.minus ∨ isDigit b then do
      let (n, rest) ← readNumber (b :: s)
      match n with
      | .natural n => .ok (n.toFloat, rest)
      | .negative m => .ok (-(UInt64.ofNat m).toFloat, rest)
      | .real x => .ok (x, rest)
    else .error (misplaced "f64" (b :: s))

/-- Read a value or `null`. -/
def orNull (read : Reader α) : Reader (Option α) := fun s =>
  match skipSpace s with
  | Byte.letterN :: s => (readWord restOfNull s).map fun s => (none, s)
  | s => (read s).map fun (a, s) => (some a, s)

end Json
end RemoteFiles
