import RemoteFiles.Decimal.Notation
import RemoteFiles.Text.Quoted

/-!
# Shown values

Settings as they are shown to a person who looks for a mistake: a name with fields, texts in
quotes, and times with a unit.

## Main definitions

* `Duration` — a length of time.
* `Shown.text`, `Shown.flag`, `Shown.option`, `Shown.duration` — values.
* `Shown.fields`, `Shown.someFields` — a record with all or with some of its fields.
-/

namespace RemoteFiles

/-- A length of time, in seconds and nanoseconds. -/
structure Duration where
  seconds : UInt64
  nanos : Fin 1000000000
  deriving DecidableEq, Repr

/-- A length of time in milliseconds. -/
def Duration.ofMillis (ms : UInt64) : Duration :=
  ⟨ms / 1000, ⟨ms.toNat % 1000 * 1000000, by omega⟩⟩

namespace Shown

/-- A text. -/
def text (s : String) : String := Text.quoted s

/-- A truth value. -/
def flag (b : Bool) : String := if b then "true" else "false"

/-- A value that may be missing. -/
def option (inner : α → String) : Option α → String
  | none => "None"
  | some a => "Some(" ++ inner a ++ ")"

/-- A word. -/
def word (n : UInt32) : String := toString n.toNat

/-- The number of parts, of which a unit has so many, as a decimal fraction without zeros at its
end. -/
def fraction (parts n : Nat) : List Char :=
  let digits := (((Nat.toDigits 10 (parts + n)).tail.reverse).dropWhile (· = '0')).reverse
  if digits = [] then [] else '.' :: digits

/-- A number of parts in a unit that has so many of them. -/
def amount (parts n : Nat) (unit : String) : String :=
  toString (n / parts) ++ String.ofList (fraction parts (n % parts)) ++ unit

/-- A length of time: in seconds from one second on, and otherwise in the greatest unit of which it
has one. -/
def duration (d : Duration) : String :=
  let nanos := d.seconds.toNat * 1000000000 + d.nanos
  if 1000000000 ≤ nanos then amount 1000000000 nanos "s"
  else if 1000000 ≤ nanos then amount 1000000 nanos "ms"
  else if 1000 ≤ nanos then amount 1000 nanos "µs"
  else amount 1 nanos "ns"

/-- Fields with their names. -/
def listed (fs : List (String × String)) : String :=
  ", ".intercalate (fs.map fun f => f.1 ++ ": " ++ f.2)

/-- A record with all its fields. -/
def fields (name : String) (fs : List (String × String)) : String :=
  name ++ " \x7b " ++ listed fs ++ " \x7d"

/-- A record some of whose fields are not shown. -/
def someFields (name : String) (fs : List (String × String)) : String :=
  name ++ " \x7b " ++ listed fs ++ ", .. \x7d"

end Shown
end RemoteFiles
