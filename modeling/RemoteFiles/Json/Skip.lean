import RemoteFiles.Json.Lexeme

/-!
# Skipping values

A value that nobody asked for is checked for its form only: nesting is not limited, numbers have no
range, and strings may hold any bytes.

## Main definitions

* `Json.skipValue` — the input after a value.
-/

namespace RemoteFiles
namespace Json

mutual

/-- Skip a value, white space before it included. -/
def skipWithin : Nat → Input → Except Fault Input
  | 0, s => .error ⟨.endInValue, s⟩
  | fuel + 1, s =>
    match skipSpace s with
    | [] => .error ⟨.endInValue, []⟩
    | Byte.letterN :: s => readWord restOfNull s
    | Byte.letterT :: s => readWord restOfTrue s
    | Byte.letterF :: s => readWord restOfFalse s
    | Byte.quote :: s => skipString s
    | Byte.listOpen :: s =>
      match skipSpace s with
      | [] => .error ⟨.endInList, []⟩
      | Byte.listClose :: s => .ok s
      | s => skipItems fuel s
    | Byte.recordOpen :: s =>
      match skipSpace s with
      | [] => .error ⟨.endInRecord, []⟩
      | Byte.recordClose :: s => .ok s
      | s => skipMembers fuel s
    | b :: s =>
      if b = Byte.minus ∨ isDigit b then (readNumeral .invalidNumber (b :: s)).map Prod.snd
      else .error ⟨.expectedValue, s⟩

/-- Skip the items of a list and its closing bracket. -/
def skipItems : Nat → Input → Except Fault Input
  | 0, s => .error ⟨.endInList, s⟩
  | fuel + 1, s => do
    let s ← skipWithin fuel s
    match skipSpace s with
    | [] => .error ⟨.endInList, []⟩
    | Byte.comma :: s => skipItems fuel s
    | Byte.listClose :: s => .ok s
    | _ :: s => .error ⟨.expectedListEnd, s⟩

/-- Skip the members of a record and its closing bracket. -/
def skipMembers : Nat → Input → Except Fault Input
  | 0, s => .error ⟨.endInRecord, s⟩
  | fuel + 1, s =>
    match skipSpace s with
    | [] => .error ⟨.endInRecord, []⟩
    | Byte.quote :: s => do
      let s ← skipString s
      match skipSpace s with
      | [] => .error ⟨.endInRecord, []⟩
      | Byte.colon :: s =>
        let s ← skipWithin fuel s
        match skipSpace s with
        | [] => .error ⟨.endInRecord, []⟩
        | Byte.comma :: s => skipMembers fuel s
        | Byte.recordClose :: s => .ok s
        | _ :: s => .error ⟨.expectedRecordEnd, s⟩
      | _ :: s => .error ⟨.expectedColon, s⟩
    | _ :: s => .error ⟨.expectedKey, s⟩

end

/-- Skip a value.  Every second step at least takes a byte, so the fuel lasts. -/
def skipValue (s : Input) : Except Fault Input := skipWithin (2 * s.length + 1) s

end Json
end RemoteFiles
