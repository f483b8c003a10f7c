import RemoteFiles.Json.Scalar
import RemoteFiles.Json.Skip

/-!
# Records and lists

A record is read by its fields: members in any order, unknown ones skipped, none given twice, those
that are missing supplied by a default or refused.  A list of the fields in their order is read as
a record too.

## Main definitions

* `Json.Field` — a field, and how it is read into a draft of the record.
* `Json.Schema` — the fields of a record, and how a draft becomes a record.
* `Json.Schema.read`, `Json.readList` — the readers.
* `Json.decode` — a whole input as one value.
-/

namespace RemoteFiles
namespace Json

/-- A field of records whose drafts are of type `δ`. -/
structure Field (δ : Type) where
  name : String
  /-- Whether a draft has the field already. -/
  given : δ → Bool
  /-- Read the field's value into a draft. -/
  read : δ → Reader δ

/-- A field that is kept in a draft as an option. -/
def Field.of (name : String) (get : δ → Option α) (set : δ → α → δ) (read : Reader α) :
    Field δ where
  name := name
  given d := (get d).isSome
  read d s := (read s).map fun (a, s) => (set d a, s)

/-- A kind of records of type `α`. -/
structure Schema (δ α : Type) where
  /-- The name of the kind in messages. -/
  title : String
  fields : List (Field δ)
  /-- The draft that has no field yet. -/
  blank : δ
  /-- The record of a draft, or the name of a field that is missing. -/
  build : δ → Except String α

namespace Schema

/-- How the kind is named as something wanted. -/
def wanted (k : Schema δ α) : String := "struct " ++ k.title

/-- The field with a given name. -/
def field? (k : Schema δ α) (name : String) : Option (Field δ) := k.fields.find? (·.name = name)

/-- The input at which a repeated field is reported: after white space, and after the bracket that
closes the record if it comes next. -/
def afterRepeat (s : Input) : Input :=
  match skipSpace s with
  | Byte.recordClose :: s => s
  | s => s

/-- Read past the colon after a key. -/
def readColon (s : Input) : Except Fault Input :=
  match skipSpace s with
  | [] => .error ⟨.endInRecord, []⟩
  | Byte.colon :: s => .ok s
  | _ :: s => .error ⟨.expectedColon, s⟩

/-- Read a member into a draft, after the opening quote of its key. -/
def readMember (k : Schema δ α) (d : δ) : Reader δ := fun s => do
  let (key, s) ← readString s
  match k.field? key with
  | none =>
    let s ← readColon s
    let s ← skipValue s
    return (d, s)
  | some f =>
    if f.given d then .error ⟨.duplicateField key, afterRepeat s⟩
    else
      let s ← readColon s
      f.read d s

/-- Read the members after the first, and the closing bracket.  Each takes a byte at least, so
fuel for every byte lasts. -/
def readMembers (k : Schema δ α) : Nat → δ → Reader δ
  | 0, _, s => .error ⟨.endInRecord, s⟩
  | fuel + 1, d, s =>
    match skipSpace s with
    | [] => .error ⟨.endInRecord, []⟩
    | Byte.recordClose :: s => .ok (d, s)
    | Byte.comma :: s =>
      match skipSpace s with
      | [] => .error ⟨.endInValue, []⟩
      | Byte.quote :: s => do
        let (d, s) ← k.readMember d s
        readMembers k fuel d s
      | Byte.recordClose :: s => .error ⟨.trailingComma, s⟩
      | _ :: s => .error ⟨.expectedKey, s⟩
    | _ :: s => .error ⟨.expectedRecordEnd, s⟩

/-- Read a record after its opening bracket. -/
def readRecord (k : Schema δ α) : Reader δ := fun s =>
  match skipSpace s with
  | [] => .error ⟨.endInRecord, []⟩
  | Byte.recordClose :: s => .ok (k.blank, s)
  | Byte.quote :: s => do
    let (d, s) ← k.readMember k.blank s
    k.readMembers (s.length + 1) d s
  | _ :: s => .error ⟨.expectedKey, s⟩

/-- Read the closing bracket of a list that has given every field. -/
def readListEnd (d : δ) : Reader δ := fun s =>
  match skipSpace s with
  | [] => .error ⟨.endInList, []⟩
  | Byte.listClose :: s => .ok (d, s)
  | Byte.comma :: s =>
    match skipSpace s with
    | Byte.listClose :: s => .error ⟨.trailingComma, s⟩
    | s => .error (.next .trailingCharacters s)
  | _ :: s => .error ⟨.trailingCharacters, s⟩

/-- Read the items of a list into the fields after the first, in their order, and the closing
bracket.  The list may end before the fields do. -/
def readItems (d : δ) : List (Field δ) → Reader δ
  | [], s => readListEnd d s
  | f :: fs, s =>
    match skipSpace s with
    | [] => .error ⟨.endInList, []⟩
    | Byte.listClose :: s => .ok (d, s)
    | Byte.comma :: s =>
      match skipSpace s with
      | [] => .error ⟨.endInValue, []⟩
      | Byte.listClose :: s => .error ⟨.trailingComma, s⟩
      | s => do
        let (d, s) ← f.read d s
        readItems d fs s
    | _ :: s => .error ⟨.expectedListEnd, s⟩

/-- Read a record given as a list, after the opening bracket. -/
def readAsList (k : Schema δ α) : Reader δ := fun s =>
  match k.fields with
  | [] => readListEnd k.blank s
  | f :: fs =>
    match skipSpace s with
    | [] => .error ⟨.endInList, []⟩
    | Byte.listClose :: s => .ok (k.blank, s)
    | s => do
      let (d, s) ← f.read k.blank s
      readItems d fs s

/-- What was wanted of a list that is too short for the fields. -/
def wantedItems (k : Schema δ α) : String :=
  k.wanted ++ " with " ++ toString k.fields.length ++
    (if k.fields.length = 1 then " element" else " elements")

/-- Read a record. -/
def read (k : Schema δ α) : Reader α := fun s =>
  match skipSpace s with
  | [] => .error ⟨.endInValue, []⟩
  | Byte.recordOpen :: s => do
    let (d, s) ← k.readRecord s
    match k.build d with
    | .ok a => .ok (a, s)
    | .error name => .error ⟨.missingField name, s⟩
  | Byte.listOpen :: s => do
    let (d, s) ← k.readAsList s
    match k.build d with
    | .ok a => .ok (a, s)
    | .error name => .error ⟨.tooShort (k.fields.findIdx (·.name = name)) k.wantedItems, s⟩
  | s => .error (misplaced k.wanted s)

end Schema

/-- Read the items of a list after the first, and the closing bracket; each takes a byte at
least. -/
def readMore (read : Reader α) : Nat → Reader (List α)
  | 0, s => .error ⟨.endInList, s⟩
  | fuel + 1, s =>
    match skipSpace s with
    | [] => .error ⟨.endInList, []⟩
    | Byte.listClose :: s => .ok ([], s)
    | Byte.comma :: s =>
      match skipSpace s with
      | [] => .error ⟨.endInValue, []⟩
      | Byte.listClose :: s => .error ⟨.trailingComma, s⟩
      | s => do
        let (a, s) ← read s
        let (as, s) ← readMore read fuel s
        return (a :: as, s)
    | _ :: s => .error ⟨.expectedListEnd, s⟩

/-- Read a list. -/
def readList (read : Reader α) : Reader (List α) := fun s =>
  match skipSpace s with
  | [] => .error ⟨.endInValue, []⟩
  | Byte.listOpen :: s =>
    match skipSpace s with
    | [] => .error ⟨.endInList, []⟩
    | Byte.listClose :: s => .ok ([], s)
    | s => do
      let (a, s) ← read s
      let (as, s) ← readMore read (s.length + 1) s
      return (a :: as, s)
  | s => .error (misplaced "a sequence" s)

/-- Read a value that is all there is, white space apart. -/
def readOnly (read : Reader α) (s : Input) : Except Fault α := do
  let (a, s) ← read s
  match skipSpace s with
  | [] => .ok a
  | _ :: s => .error ⟨.trailingCharacters, s⟩

/-- A whole input as one value. -/
def decode (read : Reader α) (input : Input) : Except Error α :=
  match readOnly read input with
  | .ok a => .ok a
  | .error f => .error (f.locate input)

end Json
end RemoteFiles
