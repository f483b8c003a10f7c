import RemoteFiles.Json.Record
import RemoteFiles.Json.Value
import RemoteFiles.Text.Blank

/-!
# Entries and hits

The records that scripts print, one on a line.

## Main definitions

* `Entry` — a directory entry or a path that matches a pattern.
* `Hit` — a line that holds a text.
* `Entry.readAll`, `Hit.readAll` — the records of an output; lines that are none are left out.
* `Hit.rejects` — the lines that are left out, each with what is wrong with it.
-/

namespace RemoteFiles

/-- A directory entry or a path that matches a pattern. -/
structure Entry where
  path : String
  isDirectory : Bool := false
  /-- The size in bytes. -/
  size : UInt64 := 0
  /-- The time of the last change, in seconds since the start of 1970. -/
  modified : Option Float := none

namespace Entry

/-- An entry of which some fields are known. -/
structure Draft where
  path : Option String := none
  isDirectory : Option Bool := none
  size : Option UInt64 := none
  modified : Option (Option Float) := none

/-- Entries as records.  Only the path is required. -/
def schema : Json.Schema Draft Entry where
  title := "FileInfo"
  fields :=
    [.of "path" (·.path) (fun d x => { d with path := some x }) Json.readText,
     .of "is_dir" (·.isDirectory) (fun d x => { d with isDirectory := some x }) Json.readFlag,
     .of "size" (·.size) (fun d x => { d with size := some x }) Json.readCount,
     .of "mtime" (·.modified) (fun d x => { d with modified := some x })
       (Json.orNull Json.readReal)]
  blank := {}
  build d :=
    match d.path with
    | none => .error "path"
    | some path =>
      .ok ⟨path, d.isDirectory.getD false, d.size.getD 0, d.modified.getD none⟩

/-- An entry as a document; a time that is not known is left out. -/
def toJson (e : Entry) : Json.Value :=
  .record ([("path", .text e.path), ("is_dir", .flag e.isDirectory),
    ("size", .count e.size.toNat)] ++
      (e.modified.map fun x => ("mtime", .real x)).toList)

end Entry

/-- A line that holds a text. -/
structure Hit where
  path : String
  /-- The number of the line, counted from one. -/
  line : UInt64
  content : String
  deriving DecidableEq, Repr

namespace Hit

/-- A hit of which some fields are known. -/
structure Draft where
  path : Option String := none
  line : Option UInt64 := none
  content : Option String := none

/-- Hits as records; every field is required. -/
def schema : Json.Schema Draft Hit where
  title := "GrepMatch"
  fields :=
    [.of "Path" (·.path) (fun d x => { d with path := some x }) Json.readText,
     .of "Line" (·.line) (fun d x => { d with line := some x }) Json.readCount,
     .of "Content" (·.content) (fun d x => { d with content := some x }) Json.readText]
  blank := {}
  build d :=
    match d.path, d.line, d.content with
    | none, _, _ => .error "Path"
    | some _, none, _ => .error "Line"
    | some _, some _, none => .error "Content"
    | some path, some line, some content => .ok ⟨path, line, content⟩

/-- A hit as a document. -/
def toJson (h : Hit) : Json.Value :=
  .record [("Path", .text h.path), ("Line", .count h.line.toNat), ("Content", .text h.content)]

end Hit

/-- A line as a record of a kind. -/
def decodeLine (k : Json.Schema δ α) (line : String) : Except Json.Error α :=
  Json.decode k.read (Utf8.encode line)

/-- The records of an output, one on a line; blank lines and lines that are no record are left
out. -/
def decodeLines (k : Json.Schema δ α) (output : String) : List α :=
  (Text.filledLines output).filterMap fun line => (decodeLine k line).toOption

/-- The entries of an output. -/
def Entry.readAll (output : String) : List Entry := decodeLines Entry.schema output

/-- The hits of an output. -/
def Hit.readAll (output : String) : List Hit := decodeLines Hit.schema output

/-- The lines of an output that are no hit and not blank, each with what is wrong with it. -/
def Hit.rejects (output : String) : List (String × Json.Error) :=
  (Text.filledLines output).filterMap fun line =>
    match decodeLine Hit.schema line with
    | .ok _ => none
    | .error e => some (line, e)

end RemoteFiles
