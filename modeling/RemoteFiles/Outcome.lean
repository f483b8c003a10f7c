import RemoteFiles.Failure
import RemoteFiles.Json.Record
import RemoteFiles.Json.Value

/-!
# Outcomes

An answer holds, as a string inside a document, a second document: the execution of a script with
the outputs of its kernel.  Its outcome is the first output and an exit code.

## Main definitions

* `Envelope`, `Execution`, `Output` — the two documents.
* `Outcome` — the text of a script and its exit code.
* `Execution.outcome` — the outcome of an execution.
* `Outcome.decode` — the outcome in the body of an answer.
-/

namespace RemoteFiles

/-- What the kernel put out: a chunk of a stream, or an exception. -/
structure Output where
  kind : String := ""
  text : String := ""
  /-- The name of the exception. -/
  exception : String := ""
  /-- What the exception says. -/
  reason : String := ""
  deriving DecidableEq, Repr

namespace Output

/-- An output of which some fields are known. -/
structure Draft where
  kind : Option String := none
  text : Option String := none
  exception : Option String := none
  reason : Option String := none

/-- Outputs as records; every field is a text and may be missing. -/
def schema : Json.Schema Draft Output where
  title := "KernelOutput"
  fields :=
    [.of "output_type" (·.kind) (fun d x => { d with kind := some x }) Json.readText,
     .of "text" (·.text) (fun d x => { d with text := some x }) Json.readText,
     .of "ename" (·.exception) (fun d x => { d with exception := some x }) Json.readText,
     .of "evalue" (·.reason) (fun d x => { d with reason := some x }) Json.readText]
  blank := {}
  build d :=
    .ok ⟨d.kind.getD "", d.text.getD "", d.exception.getD "", d.reason.getD ""⟩

/-- An output as a document. -/
def toJson (o : Output) : Json.Value :=
  .record [("output_type", .text o.kind), ("text", .text o.text), ("ename", .text o.exception),
    ("evalue", .text o.reason)]

end Output

/-- The execution of a script. -/
structure Execution where
  success : Bool := false
  outputs : List Output := []
  deriving DecidableEq, Repr

namespace Execution

/-- The outputs of an execution, as they stand one level further down. -/
def dataSchema : Json.Schema (Option (List Output)) (List Output) where
  title := "ExecutionData"
  fields := [.of "outputs" id (fun _ x => some x) (Json.readList Output.schema.read)]
  blank := none
  build d := .ok (d.getD [])

/-- An execution of which some fields are known. -/
structure Draft where
  success : Option Bool := none
  outputs : Option (List Output) := none

/-- Executions as records; an execution that does not say so did not succeed. -/
def schema : Json.Schema Draft Execution where
  title := "ExecutionResult"
  fields :=
    [.of "success" (·.success) (fun d x => { d with success := some x }) Json.readFlag,
     .of "data" (·.outputs) (fun d x => { d with outputs := some x }) dataSchema.read]
  blank := {}
  build d := .ok ⟨d.success.getD false, d.outputs.getD []⟩

/-- An execution as a document. -/
def toJson (x : Execution) : Json.Value :=
  .record [("success", .flag x.success),
    ("data", .record [("outputs", .list (x.outputs.map Output.toJson))])]

end Execution

/-- The outer document of an answer. -/
structure Envelope where
  /-- The text of the inner document. -/
  result : String := ""
  deriving DecidableEq, Repr

namespace Envelope

/-- The inner text, as it stands one level further down. -/
def resultSchema : Json.Schema (Option String) String where
  title := "ResponseResult"
  fields := [.of "result" id (fun _ x => some x) Json.readText]
  blank := none
  build d := .ok (d.getD "")

/-- Envelopes as records. -/
def schema : Json.Schema (Option String) Envelope where
  title := "ResponseEnvelope"
  fields := [.of "result" id (fun _ x => some x) resultSchema.read]
  blank := none
  build d := .ok ⟨d.getD ""⟩

/-- An envelope as a document. -/
def toJson (e : Envelope) : Json.Value :=
  .record [("result", .record [("result", .text e.result)])]

end Envelope

/-- The outcome of a script. -/
structure Outcome where
  text : String
  exitCode : Int
  deriving DecidableEq, Repr

/-- The exit code of a script that succeeded. -/
def exitSuccess : Int := 0

/-- The exit code that stands for any failure. -/
def exitFailure : Int := -1

/-- Whether the script succeeded. -/
def Outcome.succeeded (o : Outcome) : Bool := o.exitCode = exitSuccess

/-- What an output says of a failure: its text, or else its exception. -/
def Output.complaint (o : Output) : String :=
  if o.text ≠ "" then o.text
  else if o.exception ≠ "" then o.exception ++ ": " ++ o.reason
  else ""

/-- The outcome of an execution, which only its first output decides. -/
def Execution.outcome (x : Execution) : Outcome :=
  if x.success then ⟨(x.outputs.head?.map Output.text).getD "", exitSuccess⟩
  else ⟨(x.outputs.head?.map Output.complaint).getD "", exitFailure⟩

/-- The outcome in the body of an answer. -/
def Outcome.decode (body : List UInt8) : Except InvokeError Outcome :=
  match Json.decode Envelope.schema.read body with
  | .error e => .error (.decodeResponse e.message)
  | .ok envelope =>
    match Json.decode Execution.schema.read (Utf8.encode envelope.result) with
    | .error e => .error (.decodeResult e.message)
    | .ok execution => .ok execution.outcome

end RemoteFiles
