import RemoteFiles.Identity
import RemoteFiles.Json.Value

/-!
# Invocations

The body of a request: a document that names the tool and the session and holds, as a string, a
second document with the script.

## Main definitions

* `Payload` — the script and how it is to be run.
* `Invocation` — what is asked of the tool.
* `Invocation.ofScript` — the invocation that runs a script for an identity.
-/

namespace RemoteFiles

/-- A member that is written only when there is a number for it. -/
def optionalCount (name : String) (n : Option UInt32) : List (String × Json.Value) :=
  (n.map fun n => (name, Json.Value.count n.toNat)).toList

/-- A setting of which zero counts as not set. -/
def positive (n : Option UInt32) : Option UInt32 := n.filter (0 < ·)

/-- A script and how it is to be run. -/
structure Payload where
  code : String
  kernel : String
  /-- How long the script may run, in seconds. -/
  timeout : Option UInt32
  deriving DecidableEq, Repr

namespace Payload

/-- A script for the kernel that the sandbox has. -/
def ofCode (code : String) (timeout : Option UInt32) : Payload :=
  ⟨code, "python3", positive timeout⟩

/-- A payload as a document. -/
def toJson (p : Payload) : Json.Value :=
  .record ([("code", .text p.code), ("kernelName", .text p.kernel)] ++
    optionalCount "timeout" p.timeout)

end Payload

/-- What is asked of the tool. -/
structure Invocation where
  toolId : String
  sessionId : String
  userSessionId : String
  /-- The text of the payload. -/
  payload : String
  /-- The kind of the payload. -/
  kind : String
  /-- How long a new session lives, in seconds. -/
  ttl : Option UInt32
  deriving DecidableEq, Repr

namespace Invocation

/-- The kind of payloads that hold a script. -/
def runCode : String := "RunCode"

/-- An invocation as a document. -/
def toJson (v : Invocation) : Json.Value :=
  .record ([("ToolId", .text v.toolId), ("SessionId", .text v.sessionId),
    ("UserSessionId", .text v.userSessionId), ("OperationPayload", .text v.payload),
    ("OperationType", .text v.kind)] ++ optionalCount "Ttl" v.ttl)

/-- The body of the request. -/
def body (v : Invocation) : List UInt8 := Utf8.encode v.toJson.write

/-- The invocation that runs a script for an identity. -/
def ofScript (i : Identity) (code : String) : Invocation where
  toolId := i.toolId
  sessionId := i.sessionId
  userSessionId := i.userSessionId
  payload := (Payload.ofCode code i.executionTimeout).toJson.write
  kind := runCode
  ttl := positive i.sessionTtl

end Invocation
end RemoteFiles
