import RemoteFiles.Operation

/-!
# Events

What is written to the log, as data: sizes, statuses and names, and of what a script prints only
the lines that should have been hits and are none.

## Main definitions

* `Event` — the events.
* `Event.level`, `Event.message`, `Event.fields` — how an event is written.
-/

namespace RemoteFiles

/-- An event. -/
inductive Event where
  /-- A sandbox was set up. -/
  | created (region toolId : String)
  /-- A script of a given size is about to run. -/
  | running (operation : Operation) (scriptBytes : Nat)
  /-- A body of a given size is about to be sent. -/
  | invoking (toolId : String) (bodyBytes : Nat)
  /-- An answer came. -/
  | responded (status bodyBytes : Nat)
  /-- A script failed. -/
  | failed (operation : Operation) (exitCode : Int)
  /-- A line of output is not a hit. -/
  | skipped (reason line : String)
  deriving DecidableEq, Repr

namespace Event

/-- How grave an event is. -/
inductive Level where
  | debug
  | warning
  deriving DecidableEq, Repr

/-- The name of a level. -/
def Level.label : Level → String
  | debug => "DEBUG"
  | warning => "WARN"

/-- The value of a field. -/
inductive Field where
  | text (s : String)
  | number (n : Int)
  deriving DecidableEq, Repr

/-- How grave an event is: a skipped line is a warning, anything else is not. -/
def level : Event → Level
  | skipped _ _ => .warning
  | _ => .debug

/-- What an event says. -/
def message : Event → String
  | created _ _ => "Created sandbox tool backend"
  | running _ _ => "Running sandbox script"
  | invoking _ _ => "Invoking sandbox tool"
  | responded _ _ => "Sandbox tool responded"
  | failed _ _ => "Sandbox script reported failure"
  | skipped _ _ => "Skipping malformed grep match line"

/-- The fields of an event. -/
def fields : Event → List (String × Field)
  | created region toolId => [("region", .text region), ("tool_id", .text toolId)]
  | running operation scriptBytes =>
    [("operation", .text operation.label), ("script_bytes", .number scriptBytes)]
  | invoking toolId bodyBytes =>
    [("tool_id", .text toolId), ("body_bytes", .number bodyBytes)]
  | responded status bodyBytes =>
    [("status", .number status), ("body_bytes", .number bodyBytes)]
  | failed operation exitCode =>
    [("operation", .text operation.label), ("exit_code", .number exitCode)]
  | skipped reason line => [("error", .text reason), ("line", .text line)]

end Event
end RemoteFiles
