/-!
# Operations

The seven things that can be asked of a sandbox, and the words that name them.

## Main definitions

* `Operation` — the operations.
* `Operation.label`, `Operation.subject`, `Operation.failureLead` — their names in messages.
-/

namespace RemoteFiles

/-- What can be asked of a sandbox. -/
inductive Operation where
  /-- The entries of a directory. -/
  | list
  /-- A window of the lines of a file. -/
  | read
  /-- A new file. -/
  | write
  /-- One text for another inside a file. -/
  | edit
  /-- The lines that hold a text. -/
  | grep
  /-- The paths that match a pattern. -/
  | glob
  /-- A shell command. -/
  | execute
  deriving DecidableEq, Repr

namespace Operation

/-- Every operation. -/
def all : List Operation := [list, read, write, edit, grep, glob, execute]

/-- The short name. -/
def label : Operation → String
  | list => "ls"
  | read => "read"
  | write => "write"
  | edit => "edit"
  | grep => "grep"
  | glob => "glob"
  | execute => "execute"

/-- The name of the operation's script: the script of `execute` is the caller's command. -/
def subject : Operation → String
  | execute => "command"
  | op => op.label

/-- What comes before the exit code when the script has failed. -/
def failureLead : Operation → String
  | grep => "grep script exited with code"
  | execute => "command exited with non-zero code"
  | op => op.label ++ " script exited with non-zero code"

/-- The operation with a given short name. -/
def ofLabel? (name : String) : Option Operation := all.find? (·.label = name)

end Operation
end RemoteFiles
