import RemoteFiles.Entry
import RemoteFiles.Path
import RemoteFiles.Script
import RemoteFiles.Transport

/-!
# Sandboxes

The files of a remote sandbox.  A call is checked, made into a script, run through the transport,
and answered from what the script printed.  No call depends on an earlier one.

## Main definitions

* `Sandbox` — a sandbox that can be called.
* `Sandbox.ofConfig`, `Sandbox.retarget` — setting one up, and sending its requests elsewhere.
* `Call`, `Answer` — what is asked and what is answered.
* `Call.params`, `Call.script` — the checks of a call, and its script.
* `Sandbox.call` — a call made through a peer.
-/

namespace RemoteFiles

/-- What is asked of a sandbox. -/
inductive Call where
  /-- The entries of a directory; the empty path is the root. -/
  | list (path : String)
  /-- Lines of a file from an offset, and how many. -/
  | read (path : String) (offset limit : Int)
  /-- A new file. -/
  | write (path content : String)
  /-- One text for another, everywhere or at its only occurrence. -/
  | edit (path old new : String) (everywhere : Bool)
  /-- The lines that hold a text, in the files of a directory that match a pattern if it is not
  empty. -/
  | grep (path text files : String)
  /-- The paths that match a pattern, from a directory; the empty path is the root. -/
  | glob (path pattern : String)
  /-- A shell command. -/
  | execute (command : String)
  deriving DecidableEq, Repr

/-- What a sandbox answers. -/
inductive Answer where
  | entries (es : List Entry)
  | content (text : String)
  | done
  | hits (hs : List Hit)
  | output (text : String) (exitCode : Option Int)

namespace Call

/-- The operation of a call. -/
def operation : Call → Operation
  | list .. => .list
  | read .. => .read
  | write .. => .write
  | edit .. => .edit
  | grep .. => .grep
  | glob .. => .glob
  | execute .. => .execute

/-- How many lines are read when a call does not say. -/
def defaultLimit : Int := 200

/-- The first line that a call means: none is before the first. -/
def effectiveOffset (offset : Int) : Int := max offset 0

/-- The number of lines that a call means. -/
def effectiveLimit (limit : Int) : Int := if limit ≤ 0 then defaultLimit else limit

/-- An absolute path, cleaned. -/
def absolute (path : String) : Except FileError String :=
  (Path.resolve path "" true).mapError .invalidPath

/-- The parameters of the script, if the call makes sense. -/
def params : Call → Except FileError Template.Params
  | list path => .ok (Template.Params.text {} "path" (Path.clean (Path.orDefault path "/")))
  | read path offset limit => do
    let path ← absolute path
    return (((Template.Params.text {} "file_path" path).int "offset" (effectiveOffset offset)).int
      "limit" (effectiveLimit limit))
  | write path content => do
    let path ← absolute path
    return ((Template.Params.text {} "file_path" path).text "content" content)
  | edit path old new everywhere => do
    let path ← absolute path
    if old = "" then .error .oldTextMissing
    else if old = new then .error .newTextEqual
    else
      return ((((Template.Params.text {} "file_path" path).text "old" old).text "new" new).flag
        "replace_all" everywhere)
  | grep path text files =>
    .ok (((Template.Params.text {} "pattern" text).text "path" (Path.clean path)).text
      "glob" files)
  | glob path pattern =>
    .ok ((Template.Params.text {} "path" (Path.clean (Path.orDefault path "/"))).text
      "pattern" pattern)
  | execute command =>
    if command = "" then .error .commandMissing
    else .ok (Template.Params.text {} "command" command)

/-- The script of a call. -/
def script (c : Call) (ps : Template.Params) : Except FileError String :=
  (Template.render (Script.source c.operation) ps).mapError (.render c.operation)

/-- The answer to a call in what its script printed, and the warnings that come with it. -/
def answer (c : Call) (output : String) : Answer :=
  match c with
  | list .. => .entries (Entry.readAll output)
  | read .. => .content output
  | write .. => .done
  | edit .. => .done
  | grep .. => .hits (Hit.readAll output)
  | glob .. => .entries (Entry.readAll output)
  | execute .. => .output output (some 0)

/-- The warnings that come with an answer: lines that should be hits and are none. -/
def warnings (c : Call) (output : String) : List Event :=
  match c with
  | grep .. => (Hit.rejects output).map fun (line, e) => .skipped e.message line
  | _ => []

end Call

/-- A sandbox that can be called. -/
structure Sandbox where
  transport : Transport
  deriving DecidableEq, Repr

namespace Sandbox

/-- The address that requests go to. -/
def baseUrl (s : Sandbox) : String := s.transport.baseUrl

/-- Who asks. -/
def identity (s : Sandbox) : Identity := s.transport.identity

/-- Set up a sandbox at the address of its region. -/
def ofConfig (c : Config) : Run ConfigError Sandbox := do
  let (identity, region) ← Run.ofExcept (Identity.ofConfig c)
  Run.log (.created region.code identity.toolId)
  return ⟨.ofAddress region.baseUrl identity⟩

/-- Send the requests to another address; the signatures still name the region. -/
def retarget (s : Sandbox) (baseUrl : String) : Sandbox := ⟨.ofAddress baseUrl s.identity⟩

variable [Url.Names]

/-- Run a script and take what it printed, if it succeeded. -/
def runScript (s : Sandbox) (now : Int) (peer : Peer) (operation : Operation) (script : String) :
    Run FileError String := do
  Run.log (.running operation script.utf8ByteSize)
  let outcome ← (s.transport.run now peer script).mapError (.invoke operation)
  if outcome.succeeded then return outcome.text
  else
    Run.log (.failed operation outcome.exitCode)
    Run.fail (.scriptFailed operation outcome.exitCode outcome.text)

/-- Make a call at a given time through a peer. -/
def call (s : Sandbox) (now : Int) (peer : Peer) (c : Call) : Run FileError Answer := do
  let ps ← Run.ofExcept c.params
  let script ← Run.ofExcept (c.script ps)
  let output ← s.runScript now peer c.operation script
  Run.logAll (c.warnings output)
  return c.answer output

end Sandbox
end RemoteFiles
