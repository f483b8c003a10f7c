/-!
# Paths

Slash-separated paths of the sandbox, cleaned by their text alone: no file is looked at.

## Main definitions

* `Path.push` — one component on top of the names kept so far.
* `Path.cleanChars`, `Path.clean` — the cleaned text of a path.
* `Path.resolve` — a path cleaned, with a default for the empty one.
-/

namespace RemoteFiles
namespace Path

/-- A component of a path. -/
abbrev Name := List Char

/-- The component that stays where it is. -/
def here : Name := ['.']

/-- The component that climbs. -/
def parent : Name := ['.', '.']

/-- Go up from the names kept so far, innermost first.  At the root there is nothing above; in a
relative path a climb above its start is kept. -/
def climb (rooted : Bool) : List Name → List Name
  | [] => if rooted then [] else [parent]
  | last :: rest =>
    if last ≠ parent then rest else if rooted then last :: rest else parent :: last :: rest

/-- One component on top of the names kept so far, innermost first. -/
def push (rooted : Bool) (names : List Name) (part : Name) : List Name :=
  if part = [] ∨ part = here then names
  else if part = parent then climb rooted names
  else part :: names

/-- The names that a path comes down to, outermost first. -/
def names (p : List Char) : List Name :=
  ((p.splitOn '/').foldl (push (p.head? = some '/')) []).reverse

/-- The names of a path, joined again. -/
def joined (names : List Name) : List Char := ['/'].intercalate names

/-- A path without empty, `.` and avoidable `..` components.  One that comes down to nothing is
the root or `.`. -/
def cleanChars (p : List Char) : List Char :=
  let body := joined (names p)
  if p.head? = some '/' then '/' :: body
  else if body = [] then here
  else body

/-- The cleaned text of a path. -/
def clean (p : String) : String := String.ofList (cleanChars p.toList)

/-- Whether a path starts at the root. -/
def isAbsolute (p : String) : Bool := p.toList.head? = some '/'

/-- The path that a request means: the default in place of an empty one, cleaned. -/
def orDefault (path fallback : String) : String :=
  if path = "" ∧ fallback ≠ "" then fallback else path

/-- Clean a path, with a default for the empty one.  Where an absolute path is called for, the
cleaned text of a relative one is the error. -/
def resolve (path fallback : String) (absolute : Bool) : Except String String :=
  let cleaned := clean (orDefault path fallback)
  if absolute && !isAbsolute cleaned then .error cleaned else .ok cleaned

end Path
end RemoteFiles
