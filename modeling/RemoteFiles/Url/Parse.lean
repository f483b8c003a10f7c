import RemoteFiles.Url.Host
import RemoteFiles.Url.Path

/-!
# Addresses

Absolute addresses read from text the way browsers read them: blanks around are dropped, gaps
inside too, the host is normalized, a port that is the scheme's own is left out, and dot segments of
the path are resolved.  A user and a password may stand in front of the host, before an at sign; a
client that goes to an address takes them off and shows them in a header of its own.

## Main definitions

* `Url` — an address in its parts.
* `Url.text` — the address as text.
* `Url.parse` — the address that a text stands for.
* `Url.credentials?`, `Url.bare` — what a client takes off an address, and what it leaves.
-/

namespace RemoteFiles

/-- An address in its parts, each normalized. -/
structure Url where
  scheme : List Char
  /-- The host; empty where an address has an authority without one. -/
  host : Option (List Char)
  port : Option Nat
  path : List Char
  query : Option (List Char)
  fragment : Option (List Char)
  /-- The user, and the password behind a colon if it is not empty, both escaped. -/
  user : List Char := []
  deriving DecidableEq, Repr

namespace Url

/-- The host, if there is one to go to. -/
def hostName? (u : Url) : Option (List Char) := u.host.filter (· ≠ [])

/-- The host and the port. -/
def authority (u : Url) : List Char :=
  u.host.getD [] ++ (match u.port with
    | some n => ':' :: Nat.toDigits 10 n
    | none => [])

/-- An address up to its path.  A path that starts with two slashes and follows no authority is
kept apart by a dot segment. -/
def upToPath (u : Url) : List Char :=
  u.scheme ++ ':' ::
    (match u.host with
      | some _ => ['/', '/'] ++ (if u.user = [] then [] else u.user ++ ['@']) ++ u.authority
      | none => if ['/', '/'].isPrefixOf u.path then ['/', '.'] else []) ++ u.path

/-- An address up to its query. -/
def upToQuery (u : Url) : List Char :=
  u.upToPath ++ (match u.query with
    | some q => '?' :: q
    | none => [])

/-- The address as text. -/
def text (u : Url) : String :=
  String.ofList (u.upToQuery ++ (match u.fragment with
    | some f => '#' :: f
    | none => []))

/-! ### Users -/

/-- The user and the password of an address, escapes undone, where they are text and not both
missing. -/
def credentials? (u : Url) : Option (String × Option String) := do
  let plain (cs : List Char) : Option String :=
    Utf8.decode? (unescape (Utf8.encode (String.ofList cs)))
  let name ← plain (u.user.takeWhile (· ≠ ':'))
  let password := match u.user.dropWhile (· ≠ ':') with
    | [] => none
    | _ :: cs => plain cs
  if name = "" ∧ password = none then none else some (name, password)

/-- An address as a client goes there: without the user and the password that it takes off. -/
def bare (u : Url) : Url := if u.credentials?.isSome then { u with user := [] } else u

/-- The user is all that a client takes off. -/
theorem bare_with_user (u : Url) : { u.bare with user := u.user } = u := by
  unfold bare
  split <;> rfl

theorem authority_bare (u : Url) : u.bare.authority = u.authority := by
  unfold bare
  split <;> rfl

/-- An address without a user is left as it is. -/
theorem bare_of_user_eq_nil {u : Url} (h : u.user = []) : u.bare = u := by
  obtain ⟨scheme, host, port, path, query, fragment, user⟩ := u
  obtain rfl : user = [] := h
  unfold bare
  split <;> rfl

/-- A user and a password as they stand in an address: both escaped, and a colon between them where
the password is not empty. -/
def userChars (cs : List Char) : List Char :=
  escape escapesInUser (cs.takeWhile (· ≠ ':')) ++
    match cs.dropWhile (· ≠ ':') with
    | _ :: c :: password => ':' :: escape escapesInUser (c :: password)
    | _ => []

/-- A character that ends the authority. -/
def Style.endsAuthority (style : Style) (c : Char) : Bool :=
  style.isSlash c || c = '?' || c = '#'

/-- The user in front of the last at sign of the authority, and what comes after that.  An at sign
at the front stands for no user, but then a host has to follow. -/
def readUser (style : Style) (cs : List Char) : Except Fault (List Char × List Char) :=
  let authority := cs.takeWhile (!style.endsAuthority ·)
  let host := (authority.reverse.takeWhile (· ≠ '@')).reverse
  let rest := cs.dropWhile (!style.endsAuthority ·)
  match (authority.reverse.dropWhile (· ≠ '@')).reverse with
  | [] => .ok ([], cs)
  | ['@'] => if host = [] ∧ rest ≠ [] then .error .emptyHost else .ok ([], host ++ rest)
  | front => .ok (userChars front.dropLast, host ++ rest)

/-! ### Authorities -/

/-- Where the host ends: at a colon outside brackets, or where the authority does. -/
def hostLength (style : Style) : Bool → List Char → Nat
  | _, [] => 0
  | bracketed, c :: cs =>
    if (c = ':' && !bracketed) || style.isSlash c || c = '?' || c = '#' then 0
    else hostLength style (if c = '[' then true else if c = ']' then false else bracketed) cs + 1

/-- The port after a colon: digits up to where the authority ends. -/
def readPort (own : Option Nat) (cs : List Char) : Except Fault (Option Nat × List Char) :=
  let digits := cs.takeWhile Char.isDigit
  let rest := cs.dropWhile Char.isDigit
  match number? 10 digits with
  | none => .error .invalidPort
  | some n =>
    if 65535 < n ∨ !(rest.head?.all (· ∈ ['/', '\\', '?', '#'])) then .error .invalidPort
    else .ok (if digits = [] ∨ own = some n then none else some n, rest)

variable [Names]

/-- The host and the port, and what comes after them. -/
def readAuthority (style : Style) (cs : List Char) :
    Except Fault (List Char × Option Nat × List Char) := do
  let length := hostLength style false cs
  let spelled := cs.take length
  let rest := cs.drop length
  let host ← match style with
    | .other => readLooseHost spelled
    | _ => if spelled = [] then .error .emptyHost else readHost spelled
  if host = [] ∧ rest.head? = some ':' then .error .emptyHost
  match rest with
  | ':' :: rest =>
    let own := match style with
      | .hosted port => some port
      | _ => none
    let (port, rest) ← readPort own rest
    return (host, port, rest)
  | rest => return (host, none, rest)

/-! ### Addresses -/

/-- What may still come after the authority. -/
structure Tail where
  path : List Char
  query : Option (List Char)
  fragment : Option (List Char)

/-- Split what comes after the authority.  The path keeps its gaps. -/
def splitTail (cs : List Char) : Tail :=
  let path := cs.takeWhile fun c => c ≠ '?' && c ≠ '#'
  match cs.dropWhile fun c => c ≠ '?' && c ≠ '#' with
  | '?' :: rest =>
    let query := rest.takeWhile (· ≠ '#')
    match rest.dropWhile (· ≠ '#') with
    | [] => ⟨path, some query, none⟩
    | _ :: fragment => ⟨path, some query, some fragment⟩
  | _ :: fragment => ⟨path, none, some fragment⟩
  | [] => ⟨path, none, none⟩

/-- An address with a given path and the query and fragment of a tail. -/
def assemble (scheme : List Char) (style : Style) (host : Option (List Char)) (port : Option Nat)
    (path : List Char) (tail : Tail) : Url where
  scheme := scheme
  host := host
  port := port
  path := path
  query := tail.query.map fun q => escape (escapesInQuery style.isSpecial) (solid q)
  fragment := tail.fragment.map fun f => escape escapesInFragment (solid f)

/-- Read what comes after the colon of a scheme with a host. -/
def readHosted (scheme : List Char) (style : Style) (cs : List Char) : Except Fault Url := do
  let (user, rest) ← readUser style (cs.dropWhile style.isSlash)
  let (host, port, rest) ← readAuthority style rest
  let tail := splitTail rest
  let path := pathOf style (style.dropSlash tail.path)
  return { assemble scheme style (some host) port path tail with user := user }

/-- The host of a file and what comes after it, given what comes after two slashes.  A drive in the
place of a host belongs to the path, and the local host is left out; without a host the slash in
front of the path is read as a segment of its own, an empty one. -/
def readFileHost (cs : List Char) : Except Fault (List Char × List Char) :=
  let spelled := solid (cs.takeWhile (!Style.file.endsAuthority ·))
  let rest := cs.dropWhile (!Style.file.endsAuthority ·)
  if isDrive spelled then .ok ([], cs)
  else if spelled = [] then .ok ([], rest)
  else do
    let host ← readHost spelled
    if host = "localhost".toList then return ([], rest)
    return (host, Style.file.dropSlash rest)

/-- Read what comes after the colon of the scheme of files, gaps and all: a host after two slashes,
otherwise a path.  A path that starts with a drive belongs to no host, and empty segments in front
are dropped. -/
def readFile (scheme : List Char) (cs : List Char) : Except Fault Url := do
  let (host, rest) ←
    match (Style.file.afterSlash? cs).bind Style.file.afterSlash? with
    | some rest => readFileHost rest
    | none => .ok ([], Style.file.dropSlash cs)
  let tail := splitTail rest
  let trail := resolved .file tail.path
  let host := if trail.fromDrive then [] else host
  let path := '/' :: trail.path.dropWhile (· = '/')
  return assemble scheme .file (some host) none path tail

/-- Read what comes after the colon of any other scheme: an authority after two slashes, a path
after one, and anything else as it is.  Behind a user there has to be a host. -/
def readOther (scheme : List Char) : List Char → Except Fault Url
  | '/' :: '/' :: cs => do
    let (user, rest) ← readUser .other cs
    let (host, port, rest) ← readAuthority .other rest
    if host = [] ∧ user ≠ [] then .error .emptyHost
    let tail := splitTail rest
    let path := if tail.path = [] then [] else pathOf .other (Style.other.dropSlash tail.path)
    return { assemble scheme .other (some host) port path tail with user := user }
  | '/' :: cs =>
    let tail := splitTail cs
    .ok (assemble scheme .other none none (pathOf .other tail.path) tail)
  | cs =>
    let tail := splitTail cs
    .ok (assemble scheme .other none none (escape isControl tail.path) tail)

/-- Drop blanks and controls at both ends. -/
def trimEnds (cs : List Char) : List Char :=
  let trimFront := List.dropWhile fun c : Char => c.toNat ≤ 0x20
  (trimFront (trimFront cs).reverse).reverse

/-- The address that a text stands for. -/
def parse (s : String) : Except Fault Url :=
  match splitScheme (trimEnds s.toList) with
  | none => .error .relative
  | some (scheme, rest) =>
    match styleOf scheme with
    | .hosted port => readHosted scheme (.hosted port) (solid rest)
    | .file => readFile scheme rest
    | .other => readOther scheme (solid rest)

end Url
end RemoteFiles
