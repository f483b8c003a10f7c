import RemoteFiles.Url.Percent

/-!
# Hosts

The host of an address: a name, or an address of version four or six in one of its spellings.

A name of ASCII is put in lower case.  One with characters beyond ASCII is written in ASCII, and one
with a label that is written so already is checked.  Which characters may stand in such a name, and
for what, is in the tables of a library, so what that makes of the name is a parameter, `Url.Names`,
about which nothing is assumed.

## Main definitions

* `Url.Fault` — why an address cannot be read.
* `Url.ipv4?`, `Url.ipv6?` — numeric hosts.
* `Url.Names` — what names are in ASCII that are not plain.
* `Url.readHost`, `Url.readLooseHost` — the host of an address with a special scheme, and with any
  other.
-/

namespace RemoteFiles
namespace Url

/-- Why an address cannot be read. -/
inductive Fault where
  | relative
  | emptyHost
  | invalidPort
  | invalidIpv4
  | invalidIpv6
  | invalidName
  | invalidCharacter
  deriving DecidableEq, Repr

/-- What is wrong with the address. -/
def Fault.message : Fault → String
  | relative => "relative URL without a base"
  | emptyHost => "empty host"
  | invalidPort => "invalid port number"
  | invalidIpv4 => "invalid IPv4 address"
  | invalidIpv6 => "invalid IPv6 address"
  | invalidName => "invalid international domain name"
  | invalidCharacter => "invalid domain character"

/-- The number that digits stand for, if all of them are digits below the base. -/
def number? (base : Nat) (cs : List Char) : Option Nat :=
  cs.foldl (fun n c => do
    let n ← n
    let d ← Hex.value? c.toNat
    if d < base then some (n * base + d) else none) (some 0)

/-! ### Version four -/

/-- A part of a numeric host: hexadecimal after `0x`, octal after `0`, decimal otherwise. -/
def ipv4Part? : List Char → Option Nat
  | [] => none
  | '0' :: 'x' :: cs => number? 16 cs
  | '0' :: 'X' :: cs => number? 16 cs
  | '0' :: c :: cs => number? 8 (c :: cs)
  | cs => number? 10 cs

/-- The parts of a host between dots, without an empty one at the end. -/
def dotted (cs : List Char) : List (List Char) :=
  let parts := cs.splitOn '.'
  if parts.getLast? = some [] ∧ parts.length ≠ 1 then parts.dropLast else parts

/-- A host is numeric when its last part is a number, or at least is all digits. -/
def endsInNumber (cs : List Char) : Bool :=
  match (dotted cs).getLast? with
  | some last => (last ≠ [] && last.all Char.isDigit) || (ipv4Part? last).isSome
  | none => false

/-- The address of a numeric host: at most four parts, each but the last below 256, the last taking
all the bytes that are left. -/
def ipv4? (cs : List Char) : Option Nat := do
  let parts ← (dotted cs).mapM ipv4Part?
  let last ← parts.getLast?
  let front := parts.dropLast
  if 4 < parts.length ∨ front.any (255 < ·) ∨ Nat.pow 256 (4 - front.length) ≤ last then none
  else some (front.foldl (fun n x => n * 256 + x) 0 * Nat.pow 256 (4 - front.length) + last)

/-- An address of version four, four decimal parts. -/
def ipv4Chars (n : Nat) : List Char :=
  ['.'].intercalate ([n / 16777216 % 256, n / 65536 % 256, n / 256 % 256, n % 256].map
    (Nat.toDigits 10))

/-! ### Version six -/

/-- A decimal part at the end of an address of version six: no zero in front, below 256. -/
def octet? (cs : List Char) : Option Nat := do
  let n ← number? 10 cs
  if cs = [] ∨ 255 < n ∨ (cs.head? = some '0' ∧ cs.length ≠ 1) then none else some n

/-- One group of hexadecimal digits. -/
def group? (cs : List Char) : Option Nat :=
  if cs = [] ∨ 4 < cs.length then none else number? 16 cs

/-- The groups of a part of an address; the last may be four decimal parts, which make two. -/
def groups? : List (List Char) → Option (List Nat)
  | [] => some []
  | [last] =>
    if '.' ∈ last then do
      match ← (last.splitOn '.').mapM octet? with
      | [a, b, c, d] => some [a * 256 + b, c * 256 + d]
      | _ => none
    else (group? last).map ([·])
  | g :: gs => do
    let x ← group? g
    let xs ← groups? gs
    some (x :: xs)

/-- The groups of a text between colons; the empty text has none. -/
def groupsOf? (cs : List Char) : Option (List Nat) :=
  if cs = [] then some [] else groups? (cs.splitOn ':')

/-- Split at the first double colon. -/
def atDoubleColon : List Char → Option (List Char × List Char)
  | ':' :: ':' :: cs => some ([], cs)
  | c :: cs => (atDoubleColon cs).map fun (front, back) => (c :: front, back)
  | [] => none

/-- The eight groups of an address of version six; a double colon stands for as many zero groups as
are missing, at least one. -/
def ipv6? (cs : List Char) : Option (List Nat) :=
  match atDoubleColon cs with
  | none => do
    let xs ← groupsOf? cs
    if xs.length = 8 then some xs else none
  | some (front, back) => do
    if '.' ∈ front then none
    let xs ← groupsOf? front
    let ys ← groupsOf? back
    if xs.length + ys.length ≤ 7 then
      some (xs ++ List.replicate (8 - xs.length - ys.length) 0 ++ ys)
    else none

/-- The number of zeros at the front. -/
def zeros (xs : List Nat) : Nat := (xs.takeWhile (· = 0)).length

/-- The place of the first of the longest runs of zeros, and its length. -/
def longestZeros : List Nat → Nat × Nat
  | [] => (0, 0)
  | x :: xs =>
    let (place, length) := longestZeros xs
    let run := zeros (x :: xs)
    if run = 0 ∨ run < length then (place + 1, length) else (0, run)

/-- Groups with colons between them. -/
def groupsText (xs : List Nat) : List Char := [':'].intercalate (xs.map Hex.ofNat)

/-- An address of version six in brackets, its first longest run of two or more zero groups as a
double colon. -/
def ipv6Chars (xs : List Nat) : List Char :=
  let (place, length) := longestZeros xs
  let text :=
    if length < 2 then groupsText xs
    else groupsText (xs.take place) ++ [':', ':'] ++ groupsText (xs.drop (place + length))
  '[' :: text ++ [']']

/-- A host in brackets. -/
def readBracketed (cs : List Char) : Except Fault (List Char) :=
  if cs.getLast? ≠ some ']' then .error .invalidIpv6
  else match ipv6? (cs.drop 1).dropLast with
    | some xs => .ok (ipv6Chars xs)
    | none => .error .invalidIpv6

/-! ### Names -/

/-- Characters that no name may hold: controls, blanks and the marks of addresses. -/
def isForbidden (c : Char) : Bool :=
  c.toNat < 0x21 || c.toNat = 0x7f ||
    c ∈ ['#', '%', '/', ':', '<', '>', '?', '@', '[', '\\', ']', '^', '|']

/-- A name of ASCII in lower case. -/
def lowerName? (name : String) : Option String :=
  let lower := name.toList.map Char.toLower
  if lower.any fun c => isForbidden c || 0x7f < c.toNat then none else some (String.ofList lower)

/-- A name has a label that is written in ASCII for characters beyond it. -/
def isEncodedName (name : String) : Bool :=
  ((name.toList.map Char.toLower).splitOn '.').any ("xn--".toList.isPrefixOf ·)

/-- What names are in ASCII that are not plain. -/
class Names where
  /-- The ASCII form of a name with characters beyond ASCII or with a label that is written in ASCII
  for such characters, if it has one. -/
  toAscii : String → Option String

/-- Where no library is at hand, names of ASCII are taken as they are, and no others. -/
instance (priority := low) asciiNames : Names := ⟨lowerName?⟩

variable [Names]

/-- The ASCII form of a name, if it has one. -/
def asciiName? (name : String) : Option String :=
  if name.toList.any (0x7f < ·.toNat) || isEncodedName name then Names.toAscii name
  else lowerName? name

/-- The host of an address with a special scheme: in brackets, numeric, or a name, in its ASCII
form. -/
def readHost (cs : List Char) : Except Fault (List Char) :=
  if cs.head? = some '[' then readBracketed cs
  else match (Utf8.decode? (unescape (Utf8.encode (String.ofList cs)))).bind asciiName? with
    | none => .error .invalidName
    | some ascii =>
      let name := ascii.toList
      if name = [] then .error .emptyHost
      else if endsInNumber name then
        match ipv4? name with
        | some n => .ok (ipv4Chars n)
        | none => .error .invalidIpv4
      else .ok name

/-- The host of an address with any other scheme, which may be empty and keeps its spelling. -/
def readLooseHost (cs : List Char) : Except Fault (List Char) :=
  if cs.head? = some '[' then readBracketed cs
  else if cs.any fun c => c ≠ '%' && c ∈ ['\x00', '\t', '\n', '\r', ' ', '#', '/', ':', '<', '>',
      '?', '@', '[', '\\', ']', '^', '|'] then .error .invalidCharacter
  else .ok (escape isControl cs)

end Url
end RemoteFiles
