import RemoteFiles.Url.Gap

/-!
# Schemes

What stands in front of the first colon of an address, and how the rest is read because of it.

## Main definitions

* `Url.Style`, `Url.styleOf` — how an address with a given scheme is read.
* `Url.Style.isSlash`, `Url.Style.dropSlash` — the slashes of a style.
* `Url.splitScheme` — the scheme of an address and what comes after it.
-/

namespace RemoteFiles
namespace Url

/-- How an address with a given scheme is read. -/
inductive Style where
  /-- A scheme that always has a host, and its own port. -/
  | hosted (port : Nat)
  /-- The scheme of local files. -/
  | file
  /-- Any other scheme. -/
  | other
  deriving DecidableEq, Repr

/-- The style of a scheme. -/
def styleOf (scheme : List Char) : Style :=
  match String.ofList scheme with
  | "http" => .hosted 80
  | "https" => .hosted 443
  | "ws" => .hosted 80
  | "wss" => .hosted 443
  | "ftp" => .hosted 21
  | "file" => .file
  | _ => .other

/-- In addresses of a special scheme a backslash is as good as a slash. -/
def Style.isSpecial (style : Style) : Bool := style ≠ .other

/-- A slash of the style. -/
def Style.isSlash (style : Style) (c : Char) : Bool := c = '/' || (style.isSpecial && c = '\\')

/-- What comes after a slash, where a text starts with one behind its gaps. -/
def Style.afterSlash? (style : Style) (cs : List Char) : Option (List Char) :=
  match cs.dropWhile isGap with
  | [] => none
  | c :: rest => if style.isSlash c then some rest else none

/-- Drop one slash at the front. -/
def Style.dropSlash (style : Style) (cs : List Char) : List Char := (style.afterSlash? cs).getD cs

/-- The scheme in front of the first colon, in lower case, and what comes after the colon, gaps and
all. -/
def splitScheme (cs : List Char) : Option (List Char × List Char) :=
  let front := solid (cs.takeWhile (· ≠ ':'))
  match cs.dropWhile (· ≠ ':') with
  | [] => none
  | _ :: rest =>
    if (front.head?.any Char.isAlpha) &&
        front.all (fun c => c.isAlphanum || c = '+' || c = '-' || c = '.') then
      some (front.map Char.toLower, rest)
    else none

end Url
end RemoteFiles
