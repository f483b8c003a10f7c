import RemoteFiles.Url.Percent
import RemoteFiles.Url.Scheme

/-!
# Paths of addresses

A path is cut at its slashes, and its dot segments are resolved from the front.  A segment that
names a drive, such as `C:`, is never climbed out of, whatever the scheme; as the first segment of
a file's path it is written with a colon, and the path then belongs to no host.

A gap right behind the colon of such a drive cuts the segment: the drive is one segment and what
comes after the gap another, which is taken as it is, dots and all.  The path is then still that of
its host.

## Main definitions

* `Url.isDrive`, `Url.cutDrive?` — drives, and drives cut off by a gap.
* `Url.Trail` — the part of a path that has been walked.
* `Url.resolved` — the trail of a whole path.
* `Url.pathOf` — the path that a text stands for.
-/

namespace RemoteFiles
namespace Url

/-! ### Segments -/

/-- A segment that stays where it is, in any spelling. -/
def isHere (segment : List Char) : Bool :=
  String.ofList (segment.map Char.toLower) ∈ [".", "%2e"]

/-- A segment that climbs, in any spelling. -/
def isParent (segment : List Char) : Bool :=
  String.ofList (segment.map Char.toLower) ∈ ["..", ".%2e", "%2e.", "%2e%2e"]

/-- Split at the slashes of a style. -/
def segmentsOf (style : Style) (cs : List Char) : List (List Char) := cs.splitOnP style.isSlash

/-- A drive is a letter with a colon or a bar. -/
def isDrive : List Char → Bool
  | [letter, mark] => letter.isAlpha && (mark = ':' || mark = '|')
  | _ => false

/-- A segment that no climb leaves: a drive, with or without a backslash and more after it. -/
def isAnchored : List Char → Bool
  | letter :: mark :: '\\' :: _ => isDrive [letter, mark]
  | segment => isDrive segment

/-- A drive is written with a colon where it is the first segment of a file's path. -/
def asFirst (segment : List Char) : List Char :=
  if isDrive segment then segment.take 1 ++ [':'] else segment

/-- The drive in front of a segment and what comes after it, where a gap stands right behind the
drive's colon and is not the end of the segment. -/
def cutDrive? (segment : List Char) : Option (List Char × List Char) :=
  match segment.dropWhile isGap with
  | [] => none
  | letter :: behind =>
    match behind.dropWhile isGap with
    | ':' :: gap :: more =>
      if letter.isAlpha && isGap gap && solid more ≠ [] then some ([letter, ':'], solid more)
      else none
    | _ => none

/-! ### Trails -/

/-- The part of a path that has been walked. -/
structure Trail where
  /-- The segments so far, the last one first. -/
  kept : List (List Char)
  /-- Whether the walk set out from a drive that is a segment by itself. -/
  fromDrive : Bool

namespace Trail

/-- The trail before the first step. -/
def start : Trail := ⟨[], false⟩

/-- One more segment, as it is. -/
def push (segment : List Char) (trail : Trail) : Trail :=
  { trail with kept := segment :: trail.kept }

/-- Leave the last segment, unless it is a drive. -/
def climb (trail : Trail) : Trail :=
  match trail.kept with
  | [] => trail
  | s :: kept => if isAnchored s then trail else { trail with kept := kept }

/-- The first segment of a file's path. -/
def enter (segment : List Char) (trail : Trail) : Trail :=
  match cutDrive? segment with
  | some (drive, more) => (trail.push drive).push more
  | none => ⟨[asFirst (solid segment)], isDrive (solid segment)⟩

/-- One more segment that is not a dot segment. -/
def keep (style : Style) (segment : List Char) (trail : Trail) : Trail :=
  if style = .file ∧ trail.kept = [] then trail.enter segment else trail.push (solid segment)

/-- Walk on through more segments.  A dot segment at the end leaves an empty segment. -/
def resolve (style : Style) (trail : Trail) : List (List Char) → Trail
  | [] => trail
  | [last] =>
    if isParent (solid last) then trail.climb.push []
    else if isHere (solid last) then trail.push []
    else trail.keep style last
  | s :: more =>
    if isParent (solid s) then resolve style trail.climb more
    else if isHere (solid s) then resolve style trail more
    else resolve style (trail.keep style s) more

/-- The segments as a path, each after a slash. -/
def path (trail : Trail) : List Char :=
  trail.kept.reverse.flatMap fun s => '/' :: escape escapesInPath s

end Trail

/-- The trail of a whole path. -/
def resolved (style : Style) (cs : List Char) : Trail :=
  Trail.start.resolve style (segmentsOf style cs)

/-- The path that a text stands for. -/
def pathOf (style : Style) (cs : List Char) : List Char := (resolved style cs).path

end Url
end RemoteFiles
