/-!
# Gaps in addresses

Tabs and line ends may stand anywhere in an address and do not count.  They are gaps: what they cut
is still one text, except behind a drive in front of a file's path (`Url.cutDrive?`).

## Main definitions

* `Url.isGap` — tabs and line ends.
* `Url.solid` — a text without its gaps.
-/

namespace RemoteFiles
namespace Url

/-- Tabs and line ends. -/
def isGap (c : Char) : Bool := c = '\t' || c = '\n' || c = '\r'

/-- A text without its gaps. -/
def solid (cs : List Char) : List Char := cs.filter (!isGap ·)

@[simp] theorem solid_append (cs ds : List Char) : solid (cs ++ ds) = solid cs ++ solid ds :=
  List.filter_append cs ds

/-- A text without gaps stays as it is. -/
@[simp] theorem solid_solid (cs : List Char) : solid (solid cs) = solid cs := by
  simp [solid, List.filter_filter]

end Url
end RemoteFiles
