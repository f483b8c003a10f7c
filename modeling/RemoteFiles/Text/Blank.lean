/-!
# Blank characters

Which characters count as blank, and text with the blanks at its ends removed.

## Main definitions

* `Text.isBlank` — the Unicode property White_Space.
* `Text.trimChars`, `Text.trim` — a text without the blanks at its two ends.
* `Text.filledLines` — the trimmed lines of a text, blank ones left out.
-/

namespace RemoteFiles
namespace Text

/-- The ranges of the Unicode property White_Space. -/
def blankRanges : List (Nat × Nat) :=
  [(0x09, 0x0d), (0x20, 0x20), (0x85, 0x85), (0xa0, 0xa0), (0x1680, 0x1680), (0x2000, 0x200a),
   (0x2028, 0x2029), (0x202f, 0x202f), (0x205f, 0x205f), (0x3000, 0x3000)]

/-- A character is blank when it has the property White_Space. -/
def isBlank (c : Char) : Bool :=
  blankRanges.any fun r => r.1 ≤ c.toNat && c.toNat ≤ r.2

/-- Drop the blanks at the front. -/
def trimFront (cs : List Char) : List Char := cs.dropWhile isBlank

/-- Drop the blanks at both ends. -/
def trimChars (cs : List Char) : List Char :=
  (trimFront (trimFront cs).reverse).reverse

/-- A text without the blanks at its two ends. -/
def trim (s : String) : String := String.ofList (trimChars s.toList)

/-- The lines of a text, each trimmed, without the blank ones.  A line ends at a line feed or at
the end of the text; a carriage return is a blank and goes with the trimming. -/
def filledLines (s : String) : List String :=
  ((s.toList.splitOn '\n').map trimChars).filter (· ≠ []) |>.map String.ofList

end Text
end RemoteFiles
