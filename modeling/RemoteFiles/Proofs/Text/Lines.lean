import RemoteFiles.Text.Blank

/-!
# Lines

Going through a text line by line, with the carriage return in front of a line feed taken off and no
line after the last line feed, gives the same trimmed lines as cutting the text at every line feed:
a carriage return at the end of a line is blank, and so is a line that is not there.

## Main definitions

* `Text.lines` — the lines of a text.
* `Text.content?` — a line without the blanks around it, if it is not blank.
* `Text.IsFilledLine`, `Text.IsPrinted` — lines without blanks around them, and lines printed one
  after another.
* `Text.IsBetween` — a line between two texts.

## Main results

* `Text.filledLines_eq_lines` — **the filled lines are the trimmed lines that are not empty.**
* `Text.filledLines_append` — **the filled lines of two texts stay apart at a line feed.**
* `Text.IsBetween.filledLines_eq` — the filled lines around a line stay as they are.
* `Text.IsPrinted.filledLines` — **filled lines are found again in what is printed of them.**
-/

namespace RemoteFiles
namespace Text

/-- The lines that are left of a text, where `line` is what has been read of the first of them.  A
line ends at a line feed, with or without a carriage return in front; the last one may end with the
text. -/
def linesFrom (line : List Char) : List Char → List (List Char)
  | [] => if line = [] then [] else [line]
  | '\r' :: '\n' :: cs => line :: linesFrom [] cs
  | '\n' :: cs => line :: linesFrom [] cs
  | c :: cs => linesFrom (line ++ [c]) cs

/-- The lines of a text. -/
def lines (s : String) : List String := (linesFrom [] s.toList).map String.ofList

/-- A line without the blanks at its ends, if anything is left of it. -/
def content? (line : List Char) : Option String :=
  if trimChars line = [] then none else some (String.ofList (trimChars line))

/-! ### Trimming -/

theorem trimFront_nil : trimFront [] = [] := rfl

theorem trimFront_cons_of_blank {c : Char} (cs : List Char) (h : isBlank c = true) :
    trimFront (c :: cs) = trimFront cs := List.dropWhile_cons_of_pos h

@[simp] theorem trimChars_nil : trimChars [] = [] := rfl

/-- A blank at the end of a text is trimmed. -/
theorem trimChars_concat_of_blank (cs : List Char) {c : Char} (h : isBlank c = true) :
    trimChars (cs ++ [c]) = trimChars cs := by
  induction cs with
  | nil => simp [trimChars, trimFront_cons_of_blank, trimFront_nil, h]
  | cons d cs ih =>
    by_cases hd : isBlank d = true
    · unfold trimChars at ih ⊢
      rw [List.cons_append, trimFront_cons_of_blank _ hd, trimFront_cons_of_blank _ hd, ih]
    · -- nothing is dropped at the front
      have hkeep : ∀ ds : List Char, trimFront (d :: ds) = d :: ds :=
        fun ds => List.dropWhile_cons_of_neg hd
      unfold trimChars
      rw [List.cons_append, hkeep, hkeep, ← List.cons_append, List.reverse_append,
        List.reverse_singleton, List.singleton_append, trimFront_cons_of_blank _ h]

theorem content?_nil : content? [] = none := rfl

theorem content?_concat_of_blank (cs : List Char) {c : Char} (h : isBlank c = true) :
    content? (cs ++ [c]) = content? cs := by
  rw [content?, content?, trimChars_concat_of_blank cs h]

/-! ### Filled lines -/

/-- The filled lines are what is left of the pieces between line feeds. -/
theorem filledLines_eq_pieces (s : String) :
    filledLines s = (s.toList.splitOn '\n').filterMap content? := by
  rw [filledLines, List.filter_map, List.map_map, ← List.filterMap_eq_map, List.filterMap_filter]
  refine congrArg (List.filterMap · _) (funext fun piece => ?_)
  by_cases h : trimChars piece = [] <;> simp [content?, h]

/-- **The filled lines of two texts stay apart at a line feed.** -/
theorem filledLines_append (a b : String) :
    filledLines (a ++ "\n" ++ b) = filledLines a ++ filledLines b := by
  have htext : (a ++ "\n" ++ b).toList = a.toList ++ '\n' :: b.toList := by simp
  rw [filledLines_eq_pieces, htext, List.splitOn_append_cons_self, List.filterMap_append,
    ← filledLines_eq_pieces, ← filledLines_eq_pieces]

/-- A line that is filled and has no blanks around it. -/
structure IsFilledLine (line : String) : Prop where
  isLine : '\n' ∉ line.toList
  trimmed : trimChars line.toList = line.toList
  filled : line ≠ ""

/-- A line between two texts: it holds no line feed, and there is one in front of it and one behind
it, unless all the text starts or ends there. -/
structure IsBetween (before line after : String) : Prop where
  isLine : '\n' ∉ line.toList
  starts : before = "" ∨ ∃ text, before = text ++ "\n"
  ends : after = "" ∨ ∃ text, after = "\n" ++ text

/-- Lines printed one after another: with a line feed behind each, or only between them. -/
inductive IsPrinted (lines : List String) : String → Prop where
  | ended : IsPrinted lines (String.join (lines.map (· ++ "\n")))
  | separated : IsPrinted lines ("\n".intercalate lines)

/-- A line between two characters that are not blank has no blanks around it. -/
theorem trimChars_of_ends {c d : Char} (hc : isBlank c = false) (hd : isBlank d = false)
    (cs : List Char) : trimChars (c :: (cs ++ [d])) = c :: (cs ++ [d]) := by
  have hkeep : ∀ {e : Char} (es : List Char), isBlank e = false → trimFront (e :: es) = e :: es :=
    fun es he => List.dropWhile_cons_of_neg (by rw [he]; exact Bool.false_ne_true)
  have hreverse : (c :: (cs ++ [d])).reverse = d :: (c :: cs).reverse := by simp
  rw [trimChars, hkeep _ hc, hreverse, hkeep _ hd, ← hreverse, List.reverse_reverse]

theorem filledLines_nil : filledLines "" = [] := rfl

theorem IsFilledLine.filledLines {line : String} (h : IsFilledLine line) :
    filledLines line = [line] := by
  have hne : trimChars line.toList ≠ [] := by
    rw [h.trimmed, ne_eq, String.toList_eq_nil_iff]
    exact h.filled
  rw [filledLines_eq_pieces, List.splitOn_eq_singleton h.isLine, List.filterMap_cons, content?,
    if_neg hne, h.trimmed, String.ofList_toList]
  rfl

/-- The filled lines around a line stay as they are, and between them is what is left of it. -/
theorem IsBetween.filledLines_eq {before line after : String} (h : IsBetween before line after) :
    filledLines (before ++ line ++ after) =
      filledLines before ++ ((content? line.toList).toList ++ filledLines after) := by
  have hline : filledLines line = (content? line.toList).toList := by
    rw [filledLines_eq_pieces, List.splitOn_eq_singleton h.isLine, List.filterMap_cons]
    cases content? line.toList <;> rfl
  have hbefore : ∀ text, filledLines (before ++ text) = filledLines before ++ filledLines text := by
    intro text
    rcases h.starts with rfl | ⟨start, rfl⟩
    · rw [String.empty_append, filledLines_nil, List.nil_append]
    · have hstart := filledLines_append start ""
      rw [String.append_empty, filledLines_nil, List.append_nil] at hstart
      rw [filledLines_append, hstart]
  have hafter : filledLines (line ++ after) = filledLines line ++ filledLines after := by
    rcases h.ends with rfl | ⟨rest, rfl⟩
    · rw [String.append_empty, filledLines_nil, List.append_nil]
    · have hrest := filledLines_append "" rest
      rw [String.empty_append, filledLines_nil, List.nil_append] at hrest
      rw [← String.append_assoc, filledLines_append, hrest]
  rw [String.append_assoc, hbefore, hafter, hline]

/-- A line that is not blank is the filled line between those around it. -/
theorem IsBetween.filledLines_of_filled {before line after : String}
    (h : IsBetween before line after) (hfilled : trim line ≠ "") :
    Text.filledLines (before ++ line ++ after) =
      Text.filledLines before ++ trim line :: Text.filledLines after := by
  have hcontent : content? line.toList = some (trim line) := by
    have hne : trimChars line.toList ≠ [] := fun heq => hfilled (by rw [trim, heq])
    rw [content?, if_neg hne, trim]
  rw [h.filledLines_eq, hcontent]
  rfl

/-- **Filled lines are found again in what is printed of them.** -/
theorem IsPrinted.filledLines {lines : List String} {text : String} (h : IsPrinted lines text)
    (hlines : ∀ line ∈ lines, IsFilledLine line) : filledLines text = lines := by
  cases h with
  | ended =>
    induction lines with
    | nil => exact filledLines_nil
    | cons line lines ih =>
      rw [List.forall_mem_cons] at hlines
      rw [List.map_cons, String.join_cons, filledLines_append, hlines.1.filledLines, ih hlines.2]
      rfl
  | separated =>
    induction lines with
    | nil => exact filledLines_nil
    | cons line lines ih =>
      rw [List.forall_mem_cons] at hlines
      cases lines with
      | nil => rw [String.intercalate_singleton, hlines.1.filledLines]
      | cons next lines =>
        rw [String.intercalate_cons_cons, filledLines_append, hlines.1.filledLines, ih hlines.2]
        rfl

/-- What is left of the lines is what is left of the pieces between line feeds. -/
theorem filterMap_content?_linesFrom (line cs : List Char) (h : '\n' ∉ line) :
    (linesFrom line cs).filterMap content? = ((line ++ cs).splitOn '\n').filterMap content? := by
  fun_induction linesFrom line cs with
  | case1 => simp [content?_nil]
  | case2 line hline => simp [List.splitOn_eq_singleton h]
  | case3 line cs ih =>
    -- the piece ends with the carriage return, which is blank
    have hpiece : '\n' ∉ line ++ ['\r'] := by simp [h]
    rw [List.append_cons, List.splitOn_append_cons_self_of_not_mem hpiece, List.filterMap_cons,
      List.filterMap_cons, content?_concat_of_blank line (by decide), ih List.not_mem_nil,
      List.nil_append]
  | case4 line cs ih =>
    rw [List.splitOn_append_cons_self_of_not_mem h, List.filterMap_cons, List.filterMap_cons,
      ih List.not_mem_nil, List.nil_append]
  | case5 line c cs hcr hlf ih =>
    have hline : '\n' ∉ line ++ [c] := by
      simp only [List.mem_append, List.mem_singleton, not_or]
      exact ⟨h, fun hc => hlf hc.symm⟩
    rw [ih hline, ← List.append_cons]

/-- **The filled lines are the trimmed lines that are not empty.** -/
theorem filledLines_eq_lines (s : String) :
    filledLines s = ((lines s).map trim).filter (· ≠ "") := by
  rw [filledLines_eq_pieces, ← List.nil_append s.toList,
    ← filterMap_content?_linesFrom [] s.toList List.not_mem_nil, lines, List.map_map,
    List.filter_map, ← List.filterMap_eq_map, List.filterMap_filter]
  refine congrArg (List.filterMap · _) (funext fun line => ?_)
  by_cases h : trimChars line = [] <;> simp [content?, trim, h]

/-- A line may end with a carriage return, and the last line with the text. -/
example : lines "a \r\n\n\tb" = ["a ", "", "\tb"] ∧ filledLines "a \r\n\n\tb" = ["a", "b"] := by
  decide

end Text
end RemoteFiles
