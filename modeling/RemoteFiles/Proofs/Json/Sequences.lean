import RemoteFiles.Json.Record
import RemoteFiles.Json.Value
import RemoteFiles.Proofs.Json.Counts
import RemoteFiles.Proofs.Json.Strings

/-!
# Values one after another

What it is for a reader to take a value from its text, and how it does so for values that stand in
a list with commas between them.

## Main definitions

* `Json.Reads` — a reader takes a value from a text, whatever comes after it.
* `Json.StartsValue` — texts that an item of a list can be.
* `Json.separated`, `Json.listText` — texts with commas between them, and those in brackets.

## Main results

* `Json.Reads.decode` — **a value is read from an input that is its text.**
* `Json.reads_text`, `Json.reads_flag`, `Json.reads_count` — strings, truth values and counts.
* `Json.reads_list` — **a list is read when its items are.**
-/

namespace RemoteFiles
namespace Json

variable {α : Type}

/-- A reader takes a value from a text, whatever comes after it; a number has to end there. -/
def Reads (read : Reader α) (text : Input) (a : α) : Prop :=
  ∀ rest, EndsNumber rest → read (text ++ rest) = .ok (a, rest)

/-- A text in front of which there is neither white space nor the end of a list. -/
def StartsValue (text : Input) : Prop :=
  ∃ b s, text = b :: s ∧ isSpace b = false ∧ b ≠ Byte.listClose

/-- No white space is skipped where there is none. -/
theorem skipSpace_cons {b : UInt8} (s : Input) (h : isSpace b = false) :
    skipSpace (b :: s) = b :: s := by
  rw [skipSpace, List.dropWhile_cons_of_neg]
  rw [h]
  exact Bool.false_ne_true

/-- A value is read from an input that is its text. -/
theorem Reads.decode {read : Reader α} {text : Input} {a : α} (h : Reads read text a) :
    decode read text = .ok a := by
  have hread := h [] endsNumber_nil
  rw [List.append_nil] at hread
  unfold Json.decode readOnly
  rw [hread]
  rfl

/-! ### Scalars -/

theorem reads_text (s : String) : Reads readText (Utf8.bytes (quote s)) s := by
  intro rest _
  rw [bytes_quote, List.cons_append, List.append_assoc]
  exact readString_escaped s rest

theorem reads_flag (b : Bool) : Reads readFlag (Utf8.bytes (Value.flag b).chars) b := by
  intro rest _
  cases b <;> rfl

theorem reads_count (n : UInt64) : Reads readCount (Utf8.bytes (Value.count n.toNat).chars) n := by
  intro rest hrest
  have hnumber := readNumber_digitsOf n.toNat_lt hrest
  obtain ⟨b, s, hbytes, hdigit⟩ := exists_bytes_digitsOf n.toNat
  rw [hbytes, List.cons_append] at hnumber
  rw [Value.chars, hbytes, List.cons_append, readCount, skipSpace_cons _ (isSpace_of_isDigit hdigit)]
  dsimp only
  rw [if_pos (Or.inr hdigit), hnumber, UInt64.ofNat_toNat]
  rfl

theorem startsValue_quote (s : String) : StartsValue (Utf8.bytes (quote s)) := by
  rw [bytes_quote]
  exact ⟨Byte.quote, _, rfl, by decide, by decide⟩

/-! ### Texts with commas between them -/

/-- Texts with a comma in front of each. -/
def followed (texts : List Input) : Input := texts.flatMap (Byte.comma :: ·)

/-- Texts with commas between them. -/
def separated : List Input → Input
  | [] => []
  | text :: texts => text ++ followed texts

/-- The text of a list whose items have the given texts. -/
def listText (texts : List Input) : Input :=
  Byte.listOpen :: (separated texts ++ [Byte.listClose])

theorem followed_cons (text : Input) (texts : List Input) :
    followed (text :: texts) = Byte.comma :: (text ++ followed texts) := rfl

theorem length_le_length_followed (texts : List Input) :
    texts.length ≤ (followed texts).length := by
  induction texts with
  | nil => exact Nat.le_refl 0
  | cons text texts ih =>
    rw [followed_cons, List.length_cons, List.length_cons, List.length_append]
    omega

/-- There is a comma for each of some texts, so fuel for every byte is more than enough for them. -/
theorem length_lt_length_followed {β : Type} (text : β → Input) (bs : List β) (rest : Input) :
    bs.length < (followed (bs.map text) ++ rest).length + 1 := by
  have hlength := length_le_length_followed (bs.map text)
  rw [List.length_map] at hlength
  rw [List.length_append]
  omega

/-- No text is longer than all of them with commas between. -/
theorem length_le_length_separated {texts : List Input} {text : Input} (h : text ∈ texts) :
    text.length ≤ (separated texts).length := by
  have hmore : ∀ ts : List Input, text ∈ ts → text.length ≤ (followed ts).length := by
    intro ts hmem
    obtain ⟨front, back, rfl⟩ := List.append_of_mem hmem
    rw [followed, List.flatMap_append, List.flatMap_cons, List.length_append, List.length_append,
      List.length_cons]
    omega
  cases texts with
  | nil => cases h
  | cons t ts =>
    rw [separated, List.length_append]
    rcases List.mem_cons.mp h with rfl | hmem
    · exact Nat.le_add_right _ _
    · have := hmore ts hmem
      omega

theorem joined_cons_cons (p q : List Char) (qs : List (List Char)) :
    Value.joined (p :: q :: qs) = p ++ ',' :: Value.joined (q :: qs) := by
  simp [Value.joined, List.intercalate]

theorem bytes_joined (parts : List (List Char)) :
    Utf8.bytes (Value.joined parts) = separated (parts.map Utf8.bytes) := by
  have hmore : ∀ p ps, Utf8.bytes (Value.joined (p :: ps)) =
      Utf8.bytes p ++ followed (ps.map Utf8.bytes) := by
    intro p ps
    induction ps generalizing p with
    | nil => simp [Value.joined, List.intercalate, followed]
    | cons q qs ih =>
      rw [joined_cons_cons, Utf8.bytes_append, Utf8.bytes_cons, ih]
      rfl
  cases parts with
  | nil => rfl
  | cons p ps => exact hmore p ps

theorem itemChars_eq_map (items : List Value) : Value.itemChars items = items.map Value.chars := by
  induction items with
  | nil => rw [Value.itemChars, List.map_nil]
  | cons v vs ih => rw [Value.itemChars, ih, List.map_cons]

/-- The bytes of a list: those of its items, separated. -/
theorem bytes_list (items : List Value) :
    Utf8.bytes (Value.list items).chars = listText (items.map fun v => Utf8.bytes v.chars) := by
  rw [Value.chars, Utf8.bytes_append, Utf8.bytes_cons, bytes_joined, itemChars_eq_map, List.map_map]
  rfl

/-! ### Lists -/

theorem endsNumber_followed (texts : List Input) {b : UInt8} (rest : Input)
    (h : isDigit b = false ∧ b ≠ Byte.point ∧ b ≠ 0x65 ∧ b ≠ 0x45) :
    EndsNumber (followed texts ++ b :: rest) := by
  cases texts with
  | nil => exact endsNumber_cons rest h
  | cons text texts => exact endsNumber_cons _ (by decide)

theorem readMore_comma (read : Reader α) (fuel : Nat) {b : UInt8} (s : Input)
    (hspace : isSpace b = false) (hclose : b ≠ Byte.listClose) :
    readMore read (fuel + 1) (Byte.comma :: b :: s) = (do
      let (a, s) ← read (b :: s)
      let (as, s) ← readMore read fuel s
      return (a :: as, s)) := by
  rw [readMore, skipSpace_cons (b := Byte.comma) _ (by decide)]
  split
  · next h => cases h
  · next h => exact absurd (List.cons.inj h).1 (by decide)
  · next h =>
    -- after the comma there is an item, and not the end of the list
    obtain ⟨-, rfl⟩ := List.cons.inj h
    rw [skipSpace_cons s hspace]
    split
    · next h => cases h
    · next h => exact absurd (List.cons.inj h).1 hclose
    · next => rfl
  · next hcomma h => exact (hcomma (List.cons.inj h).1.symm).elim

/-- Items with a comma in front of each are read, up to the end of the list.  Each of them uses
up fuel once. -/
theorem readMore_followed {read : Reader α} {text : α → Input} {as : List α}
    (h : ∀ a ∈ as, StartsValue (text a) ∧ Reads read (text a) a) (rest : Input) :
    ∀ {fuel : Nat}, as.length < fuel →
      readMore read fuel (followed (as.map text) ++ Byte.listClose :: rest) = .ok (as, rest) := by
  induction as with
  | nil =>
    intro fuel hfuel
    obtain ⟨fuel, rfl⟩ := Nat.exists_eq_succ_of_ne_zero (Nat.ne_of_gt hfuel)
    rfl
  | cons a as ih =>
    intro fuel hfuel
    obtain ⟨fuel, rfl⟩ := Nat.exists_eq_succ_of_ne_zero (Nat.ne_of_gt (Nat.zero_lt_of_lt hfuel))
    rw [List.forall_mem_cons] at h
    obtain ⟨⟨⟨b, s, htext, hspace, hclose⟩, hread⟩, hrest⟩ := h
    -- what comes after the item is a comma or the closing bracket, so a number ends there
    have hitem := hread (followed (as.map text) ++ Byte.listClose :: rest)
      (endsNumber_followed _ _ (by decide))
    rw [htext, List.cons_append] at hitem
    rw [List.map_cons, followed_cons, List.cons_append, List.append_assoc, htext, List.cons_append,
      readMore_comma read fuel _ hspace hclose, hitem]
    change (readMore read fuel _ >>= _) = _
    rw [ih hrest (Nat.lt_of_succ_lt_succ hfuel)]
    rfl

theorem readList_open (read : Reader α) {b : UInt8} (s : Input)
    (hspace : isSpace b = false) (hclose : b ≠ Byte.listClose) :
    readList read (Byte.listOpen :: b :: s) = (do
      let (a, s) ← read (b :: s)
      let (as, s) ← readMore read (s.length + 1) s
      return (a :: as, s)) := by
  rw [readList, skipSpace_cons (b := Byte.listOpen) _ (by decide)]
  split
  · next h => cases h
  · next h =>
    obtain ⟨-, rfl⟩ := List.cons.inj h
    rw [skipSpace_cons s hspace]
    split
    · next h => cases h
    · next h => exact absurd (List.cons.inj h).1 hclose
    · next => rfl
  · next hopen => exact absurd rfl (hopen _)

/-- **A list is read when its items are.** -/
theorem reads_list {read : Reader α} {text : α → Input} {as : List α}
    (h : ∀ a ∈ as, StartsValue (text a) ∧ Reads read (text a) a) :
    Reads (readList read) (listText (as.map text)) as := by
  intro rest _
  cases as with
  | nil => rfl
  | cons a as =>
    rw [List.forall_mem_cons] at h
    obtain ⟨⟨⟨b, s, htext, hspace, hclose⟩, hread⟩, hrest⟩ := h
    have hitem := hread (followed (as.map text) ++ Byte.listClose :: rest)
      (endsNumber_followed _ _ (by decide))
    rw [htext, List.cons_append] at hitem
    rw [listText, List.map_cons, separated, htext, List.cons_append, List.append_assoc,
      List.append_assoc, List.cons_append, List.singleton_append,
      readList_open read _ hspace hclose, hitem]
    change (readMore read _ _ >>= _) = _
    rw [readMore_followed hrest rest (length_lt_length_followed text as _)]
    rfl

end Json
end RemoteFiles
