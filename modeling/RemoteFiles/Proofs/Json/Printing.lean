import Mathlib.Data.List.Basic
import RemoteFiles.Entry
import RemoteFiles.Proofs.Json.Documents
import RemoteFiles.Proofs.Text.Cut
import RemoteFiles.Proofs.Text.Lines

/-!
# Documents on one line

In the text of a document everything is a mark, a digit, a letter or inside a string, and inside a
string every control character is escaped.  So a document is one line, and a record is a line between
braces, which has no blanks around it.  Records that are read back from their documents are then also
read back from an output that has one of them on each line.

## Main definitions

* `Json.Schema.rewrite` — a record read and written again.
* `Json.Schema.RoundTrips` — records are read back from their documents, which are lines.

## Main results

* `Json.Value.IsExact.visible` — **documents hold no control characters.**
* `Json.Schema.RoundTrips.of_reads` — a kind whose records are read from their texts makes the round
  trip.
* `Json.Schema.RoundTrips.decodeLines_printed` — **printed records are read back line by line.**
-/

namespace RemoteFiles
namespace Json

variable {α δ : Type}

/-! ### No control characters -/

/-- Texts that are given by their characters are looked through. -/
theorem visible_of_all {cs : List Char} (h : cs.all (fun c => 0x20 ≤ c.toNat) = true) :
    ∀ c ∈ cs, 0x20 ≤ c.toNat :=
  fun c hc => of_decide_eq_true (List.all_eq_true.mp h c hc)

/-- Every control character is escaped. -/
theorem visible_escape (c : Char) : ∀ d ∈ escape c, 0x20 ≤ d.toNat := by
  have hdigit : ∀ n < 0x10, 0x20 ≤ (Hex.digit n).toNat := by decide
  -- the branches of `escape` in their order: the letters, a numeric escape, the character itself
  unfold escape
  split
  · exact visible_of_all (by decide)
  split
  · exact visible_of_all (by decide)
  split
  · exact visible_of_all (by decide)
  split
  · exact visible_of_all (by decide)
  split
  · exact visible_of_all (by decide)
  split
  · exact visible_of_all (by decide)
  split
  · exact visible_of_all (by decide)
  split
  · next hcontrol =>
    simp only [List.forall_mem_cons]
    exact ⟨by decide, by decide, by decide, by decide, hdigit _ (by omega), hdigit _ (by omega),
      by simp⟩
  · next hcontrol =>
    rw [List.forall_mem_singleton]
    exact Nat.not_lt.mp hcontrol

theorem visible_quote (s : String) : ∀ c ∈ quote s, 0x20 ≤ c.toNat := by
  intro c hc
  rw [quote, List.mem_append, List.mem_cons, List.mem_flatMap, List.mem_singleton] at hc
  rcases hc with (rfl | ⟨d, _, hc⟩) | rfl
  · decide
  · exact visible_escape d c hc
  · decide

/-- What is put together of texts without control characters has none, except for its marks. -/
theorem visible_joined {parts : List (List Char)}
    (h : ∀ part ∈ parts, ∀ c ∈ part, 0x20 ≤ c.toNat) : ∀ c ∈ Value.joined parts, 0x20 ≤ c.toNat := by
  intro c hc
  rcases mem_intercalate hc with rfl | ⟨part, hpart, hc⟩
  · decide
  · exact h part hpart c hc

/-- **Documents hold no control characters.** -/
theorem Value.IsExact.visible {v : Value} (h : v.IsExact) : ∀ c ∈ v.chars, 0x20 ≤ c.toNat := by
  induction h with
  | null =>
    rw [chars]
    exact visible_of_all (by decide)
  | flag b => cases b <;> rw [chars] <;> exact visible_of_all (by decide)
  | count _ =>
    intro c hc
    rw [chars] at hc
    exact Nat.le_trans (by decide) (Utf8.toNat_of_isDigit (isDigit_of_mem_digitsOf hc)).1
  | text s =>
    rw [chars]
    exact visible_quote s
  | @list items _ ih =>
    have hitems : ∀ part ∈ items.map chars, ∀ c ∈ part, 0x20 ≤ c.toNat := by
      intro part hpart
      obtain ⟨v, hv, rfl⟩ := List.mem_map.mp hpart
      exact ih v hv
    intro c hc
    rw [chars, itemChars_eq_map, List.mem_append, List.mem_cons, List.mem_singleton] at hc
    rcases hc with (rfl | hc) | rfl
    · decide
    · exact visible_joined hitems c hc
    · decide
  | @record members _ ih =>
    have hmembers : ∀ part ∈ members.map fun m => quote m.1 ++ ':' :: m.2.chars,
        ∀ c ∈ part, 0x20 ≤ c.toNat := by
      intro part hpart c hc
      obtain ⟨m, hm, rfl⟩ := List.mem_map.mp hpart
      rw [List.mem_append, List.mem_cons] at hc
      rcases hc with hc | rfl | hc
      · exact visible_quote m.1 c hc
      · decide
      · exact ih m hm c hc
    intro c hc
    rw [chars, memberChars_eq_map, List.mem_append, List.mem_cons, List.mem_singleton] at hc
    rcases hc with (rfl | hc) | rfl
    · decide
    · exact visible_joined hmembers c hc
    · decide

/-- A record is written between braces. -/
theorem Value.toList_write_record (members : List (String × Value)) : ∃ middle : List Char,
    (record members).write.toList = '\x7b' :: (middle ++ ['\x7d']) := by
  refine ⟨joined (memberChars members), ?_⟩
  rw [write, String.toList_ofList, chars]
  rfl

/-! ### Round trips -/

namespace Schema

variable {k : Schema δ α} {toJson : α → Value} {kept : α → Prop}

/-- A record read from an input, and written again. -/
def rewrite (k : Schema δ α) (toJson : α → Value) (input : Input) : Except Error String :=
  (decode k.read input).map fun a => (toJson a).write

/-- Records of a kind, those that are kept at least, are read back from their documents, and the
documents are lines between braces. -/
structure RoundTrips (k : Schema δ α) (toJson : α → Value) (kept : α → Prop) : Prop where
  /-- A record is read back from its document. -/
  decode_write {a : α} (h : kept a) : decode k.read (Utf8.encode (toJson a).write) = .ok a
  /-- A document holds no control characters. -/
  visible {a : α} (h : kept a) : ∀ c ∈ (toJson a).write.toList, 0x20 ≤ c.toNat
  /-- A document starts with a brace and ends with one. -/
  braces {a : α} (h : kept a) : ∃ middle : List Char,
    (toJson a).write.toList = '\x7b' :: (middle ++ ['\x7d'])
  /-- What is read from any input is written to a text that it is read from again, and which is
  written to itself from then on. -/
  stable {input : Input} {a : α} (hread : decode k.read input = .ok a) (h : kept a) :
    ∃ text, k.rewrite toJson input = .ok text ∧ decode k.read (Utf8.encode text) = .ok a ∧
      k.rewrite toJson (Utf8.encode text) = .ok text

/-- A kind whose records are read from their texts makes the round trip. -/
theorem RoundTrips.of_reads (hreads : ∀ a, kept a → Reads k.read (Utf8.bytes (toJson a).chars) a)
    (hrecord : ∀ a, ∃ members, toJson a = .record members)
    (hexact : ∀ a, kept a → (toJson a).IsExact) : k.RoundTrips toJson kept := by
  have hdecode : ∀ {a}, kept a → decode k.read (Utf8.encode (toJson a).write) = .ok a := by
    intro a ha
    rw [Value.write, Utf8.encode_ofList]
    exact (hreads a ha).decode
  refine ⟨hdecode, ?_, ?_, ?_⟩
  · intro a ha
    rw [Value.write, String.toList_ofList]
    exact (hexact a ha).visible
  · intro a _
    obtain ⟨members, hmembers⟩ := hrecord a
    rw [hmembers]
    exact Value.toList_write_record members
  · intro input a hread ha
    refine ⟨(toJson a).write, ?_, hdecode ha, ?_⟩
    · rw [rewrite, hread]
      rfl
    · rw [rewrite, hdecode ha]
      rfl

/-- The document of a record is a line without blanks around it. -/
theorem RoundTrips.isFilledLine (h : k.RoundTrips toJson kept) {a : α} (ha : kept a) :
    Text.IsFilledLine (toJson a).write := by
  obtain ⟨middle, hmiddle⟩ := h.braces ha
  refine ⟨?_, ?_, ?_⟩
  · intro hmem
    exact absurd (h.visible ha _ hmem) (by decide)
  · rw [hmiddle]
    exact Text.trimChars_of_ends (by decide) (by decide) middle
  · intro hempty
    rw [hempty] at hmiddle
    cases hmiddle

/-- The lines of an output that is printed of records are their documents. -/
theorem RoundTrips.filledLines_printed (h : k.RoundTrips toJson kept) {as : List α}
    (has : ∀ a ∈ as, kept a) {output : String}
    (houtput : Text.IsPrinted (as.map fun a => (toJson a).write) output) :
    Text.filledLines output = as.map fun a => (toJson a).write := by
  refine houtput.filledLines fun line hline => ?_
  obtain ⟨a, ha, rfl⟩ := List.mem_map.mp hline
  exact h.isFilledLine (has a ha)

/-- **Printed records are read back line by line.** -/
theorem RoundTrips.decodeLines_printed (h : k.RoundTrips toJson kept) {as : List α}
    (has : ∀ a ∈ as, kept a) {output : String}
    (houtput : Text.IsPrinted (as.map fun a => (toJson a).write) output) :
    decodeLines k output = as := by
  have hline : ∀ a ∈ as, (decodeLine k (toJson a).write).toOption = some a := by
    intro a ha
    rw [decodeLine, h.decode_write (has a ha)]
    rfl
  rw [decodeLines, h.filledLines_printed has houtput, List.filterMap_map]
  exact (List.filterMap_congr hline).trans List.filterMap_some

end Schema
end Json
end RemoteFiles
