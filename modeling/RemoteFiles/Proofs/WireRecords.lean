import RemoteFiles.Entry
import RemoteFiles.Outcome
import RemoteFiles.Proofs.Json.Accuracy
import RemoteFiles.Proofs.Json.Tokens

/-!
# The records on the wire

Entries and hits, envelopes and executions: the fields that they have, the forms of those, and what
a record comes to when some of them are missing.  Each kind is decoded by its known members alone.
The time of an entry is the one field whose values are rounded when they are read.

## Main definitions

* `Entry.slots`, `Hit.slots`, `Envelope.slots`, `Execution.slots` — the fields of the four kinds.
* `Entry.ofDraft`, `Hit.ofDraft`, `Envelope.ofDraft`, `Execution.ofDraft` — what a record comes to,
  by the fields that are given.
* `Output.form`, `Envelope.resultForm`, `Execution.dataForm` — the records inside.
* `Entry.TimesDecoded` — which numbers are times, and how exactly they are read.

## Main results

* `decoded_by_known_members` — **the four kinds are decoded by their known members alone.**
-/

namespace RemoteFiles

open Json Binary64

/-! ### Lines of output -/

namespace Entry

/-- The fields of entries. -/
def slots : List (Slot Draft) :=
  [⟨String, "path", (·.path), .text⟩, ⟨Bool, "is_dir", (·.isDirectory), .flag⟩,
    ⟨UInt64, "size", (·.size), .count⟩, ⟨Option Float, "mtime", (·.modified), .realOrNull⟩]

/-- The entry that some fields come to: without a path there is none. -/
def ofDraft (d : Draft) : Option Entry :=
  d.path.map fun path => ⟨path, d.isDirectory.getD false, d.size.getD 0, d.modified.getD none⟩

theorem follows : schema.Follows slots where
  names := rfl
  nodup := by decide
  serves := by
    simp only [slots, List.forall_mem_cons]
    refine ⟨⟨_, rfl, .of readBy_text (fun _ _ => rfl) ?_⟩,
      ⟨_, rfl, .of readBy_flag (fun _ _ => rfl) ?_⟩,
      ⟨_, rfl, .of readBy_count (fun _ _ => rfl) ?_⟩,
      ⟨_, rfl, .of readBy_realOrNull (fun _ _ => rfl) ?_⟩, ?_⟩
    all_goals simp
  blank := by simp [slots, schema]
  ext := by
    rintro ⟨⟩ ⟨⟩ h
    simpa [slots] using h

/-- Entries are read by their fields. -/
theorem readBy : (Form.record slots ofDraft).ReadBy schema.read := by
  refine follows.readBy fun d e h => ?_
  obtain ⟨path, hpath, rfl⟩ := Option.map_eq_some_iff.mp h
  simp [schema, hpath]

end Entry

namespace Hit

/-- The fields of hits. -/
def slots : List (Slot Draft) :=
  [⟨String, "Path", (·.path), .text⟩, ⟨UInt64, "Line", (·.line), .count⟩,
    ⟨String, "Content", (·.content), .text⟩]

/-- The hit that some fields come to: it takes all of them. -/
def ofDraft (d : Draft) : Option Hit := do
  return ⟨← d.path, ← d.line, ← d.content⟩

theorem follows : schema.Follows slots where
  names := rfl
  nodup := by decide
  serves := by
    simp only [slots, List.forall_mem_cons]
    refine ⟨⟨_, rfl, .of readBy_text (fun _ _ => rfl) ?_⟩,
      ⟨_, rfl, .of readBy_count (fun _ _ => rfl) ?_⟩,
      ⟨_, rfl, .of readBy_text (fun _ _ => rfl) ?_⟩, ?_⟩
    all_goals simp
  blank := by simp [slots, schema]
  ext := by
    rintro ⟨⟩ ⟨⟩ h
    simpa [slots] using h

/-- Hits are read by their fields. -/
theorem readBy : (Form.record slots ofDraft).ReadBy schema.read := by
  refine follows.readBy fun d a h => ?_
  obtain ⟨path, hpath, h⟩ := Option.bind_eq_some_iff.mp h
  obtain ⟨line, hline, h⟩ := Option.bind_eq_some_iff.mp h
  obtain ⟨content, hcontent, h⟩ := Option.bind_eq_some_iff.mp h
  cases h
  simp [schema, hpath, hline, hcontent]

end Hit

/-! ### Envelopes -/

namespace Envelope

/-- The fields of the record inside an envelope. -/
def resultSlots : List (Slot (Option String)) := [⟨String, "result", id, .text⟩]

/-- The record inside an envelope, whose text is empty if it is not given. -/
def resultForm : Form String := .record resultSlots fun d => some (d.getD "")

/-- The fields of envelopes. -/
def slots : List (Slot (Option String)) := [⟨String, "result", id, resultForm⟩]

/-- The envelope that its field comes to, without which the text is empty. -/
def ofDraft (d : Option String) : Option Envelope := some ⟨d.getD ""⟩

theorem follows_result : resultSchema.Follows resultSlots where
  names := rfl
  nodup := by decide
  serves := by
    simp only [resultSlots, List.forall_mem_singleton]
    exact ⟨_, rfl, .of readBy_text (fun _ _ => rfl) (by simp)⟩
  blank := by simp [resultSlots, resultSchema]
  ext := by simp [resultSlots]

theorem readBy_result : resultForm.ReadBy resultSchema.read :=
  follows_result.readBy fun _ _ h => congrArg Except.ok (Option.some.inj h)

theorem follows : schema.Follows slots where
  names := rfl
  nodup := by decide
  serves := by
    simp only [slots, List.forall_mem_singleton]
    exact ⟨_, rfl, .of readBy_result (fun _ _ => rfl) (by simp)⟩
  blank := by simp [slots, schema]
  ext := by simp [slots]

/-- Envelopes are read by their fields. -/
theorem readBy : (Form.record slots ofDraft).ReadBy schema.read :=
  follows.readBy fun _ _ h => congrArg Except.ok (Option.some.inj h)

end Envelope

/-! ### Executions -/

namespace Output

/-- The fields of outputs. -/
def slots : List (Slot Draft) :=
  [⟨String, "output_type", (·.kind), .text⟩, ⟨String, "text", (·.text), .text⟩,
    ⟨String, "ename", (·.exception), .text⟩, ⟨String, "evalue", (·.reason), .text⟩]

/-- Outputs, of which any text may be missing. -/
def form : Form Output := .record slots fun d =>
  some ⟨d.kind.getD "", d.text.getD "", d.exception.getD "", d.reason.getD ""⟩

theorem follows : schema.Follows slots where
  names := rfl
  nodup := by decide
  serves := by
    simp only [slots, List.forall_mem_cons]
    refine ⟨⟨_, rfl, .of readBy_text (fun _ _ => rfl) ?_⟩,
      ⟨_, rfl, .of readBy_text (fun _ _ => rfl) ?_⟩,
      ⟨_, rfl, .of readBy_text (fun _ _ => rfl) ?_⟩,
      ⟨_, rfl, .of readBy_text (fun _ _ => rfl) ?_⟩, ?_⟩
    all_goals simp
  blank := by simp [slots, schema]
  ext := by
    rintro ⟨⟩ ⟨⟩ h
    simpa [slots] using h

theorem readBy : form.ReadBy schema.read :=
  follows.readBy fun _ _ h => congrArg Except.ok (Option.some.inj h)

end Output

namespace Execution

/-- The fields of the record that holds the outputs. -/
def dataSlots : List (Slot (Option (List Output))) :=
  [⟨List Output, "outputs", id, Output.form.list⟩]

/-- The record that holds the outputs, of which there are none if they are not given. -/
def dataForm : Form (List Output) := .record dataSlots fun d => some (d.getD [])

/-- The fields of executions. -/
def slots : List (Slot Draft) :=
  [⟨Bool, "success", (·.success), .flag⟩, ⟨List Output, "data", (·.outputs), dataForm⟩]

/-- The execution that some fields come to; one that does not say so did not succeed. -/
def ofDraft (d : Draft) : Option Execution := some ⟨d.success.getD false, d.outputs.getD []⟩

theorem follows_data : dataSchema.Follows dataSlots where
  names := rfl
  nodup := by decide
  serves := by
    simp only [dataSlots, List.forall_mem_singleton]
    exact ⟨_, rfl, .of Output.readBy.list (fun _ _ => rfl) (by simp)⟩
  blank := by simp [dataSlots, dataSchema]
  ext := by simp [dataSlots]

theorem readBy_data : dataForm.ReadBy dataSchema.read :=
  follows_data.readBy fun _ _ h => congrArg Except.ok (Option.some.inj h)

theorem follows : schema.Follows slots where
  names := rfl
  nodup := by decide
  serves := by
    simp only [slots, List.forall_mem_cons]
    refine ⟨⟨_, rfl, .of readBy_flag (fun _ _ => rfl) ?_⟩,
      ⟨_, rfl, .of readBy_data (fun _ _ => rfl) ?_⟩, ?_⟩
    all_goals simp
  blank := by simp [slots, schema]
  ext := by
    rintro ⟨⟩ ⟨⟩ h
    simpa [slots] using h

/-- Executions are read by their fields. -/
theorem readBy : (Form.record slots ofDraft).ReadBy schema.read :=
  follows.readBy fun _ _ h => congrArg Except.ok (Option.some.inj h)

end Execution

/-! ### All four -/

/-- Which numbers are times of entries, and how exactly they are read: what a number stands for is
near to it, and the nearest if the number is plain; every number that is not too great stands for
something; and an entry with one that does not is refused. -/
structure Entry.TimesDecoded : Prop where
  near {text : Input} {x : Float} (h : Form.realOrNull.Spells (some x) text)
    (hlength : text.length < 2 ^ 30) : ∃ n : Numeral, n.Spells text ∧ n.Approximates x
  inRange {text : Input} {n : Numeral} (hn : n.Spells text) (hlength : text.length < 2 ^ 30)
    (hlt : |n.exactValue| < 2 ^ 1022) : ∃ x, Form.realOrNull.Spells (some x) text
  outOfRange {text input : Input} {n : Numeral} {ms : List (String × Input)} {d : Entry.Draft}
    (hn : n.Spells text) (hnone : ∀ x, ¬Form.realOrNull.Spells (some x) text)
    (hdoc : IsDocument ms input) (hbut : MembersBut Entry.slots "mtime" text ms d) :
    ∃ e, decode Entry.schema.read input = .error e ∧ e.cause = .numberOutOfRange

theorem Entry.timesDecoded : Entry.TimesDecoded where
  near h hlength := by
    obtain ⟨n, hn, hx⟩ := h
    exact ⟨n, hn, hx.approximates hn hlength⟩
  inRange hn hlength hlt := by
    obtain ⟨x, hx⟩ := hn.exists_isReal hlength hlt
    exact ⟨x, _, hn, hx⟩
  outOfRange hn hnone hdoc hbut := by
    have hmeets := hn.meets_outOfRange fun x hx => hnone x ⟨_, hn, hx⟩
    refine Entry.follows.decode_of_refused (P := (· = .numberOutOfRange))
      (s := ⟨Option Float, "mtime", (·.modified), .realOrNull⟩) (by simp [Entry.slots]) rfl
      (fun d gap rest hgap hrest => ?_) hdoc hbut
    exact (hmeets gap rest hgap hrest).map fun x => { d with modified := some x }

/-- **The four kinds of records are decoded by their known members alone.**  A document comes to
what its known members say, with the defaults for those that are missing, wherever they stand among
the others, however it is laid out and however its strings are spelled; and one that gives a field
again, here or in a record inside, is refused.  The time of an entry is rounded. -/
theorem decoded_by_known_members :
    Entry.schema.DecodedBy Entry.slots Entry.ofDraft ∧
    Hit.schema.DecodedBy Hit.slots Hit.ofDraft ∧
    Envelope.schema.DecodedBy Envelope.slots Envelope.ofDraft ∧
    Execution.schema.DecodedBy Execution.slots Execution.ofDraft ∧
    Entry.TimesDecoded :=
  ⟨Entry.readBy.decodedBy, Hit.readBy.decodedBy, Envelope.readBy.decodedBy,
    Execution.readBy.decodedBy, Entry.timesDecoded⟩

/-- An entry with an escape in the name of its field, after a member that nobody knows, and with a
time. -/
theorem decode_entry_among_others :
    decode Entry.schema.read
        (Utf8.bytes " \x7b\"x\" :[1], \"p\\u0061th\":\"a\",\"mtime\":1.5\x7d".toList) =
      .ok { path := "a", modified := some 1.5 } := by
  -- the text of the unknown value, the three keys and the known values
  have hone : IsWhole [0x31] :=
    ⟨⟨by decide, List.forall_mem_singleton.mpr (by decide)⟩, by decide⟩
  have hlist : IsValue [0x5b, 0x31, 0x5d] :=
    .list (List.forall_mem_singleton.mpr (.number (.mk false hone .absent .absent)))
      (.items isGap_nil (.close isGap_nil))
  have hx : SpellsText "x" [0x22, 0x78, 0x22] :=
    ⟨_, .raw (c := 'x') (by decide) (by decide) (by decide) .close, rfl⟩
  have hpath : SpellsText "path"
      [0x22, 0x70, 0x5c, 0x75, 0x30, 0x30, 0x36, 0x31, 0x74, 0x68, 0x22] := by
    refine ⟨_, .raw (c := 'p') (by decide) (by decide) (by decide) (.code (c := 'a') ?_
      (.raw (c := 't') (by decide) (by decide) (by decide)
        (.raw (c := 'h') (by decide) (by decide) (by decide) .close))), rfl⟩
    exact ⟨0, 0, 6, 1, by unfold IsHexDigit; decide⟩
  have ha : SpellsText "a" [0x22, 0x61, 0x22] :=
    ⟨_, .raw (c := 'a') (by decide) (by decide) (by decide) .close, rfl⟩
  have hmtime : SpellsText "mtime" [0x22, 0x6d, 0x74, 0x69, 0x6d, 0x65, 0x22] :=
    ⟨_, .raw (c := 'm') (by decide) (by decide) (by decide)
      (.raw (c := 't') (by decide) (by decide) (by decide)
        (.raw (c := 'i') (by decide) (by decide) (by decide)
          (.raw (c := 'm') (by decide) (by decide) (by decide)
            (.raw (c := 'e') (by decide) (by decide) (by decide) .close)))), rfl⟩
  have hnumber : Numeral.Spells ⟨false, [0x31], some [0x35], none⟩ [0x31, 0x2e, 0x35] :=
    .mk false hone (.digits ⟨by decide, List.forall_mem_singleton.mpr (by decide)⟩) .absent
  have hreal : Numeral.IsReal ⟨false, [0x31], some [0x35], none⟩ 1.5 := by
    have hpattern : ((Numeral.value ⟨false, [0x31], some [0x35], none⟩ []).toOption.map
        (pattern ·.toReal)) = some (pattern 1.5) := by decide +kernel
    rcases Numeral.value_spec ⟨false, [0x31], some [0x35], none⟩ [] with
      ⟨number, hvalue, hreal⟩ | ⟨⟨s, herror⟩, -⟩
    · rw [hvalue] at hpattern
      rwa [← pattern_injective (Option.some.inj hpattern)]
    · rw [herror] at hpattern
      cases hpattern
  have hspace : IsGap [0x20] := by simp [IsGap]
  have hdoc : IsDocument
      [("x", [0x5b, 0x31, 0x5d]), ("path", [0x22, 0x61, 0x22]), ("mtime", [0x31, 0x2e, 0x35])]
      (Utf8.bytes " \x7b\"x\" :[1], \"p\\u0061th\":\"a\",\"mtime\":1.5\x7d".toList) :=
    ⟨[0x20], _, [], hspace, isGap_nil, ⟨_, .cons ⟨_, hx, [0x20], [], hspace, isGap_nil, rfl⟩
      (.cons ⟨_, hpath, [], [], isGap_nil, isGap_nil, rfl⟩
        (.cons ⟨_, hmtime, [], [], isGap_nil, isGap_nil, rfl⟩ .nil)),
      .items isGap_nil (.comma isGap_nil hspace (.comma isGap_nil isGap_nil (.close isGap_nil)))⟩,
      rfl⟩
  refine decoded_by_known_members.1.ok (d := ⟨some "a", none, none, some (some 1.5)⟩) hdoc
    ⟨?_, ?_⟩ rfl
  · simp only [Entry.slots, List.forall_mem_cons]
    exact ⟨.once rfl ha, .absent rfl, .absent rfl, .once rfl ⟨_, hnumber, hreal⟩, by simp⟩
  · simpa [Entry.slots] using hlist

/-- The time that is read need not be the nearest one. -/
theorem time_beside_nearest : ∃ x y : Float,
    decode Entry.schema.read
        (Utf8.bytes "\x7b\"path\":\"a\",\"mtime\":1760329669.5070693\x7d".toList) =
      .ok { path := "a", modified := some x } ∧
    Nearest (17603296695070693 / 10 ^ 7) y ∧ x ≠ y := by
  have hnearest : Nearest (17603296695070693 / 10 ^ 7) (Float.ofBits 0x41da3b1ff16073d3) := by
    have hlow : value (7383357774132178 + 1052 * 2 ^ 52) = 7383357774132178 * 2 ^ (-22 : ℤ) :=
      mod_cast value_add (by decide) (.inl (by decide)) rfl
    have hhigh : value (7383357774132178 + 1052 * 2 ^ 52 + 1) =
        7383357774132179 * 2 ^ (-22 : ℤ) := by
      rw [Nat.add_right_comm]
      exact mod_cast value_add (by decide) (.inl (by decide)) rfl
    have hup := isNearest_of_up (q := 17603296695070693 / 10 ^ 7)
      (b := 7383357774132178 + 1052 * 2 ^ 52) (by rw [hhigh]; norm_num)
      (by rw [hhigh, hlow]; norm_num) (by rw [hhigh, hlow]; norm_num)
    rw [Nat.min_eq_right (by decide)] at hup
    have hpattern : pattern (Float.ofBits 0x41da3b1ff16073d3) =
        7383357774132178 + 1052 * 2 ^ 52 + 1 := by decide +kernel
    rwa [Nearest, hpattern]
  have hread : ((decode Entry.schema.read
      (Utf8.bytes "\x7b\"path\":\"a\",\"mtime\":1760329669.5070693\x7d".toList)).toOption.map
        fun e => (e.path, e.isDirectory, e.size, e.modified.map pattern)) =
      some ("a", false, 0, some 0x41da3b1ff16073d2) := by decide +kernel
  generalize decode Entry.schema.read _ = result at hread ⊢
  match result, hread with
  | .ok ⟨path, isDirectory, size, some x⟩, hread =>
    simp only [Except.toOption, Option.map_some, Option.some.injEq, Prod.mk.injEq] at hread
    obtain ⟨rfl, rfl, rfl, hx⟩ := hread
    refine ⟨x, _, rfl, hnearest, ?_⟩
    rintro rfl
    exact absurd hx (by decide +kernel)

end RemoteFiles
