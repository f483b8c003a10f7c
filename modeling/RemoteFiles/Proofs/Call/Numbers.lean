import RemoteFiles.Proofs.Call.Records
import RemoteFiles.Proofs.Json.Records
import RemoteFiles.Proofs.Json.Tokens
import RemoteFiles.Proofs.Outcome
import RemoteFiles.Proofs.Verification
import RemoteFiles.Proofs.WireRecords

/-!
# Numbers on lines

The size of an entry and the line of a hit are read exactly or not at all.  With the digits of a
number below `2 ^ 64` there, a line gives the record with that number; with any other number it
gives none, which a search warns of, and a listing and a matching of paths do not.

## Main definitions

* `Entry.GivesSize`, `Hit.GivesLine` — the documents that would be a record, whatever number it is.

## Main results

* `Entry.decides`, `Hit.decides` — the number decides whether there is a record.
* `numbers_kept_exactly` — **numbers are kept exactly or their line is left out.**
-/

namespace RemoteFiles

open Json

variable {δ α : Type}

/-! ### Records -/

/-- An input would be an entry, if a text were a size: it gives that text for it, and the entry by
its size. -/
def Entry.GivesSize (text input : Input) (entry : UInt64 → Entry) : Prop :=
  ∃ ms d path, IsDocument ms input ∧ MembersBut Entry.slots "size" text ms d ∧
    d.path = some path ∧
    entry = fun size => ⟨path, d.isDirectory.getD false, size, d.modified.getD none⟩

/-- An input would be a hit, if a text were the number of a line: it gives that text for it, and the
hit by its line. -/
def Hit.GivesLine (text input : Input) (hit : UInt64 → Hit) : Prop :=
  ∃ ms d path content, IsDocument ms input ∧ MembersBut Hit.slots "Line" text ms d ∧
    d.path = some path ∧ d.content = some content ∧ hit = fun line => ⟨path, line, content⟩

/-- A record has a first byte. -/
theorem Json.IsDocument.ne_nil {ms : List (String × Input)} {input : Input}
    (h : IsDocument ms input) : input ≠ [] := by
  obtain ⟨gap, text, gap', -, -, hrecord, rfl⟩ := h
  obtain ⟨b, s, rfl, -⟩ := Schema.startsValue_of_isRecord hrecord
  simp

section Decides

variable {n : Numeral} {text input : Input}

/-- The number decides whether there is an entry. -/
theorem Entry.decides (hn : n.Spells text) {entry : UInt64 → Entry}
    (h : Entry.GivesSize text input entry) :
    DecidesRecord text (decode Entry.schema.read input) entry := by
  obtain ⟨ms, d, path, hdoc, hbut, hpath, rfl⟩ := h
  have hslot : (⟨UInt64, "size", (·.size), .count⟩ : Slot Draft) ∈ slots := by simp [slots]
  refine follows.decidesRecord readBy hslot rfl (fun _ _ => rfl) (by simp [slots]) hn hdoc hbut
    fun size => ?_
  simp [ofDraft, hpath]

/-- The number decides whether there is a hit. -/
theorem Hit.decides (hn : n.Spells text) {hit : UInt64 → Hit}
    (h : Hit.GivesLine text input hit) :
    DecidesRecord text (decode Hit.schema.read input) hit := by
  obtain ⟨ms, d, path, content, hdoc, hbut, hpath, hcontent, rfl⟩ := h
  have hslot : (⟨UInt64, "Line", (·.line), .count⟩ : Slot Draft) ∈ slots := by simp [slots]
  refine follows.decidesRecord readBy hslot rfl (fun _ _ => rfl) (by simp [slots]) hn hdoc hbut
    fun line => ?_
  simp [ofDraft, hpath, hcontent]

end Decides

/-! ### Lines -/

section Lines

variable {k : Schema δ α} {before line after : String}

/-- A line that is a record adds it to those around it. -/
theorem decodeLines_of_ok (h : Text.IsBetween before line after) (hfilled : Text.trim line ≠ "")
    {a : α} (hok : decodeLine k (Text.trim line) = .ok a) :
    decodeLines k (before ++ line ++ after) = decodeLines k before ++ a :: decodeLines k after := by
  rw [decodeLines, h.filledLines_of_filled hfilled, List.filterMap_append, List.filterMap_cons, hok]
  rfl

/-- A line that is no record leaves those around it. -/
theorem decodeLines_of_error (h : Text.IsBetween before line after)
    (hfilled : Text.trim line ≠ "") {e : Json.Error}
    (herror : decodeLine k (Text.trim line) = .error e) :
    decodeLines k (before ++ line ++ after) = decodeLines k before ++ decodeLines k after := by
  rw [decodeLines, h.filledLines_of_filled hfilled, List.filterMap_append, List.filterMap_cons,
    herror]
  rfl

/-- A line that is a hit is not among those that are left out. -/
theorem Hit.rejects_of_ok (h : Text.IsBetween before line after) (hfilled : Text.trim line ≠ "")
    {a : Hit} (hok : decodeLine Hit.schema (Text.trim line) = .ok a) :
    Hit.rejects (before ++ line ++ after) = Hit.rejects before ++ Hit.rejects after := by
  rw [rejects, h.filledLines_of_filled hfilled, List.filterMap_append, List.filterMap_cons, hok]
  rfl

/-- A line that is no hit is left out once. -/
theorem Hit.rejects_of_error (h : Text.IsBetween before line after)
    (hfilled : Text.trim line ≠ "") {e : Json.Error}
    (herror : decodeLine Hit.schema (Text.trim line) = .error e) :
    Hit.rejects (before ++ line ++ after) =
      Hit.rejects before ++ (Text.trim line, e) :: Hit.rejects after := by
  rw [rejects, h.filledLines_of_filled hfilled, List.filterMap_append, List.filterMap_cons, herror]
  rfl

end Lines

/-! ### Calls -/

/-- The entry with a number on a line is in the answer to a call if the number is a count, and the
line is skipped if it is none; either way those around it are there, and there is no warning. -/
structure Entry.KeptOrSkipped (text : Input) (before after : String) (entry : UInt64 → Entry)
    (x : Run FileError Answer) : Prop where
  quiet : Event.warnings x.events = []
  kept {size : UInt64} (h : IsCount text size) :
    x.result = .ok (.entries (readAll before ++ entry size :: readAll after))
  skipped (h : ∀ size, ¬IsCount text size) :
    x.result = .ok (.entries (readAll before ++ readAll after))

/-- The hit with a number on a line is in the answer to a call if the number is a count, and there
is one warning of the line if it is none; either way the hits around it and the warnings of the
lines around it are there. -/
structure Hit.KeptOrWarned (text : Input) (before line after : String) (hit : UInt64 → Hit)
    (x : Run FileError Answer) : Prop where
  kept {number : UInt64} (h : IsCount text number) :
    x.result = .ok (.hits (readAll before ++ hit number :: readAll after)) ∧
      Event.warnings x.events =
        (rejects before).map Event.ofReject ++ (rejects after).map Event.ofReject
  warned (h : ∀ number, ¬IsCount text number) :
    x.result = .ok (.hits (readAll before ++ readAll after)) ∧
      ∃ e, decodeLine schema (Text.trim line) = .error e ∧ e.cause.RefusesCount ∧
        Event.warnings x.events = (rejects before).map Event.ofReject ++
          .skipped e.message (Text.trim line) :: (rejects after).map Event.ofReject

section Calls

variable {n : Numeral} {text : Input} {s : Sandbox} {now : Int} {peer : Peer} {c : Call}
  {before line after : String}

/-- A line with a record is not blank. -/
theorem trim_ne_of_isDocument {ms : List (String × Input)}
    (h : IsDocument ms (Utf8.encode (Text.trim line))) : Text.trim line ≠ "" := by
  intro hblank
  rw [hblank] at h
  exact h.ne_nil rfl

/-- A listing and a matching of paths keep a line with a number or skip it. -/
theorem Entry.keptOrSkipped [Url.Names] (hn : n.Spells text) (hline : Text.IsBetween before line after)
    (hprinted : s.Printed now peer c (before ++ line ++ after))
    (hop : c.operation = .list ∨ c.operation = .glob) {entry : UInt64 → Entry}
    (h : Entry.GivesSize text (Utf8.encode (Text.trim line)) entry) :
    Entry.KeptOrSkipped text before after entry (s.call now peer c) := by
  obtain ⟨hresult, hwarnings⟩ := Sandbox.call_of_printed hprinted
  have hdecides := Entry.decides hn h
  obtain ⟨ms, d, path, hdoc, -⟩ := h
  have hfilled := trim_ne_of_isDocument hdoc
  have hanswer : ∀ output, c.answer output = .entries (readAll output) ∧
      c.warnings output = [] := by
    intro output
    cases c with
    | list => exact ⟨rfl, rfl⟩
    | glob => exact ⟨rfl, rfl⟩
    | _ => rcases hop with hop | hop <;> cases hop
  rw [(hanswer _).1] at hresult
  refine ⟨hwarnings.trans (hanswer _).2, fun {size} hsize => ?_, fun hnone => ?_⟩
  · have hok := (hdecides.ok_iff _).mpr ⟨size, hsize, rfl⟩
    rw [hresult, readAll, decodeLines_of_ok hline hfilled hok]
    rfl
  · obtain ⟨e, herror, -⟩ := hdecides.refused hnone
    rw [hresult, readAll, decodeLines_of_error hline hfilled herror]
    rfl

/-- A search keeps a line with a number or warns of it. -/
theorem Hit.keptOrWarned [Url.Names] (hn : n.Spells text) (hline : Text.IsBetween before line after)
    (hprinted : s.Printed now peer c (before ++ line ++ after)) (hop : c.operation = .grep)
    {hit : UInt64 → Hit} (h : Hit.GivesLine text (Utf8.encode (Text.trim line)) hit) :
    Hit.KeptOrWarned text before line after hit (s.call now peer c) := by
  obtain ⟨hresult, hwarnings⟩ := Sandbox.call_of_printed hprinted
  have hdecides := Hit.decides hn h
  obtain ⟨ms, d, path, content, hdoc, -⟩ := h
  have hfilled := trim_ne_of_isDocument hdoc
  have hanswer : ∀ output, c.answer output = .hits (readAll output) ∧
      c.warnings output = (rejects output).map Event.ofReject := by
    intro output
    cases c with
    | grep => exact ⟨rfl, rfl⟩
    | _ => cases hop
  rw [(hanswer _).1] at hresult
  rw [(hanswer _).2] at hwarnings
  refine ⟨fun {number} hnumber => ?_, fun hnone => ?_⟩
  · have hok := (hdecides.ok_iff _).mpr ⟨number, hnumber, rfl⟩
    rw [hresult, hwarnings, readAll, decodeLines_of_ok hline hfilled hok,
      rejects_of_ok hline hfilled hok, List.map_append]
    exact ⟨rfl, rfl⟩
  · obtain ⟨e, herror, hcause⟩ := hdecides.refused hnone
    rw [hresult, hwarnings, readAll, decodeLines_of_error hline hfilled herror,
      rejects_of_error hline hfilled herror, List.map_append, List.map_cons]
    exact ⟨rfl, e, herror, hcause, rfl⟩

end Calls

/-! ### Written documents -/

/-- The texts of members with commas between them are the rest of a record. -/
theorem followed_memberText (ms : List (String × Input)) :
    Followed Byte.recordClose (ms.map memberText)
      (followed (ms.map memberText) ++ [Byte.recordClose]) := by
  induction ms with
  | nil => exact .close isGap_nil
  | cons m ms ih =>
    rw [List.map_cons, followed_cons, List.cons_append, List.append_assoc]
    exact .comma isGap_nil isGap_nil ih

/-- A record that is written member by member is a document with those members. -/
theorem isDocument_recordText (ms : List (String × Input)) : IsDocument ms (recordText ms) := by
  have hmembers : List.Forall₂ (fun m item => ∃ key, SpellsText m.1 key ∧ IsMember key m.2 item)
      ms (ms.map memberText) := by
    rw [List.forall₂_map_right_iff, List.forall₂_same]
    exact fun m _ => ⟨_, spellsText_quote m.1, [], [], isGap_nil, isGap_nil, rfl⟩
  refine ⟨[], recordText ms, [], isGap_nil, isGap_nil, ⟨_, hmembers, ?_⟩, (List.append_nil _).symm⟩
  cases ms with
  | nil => exact .empty isGap_nil
  | cons m ms =>
    rw [List.map_cons, recordText, List.map_cons, separated, List.append_assoc]
    exact .items isGap_nil (followed_memberText ms)

/-- An entry that is written with a path and a size. -/
theorem Entry.givesSize_recordText (path : String) (text : Input) :
    Entry.GivesSize text (recordText [("path", Utf8.bytes (quote path)), ("size", text)])
      fun size => { path := path, size := size } := by
  refine ⟨_, ⟨some path, none, none, none⟩, path, isDocument_recordText _, ⟨?_, rfl, ?_⟩, rfl, rfl⟩
  · simp only [slots, List.forall_mem_cons]
    exact ⟨fun _ => .once rfl (spellsText_quote path), fun _ => .absent rfl,
      fun h => absurd rfl h, fun _ => .absent rfl, by simp⟩
  · simp [slots]

/-- A hit that is written with its fields. -/
theorem Hit.givesLine_recordText (path content : String) (text : Input) :
    Hit.GivesLine text (recordText [("Path", Utf8.bytes (quote path)), ("Line", text),
      ("Content", Utf8.bytes (quote content))]) fun line => ⟨path, line, content⟩ := by
  refine ⟨_, ⟨some path, none, some content⟩, path, content, isDocument_recordText _, ⟨?_, rfl, ?_⟩,
    rfl, rfl, rfl⟩
  · simp only [slots, List.forall_mem_cons]
    exact ⟨fun _ => .once rfl (spellsText_quote path), fun h => absurd rfl h,
      fun _ => .once rfl (spellsText_quote content), by simp⟩
  · simp [slots]

/-- A script that succeeds has printed what its outcome says. -/
theorem Sandbox.printed_of_canSend [Url.Names] {s : Sandbox} {url : Url} {host : String} {c : Call}
    {ps : Template.Params} (hsend : s.transport.CanSend url host) (h : c.params = .ok ps)
    (now : Int) (output : String) :
    s.Printed now (fun _ => .answer 200 (Execution.answer ⟨true, [{ text := output }]⟩)) c
      output := by
  have hcall := s.call_of_params now
    (fun _ => .answer 200 (Execution.answer ⟨true, [{ text := output }]⟩)) h
  rw [Transport.run_of_canSend hsend] at hcall
  exact ⟨_, _, _, congrArg Run.sent hcall, rfl, Execution.decode_answer_eq_outcome _, rfl, rfl⟩

/-! ### All numbers -/

/-- **Numbers are kept exactly or their line is left out.**  A number is a count if it has no sign,
no fraction and no exponent and its digits stand for less than `2 ^ 64`.  In an entry that is valid
but for its size, and in a hit that is valid but for its line, a count gives the record with that
number, and any other number makes it none.  A listing and a matching of paths leave the line out
without a word, a search with one warning; the lines around it are what they were. -/
theorem numbers_kept_exactly [Url.Names] {n : Numeral} {text : Input} (hn : n.Spells text) :
    ((∃ k, IsCount text k) ↔ n.negative = false ∧ n.fraction = none ∧ n.exponent = none ∧
      Nat.ofDigitChars 10 (n.whole.map Char.ofUInt8) 0 < 2 ^ 64) ∧
    (∀ input entry, Entry.GivesSize text input entry →
      DecidesRecord text (decode Entry.schema.read input) entry) ∧
    (∀ input hit, Hit.GivesLine text input hit →
      DecidesRecord text (decode Hit.schema.read input) hit) ∧
    ∀ (s : Sandbox) (now : Int) (peer : Peer) (c : Call) (before line after : String),
      Text.IsBetween before line after → s.Printed now peer c (before ++ line ++ after) →
        (∀ entry, c.operation = .list ∨ c.operation = .glob →
          Entry.GivesSize text (Utf8.encode (Text.trim line)) entry →
            Entry.KeptOrSkipped text before after entry (s.call now peer c)) ∧
        ∀ hit, c.operation = .grep → Hit.GivesLine text (Utf8.encode (Text.trim line)) hit →
          Hit.KeptOrWarned text before line after hit (s.call now peer c) := by
  refine ⟨hn.isCount_iff, fun input entry h => Entry.decides hn h, fun input hit h =>
    Hit.decides hn h, fun s now peer c before line after hline hprinted => ⟨?_, ?_⟩⟩
  · exact fun entry hop h => Entry.keptOrSkipped hn hline hprinted hop h
  · exact fun hit hop h => Hit.keptOrWarned hn hline hprinted hop h

/-- The greatest number is the size of an entry; the next one is not, and a hit on the line of
negative zero is left out of a search with a warning. -/
theorem greatest_size_kept :
    decode Entry.schema.read
        (Utf8.bytes "\x7b\"path\":\"a\",\"size\":18446744073709551615\x7d".toList) =
      .ok { path := "a", size := 18446744073709551615 } ∧
    (∃ e, decode Entry.schema.read
        (Utf8.bytes "\x7b\"path\":\"a\",\"size\":18446744073709551616\x7d".toList) =
      .error e ∧ e.cause.RefusesCount) ∧
    let s : Sandbox := ⟨.ofAddress "http://127.0.0.1:8080" {}⟩
    let line := "\x7b\"Path\":\"a\",\"Line\":-0,\"Content\":\"b\"\x7d"
    let x := s.call 0 (fun _ => .answer 200 (Execution.answer ⟨true, [{ text := line ++ "\n" }]⟩))
      (.grep "/" "b" "")
    x.result = .ok (.hits []) ∧
      ∃ e : Json.Error, e.cause.RefusesCount ∧
        Event.warnings x.events = [.skipped e.message line] := by
  have hgreatest := numbers_kept_exactly (spells_digitsOf 18446744073709551615)
  have hnext := numbers_kept_exactly (spells_digitsOf 18446744073709551616)
  have hnegative : Numeral.Spells ⟨true, [Byte.zero], none, none⟩ [Byte.minus, Byte.zero] :=
    .mk true (isWhole_digitsOf 0) .absent .absent
  have hzero := numbers_kept_exactly hnegative
  have hsend : Transport.CanSend (.ofAddress "http://127.0.0.1:8080" {}) Transport.loopbackUrl
      "127.0.0.1:8080" := Transport.canSend_loopback (by decide) (by decide)
  refine ⟨?_, ?_, ?_⟩
  · have hdecides := hgreatest.2.1 _ _ (Entry.givesSize_recordText "a" _)
    exact (hdecides.ok_iff _).mpr ⟨_, isCount_digitsOf 18446744073709551615, rfl⟩
  · have hdecides := hnext.2.1 _ _ (Entry.givesSize_recordText "a" _)
    exact hdecides.refused fun k hk => absurd (hnext.1.mp ⟨k, hk⟩) (by decide +kernel)
  · intro s line x
    have hline : Text.IsBetween "" line "\n" := ⟨by decide +kernel, .inl rfl, .inr ⟨"", rfl⟩⟩
    have hprinted := Sandbox.printed_of_canSend (c := .grep "/" "b" "") hsend rfl 0 (line ++ "\n")
    have hgives : Hit.GivesLine [Byte.minus, Byte.zero] (Utf8.encode (Text.trim line))
        fun number => ⟨"a", number, "b"⟩ := by
      have hencode : Utf8.encode (Text.trim line) = recordText [("Path", Utf8.bytes (quote "a")),
          ("Line", [Byte.minus, Byte.zero]), ("Content", Utf8.bytes (quote "b"))] := by
        decide +kernel
      rw [hencode]
      exact Hit.givesLine_recordText "a" "b" _
    have hkept : Hit.KeptOrWarned [Byte.minus, Byte.zero] "" line "\n" _ x :=
      (hzero.2.2.2 s 0 _ _ "" line "\n" hline hprinted).2 _ rfl hgives
    -- nothing is in front of the line, and behind it only the line feed
    have hhits : Hit.readAll "" ++ Hit.readAll "\n" = [] := rfl
    have hbefore : (Hit.rejects "").map Event.ofReject = [] := rfl
    have hafter : (Hit.rejects "\n").map Event.ofReject = [] := rfl
    have htrim : Text.trim line = line := by decide +kernel
    have hnone : ∀ k, ¬IsCount [Byte.minus, Byte.zero] k :=
      fun k hk => absurd (hzero.1.mp ⟨k, hk⟩).1 (by decide)
    obtain ⟨hresult, e, -, hcause, hwarnings⟩ := hkept.warned hnone
    rw [hhits] at hresult
    rw [hbefore, hafter, htrim] at hwarnings
    exact ⟨hresult, e, hcause, hwarnings⟩

end RemoteFiles
