import RemoteFiles.Proofs.Call.Logs
import RemoteFiles.Proofs.Text.Lines

/-!
# Records on lines

What a script prints is read line by line, and each line on its own: a line that is no record, and a
blank one, leave the others as they are.  A search goes through the lines once, keeps those that are
hits and warns of the others.

## Main definitions

* `Hit.gather` — the search's way through the lines.
* `Hit.Gathered` — what a search makes of an output: hits, and warnings of the lines that are none.
* `Event.warnings` — the events that are warnings.
* `Sandbox.Printed` — what the script of a call has printed.

## Main results

* `decodeLines_append` — the records of two outputs stay apart at a line feed.
* `Hit.gather_lines` — what a search keeps and what it warns of.
* `Sandbox.call_of_printed` — what a call is answered with whose script has printed a text.
* `Sandbox.call_of_ok` — what a call that is answered was answered from.
* `Sandbox.records_of_lines` — **each line that is not blank gives its record, or a warning, or
  nothing.**
-/

namespace RemoteFiles

variable {δ α ε : Type}

/-! ### Records -/

/-- **The records of two outputs stay apart at a line feed.** -/
theorem decodeLines_append (k : Json.Schema δ α) (a b : String) :
    decodeLines k (a ++ "\n" ++ b) = decodeLines k a ++ decodeLines k b := by
  rw [decodeLines, Text.filledLines_append, List.filterMap_append, ← decodeLines, ← decodeLines]

/-- A warning about a line that is no hit. -/
def Event.ofReject (p : String × Json.Error) : Event := .skipped p.2.message p.1

namespace Hit

/-- Go through lines one by one: a hit is kept, a line that is none is warned of, and a blank one is
passed over. -/
def gather : List String → Run ε (List Hit)
  | [] => Run.pure []
  | line :: lines =>
    let line := Text.trim line
    if line = "" then gather lines
    else
      match decodeLine schema line with
      | .ok hit => do
        let hits ← gather lines
        return hit :: hits
      | .error e => do
        Run.log (.skipped e.message line)
        gather lines

/-- Going through lines logs the warnings of those that are left out, and ends with the hits. -/
theorem gather_eq (lines : List String) :
    (gather lines : Run ε (List Hit)) =
      ⟨(((lines.map Text.trim).filter (· ≠ "")).filterMap fun line =>
          match decodeLine schema line with
          | .ok _ => none
          | .error e => some (line, e)).map Event.ofReject, [],
        .ok (((lines.map Text.trim).filter (· ≠ "")).filterMap fun line =>
          (decodeLine schema line).toOption)⟩ := by
  induction lines with
  | nil => rfl
  | cons line lines ih =>
    rw [gather]
    by_cases hblank : Text.trim line = ""
    · simp only [hblank, if_true, ih, List.map_cons]
      rfl
    · have hfilled : ((line :: lines).map Text.trim).filter (· ≠ "") =
          Text.trim line :: (lines.map Text.trim).filter (· ≠ "") := by
        simp [hblank]
      rw [hfilled]
      simp only [if_neg hblank, List.filterMap_cons]
      cases hdecode : decodeLine schema (Text.trim line) with
      | ok hit =>
        dsimp only
        rw [ih, Run.bind_of_ok rfl, Run.events_pure, List.append_nil]
        rfl
      | error e =>
        dsimp only
        rw [Run.log_bind, ih]
        rfl

/-- **A search keeps the hits of an output and warns of the lines that are none.** -/
theorem gather_lines (output : String) :
    (gather (Text.lines output) : Run ε (List Hit)) =
      ⟨(rejects output).map Event.ofReject, [], .ok (readAll output)⟩ := by
  rw [gather_eq, ← Text.filledLines_eq_lines]
  rfl

/-- Each line that is not blank is a hit or left out. -/
theorem length_readAll_add_length_rejects (output : String) :
    (readAll output).length + (rejects output).length = (Text.filledLines output).length := by
  unfold readAll decodeLines rejects
  induction Text.filledLines output with
  | nil => rfl
  | cons line lines ih =>
    cases hdecode : decodeLine schema line with
    | ok hit =>
      have hhit : (Except.ok hit : Except Json.Error Hit).toOption = some hit := rfl
      simp only [List.filterMap_cons, hdecode, hhit, List.length_cons]
      omega
    | error e =>
      have hhit : (Except.error e : Except Json.Error Hit).toOption = none := rfl
      simp only [List.filterMap_cons, hdecode, hhit, List.length_cons]
      omega

end Hit

/-- What a search makes of an output: the hits, in their order, and a warning of each line that is
neither blank nor a hit, in their order too. -/
structure Hit.Gathered (output : String) (hits : List Hit) (warnings : List Event) : Prop where
  hits_eq : hits = ((output.toList.splitOn '\n').filterMap Text.content?).filterMap fun line =>
    (decodeLine schema line).toOption
  warnings_eq : warnings =
    ((output.toList.splitOn '\n').filterMap Text.content?).filterMap fun line =>
      match decodeLine schema line with
      | .ok _ => none
      | .error e => some (.skipped e.message line)
  length_eq : hits.length + warnings.length =
    (output.toList.splitOn '\n').countP fun piece => Text.trimChars piece ≠ []

/-- The lines of an output that are not blank are counted piece by piece. -/
theorem Text.length_filledLines (output : String) : (Text.filledLines output).length =
    (output.toList.splitOn '\n').countP fun piece => Text.trimChars piece ≠ [] := by
  rw [Text.filledLines, List.length_map, ← List.countP_eq_length_filter, List.countP_map]
  rfl

/-- The hits of an output and the warnings of its other lines are what a search makes of it. -/
theorem Hit.gathered (output : String) :
    Hit.Gathered output (readAll output) ((rejects output).map Event.ofReject) where
  hits_eq := by rw [readAll, decodeLines, Text.filledLines_eq_pieces]
  warnings_eq := by
    rw [rejects, Text.filledLines_eq_pieces, List.map_filterMap]
    refine List.filterMap_congr fun line _ => ?_
    cases decodeLine schema line <;> rfl
  length_eq := by
    rw [List.length_map, length_readAll_add_length_rejects, Text.length_filledLines]

/-! ### Warnings of calls -/

namespace Event

/-- The events that are warnings. -/
def warnings (es : List Event) : List Event := es.filter fun e => e.level = .warning

theorem warnings_append (es fs : List Event) : warnings (es ++ fs) = warnings es ++ warnings fs :=
  List.filter_append es fs

theorem warnings_eq_self {es : List Event} (h : ∀ e ∈ es, e.level = .warning) : warnings es = es :=
  List.filter_eq_self.mpr fun e he => decide_eq_true (h e he)

theorem warnings_eq_nil {es : List Event} (h : ∀ e ∈ es, e.level ≠ .warning) : warnings es = [] :=
  List.filter_eq_nil_iff.mpr fun e he hwarning => h e he (of_decide_eq_true hwarning)

end Event

namespace Sandbox

variable {s : Sandbox} {now : Int} {peer : Peer} {c : Call}

/-- A search is answered with what is gathered from the lines of the output. -/
theorem call_grep_eq [Url.Names] (s : Sandbox) (now : Int) (peer : Peer) (path text files : String) :
    s.call now peer (.grep path text files) = (do
      let ps ← Run.ofExcept (Call.grep path text files).params
      let script ← Run.ofExcept ((Call.grep path text files).script ps)
      let output ← s.runScript now peer .grep script
      let hits ← Hit.gather (Text.lines output)
      return .hits hits) := by
  unfold call
  congr! 5 with ps script
  funext output
  rw [Hit.gather_lines, Run.logAll_bind]
  rfl

/-- The script of a call has succeeded and has printed a text: its request was answered so. -/
def Printed [Url.Names] (s : Sandbox) (now : Int) (peer : Peer) (c : Call) (output : String) : Prop :=
  ∃ r body o, (s.call now peer c).sent = [r] ∧ peer r = .answer 200 body ∧
    Outcome.decode body = .ok o ∧ o.succeeded = true ∧ o.text = output

/-- A call whose script has succeeded is answered from what it has printed, and warns of nothing
else. -/
theorem call_of_succeeded [Url.Names] {ps : Template.Params} {o : Outcome} (hparams : c.params = .ok ps)
    (hrun : (s.transport.run now peer c.scriptText).result = .ok o) (ho : o.succeeded = true) :
    (s.call now peer c).result = .ok (c.answer o.text) ∧
      Event.warnings (s.call now peer c).events = c.warnings o.text := by
  have hquiet : Event.warnings (s.transport.run now peer c.scriptText).events = [] :=
    Event.warnings_eq_nil fun e he => Transport.level_of_mem_run he
  have hlines : Event.warnings (c.warnings o.text) = c.warnings o.text :=
    Event.warnings_eq_self fun e he => Call.level_of_mem_warnings he
  rw [s.call_of_params now peer hparams]
  simp only [hrun, Call.conclude, Call.closing, ho, if_true, true_and]
  rw [← List.singleton_append, Event.warnings_append, Event.warnings_append, hquiet, hlines]
  rfl

/-- A call whose script has printed a text is answered from it, and warns of nothing else. -/
theorem call_of_printed [Url.Names] {output : String} (h : s.Printed now peer c output) :
    (s.call now peer c).result = .ok (c.answer output) ∧
      Event.warnings (s.call now peer c).events = c.warnings output := by
  obtain ⟨r, body, o, hsent, hreply, hdecode, ho, rfl⟩ := h
  cases hparams : c.params with
  | error e =>
    rw [s.call_of_refused now peer hparams] at hsent
    cases hsent
  | ok ps =>
    rw [s.call_of_params now peer hparams] at hsent
    exact call_of_succeeded hparams (Transport.run_of_answer hsent hreply hdecode) ho

/-- A call that is answered was answered from what its script has printed, and warned of nothing
else. -/
theorem call_of_ok [Url.Names] {a : Answer} (h : (s.call now peer c).result = .ok a) :
    ∃ output, s.Printed now peer c output ∧ a = c.answer output ∧
      Event.warnings (s.call now peer c).events = c.warnings output := by
  cases hparams : c.params with
  | error e =>
    rw [s.call_of_refused now peer hparams] at h
    cases h
  | ok ps =>
    have hcall := s.call_of_params now peer hparams
    cases hrun : (s.transport.run now peer c.scriptText).result with
    | error e =>
      rw [hcall, hrun] at h
      cases h
    | ok o =>
      obtain ⟨r, body, hsent, hreply, hdecode⟩ := Transport.answer_of_run_eq_ok hrun
      cases ho : o.succeeded with
      | false =>
        rw [hcall] at h
        simp [hrun, Call.conclude, ho] at h
      | true =>
        obtain ⟨hresult, hwarnings⟩ := call_of_succeeded hparams hrun ho
        refine ⟨o.text, ⟨r, body, o, ?_, hreply, hdecode, ho, rfl⟩,
          Except.ok.inj (h.symm.trans hresult), hwarnings⟩
        rw [hcall]
        exact hsent

/-- **Each line that is not blank gives its record, or a warning, or nothing.**  The records of two
outputs stay apart at a line feed; they are those of the trimmed pieces between line feeds, and so of
the trimmed lines, and the search's own way through the lines finds them too.  A search is answered
just if its script has printed something, and then it has made hits of the lines of that, and
warnings of the others; a listing and a matching of paths are answered just then too, with the
entries on the lines, and never warn. -/
theorem records_of_lines [Url.Names] (k : Json.Schema δ α) :
    (∀ a b : String, decodeLines k (a ++ "\n" ++ b) = decodeLines k a ++ decodeLines k b) ∧
    (∀ output : String, decodeLines k output =
      ((output.toList.splitOn '\n').filterMap Text.content?).filterMap fun line =>
        (decodeLine k line).toOption) ∧
    (∀ output : String, decodeLines k output =
      (((Text.lines output).map Text.trim).filter (· ≠ "")).filterMap fun line =>
        (decodeLine k line).toOption) ∧
    (∀ output : String, (Hit.gather (Text.lines output) : Run FileError (List Hit)).result =
      .ok (decodeLines Hit.schema output)) ∧
    (∀ (s : Sandbox) (now : Int) (peer : Peer) (path text files : String),
      s.call now peer (.grep path text files) = (do
        let ps ← Run.ofExcept (Call.grep path text files).params
        let script ← Run.ofExcept ((Call.grep path text files).script ps)
        let output ← s.runScript now peer .grep script
        let hits ← Hit.gather (Text.lines output)
        return .hits hits) ∧
      (∀ a, (s.call now peer (.grep path text files)).result = .ok a →
        ∃ output hits, s.Printed now peer (.grep path text files) output ∧ a = .hits hits ∧
          Hit.Gathered output hits (Event.warnings (s.call now peer (.grep path text files)).events)) ∧
      ∀ output, s.Printed now peer (.grep path text files) output →
        ∃ hits, (s.call now peer (.grep path text files)).result = .ok (.hits hits) ∧
          Hit.Gathered output hits (Event.warnings (s.call now peer (.grep path text files)).events)) ∧
    ∀ (s : Sandbox) (now : Int) (peer : Peer) (c : Call), c.operation = .list ∨ c.operation = .glob →
      Event.warnings (s.call now peer c).events = [] ∧
      (∀ a, (s.call now peer c).result = .ok a →
        ∃ output, s.Printed now peer c output ∧ a = .entries (decodeLines Entry.schema output)) ∧
      ∀ output, s.Printed now peer c output →
        (s.call now peer c).result = .ok (.entries (decodeLines Entry.schema output)) := by
  refine ⟨decodeLines_append k, ?_, ?_, ?_, ?_, ?_⟩
  · intro output
    rw [decodeLines, Text.filledLines_eq_pieces]
  · intro output
    rw [decodeLines, Text.filledLines_eq_lines]
  · intro output
    rw [Hit.gather_lines]
    rfl
  · intro s now peer path text files
    refine ⟨call_grep_eq s now peer path text files, ?_, ?_⟩
    · intro a ha
      obtain ⟨output, hprinted, rfl, hwarnings⟩ := call_of_ok ha
      refine ⟨output, _, hprinted, rfl, ?_⟩
      rw [hwarnings]
      exact Hit.gathered output
    · intro output hprinted
      obtain ⟨hresult, hwarnings⟩ := call_of_printed hprinted
      refine ⟨_, hresult, ?_⟩
      rw [hwarnings]
      exact Hit.gathered output
  · intro s now peer c hop
    have hanswer : ∀ output, c.answer output = .entries (decodeLines Entry.schema output) := by
      intro output
      cases c with
      | list => rfl
      | glob => rfl
      | _ => rcases hop with hop | hop <;> cases hop
    refine ⟨?_, ?_, ?_⟩
    · refine Event.warnings_eq_nil fun e he hlevel => ?_
      have hgrep := (warning_of_call he hlevel).1
      rcases hop with hop | hop <;> rw [hop] at hgrep <;> cases hgrep
    · intro a ha
      obtain ⟨output, hprinted, rfl, -⟩ := call_of_ok ha
      exact ⟨output, hprinted, hanswer output⟩
    · intro output hprinted
      rw [(call_of_printed hprinted).1, hanswer output]

end Sandbox
end RemoteFiles
