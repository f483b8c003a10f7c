import RemoteFiles.Proofs.Call.Course
import RemoteFiles.Proofs.Headers
import RemoteFiles.Proofs.Invocation
import RemoteFiles.Proofs.Json.Shapes
import RemoteFiles.Proofs.Outcome

/-!
# What the log tells

The log tells sizes, statuses and exit codes.  Two calls whose texts have the same sizes, and whose
replies differ in no more than what was said in them, leave the same events; only the lines that
should be hits and are none stand in the log as they are.

## Main definitions

* `Argument.Alike`, `Call.Alike` — calls whose texts have the same sizes.
* `Outcome.Class`, `Reply.Alike` — replies with the same status, size and kind of outcome.

## Main results

* `Transport.length_body` — the size of a body depends on the sizes of the texts in its script.
* `Sandbox.warning_of_call` — every warning is about a line that is no hit.
* `Sandbox.log_tells_sizes` — **calls and replies of the same sizes leave the same events.**
-/

namespace RemoteFiles

open Json (SameShape)

/-! ### Calls and replies that look alike -/

/-- Arguments that look alike: texts of one size, and numbers and flags that are the same. -/
inductive Argument.Alike : Argument → Argument → Prop where
  | text {s t : String} (h : s.utf8ByteSize = t.utf8ByteSize) : Alike (.text s) (.text t)
  | number (n : Int) : Alike (.number n) (.number n)
  | flag (b : Bool) : Alike (.flag b) (.flag b)

/-- Calls that look alike: of one operation, and with arguments that look alike. -/
structure Call.Alike (c c' : Call) : Prop where
  operation : c.operation = c'.operation
  arguments : List.Forall₂ Argument.Alike (c.arguments.map Prod.snd) (c'.arguments.map Prod.snd)

/-- The kinds of outcome. -/
inductive Outcome.Class where
  | undecodable
  | failure
  | success
  deriving DecidableEq, Repr

/-- The kind of outcome that the body of an answer holds. -/
def Outcome.classOf (body : List UInt8) : Class :=
  match decode body with
  | .error _ => .undecodable
  | .ok o => if o.succeeded then .success else .failure

/-- Replies that look alike: both missing, both cut short, or with the same status, size and kind of
outcome. -/
inductive Reply.Alike : Reply → Reply → Prop where
  | silence : Alike .silence .silence
  | cutShort (status status' : Nat) : Alike (.cutShort status) (.cutShort status')
  | answer (status : Nat) {body body' : List UInt8} (hlength : body.length = body'.length)
      (hclass : Outcome.classOf body = Outcome.classOf body') :
      Alike (.answer status body) (.answer status body')

/-! ### Sizes -/

/-- The words of arguments that look alike are of one shape. -/
theorem Argument.Alike.word {a a' : Argument} (h : a.Alike a') : SameShape a.word a'.word := by
  cases h with
  | text h =>
    refine .of_words ?_ (fun _ => Base64.isWordChar_of_mem_encodeChars)
      fun _ => Base64.isWordChar_of_mem_encodeChars
    rw [Argument.word, Argument.word, Base64.length_encodeChars, Base64.length_encodeChars,
      Utf8.length_encode, Utf8.length_encode, h]
  | number n => exact .refl _
  | flag b => exact .refl _

/-- Words of one shape between the same texts make texts of one shape. -/
theorem Template.weave_sameShape (pieces : List (List Char)) :
    ∀ {words words' : List (List Char)}, List.Forall₂ SameShape words words' →
      SameShape (weave pieces words) (weave pieces words') := by
  induction pieces with
  | nil =>
    intro words words' _
    cases words <;> cases words' <;> exact .refl _
  | cons piece pieces ih =>
    intro words words' h
    cases h with
    | nil => exact .refl _
    | cons hword hwords => exact ((SameShape.refl piece).append hword).append (ih hwords)

/-- The scripts of calls that look alike are of one shape. -/
theorem Call.Alike.scriptText {c c' : Call} (h : c.Alike c') :
    SameShape c.scriptText.toList c'.scriptText.toList := by
  have hwords : List.Forall₂ SameShape (c.arguments.map fun p => p.2.word)
      (c'.arguments.map fun p => p.2.word) := by
    have hargs := h.arguments
    rw [List.forall₂_map_left_iff, List.forall₂_map_right_iff] at hargs ⊢
    exact hargs.imp fun _ _ => Argument.Alike.word
  rw [Call.scriptText, Call.scriptText, String.toList_ofList, String.toList_ofList, h.operation]
  exact Template.weave_sameShape _ hwords

namespace Transport

/-- **Scripts of one shape make bodies of one size.** -/
theorem length_body (t : Transport) {code code' : String}
    (h : SameShape code.toList code'.toList) : (t.body code).length = (t.body code').length := by
  -- the script is one member of the payload, and the payload one member of the invocation
  have hpayload : SameShape
      (Payload.ofCode code t.identity.executionTimeout).toJson.write.toList
      (Payload.ofCode code' t.identity.executionTimeout).toJson.write.toList := by
    rw [Payload.toJson_ofCode, Payload.toJson_ofCode, Json.Value.write, Json.Value.write,
      String.toList_ofList, String.toList_ofList]
    exact SameShape.record_member [] _ "code" (SameShape.quote h)
  have hinvocation : SameShape (Invocation.ofScript t.identity code).toJson.chars
      (Invocation.ofScript t.identity code').toJson.chars := by
    rw [Invocation.toJson_ofScript, Invocation.toJson_ofScript]
    exact SameShape.record_member [_, _, _] _ "OperationPayload" (SameShape.quote hpayload)
  rw [body, body, Invocation.body, Invocation.body, Json.Value.write, Json.Value.write,
    Utf8.encode_ofList, Utf8.encode_ofList]
  exact hinvocation.length_bytes

/-- What is received of replies that look alike looks the same in the log. -/
theorem received_alike {reply reply' : Reply} (h : reply.Alike reply') :
    received reply = received reply' := by
  cases h with
  | silence => rfl
  | cutShort status status' => rfl
  | answer status hlength hclass => rw [received, received, hlength]

end Transport

/-! ### Exit codes -/

namespace Outcome

/-- An outcome that has been decoded is that of an execution. -/
theorem exists_of_decode {body : List UInt8} {o : Outcome} (h : decode body = .ok o) :
    ∃ x : Execution, x.outcome = o := by
  unfold decode at h
  split at h
  · cases h
  · split at h
    · cases h
    · next x _ =>
      cases h
      exact ⟨x, rfl⟩

/-- The exit code of an outcome says of which kind it is, and no more. -/
theorem exitCode_of_decode (body : List UInt8) :
    (decode body).toOption.map exitCode =
      match classOf body with
      | .undecodable => none
      | .failure => some exitFailure
      | .success => some exitSuccess := by
  unfold classOf
  cases hdecode : decode body with
  | error e => rfl
  | ok o =>
    obtain ⟨x, rfl⟩ := exists_of_decode hdecode
    obtain ⟨success, outputs⟩ := x
    cases success <;> rfl

end Outcome

/-- Replies that look alike come to the same exit code, if they come to one. -/
theorem Transport.exitCode_alike (url : Url) {reply reply' : Reply} (h : reply.Alike reply') :
    (outcomeOf url reply).toOption.map Outcome.exitCode =
      (outcomeOf url reply').toOption.map Outcome.exitCode := by
  cases h with
  | silence => rfl
  | cutShort status status' => rfl
  | answer status hlength hclass =>
    by_cases hstatus : status = 200
    · rw [outcomeOf, outcomeOf, if_pos hstatus, if_pos hstatus, Outcome.exitCode_of_decode,
        Outcome.exitCode_of_decode, hclass]
    · rw [outcomeOf, outcomeOf, if_neg hstatus, if_neg hstatus]

/-! ### Events that are no warnings -/

namespace Event

/-- The events that are no warnings. -/
def quiet (es : List Event) : List Event := es.filter fun e => e.level ≠ .warning

theorem quiet_append (es fs : List Event) : quiet (es ++ fs) = quiet es ++ quiet fs :=
  List.filter_append es fs

theorem quiet_cons {e : Event} (h : e.level ≠ .warning) (es : List Event) :
    quiet (e :: es) = e :: quiet es := List.filter_cons_of_pos (decide_eq_true h)

theorem quiet_eq_self {es : List Event} (h : ∀ e ∈ es, e.level ≠ .warning) : quiet es = es :=
  List.filter_eq_self.mpr fun e he => decide_eq_true (h e he)

theorem quiet_eq_nil {es : List Event} (h : ∀ e ∈ es, e.level = .warning) : quiet es = [] :=
  List.filter_eq_nil_iff.mpr fun e he hquiet => of_decide_eq_true hquiet (h e he)

end Event

/-! ### Warnings -/

/-- The lines of a text are its trimmed pieces that are not blank. -/
theorem Text.mem_filledLines {line text : String} :
    line ∈ filledLines text ↔ ∃ piece ∈ text.toList.splitOn '\n', trimChars piece ≠ [] ∧
      line = String.ofList (trimChars piece) := by
  rw [filledLines, List.mem_map]
  constructor
  · rintro ⟨cs, hcs, rfl⟩
    obtain ⟨hmem, hfilled⟩ := List.mem_filter.mp hcs
    obtain ⟨piece, hpiece, rfl⟩ := List.mem_map.mp hmem
    exact ⟨piece, hpiece, of_decide_eq_true hfilled, rfl⟩
  · rintro ⟨piece, hpiece, hfilled, rfl⟩
    refine ⟨_, List.mem_filter.mpr ⟨List.mem_map_of_mem hpiece, ?_⟩, rfl⟩
    exact decide_eq_true hfilled

/-- The lines that are left out are those that are no hit. -/
theorem Hit.mem_rejects {line output : String} {e : Json.Error} :
    (line, e) ∈ rejects output ↔
      line ∈ Text.filledLines output ∧ decodeLine schema line = .error e := by
  rw [rejects, List.mem_filterMap]
  constructor
  · rintro ⟨line', hline, hrejected⟩
    cases hdecode : decodeLine schema line' with
    | ok hit =>
      rw [hdecode] at hrejected
      cases hrejected
    | error e' =>
      rw [hdecode] at hrejected
      cases hrejected
      exact ⟨hline, hdecode⟩
  · rintro ⟨hline, hdecode⟩
    refine ⟨line, hline, ?_⟩
    rw [hdecode]

/-- A warning about an output is about one of its lines, which is no hit. -/
def Event.WarnsOf (output : String) (e : Event) : Prop :=
  ∃ piece ∈ output.toList.splitOn '\n', Text.trimChars piece ≠ [] ∧
    ∃ reason, decodeLine Hit.schema (String.ofList (Text.trimChars piece)) = .error reason ∧
      e = .skipped reason.message (String.ofList (Text.trimChars piece))

namespace Call

open Event (quiet)

variable {c : Call} {output : String} {e : Event}

/-- Only a search warns, and only of lines that are no hits. -/
theorem warnsOf_of_mem_warnings (h : e ∈ c.warnings output) :
    c.operation = .grep ∧ e.WarnsOf output := by
  cases c with
  | grep path text files =>
    obtain ⟨⟨line, reason⟩, hmem, rfl⟩ := List.mem_map.mp h
    obtain ⟨hline, hdecode⟩ := Hit.mem_rejects.mp hmem
    obtain ⟨piece, hpiece, hfilled, rfl⟩ := Text.mem_filledLines.mp hline
    exact ⟨rfl, piece, hpiece, hfilled, reason, hdecode, rfl⟩
  | _ => cases h

theorem level_of_mem_warnings (h : e ∈ c.warnings output) : e.level = .warning := by
  obtain ⟨_, piece, _, _, reason, _, rfl⟩ := warnsOf_of_mem_warnings h
  rfl

/-- What is logged in the end is no warning, unless it is one of a search that has succeeded. -/
theorem warnsOf_of_mem_closing {x : Except InvokeError Outcome} (h : e ∈ c.closing x)
    (hlevel : e.level = .warning) :
    c.operation = .grep ∧ ∃ o, x = .ok o ∧ o.succeeded = true ∧ e.WarnsOf o.text := by
  cases x with
  | error f => cases h
  | ok o =>
    simp only [closing] at h
    cases ho : o.succeeded with
    | true =>
      rw [if_pos ho] at h
      obtain ⟨hop, hwarns⟩ := warnsOf_of_mem_warnings h
      exact ⟨hop, o, rfl, ho, hwarns⟩
    | false =>
      rw [ho, if_neg Bool.false_ne_true, List.mem_singleton] at h
      subst h
      cases hlevel

/-- Apart from warnings, what is logged in the end is a failure with its exit code. -/
theorem quiet_closing (c : Call) (x : Except InvokeError Outcome) :
    quiet (c.closing x) =
      match x.toOption.map Outcome.exitCode with
      | none => []
      | some code => if code = exitSuccess then [] else [.failed c.operation code] := by
  cases x with
  | error e => rfl
  | ok o =>
    change quiet (if o.succeeded then _ else _) = if o.exitCode = exitSuccess then _ else _
    by_cases ho : o.exitCode = exitSuccess
    · have hsucceeded : o.succeeded = true := decide_eq_true ho
      rw [if_pos ho, if_pos hsucceeded]
      exact Event.quiet_eq_nil fun e he => level_of_mem_warnings he
    · have hfailed : ¬o.succeeded = true := fun h => ho (of_decide_eq_true h)
      rw [if_neg ho, if_neg hfailed]
      rfl

end Call

/-! ### Runs and calls -/

/-- The events of a run are no warnings. -/
theorem Transport.level_of_mem_run [Url.Names] {t : Transport} {now : Int} {peer : Peer} {code : String}
    {e : Event} (h : e ∈ (t.run now peer code).events) : e.level ≠ .warning := by
  rcases t.run_cases now peer code with
    ⟨f, _, hrun⟩ | ⟨url, host, f, _, _, hrun⟩ | ⟨url, host, _, _, hrun⟩
  · rw [hrun] at h
    cases h
  · rw [hrun, List.mem_singleton] at h
    subst h
    simp [Event.level]
  · rw [hrun, List.mem_cons] at h
    rcases h with rfl | h
    · simp [Event.level]
    · cases hreply : peer (t.request url host (t.body code) now) with
      | answer status body =>
        rw [hreply, received, List.mem_singleton] at h
        subst h
        simp [Event.level]
      | _ =>
        rw [hreply] at h
        cases h

/-- A run that comes to an outcome has it from an answer with the status 200. -/
theorem Transport.answer_of_run_eq_ok [Url.Names] {t : Transport} {now : Int} {peer : Peer} {code : String}
    {o : Outcome} (h : (t.run now peer code).result = .ok o) :
    ∃ r body, (t.run now peer code).sent = [r] ∧ peer r = .answer 200 body ∧
      Outcome.decode body = .ok o := by
  rcases t.run_cases now peer code with
    ⟨f, _, hrun⟩ | ⟨url, host, f, _, _, hrun⟩ | ⟨url, host, _, _, hrun⟩
  · rw [hrun] at h
    cases h
  · rw [hrun] at h
    cases h
  · rw [hrun] at h ⊢
    cases hreply : peer (t.request url host (t.body code) now) with
    | answer status body =>
      rw [hreply, outcomeOf] at h
      by_cases hstatus : status = 200
      · rw [if_pos hstatus] at h
        exact ⟨_, body, rfl, by rw [hreply, hstatus], h⟩
      · rw [if_neg hstatus] at h
        cases h
    | _ =>
      rw [hreply] at h
      cases h

/-- A run whose request was answered with the status 200 comes to the outcome in the answer. -/
theorem Transport.run_of_answer [Url.Names] {t : Transport} {now : Int} {peer : Peer} {code : String}
    {r : Request} {body : List UInt8} {o : Outcome} (hsent : (t.run now peer code).sent = [r])
    (hreply : peer r = .answer 200 body) (hdecode : Outcome.decode body = .ok o) :
    (t.run now peer code).result = .ok o := by
  rcases t.run_cases now peer code with
    ⟨f, _, hrun⟩ | ⟨url, host, f, _, _, hrun⟩ | ⟨url, host, _, _, hrun⟩
  · rw [hrun] at hsent
    cases hsent
  · rw [hrun] at hsent
    cases hsent
  · rw [hrun] at hsent ⊢
    obtain ⟨rfl, -⟩ := List.cons.inj hsent
    rw [hreply, outcomeOf, if_pos rfl, hdecode]

/-- Runs of scripts of one shape, given replies that look alike, leave the same events and come to
the same exit code. -/
theorem Transport.run_alike_of_sizes [Url.Names] (t : Transport) (now now' : Int) {peer peer' : Peer}
    {code code' : String} (hcode : SameShape code.toList code'.toList)
    (hpeer : ∀ r ∈ (t.run now peer code).sent, ∀ r' ∈ (t.run now' peer' code').sent,
      (peer r).Alike (peer' r')) :
    (t.run now peer code).events = (t.run now' peer' code').events ∧
      (t.run now peer code).result.toOption.map Outcome.exitCode =
        (t.run now' peer' code').result.toOption.map Outcome.exitCode := by
  have hbody := t.length_body hcode
  rcases t.run_cases now peer code with
    ⟨f, hendpoint, hrun⟩ | ⟨url, host, f, hendpoint, hcheck, hrun⟩ |
      ⟨url, host, hendpoint, hcheck, hrun⟩
  · rw [hrun, run_of_endpoint_error now' peer' code' hendpoint]
    exact ⟨rfl, rfl⟩
  · have hcheck' : (t.request url host (t.body code') now').check = .error f :=
      (check_request_congr rfl rfl).trans hcheck
    rw [hrun, run_of_check_error peer' code' hendpoint hcheck', hbody]
    exact ⟨rfl, rfl⟩
  · have hcheck' : (t.request url host (t.body code') now').check = .ok () :=
      (check_request_congr rfl rfl).trans hcheck
    have hrun' := run_of_check peer' code' hendpoint hcheck'
    rw [hrun, hrun'] at hpeer ⊢
    have hreply := hpeer _ List.mem_cons_self _ List.mem_cons_self
    refine ⟨?_, exitCode_alike url hreply⟩
    simp only [hbody, received_alike hreply]

namespace Sandbox

open Event (quiet)

variable {s : Sandbox} {c c' : Call} {now : Int} {peer : Peer}

/-- **Every warning of a call is about a line of what its script printed** that is no hit, and the
call is a search whose script has succeeded. -/
theorem warning_of_call [Url.Names] {e : Event} (h : e ∈ (s.call now peer c).events)
    (hlevel : e.level = .warning) :
    c.operation = .grep ∧ ∃ r body o, (s.call now peer c).sent = [r] ∧
      peer r = .answer 200 body ∧ Outcome.decode body = .ok o ∧ o.succeeded = true ∧
      e.WarnsOf o.text := by
  cases hparams : c.params with
  | error f =>
    rw [s.call_of_refused now peer hparams] at h
    cases h
  | ok ps =>
    rw [s.call_of_params now peer hparams] at h ⊢
    rw [List.mem_cons, List.mem_append] at h
    rcases h with rfl | h | h
    · cases hlevel
    · exact absurd hlevel (Transport.level_of_mem_run h)
    · obtain ⟨hop, o, hresult, ho, hwarns⟩ := Call.warnsOf_of_mem_closing h hlevel
      obtain ⟨r, body, hsent, hreply, hdecode⟩ := Transport.answer_of_run_eq_ok hresult
      exact ⟨hop, r, body, o, hsent, hreply, hdecode, ho, hwarns⟩

/-- Calls that look alike and are given replies that look alike leave the same events, apart from
warnings. -/
theorem quiet_events_call [Url.Names] {ps ps' : Template.Params} (now now' : Int) {peer peer' : Peer}
    (hparams : c.params = .ok ps) (hparams' : c'.params = .ok ps') (hcalls : c.Alike c')
    (hpeer : ∀ r ∈ (s.call now peer c).sent, ∀ r' ∈ (s.call now' peer' c').sent,
      (peer r).Alike (peer' r')) :
    quiet (s.call now peer c).events = quiet (s.call now' peer' c').events := by
  have hsize : c.scriptText.utf8ByteSize = c'.scriptText.utf8ByteSize := by
    rw [← Utf8.length_encode, ← Utf8.length_encode, Utf8.encode_eq_bytes, Utf8.encode_eq_bytes]
    exact hcalls.scriptText.length_bytes
  rw [s.call_of_params now peer hparams, s.call_of_params now' peer' hparams'] at hpeer ⊢
  obtain ⟨hevents, hcode⟩ := s.transport.run_alike_of_sizes now now' hcalls.scriptText hpeer
  have hclosing : quiet (c.closing (s.transport.run now peer c.scriptText).result) =
      quiet (c'.closing (s.transport.run now' peer' c'.scriptText).result) := by
    rw [Call.quiet_closing, Call.quiet_closing, hcode, hcalls.operation]
  change quiet (_ :: _) = quiet (_ :: _)
  rw [hsize, hcalls.operation, Event.quiet_cons (by simp [Event.level]),
    Event.quiet_cons (by simp [Event.level]), Event.quiet_append, Event.quiet_append, hevents,
    hclosing]

/-- **The log tells sizes, statuses and exit codes.**  Two calls of one operation, whose texts have
the same sizes and whose replies look alike, leave the same events, apart from the warnings of a
search.  A warning is about one line of the text that the script of a search printed, a line that is
not blank and is no hit, and holds that line and what is wrong with it. -/
theorem log_tells_sizes [Url.Names] {ps ps' : Template.Params} (s : Sandbox) (now now' : Int)
    (peer peer' : Peer) (hparams : c.params = .ok ps) (hparams' : c'.params = .ok ps')
    (hcalls : c.Alike c')
    (hpeer : ∀ r ∈ (s.call now peer c).sent, ∀ r' ∈ (s.call now' peer' c').sent,
      (peer r).Alike (peer' r')) :
    (c.operation ≠ .grep → (s.call now peer c).events = (s.call now' peer' c').events) ∧
    (s.call now peer c).events.filter (fun e => e.level ≠ .warning) =
      (s.call now' peer' c').events.filter (fun e => e.level ≠ .warning) ∧
    ∀ e ∈ (s.call now peer c).events, e.level = .warning →
      c.operation = .grep ∧ ∃ r body o, (s.call now peer c).sent = [r] ∧
        peer r = .answer 200 body ∧ Outcome.decode body = .ok o ∧ o.succeeded = true ∧
        e.WarnsOf o.text := by
  have hquiet := quiet_events_call now now' hparams hparams' hcalls hpeer
  refine ⟨?_, hquiet, ?_⟩
  · -- there is nothing to set aside where there are no warnings
    intro hop
    have hop' : c'.operation ≠ .grep := by
      rw [← hcalls.operation]
      exact hop
    rw [Event.quiet_eq_self fun e he hlevel => hop (warning_of_call he hlevel).1,
      Event.quiet_eq_self fun e he hlevel => hop' (warning_of_call he hlevel).1] at hquiet
    exact hquiet
  · intro e he hlevel
    exact warning_of_call he hlevel

/-- Two files of one size that are both written leave the same events. -/
theorem log_tells_sizes_write :
    let s : Sandbox := ⟨.ofAddress "http://127.0.0.1:8080" {}⟩
    let peer : Peer := fun _ => .answer 200 (Execution.answer ⟨true, []⟩)
    (s.call 0 peer (.write "/x" "one")).events = (s.call 1 peer (.write "/y" "two")).events := by
  intro s peer
  have hcalls : (Call.write "/x" "one").Alike (.write "/y" "two") :=
    ⟨rfl, .cons (.text (by decide +kernel)) (.cons (.text (by decide)) .nil)⟩
  obtain ⟨hevents, _⟩ := log_tells_sizes s 0 1 peer peer rfl rfl hcalls
    fun r _ r' _ => .answer 200 rfl rfl
  exact hevents (by decide)

end Sandbox
end RemoteFiles
