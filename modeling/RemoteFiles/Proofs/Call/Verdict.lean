import RemoteFiles.Proofs.Call.Course
import RemoteFiles.Proofs.Outcome
import RemoteFiles.Proofs.Verification

/-!
# What decides a call

The reply to a call's request is looked at in one order: whether it came, whether it came whole, its
status, its outer document, its inner document, and the flag in that.  The first of these that is
not as it should be is the error, and it names the operation that was called.

## Main definitions

* `Execution.firstText`, `Execution.failureText` — what an execution says, as far as it is used.
* `Call.Answers` — what a call is answered when its script has printed a text.
* `Call.Decided` — what each reply to a call comes to.

## Main results

* `Call.decided_iff` — what a reply comes to is one thing only, and it is what is concluded.
* `Sandbox.call_decided` — **the reply alone decides what a call ends with.**
-/

namespace RemoteFiles

open Json (decode)

/-! ### What replies come to -/

namespace Execution

/-- The text of the first output. -/
def firstText (x : Execution) : String :=
  match x.outputs with
  | [] => ""
  | o :: _ => o.text

/-- What the first output says of a failure: its text, or else its exception. -/
def failureText (x : Execution) : String :=
  match x.outputs with
  | [] => ""
  | o :: _ =>
    if o.text ≠ "" then o.text
    else if o.exception ≠ "" then o.exception ++ ": " ++ o.reason
    else ""

/-- An execution that succeeded has the first text for its outcome. -/
theorem outcome_of_success {x : Execution} (h : x.success = true) :
    x.outcome = ⟨x.firstText, 0⟩ := by
  obtain ⟨success, outputs⟩ := x
  cases h
  cases outputs with
  | nil => rfl
  | cons o outputs => rfl

/-- An execution that did not succeed has the text of its failure for its outcome. -/
theorem outcome_of_failure {x : Execution} (h : x.success = false) :
    x.outcome = ⟨x.failureText, -1⟩ := by
  obtain ⟨success, outputs⟩ := x
  cases h
  cases outputs with
  | nil => rfl
  | cons o outputs => rfl

end Execution

namespace Call

/-- What a call is answered when its script has succeeded and printed a text: the text as it stands,
nothing, or the records on its lines. -/
inductive Answers : Call → String → Answer → Prop where
  | list (path text : String) : Answers (.list path) text (.entries (decodeLines Entry.schema text))
  | read (path : String) (offset limit : Int) (text : String) :
      Answers (.read path offset limit) text (.content text)
  | write (path content text : String) : Answers (.write path content) text .done
  | edit (path old new : String) (everywhere : Bool) (text : String) :
      Answers (.edit path old new everywhere) text .done
  | grep (path pattern files text : String) :
      Answers (.grep path pattern files) text (.hits (decodeLines Hit.schema text))
  | glob (path pattern text : String) :
      Answers (.glob path pattern) text (.entries (decodeLines Entry.schema text))
  | execute (command text : String) : Answers (.execute command) text (.output text (some 0))

/-- What each reply to the request of a call comes to, in the order in which it is looked at. -/
inductive Decided (c : Call) (url : Url) : Reply → Except FileError Answer → Prop where
  /-- There is no reply. -/
  | silence : Decided c url .silence (.error (.invoke c.operation
      (.request ("error sending request for url (" ++ url.text ++ ")"))))
  /-- The reply breaks off, whatever its status is. -/
  | cutShort (status : Nat) : Decided c url (.cutShort status) (.error (.invoke c.operation
      (.readBody "error decoding response body")))
  /-- The status is not 200, whatever the body is. -/
  | status {status : Nat} (body : List UInt8) (h : status ≠ 200) :
      Decided c url (.answer status body) (.error (.invoke c.operation (.status status)))
  /-- The outer document cannot be read. -/
  | envelope {body : List UInt8} {e : Json.Error} (h : decode Envelope.schema.read body = .error e) :
      Decided c url (.answer 200 body)
        (.error (.invoke c.operation (.decodeResponse e.message)))
  /-- The inner document cannot be read. -/
  | result {body : List UInt8} {envelope : Envelope} {e : Json.Error}
      (h : decode Envelope.schema.read body = .ok envelope)
      (hresult : decode Execution.schema.read (Utf8.encode envelope.result) = .error e) :
      Decided c url (.answer 200 body)
        (.error (.invoke c.operation (.decodeResult e.message)))
  /-- The script did not succeed. -/
  | failure {body : List UInt8} {envelope : Envelope} {x : Execution}
      (h : decode Envelope.schema.read body = .ok envelope)
      (hresult : decode Execution.schema.read (Utf8.encode envelope.result) = .ok x)
      (hx : x.success = false) :
      Decided c url (.answer 200 body)
        (.error (.scriptFailed c.operation (-1) x.failureText))
  /-- The script succeeded. -/
  | success {body : List UInt8} {envelope : Envelope} {x : Execution} {a : Answer}
      (h : decode Envelope.schema.read body = .ok envelope)
      (hresult : decode Execution.schema.read (Utf8.encode envelope.result) = .ok x)
      (hx : x.success = true) (ha : c.Answers x.firstText a) :
      Decided c url (.answer 200 body) (.ok a)

/-! ### One order -/

variable {c : Call} {url : Url} {reply : Reply} {verdict : Except FileError Answer}

theorem answers_iff {text : String} {a : Answer} : c.Answers text a ↔ c.answer text = a := by
  constructor
  · intro h
    cases h <;> rfl
  · rintro rfl
    cases c <;> constructor

/-- What is concluded from a reply is what it comes to. -/
theorem decided_conclude (c : Call) (url : Url) (reply : Reply) :
    c.Decided url reply (c.conclude (Transport.outcomeOf url reply)) := by
  cases reply with
  | silence => exact .silence
  | cutShort status => exact .cutShort status
  | answer status body =>
    by_cases hstatus : status = 200
    · subst hstatus
      rw [Transport.outcomeOf, if_pos rfl, Outcome.decode]
      -- the two documents are read one after the other
      cases henvelope : decode Envelope.schema.read body with
      | error e => exact .envelope henvelope
      | ok envelope =>
        cases hresult : decode Execution.schema.read (Utf8.encode envelope.result) with
        | error e =>
          simp only [hresult]
          exact .result henvelope hresult
        | ok x =>
          simp only [hresult]
          cases hx : x.success with
          | false =>
            rw [Execution.outcome_of_failure hx]
            exact .failure henvelope hresult hx
          | true =>
            rw [Execution.outcome_of_success hx]
            exact .success henvelope hresult hx (answers_iff.mpr rfl)
    · rw [Transport.outcomeOf, if_neg hstatus]
      exact .status body hstatus

/-- **A reply comes to one thing only**, and that is what is concluded from it. -/
theorem decided_iff :
    c.Decided url reply verdict ↔ c.conclude (Transport.outcomeOf url reply) = verdict := by
  constructor
  · intro h
    cases h with
    | silence => rfl
    | cutShort status => rfl
    | status body hstatus => rw [Transport.outcomeOf, if_neg hstatus]; rfl
    | envelope h => rw [Transport.outcomeOf, if_pos rfl, Outcome.decode, h]; rfl
    | result h hresult =>
      rw [Transport.outcomeOf, if_pos rfl, Outcome.decode, h]
      simp only [hresult]
      rfl
    | failure h hresult hx =>
      rw [Transport.outcomeOf, if_pos rfl, Outcome.decode, h]
      simp only [hresult]
      rw [Execution.outcome_of_failure hx]
      rfl
    | success h hresult hx ha =>
      rw [Transport.outcomeOf, if_pos rfl, Outcome.decode, h]
      simp only [hresult]
      rw [Execution.outcome_of_success hx, ← answers_iff.mp ha]
      rfl
  · rintro rfl
    exact decided_conclude c url reply

/-- An error names the operation that was called, and has the exit code -1 or none. -/
theorem Decided.of_error {e : FileError} (h : c.Decided url reply (.error e)) :
    e.operation? = some c.operation ∧ ∀ code : Int, e.exitCode? = some code ↔
      code = -1 ∧ ∃ text, e = .scriptFailed c.operation (-1) text := by
  cases h with
  | failure h hresult hx =>
    refine ⟨rfl, fun code => ?_⟩
    constructor
    · intro hcode
      exact ⟨(Option.some.inj hcode).symm, _, rfl⟩
    · rintro ⟨rfl, _⟩
      rfl
  | _ =>
    refine ⟨rfl, fun code => ?_⟩
    constructor
    · intro hcode
      cases hcode
    · rintro ⟨_, text, hfailed⟩
      cases hfailed

/-- An error is of the connection exactly where there was no reply. -/
theorem Decided.isConnection_iff (h : c.Decided url reply verdict) :
    (∃ cause : InvokeError, verdict = .error (.invoke c.operation cause) ∧
      cause.isConnection = true) ↔ reply = .silence := by
  cases h with
  | silence =>
    constructor
    · intro _
      rfl
    · intro _
      exact ⟨_, rfl, rfl⟩
  | _ =>
    constructor
    · rintro ⟨cause, hcause, hconnection⟩
      cases hcause <;> cases hconnection
    · intro hreply
      cases hreply

/-- An answer was sent whole with the status 200, and says that the script succeeded. -/
theorem Decided.of_ok {a : Answer} (h : c.Decided url reply (.ok a)) :
    ∃ body envelope x, reply = .answer 200 body ∧
      decode Envelope.schema.read body = .ok envelope ∧
      decode Execution.schema.read (Utf8.encode envelope.result) = .ok x ∧
      x.success = true ∧ c.Answers x.firstText a := by
  cases h with
  | success h hresult hx ha => exact ⟨_, _, _, rfl, h, hresult, hx, ha⟩

end Call

/-! ### Calls -/

namespace Sandbox

/-- **The reply alone decides what a call ends with.**  A call that makes sense sends one request,
if a request can be sent to its address at all, and ends with the one thing that the reply comes
to.  An error names the operation, has an exit code only if the script failed, and is one of the
connection only if there was no reply; an answer is given only if the script succeeded. -/
theorem call_decided [Url.Names] {s : Sandbox} {url : Url} {host : String} {c : Call} {ps : Template.Params}
    (now : Int) (peer : Peer) (hsend : s.transport.CanSend url host) (h : c.params = .ok ps) :
    ∃ r, r.url = url ∧ (s.call now peer c).sent = [r] ∧
      (∀ verdict, c.Decided url (peer r) verdict ↔ (s.call now peer c).result = verdict) ∧
      (∀ e, (s.call now peer c).result = .error e → e.operation? = some c.operation ∧
        ∀ code : Int, e.exitCode? = some code ↔
          code = -1 ∧ ∃ text, e = .scriptFailed c.operation (-1) text) ∧
      ((∃ cause : InvokeError, (s.call now peer c).result = .error (.invoke c.operation cause) ∧
        cause.isConnection = true) ↔ peer r = .silence) ∧
      ∀ a, (s.call now peer c).result = .ok a →
        ∃ body envelope x, peer r = .answer 200 body ∧
          decode Envelope.schema.read body = .ok envelope ∧
          decode Execution.schema.read (Utf8.encode envelope.result) = .ok x ∧
          x.success = true ∧ c.Answers x.firstText a := by
  have hrun := Transport.run_of_canSend hsend now peer c.scriptText
  have hcall := s.call_of_params now peer h
  rw [hrun] at hcall
  have hdecided : ∀ verdict, c.Decided url (peer (s.transport.request url host
      (s.transport.body c.scriptText) now)) verdict ↔ (s.call now peer c).result = verdict := by
    intro verdict
    rw [Call.decided_iff, hcall]
  refine ⟨s.transport.request url host (s.transport.body c.scriptText) now, rfl, ?_, hdecided, ?_,
    ?_, ?_⟩
  · rw [hcall]
  · intro e he
    exact ((hdecided _).mpr he).of_error
  · exact ((hdecided _).mpr rfl).isConnection_iff
  · intro a ha
    exact ((hdecided _).mpr ha).of_ok

/-- A file that exists already is not written, and the caller is told what the script said. -/
theorem call_decided_failure :
    let s : Sandbox := ⟨.ofAddress "http://127.0.0.1:8080" {}⟩
    let x : Execution := ⟨false, [{ text := "Error: File '/a' already exists" }]⟩
    ∃ r, (s.call 0 (fun _ => .answer 200 x.answer) (.write "/a" "b")).sent = [r] ∧
      (s.call 0 (fun _ => .answer 200 x.answer) (.write "/a" "b")).result =
        .error (.scriptFailed .write (-1) "Error: File '/a' already exists") := by
  intro s x
  have hsend : s.transport.CanSend Transport.loopbackUrl "127.0.0.1:8080" :=
    Transport.canSend_loopback (by decide) (by decide)
  obtain ⟨ps, hps⟩ : ∃ ps, (Call.write "/a" "b").params = .ok ps := ⟨_, rfl⟩
  obtain ⟨r, _, hsent, hdecided, _⟩ := call_decided 0 (fun _ => .answer 200 x.answer) hsend hps
  exact ⟨r, hsent, (hdecided _).mp (.failure x.decode_envelope x.decode_result rfl)⟩

end Sandbox
end RemoteFiles
