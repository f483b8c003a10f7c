import RemoteFiles.Proofs.Script.Arguments
import RemoteFiles.Proofs.Transport

/-!
# The course of a call

A call that makes no sense does nothing.  Any other call is the run of its script, with one event in
front of it and the events that its outcome calls for behind.

## Main definitions

* `Call.scriptText` — the script of a call that makes sense.
* `Call.conclude` — what a call makes of the end of its script's run.
* `Call.closing` — what is logged once that run has ended.

## Main results

* `Sandbox.call_of_refused`, `Sandbox.call_of_params` — **what a call does.**
-/

namespace RemoteFiles

namespace Call

/-- The script of a call that makes sense. -/
def scriptText (c : Call) : String :=
  String.ofList (Template.weave (Template.around (Script.tokens c.operation))
    (c.arguments.map fun p => p.2.word))

/-- What a call makes of the end of its script's run. -/
def conclude (c : Call) : Except InvokeError Outcome → Except FileError Answer
  | .error e => .error (.invoke c.operation e)
  | .ok o =>
    if o.succeeded then .ok (c.answer o.text)
    else .error (.scriptFailed c.operation o.exitCode o.text)

/-- What is logged once the run of a call's script has ended. -/
def closing (c : Call) : Except InvokeError Outcome → List Event
  | .error _ => []
  | .ok o => if o.succeeded then c.warnings o.text else [.failed c.operation o.exitCode]

end Call

namespace Sandbox

variable {c : Call}

/-- A call that makes no sense does nothing. -/
theorem call_of_refused [Url.Names] {e : FileError} (s : Sandbox) (now : Int) (peer : Peer)
    (h : c.params = .error e) : s.call now peer c = .fail e := by
  unfold call
  rw [h]
  rfl

/-- An outcome is answered from if the script succeeded, and reported if it did not. -/
theorem answering_eq (c : Call) (o : Outcome) :
    ((if o.succeeded then Pure.pure o.text else do
        Run.log (.failed c.operation o.exitCode)
        Run.fail (FileError.scriptFailed c.operation o.exitCode o.text)) >>= fun output => do
      Run.logAll (c.warnings output)
      return c.answer output) = ⟨c.closing (.ok o), [], c.conclude (.ok o)⟩ := by
  cases ho : o.succeeded with
  | true =>
    simp only [Call.closing, Call.conclude, ho, if_true]
    rw [Run.pure_bind, Run.logAll_bind, Run.events_pure, List.append_nil]
    rfl
  | false =>
    simp only [Call.closing, Call.conclude, ho, Bool.false_eq_true, if_false]
    rw [Run.bind_assoc, Run.log_bind]
    rfl

/-- **What a call does**: its script is run between the event that announces it and those that its
outcome calls for, and it ends with what the call makes of that outcome. -/
theorem call_of_params [Url.Names] {ps : Template.Params} (s : Sandbox) (now : Int) (peer : Peer)
    (h : c.params = .ok ps) :
    let x := s.transport.run now peer c.scriptText
    s.call now peer c =
      ⟨.running c.operation c.scriptText.utf8ByteSize :: (x.events ++ c.closing x.result), x.sent,
        c.conclude x.result⟩ := by
  intro x
  have hscript : c.script ps = .ok c.scriptText := Call.script_eq_weave h
  unfold call
  rw [h, Run.ofExcept_ok_bind, hscript, Run.ofExcept_ok_bind, runScript, Run.bind_assoc,
    Run.log_bind, Run.bind_assoc]
  simp only [answering_eq]
  cases hx : x.result with
  | error e =>
    have hend : (x.mapError (FileError.invoke c.operation)).result =
        .error (.invoke c.operation e) := by
      rw [Run.result_mapError, hx, mapError_error]
    rw [Run.bind_of_error hend, Call.closing, List.append_nil]
    rfl
  | ok o =>
    have hend : (x.mapError (FileError.invoke c.operation)).result = .ok o := by
      rw [Run.result_mapError, hx, mapError_ok]
    rw [Run.bind_of_ok hend, List.append_nil]
    rfl

end Sandbox
end RemoteFiles
