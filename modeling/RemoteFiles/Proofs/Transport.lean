import RemoteFiles.Proofs.Run
import RemoteFiles.Transport

/-!
# What a run does

A run of a script reads its address, sends one request or none, and ends with what the reply comes
to.  The steps that can fail come in this order, and each of them ends the run.

## Main definitions

* `Transport.received` — what is logged once the whole reply is there.
* `Transport.outcomeOf` — what a reply comes to.

## Main results

* `Transport.run_of_endpoint_error`, `Transport.run_of_check_error`, `Transport.run_of_check` — what a
  run does if its address is malformed, if something keeps its request back, and otherwise.
* `Transport.run_cases` — **these are all the runs there are.**
* `Transport.sent_run` — **a run sends one request at most, the one for its script.**
-/

namespace RemoteFiles
namespace Transport

/-! ### Replies -/

/-- What is logged once the whole reply is there. -/
def received : Reply → List Event
  | .silence => []
  | .cutShort _ => []
  | .answer status body => [.responded status body.length]

/-- What the reply to a request comes to. -/
def outcomeOf (url : Url) : Reply → Except InvokeError Outcome
  | .silence => .error (.request (SendFault.unanswered url).message)
  | .cutShort _ => .error (.readBody "error decoding response body")
  | .answer status body => if status = 200 then Outcome.decode body else .error (.status status)

/-- The reply is logged, and its body decoded if its status is 200. -/
theorem bodyOf_bind_decode (url : Url) (reply : Reply) :
    (bodyOf url reply >>= fun body => Run.ofExcept (Outcome.decode body)) =
      ⟨received reply, [], outcomeOf url reply⟩ := by
  cases reply with
  | silence => rfl
  | cutShort status => rfl
  | answer status body =>
    rw [bodyOf, Run.bind_assoc, Run.log_bind, received, outcomeOf]
    by_cases h : status = 200
    · rw [if_pos h, if_pos h, Run.pure_bind]
      cases Outcome.decode body with
      | error e => rfl
      | ok outcome => rfl
    · rw [if_neg h, if_neg h]
      rfl

/-! ### Runs -/

variable [Url.Names] {t : Transport} {url : Url} {host : String} {now : Int}

/-- A run whose address is malformed does nothing. -/
theorem run_of_endpoint_error {e : InvokeError} (now : Int) (peer : Peer) (code : String)
    (h : t.endpoint = .error e) : t.run now peer code = .fail e := by
  unfold run invoke
  rw [h]
  rfl

/-- A run whose request is kept back logs the request and does not send it. -/
theorem run_of_check_error {f : SendFault} (peer : Peer) (code : String)
    (hendpoint : t.endpoint = .ok (url, host))
    (hcheck : (t.request url host (t.body code) now).check = .error f) :
    t.run now peer code =
      ⟨[.invoking t.identity.toolId (t.body code).length], [], .error (.request f.message)⟩ := by
  unfold run invoke
  rw [hendpoint]
  simp only [Run.ofExcept_ok_bind, hcheck]
  rfl

/-- Any other run sends its request and ends with what the reply comes to. -/
theorem run_of_check (peer : Peer) (code : String) (hendpoint : t.endpoint = .ok (url, host))
    (hcheck : (t.request url host (t.body code) now).check = .ok ()) :
    let r := t.request url host (t.body code) now
    t.run now peer code =
      ⟨.invoking t.identity.toolId (t.body code).length :: received (peer r), [r],
        outcomeOf url (peer r)⟩ := by
  intro r
  unfold run invoke
  rw [hendpoint]
  simp only [Run.ofExcept_ok_bind, hcheck, mapError_ok, Run.bind_assoc, bodyOf_bind_decode]
  rw [Run.log_bind, Run.send_bind]

/-- **What a run does**: nothing, or it logs a request that is kept back, or it sends the request and
ends with what the reply comes to. -/
theorem run_cases (t : Transport) (now : Int) (peer : Peer) (code : String) :
    (∃ e, t.endpoint = .error e ∧ t.run now peer code = .fail e) ∨
    (∃ url host f, t.endpoint = .ok (url, host) ∧
      (t.request url host (t.body code) now).check = .error f ∧
      t.run now peer code =
        ⟨[.invoking t.identity.toolId (t.body code).length], [], .error (.request f.message)⟩) ∨
    ∃ url host, t.endpoint = .ok (url, host) ∧
      (t.request url host (t.body code) now).check = .ok () ∧
      t.run now peer code =
        ⟨.invoking t.identity.toolId (t.body code).length ::
            received (peer (t.request url host (t.body code) now)),
          [t.request url host (t.body code) now],
          outcomeOf url (peer (t.request url host (t.body code) now))⟩ := by
  cases hendpoint : t.endpoint with
  | error e => exact Or.inl ⟨e, rfl, run_of_endpoint_error now peer code hendpoint⟩
  | ok p =>
    obtain ⟨url, host⟩ := p
    right
    cases hcheck : (t.request url host (t.body code) now).check with
    | error f =>
      exact Or.inl ⟨url, host, f, rfl, hcheck, run_of_check_error peer code hendpoint hcheck⟩
    | ok u => exact Or.inr ⟨url, host, rfl, hcheck, run_of_check peer code hendpoint hcheck⟩

/-- **A run sends one request at most, the one for its script.** -/
theorem sent_run (t : Transport) (now : Int) (peer : Peer) (code : String) :
    (t.run now peer code).sent = [] ∨
      ∃ url host, t.endpoint = .ok (url, host) ∧
        (t.request url host (t.body code) now).check = .ok () ∧
        (t.run now peer code).sent = [t.request url host (t.body code) now] := by
  rcases t.run_cases now peer code with
    ⟨e, _, hrun⟩ | ⟨url, host, f, _, _, hrun⟩ | ⟨url, host, hendpoint, hcheck, hrun⟩
  · left
    rw [hrun]
    rfl
  · left
    rw [hrun]
  · right
    exact ⟨url, host, hendpoint, hcheck, by rw [hrun]⟩

end Transport
end RemoteFiles
