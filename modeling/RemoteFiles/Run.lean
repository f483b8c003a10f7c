import RemoteFiles.Event
import RemoteFiles.Exchange

/-!
# Runs

What a computation did: the events it logged, the requests it sent, and how it ended.  A run that
has failed does nothing more.

## Main definitions

* `Run` — a run and its end.
* `Run.log`, `Run.send`, `Run.ofExcept` — the steps.
-/

namespace RemoteFiles

/-- What a computation did and how it ended. -/
structure Run (ε α : Type) where
  events : List Event
  sent : List Request
  result : Except ε α

namespace Run

/-- A run that does nothing. -/
def pure (a : α) : Run ε α := ⟨[], [], .ok a⟩

/-- A run that fails. -/
def fail (e : ε) : Run ε α := ⟨[], [], .error e⟩

/-- One run after another; the second needs the result of the first. -/
def bind (x : Run ε α) (f : α → Run ε β) : Run ε β :=
  match x.result with
  | .error e => ⟨x.events, x.sent, .error e⟩
  | .ok a => ⟨x.events ++ (f a).events, x.sent ++ (f a).sent, (f a).result⟩

instance : Monad (Run ε) where
  pure := pure
  bind := bind

/-- Log an event. -/
def log (e : Event) : Run ε Unit := ⟨[e], [], .ok ()⟩

/-- Send a request to a peer. -/
def send (peer : Peer) (r : Request) : Run ε Reply := ⟨[], [r], .ok (peer r)⟩

/-- A computation that leaves no trace. -/
def ofExcept : Except ε α → Run ε α
  | .ok a => pure a
  | .error e => fail e

/-- The same run with another kind of error. -/
def mapError (f : ε → ε') (x : Run ε α) : Run ε' α := ⟨x.events, x.sent, x.result.mapError f⟩

/-- Log one event after another. -/
def logAll (es : List Event) : Run ε Unit := ⟨es, [], .ok ()⟩

end Run
end RemoteFiles
