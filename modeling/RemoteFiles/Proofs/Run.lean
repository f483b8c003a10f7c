import RemoteFiles.Run

/-!
# Laws of runs

What one run after another logs, sends and ends with, and how to take a run apart from its front.

## Main results

* `Run.bind_of_ok`, `Run.bind_of_error` — one run after another, if the first ends well and if not.
* `Run.bind_assoc` — it does not matter which of three runs are taken together.
* `Run.result_bind_eq_error` — where the error of two runs comes from.
-/

namespace RemoteFiles

variable {ε α β : Type}

/-! ### Computations that may fail -/

@[simp] theorem mapError_ok {ε' : Type} (f : ε → ε') (a : α) :
    (Except.ok a).mapError f = .ok a := rfl

@[simp] theorem mapError_error {ε' : Type} (f : ε → ε') (e : ε) :
    (Except.error e : Except ε α).mapError f = .error (f e) := rfl

/-- A computation in two parts ends well when both do. -/
theorem except_bind_eq_ok {x : Except ε α} {f : α → Except ε β} {b : β} :
    (x >>= f) = .ok b ↔ ∃ a, x = .ok a ∧ f a = .ok b := by
  cases x with
  | error e => simp [bind, Except.bind]
  | ok a => simp [bind, Except.bind]

namespace Run

/-! ### Single steps -/

@[simp] theorem events_pure (a : α) : (Pure.pure a : Run ε α).events = [] := rfl

@[simp] theorem result_ofExcept (x : Except ε α) : (ofExcept x).result = x := by
  cases x <;> rfl

@[simp] theorem result_mapError {ε' : Type} (f : ε → ε') (x : Run ε α) :
    (x.mapError f).result = x.result.mapError f := rfl

/-! ### A step in front -/

theorem pure_bind (a : α) (f : α → Run ε β) : (Pure.pure a >>= f) = f a := rfl

theorem ofExcept_ok_bind (a : α) (f : α → Run ε β) : (ofExcept (.ok a) >>= f) = f a := rfl

theorem log_bind (e : Event) (f : Unit → Run ε β) :
    (log e >>= f) = ⟨e :: (f ()).events, (f ()).sent, (f ()).result⟩ := rfl

theorem logAll_bind (es : List Event) (f : Unit → Run ε β) :
    (logAll es >>= f) = ⟨es ++ (f ()).events, (f ()).sent, (f ()).result⟩ := rfl

theorem send_bind (peer : Peer) (r : Request) (f : Reply → Run ε β) :
    (send peer r >>= f) = ⟨(f (peer r)).events, r :: (f (peer r)).sent, (f (peer r)).result⟩ := rfl

/-! ### One run after another -/

theorem bind_of_ok {x : Run ε α} {a : α} (h : x.result = .ok a) (f : α → Run ε β) :
    (x >>= f) = ⟨x.events ++ (f a).events, x.sent ++ (f a).sent, (f a).result⟩ := by
  change Run.bind x f = _
  unfold Run.bind
  rw [h]

theorem bind_of_error {x : Run ε α} {e : ε} (h : x.result = .error e) (f : α → Run ε β) :
    (x >>= f) = ⟨x.events, x.sent, .error e⟩ := by
  change Run.bind x f = _
  unfold Run.bind
  rw [h]

theorem bind_assoc {γ : Type} (x : Run ε α) (f : α → Run ε β) (g : β → Run ε γ) :
    (x >>= f >>= g) = x >>= fun a => f a >>= g := by
  cases hx : x.result with
  | error e => rw [bind_of_error hx, bind_of_error rfl, bind_of_error hx]
  | ok a =>
    rw [bind_of_ok hx, bind_of_ok hx]
    cases hf : (f a).result with
    | error e => rw [bind_of_error rfl, bind_of_error hf]
    | ok b => rw [bind_of_ok rfl, bind_of_ok hf, List.append_assoc, List.append_assoc]

theorem result_bind (x : Run ε α) (f : α → Run ε β) :
    (x >>= f).result = x.result.bind fun a => (f a).result := by
  cases h : x.result with
  | error e => rw [bind_of_error h]; rfl
  | ok a => rw [bind_of_ok h]; rfl

/-- A run that ends in an error ends so in its first part, or in its second after the first has
ended well. -/
theorem result_bind_eq_error {x : Run ε α} {f : α → Run ε β} {e : ε} :
    (x >>= f).result = .error e ↔
      x.result = .error e ∨ ∃ a, x.result = .ok a ∧ (f a).result = .error e := by
  rw [result_bind]
  cases h : x.result <;> simp [Except.bind]

end Run
end RemoteFiles
