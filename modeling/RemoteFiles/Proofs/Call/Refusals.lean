import RemoteFiles.Proofs.Call.Course
import RemoteFiles.Proofs.Path.Normal

/-!
# Refused calls

Which calls are refused is told by the request alone, and a refused call leaves no trace.  Any other
call announces its script once and sends one request at most; and the path that such a script holds
is absolute, without a component that stays or climbs.

## Main definitions

* `Call.filePath?` — the path that a call insists on.
* `Call.Refused` — the calls that are refused, and what for.
* `Script.Quotes` — a text stands in a script.

## Main results

* `Call.refused_iff` — these are the calls that have no parameters.
* `Sandbox.call_refuses` — **a call is refused exactly for these faults, and without effect.**
-/

namespace RemoteFiles

open Template (weave around)

namespace Call

/-! ### Faults of a request -/

/-- The path of the file that a call is about, if it is about one file. -/
def filePath? : Call → Option String
  | read path _ _ => some path
  | write path _ => some path
  | edit path _ _ _ => some path
  | _ => none

/-- The calls that are refused, and what for.  A path comes before a text that is missing, and that
before one that is to be replaced by itself. -/
inductive Refused : Call → FileError → Prop where
  | relative {c : Call} {path : String} (hfile : c.filePath? = some path)
      (hpath : Path.isAbsolute path = false) : Refused c (.invalidPath (Path.clean path))
  | oldTextMissing {path : String} (new : String) (everywhere : Bool)
      (hpath : Path.isAbsolute path = true) :
      Refused (.edit path "" new everywhere) (.invalidArgument "old string is required")
  | newTextEqual {path old : String} (everywhere : Bool) (hpath : Path.isAbsolute path = true)
      (hold : old ≠ "") :
      Refused (.edit path old old everywhere)
        (.invalidArgument "new string must be different from old string")
  | commandMissing : Refused (.execute "") (.invalidArgument "command is required")

theorem absolute_of_isAbsolute {path : String} (h : Path.isAbsolute path = true) :
    absolute path = .ok (Path.clean path) := by
  have hclean : Path.isAbsolute (Path.clean path) = true := by rw [Path.isAbsolute_clean, h]
  unfold absolute Path.resolve Path.orDefault
  simp [hclean]

theorem absolute_of_not_isAbsolute {path : String} (h : Path.isAbsolute path = false) :
    absolute path = .error (.invalidPath (Path.clean path)) := by
  have hclean : Path.isAbsolute (Path.clean path) = false := by rw [Path.isAbsolute_clean, h]
  unfold absolute Path.resolve Path.orDefault
  simp [hclean]

/-- A refused call has no parameters. -/
theorem params_of_refused {c : Call} {e : FileError} (h : c.Refused e) : c.params = .error e := by
  cases h with
  | @relative _ path hfile hpath =>
    have habsolute := absolute_of_not_isAbsolute hpath
    cases c <;> cases hfile
    all_goals
      rw [params, habsolute]
      rfl
  | oldTextMissing new everywhere hpath =>
    rw [params, absolute_of_isAbsolute hpath]
    rfl
  | newTextEqual everywhere hpath hold =>
    rw [params, absolute_of_isAbsolute hpath]
    change (if _ then _ else _) = _
    rw [if_neg hold, if_pos rfl]
    rfl
  | commandMissing => rfl

/-- A call that is about one file and not refused is about one from the root. -/
theorem isAbsolute_of_params {c : Call} {ps : Template.Params} (h : c.params = .ok ps)
    {path : String} (hfile : c.filePath? = some path) : Path.isAbsolute path = true := by
  cases hpath : Path.isAbsolute path with
  | true => rfl
  | false =>
    rw [params_of_refused (.relative hfile hpath)] at h
    cases h

/-- **The calls without parameters are the refused ones.** -/
theorem refused_iff {c : Call} {e : FileError} : c.Refused e ↔ c.params = .error e := by
  refine ⟨params_of_refused, fun h => ?_⟩
  have hfile : ∀ path, c.filePath? = some path → Path.isAbsolute path = false → c.Refused e := by
    intro path hpath hrelative
    have hrefused : c.Refused (.invalidPath (Path.clean path)) := .relative hpath hrelative
    rw [params_of_refused hrefused, Except.error.injEq] at h
    exact h ▸ hrefused
  cases c with
  | list path => cases h
  | read path offset limit =>
    cases hpath : Path.isAbsolute path with
    | false => exact hfile path rfl hpath
    | true =>
      rw [params, absolute_of_isAbsolute hpath] at h
      cases h
  | write path content =>
    cases hpath : Path.isAbsolute path with
    | false => exact hfile path rfl hpath
    | true =>
      rw [params, absolute_of_isAbsolute hpath] at h
      cases h
  | edit path old new everywhere =>
    cases hpath : Path.isAbsolute path with
    | false => exact hfile path rfl hpath
    | true =>
      rw [params, absolute_of_isAbsolute hpath] at h
      change (if _ then _ else if _ then _ else _) = _ at h
      split at h
      · next hold =>
        cases h
        exact hold ▸ .oldTextMissing new everywhere hpath
      · next hold =>
        split at h
        · next hnew =>
          cases h
          exact hnew ▸ .newTextEqual everywhere hpath hold
        · cases h
  | grep path text files => cases h
  | glob path pattern => cases h
  | execute command =>
    rw [params] at h
    split at h
    · next hcommand =>
      cases h
      exact hcommand ▸ .commandMissing
    · cases h

theorem isValidation_of_refused {c : Call} {e : FileError} (h : c.Refused e) :
    e.isValidation = true := by
  cases h <;> rfl

/-- What a call makes of the end of a run is not the refusal of a request. -/
theorem isValidation_conclude {c : Call} {x : Except InvokeError Outcome} {e : FileError}
    (h : c.conclude x = .error e) : e.isValidation = false := by
  cases x with
  | error cause =>
    cases h
    rfl
  | ok o =>
    rw [conclude] at h
    split at h
    · cases h
    · cases h
      rfl

end Call

/-! ### The path in the script -/

/-- A text stands in a script, as base64 between single quotes. -/
def Script.Quotes (script s : String) : Prop :=
  ∃ before after : List Char,
    script.toList = before ++ '\'' :: (Base64.encodeChars (Utf8.encode s) ++ '\'' :: after)

/-- A text among the arguments stands in the script. -/
theorem Script.Placed.quotes {pieces : List (List Char)} {args : List Argument} {s : String}
    (hp : Placed pieces args) (hs : .text s ∈ args) :
    Script.Quotes (String.ofList (weave pieces (args.map Argument.word))) s := by
  rw [Script.Quotes, String.toList_ofList]
  induction hp with
  | last piece => cases hs
  | @quoted before after pieces args t hbefore hafter _ ih =>
    rw [List.map_cons, weave]
    rcases List.mem_cons.mp hs with heq | hmore
    · cases heq
      obtain ⟨front, rfl⟩ := List.getLast?_eq_some_iff.mp hbefore
      obtain ⟨back, rfl⟩ := List.head?_eq_some_iff.mp hafter
      refine ⟨front, weave (back :: pieces) (args.map Argument.word), ?_⟩
      rw [Template.weave_cons_char, Argument.word]
      simp only [List.append_assoc, List.cons_append, List.nil_append]
    · obtain ⟨front, back, heq⟩ := ih hmore
      exact ⟨before ++ (Argument.text t).word ++ front, back, by simp [heq]⟩
  | @literal before after pieces args a ha _ _ ih =>
    rw [List.map_cons, weave]
    rcases List.mem_cons.mp hs with heq | hmore
    · exact absurd heq.symm (ha s)
    · obtain ⟨front, back, heq⟩ := ih hmore
      exact ⟨before ++ a.word ++ front, back, by simp [heq]⟩

namespace Call

/-- A call about one file tells its script the cleaned path. -/
theorem mem_arguments_of_filePath? {c : Call} {path : String} (h : c.filePath? = some path) :
    ("file_path", .text (Path.clean path)) ∈ c.arguments := by
  cases c <;> cases h <;> exact List.mem_cons_self

theorem quotes_scriptText {c : Call} {path : String} (h : c.filePath? = some path) :
    Script.Quotes c.scriptText (Path.clean path) := by
  have hmem := List.mem_map_of_mem (f := Prod.snd) (mem_arguments_of_filePath? h)
  have hquotes := (Script.placed_tokens c).quotes hmem
  rwa [List.map_map] at hquotes

end Call

/-! ### What is announced -/

/-- A run of a script announces none itself. -/
theorem Transport.not_running_of_mem [Url.Names] {t : Transport} {now : Int} {peer : Peer} {code : String}
    {e : Event} (h : e ∈ (t.run now peer code).events) (op : Operation) (n : Nat) :
    e ≠ .running op n := by
  rcases t.run_cases now peer code with
    ⟨_, _, hrun⟩ | ⟨_, _, _, _, _, hrun⟩ | ⟨url, host, _, _, hrun⟩
  · rw [hrun] at h
    cases h
  · rw [hrun, List.mem_singleton] at h
    rw [h]
    rintro ⟨⟩
  · rw [hrun, List.mem_cons] at h
    rcases h with rfl | h
    · rintro ⟨⟩
    · cases hreply : peer (t.request url host (t.body code) now) with
      | silence =>
        rw [hreply] at h
        cases h
      | cutShort status =>
        rw [hreply] at h
        cases h
      | answer status body =>
        rw [hreply, received, List.mem_singleton] at h
        rw [h]
        rintro ⟨⟩

/-- Nothing is announced once the run of a script has ended. -/
theorem Call.not_running_of_mem_closing {c : Call} {x : Except InvokeError Outcome} {e : Event}
    (h : e ∈ c.closing x) (op : Operation) (n : Nat) : e ≠ .running op n := by
  cases x with
  | error cause => cases h
  | ok o =>
    rw [closing] at h
    split at h
    · cases c with
      | grep path text files =>
        obtain ⟨p, -, rfl⟩ := List.mem_map.mp h
        rintro ⟨⟩
      | _ => cases h
    · rw [List.mem_singleton] at h
      rw [h]
      rintro ⟨⟩

theorem Transport.length_sent_run [Url.Names] (t : Transport) (now : Int) (peer : Peer) (code : String) :
    (t.run now peer code).sent.length ≤ 1 := by
  rcases t.sent_run now peer code with hsent | ⟨_, _, _, _, hsent⟩
  · rw [hsent]
    exact Nat.zero_le 1
  · rw [hsent]
    exact Nat.le_refl 1

/-- **A call is refused exactly for these faults, and without effect.**  A refused call has no
parameters and so no script; it logs nothing, sends nothing and ends in the same error wherever and
whenever it is made.  Any other call announces its script, once and before anything else, and sends
one request at most; and if it is about one file then its script holds an absolute path, in which no
component stays or climbs. -/
theorem Sandbox.call_refuses [Url.Names] (s : Sandbox) (now : Int) (peer : Peer) (c : Call) :
    (∀ e, (s.call now peer c).result = .error e ∧ e.isValidation = true ↔ c.Refused e) ∧
    (∀ e, c.Refused e →
      (∀ ps, c.params ≠ .ok ps) ∧
      ∀ (s' : Sandbox) (now' : Int) (peer' : Peer), s'.call now' peer' c = ⟨[], [], .error e⟩) ∧
    ((∀ e, ¬ c.Refused e) → ∃ ps script more,
      c.params = .ok ps ∧ c.script ps = .ok script ∧
      (s.call now peer c).events = .running c.operation script.utf8ByteSize :: more ∧
      (∀ op n, .running op n ∉ more) ∧ (s.call now peer c).sent.length ≤ 1 ∧
      ∀ path, c.filePath? = some path → ∃ p,
        ps.find? "file_path" = some (Base64.encode (Utf8.encode p)) ∧ Script.Quotes script p ∧
        Path.isAbsolute p = true ∧
        ∀ part ∈ p.toList.splitOn '/', part ≠ Path.here ∧ part ≠ Path.parent) := by
  refine ⟨fun e => ⟨?_, ?_⟩, fun e h => ⟨?_, ?_⟩, fun h => ?_⟩
  · rintro ⟨hresult, hvalidation⟩
    rw [Call.refused_iff]
    cases hparams : c.params with
    | error e' =>
      rw [call_of_refused s now peer hparams] at hresult
      cases hresult
      rfl
    | ok ps =>
      rw [call_of_params s now peer hparams] at hresult
      rw [Call.isValidation_conclude hresult] at hvalidation
      cases hvalidation
  · intro h
    rw [call_of_refused s now peer (Call.params_of_refused h)]
    exact ⟨rfl, Call.isValidation_of_refused h⟩
  · intro ps hps
    rw [Call.params_of_refused h] at hps
    cases hps
  · exact fun s' now' peer' => call_of_refused s' now' peer' (Call.params_of_refused h)
  · cases hparams : c.params with
    | error e => exact absurd (Call.refused_iff.mpr hparams) (h e)
    | ok ps =>
      have hcall := call_of_params s now peer hparams
      refine ⟨ps, c.scriptText, _, rfl, Call.script_eq_weave hparams, by rw [hcall], ?_, ?_, ?_⟩
      · intro op n hmem
        rcases List.mem_append.mp hmem with hmem | hmem
        · exact Transport.not_running_of_mem hmem op n rfl
        · exact Call.not_running_of_mem_closing hmem op n rfl
      · rw [hcall]
        exact Transport.length_sent_run ..
      · intro path hfile
        have habsolute := Call.isAbsolute_of_params hparams hfile
        refine ⟨Path.clean path, ?_, Call.quotes_scriptText hfile, ?_, ?_⟩
        · exact (Call.find?_of_params hparams _ (Call.mem_arguments_of_filePath? hfile)).1
        · rw [Path.isAbsolute_clean, habsolute]
        · intro part hpart
          rcases Path.component_of_clean habsolute hpart with rfl | hname
          · exact ⟨List.cons_ne_nil _ _ ∘ Eq.symm, List.cons_ne_nil _ _ ∘ Eq.symm⟩
          · exact ⟨hname.2.1, hname.2.2.1⟩

end RemoteFiles
