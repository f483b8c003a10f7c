import Mathlib.Data.List.TakeWhile
import Std.Data.String.ToInt
import RemoteFiles.Proofs.Call.Refusals

/-!
# What messages tell

The message of a failure identifies it.  Each message starts with a lead that depends on the kind of
the failure and on the operation, and no lead starts with another one.  So the lead of a message can
be told from the text alone, and what comes behind it are the data: a number, a text to the end, or
an exit code that ends at the first colon.  A reader that goes by the leads gets every failure back
from its message, whatever the texts inside imitate.

## Main definitions

* `Wording`, `Wording.readBy` — how a kind of message is worded, and messages read by wordings.
* `TemplateError.read?`, `InvokeError.read?`, `FileError.read?` — the failure that a text tells.
* `FileError.IsRaised` — the failures that come up.

## Main results

* `Wording.readBy_append` — a message is read by its lead if no lead starts with another one.
* `FileError.read?_message` — a failure is read from its message.
* `FileError.message_identifies` — **the message of a failure tells the failure.**
-/

namespace RemoteFiles

/-! ### Wordings -/

/-- How a kind of message is worded: what it starts with, and what the rest of it tells. -/
structure Wording (α : Type) where
  lead : String
  tell : String → Option α

namespace Wording

variable {α : Type}

/-- The rest is a text. -/
def text (lead : String) (f : String → α) : Wording α := ⟨lead, fun rest => some (f rest)⟩

/-- The rest is a number. -/
def number (lead : String) (f : Nat → α) : Wording α := ⟨lead, fun rest => rest.toNat?.map f⟩

/-- There is no rest. -/
def fixed (lead : String) (a : α) : Wording α :=
  ⟨lead, fun rest => if rest = "" then some a else none⟩

/-- What a message tells that is worded in this way. -/
def read? (w : Wording α) (message : String) : Option α :=
  (w.lead.toList.isPrefixOf? message.toList).bind fun rest => w.tell (String.ofList rest)

/-- What a message tells that is worded in one of several ways. -/
def readBy (ws : List (Wording α)) (message : String) : Option α := ws.findSome? (·.read? message)

/-- Neither of two texts starts with the other one. -/
def Apart (s t : String) : Prop := ¬ s.toList <+: t.toList ∧ ¬ t.toList <+: s.toList

instance (s t : String) : Decidable (Apart s t) := inferInstanceAs (Decidable (_ ∧ _))

theorem read?_append (w : Wording α) (rest : String) : w.read? (w.lead ++ rest) = w.tell rest := by
  have hrest : w.lead.toList.isPrefixOf? (w.lead ++ rest).toList = some rest.toList :=
    List.isPrefixOf?_eq_some_iff_append_eq.mpr String.toList_append.symm
  rw [read?, hrest, Option.bind_some, String.ofList_toList]

/-- A message is not read in a way that has another lead. -/
theorem read?_of_apart {w : Wording α} {lead : String} (h : Apart w.lead lead) (rest : String) :
    w.read? (lead ++ rest) = none := by
  rw [read?, Option.bind_eq_none_iff]
  intro rest' hrest'
  have hw : w.lead.toList <+: (lead ++ rest).toList :=
    ⟨rest', List.isPrefixOf?_eq_some_iff_append_eq.mp hrest'⟩
  have hlead : lead.toList <+: (lead ++ rest).toList := ⟨rest.toList, String.toList_append.symm⟩
  rcases List.prefix_or_prefix_of_prefix hw hlead with hpre | hpre
  · exact absurd hpre h.1
  · exact absurd hpre h.2

section

variable {ws : List (Wording α)} (hapart : (ws.map lead).Pairwise Apart)
include hapart

/-- **A message is read by its lead.** -/
theorem readBy_append {w : Wording α} {rest : String} {a : α} (hw : w ∈ ws)
    (hrest : w.tell rest = some a) : readBy ws (w.lead ++ rest) = some a := by
  rw [readBy]
  induction ws with
  | nil => cases hw
  | cons w' ws ih =>
    rw [List.map_cons, List.pairwise_cons] at hapart
    rw [List.findSome?_cons]
    rcases List.mem_cons.mp hw with rfl | hw
    · rw [read?_append, hrest]
    · rw [read?_of_apart (hapart.1 _ (List.mem_map_of_mem hw))]
      exact ih hapart.2 hw

theorem readBy_text {lead : String} {f : String → α} (hw : text lead f ∈ ws) (rest : String) :
    readBy ws (lead ++ rest) = some (f rest) :=
  readBy_append hapart (w := text lead f) hw rfl

theorem readBy_number {lead : String} {f : Nat → α} (hw : number lead f ∈ ws) (n : Nat) :
    readBy ws (lead ++ toString n) = some (f n) :=
  readBy_append hapart (w := number lead f) hw (congrArg (Option.map f) (Nat.toNat?_repr n))

theorem readBy_fixed {lead : String} {a : α} (hw : fixed lead a ∈ ws) :
    readBy ws lead = some a := by
  have hread := readBy_append hapart (w := fixed lead a) hw (if_pos rfl)
  rwa [fixed, String.append_empty] at hread

end

end Wording

/-! ### Templates and invocations -/

namespace TemplateError

/-- How the errors of templates are worded.  A name is followed by the closing quote. -/
def wordings : List (Wording TemplateError) := [
  .text "missing parameter '" fun rest =>
    .missingParameter (String.ofList rest.toList.dropLast),
  .number "unclosed placeholder at byte " .unclosedPlaceholder,
  .number "empty placeholder at byte " .emptyPlaceholder,
  .number "unmatched '\x7d' at byte " .unmatchedBrace]

/-- The error that a text tells. -/
def read? (message : String) : Option TemplateError := Wording.readBy wordings message

theorem apart_wordings : (wordings.map (·.lead)).Pairwise Wording.Apart := by decide +kernel

/-- An error of a template is read from its message. -/
theorem read?_message (e : TemplateError) : read? e.message = some e := by
  cases e with
  | missingParameter name =>
    have hread := Wording.readBy_text apart_wordings List.mem_cons_self (name ++ "'")
    rw [String.toList_append, show "'".toList = ['\''] from rfl, List.dropLast_concat,
      String.ofList_toList, ← String.append_assoc] at hread
    exact hread
  | unclosedPlaceholder offset =>
    exact Wording.readBy_number apart_wordings (by simp [wordings]) offset
  | emptyPlaceholder offset =>
    exact Wording.readBy_number apart_wordings (by simp [wordings]) offset
  | unmatchedBrace offset =>
    exact Wording.readBy_number apart_wordings (by simp [wordings]) offset

end TemplateError

namespace InvokeError

/-- The documents that are written for an invocation. -/
def documents : List String := ["operation payload", "request"]

/-- How the errors of invocations are worded. -/
def wordings : List (Wording InvokeError) :=
  documents.map (fun document =>
    .text ("failed to marshal " ++ document ++ ": ") (.marshal document)) ++ [
  .text "bad request: " .invalidEndpoint,
  .text "do request err: " .request,
  .text "failed to read response body: " .readBody,
  .number "request failed with status code " .status,
  .text "failed to unmarshal response: " .decodeResponse,
  .text "failed to unmarshal result data: " .decodeResult]

/-- The error that a text tells. -/
def read? (message : String) : Option InvokeError := Wording.readBy wordings message

/-- The errors that come up: no other documents are written. -/
def IsRaised : InvokeError → Prop
  | marshal document _ => document ∈ documents
  | _ => True

theorem apart_wordings : (wordings.map (·.lead)).Pairwise Wording.Apart := by decide +kernel

/-- An error of an invocation is read from its message. -/
theorem read?_message {e : InvokeError} (h : e.IsRaised) : read? e.message = some e := by
  cases e with
  | marshal document detail =>
    exact Wording.readBy_text apart_wordings (List.mem_append_left _ (List.mem_map_of_mem h)) detail
  | invalidEndpoint detail => exact Wording.readBy_text apart_wordings (by simp [wordings]) detail
  | request detail => exact Wording.readBy_text apart_wordings (by simp [wordings]) detail
  | readBody detail => exact Wording.readBy_text apart_wordings (by simp [wordings]) detail
  | status code => exact Wording.readBy_number apart_wordings (by simp [wordings]) code
  | decodeResponse detail => exact Wording.readBy_text apart_wordings (by simp [wordings]) detail
  | decodeResult detail => exact Wording.readBy_text apart_wordings (by simp [wordings]) detail

end InvokeError

/-! ### Operations -/

namespace FileError

/-- How a script that could not be made is reported. -/
def rendering (operation : Operation) : Wording FileError where
  lead := "failed to render " ++ operation.label ++ " template: "
  tell rest := (TemplateError.read? rest).map (.render operation)

/-- How a script that could not be run is reported. -/
def invoking (operation : Operation) : Wording FileError where
  lead := "failed to execute " ++ operation.subject ++ " script: "
  tell rest := (InvokeError.read? rest).map (.invoke operation)

/-- The exit code and the output of a script that failed: the code ends at the first colon. -/
def readEnd? (rest : String) : Option (Int × String) :=
  (String.ofList (rest.toList.takeWhile (· ≠ ':'))).toInt?.map fun exitCode =>
    (exitCode, String.ofList ((rest.toList.dropWhile (· ≠ ':')).drop 2))

/-- How a script that failed is reported. -/
def ending (operation : Operation) : Wording FileError where
  lead := operation.failureLead ++ " "
  tell rest := (readEnd? rest).map fun (exitCode, output) =>
    .scriptFailed operation exitCode output

/-- What can be wrong with arguments. -/
def argumentFaults : List String :=
  ["old string is required", "new string must be different from old string", "command is required"]

/-- How failures are worded. -/
def wordings : List (Wording FileError) :=
  .text "path must be an absolute path: " .invalidPath ::
    (argumentFaults.map (fun detail => .fixed detail (.invalidArgument detail)) ++
      Operation.all.flatMap fun operation => [rendering operation, invoking operation,
        ending operation])

/-- The failure that a text tells. -/
def read? (message : String) : Option FileError := Wording.readBy wordings message

/-- The failures that come up: nothing else can be wrong with arguments, and no other documents are
written. -/
def IsRaised : FileError → Prop
  | invalidArgument detail => detail ∈ argumentFaults
  | invoke _ cause => cause.IsRaised
  | _ => True

theorem apart_wordings : (wordings.map (·.lead)).Pairwise Wording.Apart := by decide +kernel

theorem mem_wordings (operation : Operation) {w : Wording FileError}
    (h : w ∈ [rendering operation, invoking operation, ending operation]) : w ∈ wordings := by
  have hall : operation ∈ Operation.all := by cases operation <;> decide
  exact List.mem_cons_of_mem _ (List.mem_append_right _ (List.mem_flatMap.mpr ⟨_, hall, h⟩))

theorem readEnd?_append (exitCode : Int) (output : String) :
    readEnd? (toString exitCode ++ (": " ++ output)) = some (exitCode, output) := by
  have hcolon : ∀ c ∈ (toString exitCode).toList, (c ≠ ':' : Bool) = true :=
    forall_ne_of_notMem (notMem_toString exitCode (by decide) (by decide))
  have htext : (toString exitCode ++ (": " ++ output)).toList =
      (toString exitCode).toList ++ ':' :: ' ' :: output.toList := by
    rw [String.toList_append, String.toList_append]
    rfl
  have hstop : (':' ≠ ':' : Bool) = false := by decide
  have hcode : (toString exitCode).toInt? = some exitCode := Int.toInt?_repr exitCode
  rw [readEnd?, htext, takeWhile_append_cons _ _ hstop, dropWhile_append_cons _ _ hstop,
    List.takeWhile_eq_self_iff.mpr hcolon, List.dropWhile_eq_nil_iff.mpr hcolon,
    String.ofList_toList, hcode, Option.map_some, List.nil_append,
    List.drop_succ_cons, List.drop_succ_cons, List.drop_zero, String.ofList_toList]

/-- **A failure is read from its message.** -/
theorem read?_message {e : FileError} (h : e.IsRaised) : read? e.message = some e := by
  -- a message is its lead and the rest by definition, so each reading is named before it is compared
  cases e with
  | invalidPath path =>
    have hmem : .text "path must be an absolute path: " invalidPath ∈ wordings := List.mem_cons_self
    exact Wording.readBy_text apart_wordings hmem path
  | invalidArgument detail =>
    have hmem : .fixed detail (.invalidArgument detail) ∈ wordings :=
      List.mem_cons_of_mem _ (List.mem_append_left _ (List.mem_map_of_mem h))
    exact Wording.readBy_fixed apart_wordings hmem
  | render operation cause =>
    have hmem : rendering operation ∈ wordings := mem_wordings operation (by simp)
    have htell : (rendering operation).tell cause.message = some (render operation cause) :=
      congrArg (Option.map (render operation)) cause.read?_message
    have hread := Wording.readBy_append apart_wordings hmem htell
    exact hread
  | invoke operation cause =>
    have hmem : invoking operation ∈ wordings := mem_wordings operation (by simp)
    have htell : (invoking operation).tell cause.message = some (invoke operation cause) :=
      congrArg (Option.map (invoke operation)) (InvokeError.read?_message h)
    have hread := Wording.readBy_append apart_wordings hmem htell
    exact hread
  | scriptFailed operation exitCode output =>
    have hmem : ending operation ∈ wordings := mem_wordings operation (by simp)
    have htell : (ending operation).tell (toString exitCode ++ (": " ++ output)) =
        some (scriptFailed operation exitCode output) := by
      unfold ending
      dsimp only
      rw [readEnd?_append, Option.map_some]
    have htext : (scriptFailed operation exitCode output).message =
        (ending operation).lead ++ (toString exitCode ++ (": " ++ output)) :=
      String.append_assoc.trans String.append_assoc
    have hread := Wording.readBy_append apart_wordings hmem htell
    exact (congrArg read? htext).trans hread

end FileError

/-! ### The failures of calls -/

theorem Outcome.isRaised_of_decode {body : List UInt8} {e : InvokeError}
    (h : Outcome.decode body = .error e) : e.IsRaised := by
  rw [Outcome.decode] at h
  split at h
  · cases h
    trivial
  · split at h
    · cases h
      trivial
    · cases h

theorem Transport.isRaised_of_endpoint [Url.Names] {t : Transport} {e : InvokeError}
    (h : t.endpoint = .error e) : e.IsRaised := by
  rw [endpoint] at h
  split at h
  · cases h
    trivial
  · split at h
    · cases h
    · cases h
      trivial

theorem Transport.isRaised_of_outcomeOf {url : Url} {reply : Reply} {e : InvokeError}
    (h : outcomeOf url reply = .error e) : e.IsRaised := by
  cases reply with
  | silence =>
    cases h
    trivial
  | cutShort status =>
    cases h
    trivial
  | answer status body =>
    rw [outcomeOf] at h
    split at h
    · exact Outcome.isRaised_of_decode h
    · cases h
      trivial

/-- The errors of runs come up. -/
theorem Transport.isRaised_of_run [Url.Names] {t : Transport} {now : Int} {peer : Peer} {code : String}
    {e : InvokeError} (h : (t.run now peer code).result = .error e) : e.IsRaised := by
  rcases t.run_cases now peer code with
    ⟨_, hendpoint, hrun⟩ | ⟨_, _, _, _, _, hrun⟩ | ⟨_, _, _, _, hrun⟩
  · rw [hrun] at h
    cases h
    exact isRaised_of_endpoint hendpoint
  · rw [hrun] at h
    cases h
    trivial
  · rw [hrun] at h
    exact isRaised_of_outcomeOf h

theorem Call.isRaised_of_refused {c : Call} {e : FileError} (h : c.Refused e) : e.IsRaised := by
  cases h with
  | relative hfile hpath => trivial
  | oldTextMissing new everywhere hpath => exact .head _
  | newTextEqual everywhere hpath hold => exact .tail _ (.head _)
  | commandMissing => exact .tail _ (.tail _ (.head _))

/-- The failures of calls come up. -/
theorem Sandbox.isRaised_of_call [Url.Names] {s : Sandbox} {now : Int} {peer : Peer} {c : Call} {e : FileError}
    (h : (s.call now peer c).result = .error e) : e.IsRaised := by
  cases hparams : c.params with
  | error e' =>
    rw [call_of_refused s now peer hparams] at h
    cases h
    exact Call.isRaised_of_refused (Call.refused_iff.mpr hparams)
  | ok ps =>
    rw [call_of_params s now peer hparams] at h
    cases hresult : (s.transport.run now peer c.scriptText).result with
    | error cause =>
      rw [hresult] at h
      cases h
      exact Transport.isRaised_of_run hresult
    | ok o =>
      rw [hresult] at h
      change (if _ then _ else _) = _ at h
      split at h
      · cases h
      · cases h
        trivial

/-- **The message of a failure tells the failure.**  Failures that come up have the same message
only if they are the same, with the same operation, the same error inside and the same data; and each
of them is read from its message.  So whatever a script prints, its exit code and its output are read
from the message of its failure.  Whatever a call ends in, if not in an answer, does come up. -/
theorem FileError.message_identifies [Url.Names] :
    (∀ e e' : FileError, e.IsRaised → e'.IsRaised → e.message = e'.message → e = e') ∧
    (∀ e : FileError, e.IsRaised → FileError.read? e.message = some e) ∧
    (∀ (operation : Operation) (exitCode : Int) (output : String),
      FileError.read? (operation.failureLead ++ " " ++ toString exitCode ++ ": " ++ output) =
        some (.scriptFailed operation exitCode output)) ∧
    ∀ (s : Sandbox) (now : Int) (peer : Peer) (c : Call) (e : FileError),
      (s.call now peer c).result = .error e → e.IsRaised := by
  refine ⟨?_, fun e h => read?_message h, ?_, fun s now peer c e h => Sandbox.isRaised_of_call h⟩
  · intro e e' he he' hmessage
    have hread : some e = some e' := by
      rw [← read?_message he, ← read?_message he', hmessage]
    exact Option.some.inj hread
  · intro operation exitCode output
    exact read?_message (e := .scriptFailed operation exitCode output) trivial

/-- An output that reads like the message of another failure is not taken for it. -/
theorem FileError.output_imitates :
    let e' : FileError := .invoke .execute (.invalidEndpoint "x")
    let e : FileError :=
      .scriptFailed .execute (-1) "failed to execute command script: bad request: x"
    e.message = "command exited with non-zero code -1: " ++ e'.message ∧
    e.message ≠ e'.message ∧ FileError.read? e.message = some e := by
  intro e' e
  obtain ⟨hinj, hread, -, -⟩ := FileError.message_identifies
  refine ⟨by decide +kernel, fun h => ?_, hread e trivial⟩
  have heq : e = e' := hinj e e' trivial trivial h
  exact FileError.noConfusion heq

end RemoteFiles
