import Mathlib.Data.List.Forall2
import Std.Data.String.ToInt
import RemoteFiles.Proofs.Run
import RemoteFiles.Proofs.Template.Layout
import RemoteFiles.Proofs.Text.Base64
import RemoteFiles.Proofs.Text.Utf8
import RemoteFiles.Sandbox

/-!
# Scripts and their arguments

The script of a call is the fixed text of its operation with the call's arguments in the holes.  A
text is only ever there as a base64 word between single quotes, so it cannot reach the program
around it, and the script tells exactly the arguments of its call.

## Main definitions

* `Argument`, `Call.arguments` — what the script of a call is told, hole by hole.
* `Argument.Spelled` — how a word stands for an argument.
* `Script.Placed` — where the arguments stand.

## Main results

* `Call.script_eq_weave` — every call that makes sense has a script, made of its arguments' words.
* `script_tells_arguments` — **the script is fixed text and spelled arguments, and tells them.**
-/

namespace RemoteFiles

open Template (Token Params weave around holes Delimited)

/-! ### Arguments -/

/-- What a script is told. -/
inductive Argument where
  | text (s : String)
  | number (n : Int)
  | flag (b : Bool)
  deriving DecidableEq, Repr

namespace Argument

/-- The literal of a truth value. -/
def flagText (b : Bool) : String := if b then "True" else "False"

/-- The word that stands for an argument. -/
def word : Argument → List Char
  | text s => Base64.encodeChars (Utf8.encode s)
  | number n => (toString n).toList
  | flag b => (flagText b).toList

/-- A word stands for an argument: for a text, a word over the base64 alphabet whose bytes are the
text's; for a number, its decimal digits; for a truth value, its literal. -/
def Spelled : Argument → List Char → Prop
  | text s, w =>
    (∀ c ∈ w, Base64.isWordChar c = true) ∧ Base64.decodeChars? w = some (Utf8.encode s)
  | number n, w => w = (toString n).toList
  | flag b, w => w = (flagText b).toList

theorem spelled_word (a : Argument) : a.Spelled a.word := by
  cases a with
  | text s =>
    exact ⟨fun _ => Base64.isWordChar_of_mem_encodeChars, Base64.decodeChars?_encodeChars _⟩
  | number n => rfl
  | flag b => rfl

end Argument

/-- What the script of a call is told: the name of each hole and what it is filled with. -/
def Call.arguments : Call → List (String × Argument)
  | .list path => [("path", .text (Path.clean (Path.orDefault path "/")))]
  | .read path offset limit =>
    [("file_path", .text (Path.clean path)), ("offset", .number (max offset 0)),
      ("limit", .number (if limit ≤ 0 then 200 else limit))]
  | .write path content => [("file_path", .text (Path.clean path)), ("content", .text content)]
  | .edit path old new everywhere =>
    [("file_path", .text (Path.clean path)), ("old", .text old), ("new", .text new),
      ("replace_all", .flag everywhere)]
  | .grep path text files =>
    [("pattern", .text text), ("path", .text (Path.clean path)), ("glob", .text files)]
  | .glob path pattern =>
    [("path", .text (Path.clean (Path.orDefault path "/"))), ("pattern", .text pattern)]
  | .execute command => [("command", .text command)]

/-! ### Words tell their arguments -/

namespace Argument

theorem flagText_injective {a b : Bool} (h : flagText a = flagText b) : a = b := by
  revert a b
  decide

/-- No base64 word holds a quote. -/
theorem quote_notMem_of_spelled {s : String} {w : List Char} (h : (text s).Spelled w) :
    '\'' ∉ w := by
  intro hmem
  exact absurd (h.1 _ hmem) (by decide)

/-- The words of arguments that are no texts are on one line. -/
theorem lineFeed_notMem_of_spelled {a : Argument} (ha : ∀ s, a ≠ text s) {w : List Char}
    (h : a.Spelled w) : '\n' ∉ w := by
  cases a with
  | text s => exact absurd rfl (ha s)
  | number n =>
    rw [show w = (toString n).toList from h]
    exact notMem_toString n (by decide) (by decide)
  | flag b =>
    rw [show w = (flagText b).toList from h]
    cases b <;> decide

end Argument

/-! ### Where arguments stand -/

namespace Script

/-- Arguments among the fixed texts of a script: a text stands between single quotes, and any other
argument is the end of its line. -/
inductive Placed : List (List Char) → List Argument → Prop where
  | last (piece : List Char) : Placed [piece] []
  | quoted {before after : List Char} {pieces : List (List Char)} {args : List Argument}
      (s : String) (hbefore : before.getLast? = some '\'') (hafter : after.head? = some '\'')
      (more : Placed (after :: pieces) args) : Placed (before :: after :: pieces) (.text s :: args)
  | literal {before after : List Char} {pieces : List (List Char)} {args : List Argument}
      {a : Argument} (ha : ∀ s, a ≠ .text s) (hafter : after.head? = some '\n')
      (more : Placed (after :: pieces) args) : Placed (before :: after :: pieces) (a :: args)

/-- Spelled arguments are delimited by what comes after them. -/
theorem Placed.delimited {pieces : List (List Char)} {args : List Argument}
    (hp : Placed pieces args) : ∀ {words : List (List Char)},
      List.Forall₂ Argument.Spelled args words → Delimited pieces words := by
  induction hp with
  | last piece =>
    intro words hw
    cases hw
    exact .last piece
  | quoted s _ hafter _ ih =>
    intro words hw
    cases hw with
    | cons hs hrest =>
      obtain ⟨rest, rfl⟩ := List.head?_eq_some_iff.mp hafter
      exact .word _ (Argument.quote_notMem_of_spelled hs) (ih hrest)
  | literal ha hafter _ ih =>
    intro words hw
    cases hw with
    | cons hs hrest =>
      obtain ⟨rest, rfl⟩ := List.head?_eq_some_iff.mp hafter
      exact .word _ (Argument.lineFeed_notMem_of_spelled ha hs) (ih hrest)

theorem Placed.lead {pieces : List (List Char)} {args : List Argument} (hp : Placed pieces args)
    (cs : List Char) : Placed (Template.lead cs pieces) args := by
  cases hp with
  | last piece => exact .last _
  | quoted s hbefore hafter more =>
    exact .quoted s (by rw [List.getLast?_append, hbefore]; rfl) hafter more
  | literal ha hafter more => exact .literal ha hafter more

/-! ### Lines of templates -/

variable {ts : List Token} {args : List Argument}

theorem placed_nil : Placed (around []) [] := .last []

theorem placed_line (s : String) (h : Placed (around ts) args) :
    Placed (around (line s ++ ts)) args := by
  rw [line, List.append_assoc, Template.around_plain_append]
  exact (Placed.lead h ['\n']).lead _

/-- The fixed texts after a line that starts with a character start with it too. -/
theorem around_line (c : Char) {s : String} {cs : List Char} (hs : s.toList = c :: cs)
    (ts : List Token) : ∃ rest pieces, around (line s ++ ts) = (c :: rest) :: pieces := by
  rw [line, List.append_assoc, Template.around_plain_append, hs]
  cases h : around ([.plain '\n'] ++ ts) with
  | nil => exact ⟨_, _, rfl⟩
  | cons piece pieces => exact ⟨_, _, rfl⟩

theorem placed_decoding (variableName holeName s : String) (h : Placed (around ts) args) :
    Placed (around (decoding variableName holeName ++ ts)) (.text s :: args) := by
  have hline := placed_line "').decode('utf-8')" h
  obtain ⟨rest, pieces, hpieces⟩ := around_line '\'' (s := "').decode('utf-8')") rfl ts
  rw [decoding, List.append_assoc, List.append_assoc, Template.around_plain_append,
    List.singleton_append, around, Template.lead, List.append_nil, hpieces]
  rw [hpieces] at hline
  refine .quoted s ?_ rfl hline
  rw [String.toList_append, List.getLast?_append]
  rfl

theorem placed_setting (name : String) {a : Argument} (ha : ∀ s, a ≠ .text s)
    (h : Placed (around ts) args) : Placed (around (setting name ++ ts)) (a :: args) := by
  have hline := placed_line "" h
  have hpieces : around (line "" ++ ts) = Template.lead ['\n'] (around ts) := rfl
  rw [setting, List.append_assoc, List.append_assoc, Template.around_plain_append,
    List.singleton_append, around, Template.lead, List.append_nil]
  rw [hpieces] at hline ⊢
  cases hts : around ts with
  | nil => exact absurd hts (Template.around_ne_nil ts)
  | cons piece pieces =>
    rw [hts] at hline
    exact .literal ha rfl hline

@[simp] theorem holes_line (s : String) : holes (line s) = [] := by
  rw [line, Template.holes_append, Template.holes_plain]
  rfl

@[simp] theorem holes_decoding (variableName holeName : String) :
    holes (decoding variableName holeName) = [holeName] := by
  simp [decoding, holes]

@[simp] theorem holes_setting (name : String) : holes (setting name) = [name] := by
  simp [setting, holes]

/-- The holes of an operation's template are the arguments of its calls. -/
theorem holes_tokens (c : Call) : holes (tokens c.operation) = c.arguments.map Prod.fst := by
  cases c <;>
    simp [Call.operation, Call.arguments, tokens, list, read, write, edit, grep, glob, execute]

/-- The arguments of a call stand where they are delimited. -/
theorem placed_tokens (c : Call) :
    Placed (around (tokens c.operation)) (c.arguments.map Prod.snd) := by
  cases c <;>
    simp only [Call.operation, Call.arguments, tokens, list, read, write, edit, grep, glob, execute,
      List.map_cons, List.map_nil, List.flatten_cons, List.flatten_nil]
  all_goals
    -- line by line, by the name of its form and without a look inside
    repeat first
      | with_reducible apply placed_line
      | with_reducible apply placed_decoding
      | with_reducible apply placed_setting _ (by simp)
      | exact placed_nil

theorem isSound_of_holes {ts : List Token} (h : ∀ name ∈ holes ts, (Token.hole name).IsSound) :
    ∀ t ∈ ts, t.IsSound := by
  intro t ht
  cases t with
  | plain c => exact Token.isSound_plain c
  | hole name => exact h name (Template.mem_holes.mpr ht)

theorem isSound_tokens (op : Operation) : ∀ t ∈ tokens op, t.IsSound := by
  refine isSound_of_holes ?_
  cases op <;> simp [tokens, list, read, write, edit, grep, glob, execute, Token.IsSound]

end Script

namespace Call

/-! ### The script of a call -/

/-- The word of the argument with a given name. -/
def wordOf (c : Call) (name : String) : List Char :=
  ((c.arguments.lookup name).map Argument.word).getD []

/-- An absolute path is the cleaned one. -/
theorem eq_clean_of_absolute {path p : String} (h : absolute path = .ok p) :
    p = Path.clean path := by
  unfold absolute Path.resolve Path.orDefault at h
  simp only [ne_eq, not_true_eq_false, and_false, if_false] at h
  split at h
  · cases h
  · cases h
    rfl

/-- A call that makes sense binds each of its arguments to its word. -/
theorem find?_of_params {c : Call} {ps : Params} (h : c.params = .ok ps) :
    ∀ p ∈ c.arguments, ps.find? p.1 = some (String.ofList p.2.word) ∧ c.wordOf p.1 = p.2.word := by
  cases c with
  | list path =>
    cases h
    simp [arguments, wordOf, Params.find?, Params.text, Params.bind, Argument.word, Base64.encode]
  | read path offset limit =>
    obtain ⟨p, hp, h⟩ := except_bind_eq_ok.mp h
    rw [eq_clean_of_absolute hp] at h
    cases h
    simp [arguments, wordOf, Params.find?, Params.text, Params.int, Params.bind, Argument.word,
      Base64.encode, List.lookup_cons, effectiveOffset, effectiveLimit, defaultLimit]
  | write path content =>
    obtain ⟨p, hp, h⟩ := except_bind_eq_ok.mp h
    rw [eq_clean_of_absolute hp] at h
    cases h
    simp [arguments, wordOf, Params.find?, Params.text, Params.bind, Argument.word, Base64.encode,
      List.lookup_cons]
  | edit path old new everywhere =>
    obtain ⟨p, hp, h⟩ := except_bind_eq_ok.mp h
    rw [eq_clean_of_absolute hp] at h
    split at h
    · cases h
    · split at h
      · cases h
      · cases h
        simp [arguments, wordOf, Params.find?, Params.text, Params.flag, Params.bind, Argument.word,
          Argument.flagText, Base64.encode, List.lookup_cons]
  | grep path text files =>
    cases h
    simp [arguments, wordOf, Params.find?, Params.text, Params.bind, Argument.word, Base64.encode,
      List.lookup_cons]
  | glob path pattern =>
    cases h
    simp [arguments, wordOf, Params.find?, Params.text, Params.bind, Argument.word, Base64.encode,
      List.lookup_cons]
  | execute command =>
    simp only [params] at h
    split at h
    · cases h
    · cases h
      simp [arguments, wordOf, Params.find?, Params.text, Params.bind, Argument.word, Base64.encode]

/-- **Every call that makes sense has a script**: the fixed texts of its operation with the words
of its arguments between them. -/
theorem script_eq_weave {c : Call} {ps : Params} (h : c.params = .ok ps) :
    c.script ps = .ok (String.ofList
      (weave (around (Script.tokens c.operation)) (c.arguments.map fun p => p.2.word))) := by
  have hholes := Script.holes_tokens c
  have hbound : ∀ name, .hole name ∈ Script.tokens c.operation →
      ps.find? name = some (String.ofList (c.wordOf name)) := by
    intro name hname
    rw [← Template.mem_holes, hholes, List.mem_map] at hname
    obtain ⟨p, hp, rfl⟩ := hname
    obtain ⟨hfind, hword⟩ := find?_of_params h p hp
    rw [hfind, hword]
  have hwords : (holes (Script.tokens c.operation)).map c.wordOf =
      c.arguments.map fun p => p.2.word := by
    rw [hholes, List.map_map]
    exact List.map_congr_left fun p hp => (find?_of_params h p hp).2
  rw [script, Script.source, Template.render_sourceOf (Script.isSound_tokens _) hbound,
    Template.flatMap_text_eq_weave, hwords]
  rfl

/-! ### Scripts tell their arguments -/

theorem word_text_inj {s t : String} : (Argument.text s).word = (Argument.text t).word ↔ s = t := by
  constructor
  · intro h
    exact Utf8.encode_injective (Base64.encodeChars_injective h)
  · rintro rfl
    rfl

theorem word_number_inj {m n : Int} :
    (Argument.number m).word = (Argument.number n).word ↔ m = n := by
  constructor
  · intro h
    exact Int.repr_injective (String.toList_inj.mp h)
  · rintro rfl
    rfl

theorem word_flag_inj {a b : Bool} : (Argument.flag a).word = (Argument.flag b).word ↔ a = b := by
  constructor
  · intro h
    exact Argument.flagText_injective (String.toList_inj.mp h)
  · rintro rfl
    rfl

/-- Two calls of one operation whose arguments have the same words have the same arguments. -/
theorem arguments_eq_of_words {c d : Call} (hop : c.operation = d.operation)
    (h : (c.arguments.map fun p => p.2.word) = d.arguments.map fun p => p.2.word) :
    c.arguments = d.arguments := by
  cases c <;> cases d <;> try cases hop
  all_goals simpa [arguments, word_text_inj, word_number_inj, word_flag_inj] using h

theorem forall₂_spelled (c : Call) : List.Forall₂ Argument.Spelled (c.arguments.map Prod.snd)
    (c.arguments.map fun p => p.2.word) := by
  rw [List.forall₂_map_left_iff, List.forall₂_map_right_iff, List.forall₂_same]
  exact fun p _ => p.2.spelled_word

/-- Two calls of one operation have the same script only if they have the same arguments. -/
theorem arguments_eq_of_script {c d : Call} {ps qs : Params} (hop : c.operation = d.operation)
    (hc : c.params = .ok ps) (hd : d.params = .ok qs) (h : c.script ps = d.script qs) :
    c.arguments = d.arguments := by
  rw [script_eq_weave hc, script_eq_weave hd, hop, Except.ok.injEq, String.ofList_inj] at h
  have hpc := Script.placed_tokens c
  rw [hop] at hpc
  exact arguments_eq_of_words hop (Template.weave_injective (hpc.delimited (forall₂_spelled c))
    ((Script.placed_tokens d).delimited (forall₂_spelled d)) h)

end Call

/-- A script that is there is run, and a run does not fail for want of a script. -/
theorem Sandbox.runScript_ne_render [Url.Names] (s : Sandbox) (now : Int) (peer : Peer) (op : Operation)
    (script : String) (op' : Operation) (e : TemplateError) :
    (s.runScript now peer op script).result ≠ .error (.render op' e) := by
  intro h
  unfold Sandbox.runScript at h
  rw [Run.result_bind_eq_error] at h
  obtain h | ⟨_, _, h⟩ := h
  · cases h
  rw [Run.result_bind_eq_error] at h
  obtain h | ⟨outcome, _, h⟩ := h
  · rw [Run.result_mapError] at h
    cases hrun : (s.transport.run now peer script).result with
    | error e' =>
      rw [hrun] at h
      cases h
    | ok a =>
      rw [hrun] at h
      cases h
  · split at h
    · cases h
    · rw [Run.result_bind_eq_error] at h
      obtain h | ⟨_, _, h⟩ := h
      · cases h
      · cases h

/-- **A script is fixed text and spelled arguments, and tells them.**  A call that makes sense has a
script, and the call never fails for want of one.  The script is the fixed text of the operation's
template with a word in each hole that stands for the hole's argument, texts as base64 between
single quotes; and another call of the operation has the same script exactly if it has the same
arguments. -/
theorem script_tells_arguments [Url.Names] {c : Call} {ps : Params} (h : c.params = .ok ps) :
    (∃ words script, c.script ps = .ok script ∧
      script.toList = weave (around (Script.tokens c.operation)) words ∧
      holes (Script.tokens c.operation) = c.arguments.map Prod.fst ∧
      Script.Placed (around (Script.tokens c.operation)) (c.arguments.map Prod.snd) ∧
      List.Forall₂ Argument.Spelled (c.arguments.map Prod.snd) words) ∧
    (∀ (d : Call) (qs : Params), d.operation = c.operation → d.params = .ok qs →
      (d.script qs = c.script ps ↔ d.arguments = c.arguments)) ∧
    ∀ (s : Sandbox) (now : Int) (peer : Peer) (op : Operation) (e : TemplateError),
      (s.call now peer c).result ≠ .error (.render op e) := by
  refine ⟨?_, ?_, ?_⟩
  · exact ⟨c.arguments.map fun p => p.2.word, _, Call.script_eq_weave h, String.toList_ofList,
      Script.holes_tokens c, Script.placed_tokens c, Call.forall₂_spelled c⟩
  · intro d qs hop hd
    constructor
    · exact Call.arguments_eq_of_script hop hd h
    · intro hargs
      rw [Call.script_eq_weave hd, Call.script_eq_weave h, hop, hargs]
  · intro s now peer op e hres
    unfold Sandbox.call at hres
    rw [h, Run.result_bind_eq_error] at hres
    obtain hres | ⟨_, hps, hres⟩ := hres
    · cases hres
    cases hps
    rw [Call.script_eq_weave h, Run.result_bind_eq_error] at hres
    obtain hres | ⟨script, _, hres⟩ := hres
    · cases hres
    rw [Run.result_bind_eq_error] at hres
    obtain hres | ⟨_, _, hres⟩ := hres
    · exact s.runScript_ne_render _ _ _ _ _ _ hres
    · rw [Run.result_bind_eq_error] at hres
      obtain hres | ⟨_, _, hres⟩ := hres
      · cases hres
      · cases hres

/-- A quote in a text to be replaced does no harm, and it is told. -/
theorem edit_tells_arguments :
    ∃ ps script, (Call.edit "/a//b" "it's" "its" true).params = .ok ps ∧
      (Call.edit "/a//b" "it's" "its" true).script ps = .ok script ∧
      ∀ qs, (Call.edit "/a/b" "it" "its" true).params = .ok qs →
        (Call.edit "/a/b" "it" "its" true).script qs ≠ .ok script := by
  have hps : (Call.edit "/a//b" "it's" "its" true).params = .ok _ := rfl
  obtain ⟨⟨_, script, hscript, _⟩, htells, _⟩ := script_tells_arguments hps
  refine ⟨_, script, hps, hscript, ?_⟩
  intro qs hqs h
  rw [← hscript, htells (.edit "/a/b" "it" "its" true) qs rfl hqs] at h
  revert h
  decide

end RemoteFiles
