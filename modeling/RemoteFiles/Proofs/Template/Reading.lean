import RemoteFiles.Template

/-!
# Reading templates

The text of a list of tokens is read as these tokens, whatever runs of braces it has: a run is
taken apart from the left, two braces at a time, and a hole is opened only by a single one.

## Main definitions

* `Template.Token.IsSound` — the name of a hole is not empty and holds no brace.
* `Template.Token.text` — what a token comes to under given values.

## Main results

* `Template.read_sourceOf` — **sound tokens are read back from their text.**
* `Template.fill_eq_flatMap` — filling succeeds when every hole has a value, and copies it.
* `Template.render_sourceOf` — both together.
-/

namespace RemoteFiles
namespace Template

/-- A token that a template can hold: the name of a hole is not empty and holds no brace. -/
def Token.IsSound : Token → Prop
  | plain _ => True
  | hole name => name ≠ "" ∧ '\x7b' ∉ name.toList ∧ '\x7d' ∉ name.toList

@[simp] theorem Token.isSound_plain (c : Char) : (Token.plain c).IsSound := trivial

/-! ### One token -/

/-- A character that is no brace stands for itself. -/
theorem read_cons_of_ne {c : Char} (s : List Char) (h1 : c ≠ '\x7b') (h2 : c ≠ '\x7d') :
    read (c :: s) = (read s).cons (.plain c) := by
  rw [read]
  · exact fun _ h _ => h1 h
  · exact h1
  · exact fun _ h _ => h2 h
  · exact h2

/-- Inside a hole characters that are no braces are collected. -/
theorem readHole_append (s : List Char) : ∀ (cs name : List Char),
    '\x7b' ∉ cs → '\x7d' ∉ cs → readHole name (cs ++ s) = readHole (name ++ cs) s := by
  intro cs
  induction cs with
  | nil => intro name _ _; simp
  | cons c cs ih =>
    intro name h1 h2
    rw [List.mem_cons, not_or] at h1 h2
    rw [List.cons_append, readHole]
    · rw [ih _ h1.2 h2.2, List.append_assoc, List.singleton_append]
    · exact fun h => h1.1 h.symm
    · exact fun h => h2.1 h.symm

theorem readHole_close {name : List Char} (s : List Char) (h : name ≠ []) :
    readHole name ('\x7d' :: s) = (read s).cons (.hole (String.ofList name)) := by
  rw [readHole, if_neg h]

/-- An opening brace before the name of a hole opens it. -/
theorem read_open {cs : List Char} (s : List Char) (hne : cs ≠ []) (h : '\x7b' ∉ cs) :
    read ('\x7b' :: (cs ++ s)) = readHole [] (cs ++ s) := by
  cases cs with
  | nil => exact absurd rfl hne
  | cons c cs =>
    rw [List.mem_cons, not_or] at h
    rw [read]
    intro s' hs
    rw [List.cons_append, List.cons.injEq] at hs
    exact h.1 hs.1.symm

/-- A sound token is read back from the front of a text. -/
theorem read_source_append {t : Token} (ht : t.IsSound) (s : List Char) :
    read (t.source ++ s) = (read s).cons t := by
  cases t with
  | plain c =>
    simp only [Token.source]
    split
    · next h =>
      rcases h with rfl | rfl
      · simp [read]
      · simp [read]
    · next h =>
      rw [not_or] at h
      simp only [List.cons_append, List.nil_append]
      exact read_cons_of_ne s h.1 h.2
  | hole name =>
    obtain ⟨hne, h1, h2⟩ := ht
    have hnil : name.toList ≠ [] := fun h => hne (String.toList_eq_nil_iff.mp h)
    simp only [Token.source, List.cons_append, List.append_assoc, List.nil_append]
    rw [read_open _ hnil h1, readHole_append _ _ _ h1 h2, List.nil_append,
      readHole_close s hnil, String.ofList_toList]

/-! ### A whole template -/

/-- Sound tokens are read back from the front of a text. -/
theorem read_sourceOf_append {ts : List Token} (h : ∀ t ∈ ts, t.IsSound) (s : List Char) :
    read (sourceOf ts ++ s) = ⟨ts ++ (read s).tokens, (read s).fault⟩ := by
  induction ts with
  | nil => rfl
  | cons t ts ih =>
    rw [List.forall_mem_cons] at h
    rw [sourceOf_cons, List.append_assoc, read_source_append h.1, ih h.2]
    rfl

/-- **Sound tokens are read back from their text.** -/
theorem read_sourceOf {ts : List Token} (h : ∀ t ∈ ts, t.IsSound) :
    read (sourceOf ts) = ⟨ts, none⟩ := by
  have := read_sourceOf_append h []
  rw [List.append_nil] at this
  rw [this, read, List.append_nil]

/-! ### Filling -/

/-- What a token comes to, given the text of each hole. -/
def Token.text (value : String → List Char) : Token → List Char
  | plain c => [c]
  | hole name => value name

/-- Filling succeeds when every hole has a value, and copies the value as it is. -/
theorem fill_eq_flatMap {ps : Params} {value : String → List Char} {ts : List Token}
    (h : ∀ name, .hole name ∈ ts → ps.find? name = some (String.ofList (value name))) :
    fill ps ts = .ok (ts.flatMap (Token.text value)) := by
  induction ts with
  | nil => rfl
  | cons t ts ih =>
    have hrest := ih fun name hname => h name (List.mem_cons_of_mem _ hname)
    cases t with
    | plain c =>
      rw [fill, hrest]
      rfl
    | hole name =>
      rw [fill, h name List.mem_cons_self]
      simp only [hrest, Except.map, String.toList_ofList]
      rfl

/-- A template of sound tokens is rendered when every hole has a value. -/
theorem render_sourceOf {ps : Params} {value : String → List Char} {ts : List Token}
    (hs : ∀ t ∈ ts, t.IsSound)
    (h : ∀ name, .hole name ∈ ts → ps.find? name = some (String.ofList (value name))) :
    render (String.ofList (sourceOf ts)) ps =
      .ok (String.ofList (ts.flatMap (Token.text value))) := by
  rw [render, String.toList_ofList, read_sourceOf hs, Reading.fill, fill_eq_flatMap h]

end Template
end RemoteFiles
