import RemoteFiles.Proofs.Template.Layout

/-!
# The grammar of templates

A text either starts with a token, or is empty, or is malformed at its very front.  So reading cuts
every text into tokens and what is left at the first malformed place, and there is one such cut
only.  What a text is rendered to, or which error it gives, is seen from this cut.

## Main definitions

* `Template.Fault.StandsAt` — the malformed places.
* `Template.Reading.Describes` — a text is cut into tokens and a malformed place.
* `Template.Params.value`, `Template.Params.firstUnbound?` — the values of holes, and the first hole
  without one.

## Main results

* `Template.read_eq_iff` — **every text is cut in one way.**
* `Template.render_of_describes` — what a text that is cut so is rendered to.
* `Template.render_accepts_grammar` — **the texts of tokens are rendered and no others are.**
-/

namespace RemoteFiles
namespace Template

/-- The malformed places: an opening brace that is not closed before the next one or the end, an
opening brace that is closed at once, and a closing brace alone. -/
inductive Fault.StandsAt : Fault → List Char → Prop where
  | unclosedAtEnd {name : List Char} (hopen : '\x7b' ∉ name) (hclose : '\x7d' ∉ name) :
      StandsAt .unclosed ('\x7b' :: name)
  | unclosedAtBrace {name : List Char} (rest : List Char) (hname : name ≠ [])
      (hopen : '\x7b' ∉ name) (hclose : '\x7d' ∉ name) :
      StandsAt .unclosed ('\x7b' :: (name ++ '\x7b' :: rest))
  | empty (rest : List Char) : StandsAt .empty ('\x7b' :: '\x7d' :: rest)
  | unmatched {rest : List Char} (h : rest.head? ≠ some '\x7d') :
      StandsAt .unmatched ('\x7d' :: rest)

/-! ### The front of a text -/

/-- Characters up to the first brace, and what comes from it on. -/
theorem exists_upToBrace (cs : List Char) : ∃ name rest, cs = name ++ rest ∧
    '\x7b' ∉ name ∧ '\x7d' ∉ name ∧ (rest = [] ∨ ∃ s, rest = '\x7b' :: s ∨ rest = '\x7d' :: s) := by
  induction cs with
  | nil => exact ⟨[], [], rfl, List.not_mem_nil, List.not_mem_nil, Or.inl rfl⟩
  | cons c cs ih =>
    by_cases hopen : c = '\x7b'
    · exact ⟨[], _, rfl, List.not_mem_nil, List.not_mem_nil, Or.inr ⟨cs, Or.inl (by rw [hopen])⟩⟩
    by_cases hclose : c = '\x7d'
    · exact ⟨[], _, rfl, List.not_mem_nil, List.not_mem_nil, Or.inr ⟨cs, Or.inr (by rw [hclose])⟩⟩
    · obtain ⟨name, rest, rfl, h1, h2, hrest⟩ := ih
      exact ⟨c :: name, rest, rfl, by simp [Ne.symm hopen, h1], by simp [Ne.symm hclose, h2], hrest⟩

/-- A text that starts with an opening brace starts with a brace that stands for itself, with a
hole, or is malformed. -/
theorem open_cases (s : List Char) :
    (∃ (t : Token) (rest : List Char), t.IsSound ∧ '\x7b' :: s = t.source ++ rest) ∨
      ∃ f : Fault, f.StandsAt ('\x7b' :: s) := by
  obtain ⟨name, rest, rfl, hopen, hclose, rfl | ⟨s, rfl | rfl⟩⟩ := exists_upToBrace s
  · rw [List.append_nil]
    exact Or.inr ⟨_, .unclosedAtEnd hopen hclose⟩
  · by_cases hname : name = []
    · subst hname
      exact Or.inl ⟨.plain '\x7b', s, Token.isSound_plain _, rfl⟩
    · exact Or.inr ⟨_, .unclosedAtBrace s hname hopen hclose⟩
  · by_cases hname : name = []
    · subst hname
      exact Or.inr ⟨_, .empty s⟩
    · refine Or.inl ⟨.hole (String.ofList name), s, ⟨?_, ?_, ?_⟩, ?_⟩
      · intro h
        exact hname (by simpa using congrArg String.toList h)
      · rwa [String.toList_ofList]
      · rwa [String.toList_ofList]
      · simp [Token.source]

/-- A text is empty, or starts with a token, or is malformed at its front. -/
theorem front_cases (cs : List Char) : cs = [] ∨
    (∃ (t : Token) (rest : List Char), t.IsSound ∧ cs = t.source ++ rest) ∨
      ∃ f : Fault, f.StandsAt cs := by
  cases cs with
  | nil => exact Or.inl rfl
  | cons c s =>
    right
    by_cases hopen : c = '\x7b'
    · rw [hopen]
      exact open_cases s
    by_cases hclose : c = '\x7d'
    · subst hclose
      by_cases hs : s.head? = some '\x7d'
      · obtain ⟨s, rfl⟩ := List.head?_eq_some_iff.mp hs
        exact Or.inl ⟨.plain '\x7d', s, Token.isSound_plain _, rfl⟩
      · exact Or.inr ⟨_, .unmatched hs⟩
    · refine Or.inl ⟨.plain c, s, Token.isSound_plain c, ?_⟩
      simp [Token.source, hopen, hclose]

/-! ### Reading -/

/-- Nothing is read at a malformed place. -/
theorem read_of_standsAt {f : Fault} {cs : List Char} (h : f.StandsAt cs) :
    read cs = ⟨[], some f⟩ := by
  cases h with
  | @unclosedAtEnd name hopen hclose =>
    by_cases hname : name = []
    · subst hname
      simp [read, readHole]
    · have hread := read_open [] hname hopen
      rw [readHole_append [] name [] hopen hclose, List.append_nil, List.nil_append] at hread
      rw [hread, readHole]
  | unclosedAtBrace rest hname hopen hclose =>
    rw [read_open _ hname hopen, readHole_append _ _ _ hopen hclose, readHole]
  | empty rest => simp [read, readHole]
  | @unmatched rest h =>
    rw [read]
    rintro s rfl
    exact h rfl

/-- A text is cut into tokens and what is left of it: nothing, or a malformed place. -/
def Reading.Describes (r : Reading) (cs : List Char) : Prop :=
  (∀ t ∈ r.tokens, t.IsSound) ∧ ∃ rest, cs = sourceOf r.tokens ++ rest ∧
    match r.fault with
    | none => rest = []
    | some f => f.StandsAt rest

theorem length_source_pos (t : Token) : 0 < t.source.length := by
  cases t with
  | plain c =>
    rw [Token.source]
    split
    · exact Nat.zero_lt_two
    · exact Nat.one_pos
  | hole name => exact Nat.zero_lt_succ _

/-- What a text is cut into describes it. -/
theorem describes_read (cs : List Char) : (read cs).Describes cs := by
  -- each token takes a character at least
  induction hn : cs.length using Nat.strongRecOn generalizing cs with
  | ind n ih =>
    subst hn
    obtain rfl | ⟨t, s, ht, rfl⟩ | ⟨f, hf⟩ := front_cases cs
    · rw [read]
      exact ⟨by simp, [], rfl, rfl⟩
    · have hlength : s.length < (t.source ++ s).length := by
        have := length_source_pos t
        rw [List.length_append]
        omega
      obtain ⟨hsound, rest, hs, hrest⟩ := ih _ hlength s rfl
      rw [read_source_append ht]
      refine ⟨List.forall_mem_cons.mpr ⟨ht, hsound⟩, rest, ?_, hrest⟩
      rw [Reading.cons, sourceOf_cons, List.append_assoc, ← hs]
    · rw [read_of_standsAt hf]
      exact ⟨by simp, cs, rfl, hf⟩

/-- **Every text is cut in one way**, the one that reading finds. -/
theorem read_eq_iff {cs : List Char} {r : Reading} : read cs = r ↔ r.Describes cs := by
  constructor
  · rintro rfl
    exact describes_read cs
  · rintro ⟨hsound, rest, rfl, hrest⟩
    rw [read_sourceOf_append hsound]
    obtain ⟨ts, fault⟩ := r
    cases fault with
    | none =>
      rw [show rest = [] from hrest, read, List.append_nil]
    | some f =>
      rw [read_of_standsAt hrest, List.append_nil]

/-! ### Filling -/

namespace Params

/-- The value of a hole that has one. -/
def value (ps : Params) (name : String) : List Char := ((ps.find? name).getD "").toList

/-- The leftmost hole without a value. -/
def firstUnbound? (ps : Params) (ts : List Token) : Option String :=
  (holes ts).find? fun name => (ps.find? name).isNone

end Params

/-- Tokens are filled with the values of their holes, or the leftmost hole without one is reported. -/
theorem fill_eq (ps : Params) (ts : List Token) :
    fill ps ts =
      match ps.firstUnbound? ts with
      | some name => .error (.missingParameter name)
      | none => .ok (ts.flatMap (Token.text ps.value)) := by
  induction ts with
  | nil => rfl
  | cons t ts ih =>
    cases t with
    | plain c =>
      rw [fill, ih]
      change Except.map _ (match ps.firstUnbound? ts with | some _ => _ | none => _) =
        match ps.firstUnbound? ts with | some _ => _ | none => _
      cases ps.firstUnbound? ts <;> rfl
    | hole name =>
      rw [fill]
      cases hname : ps.find? name with
      | none => simp [Params.firstUnbound?, holes, hname]
      | some value =>
        have hfirst : ps.firstUnbound? (.hole name :: ts) = ps.firstUnbound? ts := by
          simp [Params.firstUnbound?, holes, hname]
        have hvalue : ps.value name = value.toList := by simp [Params.value, hname]
        simp only [hfirst, ih, List.flatMap_cons, Token.text, hvalue]
        cases ps.firstUnbound? ts <;> rfl

/-- What a text is rendered to: the first hole without a value is reported, and if all of them have
one, the malformed place. -/
theorem render_of_describes {r : Reading} {template : String} (h : r.Describes template.toList)
    (ps : Params) :
    render template ps =
      match ps.firstUnbound? r.tokens, r.fault with
      | some name, _ => .error (.missingParameter name)
      | none, some f => .error (f.error (byteSize (sourceOf r.tokens)))
      | none, none => .ok (String.ofList (r.tokens.flatMap (Token.text ps.value))) := by
  rw [render, read_eq_iff.mpr h, Reading.fill, fill_eq]
  cases ps.firstUnbound? r.tokens <;> cases r.fault <;> rfl

/-! ### The grammar -/

/-- The text of some tokens. -/
def IsTemplate (cs : List Char) : Prop :=
  ∃ ts : List Token, (∀ t ∈ ts, t.IsSound) ∧ cs = sourceOf ts

/-- A text starts with tokens of which the last is a hole without a value. -/
def Params.Lacks (ps : Params) (cs : List Char) (name : String) : Prop :=
  ∃ front rest, (∀ t ∈ front ++ [.hole name], t.IsSound) ∧
    cs = sourceOf (front ++ [.hole name]) ++ rest ∧ ps.find? name = none

/-- A text that is cut into tokens alone is the text of tokens. -/
theorem isTemplate_iff {r : Reading} {cs : List Char} (h : r.Describes cs) :
    IsTemplate cs ↔ r.fault = none := by
  constructor
  · rintro ⟨ts, hsound, rfl⟩
    rw [← read_eq_iff.mpr h, read_sourceOf hsound]
  · intro hfault
    obtain ⟨hsound, rest, hcs, hrest⟩ := h
    rw [hfault] at hrest
    exact ⟨r.tokens, hsound, by rw [hcs, show rest = [] from hrest, List.append_nil]⟩

/-- The first hole without a value ends some tokens that the text starts with. -/
theorem lacks_of_firstUnbound? {r : Reading} {cs : List Char} (h : r.Describes cs) {ps : Params}
    {name : String} (hname : ps.firstUnbound? r.tokens = some name) : ps.Lacks cs name := by
  have hunbound : (ps.find? name).isNone = true :=
    List.find?_some (p := fun name => (ps.find? name).isNone) hname
  have hmem : Token.hole name ∈ r.tokens := mem_holes.mp (List.mem_of_find?_eq_some hname)
  obtain ⟨hsound, rest, rfl, -⟩ := h
  obtain ⟨front, back, hts⟩ := List.append_of_mem hmem
  refine ⟨front, sourceOf back ++ rest, ?_, ?_, Option.isNone_iff_eq_none.mp hunbound⟩
  · intro t ht
    refine hsound t ?_
    rw [hts, List.append_cons]
    exact List.mem_append_left back ht
  · simp [hts, sourceOf]

/-- If all holes have values, no tokens that the text starts with end in one that has none. -/
theorem not_lacks_of_firstUnbound? {r : Reading} {cs : List Char} (h : r.Describes cs) {ps : Params}
    (hall : ps.firstUnbound? r.tokens = none) (name : String) : ¬ps.Lacks cs name := by
  rintro ⟨front, rest, hsound, rfl, hunbound⟩
  have hread := read_sourceOf_append hsound rest
  rw [read_eq_iff.mpr h] at hread
  have hmem : name ∈ holes r.tokens := by simp [hread, holes]
  have hbound := List.find?_eq_none.mp hall name hmem
  simp [hunbound] at hbound

/-- **The texts of tokens are rendered and no others are.**  The text of tokens is rendered to their
characters and to the values of their holes, or gives the leftmost hole without a value.  What is
rendered is the text of tokens.  Any other text gives a hole without a value if tokens that it starts
with end in such a hole, and otherwise its malformed place. -/
theorem render_accepts_grammar (ps : Params) :
    (∀ ts : List Token, (∀ t ∈ ts, t.IsSound) →
      render (String.ofList (sourceOf ts)) ps =
        match ps.firstUnbound? ts with
        | some name => .error (.missingParameter name)
        | none => .ok (String.ofList (ts.flatMap (Token.text ps.value)))) ∧
    (∀ template out, render template ps = .ok out → IsTemplate template.toList) ∧
    ∀ template, ¬IsTemplate template.toList →
      (∃ name, ps.Lacks template.toList name ∧
        render template ps = .error (.missingParameter name)) ∨
      ((∀ name, ¬ps.Lacks template.toList name) ∧ ∃ (ts : List Token) (f : Fault) (rest : List Char),
        (∀ t ∈ ts, t.IsSound) ∧ template.toList = sourceOf ts ++ rest ∧ f.StandsAt rest ∧
        render template ps = .error (f.error (byteSize (sourceOf ts)))) := by
  refine ⟨?_, ?_, ?_⟩
  · intro ts hsound
    have hdescribes : Reading.Describes ⟨ts, none⟩ (String.ofList (sourceOf ts)).toList :=
      ⟨hsound, [], by rw [String.toList_ofList, List.append_nil], rfl⟩
    rw [render_of_describes hdescribes]
    cases ps.firstUnbound? ts <;> rfl
  · intro template out hout
    have hdescribes := describes_read template.toList
    rw [render_of_describes hdescribes] at hout
    rw [isTemplate_iff hdescribes]
    split at hout
    · cases hout
    · cases hout
    · assumption
  · intro template hno
    have hdescribes := describes_read template.toList
    have hrender := render_of_describes hdescribes ps
    rw [isTemplate_iff hdescribes] at hno
    obtain ⟨f, hf⟩ := Option.ne_none_iff_exists'.mp hno
    cases hfirst : ps.firstUnbound? (read template.toList).tokens with
    | some name =>
      left
      rw [hfirst] at hrender
      exact ⟨name, lacks_of_firstUnbound? hdescribes hfirst, hrender⟩
    | none =>
      right
      rw [hfirst, hf] at hrender
      obtain ⟨hsound, rest, hcs, hrest⟩ := hdescribes
      rw [hf] at hrest
      exact ⟨not_lacks_of_firstUnbound? (describes_read _) hfirst, _, f, rest, hsound, hcs, hrest,
        hrender⟩

/-- A run of braces is taken apart from the left, and a hole without a value that comes before the
malformed place is reported in its stead. -/
example : (render "\x7b\x7b\x7ba\x7d\x7d\x7d" (({} : Params).bind "a" "\x7bb\x7d") =
      .ok "\x7b\x7bb\x7d\x7d") ∧
    render "\x7ba\x7d\x7d" {} = .error (.missingParameter "a") := ⟨rfl, rfl⟩

end Template
end RemoteFiles
