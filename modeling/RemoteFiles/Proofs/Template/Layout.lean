import RemoteFiles.Proofs.Template.Reading
import RemoteFiles.Proofs.Text.Cut

/-!
# The layout of a template

A filled template is its fixed texts with a word between any two of them.  Where each word ends is
seen from the text alone as long as no word holds the character that comes after it, and then the
filled template determines its words.

## Main definitions

* `Template.around` — the fixed texts, one more than there are holes.
* `Template.holes` — the names of the holes.
* `Template.weave` — texts with words between them.

## Main results

* `Template.flatMap_text_eq_weave` — a filled template is its fixed texts and the holes' values.
* `Template.weave_injective` — **delimited words are determined by the whole.**
-/

namespace RemoteFiles
namespace Template

/-! ### Fixed texts and holes -/

/-- A text in front of the first of some texts. -/
def lead (cs : List Char) : List (List Char) → List (List Char)
  | [] => [cs]
  | piece :: pieces => (cs ++ piece) :: pieces

/-- The texts around the holes of a template, in their order. -/
def around : List Token → List (List Char)
  | [] => [[]]
  | .plain c :: ts => lead [c] (around ts)
  | .hole _ :: ts => [] :: around ts

/-- The names of the holes of a template, in their order. -/
def holes : List Token → List String
  | [] => []
  | .plain _ :: ts => holes ts
  | .hole name :: ts => name :: holes ts

@[simp] theorem lead_nil_left {pieces : List (List Char)} (h : pieces ≠ []) :
    lead [] pieces = pieces := by
  cases pieces with
  | nil => exact absurd rfl h
  | cons piece pieces => rfl

theorem lead_lead (cs ds : List Char) (pieces : List (List Char)) :
    lead cs (lead ds pieces) = lead (cs ++ ds) pieces := by
  cases pieces with
  | nil => rfl
  | cons piece pieces => simp [lead]

@[simp] theorem around_ne_nil (ts : List Token) : around ts ≠ [] := by
  cases ts with
  | nil => simp [around]
  | cons t ts =>
    cases t with
    | plain c => cases h : around ts <;> simp [around, lead, h]
    | hole name => simp [around]

theorem around_plain_append (cs : List Char) (ts : List Token) :
    around (cs.map .plain ++ ts) = lead cs (around ts) := by
  induction cs with
  | nil => simp
  | cons c cs ih =>
    rw [List.map_cons, List.cons_append, around, ih, lead_lead]
    rfl

@[simp] theorem holes_append (ts us : List Token) : holes (ts ++ us) = holes ts ++ holes us := by
  induction ts with
  | nil => rfl
  | cons t ts ih => cases t <;> simp [holes, ih]

@[simp] theorem holes_plain (cs : List Char) : holes (cs.map .plain) = [] := by
  induction cs with
  | nil => rfl
  | cons c cs ih => rw [List.map_cons, holes, ih]

theorem mem_holes {name : String} {ts : List Token} : name ∈ holes ts ↔ .hole name ∈ ts := by
  induction ts with
  | nil => simp [holes]
  | cons t ts ih => cases t <;> simp [holes, ih]

/-! ### Weaving -/

/-- Texts with a word between any two of them. -/
def weave : List (List Char) → List (List Char) → List Char
  | piece :: pieces, word :: words => piece ++ word ++ weave pieces words
  | pieces, _ => pieces.flatten

theorem weave_lead (cs : List Char) (pieces words : List (List Char)) (h : pieces ≠ []) :
    weave (lead cs pieces) words = cs ++ weave pieces words := by
  cases pieces with
  | nil => exact absurd rfl h
  | cons piece pieces => cases words <;> simp [lead, weave]

theorem weave_cons_char (c : Char) (piece : List Char) (pieces words : List (List Char)) :
    weave ((c :: piece) :: pieces) words = c :: weave (piece :: pieces) words := by
  cases words <;> simp [weave]

/-- A filled template is its fixed texts with the values of the holes between them. -/
theorem flatMap_text_eq_weave (value : String → List Char) (ts : List Token) :
    ts.flatMap (Token.text value) = weave (around ts) ((holes ts).map value) := by
  induction ts with
  | nil => rfl
  | cons t ts ih =>
    cases t with
    | plain c =>
      rw [List.flatMap_cons, ih, around, weave_lead _ _ _ (around_ne_nil ts)]
      rfl
    | hole name =>
      rw [List.flatMap_cons, ih]
      rfl

/-! ### Reading the words off -/

/-- Each word is followed by a character that it does not hold. -/
inductive Delimited : List (List Char) → List (List Char) → Prop where
  | last (piece : List Char) : Delimited [piece] []
  | word (piece : List Char) {d : Char} {rest word : List Char} {pieces words : List (List Char)}
      (h : d ∉ word) (more : Delimited ((d :: rest) :: pieces) words) :
      Delimited (piece :: (d :: rest) :: pieces) (word :: words)

/-- **Delimited words are determined by the whole**: between the same texts, different words give
different wholes. -/
theorem weave_injective {pieces words : List (List Char)} (hw : Delimited pieces words) :
    ∀ {others : List (List Char)}, Delimited pieces others →
      weave pieces words = weave pieces others → words = others := by
  induction hw with
  | last piece =>
    intro others ho _
    cases ho
    rfl
  | @word piece d rest w rest' words hd more ih =>
    intro others ho h
    cases ho with
    | word _ hd' more' =>
      next v others =>
      simp only [weave, List.append_assoc, List.append_cancel_left_eq] at h
      -- the rest of the whole starts with the delimiter, with either words
      rw [weave_cons_char, weave_cons_char] at h
      obtain ⟨rfl, hrest⟩ := append_cons_inj_of_delimiter hd hd' h
      rw [ih more' (by rw [weave_cons_char, weave_cons_char, hrest])]

end Template
end RemoteFiles
