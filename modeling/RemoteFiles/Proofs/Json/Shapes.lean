import Mathlib.Data.List.Forall2
import RemoteFiles.Proofs.Json.Records
import RemoteFiles.Proofs.Text.Base64

/-!
# Texts of one shape

A character of a base64 word takes one byte, and it stands for itself inside a string.  So two texts
that differ only in such characters have the same size, and still have it when they are written into
a document, and that document into another.

## Main definitions

* `Json.SameShape` — texts that differ only in characters of words.

## Main results

* `Json.SameShape.length_bytes` — texts of one shape have the same size.
* `Json.SameShape.quote`, `Json.SameShape.record` — **strings and records made of texts of one shape
  are of one shape.**
-/

namespace RemoteFiles
namespace Json

/-! ### Characters of words -/

/-- Characters of which one can stand for the other without a change of size. -/
inductive Swappable : Char → Char → Prop where
  | same (c : Char) : Swappable c c
  | word {c d : Char} (hc : Base64.isWordChar c = true) (hd : Base64.isWordChar d = true) :
      Swappable c d

theorem toNat_of_isWordChar {c : Char} (h : Base64.isWordChar c = true) :
    0x2b ≤ c.toNat ∧ c.toNat < 0x80 := by
  have hcases : (decide ('A'.val ≤ c.val ∧ c.val ≤ 'Z'.val) ||
      (decide ('a'.val ≤ c.val) && decide (c.val ≤ 'z'.val)) ||
      (decide ('0'.val ≤ c.val) && decide (c.val ≤ '9'.val)) ||
      decide (c = '+') || decide (c = '/') || decide (c = '=')) = true := h
  simp only [Bool.or_eq_true, Bool.and_eq_true, decide_eq_true_eq, UInt32.le_iff_toNat_le] at hcases
  change (((((65 ≤ c.toNat ∧ c.toNat ≤ 90) ∨ (97 ≤ c.toNat ∧ c.toNat ≤ 122)) ∨
    (48 ≤ c.toNat ∧ c.toNat ≤ 57)) ∨ c = '+') ∨ c = '/') ∨ c = '=' at hcases
  rcases hcases with ((((hc | hc) | hc) | rfl) | rfl) | rfl
  · omega
  · omega
  · omega
  · decide
  · decide
  · decide

/-- A character of a word stands for itself. -/
theorem escape_of_isWordChar {c : Char} (h : Base64.isWordChar c = true) : escape c = [c] := by
  have hne : ∀ d : Char, Base64.isWordChar d = false → c ≠ d := by
    rintro d hd rfl
    rw [hd] at h
    cases h
  obtain ⟨hlow, _⟩ := toNat_of_isWordChar h
  unfold escape
  rw [if_neg (hne _ rfl), if_neg (hne _ rfl), if_neg (hne _ rfl), if_neg (hne _ rfl),
    if_neg (hne _ rfl), if_neg (hne _ rfl), if_neg (hne _ rfl), if_neg (by omega)]

/-! ### Texts -/

/-- Texts that differ only in characters of words. -/
def SameShape (cs ds : List Char) : Prop := List.Forall₂ Swappable cs ds

namespace SameShape

variable {cs cs' ds ds' : List Char}

theorem refl (cs : List Char) : SameShape cs cs := List.forall₂_same.mpr fun c _ => .same c

theorem cons (c : Char) (h : SameShape cs ds) : SameShape (c :: cs) (c :: ds) :=
  List.Forall₂.cons (.same c) h

theorem append (h : SameShape cs ds) (h' : SameShape cs' ds') :
    SameShape (cs ++ cs') (ds ++ ds') := List.rel_append h h'

/-- Words of one length are of one shape. -/
theorem of_words (hlength : cs.length = ds.length)
    (hcs : ∀ c ∈ cs, Base64.isWordChar c = true) (hds : ∀ d ∈ ds, Base64.isWordChar d = true) :
    SameShape cs ds := by
  refine List.forall₂_iff_zip.mpr ⟨hlength, fun {c d} hmem => ?_⟩
  obtain ⟨hc, hd⟩ := List.of_mem_zip hmem
  exact .word (hcs c hc) (hds d hd)

/-- **Texts of one shape have the same size.** -/
theorem length_bytes (h : SameShape cs ds) :
    (Utf8.bytes cs).length = (Utf8.bytes ds).length := by
  induction h with
  | nil => rfl
  | cons hc _ ih =>
    rw [Utf8.bytes_cons, Utf8.bytes_cons, List.length_append, List.length_append, ih]
    cases hc with
    | same => rfl
    | word hc hd =>
      rw [Utf8.utf8EncodeChar_of_lt (toNat_of_isWordChar hc).2,
        Utf8.utf8EncodeChar_of_lt (toNat_of_isWordChar hd).2]
      rfl

/-! ### Documents -/

/-- Inside a string, texts of one shape are of one shape. -/
theorem escaped (h : SameShape cs ds) : SameShape (cs.flatMap escape) (ds.flatMap escape) := by
  induction h with
  | nil => exact .refl []
  | @cons c d cs ds hc _ ih =>
    rw [List.flatMap_cons, List.flatMap_cons]
    refine SameShape.append ?_ ih
    cases hc with
    | same => exact .refl _
    | word hc hd =>
      rw [escape_of_isWordChar hc, escape_of_isWordChar hd]
      exact List.Forall₂.cons (.word hc hd) .nil

theorem quote {s t : String} (h : SameShape s.toList t.toList) :
    SameShape (Json.quote s) (Json.quote t) := (h.escaped.append (.refl _)).cons '"'

theorem joined {ps qs : List (List Char)} (h : List.Forall₂ SameShape ps qs) :
    SameShape (Value.joined ps) (Value.joined qs) := by
  induction h with
  | nil => exact .refl _
  | @cons p q ps qs hp hps ih =>
    cases hps with
    | nil => simpa [Value.joined, List.intercalate] using hp
    | cons _ _ =>
      rw [joined_cons_cons, joined_cons_cons]
      exact hp.append (ih.cons ',')

/-- Records with the same members and with texts of one shape are of one shape. -/
theorem record {ms ns : List (String × Value)}
    (h : List.Forall₂ (fun m n => m.1 = n.1 ∧ SameShape m.2.chars n.2.chars) ms ns) :
    SameShape (Value.record ms).chars (Value.record ns).chars := by
  have hmembers : List.Forall₂ SameShape (ms.map fun m => Json.quote m.1 ++ ':' :: m.2.chars)
      (ns.map fun n => Json.quote n.1 ++ ':' :: n.2.chars) := by
    rw [List.forall₂_map_left_iff, List.forall₂_map_right_iff]
    refine h.imp ?_
    rintro ⟨name, v⟩ ⟨_, w⟩ ⟨rfl, hvalue⟩
    exact (refl _).append (hvalue.cons ':')
  rw [Value.chars, Value.chars, memberChars_eq_map, memberChars_eq_map]
  exact ((joined hmembers).append (.refl _)).cons _

/-- Records that differ in one member, whose texts are of one shape, are of one shape. -/
theorem record_member (front back : List (String × Value)) (name : String) {v w : Value}
    (h : SameShape v.chars w.chars) :
    SameShape (Value.record (front ++ (name, v) :: back)).chars
      (Value.record (front ++ (name, w) :: back)).chars := by
  have hsame : ∀ ms : List (String × Value),
      List.Forall₂ (fun m n => m.1 = n.1 ∧ SameShape m.2.chars n.2.chars) ms ms :=
    fun ms => List.forall₂_same.mpr fun m _ => ⟨rfl, .refl _⟩
  exact record (List.rel_append (hsame front) (.cons ⟨rfl, h⟩ (hsame back)))

end SameShape
end Json
end RemoteFiles
