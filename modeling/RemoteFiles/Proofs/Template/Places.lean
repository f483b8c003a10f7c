import RemoteFiles.Proofs.Template.Grammar
import RemoteFiles.Proofs.Text.Utf8

/-!
# Where a template is malformed

A template that is rendered is cut into tokens to its very end.  So what is written behind it is cut
as if it stood alone, and comes to the same, with offsets counted on by the bytes in front.  And what
stands in front of a malformed place is such a template.

## Main definitions

* `TemplateError.behind` — the error of a text with more bytes in front.
* `Template.Fault.MarkedAt` — the bytes at a malformed place.

## Main results

* `Template.render_append` — what is written behind a template that is rendered.
* `Template.marked_of_render_eq` — what stands at the offset of an error, and in front of it.
* `Template.render_locates_faults` — **errors name the place that is malformed.**
-/

namespace RemoteFiles

/-- The error of a text that has more bytes in front: its offset is counted on by them. -/
def TemplateError.behind (size : Nat) : TemplateError → TemplateError
  | missingParameter name => missingParameter name
  | unclosedPlaceholder offset => unclosedPlaceholder (size + offset)
  | emptyPlaceholder offset => emptyPlaceholder (size + offset)
  | unmatchedBrace offset => unmatchedBrace (size + offset)

namespace Template

variable {ps : Params} {f : Fault} {ts : List Token}

/-- The bytes at the offset of a malformed place: an opening brace, or a closing one that no other
follows. -/
def Fault.MarkedAt (bytes : List UInt8) (offset : Nat) : Fault → Prop
  | unclosed => bytes[offset]? = some 0x7b
  | empty => bytes[offset]? = some 0x7b
  | unmatched => bytes[offset]? = some 0x7d ∧ bytes[offset + 1]? ≠ some 0x7d

/-! ### Offsets -/

theorem byteSize_eq_length (cs : List Char) : byteSize cs = (Utf8.bytes cs).length := by
  induction cs with
  | nil => rfl
  | cons c cs ih =>
    change c.utf8Size + byteSize cs = _
    rw [ih, Utf8.bytes_cons, List.length_append, String.length_utf8EncodeChar]

theorem byteSize_append (cs ds : List Char) : byteSize (cs ++ ds) = byteSize cs + byteSize ds := by
  rw [byteSize_eq_length, Utf8.bytes_append, List.length_append, ← byteSize_eq_length,
    ← byteSize_eq_length]

theorem byteSize_toList (s : String) : byteSize s.toList = s.utf8ByteSize := by
  rw [byteSize_eq_length, ← Utf8.encode_eq_bytes, Utf8.length_encode]

theorem Fault.error_add (f : Fault) (m n : Nat) : f.error (m + n) = (f.error n).behind m := by
  cases f <;> rfl

/-- An error tells the kind of a malformed place and its offset. -/
theorem Fault.error_injective {g : Fault} {m n : Nat} (h : f.error m = g.error n) :
    f = g ∧ m = n := by
  cases f <;> cases g <;> cases h <;> exact ⟨rfl, rfl⟩

/-! ### Texts behind tokens -/

theorem sourceOf_append (ts us : List Token) : sourceOf (ts ++ us) = sourceOf ts ++ sourceOf us :=
  List.flatMap_append

/-- Behind sound tokens a text is cut as if it stood alone. -/
theorem Reading.Describes.behind {r : Reading} {cs : List Char} (h : r.Describes cs)
    (hsound : ∀ t ∈ ts, t.IsSound) :
    Reading.Describes ⟨ts ++ r.tokens, r.fault⟩ (sourceOf ts ++ cs) := by
  obtain ⟨hmore, rest, rfl, hrest⟩ := h
  refine ⟨?_, rest, ?_, hrest⟩
  · intro t ht
    rcases List.mem_append.mp ht with ht | ht
    · exact hsound t ht
    · exact hmore t ht
  · rw [sourceOf_append, List.append_assoc]

/-- The leftmost hole without a value is behind tokens whose holes have values. -/
theorem Params.firstUnbound?_append (hbound : ps.firstUnbound? ts = none) (us : List Token) :
    ps.firstUnbound? (ts ++ us) = ps.firstUnbound? us := by
  unfold firstUnbound? at hbound ⊢
  rw [holes_append, List.find?_append, hbound, Option.none_or]

/-- A text is rendered just if it is the text of tokens whose holes have values. -/
theorem render_eq_ok_iff {template out : String} :
    render template ps = .ok out ↔ ∃ ts : List Token, (∀ t ∈ ts, t.IsSound) ∧
      template.toList = sourceOf ts ∧ ps.firstUnbound? ts = none ∧
      out = String.ofList (ts.flatMap (Token.text ps.value)) := by
  constructor
  · intro h
    have hdescribes := describes_read template.toList
    rw [render_of_describes hdescribes] at h
    split at h
    · cases h
    · cases h
    · next hbound hfault =>
      obtain ⟨hsound, rest, hcs, hrest⟩ := hdescribes
      rw [hfault] at hrest
      rw [show rest = [] from hrest, List.append_nil] at hcs
      exact ⟨_, hsound, hcs, hbound, (Except.ok.inj h).symm⟩
  · rintro ⟨ts, hsound, hcs, hbound, rfl⟩
    have hdescribes : Reading.Describes ⟨ts, none⟩ template.toList :=
      ⟨hsound, [], by rw [hcs, List.append_nil], rfl⟩
    rw [render_of_describes hdescribes]
    simp only [hbound]

/-- An error with an offset comes from a malformed place behind tokens whose holes have values. -/
theorem of_render_eq_fault {template : String} {offset : Nat}
    (h : render template ps = .error (f.error offset)) : ∃ (ts : List Token) (rest : List Char),
      (∀ t ∈ ts, t.IsSound) ∧ template.toList = sourceOf ts ++ rest ∧ f.StandsAt rest ∧
      ps.firstUnbound? ts = none ∧ offset = byteSize (sourceOf ts) := by
  have hdescribes := describes_read template.toList
  rw [render_of_describes hdescribes] at h
  split at h
  · cases f <;> cases h
  · next g hbound hfault =>
    obtain ⟨rfl, hoffset⟩ := Fault.error_injective (Except.error.inj h)
    obtain ⟨hsound, rest, hcs, hrest⟩ := hdescribes
    rw [hfault] at hrest
    exact ⟨_, rest, hsound, hcs, hrest, hbound, hoffset.symm⟩
  · cases h

/-- **What is written behind a template that is rendered comes to what it comes to alone**, with
offsets counted on by the bytes in front. -/
theorem render_append {a x : String} (h : render a ps = .ok x) (b : String) :
    render (a ++ b) ps =
      match render b ps with
      | .ok y => .ok (x ++ y)
      | .error e => .error (e.behind a.utf8ByteSize) := by
  obtain ⟨ts, hsound, ha, hbound, rfl⟩ := render_eq_ok_iff.mp h
  have hb := describes_read b.toList
  have hab := hb.behind hsound
  rw [← ha, ← String.toList_append] at hab
  rw [render_of_describes hab, render_of_describes hb]
  simp only [Params.firstUnbound?_append hbound]
  -- a hole without a value comes first, and then the malformed place
  cases ps.firstUnbound? (read b.toList).tokens with
  | some name => rfl
  | none =>
    cases (read b.toList).fault with
    | some f =>
      dsimp only
      rw [sourceOf_append, byteSize_append, Fault.error_add, ← ha, byteSize_toList]
    | none =>
      dsimp only
      rw [List.flatMap_append, String.ofList_append]

/-! ### Bytes at a malformed place -/

/-- The first byte of a malformed place, and the second of one where a closing brace stands alone. -/
theorem Fault.StandsAt.markedAt {rest : List Char} (h : f.StandsAt rest) :
    f.MarkedAt (Utf8.bytes rest) 0 := by
  cases h with
  | unclosedAtEnd _ _ => rfl
  | unclosedAtBrace _ _ _ _ => rfl
  | empty _ => rfl
  | @unmatched rest h =>
    refine ⟨rfl, ?_⟩
    intro hnext
    have hbyte : (Utf8.bytes rest).head? = some 0x7d := by
      rw [List.head?_eq_getElem?]
      exact hnext
    exact h (Utf8.head?_of_head?_bytes hbyte (by decide))

/-- The bytes in front of a place do not matter for what stands there. -/
theorem Fault.MarkedAt.behind {bytes : List UInt8} (h : f.MarkedAt bytes 0) (front : List UInt8) :
    f.MarkedAt (front ++ bytes) front.length := by
  have hbyte : ∀ k, (front ++ bytes)[front.length + k]? = bytes[k]? := by
    intro k
    rw [List.getElem?_append_right (Nat.le_add_right _ _), Nat.add_sub_cancel_left]
  have hfirst := hbyte 0
  rw [Nat.add_zero] at hfirst
  cases f with
  | unclosed => exact hfirst.trans h
  | empty => exact hfirst.trans h
  | unmatched => exact ⟨hfirst.trans h.1, fun hnext => h.2 ((hbyte 1).symm.trans hnext)⟩

theorem Fault.StandsAt.ne_nil {rest : List Char} (h : f.StandsAt rest) : rest ≠ [] := by
  cases h <;> exact List.cons_ne_nil _ _

/-- **What stands at the offset of an error, and in front of it**: a character with the bytes of a
malformed place, and a template that is rendered. -/
theorem marked_of_render_eq {template : String} {offset : Nat}
    (h : render template ps = .error (f.error offset)) : ∃ front rest : String,
      template = front ++ rest ∧ front.utf8ByteSize = offset ∧ offset < template.utf8ByteSize ∧
      f.MarkedAt (Utf8.encode template) offset ∧ ∃ out, render front ps = .ok out := by
  obtain ⟨ts, rest, hsound, hcs, hrest, hbound, rfl⟩ := of_render_eq_fault h
  have htemplate : template = String.ofList (sourceOf ts) ++ String.ofList rest := by
    rw [← String.ofList_append, ← hcs, String.ofList_toList]
  have hsize : byteSize (sourceOf ts) = (String.ofList (sourceOf ts)).utf8ByteSize := by
    rw [← byteSize_toList, String.toList_ofList]
  refine ⟨_, _, htemplate, hsize.symm, ?_, ?_, _, render_eq_ok_iff.mpr
    ⟨ts, hsound, String.toList_ofList, hbound, rfl⟩⟩
  · have hpos : (String.ofList rest).utf8ByteSize ≠ 0 := by
      rw [ne_eq, String.utf8ByteSize_eq_zero_iff]
      intro hnil
      exact hrest.ne_nil (by simpa using congrArg String.toList hnil)
    rw [htemplate, String.utf8ByteSize_append, hsize]
    omega
  · rw [Utf8.encode_eq_bytes, hcs, Utf8.bytes_append, byteSize_eq_length]
    exact hrest.markedAt.behind _

/-! ### Errors and their places -/

/-- **Errors name the place that is malformed.**  Behind a template that is rendered, another one is
rendered as it is alone, and gives the error that it gives alone, with its offset counted on.  And the
offset of an error is that of a character inside the template: of an opening brace, or of a closing
one that no other follows; and what stands in front of it is rendered. -/
theorem render_locates_faults (ps : Params) :
    (∀ a b x : String, render a ps = .ok x →
      render (a ++ b) ps =
        match render b ps with
        | .ok y => .ok (x ++ y)
        | .error e => .error (e.behind a.utf8ByteSize)) ∧
    ∀ (template : String) (f : Fault) (offset : Nat),
      render template ps = .error (f.error offset) → ∃ front rest : String,
        template = front ++ rest ∧ front.utf8ByteSize = offset ∧ offset < template.utf8ByteSize ∧
        f.MarkedAt (Utf8.encode template) offset ∧ ∃ out, render front ps = .ok out := by
  refine ⟨?_, ?_⟩
  · intro a b x hx
    exact render_append hx b
  · intro template f offset hfault
    exact marked_of_render_eq hfault

/-- Four bytes in front of a brace that stands alone are three characters. -/
theorem brace_behind_accent :
    render "é\x7b\x7b" {} = .ok "é\x7b" ∧
    render ("é\x7b\x7b" ++ "\x7d") {} = .error (.unmatchedBrace 4) ∧
    ∃ front rest : String, "é\x7b\x7b" ++ "\x7d" = front ++ rest ∧ front.utf8ByteSize = 4 ∧
      ∃ out, render front {} = .ok out := by
  have hfront : render "é\x7b\x7b" {} = .ok "é\x7b" := rfl
  have hsize : "é\x7b\x7b".utf8ByteSize = 4 := by decide
  obtain ⟨happend, hmarked⟩ := render_locates_faults {}
  have hfault : render ("é\x7b\x7b" ++ "\x7d") {} = .error (.unmatchedBrace 4) := by
    rw [happend _ "\x7d" _ hfront, hsize]
    rfl
  obtain ⟨front, rest, htext, hoffset, -, -, hout⟩ := hmarked _ .unmatched 4 hfault
  exact ⟨hfront, hfault, front, rest, htext, hoffset, hout⟩

end Template
end RemoteFiles
