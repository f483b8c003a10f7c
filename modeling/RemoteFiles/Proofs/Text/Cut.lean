/-!
# Texts cut at a character

A text that is cut at the first character of some kind is cut in front of one that stands in it, and
what comes after that one plays no part.  A number that is written out
holds digits and a sign only, so anything else ends it.

## Main results

* `takeWhile_append_cons`, `dropWhile_append_cons` — the parts of a text that is cut.
* `append_cons_inj_of_delimiter` — a text can be cut at its first delimiter in one way only.
* `notMem_of_mem_splitOn` — no piece of a text holds the character that it is split at.
* `mem_intercalate` — what texts hold that are put together with a character between them.
* `notMem_toString` — what a number that is written out does not hold.
-/

namespace RemoteFiles

theorem forall_ne_of_notMem {c : Char} {cs : List Char} (h : c ∉ cs) :
    ∀ d ∈ cs, (d ≠ c : Bool) = true := by
  intro d hd
  rw [decide_eq_true_eq]
  rintro rfl
  exact h hd

theorem takeWhile_append_cons {p : Char → Bool} (xs : List Char) {y : Char} (ys : List Char)
    (h : p y = false) : (xs ++ y :: ys).takeWhile p = xs.takeWhile p := by
  induction xs with
  | nil =>
    rw [List.nil_append, List.takeWhile_cons_of_neg (by rw [h]; exact Bool.false_ne_true)]
    rfl
  | cons x xs ih => rw [List.cons_append, List.takeWhile_cons, List.takeWhile_cons, ih]

theorem dropWhile_append_cons {p : Char → Bool} (xs : List Char) {y : Char} (ys : List Char)
    (h : p y = false) : (xs ++ y :: ys).dropWhile p = xs.dropWhile p ++ y :: ys := by
  induction xs with
  | nil =>
    rw [List.nil_append, List.dropWhile_cons_of_neg (by rw [h]; exact Bool.false_ne_true)]
    rfl
  | cons x xs ih =>
    rw [List.cons_append, List.dropWhile_cons, List.dropWhile_cons, ih]
    by_cases hx : p x = true
    · rw [if_pos hx, if_pos hx]
    · rw [if_neg hx, if_neg hx]
      rfl

/-- Two texts that are equal up to different ends, cut at a character neither front holds. -/
theorem append_cons_inj_of_delimiter {d : Char} {as bs : List Char} : ∀ {xs ys : List Char},
    d ∉ xs → d ∉ ys → xs ++ d :: as = ys ++ d :: bs → xs = ys ∧ as = bs := by
  intro xs
  induction xs with
  | nil =>
    intro ys _ hy h
    cases ys with
    | nil => exact ⟨rfl, (List.cons.inj h).2⟩
    | cons y ys =>
      rw [List.nil_append, List.cons_append, List.cons.injEq] at h
      exact absurd (h.1 ▸ List.mem_cons_self) hy
  | cons x xs ih =>
    intro ys hx hy h
    cases ys with
    | nil =>
      rw [List.nil_append, List.cons_append, List.cons.injEq] at h
      exact absurd (h.1 ▸ List.mem_cons_self) hx
    | cons y ys =>
      rw [List.mem_cons, not_or] at hx hy
      rw [List.cons_append, List.cons_append, List.cons.injEq] at h
      obtain ⟨rfl, h⟩ := h
      obtain ⟨rfl, hab⟩ := ih hx.2 hy.2 h
      exact ⟨rfl, hab⟩

/-- No piece of a text holds the character that the text is split at. -/
theorem notMem_of_mem_splitOn {c : Char} {cs piece : List Char} (h : piece ∈ cs.splitOn c) :
    c ∉ piece := by
  induction cs generalizing piece with
  | nil =>
    rw [List.splitOn_nil, List.mem_singleton] at h
    simp [h]
  | cons d cs ih =>
    rw [List.splitOn_cons_eq_if_modifyHead] at h
    by_cases hd : d = c
    · rw [if_pos (beq_iff_eq.mpr hd), List.mem_cons] at h
      rcases h with rfl | h
      · exact List.not_mem_nil
      · exact ih h
    · rw [if_neg (by simpa using hd)] at h
      -- the first character goes to the first piece
      cases hcs : cs.splitOn c with
      | nil => rw [hcs] at h; cases h
      | cons first rest =>
        rw [hcs, List.modifyHead_cons, List.mem_cons] at h
        rcases h with rfl | h
        · have hfirst := ih (hcs ▸ List.mem_cons_self)
          simp [Ne.symm hd, hfirst]
        · exact ih (hcs ▸ List.mem_cons_of_mem first h)

/-- What is in texts with a mark between them is the mark or in one of the texts. -/
theorem mem_intercalate {mark c : Char} {texts : List (List Char)}
    (h : c ∈ [mark].intercalate texts) : c = mark ∨ ∃ text ∈ texts, c ∈ text := by
  induction texts with
  | nil => cases h
  | cons text texts ih =>
    cases texts with
    | nil =>
      rw [List.intercalate_singleton] at h
      exact Or.inr ⟨text, List.mem_cons_self, h⟩
    | cons next texts =>
      rw [List.intercalate_cons_cons, List.mem_append, List.mem_append, List.mem_singleton] at h
      rcases h with (h | h) | h
      · exact Or.inr ⟨text, List.mem_cons_self, h⟩
      · exact Or.inl h
      · rcases ih h with h | ⟨t, ht, hc⟩
        · exact Or.inl h
        · exact Or.inr ⟨t, List.mem_cons_of_mem _ ht, hc⟩

/-- A number written out holds digits and a sign only. -/
theorem notMem_toString {c : Char} (n : Int) (hsign : c ≠ '-') (hdigit : c.isDigit = false) :
    c ∉ (toString n).toList := by
  have hnat : ∀ m : Nat, c ∉ m.repr.toList := by
    intro m hm
    rw [Nat.toList_repr] at hm
    rw [Nat.isDigit_of_mem_toDigits (by decide) (by decide) hm] at hdigit
    cases hdigit
  cases n with
  | ofNat m => exact hnat m
  | negSucc m =>
    intro h
    rw [show toString (Int.negSucc m) = "-" ++ (m + 1).repr from rfl, String.toList_append,
      List.mem_append] at h
    rcases h with h | h
    · exact hsign (List.mem_singleton.mp h)
    · exact hnat _ h

end RemoteFiles
