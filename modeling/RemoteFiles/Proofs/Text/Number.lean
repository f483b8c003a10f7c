import RemoteFiles.Proofs.Text.Digits
import RemoteFiles.Proofs.Text.Lines
import RemoteFiles.Text.Number

/-!
# Numbers in texts

A text stands for a number if it is, between blanks, a plus sign or none and then decimal digits, at
least one.  The digits are read one by one into a number that never reaches `2 ^ 32`.  Since digits
never make it smaller, that stops exactly the texts that stand for more.

## Main definitions

* `Text.IsNumeral` — a sign or none, and digits.
* `Text.Spells` — a text stands for a number.
* `Text.Malformed` — what keeps a text from being a number below `2 ^ 32`.

## Main results

* `Text.readWordChars_eq_ok_iff` — what is read as a number.
* `Text.readWord_trim_eq_ok_iff` — **the texts that stand for a number below `2 ^ 32` are read as
  it, and no others are read.**
* `Text.Malformed.not_spells` — malformed texts stand for no such number.
-/

namespace RemoteFiles
namespace Text

/-! ### The texts of a number -/

/-- A plus sign or none, and decimal digits that stand for a number; zeros in front do not count. -/
inductive IsNumeral (n : Nat) : List Char → Prop where
  | bare {ds : List Char} (hne : ds ≠ []) (hds : ∀ c ∈ ds, c.isDigit = true)
      (hvalue : Nat.ofDigitChars 10 ds 0 = n) : IsNumeral n ds
  | plus {ds : List Char} (hne : ds ≠ []) (hds : ∀ c ∈ ds, c.isDigit = true)
      (hvalue : Nat.ofDigitChars 10 ds 0 = n) : IsNumeral n ('+' :: ds)

/-- A text stands for a number: a numeral with blanks around it. -/
def Spells (n : Nat) (s : String) : Prop :=
  ∃ front core back, s.toList = front ++ (core ++ back) ∧ (∀ c ∈ front, isBlank c = true) ∧
    (∀ c ∈ back, isBlank c = true) ∧ IsNumeral n core

/-- What keeps a text from being a number below `2 ^ 32`. -/
inductive Malformed (s : String) : Prop where
  /-- There are only blanks. -/
  | blank (h : ∀ c ∈ s.toList, isBlank c = true)
  /-- There is a sign and no number. -/
  | sign (h : trim s = "+")
  /-- There is a character that no number holds: a minus sign, a digit of another script. -/
  | stranger {c : Char} (hc : c ∈ s.toList) (hblank : isBlank c = false)
      (hdigit : c.isDigit = false) (hplus : c ≠ '+')
  /-- There are blanks inside. -/
  | gap {a b : List Char} {c : Char} (h : s.toList = a ++ c :: b) (hc : isBlank c = true)
      (ha : ∃ x ∈ a, isBlank x = false) (hb : ∃ x ∈ b, isBlank x = false)
  /-- The number is too large. -/
  | large {n : Nat} (h : Spells n s) (hn : 2 ^ 32 ≤ n)

/-! ### Trimming -/

theorem trimFront_append_of_blank {front : List Char} (h : ∀ c ∈ front, isBlank c = true)
    (cs : List Char) : trimFront (front ++ cs) = trimFront cs := List.dropWhile_append_of_pos h

theorem trimFront_append_of_filled {core : List Char} (hne : core ≠ [])
    (h : ∀ c ∈ core, isBlank c = false) (cs : List Char) : trimFront (core ++ cs) = core ++ cs := by
  obtain ⟨c, core, rfl⟩ := List.exists_cons_of_ne_nil hne
  refine List.dropWhile_cons_of_neg ?_
  rw [h c List.mem_cons_self]
  exact Bool.false_ne_true

/-- What is trimmed off a text is blank. -/
theorem exists_trimChars (cs : List Char) :
    ∃ front back, cs = front ++ (trimChars cs ++ back) ∧ (∀ c ∈ front, isBlank c = true) ∧
      ∀ c ∈ back, isBlank c = true := by
  refine ⟨cs.takeWhile isBlank, ((trimFront cs).reverse.takeWhile isBlank).reverse, ?_,
    fun c hc => List.all_eq_true.mp List.all_takeWhile c hc,
    fun c hc => List.all_eq_true.mp List.all_takeWhile c (List.mem_reverse.mp hc)⟩
  have hback : trimChars cs ++ ((trimFront cs).reverse.takeWhile isBlank).reverse =
      trimFront cs := by
    rw [trimChars, ← List.reverse_append]
    unfold trimFront
    rw [List.takeWhile_append_dropWhile, List.reverse_reverse]
  rw [hback]
  exact List.takeWhile_append_dropWhile.symm

/-- A text without blanks, with blanks around it, is what is left when they are trimmed off. -/
theorem trimChars_of_filled {front core back : List Char} (hfront : ∀ c ∈ front, isBlank c = true)
    (hback : ∀ c ∈ back, isBlank c = true) (hne : core ≠ [])
    (hcore : ∀ c ∈ core, isBlank c = false) : trimChars (front ++ (core ++ back)) = core := by
  have hreverse : core.reverse ≠ [] := fun h => hne (List.reverse_eq_nil_iff.mp h)
  have hblank : ∀ c ∈ back.reverse, isBlank c = true :=
    fun c hc => hback c (List.mem_reverse.mp hc)
  have hfilled : ∀ c ∈ core.reverse, isBlank c = false :=
    fun c hc => hcore c (List.mem_reverse.mp hc)
  have hkeep := trimFront_append_of_filled hreverse hfilled []
  rw [List.append_nil] at hkeep
  rw [trimChars, trimFront_append_of_blank hfront, trimFront_append_of_filled hne hcore,
    List.reverse_append, trimFront_append_of_blank hblank, hkeep, List.reverse_reverse]

/-! ### Numerals -/

theorem isBlank_of_isDigit {c : Char} (h : c.isDigit = true) : isBlank c = false := by
  have hall : ∀ n ≤ 0x39, 0x30 ≤ n → isBlank (Char.ofNat n) = false := by decide
  obtain ⟨hlow, hhigh⟩ := Utf8.toNat_of_isDigit h
  rw [← Char.ofNat_toNat c]
  exact hall c.toNat hhigh hlow

theorem IsNumeral.mem {n : Nat} {cs : List Char} (h : IsNumeral n cs) {c : Char} (hc : c ∈ cs) :
    c.isDigit = true ∨ c = '+' := by
  cases h with
  | bare _ hds _ => exact Or.inl (hds c hc)
  | plus _ hds _ =>
    rcases List.mem_cons.mp hc with rfl | hc
    · exact Or.inr rfl
    · exact Or.inl (hds c hc)

theorem IsNumeral.filled {n : Nat} {cs : List Char} (h : IsNumeral n cs) :
    ∀ c ∈ cs, isBlank c = false := by
  intro c hc
  rcases h.mem hc with hdigit | rfl
  · exact isBlank_of_isDigit hdigit
  · decide

theorem IsNumeral.ne_nil {n : Nat} {cs : List Char} (h : IsNumeral n cs) : cs ≠ [] := by
  cases h with
  | bare hne _ _ => exact hne
  | plus _ _ _ => exact List.cons_ne_nil _ _

/-- A text stands for what is left when it is trimmed. -/
theorem spells_iff {n : Nat} {s : String} : Spells n s ↔ IsNumeral n (trimChars s.toList) := by
  constructor
  · rintro ⟨front, core, back, hs, hfront, hback, hcore⟩
    rwa [hs, trimChars_of_filled hfront hback hcore.ne_nil hcore.filled]
  · intro h
    obtain ⟨front, back, hs, hfront, hback⟩ := exists_trimChars s.toList
    exact ⟨front, _, back, hs, hfront, hback, h⟩

theorem not_isNumeral_plus (n : Nat) : ¬IsNumeral n ['+'] := by
  intro h
  generalize hcs : ['+'] = cs at h
  cases h with
  | bare _ hds _ =>
    subst hcs
    exact absurd (hds _ List.mem_cons_self) (by decide)
  | plus hne _ _ => exact hne (List.cons.inj hcs).2.symm

/-- A numeral stands for one number. -/
theorem IsNumeral.unique {m n : Nat} {cs : List Char} (h : IsNumeral m cs) (h' : IsNumeral n cs) :
    m = n := by
  have hplus : ∀ {ds : List Char}, ¬∀ c ∈ '+' :: ds, c.isDigit = true :=
    fun hds => absurd (hds _ List.mem_cons_self) (by decide)
  cases h with
  | bare _ hds hvalue =>
    cases h' with
    | bare _ _ hvalue' => exact hvalue.symm.trans hvalue'
    | plus _ _ _ => exact absurd hds hplus
  | plus _ _ hvalue =>
    cases h' with
    | bare _ hds' _ => exact absurd hds' hplus
    | plus _ _ hvalue' => exact hvalue.symm.trans hvalue'

/-- Malformed texts stand for no number below `2 ^ 32`. -/
theorem Malformed.not_spells {s : String} (h : Malformed s) {n : Nat} (hn : n < 2 ^ 32) :
    ¬Spells n s := by
  intro hspells
  have hnumeral := spells_iff.mp hspells
  obtain ⟨front, core, back, hs, hfront, hback, hcore⟩ := hspells
  have hfilled := hcore.filled
  cases h with
  | blank hblank =>
    obtain ⟨c, rest, rfl⟩ := List.exists_cons_of_ne_nil hcore.ne_nil
    have hc := hblank c (by simp [hs])
    rw [hfilled c List.mem_cons_self] at hc
    cases hc
  | sign hsign =>
    have hcs := congrArg String.toList hsign
    rw [trim, String.toList_ofList] at hcs
    rw [hcs] at hnumeral
    exact not_isNumeral_plus n hnumeral
  | @stranger c hc hblank hdigit hplus =>
    rw [hs, List.mem_append, List.mem_append] at hc
    rcases hc with hc | hc | hc
    · rw [hfront c hc] at hblank
      cases hblank
    · rcases hcore.mem hc with hc | hc
      · rw [hc] at hdigit
        cases hdigit
      · exact hplus hc
    · rw [hback c hc] at hblank
      cases hblank
  | @gap a b c hgap hc ha hb =>
    obtain ⟨x, hx, hxfilled⟩ := ha
    obtain ⟨y, hy, hyfilled⟩ := hb
    have hxfront : x ∉ front := fun h => by
      rw [hfront x h] at hxfilled
      cases hxfilled
    have hyback : y ∉ back := fun h => by
      rw [hback y h] at hyfilled
      cases hyfilled
    -- the blanks in front end within `a`, and those behind start within `b`
    rw [hs] at hgap
    rcases List.append_eq_append_iff.mp hgap with ⟨a', rfl, hrest⟩ | ⟨c', rfl, -⟩
    · rcases List.append_eq_append_iff.mp hrest with ⟨z, -, hz⟩ | ⟨z, rfl, hz⟩
      · refine hyback ?_
        rw [hz]
        exact List.mem_append_right z (List.mem_cons_of_mem c hy)
      · cases z with
        | nil =>
          refine hyback ?_
          rw [← show c :: b = back from hz]
          exact List.mem_cons_of_mem c hy
        | cons d z =>
          obtain ⟨rfl, -⟩ := List.cons.inj hz
          rw [hfilled c (by simp)] at hc
          cases hc
    · exact hxfront (List.mem_append_left c' hx)
  | large hspells hlarge =>
    obtain rfl := hnumeral.unique (spells_iff.mp hspells)
    exact absurd hn (Nat.not_lt.mpr hlarge)

/-! ### Reading -/

/-- Digits are appended as long as the number stays below `2 ^ 32`. -/
theorem appendDigits_eq_ok_iff {cs : List Char} {n m : Nat} (hn : n < UInt32.size) :
    appendDigits n cs = .ok m ↔
      (∀ c ∈ cs, c.isDigit = true) ∧ Nat.ofDigitChars 10 cs n = m ∧ m < UInt32.size := by
  induction cs generalizing n with
  | nil =>
    rw [appendDigits, Except.ok.injEq, Nat.ofDigitChars_nil]
    constructor
    · rintro rfl
      exact ⟨fun c hc => absurd hc List.not_mem_nil, rfl, hn⟩
    · exact fun h => h.2.1
  | cons c cs ih =>
    rw [appendDigits, List.forall_mem_cons, Nat.ofDigitChars_cons, Nat.mul_comm 10 n]
    by_cases hdigit : c.isDigit = true
    · rw [if_pos hdigit]
      by_cases hnext : n * 10 + (c.toNat - '0'.toNat) < UInt32.size
      · simp only [if_pos hnext, ih hnext, hdigit, true_and]
      · -- the number only grows with the digits that are still to come
        have hgrow := le_ofDigitChars (n * 10 + (c.toNat - '0'.toNat)) cs
        simp only [if_neg hnext, reduceCtorEq, false_iff]
        rintro ⟨-, rfl, hlt⟩
        exact hnext (Nat.lt_of_le_of_lt hgrow hlt)
    · simp [hdigit]

/-- **Numerals of numbers below `2 ^ 32` are read, and nothing else is.** -/
theorem readWordChars_eq_ok_iff {cs : List Char} {n : Nat} :
    readWordChars cs = .ok n ↔ IsNumeral n cs ∧ n < UInt32.size := by
  have hzero : 0 < UInt32.size := by decide
  have hplus : ('+' : Char).isDigit = false := by decide
  constructor
  · intro h
    unfold readWordChars at h
    split at h
    · cases h
    · cases h
    · next cs hne =>
      obtain ⟨hds, hvalue, hlt⟩ := (appendDigits_eq_ok_iff hzero).mp h
      exact ⟨.plus (fun hnil => hne (by rw [hnil])) hds hvalue, hlt⟩
    · next hne _ _ =>
      obtain ⟨hds, hvalue, hlt⟩ := (appendDigits_eq_ok_iff hzero).mp h
      exact ⟨.bare hne hds hvalue, hlt⟩
  · rintro ⟨hnumeral, hlt⟩
    cases hnumeral with
    | bare hne hds hvalue =>
      have hread := (appendDigits_eq_ok_iff hzero).mpr ⟨hds, hvalue, hlt⟩
      obtain ⟨d, ds, rfl⟩ := List.exists_cons_of_ne_nil hne
      have hd : d ≠ '+' := by
        rintro rfl
        rw [hds _ List.mem_cons_self] at hplus
        cases hplus
      unfold readWordChars
      split
      · next hnil => cases hnil
      · next hsign => exact absurd (List.cons.inj hsign).1 hd
      · next hsign => exact absurd (List.cons.inj hsign).1 hd
      · exact hread
    | @plus ds hne hds hvalue =>
      have hread := (appendDigits_eq_ok_iff hzero).mpr ⟨hds, hvalue, hlt⟩
      obtain ⟨d, ds, rfl⟩ := List.exists_cons_of_ne_nil hne
      exact hread

/-- **The texts that stand for a number below `2 ^ 32` are read as it, and no others are read.** -/
theorem readWord_trim_eq_ok_iff {s : String} {w : UInt32} :
    readWord (trim s) = .ok w ↔ Spells w.toNat s := by
  rw [readWord, trim, String.toList_ofList, spells_iff]
  cases h : readWordChars (trimChars s.toList) with
  | error f =>
    have hnot : ¬IsNumeral w.toNat (trimChars s.toList) := fun hnumeral => by
      rw [readWordChars_eq_ok_iff.mpr ⟨hnumeral, w.toNat_lt⟩] at h
      cases h
    rw [iff_false_right hnot]
    intro hok
    cases hok
  | ok n =>
    obtain ⟨hnumeral, hlt⟩ := readWordChars_eq_ok_iff.mp h
    change Except.ok (UInt32.ofNat n) = Except.ok w ↔ _
    rw [Except.ok.injEq]
    constructor
    · rintro rfl
      rwa [UInt32.toNat_ofNat_of_lt' hlt]
    · intro hw
      rw [readWordChars_eq_ok_iff.mpr ⟨hw, w.toNat_lt⟩, Except.ok.injEq] at h
      rw [← h, UInt32.ofNat_toNat]

end Text
end RemoteFiles
