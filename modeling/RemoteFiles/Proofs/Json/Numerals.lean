import RemoteFiles.Json.Number

/-!
# Numerals

Which texts are numbers, and that each of them is read as what it spells, as long as what comes
after it cannot be more of the number.

## Main definitions

* `Json.EndsNumber` — what cannot be more of a number.
* `Json.Numeral.Spells` — the texts of a numeral.

## Main results

* `Json.Numeral.Spells.read` — **a numeral is read from each of its texts.**
-/

namespace RemoteFiles
namespace Json

/-! ### Ends -/

/-- An input that cannot be more of a number: no digit, point or exponent is in front. -/
def EndsNumber (s : Input) : Prop :=
  ∀ b, s.head? = some b → isDigit b = false ∧ b ≠ Byte.point ∧ b ≠ 0x65 ∧ b ≠ 0x45

theorem endsNumber_nil : EndsNumber [] := by
  intro b h
  cases h

theorem endsNumber_cons {b : UInt8} (s : Input)
    (h : isDigit b = false ∧ b ≠ Byte.point ∧ b ≠ 0x65 ∧ b ≠ 0x45) : EndsNumber (b :: s) := by
  intro b' hb'
  cases hb'
  exact h

/-- An input with no digit in front. -/
def EndsDigits (s : Input) : Prop := ∀ b, s.head? = some b → isDigit b = false

theorem EndsNumber.endsDigits {s : Input} (h : EndsNumber s) : EndsDigits s :=
  fun b hb => (h b hb).1

/-! ### The texts of a numeral -/

/-- Decimal digits, at least one. -/
def IsDigits (ds : List UInt8) : Prop := ds ≠ [] ∧ ∀ b ∈ ds, 0x30 ≤ b ∧ b ≤ 0x39

/-- The digits before the point: a zero alone, or digits that do not start with zero. -/
def IsWhole (ds : List UInt8) : Prop :=
  IsDigits ds ∧ (ds.head? = some Byte.zero → ds = [Byte.zero])

/-- The texts of what comes after the point, with the point. -/
inductive FractionText : Option (List UInt8) → Input → Prop where
  | absent : FractionText none []
  | digits {ds : List UInt8} (h : IsDigits ds) : FractionText (some ds) (Byte.point :: ds)

/-- The texts of an exponent: an `e` of either case, a sign or none, and digits. -/
inductive ExponentText : Option (Bool × List UInt8) → Input → Prop where
  | absent : ExponentText none []
  | bare {e : UInt8} {ds : List UInt8} (he : e = 0x65 ∨ e = 0x45) (h : IsDigits ds) :
      ExponentText (some (false, ds)) (e :: ds)
  | plus {e : UInt8} {ds : List UInt8} (he : e = 0x65 ∨ e = 0x45) (h : IsDigits ds) :
      ExponentText (some (false, ds)) (e :: Byte.plus :: ds)
  | minus {e : UInt8} {ds : List UInt8} (he : e = 0x65 ∨ e = 0x45) (h : IsDigits ds) :
      ExponentText (some (true, ds)) (e :: Byte.minus :: ds)

/-- The texts of a numeral. -/
inductive Numeral.Spells : Numeral → Input → Prop where
  | mk (negative : Bool) {whole : List UInt8} {fraction : Option (List UInt8)}
      {exponent : Option (Bool × List UInt8)} {f x : Input} (hwhole : IsWhole whole)
      (hfraction : FractionText fraction f) (hexponent : ExponentText exponent x) :
      Spells ⟨negative, whole, fraction, exponent⟩
        ((if negative then [Byte.minus] else []) ++ (whole ++ (f ++ x)))

/-! ### Digits -/

theorem IsDigits.isDigit {ds : List UInt8} (h : IsDigits ds) : ∀ b ∈ ds, isDigit b = true := by
  intro b hb
  have hbounds := h.2 b hb
  simp only [Json.isDigit, hbounds.1, hbounds.2, decide_true, Bool.and_self]

theorem isSpace_of_isDigit {b : UInt8} (h : isDigit b = true) : isSpace b = false := by
  cases hs : isSpace b with
  | false => rfl
  | true =>
    simp only [isSpace, Bool.or_eq_true, decide_eq_true_eq] at hs
    rcases hs with ((rfl | rfl) | rfl) | rfl <;> cases h

/-- Digits end where no more of them can come. -/
theorem takeWhile_isDigit {ds rest : Input} (hds : ∀ b ∈ ds, isDigit b = true)
    (hrest : EndsDigits rest) :
    (ds ++ rest).takeWhile isDigit = ds ∧ (ds ++ rest).dropWhile isDigit = rest := by
  rw [List.takeWhile_append_of_pos hds, List.dropWhile_append_of_pos hds]
  cases rest with
  | nil => simp
  | cons b rest =>
    have hb : isDigit b = false := hrest b rfl
    simp [hb]

theorem IsDigits.read {ds rest : Input} (h : IsDigits ds) (atEnd : Cause)
    (hrest : EndsDigits rest) : readDigits atEnd (ds ++ rest) = .ok (ds, rest) := by
  obtain ⟨htake, hdrop⟩ := takeWhile_isDigit h.isDigit hrest
  obtain ⟨b, ds, rfl⟩ := List.exists_cons_of_ne_nil h.1
  rw [readDigits, htake, hdrop]

theorem IsWhole.read {ds rest : Input} (h : IsWhole ds) (atEnd : Cause)
    (hrest : EndsDigits rest) : readWhole atEnd (ds ++ rest) = .ok (ds, rest) := by
  obtain ⟨b, ds, rfl⟩ := List.exists_cons_of_ne_nil h.1.1
  have hdigits := List.forall_mem_cons.mp h.1.isDigit
  by_cases hzero : b = Byte.zero
  · -- no second digit may follow a zero, and none does
    obtain ⟨rfl, rfl⟩ := List.cons.inj (h.2 (congrArg some hzero))
    have hnext : rest.head?.any isDigit = false := by
      cases rest with
      | nil => rfl
      | cons b rest => exact hrest b rfl
    rw [List.cons_append, List.nil_append, readWhole, if_pos rfl, hnext,
      if_neg Bool.false_ne_true]
  · obtain ⟨htake, hdrop⟩ := takeWhile_isDigit hdigits.2 hrest
    rw [List.cons_append, readWhole, if_neg hzero, if_pos hdigits.1, htake, hdrop]

/-! ### The parts behind the point -/

/-- What comes after the point of a numeral can be no more of its digits. -/
theorem ExponentText.front {e : Option (Bool × List UInt8)} {x rest : Input}
    (h : ExponentText e x) (hrest : EndsNumber rest) :
    ∀ b, (x ++ rest).head? = some b → isDigit b = false ∧ b ≠ Byte.point := by
  have hletter : ∀ e : UInt8, e = 0x65 ∨ e = 0x45 → isDigit e = false ∧ e ≠ Byte.point := by
    rintro e (rfl | rfl) <;> decide
  intro b hb
  cases h with
  | absent => exact ⟨(hrest b hb).1, (hrest b hb).2.1⟩
  | bare he _ => exact Option.some.inj hb ▸ hletter _ he
  | plus he _ => exact Option.some.inj hb ▸ hletter _ he
  | minus he _ => exact Option.some.inj hb ▸ hletter _ he

theorem FractionText.endsDigits {o : Option (List UInt8)} {f rest : Input}
    (h : FractionText o f) (hrest : EndsDigits rest) : EndsDigits (f ++ rest) := by
  cases h with
  | absent => exact hrest
  | digits _ =>
    intro b hb
    cases hb
    decide

theorem FractionText.read {o : Option (List UInt8)} {f rest : Input} (h : FractionText o f)
    (atEnd : Cause) (hrest : ∀ b, rest.head? = some b → isDigit b = false ∧ b ≠ Byte.point) :
    readFraction atEnd (f ++ rest) = .ok (o, rest) := by
  cases h with
  | absent =>
    refine readFraction.eq_2 atEnd rest fun s hs => ?_
    subst hs
    exact (hrest _ rfl).2 rfl
  | @digits ds hds =>
    change (readDigits atEnd (ds ++ rest)).map _ = _
    rw [hds.read atEnd fun b hb => (hrest b hb).1]
    rfl

theorem ExponentText.read {e : Option (Bool × List UInt8)} {x rest : Input}
    (h : ExponentText e x) (atEnd : Cause) (hrest : EndsNumber rest) :
    readExponent atEnd (x ++ rest) = .ok (e, rest) := by
  cases h with
  | absent =>
    cases rest with
    | nil => rfl
    | cons b rest =>
      have hb : ¬(b = 0x65 ∨ b = 0x45) := not_or.mpr (hrest b rfl).2.2
      exact (readExponent.eq_def atEnd (b :: rest)).trans (if_neg hb)
  | @bare e ds he hds =>
    have hread := hds.read atEnd hrest.endsDigits
    -- the first digit is no sign
    obtain ⟨b, ds, rfl⟩ := List.exists_cons_of_ne_nil hds.1
    have hdigit : isDigit b = true := hds.isDigit b List.mem_cons_self
    refine (readExponent.eq_def atEnd (e :: (b :: ds ++ rest))).trans ((if_pos he).trans ?_)
    rw [List.cons_append] at hread ⊢
    split
    · next hsign =>
      rw [(List.cons.inj hsign).1] at hdigit
      cases hdigit
    · next hsign =>
      rw [(List.cons.inj hsign).1] at hdigit
      cases hdigit
    · rw [hread]
      rfl
  | @plus e ds he hds =>
    refine (readExponent.eq_def atEnd (e :: Byte.plus :: (ds ++ rest))).trans
      ((if_pos he).trans ?_)
    change (readDigits atEnd (ds ++ rest)).map _ = _
    rw [hds.read atEnd hrest.endsDigits]
    rfl
  | @minus e ds he hds =>
    refine (readExponent.eq_def atEnd (e :: Byte.minus :: (ds ++ rest))).trans
      ((if_pos he).trans ?_)
    change (readDigits atEnd (ds ++ rest)).map _ = _
    rw [hds.read atEnd hrest.endsDigits]
    rfl

/-! ### Whole numerals -/

/-- A numeral starts with a sign or a digit. -/
theorem Numeral.Spells.front {n : Numeral} {text : Input} (h : n.Spells text) :
    ∃ b s, text = b :: s ∧ (b = Byte.minus ∨ isDigit b = true) := by
  cases h with
  | mk negative hwhole _ _ =>
    cases negative with
    | true => exact ⟨Byte.minus, _, rfl, Or.inl rfl⟩
    | false =>
      obtain ⟨b, ds, rfl⟩ := List.exists_cons_of_ne_nil hwhole.1.1
      exact ⟨b, _, rfl, Or.inr (hwhole.1.isDigit b List.mem_cons_self)⟩

/-- **A numeral is read from each of its texts.** -/
theorem Numeral.Spells.read {n : Numeral} {text rest : Input} (h : n.Spells text) (atEnd : Cause)
    (hrest : EndsNumber rest) : readNumeral atEnd (text ++ rest) = .ok (n, rest) := by
  cases h with
  | @mk negative whole fraction exponent f x hwhole hfraction hexponent =>
    have hafter := hexponent.front hrest
    have hends : EndsDigits (f ++ (x ++ rest)) :=
      hfraction.endsDigits fun b hb => (hafter b hb).1
    -- the sign first; without one there is a digit in front
    have hsign : readNumeral atEnd
        ((if negative then [Byte.minus] else []) ++ (whole ++ (f ++ x)) ++ rest) =
          (readWhole atEnd (whole ++ (f ++ (x ++ rest))) >>= fun w => readFraction atEnd w.2 >>=
            fun f => readExponent atEnd f.2 >>= fun x =>
              pure (⟨negative, w.1, f.1, x.1⟩, x.2)) := by
      cases negative with
      | true => simp [readNumeral]
      | false =>
        obtain ⟨b, ds, rfl⟩ := List.exists_cons_of_ne_nil hwhole.1.1
        have hminus : b ≠ Byte.minus := by
          rintro rfl
          exact absurd (hwhole.1.isDigit _ List.mem_cons_self) (by decide)
        simp [readNumeral, hminus]
    rw [hsign, hwhole.read atEnd hends]
    change (readFraction atEnd (f ++ (x ++ rest)) >>= _) = _
    rw [hfraction.read atEnd hafter]
    change (readExponent atEnd (x ++ rest) >>= _) = _
    rw [hexponent.read atEnd hrest]
    rfl

end Json
end RemoteFiles
