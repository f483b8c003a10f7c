import Mathlib.Data.List.Induction
import RemoteFiles.Proofs.Json.Numerals
import RemoteFiles.Proofs.Json.Scaling
import RemoteFiles.Proofs.Text.Digits

/-!
# Numbers as floating-point numbers

The floating-point number that a numeral stands for.  As many of its digits are kept as stand for less
than `2 ^ 64`; those and the power of ten that is left are rounded.  An exponent from `2 ^ 31` on is
not counted at all: the number is zero if it can be, and otherwise there is none.

## Main definitions

* `Json.numberOf` — the number that digits stand for.
* `Json.Takes`, `Json.Numeral.Keeps` — the digits that are kept.
* `Json.Numeral.RoundsTo` — the pattern that a numeral is rounded to.
* `Json.Numeral.IsReal` — the floating-point number that a numeral stands for.

## Main results

* `Json.Numeral.IsReal.unique` — a numeral stands for one number at most.
* `Json.Numeral.value_spec`, `Json.Numeral.IsReal.value_eq`, `Json.Numeral.value_error` — **this is
  the number that is read**, and a numeral that stands for none is out of range.
-/

namespace RemoteFiles
namespace Json

open Binary64

variable {given ds kept dropped : List UInt8} {b c : ℕ} {x y : Float}

/-! ### Digits -/

/-- The number that digits stand for. -/
def numberOf (ds : List UInt8) : ℕ := Nat.ofDigitChars 10 (ds.map Char.ofUInt8) 0

theorem ofDigitChars_map_cons (d : UInt8) (ds : List UInt8) (n : ℕ) :
    Nat.ofDigitChars 10 ((d :: ds).map Char.ofUInt8) n =
      Nat.ofDigitChars 10 (ds.map Char.ofUInt8) (n * 10 + digitValue d) := by
  rw [List.map_cons, Nat.ofDigitChars_cons, Nat.mul_comm]
  rfl

theorem numberOf_append (ds es : List UInt8) :
    numberOf (ds ++ es) = Nat.ofDigitChars 10 (es.map Char.ofUInt8) (numberOf ds) := by
  rw [numberOf, List.map_append, Nat.ofDigitChars_append]
  rfl

theorem numberOf_concat (ds : List UInt8) (d : UInt8) :
    numberOf (ds ++ [d]) = numberOf ds * 10 + digitValue d := by
  rw [numberOf_append, ofDigitChars_map_cons]
  rfl

/-- More digits stand for more. -/
theorem numberOf_le_append (ds es : List UInt8) : numberOf ds ≤ numberOf (ds ++ es) := by
  rw [numberOf_append]
  exact Text.le_ofDigitChars _ _

/-- Digits stand for zero if each of them does. -/
theorem numberOf_eq_zero : numberOf ds = 0 ↔ ∀ d ∈ ds, digitValue d = 0 := by
  induction ds using List.reverseRecOn with
  | nil => simp [numberOf]
  | append_singleton ds d ih =>
    rw [numberOf_concat, List.forall_mem_append, List.forall_mem_singleton, ← ih]
    omega

/-! ### Digits that are kept -/

/-- The longest front of some digits that stands for less than `2 ^ 64` behind those given before. -/
structure Takes (given ds kept dropped : List UInt8) : Prop where
  eq_append : ds = kept ++ dropped
  lt : numberOf (given ++ kept) < 2 ^ 64
  ge (d : UInt8) (h : dropped.head? = some d) : 2 ^ 64 ≤ numberOf (given ++ kept ++ [d])

theorem takeDigits_cons (n : ℕ) (d : UInt8) (ds : List UInt8) : takeDigits n (d :: ds) =
    if n * 10 + digitValue d < 2 ^ 64 then takeDigits (n * 10 + digitValue d) ds
    else (n, d :: ds) := rfl

/-- They are taken one after another. -/
theorem Takes.takeDigits_eq (h : Takes given ds kept dropped) :
    takeDigits (numberOf given) ds = (numberOf (given ++ kept), dropped) := by
  obtain ⟨rfl, hlt, hge⟩ := h
  induction kept generalizing given with
  | nil =>
    rw [List.append_nil] at hge ⊢
    cases dropped with
    | nil => rfl
    | cons d dropped =>
      have hbeyond := hge d rfl
      rw [numberOf_concat] at hbeyond
      rw [List.nil_append, takeDigits_cons, if_neg (Nat.not_lt.mpr hbeyond)]
  | cons k kept ih =>
    rw [List.append_cons] at hlt hge ⊢
    have hnext := (numberOf_le_append (given ++ [k]) kept).trans_lt hlt
    rw [numberOf_concat] at hnext
    rw [List.cons_append, takeDigits_cons, if_pos hnext, ← numberOf_concat]
    exact ih hlt hge

/-- There is such a front. -/
theorem exists_takes (hgiven : numberOf given < 2 ^ 64) (ds : List UInt8) :
    ∃ kept dropped, Takes given ds kept dropped := by
  induction ds generalizing given with
  | nil => exact ⟨[], [], rfl, by rwa [List.append_nil], fun _ h => by cases h⟩
  | cons d ds ih =>
    by_cases hnext : numberOf (given ++ [d]) < 2 ^ 64
    · obtain ⟨kept, dropped, rfl, hlt, hge⟩ := ih hnext
      rw [← List.append_cons] at hlt hge
      exact ⟨d :: kept, dropped, rfl, hlt, hge⟩
    · refine ⟨[], d :: ds, rfl, by rwa [List.append_nil], fun d' h => ?_⟩
      cases h
      rw [List.append_nil]
      exact Nat.not_lt.mp hnext

theorem Takes.unique {kept' dropped' : List UInt8} (h : Takes given ds kept dropped)
    (h' : Takes given ds kept' dropped') : kept = kept' ∧ dropped = dropped' := by
  have htaken := h.takeDigits_eq.symm.trans h'.takeDigits_eq
  obtain rfl := congrArg Prod.snd htaken
  exact ⟨List.append_cancel_right (h.eq_append.symm.trans h'.eq_append), rfl⟩

/-- None are dropped where nothing but zeros was kept. -/
theorem Takes.dropped_eq_nil (h : Takes given ds kept dropped) (hzero : numberOf (given ++ kept) = 0) :
    dropped = [] := by
  cases dropped with
  | nil => rfl
  | cons d dropped =>
    have hbeyond := h.ge d rfl
    have hbyte := d.toNat_lt
    rw [numberOf_concat, hzero, digitValue] at hbeyond
    omega

/-! ### Exponents -/

theorem takeExponent_cons (n : ℕ) (d : UInt8) (ds : List UInt8) : takeExponent n (d :: ds) =
    if n * 10 + digitValue d < 2 ^ 31 then takeExponent (n * 10 + digitValue d) ds
    else .error ds := rfl

/-- The digits of an exponent count unless they stand for `2 ^ 31` or more. -/
theorem takeExponent_spec {n : ℕ} (hn : n < 2 ^ 31) (ds : List UInt8) :
    (Nat.ofDigitChars 10 (ds.map Char.ofUInt8) n < 2 ^ 31 ∧
      takeExponent n ds = .ok (Nat.ofDigitChars 10 (ds.map Char.ofUInt8) n)) ∨
    (2 ^ 31 ≤ Nat.ofDigitChars 10 (ds.map Char.ofUInt8) n ∧
      ∃ after, takeExponent n ds = .error after) := by
  induction ds generalizing n with
  | nil => exact .inl ⟨hn, rfl⟩
  | cons d ds ih =>
    rw [ofDigitChars_map_cons, takeExponent_cons]
    by_cases hnext : n * 10 + digitValue d < 2 ^ 31
    · rw [if_pos hnext]
      exact ih hnext
    · rw [if_neg hnext]
      exact .inr ⟨(Nat.not_lt.mp hnext).trans (Text.le_ofDigitChars _ _), ds, rfl⟩

/-! ### What a numeral stands for -/

namespace Numeral

variable {n : Numeral} {shift : ℤ}

/-- The digits behind the point. -/
def places (n : Numeral) : List UInt8 := n.fraction.getD []

/-- The exponent, with its sign. -/
def power (n : Numeral) : ℤ :=
  match n.exponent with
  | none => 0
  | some (down, ds) => if down then -(numberOf ds) else numberOf ds

/-- The digits of a numeral that are kept, with the power of ten that is left when the point is put
behind them: a front of those before the point, and behind it a front of the others. -/
def Keeps (n : Numeral) (kept : List UInt8) (shift : ℤ) : Prop :=
  ∃ whole dropped places cut, Takes [] n.whole whole dropped ∧ Takes whole n.places places cut ∧
    kept = whole ++ places ∧ shift = dropped.length - places.length

/-- The pattern that a numeral is rounded to, without its sign. -/
inductive RoundsTo (n : Numeral) : ℕ → Prop where
  | scaled {kept : List UInt8} {shift : ℤ} {b : ℕ} (hkept : n.Keeps kept shift)
      (hpower : |n.power| < 2 ^ 31) (h : IsScaled (numberOf kept) (shift + n.power) b) :
      RoundsTo n b
  | vanishing (hpower : 2 ^ 31 ≤ |n.power|)
      (hzero : n.power < 0 ∨ numberOf (n.whole ++ n.places) = 0) : RoundsTo n 0

/-- The floating-point number that a numeral stands for, if what it is rounded to is below
infinity. -/
def IsReal (n : Numeral) (x : Float) : Prop :=
  ∃ b, n.RoundsTo b ∧ b < infinite ∧ pattern x = b + if n.negative then 2 ^ 63 else 0

theorem Keeps.unique {kept' : List UInt8} {shift' : ℤ} (h : n.Keeps kept shift)
    (h' : n.Keeps kept' shift') : kept = kept' ∧ shift = shift' := by
  obtain ⟨whole, dropped, places, cut, hwhole, hplaces, rfl, rfl⟩ := h
  obtain ⟨whole', dropped', places', cut', hwhole', hplaces', rfl, rfl⟩ := h'
  obtain ⟨rfl, rfl⟩ := hwhole.unique hwhole'
  obtain ⟨rfl, rfl⟩ := hplaces.unique hplaces'
  exact ⟨rfl, rfl⟩

theorem RoundsTo.unique (hb : n.RoundsTo b) (hc : n.RoundsTo c) : b = c := by
  cases hb with
  | scaled hkept hpower h =>
    cases hc with
    | scaled hkept' _ h' =>
      obtain ⟨rfl, rfl⟩ := hkept.unique hkept'
      exact h.unique h'
    | vanishing hpower' => exact absurd hpower (not_lt.mpr hpower')
  | vanishing hpower =>
    cases hc with
    | scaled _ hpower' => exact absurd hpower' (not_lt.mpr hpower)
    | vanishing => rfl

/-- A numeral stands for one number at most. -/
theorem IsReal.unique (hx : n.IsReal x) (hy : n.IsReal y) : x = y := by
  obtain ⟨b, hb, -, hx⟩ := hx
  obtain ⟨c, hc, -, hy⟩ := hy
  rw [hb.unique hc] at hx
  exact pattern_injective (hx.trans hy.symm)

end Numeral

/-! ### What is read -/

/-- A number as a floating-point number. -/
def Number.toReal : Number → Float
  | natural n => n.toFloat
  | negative m => -(UInt64.ofNat m).toFloat
  | real x => x

theorem toReal_exact (negative : Bool) (digits : ℕ) :
    (exact negative digits).toReal = signed negative (UInt64.ofNat digits).toFloat := by
  cases negative with
  | false => rfl
  | true =>
    simp only [exact, Bool.not_true, Bool.false_eq_true, if_false]
    split <;> rfl

theorem pattern_signed (hx : pattern x < infinite) (negative : Bool) :
    pattern (signed negative x) = pattern x + if negative then 2 ^ 63 else 0 := by
  cases negative with
  | false => rfl
  | true => exact pattern_neg hx

/-- Digits alone are rounded, and that is all. -/
theorem isScaled_zero {digits : ℕ} (hb : IsNearest digits b) : IsScaled digits 0 b := by
  refine ⟨b, hb, ?_⟩
  rw [if_neg (lt_irrefl 0)]
  have hone : IsNearest (10 ^ (0 : ℤ).toNat) one := by
    rw [Int.toNat_zero, pow_zero, ← value_one]
    exact isNearest_value (by decide)
  refine ⟨_, hone, ?_⟩
  rw [value_one, mul_one]
  exact isNearest_value hb.le_infinite

theorem inexact_spec {digits : ℕ} (hdigits : digits < 2 ^ 64) (negative : Bool) (power : ℤ)
    (rest : Input) :
    (∃ x, inexact negative digits power rest = .ok (.real (signed negative x)) ∧
      IsScaled digits power (pattern x) ∧ pattern x < infinite) ∨
    (inexact negative digits power rest = .error ⟨.numberOutOfRange, rest⟩ ∧
      IsScaled digits power infinite) := by
  obtain ⟨b, hb, ⟨x, hx, rfl, hlt⟩ | ⟨hnone, rfl⟩⟩ := scaled?_spec hdigits power
  · exact .inl ⟨x, by rw [inexact, hx], hb, hlt⟩
  · exact .inr ⟨by rw [inexact, hnone], hb⟩

namespace Numeral

variable {n : Numeral} {shift : ℤ}

theorem Keeps.lt (h : n.Keeps kept shift) : numberOf kept < 2 ^ 64 := by
  obtain ⟨whole, dropped, places, cut, -, hplaces, rfl, -⟩ := h
  exact hplaces.lt

/-- Nothing but zeros is kept of zeros only. -/
theorem Keeps.numberOf_eq_zero (h : n.Keeps kept shift) :
    numberOf kept = 0 ↔ numberOf (n.whole ++ n.places) = 0 := by
  obtain ⟨whole, dropped, places, cut, hwhole, hplaces, rfl, -⟩ := h
  constructor
  · intro hzero
    obtain rfl := hplaces.dropped_eq_nil hzero
    have hfront := Nat.le_zero.mp ((numberOf_le_append whole places).trans_eq hzero)
    obtain rfl := hwhole.dropped_eq_nil hfront
    rwa [hwhole.eq_append, hplaces.eq_append, List.append_nil, List.append_nil]
  · intro hzero
    rw [hwhole.eq_append, hplaces.eq_append] at hzero
    simp only [Json.numberOf_eq_zero, List.forall_mem_append] at hzero ⊢
    exact ⟨hzero.1.1, hzero.2.1⟩

/-- The digits that are kept of a numeral, one after another. -/
theorem exists_keeps (n : Numeral) : ∃ whole dropped places cut,
    n.Keeps (whole ++ places) (dropped.length - places.length) ∧
      n.places.length = places.length + cut.length ∧
      takeDigits 0 n.whole = (numberOf whole, dropped) ∧
      takeDigits (numberOf whole) n.places = (numberOf (whole ++ places), cut) := by
  have hstart : numberOf [] < 2 ^ 64 := by decide
  obtain ⟨whole, dropped, hwhole⟩ := exists_takes hstart n.whole
  obtain ⟨places, cut, hplaces⟩ := exists_takes hwhole.lt n.places
  refine ⟨whole, dropped, places, cut, ⟨whole, dropped, places, cut, hwhole, hplaces, rfl, rfl⟩, ?_,
    hwhole.takeDigits_eq, hplaces.takeDigits_eq⟩
  rw [hplaces.eq_append, List.length_append]

/-- What is read is the number that a numeral stands for, or the numeral is rounded to nothing below
infinity and is out of range. -/
def ReadsAs (n : Numeral) (result : Except Fault Number) : Prop :=
  (∃ number, result = .ok number ∧ n.IsReal number.toReal) ∨
    (∃ s, result = .error ⟨.numberOutOfRange, s⟩) ∧ ∀ b < infinite, ¬n.RoundsTo b

/-- The digits that are kept are scaled by an exponent that counts. -/
theorem Keeps.readsAs (h : n.Keeps kept shift) (hpower : |n.power| < 2 ^ 31) (rest : Input) :
    n.ReadsAs (inexact n.negative (numberOf kept) (shift + n.power) rest) := by
  rcases inexact_spec h.lt n.negative (shift + n.power) rest with ⟨x, hx, hb, hlt⟩ | ⟨hx, hb⟩
  · exact .inl ⟨_, hx, _, .scaled h hpower hb, hlt, pattern_signed hlt _⟩
  · refine .inr ⟨⟨_, hx⟩, fun b hlt hb' => hlt.ne ?_⟩
    exact hb'.unique (.scaled h hpower hb)

/-- Digits without a fraction and an exponent are taken as they are, if all of them are kept. -/
theorem readsAs_exact (hkeeps : n.Keeps kept 0) (hpower : n.power = 0) :
    n.ReadsAs (.ok (exact n.negative (numberOf kept))) := by
  have hb := nearest_digits hkeeps.lt
  have hlt := (value_le_of_isNearest hkeeps.lt hb).1
  refine .inl ⟨_, rfl, _, .scaled hkeeps (by rw [hpower]; decide) ?_, hlt, ?_⟩
  · rw [hpower]
    exact isScaled_zero hb
  · rw [toReal_exact]
    exact pattern_signed hlt _

/-- An exponent that does not count leaves zero where it is below zero, and of zero. -/
theorem Keeps.readsAs_zero (h : n.Keeps kept shift) (hpower : 2 ^ 31 ≤ |n.power|)
    (hzero : n.power < 0 ∨ numberOf kept = 0) :
    n.ReadsAs (.ok (.real (signed n.negative 0.0))) := by
  have hpattern : pattern 0.0 = 0 := by decide +kernel
  have hlt : pattern 0.0 < infinite := by rw [hpattern]; decide
  rw [h.numberOf_eq_zero] at hzero
  refine .inl ⟨_, rfl, 0, .vanishing hpower hzero, by decide, ?_⟩
  rw [Number.toReal, pattern_signed hlt, hpattern]

/-- Otherwise it leaves nothing. -/
theorem Keeps.readsAs_error (h : n.Keeps kept shift) (hpower : 2 ^ 31 ≤ |n.power|)
    (hup : ¬n.power < 0) (hne : numberOf kept ≠ 0) (s : Input) :
    n.ReadsAs (.error ⟨.numberOutOfRange, s⟩) := by
  refine .inr ⟨⟨s, rfl⟩, fun b _ hb => ?_⟩
  cases hb with
  | scaled _ hpower' => exact absurd hpower' (not_lt.mpr hpower)
  | vanishing _ hzero => exact hzero.elim hup fun h' => hne (h.numberOf_eq_zero.mpr h')

/-- **This is the number that is read.** -/
theorem value_spec (n : Numeral) (rest : Input) : n.ReadsAs (n.value rest) := by
  obtain ⟨whole, dropped, places, cut, hkeeps, hlength, hwhole, hplaces⟩ := n.exists_keeps
  have hcount : n.places.length - cut.length = places.length := by omega
  simp only [value, hwhole]
  split
  · next hexact =>
    obtain ⟨hfraction, hexponent, rfl⟩ := hexact
    have hnone : n.places = [] := by rw [Numeral.places, hfraction]; rfl
    obtain rfl : places = [] := List.eq_nil_of_length_eq_zero (by
      rw [hnone, List.length_nil] at hlength
      omega)
    rw [List.append_nil] at hkeeps
    exact readsAs_exact hkeeps (by rw [power, hexponent])
  · rw [Numeral.places] at hplaces hcount
    simp only [hplaces, hcount]
    cases hexponent : n.exponent with
    | none =>
      have hpower : n.power = 0 := by rw [power, hexponent]
      have hreads := hkeeps.readsAs (by rw [hpower]; decide) rest
      rwa [hpower, add_zero] at hreads
    | some e =>
      obtain ⟨down, ds⟩ := e
      have hpower : n.power = if down then -(numberOf ds : ℤ) else numberOf ds := by
        rw [power, hexponent]
      have habs : |n.power| = numberOf ds := by
        rw [hpower]
        cases down <;> simp
      rcases takeExponent_spec (n := 0) (by decide) ds with ⟨hlt, hexp⟩ | ⟨hge, after, hexp⟩
      · change numberOf ds < 2 ^ 31 at hlt
        have hreads := hkeeps.readsAs (by rw [habs]; exact_mod_cast hlt) rest
        rw [hpower] at hreads
        simp only [hexp]
        cases down <;> exact hreads
      · change 2 ^ 31 ≤ numberOf ds at hge
        have hlarge : 2 ^ 31 ≤ |n.power| := by rw [habs]; exact_mod_cast hge
        have hsign : n.power < 0 ↔ down = true := by
          rw [hpower]
          cases down with
          | false => simp
          | true => simp; omega
        simp only [hexp]
        split
        · next hbeyond =>
          exact hkeeps.readsAs_error hlarge (by rw [hsign]; simpa using hbeyond.2) hbeyond.1 _
        · next hzero =>
          refine hkeeps.readsAs_zero hlarge ?_
          rw [hsign]
          by_contra hneither
          rw [not_or] at hneither
          exact hzero ⟨hneither.2, by simpa using hneither.1⟩

/-- A numeral that stands for a number is read as that. -/
theorem IsReal.value_eq (h : n.IsReal x) (rest : Input) :
    ∃ number, n.value rest = .ok number ∧ number.toReal = x := by
  rcases n.value_spec rest with ⟨number, hvalue, hreal⟩ | ⟨-, hnone⟩
  · exact ⟨number, hvalue, hreal.unique h⟩
  · obtain ⟨b, hb, hlt, -⟩ := h
    exact absurd hb (hnone b hlt)

/-- A numeral that stands for none is out of range. -/
theorem value_error (h : ∀ x, ¬n.IsReal x) (rest : Input) :
    ∃ s, n.value rest = .error ⟨.numberOutOfRange, s⟩ := by
  rcases n.value_spec rest with ⟨number, -, hreal⟩ | ⟨herror, -⟩
  · exact absurd hreal (h _)
  · exact herror

/-- A numeral that is rounded to something below infinity stands for a number. -/
theorem RoundsTo.exists_isReal (h : n.RoundsTo b) (hlt : b < infinite) : ∃ x, n.IsReal x := by
  rcases n.value_spec [] with ⟨number, -, hreal⟩ | ⟨-, hnone⟩
  · exact ⟨_, hreal⟩
  · exact absurd h (hnone b hlt)

end Numeral

end Json
end RemoteFiles
