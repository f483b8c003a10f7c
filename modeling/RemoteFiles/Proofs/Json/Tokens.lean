import RemoteFiles.Proofs.Json.Members

/-!
# Counts among other numbers

A field for a natural number below `2 ^ 64` takes the numbers that are spelled by its digits alone,
and no others: a sign, a fraction, an exponent and a number too large are each refused, and with the
field the record.  Digits are taken only as long as the number stays below `2 ^ 64`, so a number
that is taken to its last digit is what all its digits stand for, and no other number becomes a
natural one.

## Main definitions

* `Json.IsCount` — a text is the digits of a number below `2 ^ 64`.
* `Json.Cause.RefusesCount` — what is wrong with a number that is none of those.
* `Json.MembersBut` — members that fill a draft but for one field, whose text may be any.
* `Json.DecidesRecord` — whether there is a record is decided by whether a text is a count.

## Main results

* `Json.Numeral.value_cases` — all that a numeral can stand for.
* `Json.Numeral.Spells.isCount_iff` — which numbers are counts.
* `Json.Numeral.Spells.meets_none` — numbers that are no counts are refused.
* `Json.Schema.Follows.decidesRecord` — **a record with a number for a count is decided by it.**
-/

namespace RemoteFiles
namespace Json

variable {α δ : Type} {P : Cause → Prop}

/-! ### Counts -/

/-- A text is the digits of a number below `2 ^ 64`: a zero alone, or digits that do not start with
zero. -/
structure IsCount (text : Input) (n : UInt64) : Prop where
  whole : IsWhole text
  value_eq : Nat.ofDigitChars 10 (text.map Char.ofUInt8) 0 = n.toNat

/-- What is wrong with a number that is no count: it is negative, or it is not whole or too large
and so a floating-point number, or it is too large for one of those. -/
inductive Cause.RefusesCount : Cause → Prop where
  | negative (m : Nat) : RefusesCount (.wrongValue (.integer (-m)) "u64")
  | real (x : Float) : RefusesCount (.wrongKind (.real x) "u64")
  | outOfRange : RefusesCount .numberOutOfRange

theorem byteOf_ofUInt8 (b : UInt8) : byteOf (Char.ofUInt8 b) = b := UInt8.ofNat_toNat

/-- Bytes taken for characters are the bytes of those. -/
theorem map_byteOf (text : Input) : (text.map Char.ofUInt8).map byteOf = text := by
  rw [List.map_map]
  exact List.map_id'' byteOf_ofUInt8 text

theorem IsDigits.isDigit_chars {ds : List UInt8} (h : IsDigits ds) :
    ∀ c ∈ ds.map Char.ofUInt8, c.isDigit = true := by
  intro c hc
  obtain ⟨b, hb, rfl⟩ := List.mem_map.mp hc
  have hbounds := h.2 b hb
  rw [UInt8.le_iff_toNat_le, UInt8.le_iff_toNat_le] at hbounds
  rw [Char.isDigit, Bool.and_eq_true, decide_eq_true_eq, decide_eq_true_eq]
  exact hbounds

/-- A count is spelled in one way only. -/
theorem IsCount.spells {text : Input} {n : UInt64} (h : IsCount text n) :
    Form.count.Spells n text := by
  have hchars := h.whole.1.isDigit_chars
  have hvalue := h.value_eq
  change text = Utf8.bytes (Decimal.digitsOf n.toNat)
  rw [← map_byteOf text, ← bytes_of_digits hchars, ← hvalue]
  obtain ⟨b, ds, rfl⟩ := List.exists_cons_of_ne_nil h.whole.1.1
  rw [List.map_cons, List.forall_mem_cons] at hchars
  by_cases hzero : b = Byte.zero
  · obtain ⟨-, rfl⟩ := List.cons.inj (h.whole.2 (congrArg some hzero))
    rw [hzero]
    rfl
  · -- the first digit is not zero, and those behind it only make the number greater
    have hpos : 0 < (Char.ofUInt8 b).toNat - '0'.toNat := by
      have hbounds := Utf8.toNat_of_isDigit hchars.1
      have hne : (Char.ofUInt8 b).toNat ≠ 0x30 := fun heq => hzero (UInt8.toNat_inj.mp heq)
      change 0 < (Char.ofUInt8 b).toNat - 0x30
      omega
    rw [List.map_cons, Nat.ofDigitChars_cons, Nat.mul_zero, Nat.zero_add,
      digitsOf_ofDigitChars hpos hchars.2, digitsOf_of_isDigit hchars.1, List.singleton_append]

/-- The digits of a number below `2 ^ 64` are a count. -/
theorem isCount_digitsOf (n : UInt64) : IsCount (Utf8.bytes (Decimal.digitsOf n.toNat)) n := by
  have hdigits : ∀ c ∈ Decimal.digitsOf n.toNat, c.isDigit = true :=
    fun _ => isDigit_of_mem_digitsOf
  have hchars : ((Decimal.digitsOf n.toNat).map byteOf).map Char.ofUInt8 =
      Decimal.digitsOf n.toNat := by
    have hchar : ∀ c ∈ Decimal.digitsOf n.toNat, (Char.ofUInt8 ∘ byteOf) c = c :=
      fun c hc => Char.toNat_inj.mp (toNat_byteOf (hdigits c hc))
    rw [List.map_map, List.map_congr_left hchar, List.map_id']
  rw [bytes_of_digits hdigits]
  refine ⟨isWhole_digitsOf _, ?_⟩
  rw [hchars]
  exact Nat.ofDigitChars_ten_toDigits

/-! ### Other numbers -/

/-- Digits with no digit in front are none. -/
theorem eq_nil_of_endsDigits {s : Input} (h : ∀ b ∈ s, isDigit b = true) (hends : EndsDigits s) :
    s = [] := by
  cases s with
  | nil => rfl
  | cons b s =>
    have hdigit := h b List.mem_cons_self
    rw [hends b rfl] at hdigit
    cases hdigit

namespace Numeral

variable {n : Numeral} {text rest : Input}

/-- What a numeral stands for: its digits, if there is nothing behind them and all are taken, and
otherwise a floating-point number, or none if that is out of range. -/
theorem value_cases (n : Numeral) (rest : Input) :
    (n.fraction = none ∧ n.exponent = none ∧ (takeDigits 0 n.whole).2 = [] ∧
      n.value rest = .ok (exact n.negative (takeDigits 0 n.whole).1)) ∨
    (∃ x, n.value rest = .ok (.real x)) ∨
    ∃ s, n.value rest = .error ⟨.numberOutOfRange, s⟩ := by
  have hinexact : ∀ (negative : Bool) (digits : Nat) (exponent : Int),
      (∃ x, inexact negative digits exponent rest = .ok (.real x)) ∨
      ∃ s, inexact negative digits exponent rest = .error ⟨.numberOutOfRange, s⟩ := by
    intro negative digits exponent
    unfold inexact
    split
    · exact Or.inl ⟨_, rfl⟩
    · exact Or.inr ⟨_, rfl⟩
  unfold value
  simp only
  split
  · next hexact => exact Or.inl ⟨hexact.1, hexact.2.1, hexact.2.2, rfl⟩
  · right
    split
    · exact hinexact _ _ _
    · split
      · exact hinexact _ _ _
      · split
        · exact Or.inr ⟨_, rfl⟩
        · exact Or.inl ⟨_, rfl⟩

/-- Only a count stands for a natural number, and for its own. -/
theorem Spells.isCount (hn : n.Spells text) {k : UInt64} (h : n.value rest = .ok (.natural k)) :
    IsCount text k := by
  rcases n.value_cases rest with
    ⟨hfraction, hexponent, hdropped, hvalue⟩ | ⟨x, hvalue⟩ | ⟨s, hvalue⟩
  · cases hn with
    | @mk negative whole fraction exponent f x hwhole hf hx =>
      obtain rfl : fraction = none := hfraction
      obtain rfl : exponent = none := hexponent
      cases hf
      cases hx
      have htaken := of_takeDigits_eq hwhole.1.isDigit (by decide) (Prod.ext rfl hdropped)
      rw [hvalue] at h
      cases negative with
      | true =>
        -- a negative number is no natural one
        simp only [exact] at h
        split at h
        · next hfalse => cases hfalse
        · split at h <;> cases h
      | false =>
        cases h
        refine ⟨by simpa using hwhole, ?_⟩
        simp [htaken.1, UInt64.toNat_ofNat_of_lt' htaken.2]
  · rw [hvalue] at h
    cases h
  · rw [hvalue] at h
    cases h

/-- A number is a count if it has no sign, no fraction and no exponent and its digits stand for less
than `2 ^ 64`. -/
theorem Spells.isCount_iff (hn : n.Spells text) :
    (∃ k, IsCount text k) ↔ n.negative = false ∧ n.fraction = none ∧ n.exponent = none ∧
      Nat.ofDigitChars 10 (n.whole.map Char.ofUInt8) 0 < 2 ^ 64 := by
  cases hn with
  | @mk negative whole fraction exponent f x hwhole hfraction hexponent =>
    constructor
    · rintro ⟨k, hcount, hvalue⟩
      have hdigits := hcount.1.isDigit
      simp only [List.mem_append] at hdigits
      have hnegative : negative = false := by
        cases negative with
        | false => rfl
        | true => exact absurd (hdigits Byte.minus (Or.inl List.mem_cons_self)) (by decide)
      -- neither of the parts behind the digits starts with one, so they are not there
      obtain rfl : f = [] := by
        refine eq_nil_of_endsDigits (fun b hb => hdigits b (Or.inr (Or.inr (Or.inl hb)))) ?_
        rw [← List.append_nil f]
        exact hfraction.endsDigits endsNumber_nil.endsDigits
      obtain rfl : x = [] := by
        refine eq_nil_of_endsDigits (fun b hb => hdigits b (Or.inr (Or.inr (Or.inr hb)))) ?_
        rw [← List.append_nil x]
        exact fun b hb => (hexponent.front endsNumber_nil b hb).1
      cases hfraction
      cases hexponent
      subst hnegative
      refine ⟨rfl, rfl, rfl, ?_⟩
      rw [List.append_nil, List.append_nil] at hvalue
      exact lt_of_eq_of_lt hvalue k.toNat_lt
    · rintro ⟨rfl, rfl, rfl, hvalue⟩
      cases hfraction
      cases hexponent
      refine ⟨UInt64.ofNat (Nat.ofDigitChars 10 (whole.map Char.ofUInt8) 0),
        by simpa using hwhole, ?_⟩
      simp [UInt64.toNat_ofNat_of_lt' hvalue]

/-- **A number that is no count is refused.** -/
theorem Spells.meets_none (hn : n.Spells text) (h : ∀ k, ¬IsCount text k) :
    Meets Cause.RefusesCount readCount text none := by
  intro gap rest hgap hrest
  have hread : readNumber (text ++ rest) = n.value rest >>= fun x => .ok (x, rest) := by
    rw [readNumber, hn.read _ hrest]
    rfl
  have hspace := hn.startsValue.skipSpace hgap rest
  obtain ⟨b, s, rfl, hfront⟩ := hn.front
  rw [List.cons_append] at hread hspace ⊢
  rw [readCount, hspace]
  simp only [if_pos hfront, hread]
  rcases n.value_cases rest with ⟨-, -, -, hvalue⟩ | ⟨x, hvalue⟩ | ⟨s', hvalue⟩
  · cases hexact : exact n.negative (takeDigits 0 n.whole).1 with
    | natural k =>
      rw [hexact] at hvalue
      exact absurd (hn.isCount hvalue) (h k)
    | negative m =>
      rw [hvalue, hexact]
      exact ⟨_, _, .negative m, rfl⟩
    | real x =>
      rw [hvalue, hexact]
      exact ⟨_, _, .real x, rfl⟩
  · rw [hvalue]
    exact ⟨_, _, .real x, rfl⟩
  · rw [hvalue]
    exact ⟨_, _, .outOfRange, rfl⟩

end Numeral

/-! ### Records with one -/

/-- Members that fill a draft but for the field of a given name, which is given once by a given
text. -/
structure MembersBut (slots : List (Slot δ)) (name : String) (text : Input)
    (ms : List (String × Input)) (d : δ) : Prop where
  given : ∀ s ∈ slots, s.name ≠ name → s.Gives ms (s.get d)
  once : named name ms = [(name, text)]
  others : ∀ m ∈ ms, m.1 ∉ slots.map Slot.name → IsValue m.2

/-- Whether there is a record is decided by whether a text is a count: if so, it is the record for
that number, and otherwise the text is what is wrong. -/
structure DecidesRecord (text : Input) (x : Except Error α) (record : UInt64 → α) : Prop where
  ok_iff (a : α) : x = .ok a ↔ ∃ n, IsCount text n ∧ a = record n
  refused (h : ∀ n, ¬IsCount text n) : ∃ e, x = .error e ∧ e.cause.RefusesCount

namespace Schema.Follows

variable {k : Schema δ α} {slots : List (Slot δ)} {s : Slot δ} {f : Field δ} {text : Input}

/-- Members with a text that is refused are read up to it. -/
theorem takesAll_of_refused (h : k.Follows slots) (hs : s ∈ slots)
    (hfield : k.field? s.name = some f) (hrefused : ∀ d, Meets P (f.read d) text none)
    {ms : List (String × Input)} : ∀ {d : δ}, s.get d = none →
      (∀ t ∈ slots, t.name ≠ s.name → ∃ o, t.Leads ms (t.get d) o) →
      named s.name ms = [(s.name, text)] →
      (∀ m ∈ ms, m.1 ∉ slots.map Slot.name → IsValue m.2) → TakesAll P k d ms none := by
  induction ms with
  | nil =>
    intro d _ _ honce _
    cases honce
  | cons m ms ih =>
    intro d hnone hleads honce hothers
    rw [List.forall_mem_cons] at hothers
    by_cases hself : m.1 = s.name
    · -- the member is the one with the text
      rw [named_cons_self hself] at honce
      obtain ⟨rfl, -⟩ := List.cons.inj honce
      obtain ⟨f', hfield', hserves⟩ := h.serves s hs
      obtain rfl : f' = f := Option.some.inj (hfield'.symm.trans hfield)
      refine .stop ms (.within hfield ?_ (hrefused d))
      rw [hserves.given, hnone]
      rfl
    · rw [named_cons_of_ne hself] at honce
      by_cases hname : m.1 ∈ slots.map Slot.name
      · obtain ⟨t, ht, htname⟩ := List.mem_map.mp hname
        obtain ⟨o, htleads⟩ := hleads t ht (htname ▸ hself)
        obtain ⟨htnone, hmore, x, -, hx⟩ := htleads.first htname.symm
        obtain ⟨d₁, htakes, -, hkept⟩ := h.takes_of_spells ht htnone hx
        rw [htname] at htakes
        have hsame : s.get d₁ = none := by
          rw [hkept s hs fun heq => hself (htname.symm.trans heq.symm), hnone]
        refine .step htakes (ih hsame (fun u hu hune => ?_) honce hothers.2)
        by_cases hut : u.name = t.name
        · obtain rfl := h.eq_of_name hu ht hut
          exact ⟨_, .leave _ hmore⟩
        · rw [hkept u hu hut]
          obtain ⟨o, huleads⟩ := hleads u hu hune
          exact ⟨o, huleads.skip (htname ▸ Ne.symm hut)⟩
      · refine .step (.unknown (h.field?_eq_none hname) (hothers.1 hname))
          (ih hnone (fun u hu hune => ?_) honce hothers.2)
        obtain ⟨o, huleads⟩ := hleads u hu hune
        exact ⟨o, huleads.skip fun heq => hname (heq ▸ List.mem_map_of_mem hu)⟩

/-- A document with a text that is refused is refused for it. -/
theorem decode_of_refused (h : k.Follows slots) (hs : s ∈ slots)
    (hfield : k.field? s.name = some f) (hrefused : ∀ d, Meets P (f.read d) text none)
    {ms : List (String × Input)} {input : Input} {d : δ} (hdoc : IsDocument ms input)
    (hbut : MembersBut slots s.name text ms d) :
    ∃ e, decode k.read input = .error e ∧ P e.cause := by
  obtain ⟨gap, record, gap', hgap, hgap', hrecord, rfl⟩ := hdoc
  have hall : TakesAll P k k.blank ms none := by
    refine h.takesAll_of_refused hs hfield hrefused (h.blank s hs) (fun t ht hne => ?_) hbut.once
      hbut.others
    rw [h.blank t ht]
    exact ⟨_, (hbut.given t ht hne).leads⟩
  obtain ⟨cause, rest, hcause, hread⟩ :=
    Schema.meets_none hrecord hall gap gap' hgap hgap'.endsNumber_all
  unfold decode readOnly
  rw [hread]
  exact ⟨_, rfl, hcause⟩

/-- Members that fill a draft but for one field fill it with a value of that field. -/
theorem members_of_spells (h : k.Follows slots) (hs : s ∈ slots) {ms : List (String × Input)}
    {d d₁ : δ} (hbut : MembersBut slots s.name text ms d) {x : s.Kind}
    (hx : s.form.Spells x text) (hget : s.get d₁ = some x)
    (hkept : ∀ t ∈ slots, t.name ≠ s.name → t.get d₁ = t.get d) : Members slots ms d₁ := by
  refine ⟨fun t ht => ?_, hbut.others⟩
  by_cases hne : t.name = s.name
  · obtain rfl := h.eq_of_name ht hs hne
    rw [hget]
    exact .once hbut.once hx
  · rw [hkept t ht hne]
    exact hbut.given t ht hne

/-- **A record with a number for a count is decided by it.** -/
theorem decidesRecord (h : k.Follows slots) {value : δ → Option α}
    (hread : (Form.record slots value).ReadBy k.read) {name : String} {get : δ → Option UInt64}
    {set : δ → UInt64 → δ} (hs : ⟨UInt64, name, get, .count⟩ ∈ slots)
    (hfield : k.field? name = some (.of name get set readCount))
    (hset : ∀ d x, get (set d x) = some x)
    (hkept : ∀ t ∈ slots, t.name ≠ name → ∀ d x, t.get (set d x) = t.get d)
    {n : Numeral} (hn : n.Spells text) {ms : List (String × Input)} {input : Input} {d : δ}
    (hdoc : IsDocument ms input) (hbut : MembersBut slots name text ms d) {record : UInt64 → α}
    (hvalue : ∀ x, value (set d x) = some (record x)) :
    DecidesRecord text (decode k.read input) record := by
  have hok : ∀ x, IsCount text x → decode k.read input = .ok (record x) := by
    intro x hx
    refine hread.decodedBy.ok hdoc (h.members_of_spells hs hbut hx.spells (hset d x) ?_) (hvalue x)
    exact fun t ht hne => hkept t ht hne d x
  have hrefused : (∀ x, ¬IsCount text x) →
      ∃ e, decode k.read input = .error e ∧ e.cause.RefusesCount := by
    intro hnone
    refine h.decode_of_refused hs hfield (fun d gap rest hgap hrest => ?_) hdoc hbut
    exact (hn.meets_none hnone gap rest hgap hrest).map (set d)
  refine ⟨fun a => ⟨fun ha => ?_, ?_⟩, hrefused⟩
  · by_cases hcount : ∃ x, IsCount text x
    · obtain ⟨x, hx⟩ := hcount
      exact ⟨x, hx, Except.ok.inj (ha.symm.trans (hok x hx))⟩
    · obtain ⟨e, he, -⟩ := hrefused (not_exists.mp hcount)
      rw [ha] at he
      cases he
  · rintro ⟨x, hx, rfl⟩
    exact hok x hx

end Schema.Follows

end Json
end RemoteFiles
