import RemoteFiles.Proofs.Json.Layout
import RemoteFiles.Proofs.Json.Reals

/-!
# Forms of values

Which texts stand for the values of a type, and which would if no record in them gave a field twice.
A reader reads a form if it takes every value from each of its texts and refuses the texts of the
second kind.  It reads lists so if it reads their items so.

## Main definitions

* `Json.Meets` — a reader takes a value from a text, or comes across a fault of a given kind.
* `Json.Cause.IsRepeat` — a field is given twice.
* `Json.Form` — the texts of the values of a type.
* `Json.Form.ReadBy` — a reader reads a form.
* `Json.Form.text`, `Json.Form.flag`, `Json.Form.count`, `Json.Form.realOrNull`, `Json.Form.list` —
  the forms that fields have.

## Main results

* `Json.readBy_text`, `Json.readBy_flag`, `Json.readBy_count`, `Json.readBy_realOrNull` — scalars
  are read.
* `Json.Form.ReadBy.list` — **lists are read if their items are.**
-/

namespace RemoteFiles
namespace Json

variable {α β : Type} {P : Cause → Prop}

/-! ### What a reader comes to -/

/-- A field is given twice. -/
def Cause.IsRepeat (c : Cause) : Prop := ∃ name, c = .duplicateField name

/-- What a reader comes to: a value and the rest of the input, or a fault of a given kind. -/
def Yields (P : Cause → Prop) (x : Except Fault (α × Input)) (rest : Input) : Option α → Prop
  | some a => x = .ok (a, rest)
  | none => ∃ cause s, P cause ∧ x = .error ⟨cause, s⟩

/-- A reader takes a value from a text, or comes across a fault of a given kind, whatever white
space is in front of the text and whatever comes after it; a number has to end there. -/
def Meets (P : Cause → Prop) (read : Reader α) (text : Input) (o : Option α) : Prop :=
  ∀ gap rest, IsGap gap → EndsNumber rest → Yields P (read (gap ++ (text ++ rest))) rest o

theorem Yields.bind_none {x : Except Fault (α × Input)} {rest rest' : Input}
    (h : Yields P x rest none) (f : α × Input → Except Fault (β × Input)) :
    Yields P (x >>= f) rest' none := by
  obtain ⟨cause, s, hcause, rfl⟩ := h
  exact ⟨cause, s, hcause, rfl⟩

theorem Yields.bind_some {x : Except Fault (α × Input)} {rest : Input} {a : α}
    (h : Yields P x rest (some a)) (f : α × Input → Except Fault (β × Input)) :
    (x >>= f) = f (a, rest) := by
  rw [show x = .ok (a, rest) from h]
  rfl

theorem Yields.map {x : Except Fault (α × Input)} {rest : Input} {o : Option α}
    (h : Yields P x rest o) (f : α → β) :
    Yields P (x.map fun p => (f p.1, p.2)) rest (o.map f) := by
  cases o with
  | none =>
    obtain ⟨cause, s, hcause, rfl⟩ := h
    exact ⟨cause, s, hcause, rfl⟩
  | some a =>
    rw [show x = .ok (a, rest) from h]
    rfl

/-! ### Forms -/

/-- The texts of the values of a type. -/
structure Form (α : Type) where
  /-- A text stands for a value. -/
  Spells : α → Input → Prop
  /-- A text that would stand for a value, if no record in it gave a field twice. -/
  Repeats : Input → Prop

/-- A reader takes every value from each of its texts, and refuses texts with a field that is given
twice. -/
structure Form.ReadBy (F : Form α) (read : Reader α) : Prop where
  spells {a : α} {text : Input} (h : F.Spells a text) :
    StartsValue text ∧ Meets Cause.IsRepeat read text (some a)
  repeats {text : Input} (h : F.Repeats text) :
    StartsValue text ∧ Meets Cause.IsRepeat read text none

/-- A form of values without records in them. -/
def Form.plain (Spells : α → Input → Prop) : Form α := ⟨Spells, fun _ => False⟩

namespace Form

/-- Strings, however they are spelled. -/
def text : Form String := plain SpellsText

/-- Truth values. -/
def flag : Form Bool := plain fun b text =>
  text = Utf8.bytes (if b then ['t', 'r', 'u', 'e'] else ['f', 'a', 'l', 's', 'e'])

/-- Natural numbers below `2 ^ 64`, by their digits. -/
def count : Form UInt64 := plain fun n text => text = Utf8.bytes (Decimal.digitsOf n.toNat)

/-- Floating-point numbers, by the numerals that stand for them, or `null`. -/
def realOrNull : Form (Option Float) := plain fun
  | none, text => text = Utf8.bytes ['n', 'u', 'l', 'l']
  | some x, text => ∃ n, Numeral.Spells n text ∧ n.IsReal x

/-- Lists of values of a form. -/
def list (F : Form α) : Form (List α) where
  Spells as text := ∃ items, List.Forall₂ F.Spells as items ∧
    Enclosed Byte.listOpen Byte.listClose items text
  Repeats text := ∃ items, (∀ t ∈ items, (∃ a, F.Spells a t) ∨ F.Repeats t) ∧
    (∃ t ∈ items, F.Repeats t) ∧ Enclosed Byte.listOpen Byte.listClose items text

/-- A form without records is read if its values are. -/
theorem readBy_plain {Spells : α → Input → Prop} {read : Reader α}
    (h : ∀ {a text}, Spells a text →
      StartsValue text ∧ Meets Cause.IsRepeat read text (some a)) :
    (plain Spells).ReadBy read :=
  ⟨h, fun h => h.elim⟩

end Form

/-! ### Scalars -/

theorem readBy_text : Form.text.ReadBy readText := by
  refine Form.readBy_plain fun {s text} h => ?_
  obtain ⟨tail, htail, rfl⟩ := h
  refine ⟨⟨Byte.quote, tail, rfl, by decide, by decide⟩, fun gap rest hgap _ => ?_⟩
  rw [List.cons_append, readText, hgap.skipSpace _ (by decide)]
  exact htail.readString rest

theorem readBy_flag : Form.flag.ReadBy readFlag := by
  refine Form.readBy_plain fun {b text} h => ?_
  subst h
  cases b with
  | true =>
    refine ⟨⟨Byte.letterT, _, rfl, by decide, by decide⟩, fun gap rest hgap _ => ?_⟩
    change readFlag (gap ++ Byte.letterT :: (restOfTrue ++ rest)) = _
    rw [readFlag, hgap.skipSpace _ (by decide)]
    rfl
  | false =>
    refine ⟨⟨Byte.letterF, _, rfl, by decide, by decide⟩, fun gap rest hgap _ => ?_⟩
    change readFlag (gap ++ Byte.letterF :: (restOfFalse ++ rest)) = _
    rw [readFlag, hgap.skipSpace _ (by decide)]
    rfl

theorem readBy_count : Form.count.ReadBy readCount := by
  refine Form.readBy_plain fun {n text} h => ?_
  subst h
  have hspells := spells_digitsOf n.toNat
  refine ⟨hspells.startsValue, fun gap rest hgap hrest => ?_⟩
  have hread := readNumber_digitsOf n.toNat_lt hrest
  have hspace := hspells.startsValue.skipSpace hgap rest
  obtain ⟨b, s, hbytes, hfront⟩ := hspells.front
  rw [hbytes, List.cons_append] at hread hspace ⊢
  rw [UInt64.ofNat_toNat] at hread
  rw [readCount, hspace]
  simp only [if_pos hfront, hread]
  rfl

/-- A numeral is read as the floating-point number that its number is. -/
theorem Numeral.Spells.read_realOrNull {n : Numeral} {text : Input} (hn : n.Spells text)
    {gap rest : Input} (hgap : IsGap gap) (hrest : EndsNumber rest) :
    orNull readReal (gap ++ (text ++ rest)) =
      (n.value rest).map fun number => (some number.toReal, rest) := by
  have hread : readNumber (text ++ rest) = n.value rest >>= fun number => .ok (number, rest) := by
    rw [readNumber, hn.read _ hrest]
    rfl
  have hspace := hn.startsValue.skipSpace hgap rest
  have hspace' := hn.startsValue.skipSpace isGap_nil rest
  obtain ⟨b, s, rfl, hfront⟩ := hn.front
  rw [List.nil_append] at hspace'
  rw [List.cons_append] at hread hspace hspace' ⊢
  have hreal : readReal (b :: (s ++ rest)) =
      (n.value rest).map fun number => (number.toReal, rest) := by
    rw [readReal, hspace']
    simp only [if_pos hfront, hread]
    cases n.value rest with
    | error => rfl
    | ok number => cases number <;> rfl
  rw [orNull, hspace]
  split
  · next hb =>
    -- no number starts like `null`
    rw [(List.cons.inj hb).1] at hfront
    exact absurd hfront (by decide)
  · rw [hreal]
    cases n.value rest <;> rfl

theorem readBy_realOrNull : Form.realOrNull.ReadBy (orNull readReal) := by
  refine Form.readBy_plain fun {o text} h => ?_
  cases o with
  | none =>
    subst h
    refine ⟨⟨Byte.letterN, _, rfl, by decide, by decide⟩, fun gap rest hgap _ => ?_⟩
    change orNull readReal (gap ++ Byte.letterN :: (restOfNull ++ rest)) = _
    rw [orNull, hgap.skipSpace _ (by decide)]
    rfl
  | some x =>
    obtain ⟨n, hn, hx⟩ := h
    refine ⟨hn.startsValue, fun gap rest hgap hrest => ?_⟩
    obtain ⟨number, hvalue, rfl⟩ := hx.value_eq rest
    rw [hn.read_realOrNull hgap hrest, hvalue]
    rfl

/-- A numeral that stands for no floating-point number is out of range. -/
theorem Numeral.Spells.meets_outOfRange {n : Numeral} {text : Input} (hn : n.Spells text)
    (h : ∀ x, ¬n.IsReal x) : Meets (· = .numberOutOfRange) (orNull readReal) text none := by
  intro gap rest hgap hrest
  obtain ⟨s, herror⟩ := Numeral.value_error h rest
  rw [hn.read_realOrNull hgap hrest, herror]
  exact ⟨_, s, rfl, rfl⟩

/-! ### Lists -/

/-- Items are read one after another, up to one with a fault of a given kind. -/
inductive ReadsItems (P : Cause → Prop) (read : Reader α) :
    List Input → Option (List α) → Prop where
  | done : ReadsItems P read [] (some [])
  | step {t : Input} {ts : List Input} {a : α} {o : Option (List α)} (hstart : StartsValue t)
      (h : Meets P read t (some a)) (more : ReadsItems P read ts o) :
      ReadsItems P read (t :: ts) (o.map (a :: ·))
  | stop {t : Input} (ts : List Input) (hstart : StartsValue t) (h : Meets P read t none) :
      ReadsItems P read (t :: ts) none

theorem ReadsItems.startsValue {read : Reader α} {t : Input} {ts : List Input}
    {o : Option (List α)} (h : ReadsItems P read (t :: ts) o) : StartsValue t := by
  cases h with
  | step hstart _ _ => exact hstart
  | stop _ hstart _ => exact hstart

/-- An item is read, and then those after it. -/
theorem ReadsItems.yields {read : Reader α} {t : Input} {ts : List Input} {after rest : Input}
    {o : Option (List α)} (h : ReadsItems P read (t :: ts) o) (more : Reader (List α))
    (hafter : EndsNumber after)
    (hmore : ∀ {o : Option (List α)}, ReadsItems P read ts o → Yields P (more after) rest o) :
    Yields P (read (t ++ after) >>= fun (a, s) => more s >>= fun (as, s) => pure (a :: as, s))
      rest o := by
  cases h with
  | @step _ _ a o _ h hts =>
    have hread : Yields P (read (t ++ after)) after (some a) := h [] after isGap_nil hafter
    rw [hread.bind_some]
    exact (hmore hts).map (a :: ·)
  | stop _ _ h =>
    have hread : Yields P (read (t ++ after)) after none := h [] after isGap_nil hafter
    exact hread.bind_none _

/-- The items of a list that come after one of them, and its closing bracket. -/
theorem readMore_items {read : Reader α} {items : List Input} {text : Input}
    (h : Followed Byte.listClose items text) (rest : Input) :
    ∀ {o : Option (List α)} {fuel : Nat}, ReadsItems P read items o → items.length < fuel →
      Yields P (readMore read fuel (text ++ rest)) rest o := by
  induction h with
  | @close g hg =>
    intro o fuel hitems hfuel
    obtain ⟨fuel, rfl⟩ := Nat.exists_eq_succ_of_ne_zero (Nat.ne_of_gt hfuel)
    cases hitems
    rw [readMore, List.append_assoc, List.singleton_append, hg.skipSpace _ (by decide)]
    rfl
  | @comma g h' item text items hg hh more ih =>
    intro o fuel hitems hfuel
    obtain ⟨fuel, rfl⟩ := Nat.exists_eq_succ_of_ne_zero (Nat.ne_of_gt (Nat.zero_lt_of_lt hfuel))
    have hloop : readMore read (fuel + 1) (g ++ Byte.comma :: (h' ++ (item ++ (text ++ rest)))) =
        (read (item ++ (text ++ rest)) >>= fun (a, s) => readMore read fuel s >>= fun (as, s) =>
          pure (a :: as, s)) := by
      rw [readMore, hg.skipSpace _ (by decide)]
      exact hitems.startsValue.goesOn hh (text ++ rest) _ _ _
    simp only [List.append_assoc, List.cons_append]
    rw [Nat.succ_eq_add_one, hloop]
    exact hitems.yields (readMore read fuel) (more.endsNumber (by decide) rest) fun hts =>
      ih hts (Nat.lt_of_succ_lt_succ hfuel)

/-- A list is read as its items are. -/
theorem readList_items {read : Reader α} {items : List Input} {text : Input}
    (h : Enclosed Byte.listOpen Byte.listClose items text) {o : Option (List α)}
    (hitems : ReadsItems P read items o) : Meets P (readList read) text o := by
  intro gap rest hgap hrest
  cases h with
  | @empty g hg =>
    cases hitems
    rw [List.cons_append, List.append_assoc, List.singleton_append, readList,
      hgap.skipSpace _ (by decide)]
    exact hg.endsList rest _ _ _
  | @items g item text items hg more =>
    have hopen : readList read (gap ++ Byte.listOpen :: (g ++ (item ++ (text ++ rest)))) =
        (read (item ++ (text ++ rest)) >>= fun p => readMore read (p.2.length + 1) p.2 >>=
          fun q => pure (p.1 :: q.1, q.2)) := by
      rw [readList, hgap.skipSpace _ (by decide)]
      exact hitems.startsValue.goesOn hg (text ++ rest) _ _ _
    simp only [List.append_assoc, List.cons_append]
    rw [hopen]
    refine hitems.yields (fun s => readMore read (s.length + 1) s)
      (more.endsNumber (by decide) rest) fun hts => readMore_items more rest hts ?_
    have hlength := more.length_lt
    rw [List.length_append]
    omega

namespace Form

variable {F : Form α} {read : Reader α}

theorem ReadBy.readsItems_of_spells (h : F.ReadBy read) {as : List α} {items : List Input}
    (hitems : List.Forall₂ F.Spells as items) :
    ReadsItems Cause.IsRepeat read items (some as) := by
  induction hitems with
  | nil => exact .done
  | cons ha _ ih => exact .step (h.spells ha).1 (h.spells ha).2 ih

theorem ReadBy.readsItems_of_repeats (h : F.ReadBy read) {items : List Input}
    (hitems : ∀ t ∈ items, (∃ a, F.Spells a t) ∨ F.Repeats t) (hagain : ∃ t ∈ items, F.Repeats t) :
    ReadsItems Cause.IsRepeat read items none := by
  induction items with
  | nil =>
    obtain ⟨t, ht, -⟩ := hagain
    cases ht
  | cons t items ih =>
    rw [List.forall_mem_cons] at hitems
    rcases hitems.1 with ⟨a, ha⟩ | hrepeats
    · -- the item is read, unless a field is given twice in it too
      obtain ⟨t', ht', hrepeats⟩ := hagain
      rcases List.mem_cons.mp ht' with rfl | hmem
      · exact .stop _ (h.repeats hrepeats).1 (h.repeats hrepeats).2
      · exact .step (h.spells ha).1 (h.spells ha).2 (ih hitems.2 ⟨t', hmem, hrepeats⟩)
    · exact .stop _ (h.repeats hrepeats).1 (h.repeats hrepeats).2

/-- **Lists are read if their items are.** -/
theorem ReadBy.list (h : F.ReadBy read) : F.list.ReadBy (readList read) where
  spells := by
    rintro as text ⟨items, hitems, hlayout⟩
    exact ⟨hlayout.startsValue (by decide) (by decide),
      readList_items hlayout (h.readsItems_of_spells hitems)⟩
  repeats := by
    rintro text ⟨items, hitems, hagain, hlayout⟩
    exact ⟨hlayout.startsValue (by decide) (by decide),
      readList_items hlayout (h.readsItems_of_repeats hitems hagain)⟩

end Form

end Json
end RemoteFiles
