import Mathlib.Data.List.Forall2
import RemoteFiles.Proofs.Json.Sequences
import RemoteFiles.Proofs.Json.Spelling

/-!
# The layout of documents

A document may have white space between any two of its tokens.  Whatever has the form of a value is
skipped, however deep it goes, and skipping it stops right behind it.

## Main definitions

* `Json.IsGap` — white space between two tokens.
* `Json.Enclosed` — items in brackets, with commas between them.
* `Json.IsMember` — a key and a value with a colon between them.
* `Json.IsValue` — what has the form of a value.

## Main results

* `Json.IsValue.skip` — **whatever has the form of a value is skipped.**
-/

namespace RemoteFiles
namespace Json

/-! ### White space -/

/-- White space, as much or as little as may stand between two tokens. -/
def IsGap (s : Input) : Prop := ∀ b ∈ s, b = 0x20 ∨ b = 0x09 ∨ b = 0x0a ∨ b = 0x0d

theorem isGap_nil : IsGap [] := by
  intro b h
  cases h

theorem isSpace_of_isGap {s : Input} (h : IsGap s) : ∀ b ∈ s, isSpace b = true := by
  intro b hb
  rcases h b hb with rfl | rfl | rfl | rfl <;> rfl

/-- White space is skipped up to a byte that is none. -/
theorem IsGap.skipSpace {g : Input} (h : IsGap g) {b : UInt8} (s : Input) (hb : isSpace b = false) :
    skipSpace (g ++ b :: s) = b :: s := by
  rw [Json.skipSpace, List.dropWhile_append_of_pos (isSpace_of_isGap h)]
  exact skipSpace_cons s hb

theorem IsGap.skipSpace_all {g : Input} (h : IsGap g) : Json.skipSpace g = [] := by
  rw [Json.skipSpace, ← List.append_nil g, List.dropWhile_append_of_pos (isSpace_of_isGap h)]
  rfl

theorem IsGap.endsNumber {g s : Input} (h : IsGap g) (hs : EndsNumber s) : EndsNumber (g ++ s) := by
  cases g with
  | nil => exact hs
  | cons b g =>
    refine endsNumber_cons _ ?_
    rcases h b List.mem_cons_self with rfl | rfl | rfl | rfl <;> decide

theorem IsGap.endsNumber_all {g : Input} (h : IsGap g) : EndsNumber g :=
  List.append_nil g ▸ h.endsNumber endsNumber_nil

/-- White space in front of a value does not matter to where it starts. -/
theorem StartsValue.skipSpace {text g : Input} (h : StartsValue text) (hg : IsGap g)
    (rest : Input) : skipSpace (g ++ (text ++ rest)) = text ++ rest := by
  obtain ⟨b, s, rfl, hspace, -⟩ := h
  exact hg.skipSpace _ hspace

/-- Where a list may end or go on, it goes on with a value. -/
theorem StartsValue.goesOn {γ : Type} {text g : Input} (h : StartsValue text) (hg : IsGap g)
    (rest : Input) (atEnd : γ) (close more : Input → γ) :
    (match Json.skipSpace (g ++ (text ++ rest)) with
      | [] => atEnd
      | Byte.listClose :: s => close s
      | s => more s) = more (text ++ rest) := by
  rw [h.skipSpace hg]
  obtain ⟨b, s, rfl, -, hclose⟩ := h
  split
  · next hb => cases hb
  · next hb => exact absurd (List.cons.inj hb).1 hclose
  · rfl

/-- Where a list may end or go on, a closing bracket ends it. -/
theorem IsGap.endsList {γ : Type} {g : Input} (hg : IsGap g) (rest : Input) (atEnd : γ)
    (close more : Input → γ) :
    (match Json.skipSpace (g ++ Byte.listClose :: rest) with
      | [] => atEnd
      | Byte.listClose :: s => close s
      | s => more s) = close rest := by
  rw [hg.skipSpace _ (by decide)]
  rfl

/-- Where a record may end or go on, a closing bracket ends it. -/
theorem IsGap.endsRecord {γ : Type} {g : Input} (hg : IsGap g) (rest : Input) (atEnd : γ)
    (close more : Input → γ) :
    (match Json.skipSpace (g ++ Byte.recordClose :: rest) with
      | [] => atEnd
      | Byte.recordClose :: s => close s
      | s => more s) = close rest := by
  rw [hg.skipSpace _ (by decide)]
  rfl

/-- Where a record may end or go on, it goes on with a key. -/
theorem IsGap.goesOnWithKey {γ : Type} {g : Input} (hg : IsGap g) (tail : Input) (atEnd : γ)
    (close more : Input → γ) :
    (match Json.skipSpace (g ++ Byte.quote :: tail) with
      | [] => atEnd
      | Byte.recordClose :: s => close s
      | s => more s) = more (Byte.quote :: tail) := by
  rw [hg.skipSpace _ (by decide)]
  rfl

/-- Where a colon is wanted there is one. -/
theorem IsGap.meetsColon {γ : Type} {g : Input} (hg : IsGap g) (rest : Input) (atEnd : γ)
    (more other : Input → γ) :
    (match Json.skipSpace (g ++ Byte.colon :: rest) with
      | [] => atEnd
      | Byte.colon :: s => more s
      | _ :: s => other s) = more rest := by
  rw [hg.skipSpace _ (by decide)]
  rfl

/-! ### Items and members -/

/-- What comes after an item: commas and more items, with white space anywhere between them, and the
closing bracket. -/
inductive Followed (close : UInt8) : List Input → Input → Prop where
  | close {g : Input} (hg : IsGap g) : Followed close [] (g ++ [close])
  | comma {g h item text : Input} {items : List Input} (hg : IsGap g) (hh : IsGap h)
      (more : Followed close items text) :
      Followed close (item :: items) (g ++ Byte.comma :: (h ++ (item ++ text)))

/-- Items in brackets, with commas between them and white space anywhere. -/
inductive Enclosed (opening close : UInt8) : List Input → Input → Prop where
  | empty {g : Input} (hg : IsGap g) : Enclosed opening close [] (opening :: (g ++ [close]))
  | items {g item text : Input} {items : List Input} (hg : IsGap g)
      (more : Followed close items text) :
      Enclosed opening close (item :: items) (opening :: (g ++ (item ++ text)))

/-- A key and a value with a colon between them and white space around it. -/
def IsMember (key value item : Input) : Prop :=
  ∃ g h, IsGap g ∧ IsGap h ∧ item = key ++ (g ++ Byte.colon :: (h ++ value))

section Followed

variable {close : UInt8} {items : List Input} {text : Input}

/-- There is a comma or a bracket for each item and one more. -/
theorem Followed.length_lt (h : Followed close items text) : items.length < text.length := by
  induction h with
  | close _ => simp
  | comma _ _ _ ih =>
    simp only [List.length_cons, List.length_append]
    omega

/-- A number ends where an item does. -/
theorem Followed.endsNumber (h : Followed close items text)
    (hclose : isDigit close = false ∧ close ≠ Byte.point ∧ close ≠ 0x65 ∧ close ≠ 0x45)
    (rest : Input) : EndsNumber (text ++ rest) := by
  cases h with
  | close hg =>
    rw [List.append_assoc]
    exact hg.endsNumber (endsNumber_cons _ hclose)
  | comma hg _ _ =>
    rw [List.append_assoc]
    exact hg.endsNumber (endsNumber_cons _ (by decide))

end Followed

/-! ### Values of any form -/

/-- What has the form of a value. -/
inductive IsValue : Input → Prop where
  | null : IsValue (Utf8.bytes ['n', 'u', 'l', 'l'])
  | true : IsValue (Utf8.bytes ['t', 'r', 'u', 'e'])
  | false : IsValue (Utf8.bytes ['f', 'a', 'l', 's', 'e'])
  | number {n : Numeral} {text : Input} (h : n.Spells text) : IsValue text
  | string {text : Input} (h : IsString text) : IsValue text
  | list {items : List Input} {text : Input} (hitems : ∀ t ∈ items, IsValue t)
      (h : Enclosed Byte.listOpen Byte.listClose items text) : IsValue text
  | record {ms : List (Input × Input)} {items : List Input} {text : Input}
      (hkeys : ∀ m ∈ ms, IsString m.1) (hvalues : ∀ m ∈ ms, IsValue m.2)
      (hitems : List.Forall₂ (fun m item => IsMember m.1 m.2 item) ms items)
      (h : Enclosed Byte.recordOpen Byte.recordClose items text) : IsValue text

theorem Enclosed.startsValue {opening close : UInt8} {items : List Input} {text : Input}
    (h : Enclosed opening close items text) (hspace : isSpace opening = false)
    (hopening : opening ≠ Byte.listClose) : StartsValue text := by
  cases h with
  | empty _ => exact ⟨opening, _, rfl, hspace, hopening⟩
  | items _ _ => exact ⟨opening, _, rfl, hspace, hopening⟩

theorem Numeral.Spells.startsValue {n : Numeral} {text : Input} (h : n.Spells text) :
    StartsValue text := by
  obtain ⟨b, s, rfl, rfl | hdigit⟩ := h.front
  · exact ⟨Byte.minus, s, rfl, by decide, by decide⟩
  · refine ⟨b, s, rfl, isSpace_of_isDigit hdigit, ?_⟩
    rintro rfl
    cases hdigit

theorem IsValue.startsValue {text : Input} (h : IsValue text) : StartsValue text := by
  cases h with
  | null => exact ⟨Byte.letterN, _, rfl, by decide, by decide⟩
  | true => exact ⟨Byte.letterT, _, rfl, by decide, by decide⟩
  | false => exact ⟨Byte.letterF, _, rfl, by decide, by decide⟩
  | number h => exact h.startsValue
  | string h =>
    obtain ⟨tail, -, rfl⟩ := h
    exact ⟨Byte.quote, tail, rfl, by decide, by decide⟩
  | list _ h => exact h.startsValue (by decide) (by decide)
  | record _ _ _ h => exact h.startsValue (by decide) (by decide)

/-! ### Skipping -/

/-- A text is skipped with so much fuel, and with white space in front of it. -/
def Skips (fuel : Nat) (text : Input) : Prop :=
  ∀ gap rest, IsGap gap → EndsNumber rest → skipWithin fuel (gap ++ (text ++ rest)) = .ok rest

theorem skipItems_cons (fuel : Nat) {s s' : Input} (h : skipWithin fuel s = .ok s') :
    skipItems (fuel + 1) s =
      match skipSpace s' with
      | [] => .error ⟨.endInList, []⟩
      | Byte.comma :: s => skipItems fuel s
      | Byte.listClose :: s => .ok s
      | _ :: s => .error ⟨.expectedListEnd, s⟩ := by
  rw [skipItems, h]
  rfl

/-- The items of a list are skipped with twice as much fuel as they have bytes. -/
theorem skipItems_followed {items : List Input} {text : Input}
    (h : Followed Byte.listClose items text) (rest : Input) :
    ∀ {item gap : Input} {fuel : Nat}, IsGap gap →
      (∀ t ∈ item :: items, ∀ fuel, 2 * t.length ≤ fuel → Skips fuel t) →
      2 * (item.length + text.length) ≤ fuel →
        skipItems fuel (gap ++ (item ++ (text ++ rest))) = .ok rest := by
  induction h with
  | @close g hg =>
    intro item gap fuel hgap hskips hfuel
    rw [List.length_append, List.length_singleton] at hfuel
    obtain ⟨fuel, rfl⟩ := Nat.exists_eq_succ_of_ne_zero (n := fuel) (by omega)
    have hitem := hskips item List.mem_cons_self fuel (by omega) gap (g ++ [Byte.listClose] ++ rest)
      hgap (Followed.endsNumber (.close hg) (by decide) rest)
    rw [Nat.succ_eq_add_one, skipItems_cons fuel hitem, List.append_assoc, List.singleton_append,
      hg.skipSpace _ (by decide)]
    rfl
  | @comma g h' next text items hg hh more ih =>
    intro item gap fuel hgap hskips hfuel
    simp only [List.length_append, List.length_cons] at hfuel
    obtain ⟨fuel, rfl⟩ := Nat.exists_eq_succ_of_ne_zero (n := fuel) (by omega)
    have hitem := hskips item List.mem_cons_self fuel (by omega) gap
      (g ++ Byte.comma :: (h' ++ (next ++ text)) ++ rest)
      hgap (Followed.endsNumber (.comma hg hh more) (by decide) rest)
    rw [Nat.succ_eq_add_one, skipItems_cons fuel hitem, List.append_assoc, List.cons_append,
      hg.skipSpace _ (by decide)]
    change skipItems fuel _ = _
    rw [List.append_assoc, List.append_assoc]
    exact ih hh (fun t ht => hskips t (List.mem_cons_of_mem _ ht)) (by omega)

theorem skipMembers_cons (fuel : Nat) {gap key value item s s' : Input} (hgap : IsGap gap)
    (hkey : IsString key) (hitem : IsMember key value item)
    (h : ∀ g, IsGap g → skipWithin fuel (g ++ (value ++ s)) = .ok s') :
    skipMembers (fuel + 1) (gap ++ (item ++ s)) =
      match skipSpace s' with
      | [] => .error ⟨.endInRecord, []⟩
      | Byte.comma :: s => skipMembers fuel s
      | Byte.recordClose :: s => .ok s
      | _ :: s => .error ⟨.expectedRecordEnd, s⟩ := by
  obtain ⟨tail, htail, rfl⟩ := hkey
  obtain ⟨g, g', hg, hg', rfl⟩ := hitem
  simp only [List.append_assoc, List.cons_append]
  rw [skipMembers, hgap.skipSpace _ (by decide)]
  change (skipString _ >>= _) = _
  rw [htail.skip]
  refine (hg.meetsColon _ _ (fun s => skipWithin fuel s >>= _) _).trans ?_
  change (skipWithin fuel (g' ++ (value ++ s)) >>= _) = _
  rw [h g' hg']
  rfl

/-- The members of a record are skipped with twice as much fuel as they have bytes. -/
theorem skipMembers_followed {items : List Input} {text : Input}
    (h : Followed Byte.recordClose items text) (rest : Input) :
    ∀ {item gap : Input} {fuel : Nat}, IsGap gap →
      (∀ t ∈ item :: items, ∃ key value, IsString key ∧ IsMember key value t ∧
        ∀ fuel, 2 * value.length ≤ fuel → Skips fuel value) →
      2 * (item.length + text.length) ≤ fuel →
        skipMembers fuel (gap ++ (item ++ (text ++ rest))) = .ok rest := by
  have hlength : ∀ {key value item : Input}, IsMember key value item →
      value.length ≤ item.length := by
    rintro key value item ⟨g, g', _, _, rfl⟩
    simp only [List.length_append, List.length_cons]
    omega
  induction h with
  | @close g hg =>
    intro item gap fuel hgap hskips hfuel
    obtain ⟨key, value, hkey, hitem, hvalue⟩ := hskips item List.mem_cons_self
    have hle := hlength hitem
    rw [List.length_append, List.length_singleton] at hfuel
    obtain ⟨fuel, rfl⟩ := Nat.exists_eq_succ_of_ne_zero (n := fuel) (by omega)
    have hskip := fun g' hg' => hvalue fuel (by omega) g' (g ++ [Byte.recordClose] ++ rest) hg'
      (Followed.endsNumber (.close hg) (by decide) rest)
    rw [Nat.succ_eq_add_one, skipMembers_cons fuel hgap hkey hitem hskip, List.append_assoc,
      List.singleton_append, hg.skipSpace _ (by decide)]
    rfl
  | @comma g h' next text items hg hh more ih =>
    intro item gap fuel hgap hskips hfuel
    obtain ⟨key, value, hkey, hitem, hvalue⟩ := hskips item List.mem_cons_self
    have hle := hlength hitem
    simp only [List.length_append, List.length_cons] at hfuel
    obtain ⟨fuel, rfl⟩ := Nat.exists_eq_succ_of_ne_zero (n := fuel) (by omega)
    have hskip := fun g' hg' => hvalue fuel (by omega) g'
      (g ++ Byte.comma :: (h' ++ (next ++ text)) ++ rest) hg'
      (Followed.endsNumber (.comma hg hh more) (by decide) rest)
    rw [Nat.succ_eq_add_one, skipMembers_cons fuel hgap hkey hitem hskip, List.append_assoc,
      List.cons_append, hg.skipSpace _ (by decide)]
    change skipMembers fuel _ = _
    rw [List.append_assoc, List.append_assoc]
    exact ih hh (fun t ht => hskips t (List.mem_cons_of_mem _ ht)) (by omega)

/-- A value that starts with a sign or a digit is skipped as a number. -/
theorem skipWithin_number (fuel : Nat) {gap : Input} (hgap : IsGap gap) {b : UInt8} (s : Input)
    (h : b = Byte.minus ∨ isDigit b = true) :
    skipWithin (fuel + 1) (gap ++ b :: s) =
      (readNumeral .invalidNumber (b :: s)).map Prod.snd := by
  have hspace : isSpace b = false := by
    rcases h with rfl | hdigit
    · decide
    · exact isSpace_of_isDigit hdigit
  -- no other kind of value starts like this
  have hother : ∀ b', ¬(b' = Byte.minus ∨ isDigit b' = true) → b ≠ b' := by
    rintro b' hb' rfl
    exact hb' h
  rw [skipWithin, hgap.skipSpace s hspace]
  split
  · next hb => cases hb
  · next hb => exact absurd (List.cons.inj hb).1 (hother _ (by decide))
  · next hb => exact absurd (List.cons.inj hb).1 (hother _ (by decide))
  · next hb => exact absurd (List.cons.inj hb).1 (hother _ (by decide))
  · next hb => exact absurd (List.cons.inj hb).1 (hother _ (by decide))
  · next hb => exact absurd (List.cons.inj hb).1 (hother _ (by decide))
  · next hb => exact absurd (List.cons.inj hb).1 (hother _ (by decide))
  · next hb =>
    obtain ⟨rfl, rfl⟩ := List.cons.inj hb
    rw [if_pos h]

theorem skipWithin_listOpen (fuel : Nat) {gap g text : Input} (hgap : IsGap gap) (hg : IsGap g)
    (htext : StartsValue text) (rest : Input) :
    skipWithin (fuel + 1) (gap ++ Byte.listOpen :: (g ++ (text ++ rest))) =
      skipItems fuel (text ++ rest) := by
  rw [skipWithin, hgap.skipSpace _ (by decide)]
  exact htext.goesOn hg rest _ _ _

theorem skipWithin_recordOpen (fuel : Nat) {gap g tail : Input} (hgap : IsGap gap) (hg : IsGap g) :
    skipWithin (fuel + 1) (gap ++ Byte.recordOpen :: (g ++ Byte.quote :: tail)) =
      skipMembers fuel (Byte.quote :: tail) := by
  rw [skipWithin, hgap.skipSpace _ (by decide)]
  exact hg.goesOnWithKey tail _ _ _

/-- The item of each member of some keys and values. -/
theorem exists_member {ms : List (Input × Input)} {items : List Input}
    (h : List.Forall₂ (fun m item => IsMember m.1 m.2 item) ms items) :
    ∀ item ∈ items, ∃ m ∈ ms, IsMember m.1 m.2 item := by
  induction h with
  | nil =>
    intro item hitem
    cases hitem
  | cons hm _ ih =>
    intro item hitem
    rcases List.mem_cons.mp hitem with rfl | hitem
    · exact ⟨_, List.mem_cons_self, hm⟩
    · obtain ⟨m, hmem, hmember⟩ := ih item hitem
      exact ⟨m, List.mem_cons_of_mem _ hmem, hmember⟩

/-- A list of values is skipped when its items are. -/
theorem Enclosed.skip_list {items : List Input} {text : Input}
    (h : Enclosed Byte.listOpen Byte.listClose items text) (hstart : ∀ t ∈ items, StartsValue t)
    (hskips : ∀ t ∈ items, ∀ fuel, 2 * t.length ≤ fuel → Skips fuel t) {fuel : Nat}
    (hfuel : 2 * text.length ≤ fuel + 1) : Skips (fuel + 1) text := by
  intro gap rest hgap hrest
  cases h with
  | empty hg =>
    rw [List.cons_append, List.append_assoc, List.singleton_append, skipWithin,
      hgap.skipSpace _ (by decide)]
    exact hg.endsList rest _ _ _
  | @items g item text items hg more =>
    simp only [List.length_cons, List.length_append] at hfuel
    rw [List.cons_append, List.append_assoc, List.append_assoc,
      skipWithin_listOpen fuel hgap hg (hstart item List.mem_cons_self)]
    exact skipItems_followed more rest isGap_nil hskips (by omega)

/-- A record of values is skipped when its members are. -/
theorem Enclosed.skip_record {items : List Input} {text : Input}
    (h : Enclosed Byte.recordOpen Byte.recordClose items text)
    (hskips : ∀ t ∈ items, ∃ key value, IsString key ∧ IsMember key value t ∧
      ∀ fuel, 2 * value.length ≤ fuel → Skips fuel value) {fuel : Nat}
    (hfuel : 2 * text.length ≤ fuel + 1) : Skips (fuel + 1) text := by
  intro gap rest hgap hrest
  cases h with
  | empty hg =>
    rw [List.cons_append, List.append_assoc, List.singleton_append, skipWithin,
      hgap.skipSpace _ (by decide)]
    exact hg.endsRecord rest _ _ _
  | @items g item text items hg more =>
    simp only [List.length_cons, List.length_append] at hfuel
    have hmembers : skipMembers fuel ([] ++ (item ++ (text ++ rest))) = .ok rest :=
      skipMembers_followed more rest isGap_nil hskips (by omega)
    obtain ⟨key, value, ⟨tail, -, rfl⟩, ⟨g', h', -, -, rfl⟩, -⟩ := hskips item List.mem_cons_self
    simp only [List.cons_append, List.append_assoc, List.nil_append] at hmembers ⊢
    rw [skipWithin_recordOpen fuel hgap hg]
    exact hmembers

/-- Whatever has the form of a value is skipped with twice as much fuel as it has bytes. -/
theorem IsValue.skips {text : Input} (h : IsValue text) :
    ∀ fuel, 2 * text.length ≤ fuel → Skips fuel text := by
  have hsucc : ∀ {text : Input} {fuel : Nat}, StartsValue text → 2 * text.length ≤ fuel →
      ∃ n, fuel = n + 1 := by
    rintro text fuel ⟨b, s, rfl, -, -⟩ hfuel
    rw [List.length_cons] at hfuel
    exact Nat.exists_eq_succ_of_ne_zero (by omega)
  induction h with
  | null =>
    intro fuel hfuel gap rest hgap _
    obtain ⟨fuel, rfl⟩ := hsucc IsValue.null.startsValue hfuel
    change skipWithin (fuel + 1) (gap ++ Byte.letterN :: (restOfNull ++ rest)) = _
    rw [skipWithin, hgap.skipSpace _ (by decide)]
    rfl
  | true =>
    intro fuel hfuel gap rest hgap _
    obtain ⟨fuel, rfl⟩ := hsucc IsValue.true.startsValue hfuel
    change skipWithin (fuel + 1) (gap ++ Byte.letterT :: (restOfTrue ++ rest)) = _
    rw [skipWithin, hgap.skipSpace _ (by decide)]
    rfl
  | false =>
    intro fuel hfuel gap rest hgap _
    obtain ⟨fuel, rfl⟩ := hsucc IsValue.false.startsValue hfuel
    change skipWithin (fuel + 1) (gap ++ Byte.letterF :: (restOfFalse ++ rest)) = _
    rw [skipWithin, hgap.skipSpace _ (by decide)]
    rfl
  | number h =>
    intro fuel hfuel gap rest hgap hrest
    obtain ⟨fuel, rfl⟩ := hsucc h.startsValue hfuel
    have hread := h.read .invalidNumber hrest
    obtain ⟨b, s, rfl, hb⟩ := h.front
    rw [List.cons_append] at hread ⊢
    rw [skipWithin_number fuel hgap _ hb, hread]
    rfl
  | string h =>
    intro fuel hfuel gap rest hgap _
    obtain ⟨fuel, rfl⟩ := hsucc (IsValue.string h).startsValue hfuel
    obtain ⟨tail, htail, rfl⟩ := h
    rw [List.cons_append, skipWithin, hgap.skipSpace _ (by decide)]
    exact htail.skip rest
  | list hitems h ih =>
    intro fuel hfuel
    obtain ⟨fuel, rfl⟩ := hsucc (IsValue.list hitems h).startsValue hfuel
    exact h.skip_list (fun t ht => (hitems t ht).startsValue) ih hfuel
  | record hkeys hvalues hitems h ih =>
    intro fuel hfuel
    obtain ⟨fuel, rfl⟩ := hsucc (IsValue.record hkeys hvalues hitems h).startsValue hfuel
    refine h.skip_record (fun t ht => ?_) hfuel
    obtain ⟨m, hm, hmember⟩ := exists_member hitems t ht
    exact ⟨m.1, m.2, hkeys m hm, hmember, ih m hm⟩

/-- **Whatever has the form of a value is skipped**, with white space in front of it, and no more
than that. -/
theorem IsValue.skip {text gap rest : Input} (h : IsValue text) (hgap : IsGap gap)
    (hrest : EndsNumber rest) : skipValue (gap ++ (text ++ rest)) = .ok rest := by
  refine h.skips _ ?_ gap rest hgap hrest
  simp only [List.length_append]
  omega

end Json
end RemoteFiles
