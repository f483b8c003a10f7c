import Mathlib.Data.List.Nodup
import RemoteFiles.Proofs.Json.Forms

/-!
# Records by their members

What a record comes to is decided by the members that its kind knows: the others are skipped, the
order does not matter, and a field that is given twice is refused whatever its values are.

## Main definitions

* `Json.Slot` — a field as it should be: where it is kept, and the form of its values.
* `Json.IsRecord` — the texts of a record with given members.
* `Json.Members`, `Json.Overfull` — members that fill a draft, and members of which some give a
  field twice.
* `Json.Form.record` — records with given fields.
* `Json.Schema.DecodedBy` — what the documents of a kind come to is decided by their known members.
* `Json.Schema.Follows` — a kind of records has the fields that it should have.

## Main results

* `Json.Members.congr` — members fill a draft in any order and any spelling, and whatever others are
  among them.
* `Json.Schema.Follows.readBy` — **records are read by their known members.**
-/

namespace RemoteFiles
namespace Json

variable {α δ : Type} {P : Cause → Prop}

/-! ### Fields and members -/

/-- A field of records whose drafts are of type `δ`, as it should be. -/
structure Slot (δ : Type) where
  Kind : Type
  name : String
  /-- Where a draft keeps the field. -/
  get : δ → Option Kind
  form : Form Kind

/-- The members of a record with a given name. -/
def named (name : String) (ms : List (String × Input)) : List (String × Input) :=
  ms.filter (·.1 = name)

/-- The members of a record that give fields. -/
def known (slots : List (Slot δ)) (ms : List (String × Input)) : List (String × Input) :=
  ms.filter (·.1 ∈ slots.map Slot.name)

/-- The texts of a record with given members: their keys, in any spelling, and the texts of their
values. -/
def IsRecord (ms : List (String × Input)) (text : Input) : Prop :=
  ∃ items, List.Forall₂ (fun m item => ∃ key, SpellsText m.1 key ∧ IsMember key m.2 item) ms items ∧
    Enclosed Byte.recordOpen Byte.recordClose items text

/-- Members give a field no value, or one value once. -/
inductive Slot.Gives (s : Slot δ) (ms : List (String × Input)) : Option s.Kind → Prop where
  | absent (h : named s.name ms = []) : s.Gives ms none
  | once {m : String × Input} {x : s.Kind} (h : named s.name ms = [m])
      (hx : s.form.Spells x m.2) : s.Gives ms (some x)

/-- Members that fill a draft: each field has the value that is given once, or none, and whatever
else there is has the form of a value. -/
structure Members (slots : List (Slot δ)) (ms : List (String × Input)) (d : δ) : Prop where
  given : ∀ s ∈ slots, s.Gives ms (s.get d)
  others : ∀ m ∈ ms, m.1 ∉ slots.map Slot.name → IsValue m.2

/-- Members that would fill a draft, except that some field is given more than once, here or in a
record further down. -/
structure Overfull (slots : List (Slot δ)) (ms : List (String × Input)) : Prop where
  given : ∀ s ∈ slots, ∀ m ∈ named s.name ms, (∃ x, s.form.Spells x m.2) ∨ s.form.Repeats m.2
  others : ∀ m ∈ ms, m.1 ∉ slots.map Slot.name → IsValue m.2
  again : ∃ s ∈ slots, 2 ≤ (named s.name ms).length ∨ ∃ m ∈ named s.name ms, s.form.Repeats m.2

/-- Records with given fields, and the values that their drafts come to. -/
def Form.record (slots : List (Slot δ)) (value : δ → Option α) : Form α where
  Spells a text := ∃ ms d, IsRecord ms text ∧ Members slots ms d ∧ value d = some a
  Repeats text := ∃ ms, IsRecord ms text ∧ Overfull slots ms

theorem named_cons_self {name : String} {m : String × Input} (h : m.1 = name)
    (ms : List (String × Input)) : named name (m :: ms) = m :: named name ms :=
  List.filter_cons_of_pos (decide_eq_true h)

theorem named_cons_of_ne {name : String} {m : String × Input} (h : m.1 ≠ name)
    (ms : List (String × Input)) : named name (m :: ms) = named name ms :=
  List.filter_cons_of_neg (by rwa [decide_eq_true_eq])

/-- The members that give a field are among those that give any. -/
theorem named_known {slots : List (Slot δ)} {s : Slot δ} (hs : s ∈ slots)
    (ms : List (String × Input)) : named s.name (known slots ms) = named s.name ms := by
  rw [named, known, List.filter_filter]
  refine List.filter_congr fun m _ => ?_
  by_cases h : m.1 = s.name
  · simp only [h, decide_true, Bool.true_and, decide_eq_true_eq]
    exact List.mem_map_of_mem hs
  · simp [h]

/-- A member that gives a field gives the same as another: what the text of its value stands for,
that of the other stands for too. -/
def Alike (slots : List (Slot δ)) (m m' : String × Input) : Prop :=
  m.1 = m'.1 ∧ ∀ s ∈ slots, s.name = m.1 → ∀ x, s.form.Spells x m.2 → s.form.Spells x m'.2

theorem forall₂_named {slots : List (Slot δ)} {ms ms' : List (String × Input)}
    (h : List.Forall₂ (Alike slots) ms ms') (name : String) :
    List.Forall₂ (Alike slots) (named name ms) (named name ms') :=
  List.rel_filter (fun m m' halike => by simp [halike.1]) h

/-- Members give a field what members alike, in another order, give it. -/
theorem Slot.Gives.congr {slots : List (Slot δ)} {s : Slot δ} (hs : s ∈ slots)
    {ms l ms' : List (String × Input)} {o : Option s.Kind} (h : s.Gives ms o)
    (hperm : (known slots ms).Perm l) (halike : List.Forall₂ (Alike slots) l (known slots ms')) :
    s.Gives ms' o := by
  have hnamed : (named s.name ms).Perm (named s.name l) := by
    rw [← named_known hs ms]
    exact hperm.filter _
  have hrest := forall₂_named halike s.name
  rw [named_known hs] at hrest
  -- there is at most one member that gives the field, so its place does not matter
  cases h with
  | absent hnone =>
    rw [hnone] at hnamed
    rw [← hnamed.nil_eq, List.forall₂_nil_left_iff] at hrest
    exact .absent hrest
  | @once m x honce hx =>
    rw [honce] at hnamed
    rw [← List.singleton_perm.mp hnamed, List.forall₂_cons_left_iff] at hrest
    obtain ⟨m', ms'', hm', hnil, hmore⟩ := hrest
    rw [List.forall₂_nil_left_iff.mp hnil] at hmore
    have hname : m.1 = s.name := by
      have hmem : m ∈ named s.name ms := honce ▸ List.mem_singleton_self m
      exact of_decide_eq_true (List.mem_filter.mp hmem).2
    exact .once hmore (hm'.2 s hs hname.symm x hx)

/-- **Members fill a draft in any order and any spelling, and whatever others are among them.** -/
theorem Members.congr {slots : List (Slot δ)} {ms l ms' : List (String × Input)} {d : δ}
    (h : Members slots ms d) (hperm : (known slots ms).Perm l)
    (halike : List.Forall₂ (Alike slots) l (known slots ms'))
    (hothers : ∀ m ∈ ms', m.1 ∉ slots.map Slot.name → IsValue m.2) : Members slots ms' d :=
  ⟨fun s hs => (h.given s hs).congr hs hperm halike, hothers⟩

/-! ### Documents -/

/-- The inputs that are a record with given members, with white space around it. -/
def IsDocument (ms : List (String × Input)) (input : Input) : Prop :=
  ∃ gap text gap', IsGap gap ∧ IsGap gap' ∧ IsRecord ms text ∧ input = gap ++ (text ++ gap')

/-- What the documents of a kind come to is decided by their known members. -/
structure Schema.DecodedBy (k : Schema δ α) (slots : List (Slot δ)) (value : δ → Option α) :
    Prop where
  /-- A document comes to the value of the draft that its members fill. -/
  ok {ms : List (String × Input)} {input : Input} {d : δ} {a : α} (h : IsDocument ms input)
    (hmembers : Members slots ms d) (hvalue : value d = some a) : decode k.read input = .ok a
  /-- A document that gives a field again is refused. -/
  again {ms : List (String × Input)} {input : Input} (h : IsDocument ms input)
    (hoverfull : Overfull slots ms) :
    ∃ name line column, decode k.read input = .error ⟨.duplicateField name, line, column⟩
  /-- Neither the order of the members and the spelling of their values nor the other members make a
  difference. -/
  stable {ms l ms' : List (String × Input)} {input input' : Input} {d : δ} {a : α}
    (h : IsDocument ms input) (h' : IsDocument ms' input') (hmembers : Members slots ms d)
    (hvalue : value d = some a) (hperm : (known slots ms).Perm l)
    (halike : List.Forall₂ (Alike slots) l (known slots ms'))
    (hothers : ∀ m ∈ ms', m.1 ∉ slots.map Slot.name → IsValue m.2) :
    decode k.read input' = decode k.read input

/-- The documents of a kind are decided by their known members if the kind is read so. -/
theorem Form.ReadBy.decodedBy {k : Schema δ α} {slots : List (Slot δ)} {value : δ → Option α}
    (h : (Form.record slots value).ReadBy k.read) : k.DecodedBy slots value := by
  have hok : ∀ {ms : List (String × Input)} {input : Input} {d : δ} {a : α}, IsDocument ms input →
      Members slots ms d → value d = some a → decode k.read input = .ok a := by
    rintro ms _ d a ⟨gap, text, gap', hgap, hgap', hrecord, rfl⟩ hmembers hvalue
    have hread : k.read (gap ++ (text ++ gap')) = .ok (a, gap') :=
      (h.spells ⟨ms, d, hrecord, hmembers, hvalue⟩).2 gap gap' hgap hgap'.endsNumber_all
    unfold decode readOnly
    rw [hread]
    simp only [bind, Except.bind, hgap'.skipSpace_all]
  refine ⟨hok, ?_, ?_⟩
  · rintro ms _ ⟨gap, text, gap', hgap, hgap', hrecord, rfl⟩ hoverfull
    have hread : Yields Cause.IsRepeat (k.read (gap ++ (text ++ gap'))) gap' none :=
      (h.repeats ⟨ms, hrecord, hoverfull⟩).2 gap gap' hgap hgap'.endsNumber_all
    obtain ⟨_, s, ⟨name, rfl⟩, hread⟩ := hread
    unfold decode readOnly
    rw [hread]
    exact ⟨name, _, _, rfl⟩
  · intro ms l ms' input input' d a hdoc hdoc' hmembers hvalue hperm halike hothers
    rw [hok hdoc hmembers hvalue, hok hdoc' (hmembers.congr hperm halike hothers) hvalue]

/-! ### Reading members one by one -/

namespace Schema

variable {k : Schema δ α}

/-- What becomes of a draft with one more member: none if its field is given again or there is a
fault in its value, either of which is of a given kind. -/
inductive Takes (P : Cause → Prop) (k : Schema δ α) (d : δ) :
    String × Input → Option δ → Prop where
  | known {name : String} {text : Input} {f : Field δ} {d₁ : δ} (hfield : k.field? name = some f)
      (hgiven : f.given d = false) (hread : Meets P (f.read d) text (some d₁)) :
      Takes P k d (name, text) (some d₁)
  | unknown {name : String} {text : Input} (hfield : k.field? name = none) (hvalue : IsValue text) :
      Takes P k d (name, text) (some d)
  | again {name : String} {f : Field δ} (text : Input) (hfield : k.field? name = some f)
      (hgiven : f.given d = true) (hkind : P (.duplicateField name)) : Takes P k d (name, text) none
  | within {name : String} {text : Input} {f : Field δ} (hfield : k.field? name = some f)
      (hgiven : f.given d = false) (hread : Meets P (f.read d) text none) :
      Takes P k d (name, text) none

/-- What becomes of a draft with more members. -/
inductive TakesAll (P : Cause → Prop) (k : Schema δ α) :
    δ → List (String × Input) → Option δ → Prop where
  | done (d : δ) : TakesAll P k d [] (some d)
  | step {d d₁ : δ} {m : String × Input} {ms : List (String × Input)} {o : Option δ}
      (h : Takes P k d m (some d₁)) (more : TakesAll P k d₁ ms o) : TakesAll P k d (m :: ms) o
  | stop {d : δ} {m : String × Input} (ms : List (String × Input)) (h : Takes P k d m none) :
      TakesAll P k d (m :: ms) none

/-- A member is read into a draft, after the opening quote of its key. -/
theorem Takes.read {d : δ} {m : String × Input} {o : Option δ} (h : Takes P k d m o)
    {tail item rest : Input} (hkey : Spelling m.1.toList tail)
    (hitem : IsMember (Byte.quote :: tail) m.2 item) (hrest : EndsNumber rest) :
    ∃ s, item = Byte.quote :: s ∧ Yields P (k.readMember d (s ++ rest)) rest o := by
  obtain ⟨g, g', hg, hg', rfl⟩ := hitem
  refine ⟨tail ++ (g ++ Byte.colon :: (g' ++ m.2)), List.cons_append, ?_⟩
  simp only [List.append_assoc, List.cons_append]
  have hcolon : ∀ s, readColon (g ++ Byte.colon :: s) = .ok s := by
    intro s
    rw [readColon, hg.skipSpace s (by decide)]
    rfl
  rw [readMember, hkey.readString]
  cases h with
  | known hfield hgiven hread =>
    simp only [bind, Except.bind, hfield, hgiven, Bool.false_eq_true, if_false, hcolon]
    exact hread g' rest hg' hrest
  | unknown hfield hvalue =>
    simp only [bind, Except.bind, hfield, hcolon, hvalue.skip hg' hrest]
    rfl
  | again _ hfield hgiven hkind =>
    simp only [bind, Except.bind, hfield, hgiven, if_true]
    exact ⟨_, _, hkind, rfl⟩
  | within hfield hgiven hread =>
    simp only [bind, Except.bind, hfield, hgiven, Bool.false_eq_true, if_false, hcolon]
    exact hread g' rest hg' hrest

/-- A member is read into a draft, and then those after it. -/
theorem TakesAll.yields {d : δ} {m : String × Input} {ms : List (String × Input)} {o : Option δ}
    (h : TakesAll P k d (m :: ms) o) (more : δ → Reader δ) {key item after rest : Input}
    (hkey : SpellsText m.1 key) (hitem : IsMember key m.2 item) (hafter : EndsNumber after)
    (hmore : ∀ {d o}, TakesAll P k d ms o → Yields P (more d after) rest o) :
    ∃ s, item = Byte.quote :: s ∧
      Yields P (k.readMember d (s ++ after) >>= fun (d, s) => more d s) rest o := by
  obtain ⟨tail, htail, rfl⟩ := hkey
  cases h with
  | step hm hms =>
    obtain ⟨s, hs, hread⟩ := hm.read htail hitem hafter
    refine ⟨s, hs, ?_⟩
    rw [hread.bind_some]
    exact hmore hms
  | stop _ hm =>
    obtain ⟨s, hs, hread⟩ := hm.read htail hitem hafter
    exact ⟨s, hs, hread.bind_none _⟩

/-- Where a key is wanted there is one. -/
theorem meetsKey {γ : Type} {g : Input} (hg : IsGap g) (tail : Input) (atEnd : γ)
    (key close other : Input → γ) :
    (match skipSpace (g ++ Byte.quote :: tail) with
      | [] => atEnd
      | Byte.quote :: s => key s
      | Byte.recordClose :: s => close s
      | _ :: s => other s) = key tail := by
  rw [hg.skipSpace _ (by decide)]
  rfl

theorem readMembers_key (fuel : Nat) (d : δ) {g g' : Input} (hg : IsGap g) (hg' : IsGap g')
    (tail : Input) :
    k.readMembers (fuel + 1) d (g ++ Byte.comma :: (g' ++ Byte.quote :: tail)) =
      k.readMember d tail >>= fun p => k.readMembers fuel p.1 p.2 := by
  rw [readMembers, hg.skipSpace _ (by decide)]
  exact meetsKey hg' tail _ (fun s => k.readMember d s >>= fun p => k.readMembers fuel p.1 p.2) _ _

/-- The members of a record that come after one of them, and its closing bracket. -/
theorem readMembers_items {items : List Input} {text : Input}
    (h : Followed Byte.recordClose items text) (rest : Input) :
    ∀ {ms : List (String × Input)} {d : δ} {o : Option δ} {fuel : Nat},
      List.Forall₂ (fun m item => ∃ key, SpellsText m.1 key ∧ IsMember key m.2 item) ms items →
      TakesAll P k d ms o → items.length < fuel →
        Yields P (k.readMembers fuel d (text ++ rest)) rest o := by
  induction h with
  | @close g hg =>
    intro ms d o fuel hms hall hfuel
    obtain ⟨fuel, rfl⟩ := Nat.exists_eq_succ_of_ne_zero (Nat.ne_of_gt hfuel)
    cases hms
    cases hall
    rw [readMembers, List.append_assoc, List.singleton_append, hg.skipSpace _ (by decide)]
    rfl
  | @comma g h' item text items hg hh more ih =>
    intro ms d o fuel hms hall hfuel
    obtain ⟨fuel, rfl⟩ := Nat.exists_eq_succ_of_ne_zero (Nat.ne_of_gt (Nat.zero_lt_of_lt hfuel))
    cases hms with
    | cons hm hms =>
      obtain ⟨key, hkey, hitem⟩ := hm
      obtain ⟨s, rfl, hread⟩ := hall.yields (readMembers k fuel) hkey hitem
        (more.endsNumber (by decide) rest) fun hrest =>
          ih hms hrest (Nat.lt_of_succ_lt_succ hfuel)
      simp only [List.append_assoc, List.cons_append]
      rw [Nat.succ_eq_add_one, readMembers_key fuel d hg hh]
      exact hread

/-- The members of a record are read into the blank draft. -/
theorem readRecord_items {ms : List (String × Input)} {text : Input} (h : IsRecord ms text)
    {o : Option δ} (hall : TakesAll P k k.blank ms o) (rest : Input) :
    ∃ s, text = Byte.recordOpen :: s ∧ Yields P (k.readRecord (s ++ rest)) rest o := by
  obtain ⟨items, hms, hlayout⟩ := h
  cases hlayout with
  | empty hg =>
    cases hms
    cases hall
    refine ⟨_, rfl, ?_⟩
    rw [List.append_assoc, List.singleton_append, readRecord, hg.skipSpace _ (by decide)]
    rfl
  | @items g item text items hg more =>
    cases hms with
    | cons hm hms =>
      obtain ⟨key, hkey, hitem⟩ := hm
      have hlength := more.length_lt
      obtain ⟨s, rfl, hread⟩ := hall.yields (fun d s => k.readMembers (s.length + 1) d s) hkey hitem
        (more.endsNumber (by decide) rest) fun hrest =>
          readMembers_items more rest hms hrest (by rw [List.length_append]; omega)
      refine ⟨_, rfl, ?_⟩
      simp only [List.append_assoc, List.cons_append]
      rw [readRecord, hg.skipSpace _ (by decide)]
      exact hread

theorem startsValue_of_isRecord {ms : List (String × Input)} {text : Input} (h : IsRecord ms text) :
    StartsValue text := by
  obtain ⟨_, _, hlayout⟩ := h
  exact hlayout.startsValue (by decide) (by decide)

/-- A record whose members fill a draft is read if the draft comes to a record. -/
theorem meets_some {ms : List (String × Input)} {text : Input} {d : δ} {a : α}
    (h : IsRecord ms text) (hall : TakesAll P k k.blank ms (some d)) (hbuild : k.build d = .ok a) :
    Meets P k.read text (some a) := by
  intro gap rest hgap _
  obtain ⟨s, rfl, hread⟩ := readRecord_items h hall rest
  rw [List.cons_append, read, hgap.skipSpace _ (by decide)]
  change Yields P (k.readRecord (s ++ rest) >>= _) rest (some a)
  rw [hread.bind_some]
  simp only [hbuild]
  rfl

/-- A record is refused if one of its members is. -/
theorem meets_none {ms : List (String × Input)} {text : Input} (h : IsRecord ms text)
    (hall : TakesAll P k k.blank ms none) : Meets P k.read text none := by
  intro gap rest hgap _
  obtain ⟨s, rfl, hread⟩ := readRecord_items h hall rest
  rw [List.cons_append, read, hgap.skipSpace _ (by decide)]
  exact hread.bind_none _

end Schema

/-! ### Kinds with given fields -/

/-- A field reads the form that it should into a draft, and into its own place only. -/
structure Slot.Serves (s : Slot δ) (slots : List (Slot δ)) (f : Field δ) : Prop where
  given (d : δ) : f.given d = (s.get d).isSome
  spells {x : s.Kind} {text : Input} (d : δ) (h : s.form.Spells x text) :
    ∃ d₁, Meets Cause.IsRepeat (f.read d) text (some d₁) ∧ s.get d₁ = some x ∧
      ∀ t ∈ slots, t.name ≠ s.name → t.get d₁ = t.get d
  repeats {text : Input} (d : δ) (h : s.form.Repeats text) :
    Meets Cause.IsRepeat (f.read d) text none

/-- A field that is kept in a draft as an option serves if its reader reads its form and the places
of other fields are other places. -/
theorem Slot.Serves.of {slots : List (Slot δ)} {s : Slot δ} {set : δ → s.Kind → δ}
    {read : Reader s.Kind} (hread : s.form.ReadBy read) (hset : ∀ d x, s.get (set d x) = some x)
    (hothers : ∀ t ∈ slots, t.name ≠ s.name → ∀ d x, t.get (set d x) = t.get d) :
    s.Serves slots (.of s.name s.get set read) := by
  refine ⟨fun d => rfl, fun {x text} d h => ⟨set d x, ?_, hset d x, ?_⟩, fun {text} d h => ?_⟩
  · exact fun gap rest hgap hrest => ((hread.spells h).2 gap rest hgap hrest).map (set d)
  · exact fun t ht hne => hothers t ht hne d x
  · exact fun gap rest hgap hrest => ((hread.repeats h).2 gap rest hgap hrest).map (set d)

/-- A kind of records has the fields that it should have, and no others. -/
structure Schema.Follows (k : Schema δ α) (slots : List (Slot δ)) : Prop where
  names : k.fields.map Field.name = slots.map Slot.name
  nodup : (slots.map Slot.name).Nodup
  serves : ∀ s ∈ slots, ∃ f, k.field? s.name = some f ∧ s.Serves slots f
  blank : ∀ s ∈ slots, s.get k.blank = none
  ext : ∀ d d', (∀ s ∈ slots, s.get d = s.get d') → d = d'

/-- Members take what a draft has of a field to what another has: they leave it alone, or give it if
it is not there. -/
inductive Slot.Leads (s : Slot δ) (ms : List (String × Input)) :
    Option s.Kind → Option s.Kind → Prop where
  | leave (o : Option s.Kind) (h : named s.name ms = []) : s.Leads ms o o
  | give {m : String × Input} {x : s.Kind} (h : named s.name ms = [m])
      (hx : s.form.Spells x m.2) : s.Leads ms none (some x)

section Leads

variable {s : Slot δ} {m : String × Input} {ms : List (String × Input)} {o o' : Option s.Kind}

theorem Slot.Gives.leads (h : s.Gives ms o) : s.Leads ms none o := by
  cases h with
  | absent h => exact .leave none h
  | once h hx => exact .give h hx

theorem Slot.Leads.eq_of_nil (h : s.Leads [] o o') : o = o' := by
  cases h with
  | leave _ _ => rfl
  | give h _ => cases h

/-- The first member gives its field, and no member after it does. -/
theorem Slot.Leads.first (h : s.Leads (m :: ms) o o') (hm : m.1 = s.name) :
    o = none ∧ named s.name ms = [] ∧ ∃ x, o' = some x ∧ s.form.Spells x m.2 := by
  cases h with
  | leave _ h =>
    rw [named_cons_self hm] at h
    cases h
  | give h hx =>
    rw [named_cons_self hm] at h
    obtain ⟨rfl, hnone⟩ := List.cons.inj h
    exact ⟨rfl, hnone, _, rfl, hx⟩

/-- The first member leaves the other fields to those after it. -/
theorem Slot.Leads.skip (h : s.Leads (m :: ms) o o') (hm : m.1 ≠ s.name) : s.Leads ms o o' := by
  cases h with
  | leave _ h => exact .leave _ (named_cons_of_ne hm ms ▸ h)
  | give h hx => exact .give (named_cons_of_ne hm ms ▸ h) hx

end Leads

namespace Schema.Follows

variable {k : Schema δ α} {slots : List (Slot δ)}

theorem field?_eq_none (h : k.Follows slots) {name : String} (hname : name ∉ slots.map Slot.name) :
    k.field? name = none := by
  rw [← h.names] at hname
  refine List.find?_eq_none.mpr fun f hf heq => hname ?_
  rw [← of_decide_eq_true heq]
  exact List.mem_map_of_mem hf

theorem eq_of_name (h : k.Follows slots) {s t : Slot δ} (hs : s ∈ slots) (ht : t ∈ slots)
    (hname : s.name = t.name) : s = t :=
  List.inj_on_of_nodup_map h.nodup hs ht hname

/-- A member that gives a field which a draft lacks is read into the place of that field. -/
theorem takes_of_spells (h : k.Follows slots) {s : Slot δ} (hs : s ∈ slots) {d : δ}
    (hnone : s.get d = none) {x : s.Kind} {text : Input} (hx : s.form.Spells x text) :
    ∃ d₁, Takes P k d (s.name, text) (some d₁) ∧ s.get d₁ = some x ∧
      ∀ t ∈ slots, t.name ≠ s.name → t.get d₁ = t.get d := by
  obtain ⟨f, hfield, hserves⟩ := h.serves s hs
  obtain ⟨d₁, hread, hget, hkept⟩ := hserves.spells d hx
  have hgiven : f.given d = false := by
    rw [hserves.given, hnone]
    rfl
  exact ⟨d₁, .known hfield hgiven hread, hget, hkept⟩

/-- Members that lead from one draft to another are read so. -/
theorem takesAll_of_leads (h : k.Follows slots) {e : δ} {ms : List (String × Input)} :
    ∀ {d : δ}, (∀ s ∈ slots, s.Leads ms (s.get d) (s.get e)) →
      (∀ m ∈ ms, m.1 ∉ slots.map Slot.name → IsValue m.2) → TakesAll P k d ms (some e) := by
  induction ms with
  | nil =>
    intro d hleads _
    rw [h.ext d e fun s hs => (hleads s hs).eq_of_nil]
    exact .done e
  | cons m ms ih =>
    intro d hleads hothers
    rw [List.forall_mem_cons] at hothers
    by_cases hname : m.1 ∈ slots.map Slot.name
    · obtain ⟨s, hs, hsname⟩ := List.mem_map.mp hname
      obtain ⟨hnone, hmore, x, hx, hspells⟩ := (hleads s hs).first hsname.symm
      obtain ⟨d₁, htakes, hget, hkept⟩ := h.takes_of_spells hs hnone hspells
      rw [hsname] at htakes
      refine .step htakes (ih (fun t ht => ?_) hothers.2)
      by_cases hne : t.name = s.name
      · -- the field of the member is given now, and by no other member
        obtain rfl := h.eq_of_name ht hs hne
        rw [hget, hx]
        exact .leave _ hmore
      · rw [hkept t ht hne]
        exact (hleads t ht).skip (hsname ▸ Ne.symm hne)
    · refine .step (.unknown (h.field?_eq_none hname) (hothers.1 hname))
        (ih (fun t ht => (hleads t ht).skip ?_) hothers.2)
      exact fun heq => hname (heq ▸ List.mem_map_of_mem ht)

/-- Members of which some give a field again are read up to the first that does. -/
theorem takesAll_of_again (h : k.Follows slots) {ms : List (String × Input)} : ∀ {d : δ},
    (∀ s ∈ slots, ∀ m ∈ named s.name ms, (∃ x, s.form.Spells x m.2) ∨ s.form.Repeats m.2) →
    (∀ m ∈ ms, m.1 ∉ slots.map Slot.name → IsValue m.2) →
    (∃ s ∈ slots, 2 ≤ (s.get d).toList.length + (named s.name ms).length ∨
      ∃ m ∈ named s.name ms, s.form.Repeats m.2) → TakesAll Cause.IsRepeat k d ms none := by
  induction ms with
  | nil =>
    rintro d - - ⟨s, hs, hcount | ⟨m, hm, -⟩⟩
    · cases hget : s.get d <;> simp [hget, named] at hcount
    · cases hm
  | cons m ms ih =>
    rintro d hgiven hothers ⟨t, ht, hagain⟩
    rw [List.forall_mem_cons] at hothers
    have hgiven' : ∀ s ∈ slots, ∀ m ∈ named s.name ms,
        (∃ x, s.form.Spells x m.2) ∨ s.form.Repeats m.2 := by
      intro s hs m' hm'
      refine hgiven s hs m' ?_
      rw [named, List.mem_filter] at hm' ⊢
      exact ⟨List.mem_cons_of_mem _ hm'.1, hm'.2⟩
    by_cases hname : m.1 ∈ slots.map Slot.name
    · obtain ⟨s, hs, hsname⟩ := List.mem_map.mp hname
      obtain ⟨f, hfield, hserves⟩ := h.serves s hs
      rw [hsname] at hfield
      have hfirst := named_cons_self hsname.symm ms
      cases hget : s.get d with
      | some x =>
        -- the field was given before
        refine .stop ms (.again m.2 hfield ?_ ⟨m.1, rfl⟩)
        rw [hserves.given, hget]
        rfl
      | none =>
        have hnot : f.given d = false := by
          rw [hserves.given, hget]
          rfl
        by_cases hrepeats : s.form.Repeats m.2
        · exact .stop ms (.within hfield hnot (hserves.repeats d hrepeats))
        · obtain ⟨x, hx⟩ := (hgiven s hs m (hfirst ▸ List.mem_cons_self)).resolve_right hrepeats
          obtain ⟨d₁, hread, hget₁, hkept⟩ := hserves.spells d hx
          refine .step (.known hfield hnot hread) (ih hgiven' hothers.2 ⟨t, ht, ?_⟩)
          by_cases hne : t.name = s.name
          · obtain rfl := h.eq_of_name ht hs hne
            rw [hfirst, hget] at hagain
            rcases hagain with hcount | ⟨m', hm', hagain⟩
            · left
              rw [hget₁]
              simp only [Option.toList_none, Option.toList_some, List.length_cons, List.length_nil]
                at hcount ⊢
              omega
            · rcases List.mem_cons.mp hm' with rfl | hm'
              · exact absurd hagain hrepeats
              · exact Or.inr ⟨m', hm', hagain⟩
          · rw [hkept t ht hne]
            rwa [named_cons_of_ne (hsname ▸ Ne.symm hne)] at hagain
    · have hskip : m.1 ≠ t.name := fun heq => hname (heq ▸ List.mem_map_of_mem ht)
      rw [named_cons_of_ne hskip] at hagain
      exact .step (.unknown (h.field?_eq_none hname) (hothers.1 hname))
        (ih hgiven' hothers.2 ⟨t, ht, hagain⟩)

/-- **Records are read by their known members**: drafts that the members fill come to the records
that they should, and a field that is given again is refused. -/
theorem readBy (h : k.Follows slots) {value : δ → Option α}
    (hbuild : ∀ d a, value d = some a → k.build d = .ok a) :
    (Form.record slots value).ReadBy k.read where
  spells := by
    rintro a text ⟨ms, d, hrecord, hmembers, hvalue⟩
    refine ⟨Schema.startsValue_of_isRecord hrecord,
      Schema.meets_some hrecord ?_ (hbuild d a hvalue)⟩
    refine h.takesAll_of_leads (fun s hs => ?_) hmembers.others
    rw [h.blank s hs]
    exact (hmembers.given s hs).leads
  repeats := by
    rintro text ⟨ms, hrecord, hoverfull⟩
    refine ⟨Schema.startsValue_of_isRecord hrecord, Schema.meets_none hrecord ?_⟩
    refine h.takesAll_of_again hoverfull.given hoverfull.others ?_
    obtain ⟨s, hs, hagain⟩ := hoverfull.again
    refine ⟨s, hs, hagain.imp_left fun hcount => ?_⟩
    rwa [h.blank s hs, Option.toList_none, List.length_nil, Nat.zero_add]

end Schema.Follows
end Json
end RemoteFiles
