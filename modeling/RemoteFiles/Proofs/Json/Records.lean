import RemoteFiles.Proofs.Json.Sequences

/-!
# Records

A record that is written member by member is read into the draft that its members fill.

## Main definitions

* `Json.recordText` — the text of a record from the texts of its members' values.
* `Json.Schema.Fills` — members fill a draft, one after another.

## Main results

* `Json.bytes_record` — the bytes of a record.
* `Json.Schema.reads_record` — **a record is read when its members fill a draft that is complete.**
-/

namespace RemoteFiles
namespace Json

variable {α β δ : Type}

/-! ### The text of a record -/

/-- The text of a member: the key in quotes, a colon and the text of the value. -/
def memberText (m : String × Input) : Input := Utf8.bytes (quote m.1) ++ Byte.colon :: m.2

/-- The text of a record whose members have the given keys and texts. -/
def recordText (ms : List (String × Input)) : Input :=
  Byte.recordOpen :: (separated (ms.map memberText) ++ [Byte.recordClose])

theorem memberText_append (m : String × Input) (rest : Input) :
    memberText m ++ rest = Byte.quote :: (Utf8.bytes (m.1.toList.flatMap escape) ++
      Byte.quote :: Byte.colon :: (m.2 ++ rest)) := by
  rw [memberText, bytes_quote, List.cons_append, List.cons_append, List.append_assoc,
    List.append_assoc]
  rfl

theorem memberChars_eq_map (members : List (String × Value)) :
    Value.memberChars members = members.map fun m => quote m.1 ++ ':' :: m.2.chars := by
  induction members with
  | nil => rw [Value.memberChars, List.map_nil]
  | cons m ms ih =>
    obtain ⟨name, v⟩ := m
    rw [Value.memberChars, ih, List.map_cons]

/-- The bytes of a record: those of its members, separated. -/
theorem bytes_record (members : List (String × Value)) :
    Utf8.bytes (Value.record members).chars =
      recordText (members.map fun m => (m.1, Utf8.bytes m.2.chars)) := by
  have hmember : (fun m : String × Value => Utf8.bytes (quote m.1 ++ ':' :: m.2.chars)) =
      fun m => memberText (m.1, Utf8.bytes m.2.chars) := by
    funext m
    rw [Utf8.bytes_append, Utf8.bytes_cons]
    rfl
  rw [Value.chars, Utf8.bytes_append, Utf8.bytes_cons, bytes_joined, memberChars_eq_map,
    List.map_map, recordText, List.map_map]
  change Byte.recordOpen :: (separated (members.map fun m =>
    Utf8.bytes (quote m.1 ++ ':' :: m.2.chars)) ++ [Byte.recordClose]) = _
  rw [hmember]
  rfl

theorem startsValue_recordText (ms : List (String × Input)) : StartsValue (recordText ms) :=
  ⟨Byte.recordOpen, _, rfl, by decide, by decide⟩

/-! ### Members -/

/-- A field takes into a draft what its reader reads. -/
theorem reads_field {name : String} {get : δ → Option β} {set : δ → β → δ} {read : Reader β}
    {text : Input} {b : β} (h : Reads read text b) (d : δ) :
    Reads ((Field.of name get set read).read d) text (set d b) := by
  intro rest hrest
  change (read (text ++ rest)).map _ = _
  rw [h rest hrest]
  rfl

namespace Schema

variable {k : Schema δ α}

/-- Members fill a draft: each is of a field that the draft does not have yet. -/
inductive Fills (k : Schema δ α) : δ → List (String × Input) → δ → Prop where
  | nil (d : δ) : Fills k d [] d
  | cons {name : String} {text : Input} {ms : List (String × Input)} {f : Field δ} {d d₁ d₂ : δ}
      (hfield : k.field? name = some f) (hgiven : f.given d = false)
      (hread : Reads (f.read d) text d₁) (hrest : Fills k d₁ ms d₂) :
      Fills k d ((name, text) :: ms) d₂

/-- A member is read into a draft that does not have its field yet. -/
theorem readMember_memberText {name : String} {text : Input} {f : Field δ} {d d₁ : δ}
    (hfield : k.field? name = some f) (hgiven : f.given d = false)
    (hread : Reads (f.read d) text d₁) {rest : Input} (hrest : EndsNumber rest) :
    k.readMember d (Utf8.bytes (name.toList.flatMap escape) ++
      Byte.quote :: Byte.colon :: (text ++ rest)) = .ok (d₁, rest) := by
  rw [readMember, readString_escaped]
  simp only [bind, Except.bind, hfield, hgiven, Bool.false_eq_true, if_false]
  exact hread rest hrest

theorem readMembers_comma (k : Schema δ α) (fuel : Nat) (d : δ) (s : Input) :
    k.readMembers (fuel + 1) d (Byte.comma :: Byte.quote :: s) = (do
      let (d, s) ← k.readMember d s
      k.readMembers fuel d s) := by
  rw [readMembers]
  rfl

/-- Members with a comma in front of each are read into a draft, up to the end of the record. -/
theorem readMembers_followed {d d₁ : δ} {ms : List (String × Input)} (h : Fills k d ms d₁)
    (rest : Input) : ∀ {fuel : Nat}, ms.length < fuel →
      k.readMembers fuel d (followed (ms.map memberText) ++ Byte.recordClose :: rest) =
        .ok (d₁, rest) := by
  induction h with
  | nil d =>
    intro fuel hfuel
    obtain ⟨fuel, rfl⟩ := Nat.exists_eq_succ_of_ne_zero (Nat.ne_of_gt hfuel)
    rfl
  | cons hfield hgiven hread _ ih =>
    intro fuel hfuel
    obtain ⟨fuel, rfl⟩ := Nat.exists_eq_succ_of_ne_zero (Nat.ne_of_gt (Nat.zero_lt_of_lt hfuel))
    rw [List.map_cons, followed_cons, List.cons_append, List.append_assoc, memberText_append,
      readMembers_comma,
      readMember_memberText hfield hgiven hread (endsNumber_followed _ _ (by decide))]
    exact ih (Nat.lt_of_succ_lt_succ hfuel)

/-- The members of a record are read into the blank draft. -/
theorem readRecord_separated {ms : List (String × Input)} {d : δ} (h : Fills k k.blank ms d)
    (rest : Input) :
    k.readRecord (separated (ms.map memberText) ++ Byte.recordClose :: rest) = .ok (d, rest) := by
  cases h with
  | nil => rfl
  | @cons name text ms f _ d₁ _ hfield hgiven hread hrest =>
    rw [List.map_cons, separated, List.append_assoc, memberText_append]
    change (k.readMember k.blank _ >>= _) = _
    rw [readMember_memberText hfield hgiven hread (endsNumber_followed _ _ (by decide))]
    exact readMembers_followed hrest rest (length_lt_length_followed memberText ms _)

/-- **A record is read when its members fill a draft that is complete.** -/
theorem reads_record {ms : List (String × Input)} {d : δ} {a : α} (h : Fills k k.blank ms d)
    (hbuild : k.build d = .ok a) : Reads k.read (recordText ms) a := by
  intro rest _
  rw [recordText, List.cons_append, List.append_assoc, List.singleton_append]
  change (k.readRecord _ >>= _) = _
  rw [readRecord_separated h rest]
  simp only [bind, Except.bind, hbuild]

end Schema
end Json
end RemoteFiles
