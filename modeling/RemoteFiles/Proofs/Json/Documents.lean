import RemoteFiles.Proofs.Json.Records

/-!
# Documents of any shape

A reader that takes any document to the value it stands for, member by member and in the order in
which they are written, and with which members that nobody expects or that are given twice can be
told.

## Main definitions

* `Json.Value.read` — the reader.
* `Json.Value.IsExact` — values whose numbers are all counts below `2 ^ 64`.

## Main results

* `Json.Value.decode_write` — **an exact value is read back from its text.**
* `Json.Value.encode_write_inj` — exact values with the same text are the same.
-/

namespace RemoteFiles
namespace Json

variable {α : Type}

/-! ### Records as lists of members -/

/-- Read a member, after the opening quote of its key. -/
def readEntry (read : Reader α) : Reader (String × α) := fun s => do
  let (key, s) ← readString s
  let s ← Schema.readColon s
  let (a, s) ← read s
  return ((key, a), s)

/-- Read the members after the first, and the closing bracket; each takes a byte at least. -/
def readEntries (read : Reader α) : Nat → Reader (List (String × α))
  | 0, s => .error ⟨.endInRecord, s⟩
  | fuel + 1, s =>
    match skipSpace s with
    | [] => .error ⟨.endInRecord, []⟩
    | Byte.recordClose :: s => .ok ([], s)
    | Byte.comma :: s =>
      match skipSpace s with
      | Byte.quote :: s => do
        let (m, s) ← readEntry read s
        let (ms, s) ← readEntries read fuel s
        return (m :: ms, s)
      | s => .error (.next .expectedKey s)
    | _ :: s => .error ⟨.expectedRecordEnd, s⟩

/-- Read a record after its opening bracket. -/
def readEntryList (read : Reader α) : Reader (List (String × α)) := fun s =>
  match skipSpace s with
  | Byte.recordClose :: s => .ok ([], s)
  | Byte.quote :: s => do
    let (m, s) ← readEntry read s
    let (ms, s) ← readEntries read (s.length + 1) s
    return (m :: ms, s)
  | s => .error (.next .expectedKey s)

/-- A member is read when its value is. -/
theorem readEntry_memberText {read : Reader α} {name : String} {text : Input} {a : α}
    (h : Reads read text a) {rest : Input} (hrest : EndsNumber rest) :
    readEntry read (Utf8.bytes (name.toList.flatMap escape) ++
      Byte.quote :: Byte.colon :: (text ++ rest)) = .ok ((name, a), rest) := by
  rw [readEntry, readString_escaped]
  change (read (text ++ rest) >>= _) = _
  rw [h rest hrest]
  rfl

/-- Members with a comma in front of each are read, up to the end of the record. -/
theorem readEntries_followed {read : Reader α} (text : α → Input) {ms : List (String × α)}
    (h : ∀ m ∈ ms, Reads read (text m.2) m.2) (rest : Input) : ∀ {fuel : Nat}, ms.length < fuel →
      readEntries read fuel (followed (ms.map fun m => memberText (m.1, text m.2)) ++
        Byte.recordClose :: rest) = .ok (ms, rest) := by
  induction ms with
  | nil =>
    intro fuel hfuel
    obtain ⟨fuel, rfl⟩ := Nat.exists_eq_succ_of_ne_zero (Nat.ne_of_gt hfuel)
    rfl
  | cons m ms ih =>
    intro fuel hfuel
    obtain ⟨fuel, rfl⟩ := Nat.exists_eq_succ_of_ne_zero (Nat.ne_of_gt (Nat.zero_lt_of_lt hfuel))
    rw [List.forall_mem_cons] at h
    obtain ⟨hread, hrest⟩ := h
    rw [List.map_cons, followed_cons, List.cons_append, List.append_assoc, memberText_append]
    change (readEntry read _ >>= _) = _
    rw [readEntry_memberText hread (endsNumber_followed _ _ (by decide))]
    change (readEntries read fuel _ >>= _) = _
    rw [ih hrest (Nat.lt_of_succ_lt_succ hfuel)]
    rfl

/-- A record is read when the values of its members are. -/
theorem readEntryList_separated {read : Reader α} (text : α → Input) {ms : List (String × α)}
    (h : ∀ m ∈ ms, Reads read (text m.2) m.2) (rest : Input) :
    readEntryList read (separated (ms.map fun m => memberText (m.1, text m.2)) ++
      Byte.recordClose :: rest) = .ok (ms, rest) := by
  cases ms with
  | nil => rfl
  | cons m ms =>
    rw [List.forall_mem_cons] at h
    obtain ⟨hread, hrest⟩ := h
    rw [List.map_cons, separated, List.append_assoc, memberText_append]
    change (readEntry read _ >>= _) = _
    rw [readEntry_memberText hread (endsNumber_followed _ _ (by decide))]
    change (readEntries read _ _ >>= _) = _
    rw [readEntries_followed text hrest rest (length_lt_length_followed _ ms _)]
    rfl

/-! ### Values -/

/-- The value of a number: a count, if it is one. -/
def Number.toValue : Number → Value
  | natural n => .count n.toNat
  | negative m => .real (-(UInt64.ofNat m).toFloat)
  | real x => .real x

/-- Read a value whose parts lie at most so deep. -/
def readWithin : Nat → Reader Value
  | 0, s => .error ⟨.endInValue, s⟩
  | fuel + 1, s =>
    match skipSpace s with
    | [] => .error ⟨.endInValue, []⟩
    | Byte.letterN :: s => (readWord restOfNull s).map fun s => (.null, s)
    | Byte.letterT :: s => (readWord restOfTrue s).map fun s => (.flag true, s)
    | Byte.letterF :: s => (readWord restOfFalse s).map fun s => (.flag false, s)
    | Byte.quote :: s => (readString s).map fun (t, s) => (.text t, s)
    | Byte.listOpen :: s =>
      (readList (readWithin fuel) (Byte.listOpen :: s)).map fun (vs, s) => (.list vs, s)
    | Byte.recordOpen :: s =>
      (readEntryList (readWithin fuel) s).map fun (ms, s) => (.record ms, s)
    | b :: s =>
      if b = Byte.minus ∨ isDigit b then
        (readNumber (b :: s)).map fun (n, s) => (n.toValue, s)
      else .error ⟨.expectedValue, s⟩

namespace Value

/-- Read a value.  Every step down takes a byte, so the fuel lasts. -/
def read : Reader Value := fun s => readWithin (s.length + 1) s

/-- A value whose numbers are all counts below `2 ^ 64`. -/
inductive IsExact : Value → Prop where
  | null : IsExact null
  | flag (b : Bool) : IsExact (flag b)
  | count {n : Nat} (h : n < UInt64.size) : IsExact (count n)
  | text (s : String) : IsExact (text s)
  | list {items : List Value} (h : ∀ v ∈ items, IsExact v) : IsExact (list items)
  | record {members : List (String × Value)} (h : ∀ m ∈ members, IsExact m.2) :
      IsExact (record members)

end Value

/-! ### Reading values back -/

/-- A value that starts with a digit is a number. -/
theorem readWithin_digit (fuel : Nat) {b : UInt8} (s : Input) (h : isDigit b = true) :
    readWithin (fuel + 1) (b :: s) = (readNumber (b :: s)).map fun (n, s) => (n.toValue, s) := by
  rw [readWithin, skipSpace_cons s (isSpace_of_isDigit h)]
  -- every case before the last one is of a byte that is no digit
  split
  · next hb => cases hb
  · next hb => rw [(List.cons.inj hb).1] at h; cases h
  · next hb => rw [(List.cons.inj hb).1] at h; cases h
  · next hb => rw [(List.cons.inj hb).1] at h; cases h
  · next hb => rw [(List.cons.inj hb).1] at h; cases h
  · next hb => rw [(List.cons.inj hb).1] at h; cases h
  · next hb => rw [(List.cons.inj hb).1] at h; cases h
  · next hb =>
    obtain ⟨rfl, rfl⟩ := List.cons.inj hb
    rw [if_pos (Or.inr h)]

namespace Value

/-- The text of an exact value can stand in a list. -/
theorem IsExact.startsValue {v : Value} (h : v.IsExact) : StartsValue (Utf8.bytes v.chars) := by
  cases h with
  | null => exact ⟨Byte.letterN, _, rfl, by decide, by decide⟩
  | flag b => cases b <;> exact ⟨_, _, rfl, by decide, by decide⟩
  | @count n _ =>
    obtain ⟨b, s, hbytes, hdigit⟩ := exists_bytes_digitsOf n
    refine ⟨b, s, by rw [chars, hbytes], isSpace_of_isDigit hdigit, ?_⟩
    rintro rfl
    cases hdigit
  | text s => rw [chars]; exact startsValue_quote s
  | list _ => rw [bytes_list]; exact ⟨Byte.listOpen, _, rfl, by decide, by decide⟩
  | record _ => rw [bytes_record]; exact startsValue_recordText _

/-- The items of a list are shorter than the list. -/
theorem length_lt_of_mem_list {items : List Value} {v : Value} (h : v ∈ items) :
    (Utf8.bytes v.chars).length < (Utf8.bytes (list items).chars).length := by
  have hitem := length_le_length_separated
    (List.mem_map.mpr ⟨v, h, rfl⟩ : Utf8.bytes v.chars ∈ items.map fun v => Utf8.bytes v.chars)
  rw [bytes_list, listText, List.length_cons, List.length_append]
  omega

/-- The values in a record are shorter than the record. -/
theorem length_lt_of_mem_record {members : List (String × Value)} {m : String × Value}
    (h : m ∈ members) :
    (Utf8.bytes m.2.chars).length < (Utf8.bytes (record members).chars).length := by
  have hmember := length_le_length_separated
    (List.mem_map.mpr ⟨_, List.mem_map.mpr ⟨m, h, rfl⟩, rfl⟩ :
      memberText (m.1, Utf8.bytes m.2.chars) ∈
        (members.map fun m => (m.1, Utf8.bytes m.2.chars)).map memberText)
  rw [memberText, List.length_append, List.length_cons] at hmember
  rw [bytes_record, recordText, List.length_cons, List.length_append]
  dsimp only at hmember ⊢
  omega

/-- An exact value is read from its text with fuel for every byte. -/
theorem IsExact.readsWithin : ∀ {fuel : Nat} {v : Value}, v.IsExact →
    (Utf8.bytes v.chars).length ≤ fuel → Reads (readWithin fuel) (Utf8.bytes v.chars) v := by
  -- each step down takes a byte at least, so the parts of a value have fuel left
  intro fuel
  induction fuel with
  | zero =>
    intro v hv hlength
    obtain ⟨b, s, hbytes, _⟩ := hv.startsValue
    rw [hbytes] at hlength
    exact absurd hlength (Nat.not_succ_le_zero _)
  | succ fuel ih =>
    intro v hv hlength rest hrest
    cases hv with
    | null => rfl
    | flag b => cases b <;> rfl
    | @count n hn =>
      have hnumber := readNumber_digitsOf hn hrest
      obtain ⟨b, s, hbytes, hdigit⟩ := exists_bytes_digitsOf n
      rw [hbytes, List.cons_append] at hnumber
      rw [chars, hbytes, List.cons_append, readWithin_digit fuel _ hdigit, hnumber]
      change Except.ok (Value.count (UInt64.ofNat n).toNat, rest) = _
      rw [UInt64.toNat_ofNat_of_lt' hn]
    | text s =>
      rw [chars, bytes_quote, List.cons_append, List.append_assoc]
      change (readString _).map _ = _
      rw [List.singleton_append, readString_escaped]
      rfl
    | @list items h =>
      have hitems : Reads (readList (readWithin fuel))
          (listText (items.map fun v => Utf8.bytes v.chars)) items := by
        refine reads_list fun v hmem => ⟨(h v hmem).startsValue, ih (h v hmem) ?_⟩
        exact Nat.le_of_lt_succ (Nat.lt_of_lt_of_le (length_lt_of_mem_list hmem) hlength)
      rw [bytes_list]
      change Except.map _ (readList (readWithin fuel)
        (listText (items.map fun v => Utf8.bytes v.chars) ++ rest)) = _
      rw [hitems rest hrest]
      rfl
    | @record members h =>
      have hvalues : ∀ m ∈ members, Reads (readWithin fuel) (Utf8.bytes m.2.chars) m.2 := by
        intro m hmem
        refine ih (h m hmem) ?_
        exact Nat.le_of_lt_succ (Nat.lt_of_lt_of_le (length_lt_of_mem_record hmem) hlength)
      have hmembers := readEntryList_separated (fun v : Value => Utf8.bytes v.chars) hvalues rest
      rw [bytes_record, recordText, List.map_map, List.cons_append, List.append_assoc,
        List.singleton_append]
      change Except.map _ (readEntryList (readWithin fuel) (separated (members.map fun m =>
        memberText (m.1, Utf8.bytes m.2.chars)) ++ Byte.recordClose :: rest)) = _
      rw [hmembers]
      rfl

/-- **An exact value is read back from its text.** -/
theorem decode_write {v : Value} (h : v.IsExact) :
    decode read (Utf8.encode v.write) = .ok v := by
  have hread := h.readsWithin (Nat.le_succ _) [] endsNumber_nil
  rw [List.append_nil] at hread
  unfold decode readOnly read
  rw [write, Utf8.encode_ofList, hread]
  rfl

/-- Exact values with the same text are the same. -/
theorem encode_write_inj {v w : Value} (hv : v.IsExact) (hw : w.IsExact)
    (h : Utf8.encode v.write = Utf8.encode w.write) : v = w := by
  have hread := decode_write hv
  rw [h, decode_write hw] at hread
  exact (Except.ok.inj hread).symm

end Value
end Json
end RemoteFiles
