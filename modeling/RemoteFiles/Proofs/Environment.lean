import RemoteFiles.Config
import RemoteFiles.Proofs.Text.Number
import RemoteFiles.Proofs.Text.Utf8

/-!
# Variables

A variable that is not set is as good as an empty one.  A text is given by every variable whose
bytes are well formed, and a number by one whose text spells it.

## Main definitions

* `Environment.raw` — the bytes of a variable, none if it is not set.
* `Environment.noNumber` — how a variable that holds no number is reported.

## Main results

* `Environment.text_eq_ok_iff`, `Environment.word?_eq_ok_iff` — what is read from a variable.
* `Environment.number_read_exactly` — **a variable gives the number that it spells, and none that it
  does not spell.**
-/

namespace RemoteFiles
namespace Environment

variable {env : Environment} {key : String}

/-- The bytes of a variable, none if it is not set. -/
def raw (env : Environment) (key : String) : List UInt8 := (env.lookup key).getD []

/-- How a variable whose text is no number is reported: by its name, with the text as it is. -/
def noNumber (key text : String) (f : Text.NumberFault) : ConfigError :=
  .invalidValue key ("'" ++ text ++ "' is not a non-negative integer: " ++ f.message)

/-! ### Texts -/

/-- A variable whose bytes are well formed gives their text, and an empty one nothing. -/
theorem text?_of_raw {s : String} (h : env.raw key = Utf8.encode s) :
    env.text? key = .ok (if s = "" then none else some s) := by
  unfold raw at h
  unfold text?
  cases hlookup : env.lookup key with
  | none =>
    rw [hlookup] at h
    rw [Utf8.encode_injective (s := s) (t := "") h.symm]
    rfl
  | some bytes =>
    rw [hlookup] at h
    have hdecode : Utf8.decode? bytes = some s := Utf8.decode?_eq_some_iff.mpr h
    simp only [hdecode]

/-- A variable whose bytes are not well formed is reported by its name. -/
theorem text?_of_malformed (h : ∀ s, env.raw key ≠ Utf8.encode s) :
    ∃ detail, env.text? key = .error (.invalidValue key detail) := by
  unfold raw at h
  unfold text?
  cases hlookup : env.lookup key with
  | none =>
    rw [hlookup] at h
    exact absurd rfl (h "")
  | some bytes =>
    rw [hlookup] at h
    have hdecode : Utf8.decode? bytes = none :=
      Option.eq_none_iff_forall_ne_some.mpr fun s hs => h s (Utf8.decode?_eq_some_iff.mp hs)
    simp only [hdecode]
    exact ⟨_, rfl⟩

/-- **The text of a variable is the one that its bytes stand for.** -/
theorem text_eq_ok_iff {s : String} : env.text key = .ok s ↔ env.raw key = Utf8.encode s := by
  by_cases h : ∃ t, env.raw key = Utf8.encode t
  · obtain ⟨t, ht⟩ := h
    have htext : env.text key = .ok t := by
      rw [text, text?_of_raw ht]
      by_cases hempty : t = ""
      · simp [Except.map, hempty]
      · simp [Except.map, hempty]
    rw [htext, ht, Except.ok.injEq]
    exact ⟨congrArg _, Utf8.encode_injective⟩
  · obtain ⟨detail, herror⟩ := text?_of_malformed fun s hs => h ⟨s, hs⟩
    rw [text, herror]
    exact ⟨fun hok => (nomatch hok), fun hs => absurd ⟨s, hs⟩ h⟩

/-! ### Numbers -/

theorem word?_of_empty (h : env.raw key = []) : env.word? key = .ok none := by
  rw [word?, text?_of_raw (s := "") h]
  rfl

/-- A variable that is not empty gives a number if its trimmed text is read as one. -/
theorem word?_of_raw {s : String} (h : env.raw key = Utf8.encode s) (hs : s ≠ "") :
    env.word? key = match Text.readWord (Text.trim s) with
      | .ok w => .ok (some w)
      | .error f => .error (noNumber key s f) := by
  rw [word?, text?_of_raw h, if_neg hs]
  simp only [bind, Except.bind]
  cases Text.readWord (Text.trim s) <;> rfl

/-- A text that stands for a number is not empty. -/
theorem ne_empty_of_spells {n : Nat} {s : String} (h : Text.Spells n s) : s ≠ "" := by
  rintro rfl
  exact (Text.spells_iff.mp h).ne_nil rfl

/-- **A variable gives a number if it spells it, and nothing if it is empty.** -/
theorem word?_eq_ok_iff {o : Option UInt32} : env.word? key = .ok o ↔
    env.raw key = [] ∧ o = none ∨
      ∃ s w, env.raw key = Utf8.encode s ∧ Text.Spells w.toNat s ∧ o = some w := by
  have hempty : Utf8.encode "" = [] := rfl
  constructor
  · intro h
    by_cases hraw : ∃ s, env.raw key = Utf8.encode s
    · obtain ⟨s, hraw⟩ := hraw
      by_cases hs : s = ""
      · rw [hs, hempty] at hraw
        rw [word?_of_empty hraw, Except.ok.injEq] at h
        exact Or.inl ⟨hraw, h.symm⟩
      · rw [word?_of_raw hraw hs] at h
        cases hread : Text.readWord (Text.trim s) with
        | error f =>
          rw [hread] at h
          cases h
        | ok w =>
          rw [hread] at h
          cases h
          exact Or.inr ⟨s, w, hraw, Text.readWord_trim_eq_ok_iff.mp hread, rfl⟩
    · obtain ⟨detail, herror⟩ := text?_of_malformed fun s hs => hraw ⟨s, hs⟩
      rw [word?, herror] at h
      cases h
  · rintro (⟨hraw, rfl⟩ | ⟨s, w, hraw, hspells, rfl⟩)
    · exact word?_of_empty hraw
    · rw [word?_of_raw hraw (ne_empty_of_spells hspells),
        Text.readWord_trim_eq_ok_iff.mpr hspells]

/-- A variable whose text stands for no number below `2 ^ 32` is reported. -/
theorem word?_of_not_spells {s : String} (h : env.raw key = Utf8.encode s) (hs : s ≠ "")
    (hnot : ∀ n < 2 ^ 32, ¬Text.Spells n s) : ∃ f, env.word? key = .error (noNumber key s f) := by
  rw [word?_of_raw h hs]
  cases hread : Text.readWord (Text.trim s) with
  | error f => exact ⟨f, rfl⟩
  | ok w => exact absurd (Text.readWord_trim_eq_ok_iff.mp hread) (hnot w.toNat w.toNat_lt)

/-- **A variable gives the number that it spells, and none that it does not spell.**  Its text,
which is not empty, is read as a number if, between blanks, it is a plus sign or none and decimal
digits that stand for that number.  Any other text is reported with the name of the variable and in
full: one of blanks only, a sign alone, one with any other character or with blanks inside, and a
number from `2 ^ 32` on, however long. -/
theorem number_read_exactly (env : Environment) (key : String) {s : String}
    (h : env.lookup key = some (Utf8.encode s)) (hs : s ≠ "") :
    (∀ w : UInt32, env.word? key = .ok (some w) ↔ Text.Spells w.toNat s) ∧
    ((∀ n < 2 ^ 32, ¬Text.Spells n s) → ∃ f : Text.NumberFault,
      env.word? key = .error (noNumber key s f) ∧
      (noNumber key s f).message = "invalid value for " ++ key ++ ": " ++
        ("'" ++ s ++ "' is not a non-negative integer: " ++ f.message)) ∧
    (Text.Malformed s → ∃ f, env.word? key = .error (noNumber key s f)) := by
  have hraw : env.raw key = Utf8.encode s := by
    rw [raw, h]
    rfl
  refine ⟨fun w => ?_, fun hnot => ?_, fun hmalformed => ?_⟩
  · rw [word?_of_raw hraw hs, ← Text.readWord_trim_eq_ok_iff]
    cases Text.readWord (Text.trim s) with
    | error f => exact ⟨fun hok => (nomatch hok), fun hok => (nomatch hok)⟩
    | ok w' => simp
  · obtain ⟨f, hf⟩ := word?_of_not_spells hraw hs hnot
    exact ⟨f, hf, rfl⟩
  · exact word?_of_not_spells hraw hs fun n hn => hmalformed.not_spells hn

/-- The greatest number, with a sign, a zero in front and blanks around it, and the next one. -/
theorem greatest_number_read :
    Environment.word? [("TTL", Utf8.encode "\t+04294967295 ")] "TTL" = .ok (some 4294967295) ∧
      ∃ f, Environment.word? [("TTL", Utf8.encode "4294967296")] "TTL" =
        .error (noNumber "TTL" "4294967296" f) := by
  have hgreatest : Text.Spells 4294967295 "\t+04294967295 " :=
    ⟨['\t'], '+' :: "04294967295".toList, [' '], rfl, List.all_eq_true.mp (by decide),
      List.all_eq_true.mp (by decide),
      .plus (by decide) (List.all_eq_true.mp (by decide)) (by decide)⟩
  have hnext : Text.Spells 4294967296 "4294967296" :=
    ⟨[], "4294967296".toList, [], rfl, List.forall_mem_nil _, List.forall_mem_nil _,
      .bare (by decide) (List.all_eq_true.mp (by decide)) (by decide)⟩
  obtain ⟨hread, -, -⟩ := number_read_exactly [("TTL", Utf8.encode "\t+04294967295 ")] "TTL"
    (s := "\t+04294967295 ") rfl (by decide)
  obtain ⟨-, -, hmalformed⟩ := number_read_exactly [("TTL", Utf8.encode "4294967296")] "TTL"
    (s := "4294967296") rfl (by decide)
  exact ⟨(hread 4294967295).mpr hgreatest, hmalformed (.large hnext (by decide))⟩

end Environment
end RemoteFiles
