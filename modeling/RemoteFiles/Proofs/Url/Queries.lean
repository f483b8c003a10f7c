import RemoteFiles.Proofs.Text.Cut
import RemoteFiles.Proofs.Text.Utf8
import RemoteFiles.Query
import RemoteFiles.Url.Percent
import RemoteFiles.Url.Gap

/-!
# Encoded queries

An encoded query holds a few characters only, none of which means anything in an address, so an
address keeps it as it is.

## Main definitions

* `Query.isSafe` — the characters of encoded queries.

## Main results

* `Query.isSafe_of_mem_canonical` — encoded queries hold no other characters.
* `Url.solid_of_safe`, `Url.escape_of_safe` — an address keeps them as they are.
* `Url.escape_eq_self_or` — whatever an address does not keep, it writes with percent signs.
-/

namespace RemoteFiles

/-! ### Encoded queries -/

namespace Query

/-- The characters of encoded queries. -/
def isSafe (c : Char) : Bool :=
  c.isAlphanum || c ∈ ['*', '-', '.', '_', '%', '=', '&']

/-- A byte is encoded in safe characters. -/
theorem isSafe_of_mem_encodeByte (b : UInt8) {c : Char} (h : c ∈ encodeByte b) :
    isSafe c = true := by
  have hall : ∀ n < 256, (encodeByte (UInt8.ofNat n)).all isSafe = true := by decide +kernel
  have hbyte := hall b.toNat b.toNat_lt
  rw [UInt8.ofNat_toNat] at hbyte
  exact List.all_eq_true.mp hbyte c h

theorem isSafe_of_mem_encodePair {p : String × String} {c : Char} (h : c ∈ encodePair p) :
    isSafe c = true := by
  have htext : ∀ s : String, c ∈ encodeText s → isSafe c = true := by
    intro s hs
    obtain ⟨b, _, hb⟩ := List.mem_flatMap.mp hs
    exact isSafe_of_mem_encodeByte b hb
  rw [encodePair, List.mem_append, List.mem_cons] at h
  rcases h with h | rfl | h
  · exact htext _ h
  · rfl
  · exact htext _ h

/-- Encoded queries hold safe characters only. -/
theorem isSafe_of_mem_canonical (ps : List (String × String)) {c : Char}
    (h : c ∈ (canonical ps).toList) : isSafe c = true := by
  rw [canonical, String.toList_ofList] at h
  rcases mem_intercalate h with rfl | ⟨text, htext, hc⟩
  · rfl
  · obtain ⟨p, _, rfl⟩ := List.mem_map.mp htext
    exact isSafe_of_mem_encodePair hc

theorem toNat_lt_of_isAlphanum {c : Char} (h : c.isAlphanum = true) : c.toNat < 0x7f := by
  rcases Bool.or_eq_true_iff.mp h with hletter | hdigit
  · rcases Bool.or_eq_true_iff.mp hletter with hupper | hlower
    · have hle := (of_decide_eq_true hupper).2
      exact Nat.lt_of_le_of_lt (UInt32.le_iff_toNat_le.mp hle) (by decide)
    · have hle := of_decide_eq_true (Bool.and_eq_true_iff.mp hlower).2
      exact Nat.lt_of_le_of_lt (UInt32.le_iff_toNat_le.mp hle) (by decide)
  · have hle := of_decide_eq_true (Bool.and_eq_true_iff.mp hdigit).2
    exact Nat.lt_of_le_of_lt (UInt32.le_iff_toNat_le.mp hle) (by decide)

/-- What safe characters are not: blanks, characters beyond ASCII, gaps, and what a query escapes. -/
theorem isSafe_spec {c : Char} (h : isSafe c = true) :
    0x20 < c.toNat ∧ c.toNat < 0x7f ∧ Url.isGap c = false ∧
      ∀ special, Url.escapesInQuery special (UInt8.ofNat c.toNat) = false := by
  have hlt : c.toNat < 0x7f := by
    simp only [isSafe, Bool.or_eq_true, decide_eq_true_eq, List.mem_cons, List.not_mem_nil,
      or_false] at h
    rcases h with h | h
    · exact toNat_lt_of_isAlphanum h
    · rcases h with rfl | rfl | rfl | rfl | rfl | rfl | rfl <;> decide
  have hall : ∀ n < 0x7f, isSafe (Char.ofNat n) = true →
      0x20 < n ∧ Url.isGap (Char.ofNat n) = false ∧
        ∀ special, Url.escapesInQuery special (UInt8.ofNat n) = false := by decide +kernel
  have hc := hall c.toNat hlt
  rw [Char.ofNat_toNat] at hc
  obtain ⟨hblank, hplain⟩ := hc h
  exact ⟨hblank, hlt, hplain⟩

theorem hash_notMem {query : List Char} (h : ∀ c ∈ query, isSafe c = true) : '#' ∉ query := by
  intro hmem
  exact absurd (h _ hmem) (by decide)

end Query

namespace Url

theorem solid_of_safe {cs : List Char} (h : ∀ c ∈ cs, Query.isSafe c = true) : solid cs = cs := by
  refine List.filter_eq_self.mpr fun c hc => ?_
  rw [(Query.isSafe_spec (h c hc)).2.2.1]
  rfl

/-- Safe characters are not escaped in a query. -/
theorem escape_of_safe (special : Bool) {cs : List Char} (h : ∀ c ∈ cs, Query.isSafe c = true) :
    escape (escapesInQuery special) cs = cs := by
  rw [escape, Utf8.encode_ofList]
  induction cs with
  | nil => rfl
  | cons c cs ih =>
    rw [List.forall_mem_cons] at h
    obtain ⟨_, hlt, _, hplain⟩ := Query.isSafe_spec h.1
    have hbyte : (UInt8.ofNat c.toNat).toNat = c.toNat := by
      rw [UInt8.toNat_ofNat']
      omega
    rw [Utf8.bytes_cons, Utf8.utf8EncodeChar_of_lt (Nat.lt_succ_of_lt hlt), List.singleton_append,
      List.flatMap_cons, ih h.2, escapeByte, hplain, if_neg Bool.false_ne_true, hbyte,
      Char.ofNat_toNat]
    rfl

theorem escape_append (escapes : UInt8 → Bool) (cs ds : List Char) :
    escape escapes (cs ++ ds) = escape escapes cs ++ escape escapes ds := by
  simp only [escape, Utf8.encode_ofList, Utf8.bytes_append, List.flatMap_append]

theorem escape_singleton (special : Bool) (c : Char) :
    escape (escapesInQuery special) [c] = [c] ∨ '%' ∈ escape (escapesInQuery special) [c] := by
  have hescape : ∀ b ∈ String.utf8EncodeChar c, escapesInQuery special b = true →
      '%' ∈ escape (escapesInQuery special) [c] := by
    intro b hb hescapes
    rw [escape, Utf8.encode_ofList, Utf8.bytes_cons, Utf8.bytes_nil, List.append_nil,
      List.mem_flatMap]
    refine ⟨b, hb, ?_⟩
    rw [escapeByte, if_pos hescapes]
    exact List.mem_cons_self
  by_cases hlt : c.toNat < 0x80
  · have hbytes := Utf8.utf8EncodeChar_of_lt hlt
    by_cases hescapes : escapesInQuery special (UInt8.ofNat c.toNat) = true
    · exact Or.inr (hescape _ (by rw [hbytes]; exact List.mem_cons_self) hescapes)
    · have hbyte : (UInt8.ofNat c.toNat).toNat = c.toNat := by
        rw [UInt8.toNat_ofNat']
        omega
      left
      rw [escape, Utf8.encode_ofList, Utf8.bytes_cons, hbytes, Utf8.bytes_nil, List.append_nil,
        List.flatMap_singleton, escapeByte, if_neg hescapes, hbyte, Char.ofNat_toNat]
  · -- every byte of a character beyond ASCII is escaped
    right
    obtain ⟨b, hb⟩ := List.exists_mem_of_ne_nil _ (String.utf8EncodeChar_ne_nil (c := c))
    have hle := Utf8.le_of_mem_utf8EncodeChar (Nat.not_lt.mp hlt) hb
    have hcontrol : isControl b = true := by
      rw [isControl, Bool.or_eq_true, decide_eq_true_eq, decide_eq_true_eq]
      exact Or.inr (UInt8.lt_iff_toNat_lt.mpr (Nat.lt_of_lt_of_le (by decide) hle))
    refine hescape b hb ?_
    simp only [escapesInQuery, hcontrol, Bool.true_or]

/-- **What a query does not keep as it is, it writes with percent signs.** -/
theorem escape_eq_self_or (special : Bool) (cs : List Char) :
    escape (escapesInQuery special) cs = cs ∨ '%' ∈ escape (escapesInQuery special) cs := by
  induction cs with
  | nil => exact Or.inl rfl
  | cons c cs ih =>
    rw [← List.singleton_append, escape_append, List.mem_append]
    rcases escape_singleton special c with hc | hc
    · rcases ih with hcs | hcs
      · exact Or.inl (by rw [hc, hcs])
      · exact Or.inr (Or.inr hcs)
    · exact Or.inr (Or.inl hc)

end Url
end RemoteFiles
