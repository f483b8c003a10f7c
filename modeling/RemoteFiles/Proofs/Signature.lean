import RemoteFiles.Proofs.Headers

/-!
# What a signature binds

The text that is signed is a row of lines, and so is the canonical request whose hash is the last of
them.  As long as no field breaks its line the rows can be told apart line by line, and each line
tells its field: two requests are signed alike only if they agree in every field that is covered, or
if the hash of two different canonical requests is the same.

## Main definitions

* `Text.IsLine` — texts of one line.
* `Signature.requestLines`, `Signature.signedLines` — the lines of the two texts.
* `Signature.canonical` — the canonical request that is hashed into the signed text.

## Main results

* `Text.lines_injective` — a text can be cut into lines in one way only.
* `Signature.fields_of_canonicalRequest` — a canonical request tells its fields.
* `Signature.signed_text_binds_fields` — **equal texts are signed for equal fields, or for two
  canonical requests with one hash.**
-/

namespace RemoteFiles

/-! ### Texts of one line -/

namespace Text

/-- A text of one line. -/
def IsLine (s : String) : Prop := '\n' ∉ s.toList

instance (s : String) : Decidable (IsLine s) := inferInstanceAs (Decidable (_ ∉ _))

@[simp] theorem isLine_append {s t : String} : IsLine (s ++ t) ↔ IsLine s ∧ IsLine t := by
  simp [IsLine, not_or]

/-- What is trimmed is a part of what was there before. -/
theorem mem_of_mem_trim {s : String} {c : Char} (h : c ∈ (trim s).toList) : c ∈ s.toList := by
  rw [trim, String.toList_ofList, trimChars, trimFront, List.mem_reverse] at h
  have hback : c ∈ (trimFront s.toList).reverse := (List.dropWhile_suffix _).subset h
  exact (List.dropWhile_suffix _).subset (List.mem_reverse.mp hback)

theorem isLine_trim {s : String} (h : IsLine s) : IsLine (trim s) :=
  fun hmem => h (mem_of_mem_trim hmem)

/-- **A text can be cut into lines in one way only.** -/
theorem lines_injective {ls ms : List String} (hl : ∀ l ∈ ls, IsLine l) (hm : ∀ m ∈ ms, IsLine m)
    (hls : ls ≠ []) (hms : ms ≠ []) (h : "\n".intercalate ls = "\n".intercalate ms) : ls = ms := by
  have hcut : ∀ {ks : List String}, (∀ k ∈ ks, IsLine k) → ks ≠ [] →
      ("\n".intercalate ks).toList.splitOn '\n' = ks.map String.toList := by
    intro ks hk hks
    rw [String.toList_intercalate]
    refine List.splitOn_intercalate '\n' ?_ (mt List.map_eq_nil_iff.mp hks)
    intro chars hchars
    obtain ⟨k, hmem, rfl⟩ := List.mem_map.mp hchars
    exact hk k hmem
  have hchars : ls.map String.toList = ms.map String.toList := by
    rw [← hcut hl hls, h, hcut hm hms]
  exact (List.map_inj_right fun _ _ => String.toList_inj.mp).mp hchars

end Text

open Text (IsLine isLine_trim lines_injective trim)

theorem isLine_of_printable {s : String} (h : ∀ c ∈ s.toList, isPrintable c = true) :
    IsLine s := by
  intro hmem
  have hprintable := h _ hmem
  exact absurd hprintable (by decide)

/-! ### Hashes as text -/

namespace Hex

theorem digit_injective {m n : Nat} (hm : m < 16) (hn : n < 16) (h : digit m = digit n) : m = n := by
  have hall : ∀ m < 16, ∀ n < 16, digit m = digit n → m = n := by decide
  exact hall m hm n hn h

theorem byte_injective {a b : UInt8} (h : byte a = byte b) : a = b := by
  have ha := a.toNat_lt
  have hb := b.toNat_lt
  simp only [byte, List.cons.injEq, and_true] at h
  have hhigh := digit_injective (by omega) (by omega) h.1
  have hlow := digit_injective (Nat.mod_lt _ (by decide)) (Nat.mod_lt _ (by decide)) h.2
  exact UInt8.toNat_inj.mp (by omega)

/-- Bytes are told by their digits. -/
theorem encode_injective {as bs : List UInt8} (h : encode as = encode bs) : as = bs := by
  have hchars : as.flatMap byte = bs.flatMap byte := String.ofList_injective h
  clear h
  induction as generalizing bs with
  | nil =>
    cases bs with
    | nil => rfl
    | cons b bs => simp [byte] at hchars
  | cons a as ih =>
    cases bs with
    | nil => simp [byte] at hchars
    | cons b bs =>
      rw [List.flatMap_cons, List.flatMap_cons] at hchars
      obtain ⟨hbyte, hrest⟩ := List.append_inj hchars rfl
      rw [byte_injective hbyte, ih hrest]

theorem isLine_encode (bs : List UInt8) : IsLine (encode bs) := by
  refine isLine_of_printable fun c hc => ?_
  obtain ⟨n, hn, rfl⟩ := exists_digit_of_mem_flatMap_byte (by simpa [encode] using hc)
  have hall : ∀ n < 16, isPrintable (digit n) = true := by decide
  exact hall n hn

end Hex

namespace Calendar

theorem isLine_stamp (time : Int) : IsLine (stamp time) := by
  refine isLine_of_printable fun c hc => ?_
  rw [stamp, String.toList_ofList] at hc
  exact isPrintable_of_mem_stampChars hc

end Calendar

namespace Signature

/-! ### Canonical requests -/

/-- The fields of a canonical request, each on one line. -/
structure OnLines (s : Subject) : Prop where
  method : IsLine s.method
  query : IsLine s.query
  host : IsLine s.host

/-- The lines of a canonical request. -/
def requestLines (s : Subject) (date payloadHash : String) : List String :=
  [s.method, "/", s.query, "host:" ++ trim s.host, "x-date:" ++ trim date,
    "x-content-sha256:" ++ trim payloadHash, "content-type:" ++ trim contentType, "",
    signedHeaders, payloadHash]

theorem canonicalRequest_eq (s : Subject) (date payloadHash : String) :
    canonicalRequest s date payloadHash = "\n".intercalate (requestLines s date payloadHash) := by
  simp only [canonicalRequest, requestLines, headerLine, String.intercalate_cons_cons,
    String.intercalate_singleton, String.append_assoc]
  rfl

theorem isLine_of_mem_requestLines {s : Subject} {date payloadHash : String} (h : OnLines s)
    (hdate : IsLine date) (hhash : IsLine payloadHash) :
    ∀ l ∈ requestLines s date payloadHash, IsLine l := by
  have hfixed : IsLine "/" ∧ IsLine "host:" ∧ IsLine "x-date:" ∧ IsLine "x-content-sha256:" ∧
      IsLine "content-type:" ∧ IsLine (trim contentType) ∧ IsLine "" ∧ IsLine signedHeaders := by
    decide
  simp [requestLines, h.method, h.query, hhash, hfixed, isLine_trim h.host, isLine_trim hdate,
    isLine_trim hhash]

/-- **A canonical request tells its fields**: the method, the query, the host and the date without
the blanks around them, and the hash of the body. -/
theorem fields_of_canonicalRequest {s s' : Subject} {date date' hash hash' : String}
    (h : OnLines s) (h' : OnLines s') (hdate : IsLine date) (hdate' : IsLine date')
    (hhash : IsLine hash) (hhash' : IsLine hash')
    (heq : canonicalRequest s date hash = canonicalRequest s' date' hash') :
    s.method = s'.method ∧ s.query = s'.query ∧ trim s.host = trim s'.host ∧
      trim date = trim date' ∧ hash = hash' := by
  rw [canonicalRequest_eq, canonicalRequest_eq] at heq
  have hlines := lines_injective (isLine_of_mem_requestLines h hdate hhash)
    (isLine_of_mem_requestLines h' hdate' hhash') (List.cons_ne_nil _ _) (List.cons_ne_nil _ _) heq
  simp only [requestLines, List.cons.injEq, String.append_right_inj, true_and, and_true] at hlines
  obtain ⟨hmethod, hquery, hhost, hday, _, hpayload⟩ := hlines
  exact ⟨hmethod, hquery, hhost, hday, hpayload⟩

/-! ### Signed texts -/

/-- The canonical request that is hashed into the text that is signed. -/
def canonical (s : Subject) : String :=
  canonicalRequest s (Calendar.stamp s.time) (hashText s.body)

/-- The lines of the text that is signed. -/
def signedLines (s : Subject) : List String :=
  [algorithm, Calendar.stamp s.time, scope s (Calendar.stamp s.time),
    hashText (Utf8.encode (canonical s))]

theorem stringToSign_eq (s : Subject) : stringToSign s = "\n".intercalate (signedLines s) := by
  simp only [stringToSign, signedLines, canonical, String.intercalate_cons_cons,
    String.intercalate_singleton, String.append_assoc]

theorem isLine_dayOf {date : String} (h : IsLine date) : IsLine (dayOf date) := by
  intro hmem
  rw [dayOf, String.toList_ofList] at hmem
  exact h (List.mem_of_mem_take hmem)

theorem isLine_of_mem_signedLines {s : Subject} (hregion : IsLine s.region)
    (hservice : IsLine s.service) : ∀ l ∈ signedLines s, IsLine l := by
  have hfixed : IsLine algorithm ∧ IsLine "/" ∧ IsLine "/request" := by decide
  have hstamp := Calendar.isLine_stamp s.time
  have hhash : IsLine (hashText (Utf8.encode (canonical s))) := Hex.isLine_encode _
  simp [signedLines, scope, hfixed, hstamp, hhash, isLine_dayOf hstamp, hregion, hservice]

/-- A signed text tells its date, its scope and the hash of its canonical request. -/
theorem parts_of_stringToSign {s s' : Subject} (hregion : IsLine s.region)
    (hservice : IsLine s.service) (hregion' : IsLine s'.region) (hservice' : IsLine s'.service)
    (heq : stringToSign s = stringToSign s') :
    Calendar.stamp s.time = Calendar.stamp s'.time ∧
      s.region ++ "/" ++ s.service = s'.region ++ "/" ++ s'.service ∧
      Sha256.digest (Utf8.encode (canonical s)) = Sha256.digest (Utf8.encode (canonical s')) := by
  rw [stringToSign_eq, stringToSign_eq] at heq
  have hlines := lines_injective (isLine_of_mem_signedLines hregion hservice)
    (isLine_of_mem_signedLines hregion' hservice') (List.cons_ne_nil _ _) (List.cons_ne_nil _ _) heq
  simp only [signedLines, List.cons.injEq, true_and, and_true] at hlines
  obtain ⟨hdate, hscope, hhash⟩ := hlines
  refine ⟨hdate, ?_, Hex.encode_injective hhash⟩
  -- the days are the same, so the scopes differ at most in what is between the day and the end
  simp only [scope, hdate, String.append_assoc, String.append_right_inj] at hscope
  simp only [← String.append_assoc, String.append_left_inj] at hscope
  exact hscope

/-- **Equal texts are signed for equal fields, or for two canonical requests with one hash.**  A
canonical request tells its fields.  And if two subjects are signed with one text, they have the same
date and the same region and service, and either one canonical request, hence the same method, query,
host and body hash, or two different ones whose hash is the same. -/
theorem signed_text_binds_fields {s s' : Subject} (h : OnLines s) (h' : OnLines s') :
    (∀ date date' hash hash' : String, IsLine date → IsLine date' → IsLine hash → IsLine hash' →
      canonicalRequest s date hash = canonicalRequest s' date' hash' →
        s.method = s'.method ∧ s.query = s'.query ∧ trim s.host = trim s'.host ∧
          trim date = trim date' ∧ hash = hash') ∧
    (IsLine s.region → IsLine s.service → IsLine s'.region → IsLine s'.service →
      stringToSign s = stringToSign s' →
        Calendar.stamp s.time = Calendar.stamp s'.time ∧
        s.region ++ "/" ++ s.service = s'.region ++ "/" ++ s'.service ∧
        ((canonical s = canonical s' ∧ s.method = s'.method ∧ s.query = s'.query ∧
            trim s.host = trim s'.host ∧ hashText s.body = hashText s'.body) ∨
          (canonical s ≠ canonical s' ∧
            Sha256.digest (Utf8.encode (canonical s)) =
              Sha256.digest (Utf8.encode (canonical s'))))) := by
  refine ⟨?_, ?_⟩
  · intro date date' hash hash' hdate hdate' hhash hhash' heq
    exact fields_of_canonicalRequest h h' hdate hdate' hhash hhash' heq
  · intro hregion hservice hregion' hservice' heq
    obtain ⟨hdate, hscope, hdigest⟩ := parts_of_stringToSign hregion hservice hregion' hservice' heq
    refine ⟨hdate, hscope, ?_⟩
    by_cases hcanonical : canonical s = canonical s'
    · left
      obtain ⟨hmethod, hquery, hhost, _, hbody⟩ := fields_of_canonicalRequest h h'
        (Calendar.isLine_stamp _) (Calendar.isLine_stamp _) (Hex.isLine_encode _)
        (Hex.isLine_encode _) hcanonical
      exact ⟨hcanonical, hmethod, hquery, hhost, hbody⟩
    · right
      exact ⟨hcanonical, hdigest⟩

/-- Blanks around the host and the slash between region and service are not told: two subjects that
differ in nothing else that is covered are signed with one text. -/
theorem signed_text_of_blanks :
    let s : Subject := ⟨"POST", "host", "q=1", [], "key", "secret", "a/b", "c", 0⟩
    let s' : Subject := ⟨"POST", " host ", "q=1", [], "other", "hidden", "a", "b/c", 0⟩
    OnLines s ∧ OnLines s' ∧ stringToSign s = stringToSign s' ∧
      trim s.host = trim s'.host ∧
      s.region ++ "/" ++ s.service = s'.region ++ "/" ++ s'.service := by
  intro s s'
  have hs : OnLines s := ⟨by decide, by decide, by decide⟩
  have hs' : OnLines s' := ⟨by decide, by decide, by decide⟩
  have hrequest : ∀ date hash, canonicalRequest s date hash = canonicalRequest s' date hash := by
    intro date hash
    have htrim : trim " host " = trim "host" := by decide
    rw [canonicalRequest_eq, canonicalRequest_eq, requestLines, requestLines, htrim]
  have hsigned : stringToSign s = stringToSign s' := by
    have hscope : ∀ date, scope s date = scope s' date := by
      intro date
      simp only [scope, String.append_assoc]
      rfl
    have hcanonical : canonical s = canonical s' := hrequest _ _
    rw [stringToSign_eq, stringToSign_eq, signedLines, signedLines, hscope, hcanonical]
  obtain ⟨hfields, hparts⟩ := signed_text_binds_fields hs hs'
  obtain ⟨_, _, hhost, _⟩ := hfields "20251103T083015Z" "20251103T083015Z" "00" "00" (by decide)
    (by decide) (by decide) (by decide) (hrequest _ _)
  obtain ⟨_, hscope, _⟩ := hparts (by decide) (by decide) (by decide) (by decide) hsigned
  exact ⟨hs, hs', hsigned, hhost, hscope⟩

end Signature
end RemoteFiles
