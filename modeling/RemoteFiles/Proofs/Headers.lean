import RemoteFiles.Proofs.Calendar.Stamp
import RemoteFiles.Proofs.Text.Utf8
import RemoteFiles.Proofs.Transport

/-!
# Headers that can be sent

Of what goes into the headers of a request only three texts come from outside: the access key, the
region and the host.  The others are digits and fixed words, which a header may always hold.

## Main definitions

* `Transport.CanSend` — a transport whose requests are sent.

## Main results

* `Signature.isHeaderValue_authorization` — when a signature can be sent.
* `Transport.check_request` — **only the access key, the region, the host and the address can keep a
  request from being sent.**
-/

namespace RemoteFiles

/-! ### Values of headers -/

theorem isHeaderValue_append (s t : String) :
    isHeaderValue (s ++ t) = (isHeaderValue s && isHeaderValue t) := by
  rw [isHeaderValue, isHeaderValue, isHeaderValue, Utf8.encode_eq_bytes, String.toList_append,
    Utf8.bytes_append, List.all_append, ← Utf8.encode_eq_bytes, ← Utf8.encode_eq_bytes]

/-- A printable character of ASCII. -/
def isPrintable (c : Char) : Bool := 0x20 ≤ c.toNat && c.toNat < 0x7f

theorem isHeaderValue_of_printable {cs : List Char} (h : ∀ c ∈ cs, isPrintable c = true) :
    isHeaderValue (String.ofList cs) = true := by
  rw [isHeaderValue, Utf8.encode_ofList]
  refine List.all_eq_true.mpr fun b hb => ?_
  obtain ⟨c, hc, hb⟩ := List.mem_flatMap.mp hb
  have hall : ∀ n < 0x80, 0x20 ≤ n → n < 0x7f → isHeaderByte (UInt8.ofNat n) = true := by decide
  have hprintable := h c hc
  rw [isPrintable, Bool.and_eq_true, decide_eq_true_eq, decide_eq_true_eq] at hprintable
  rw [Utf8.utf8EncodeChar_of_lt (by omega), List.mem_singleton] at hb
  rw [hb]
  exact hall c.toNat (by omega) hprintable.1 hprintable.2

theorem isHeaderValue_hex (bs : List UInt8) : isHeaderValue (Hex.encode bs) = true := by
  refine isHeaderValue_of_printable fun c hc => ?_
  obtain ⟨n, hn, rfl⟩ := Hex.exists_digit_of_mem_flatMap_byte hc
  have hall : ∀ n < 16, isPrintable (Hex.digit n) = true := by decide
  exact hall n hn

theorem isPrintable_of_isDigit {c : Char} (h : c.isDigit = true) : isPrintable c = true := by
  have hdigit := Utf8.toNat_of_isDigit h
  rw [isPrintable, Bool.and_eq_true, decide_eq_true_eq, decide_eq_true_eq]
  omega

theorem isHeaderValue_toString (n : Nat) : isHeaderValue (toString n) = true := by
  rw [Nat.toString_eq_ofList_toDigits]
  exact isHeaderValue_of_printable fun c hc =>
    isPrintable_of_isDigit (Nat.isDigit_of_mem_toDigits (by decide) (by decide) hc)

/-! ### The headers of a signature -/

theorem Calendar.isPrintable_of_mem_stampChars {time : Int} {c : Char}
    (h : c ∈ stampChars time) : isPrintable c = true := by
  rcases mem_stampChars h with hdigit | hmark
  · exact isPrintable_of_isDigit hdigit
  · have hall : ['+', '-', 'T', 'Z'].all isPrintable = true := by decide
    exact List.all_eq_true.mp hall c hmark

namespace Signature

theorem isHeaderValue_date (time : Int) : isHeaderValue (Calendar.stamp time) = true :=
  isHeaderValue_of_printable fun _ => Calendar.isPrintable_of_mem_stampChars

/-- A signature can be sent when the access key, the region and the service can. -/
theorem isHeaderValue_authorization (s : Subject) :
    isHeaderValue (sign s).authorization =
      (isHeaderValue s.accessKey && (isHeaderValue s.region && isHeaderValue s.service)) := by
  have hday : isHeaderValue (dayOf (Calendar.stamp s.time)) = true := by
    refine isHeaderValue_of_printable fun c hc => ?_
    rw [Calendar.stamp, String.toList_ofList] at hc
    exact Calendar.isPrintable_of_mem_stampChars (List.mem_of_mem_take hc)
  have hsignature : isHeaderValue (signature s) = true := isHeaderValue_hex _
  have hfixed : isHeaderValue algorithm = true ∧ isHeaderValue signedHeaders = true ∧
      isHeaderValue " Credential=" = true ∧ isHeaderValue "/" = true ∧
      isHeaderValue ", SignedHeaders=" = true ∧ isHeaderValue ", Signature=" = true ∧
      isHeaderValue "/request" = true := by decide
  obtain ⟨h1, h2, h3, h4, h5, h6, h7⟩ := hfixed
  change isHeaderValue (credential s ++ signature s) = _
  unfold credential scope
  simp only [isHeaderValue_append, hday, hsignature, h1, h2, h3, h4, h5, h6, h7, Bool.true_and,
    Bool.and_true]

end Signature

/-! ### What keeps a request back -/

namespace Transport

variable [Url.Names] {t : Transport} {url : Url} {host : String} {body : List UInt8} {now : Int}

/-- Of the headers of a request, three texts from outside decide whether all of them can be sent. -/
theorem all_isHeaderValue_request :
    (t.request url host body now).headers.all (fun h => isHeaderValue h.2) =
      (isHeaderValue t.identity.accessKey && isHeaderValue t.identity.region &&
        isHeaderValue host) := by
  have hdate : isHeaderValue (Signature.sign (t.subject host body now)).date = true :=
    Signature.isHeaderValue_date now
  have hhash : isHeaderValue (Signature.sign (t.subject host body now)).contentHash = true :=
    isHeaderValue_hex _
  have htype : isHeaderValue (Signature.sign (t.subject host body now)).contentType = true := by
    change isHeaderValue Signature.contentType = true
    decide
  -- the service is a word of its own, so the signature depends on the key and the region
  have hservice : isHeaderValue service = true := by decide
  have hauthorization := Signature.isHeaderValue_authorization (t.subject host body now)
  rw [show (t.subject host body now).service = service from rfl, hservice, Bool.and_true]
    at hauthorization
  simp only [request, Signature.Headers.toList, List.cons_append, List.nil_append, List.all_cons,
    List.all_nil, hdate, hhash, htype, hauthorization, isHeaderValue_toString, Bool.true_and,
    Bool.and_true]
  rfl

/-- What keeps a request back is a header that cannot be sent, and then its address. -/
theorem check_request_eq :
    (t.request url host body now).check =
      if !(isHeaderValue t.identity.accessKey && isHeaderValue t.identity.region &&
        isHeaderValue host) then .error .badHeader
      else if !url.isReachable then .error (.badAddress url)
      else .ok () := by
  unfold Request.check
  rw [all_isHeaderValue_request]
  rfl

/-- Neither the body, the time nor the secret decides what keeps a request back. -/
theorem check_request_congr {t' : Transport} {body' : List UInt8} {now' : Int}
    (hkey : t'.identity.accessKey = t.identity.accessKey)
    (hregion : t'.identity.region = t.identity.region) :
    (t'.request url host body' now').check = (t.request url host body now).check := by
  rw [check_request_eq, check_request_eq, hkey, hregion]

/-- **Only the access key, the region, the host and the address can keep a request from being
sent.** -/
theorem check_request :
    (t.request url host body now).check = .ok () ↔
      isHeaderValue t.identity.accessKey = true ∧ isHeaderValue t.identity.region = true ∧
        isHeaderValue host = true ∧ url.isReachable = true := by
  rw [check_request_eq]
  cases isHeaderValue t.identity.accessKey <;> cases isHeaderValue t.identity.region <;>
    cases isHeaderValue host <;> cases url.isReachable <;> simp

/-! ### Transports that can send -/

/-- A transport whose requests are sent: it has an address that requests can be sent to, and no
header keeps them back. -/
structure CanSend (t : Transport) (url : Url) (host : String) : Prop where
  endpoint : t.endpoint = .ok (url, host)
  reachable : url.isReachable = true
  host : isHeaderValue host = true
  accessKey : isHeaderValue t.identity.accessKey = true
  region : isHeaderValue t.identity.region = true

/-- The run of such a transport is its exchange with the peer. -/
theorem run_of_canSend (h : t.CanSend url host) (now : Int) (peer : Peer) (code : String) :
    let r := t.request url host (t.body code) now
    t.run now peer code =
      ⟨.invoking t.identity.toolId (t.body code).length :: received (peer r), [r],
        outcomeOf url (peer r)⟩ :=
  run_of_check peer code h.endpoint
    (check_request.mpr ⟨h.accessKey, h.region, h.host, h.reachable⟩)

end Transport
end RemoteFiles
