import RemoteFiles.Proofs.Call.Secrecy
import RemoteFiles.Proofs.Verification

/-!
# The headers that are sent

The texts of an identity are put into a header as they are.  A control character in one of them
cannot end that header and start another one, because then the request is not sent at all: the
header is refused, once the address has been found to have a host.  What is sent carries six headers
that the program and its body fix, and no control character in any of them.

## Main definitions

* `IsControl`, `HoldsControl` — bytes that no header may hold, and texts with such a byte.
* `Request.CarriesSignature` — the six headers of a request that is signed for an identity.

## Main results

* `holdsControl_iff` — the texts that no header may hold are the ones with such a byte.
* `Transport.run_of_holdsControl` — what a run comes to when a text of its identity holds one.
* `Transport.sent_headers_hold_no_control` — **no text of an identity gets a control character into
  a header.**
-/

namespace RemoteFiles

/-! ### Control characters -/

/-- A byte that no header may hold: a control character other than the tab. -/
def IsControl (b : UInt8) : Prop := (b < 0x20 ∧ b ≠ 0x09) ∨ b = 0x7f

/-- A text with a byte that no header may hold. -/
def HoldsControl (s : String) : Prop := ∃ b ∈ Utf8.encode s, IsControl b

theorem isControl_iff (b : UInt8) : IsControl b ↔ isHeaderByte b = false := by
  rw [IsControl, isHeaderByte, Bool.or_eq_false_iff, decide_eq_false_iff_not,
    Bool.and_eq_false_iff, decide_eq_false_iff_not, decide_eq_false_iff_not, not_not,
    UInt8.not_le]
  constructor
  · rintro (⟨hlow, htab⟩ | rfl)
    · exact ⟨htab, Or.inl hlow⟩
    · exact ⟨by decide, Or.inr rfl⟩
  · rintro ⟨htab, hlow | hdelete⟩
    · exact Or.inl ⟨hlow, htab⟩
    · exact Or.inr hdelete

/-- The texts that no header may hold are the ones with a control character. -/
theorem holdsControl_iff {s : String} : HoldsControl s ↔ isHeaderValue s = false := by
  rw [isHeaderValue, List.all_eq_false]
  exact exists_congr fun b => and_congr_right fun _ => by rw [isControl_iff, Bool.not_eq_true]

/-! ### Signed requests -/

/-- The headers that the program and its body fix of a request that is signed for an identity at some
time: the names are these six, and no value holds a control character.  The client adds that it
accepts any answer, and the user of the address in base64. -/
structure Request.CarriesSignature (r : Request) (i : Identity) (now : Int) (digits : String) :
    Prop where
  headers : r.headers =
    [("X-Date", Calendar.stamp now), ("X-Content-Sha256", Signature.hashText r.body),
      ("Content-Type", "application/json"),
      ("Authorization", "HMAC-SHA256 Credential=" ++ i.accessKey ++ "/" ++
        (Signature.dayOf (Calendar.stamp now) ++ "/" ++ i.region ++ "/agentkit/request") ++
        ", SignedHeaders=host;x-date;x-content-sha256;content-type, Signature=" ++ digits),
      ("Content-Length", toString r.body.length), ("Host", String.ofList r.url.authority)]
  values : ∀ h ∈ r.headers, ¬ HoldsControl h.2
  date : ∀ c ∈ (Calendar.stamp now).toList, c.isAlphanum = true ∨ c = '+' ∨ c = '-'
  hash : IsDigest (Signature.hashText r.body)
  digits : IsDigest digits

/-- What comes before the digits of a signature. -/
theorem Signature.credential_eq {s : Subject} (h : s.service = "agentkit") :
    credential s = "HMAC-SHA256 Credential=" ++ s.accessKey ++ "/" ++
      (dayOf (Calendar.stamp s.time) ++ "/" ++ s.region ++ "/agentkit/request") ++
      ", SignedHeaders=host;x-date;x-content-sha256;content-type, Signature=" := by
  have hservice : "/agentkit/request" = "/" ++ ("agentkit" ++ "/request") := by decide
  have hend : ", SignedHeaders=host;x-date;x-content-sha256;content-type, Signature=" =
      ", SignedHeaders=" ++ (signedHeaders ++ ", Signature=") := by decide
  have hlead : "HMAC-SHA256 Credential=" = algorithm ++ " Credential=" := by decide
  rw [credential, scope, h, hservice, hend, hlead]
  simp only [String.append_assoc]

theorem Calendar.isAlphanum_or_sign_of_mem_stamp {time : Int} {c : Char}
    (h : c ∈ (stamp time).toList) : c.isAlphanum = true ∨ c = '+' ∨ c = '-' := by
  rw [stamp, String.toList_ofList] at h
  rcases mem_stampChars h with hdigit | hmark
  · left
    rw [Char.isAlphanum, hdigit, Bool.or_true]
  · have hall : ['+', '-', 'T', 'Z'].all (fun d => d.isAlphanum || d = '+' || d = '-') = true := by
      decide
    simpa only [Bool.or_eq_true, decide_eq_true_eq, or_assoc] using List.all_eq_true.mp hall c hmark

namespace Transport

variable {t : Transport} {url : Url} {host : String} {now : Int}

/-- A request that can be sent carries a signature. -/
theorem carriesSignature_request [Url.Names] {body : List UInt8} (hendpoint : t.endpoint = .ok (url, host))
    (hcheck : (t.request url host body now).check = .ok ()) :
    (t.request url host body now).CarriesSignature t.identity now
      (Signature.signature (t.subject host body now)) where
  headers := by
    obtain ⟨-, -, rfl⟩ := endpoint_spec hendpoint
    rw [request, Signature.sign, Signature.credential_eq rfl]
    rfl
  values := by
    intro h hmem hcontrol
    obtain ⟨hkey, hregion, hhost, -⟩ := check_request.mp hcheck
    have hall : (t.request url host body now).headers.all (fun h => isHeaderValue h.2) = true := by
      rw [all_isHeaderValue_request, hkey, hregion, hhost]
      rfl
    rw [holdsControl_iff, List.all_eq_true.mp hall h hmem] at hcontrol
    cases hcontrol
  date := fun c => Calendar.isAlphanum_or_sign_of_mem_stamp
  hash := isDigest_hex (Sha256.length_digest _)
  digits := Signature.isDigest_signature _

/-! ### Runs that are refused -/

/-- What a run comes to when a text of its identity holds a control character: the address is looked
at before the headers. -/
def refusal [Url.Names] (t : Transport) : InvokeError :=
  match Url.parse t.target with
  | .error f => .invalidEndpoint f.message
  | .ok url =>
    if url.hostName?.isSome then .request "builder error"
    else .invalidEndpoint ("missing host in " ++ url.text)

theorem refusal_of_endpoint_error [Url.Names] {e : InvokeError} (h : t.endpoint = .error e) :
    t.refusal = e := by
  cases hparse : Url.parse t.target with
  | error f =>
    simp only [endpoint, hparse] at h
    simp only [refusal, hparse]
    exact Except.error.inj h
  | ok url =>
    simp only [endpoint, hparse] at h
    simp only [refusal, hparse]
    by_cases hhost : url.hostName?.isSome = true
    · rw [if_pos hhost] at h
      cases h
    · rw [if_neg hhost] at h
      rw [if_neg hhost]
      exact Except.error.inj h

theorem refusal_of_endpoint [Url.Names] {p : Url × String} (h : t.endpoint = .ok p) :
    t.refusal = .request "builder error" := by
  cases hparse : Url.parse t.target with
  | error f =>
    simp only [endpoint, hparse] at h
    cases h
  | ok url =>
    simp only [endpoint, hparse] at h
    simp only [refusal, hparse]
    by_cases hhost : url.hostName?.isSome = true
    · rw [if_pos hhost]
    · rw [if_neg hhost] at h
      cases h

/-- A control character in the access key or in the region ends a run before anything is sent. -/
theorem run_of_holdsControl [Url.Names] (now : Int) (peer : Peer) (code : String)
    (h : HoldsControl t.identity.accessKey ∨ HoldsControl t.identity.region) :
    (t.run now peer code).sent = [] ∧ (t.run now peer code).result = .error t.refusal := by
  have hvalues :
      (isHeaderValue t.identity.accessKey && isHeaderValue t.identity.region) = false := by
    rcases h with h | h
    · rw [holdsControl_iff.mp h, Bool.false_and]
    · rw [holdsControl_iff.mp h, Bool.and_false]
  cases hendpoint : t.endpoint with
  | error e =>
    rw [run_of_endpoint_error now peer code hendpoint, refusal_of_endpoint_error hendpoint]
    exact ⟨rfl, rfl⟩
  | ok p =>
    have hcheck : (t.request p.1 p.2 (t.body code) now).check = .error .badHeader := by
      rw [check_request_eq, hvalues, Bool.false_and]
      rfl
    rw [run_of_check_error peer code hendpoint hcheck, refusal_of_endpoint hendpoint]
    exact ⟨rfl, rfl⟩

/-! ### Every request -/

/-- **No text of an identity gets a control character into a header.**  If the access key or the
region holds one then nothing is sent, and the run ends in the fault of the address, or if it has
none in the refusal of the header.  Of every request that is sent the program and its body fix the
six headers of a signed request, with no control character in their values, a date in letters, digits
and signs, and hashes in lower-case digits. -/
theorem sent_headers_hold_no_control [Url.Names] (address : String) (i : Identity) (now : Int) (peer : Peer)
    (code : String) :
    let t := ofAddress address i
    let x := t.run now peer code
    (HoldsControl i.accessKey ∨ HoldsControl i.region →
      x.sent = [] ∧ x.result = .error t.refusal) ∧
    ∀ r ∈ x.sent, ∃ digits, r.CarriesSignature i now digits := by
  intro t x
  refine ⟨run_of_holdsControl (t := t) now peer code, fun r hr => ?_⟩
  rcases t.sent_run now peer code with hsent | ⟨url, host, hendpoint, hcheck, hsent⟩
  · rw [hsent] at hr
    cases hr
  · rw [hsent, List.mem_singleton] at hr
    rw [hr]
    exact ⟨_, carriesSignature_request hendpoint hcheck⟩

/-- A line end in the access key sends no header of its own, but keeps the request back; without it
the request is sent. -/
theorem line_end_sends_nothing :
    let run := fun accessKey : String =>
      (ofAddress "http://127.0.0.1:8080"
        { accessKey := accessKey, secret := "secret", region := "cn-beijing" }).run 1761782400
          (fun _ => .silence) "print(1)"
    (run "key\r\nX-Role: admin").sent = [] ∧
    (run "key\r\nX-Role: admin").result = .error (.request "builder error") ∧
    ∃ r digits, (run "key").sent = [r] ∧
      r.CarriesSignature { accessKey := "key", secret := "secret", region := "cn-beijing" }
        1761782400 digits := by
  intro run
  have hcontrol : HoldsControl "key\r\nX-Role: admin" :=
    ⟨0x0d, by decide, Or.inl ⟨by decide, by decide⟩⟩
  obtain ⟨hrefused, -⟩ := sent_headers_hold_no_control "http://127.0.0.1:8080"
    { accessKey := "key\r\nX-Role: admin", secret := "secret", region := "cn-beijing" } 1761782400
    (fun _ => .silence) "print(1)"
  obtain ⟨hsent, hresult⟩ := hrefused (Or.inl hcontrol)
  rw [refusal_of_endpoint (endpoint_loopback _)] at hresult
  obtain ⟨-, hcarries⟩ := sent_headers_hold_no_control "http://127.0.0.1:8080"
    { accessKey := "key", secret := "secret", region := "cn-beijing" } 1761782400
    (fun _ => .silence) "print(1)"
  have hkey : isHeaderValue "key" = true := by decide
  have hregion : isHeaderValue "cn-beijing" = true := by decide
  obtain ⟨r, hr, -⟩ := sent_loopback
    (i := { accessKey := "key", secret := "secret", region := "cn-beijing" }) hkey hregion
    1761782400 (fun _ => .silence) "print(1)"
  obtain ⟨digits, hdigits⟩ := hcarries r (by rw [hr]; exact List.mem_cons_self)
  exact ⟨hsent, hresult, r, digits, hr, hdigits⟩

end Transport

end RemoteFiles
