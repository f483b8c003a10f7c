import RemoteFiles.Proofs.Call.Course
import RemoteFiles.Proofs.Headers

/-!
# The secret is kept

Two sandboxes that differ in nothing but the secret are called side by side, by one peer that
answers both alike.  All that can be seen of the two sessions is the same — the results, the events,
and the requests down to their bytes — but for the sixty-four digits at the end of each signature.

## Main definitions

* `Step`, `Turn`, `Sandbox.session` — a sequence of calls through a peer that remembers.
* `Turn.SameReplies` — turns in which the peer has replied alike.
* `Request.Alike`, `Run.Alike` — the same in all that can be seen but for signatures.

## Main results

* `Sandbox.call_alike` — one call keeps the secret.
* `Sandbox.session_alike` — so does a session, call by call.
* `Sandbox.session_keeps_secret` — **nothing that leaves a configuration depends on its secret.**
-/

namespace RemoteFiles

/-! ### Sessions -/

/-- A step of a session: the requests may go elsewhere from here on, and then a call is made. -/
structure Step where
  /-- Where the requests go from here on, if that changes. -/
  target : Option String
  now : Int
  call : Call

/-- What a step has come to: what the call did, and the replies it was given. -/
structure Turn where
  run : Run FileError Answer
  replies : List Reply

namespace Sandbox

/-- The sandbox that a step calls. -/
def aim (s : Sandbox) (step : Step) : Sandbox := (step.target.map s.retarget).getD s

/-- A sequence of calls through a peer that may remember the requests it has seen. -/
def session [Url.Names] (server : List Request → Peer) : Sandbox → List Request → List Step → List Turn
  | _, _, [] => []
  | s, seen, step :: steps =>
    let run := (s.aim step).call step.now (server seen) step.call
    ⟨run, run.sent.map (server seen)⟩ :: session server (s.aim step) (seen ++ run.sent) steps

end Sandbox

/-- Turns in which the peer gave the same reply, if it gave one in both.  A call sends one request at
most, so there is never more than one. -/
def Turn.SameReplies (u u' : Turn) : Prop := ∀ ρ ∈ u.replies, ∀ ρ' ∈ u'.replies, ρ = ρ'

/-! ### What can be seen -/

/-- Sixty-four hexadecimal digits. -/
structure IsDigest (d : String) : Prop where
  length : d.length = 64
  digits : ∀ c ∈ d.toList, c ∈ "0123456789abcdef".toList

/-- Headers that are the same, but for the digits that end a signature. -/
inductive HeaderAlike : String × String → String × String → Prop where
  | same (header : String × String) : HeaderAlike header header
  | signature (lead : String) {d d' : String} (hd : IsDigest d) (hd' : IsDigest d') :
      HeaderAlike ("Authorization", lead ++ "Signature=" ++ d)
        ("Authorization", lead ++ "Signature=" ++ d')

/-- Requests that are the same, but for the digits that end a signature. -/
structure Request.Alike (r r' : Request) : Prop where
  method : r.method = r'.method
  url : r.url = r'.url
  credentials : r.credentials = r'.credentials
  headers : List.Forall₂ HeaderAlike r.headers r'.headers
  body : r.body = r'.body

/-- Runs that are the same, but for the digits that end a signature. -/
structure Run.Alike {ε α : Type} (x x' : Run ε α) : Prop where
  result : x.result = x'.result
  events : x.events = x'.events
  sent : List.Forall₂ Request.Alike x.sent x'.sent

/-! ### Signatures -/

theorem isDigest_hex {bs : List UInt8} (h : bs.length = 32) : IsDigest (Hex.encode bs) where
  length := by
    rw [Hex.encode, String.length_ofList, Hex.length_flatMap_byte, h]
  digits := by
    intro c hc
    rw [Hex.encode, String.toList_ofList] at hc
    obtain ⟨n, hn, rfl⟩ := Hex.exists_digit_of_mem_flatMap_byte hc
    have hall : ∀ n < 16, Hex.digit n ∈ "0123456789abcdef".toList := by decide
    exact hall n hn

namespace Signature

theorem isDigest_signature (s : Subject) : IsDigest (signature s) :=
  isDigest_hex (Hmac.length_mac _ _)

theorem exists_credential (s : Subject) : ∃ lead, credential s = lead ++ "Signature=" := by
  have hend : ", Signature=" = ", " ++ "Signature=" := rfl
  rw [credential, hend, ← String.append_assoc]
  exact ⟨_, rfl⟩

end Signature

namespace Transport

/-- The same transport with another secret. -/
def withSecret (t : Transport) (secret : String) : Transport :=
  ⟨t.baseUrl, { t.identity with secret := secret }⟩

/-- The request for a body shows no more of the secret than a signature. -/
theorem request_alike [Url.Names] (t : Transport) (secret : String) (url : Url) (host : String)
    (body : List UInt8) (now : Int) :
    (t.request url host body now).Alike ((t.withSecret secret).request url host body now) where
  method := rfl
  url := rfl
  credentials := rfl
  body := rfl
  headers := by
    have hsignature : HeaderAlike
        ("Authorization", (Signature.sign (t.subject host body now)).authorization)
        ("Authorization",
          (Signature.sign ((t.withSecret secret).subject host body now)).authorization) := by
      -- what comes before the digits is made without the secret
      have hcredential : Signature.credential ((t.withSecret secret).subject host body now) =
          Signature.credential (t.subject host body now) := rfl
      obtain ⟨lead, hlead⟩ := Signature.exists_credential (t.subject host body now)
      rw [Signature.sign, Signature.sign, hcredential, hlead]
      exact .signature lead (Signature.isDigest_signature _) (Signature.isDigest_signature _)
    exact .cons (.same _) (.cons (.same _) (.cons (.same _) (.cons hsignature
      (.cons (.same _) (.cons (.same _) .nil)))))

theorem check_withSecret [Url.Names] (t : Transport) (secret : String) (url : Url) (host : String)
    (body : List UInt8) (now : Int) :
    ((t.withSecret secret).request url host body now).check =
      (t.request url host body now).check :=
  check_request_congr rfl rfl

/-- Two runs of a script that get the same reply are alike. -/
theorem run_alike [Url.Names] (t : Transport) (secret : String) (now : Int) {peer peer' : Peer} (code : String)
    (hpeer : ∀ r ∈ (t.run now peer code).sent, ∀ r' ∈ ((t.withSecret secret).run now peer' code).sent,
      peer r = peer' r') :
    (t.run now peer code).Alike ((t.withSecret secret).run now peer' code) := by
  -- neither the address nor the body is made with the secret
  have hendpoint' : (t.withSecret secret).endpoint = t.endpoint := rfl
  have hbody' : (t.withSecret secret).body code = t.body code := rfl
  rcases t.run_cases now peer code with
    ⟨e, hendpoint, hrun⟩ | ⟨url, host, f, hendpoint, hcheck, hrun⟩ |
      ⟨url, host, hendpoint, hcheck, hrun⟩
  · have hrun' := run_of_endpoint_error (t := t.withSecret secret) now peer' code hendpoint
    rw [hrun, hrun']
    exact ⟨rfl, rfl, .nil⟩
  · have hcheck' := (check_withSecret t secret url host (t.body code) now).trans hcheck
    have hrun' := run_of_check_error (t := t.withSecret secret) peer' code hendpoint hcheck'
    rw [hrun, hrun']
    exact ⟨rfl, rfl, .nil⟩
  · have hcheck' := (check_withSecret t secret url host (t.body code) now).trans hcheck
    have hrun' := run_of_check (t := t.withSecret secret) peer' code hendpoint hcheck'
    rw [hrun, hrun'] at hpeer ⊢
    have hreply := hpeer _ List.mem_cons_self _ List.mem_cons_self
    refine ⟨?_, ?_, .cons (request_alike t secret url host _ now) .nil⟩
    · simp only [hreply]
    · simp only [hreply]
      rfl

end Transport

/-! ### Calls -/

namespace Sandbox

/-- The same sandbox with another secret. -/
def withSecret (s : Sandbox) (secret : String) : Sandbox := ⟨s.transport.withSecret secret⟩

@[simp] theorem transport_withSecret (s : Sandbox) (secret : String) :
    (s.withSecret secret).transport = s.transport.withSecret secret := rfl

theorem aim_withSecret (s : Sandbox) (secret : String) (step : Step) :
    (s.withSecret secret).aim step = (s.aim step).withSecret secret := by
  unfold aim
  cases step.target <;> rfl

/-- **Two calls that get the same reply are alike.** -/
theorem call_alike [Url.Names] (s : Sandbox) (secret : String) (now : Int) {peer peer' : Peer} (c : Call)
    (hpeer : ∀ r ∈ (s.call now peer c).sent, ∀ r' ∈ ((s.withSecret secret).call now peer' c).sent,
      peer r = peer' r') :
    (s.call now peer c).Alike ((s.withSecret secret).call now peer' c) := by
  cases hparams : c.params with
  | error e =>
    rw [s.call_of_refused now peer hparams, (s.withSecret secret).call_of_refused now peer' hparams]
    exact ⟨rfl, rfl, .nil⟩
  | ok ps =>
    rw [s.call_of_params now peer hparams, (s.withSecret secret).call_of_params now peer' hparams,
      transport_withSecret] at hpeer ⊢
    obtain ⟨hresult, hevents, hsent⟩ := s.transport.run_alike secret now c.scriptText hpeer
    refine ⟨?_, ?_, hsent⟩
    · simp only [hresult]
    · simp only [hresult, hevents]

/-! ### Whole sessions -/

/-- **Sessions that get the same replies are alike**, turn by turn.  What the peer has seen of each
may differ, since it has seen the signatures. -/
theorem session_alike [Url.Names] (server : List Request → Peer) (secret : String) (steps : List Step) :
    ∀ (s : Sandbox) (seen seen' : List Request),
      List.Forall₂ Turn.SameReplies (session server s seen steps)
        (session server (s.withSecret secret) seen' steps) →
      List.Forall₂ (fun u u' : Turn => u.run.Alike u'.run) (session server s seen steps)
        (session server (s.withSecret secret) seen' steps) := by
  induction steps with
  | nil =>
    intro s seen seen' _
    exact .nil
  | cons step steps ih =>
    intro s seen seen' hreplies
    simp only [session, aim_withSecret] at hreplies ⊢
    obtain ⟨hturn, hrest⟩ := List.forall₂_cons.mp hreplies
    refine .cons (call_alike (s.aim step) secret step.now step.call ?_) (ih _ _ _ hrest)
    intro r hr r' hr'
    exact hturn _ (List.mem_map_of_mem hr) _ (List.mem_map_of_mem hr')

end Sandbox

/-! ### From the configuration on -/

/-- Of a secret, a configuration is only asked whether there is one. -/
theorem Identity.ofConfig_withSecret {c : Config} {secret : String} (hc : c.secret ≠ "")
    (hsecret : secret ≠ "") :
    ofConfig { c with secret := secret } =
      (ofConfig c).map fun p => ({ p.1 with secret := secret }, p.2) := by
  have hregion : Config.resolveRegion { c with secret := secret } = c.resolveRegion := rfl
  unfold ofConfig
  rw [if_neg hc, if_neg hsecret, hregion]
  -- the other settings are the same, so the same one is missing
  by_cases hkey : c.accessKey = ""
  · rw [if_pos hkey, if_pos hkey]
    rfl
  · rw [if_neg hkey, if_neg hkey]
    by_cases htool : c.toolId = ""
    · rw [if_pos htool, if_pos htool]
      rfl
    · rw [if_neg htool, if_neg htool]
      by_cases hsession : c.sessionId = "" ∧ c.userSessionId = ""
      · rw [if_pos hsession, if_pos hsession]
        rfl
      · rw [if_neg hsession, if_neg hsession]
        cases c.resolveRegion <;> rfl

namespace Sandbox

/-- The sandbox of a configuration with another secret is the same sandbox with that secret. -/
theorem ofConfig_withSecret {c : Config} {secret : String} (hc : c.secret ≠ "")
    (hsecret : secret ≠ "") :
    ofConfig { c with secret := secret } =
      ⟨(ofConfig c).events, (ofConfig c).sent,
        (ofConfig c).result.map fun s => s.withSecret secret⟩ := by
  unfold ofConfig
  rw [Identity.ofConfig_withSecret hc hsecret]
  cases Identity.ofConfig c with
  | error e => rfl
  | ok p => rfl

/-- **Nothing that leaves a configuration depends on its secret.**  Two configurations that differ
only in the secret are shown alike, and are refused for the same reason or not at all; the sandboxes
they make are shown alike too.  Whatever calls are made, wherever the requests are sent in between,
as long as the peer gives both the same replies, call after call has the same result and the same
events, and sends the same request but for the digits that end its signature. -/
theorem session_keeps_secret [Url.Names] (c : Config) (secret : String) (hc : c.secret ≠ "")
    (hsecret : secret ≠ "") (server : List Request → Peer) (steps : List Step) :
    let c' : Config := { c with secret := secret }
    c.shown = c'.shown ∧ (ofConfig c).events = (ofConfig c').events ∧
    (ofConfig c).sent = (ofConfig c').sent ∧
    (∀ e, (ofConfig c).result = .error e ↔ (ofConfig c').result = .error e) ∧
    ∀ s s', (ofConfig c).result = .ok s → (ofConfig c').result = .ok s' →
      s.identity.shown = s'.identity.shown ∧ s.baseUrl = s'.baseUrl ∧
      (List.Forall₂ Turn.SameReplies (session server s [] steps) (session server s' [] steps) →
        List.Forall₂ (fun u u' : Turn => u.run.Alike u'.run) (session server s [] steps)
          (session server s' [] steps)) := by
  intro c'
  have hmade : ofConfig c' = _ := ofConfig_withSecret hc hsecret
  rw [hmade]
  refine ⟨rfl, rfl, rfl, ?_, ?_⟩
  · intro e
    cases (ofConfig c).result with
    | error f => rfl
    | ok s =>
      constructor
      · intro h
        cases h
      · intro h
        cases h
  · intro s s' hs hs'
    rw [hs] at hs'
    cases hs'
    exact ⟨rfl, rfl, session_alike server secret steps s [] []⟩

/-- A configuration that is complete makes a sandbox. -/
theorem result_ofConfig {c : Config} {region : Region} (hkey : c.accessKey ≠ "")
    (hc : c.secret ≠ "") (htool : c.toolId ≠ "") (hsession : c.sessionId ≠ "")
    (hregion : c.resolveRegion = .ok region) :
    (ofConfig c).result = .ok ⟨.ofAddress region.baseUrl (Identity.ofParts c region)⟩ := by
  have hidentity : Identity.ofConfig c = .ok (Identity.ofParts c region, region) := by
    rw [Identity.ofConfig, if_neg hkey, if_neg hc, if_neg htool, if_neg (fun h => hsession h.1),
      hregion]
    rfl
  rw [ofConfig, hidentity]
  rfl

/-- A peer that never replies gives both the same reply. -/
theorem sameReplies_silence (x x' : Run FileError Answer) :
    Turn.SameReplies ⟨x, x.sent.map fun _ => .silence⟩ ⟨x', x'.sent.map fun _ => .silence⟩ := by
  intro ρ hρ ρ' hρ'
  rw [List.eq_of_mem_map_const hρ, List.eq_of_mem_map_const hρ']

/-- Two secrets are kept in a call to the loopback host. -/
theorem session_keeps_secret_loopback :
    let c : Config := { accessKey := "key", secret := "one", toolId := "tool", sessionId := "s" }
    let c' : Config := { c with secret := "two" }
    let steps : List Step := [⟨some "http://127.0.0.1:8080", 0, .execute "ls"⟩]
    ∃ s s', (ofConfig c).result = .ok s ∧ (ofConfig c').result = .ok s' ∧
      List.Forall₂ (fun u u' : Turn => u.run.Alike u'.run)
        (session (fun _ _ => .silence) s [] steps) (session (fun _ _ => .silence) s' [] steps) := by
  intro c c' steps
  obtain ⟨_, _, _, _, hkept⟩ := session_keeps_secret c "two" (by decide) (by decide)
    (fun _ _ => .silence) steps
  obtain ⟨s, hs⟩ : ∃ s, (ofConfig c).result = .ok s :=
    ⟨_, result_ofConfig (by decide) (by decide) (by decide) (by decide) rfl⟩
  obtain ⟨s', hs'⟩ : ∃ s', (ofConfig c').result = .ok s' :=
    ⟨_, result_ofConfig (by decide) (by decide) (by decide) (by decide) rfl⟩
  refine ⟨s, s', hs, hs', (hkept s s' hs hs').2.2 ?_⟩
  rw [session, session]
  exact .cons (sameReplies_silence _ _) .nil

end Sandbox
end RemoteFiles
