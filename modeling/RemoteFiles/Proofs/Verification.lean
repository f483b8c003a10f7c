import RemoteFiles.Proofs.Headers
import RemoteFiles.Proofs.Url.Addresses

/-!
# Verifying requests

What is signed is worked out from the parts of a request before it is sent, and what the peer
receives is read off the address.  A peer that has the identity and signs again what it received, at
the time that the request names, gets the same signature.

## Main definitions

* `Url.hostToName` — the host that a client names in a request to an address.
* `Request.resigned?` — the headers that the peer makes again from a request.

## Main results

* `Transport.endpoint_spec` — what an endpoint is that requests can be sent to.
* `Transport.trimSlashes_append` — slashes at the end of an address make no difference.
* `Transport.request_verifies` — **every request that is sent is verified by the peer.**
-/

namespace RemoteFiles

/-! ### What the peer does -/

/-- The host that a client names in a request to an address: its host, and its port unless that is
the port where requests of the scheme go by themselves. -/
def Url.hostToName (u : Url) : String :=
  String.ofList (u.host.getD [] ++ match u.port with
    | some port => if Url.ownPort? u.scheme = some port then [] else ':' :: Nat.toDigits 10 port
    | none => [])

namespace Request

/-- The value of the first header with a name. -/
def header? (r : Request) (name : String) : Option String :=
  (r.headers.find? (·.1 = name)).map Prod.snd

/-- The headers that a peer which has an identity makes again from what it receives: the host, the
query, the body and the time that the request names. -/
def resigned? (r : Request) (i : Identity) : Option Signature.Headers := do
  let host ← r.header? "Host"
  let query ← r.url.query
  let date ← r.header? "X-Date"
  let time ← Calendar.readMoment? date
  return Signature.sign {
    method := "POST"
    host := host
    query := String.ofList query
    body := r.body
    accessKey := i.accessKey
    secret := i.secret
    region := i.region
    service := "agentkit"
    time := time }

theorem resigned?_eq {r : Request} {i : Identity} {host date : String} {query : List Char}
    {time : Int} (hhost : r.header? "Host" = some host) (hquery : r.url.query = some query)
    (hdate : r.header? "X-Date" = some date) (htime : Calendar.readMoment? date = some time) :
    r.resigned? i = some (Signature.sign ⟨"POST", host, String.ofList query, r.body, i.accessKey,
      i.secret, i.region, "agentkit", time⟩) := by
  unfold resigned?
  rw [hhost, hquery, hdate]
  simp only [Option.bind_eq_bind, Option.bind_some, htime]
  rfl

end Request

namespace Transport

/-! ### Addresses -/

theorem isSafe_query : ∀ c ∈ query.toList, Query.isSafe c = true :=
  fun _ hc => Query.isSafe_of_mem_canonical _ hc

theorem target_eq (t : Transport) :
    t.target = String.ofList (t.baseUrl.toList ++ '/' :: '?' :: query.toList) := by
  rw [← String.toList_inj, String.toList_ofList, target, String.toList_append, String.toList_append,
    List.append_assoc]
  rfl

/-- The authority of an address is the host to name where the port is not the scheme's own. -/
theorem authority_eq_hostToName {url : Url} (h : ∀ port, Url.ownPort? url.scheme = some port →
    url.port ≠ some port) : String.ofList url.authority = url.hostToName := by
  unfold Url.authority Url.hostToName
  cases hport : url.port with
  | none => rfl
  | some port =>
    have hown : Url.ownPort? url.scheme ≠ some port := fun hown => h port hown hport
    dsimp only
    rw [if_neg hown]


/-! ### Slashes at the end of an address -/

theorem mem_of_mem_trimSlashes {s : String} {c : Char} (h : c ∈ (trimSlashes s).toList) :
    c ∈ s.toList := by
  rw [trimSlashes, String.toList_ofList, List.mem_reverse] at h
  exact List.mem_reverse.mp ((List.dropWhile_suffix _).subset h)

/-- Slashes at the end of an address are dropped, however many there are. -/
theorem trimSlashes_append (s : String) (n : Nat) :
    trimSlashes (s ++ String.ofList (List.replicate n '/')) = trimSlashes s := by
  have hslashes : ∀ c ∈ List.replicate n '/', (c = '/' : Bool) = true := by
    intro c hc
    rw [decide_eq_true_eq]
    exact List.eq_of_mem_replicate hc
  rw [trimSlashes, trimSlashes, String.toList_append, String.toList_ofList, List.reverse_append,
    List.reverse_replicate, List.dropWhile_append_of_pos hslashes]

/-- An address that is just an authority loses its slashes only where the authority is empty. -/
theorem trimSlashes_bare (scheme authority : List Char) (h : '/' ∉ authority) :
    ∃ slashes : List Char, (∀ c ∈ slashes, c = '/') ∧
      (trimSlashes (String.ofList (scheme ++ ':' :: '/' :: '/' :: authority))).toList =
        scheme ++ ':' :: (slashes ++ authority) := by
  rw [trimSlashes, String.toList_ofList, String.toList_ofList]
  -- the last character that is no slash is the authority's, or else the colon
  cases hlast : authority.reverse with
  | nil =>
    obtain rfl : authority = [] := List.reverse_eq_nil_iff.mp hlast
    refine ⟨[], fun c hc => absurd hc List.not_mem_nil, ?_⟩
    simp
  | cons c front =>
    have hc : c ≠ '/' := by
      rintro rfl
      refine h (List.mem_reverse.mp ?_)
      rw [hlast]
      exact List.mem_cons_self
    refine ⟨['/', '/'], fun c hc => ?_, ?_⟩
    · simpa using hc
    · have hreverse : (scheme ++ ':' :: '/' :: '/' :: authority).reverse =
          c :: (front ++ ('/' :: '/' :: ':' :: scheme.reverse)) := by
        simp [hlast]
      rw [hreverse, List.dropWhile_cons_of_neg (by rw [decide_eq_true_eq]; exact hc), ← hreverse,
        List.reverse_reverse]
      rfl

/-! ### Endpoints -/

section Requests

variable [Url.Names] {t : Transport} {url : Url} {host : String} {body : List UInt8} {now : Int}

/-- The address of an endpoint is the one that its text is read as but for the user, and the host is
its authority. -/
theorem endpoint_spec (h : t.endpoint = .ok (url, host)) :
    ∃ user, Url.parse t.target = .ok { url with user := user } ∧
      host = String.ofList url.authority := by
  unfold endpoint at h
  split at h
  · cases h
  · next read hparse =>
    split at h
    · cases h
      refine ⟨read.user, ?_, ?_⟩
      · rw [hparse, Url.bare_with_user]
      · rw [Url.authority_bare]
    · cases h

/-- An address with a host and no user is an endpoint. -/
theorem endpoint_of_parse (hparse : (Url.parse t.target).toOption = some url)
    (hhost : url.hostName?.isSome = true) (huser : url.user = []) :
    t.endpoint = .ok (url, String.ofList url.authority) := by
  unfold endpoint
  cases hread : Url.parse t.target with
  | error f =>
    rw [hread] at hparse
    cases hparse
  | ok read =>
    rw [hread] at hparse
    obtain rfl : read = url := Option.some.inj hparse
    simp only [hhost, if_true, Url.bare_of_user_eq_nil huser]

/-- Requests are sent to addresses whose scheme has a port of its own. -/
theorem ownPort_of_check (h : (t.request url host body now).check = .ok ()) :
    ∃ port, Url.ownPort? url.scheme = some port := by
  obtain ⟨-, -, -, hreachable⟩ := check_request.mp h
  simp only [Url.isReachable, Bool.and_eq_true, Bool.or_eq_true] at hreachable
  rcases hreachable.1.1 with hscheme | hscheme
  · exact ⟨80, by rw [of_decide_eq_true hscheme]; rfl⟩
  · exact ⟨443, by rw [of_decide_eq_true hscheme]; rfl⟩

/-! ### Requests -/

/-- A request to an endpoint that requests can be sent to names the host as the client does, and
the peer makes its headers again. -/
theorem resigned_request (hmark : ∀ c ∈ t.baseUrl.toList, c ≠ '?' ∧ c ≠ '#')
    (hendpoint : t.endpoint = .ok (url, host))
    (hcheck : (t.request url host body now).check = .ok ())
    (hfrom : Calendar.startOfYear 0 ≤ now) (hto : now < Calendar.startOfYear 10000) :
    host = url.hostToName ∧ (t.request url host body now).resigned? t.identity =
      some (Signature.sign (t.subject host body now)) := by
  obtain ⟨user, hparse, rfl⟩ := endpoint_spec hendpoint
  obtain ⟨port, hport⟩ := ownPort_of_check hcheck
  rw [target_eq] at hparse
  have hread : Url.ownPort? { url with user := user }.scheme = some port := hport
  obtain ⟨hquery, hown⟩ := Url.parse_query hmark isSafe_query hread hparse
  refine ⟨authority_eq_hostToName fun p hp => ?_, ?_⟩
  · rw [← Option.some.inj (hport.symm.trans hp)]
    exact hown
  · rw [Request.resigned?_eq rfl hquery rfl (Calendar.readMoment?_stamp hfrom hto),
      String.ofList_toList]
    rfl

/-! ### Every request that is sent -/

/-- **Every request that is sent is verified by the peer.**  The address has no query and no
fragment of its own, and the time is in the years from 0 to 9999.  An address that is just a scheme
and an authority is asked for the root, which is the path that was signed, and slashes at the end of
an address change nothing. -/
theorem request_verifies (address : String) (i : Identity) (now : Int) (peer : Peer)
    (code : String) (hmark : ∀ c ∈ address.toList, c ≠ '?' ∧ c ≠ '#')
    (hfrom : Calendar.startOfYear 0 ≤ now) (hto : now < Calendar.startOfYear 10000) :
    (∀ r ∈ ((ofAddress address i).run now peer code).sent,
      r.method = "POST" ∧ r.header? "Host" = some r.url.hostToName ∧
      (∃ headers, r.resigned? i = some headers ∧
        r.header? "X-Content-Sha256" = some headers.contentHash ∧
        r.header? "Authorization" = some headers.authorization) ∧
      ∀ scheme authority : String, address = scheme ++ "://" ++ authority →
        ':' ∉ scheme.toList → (∀ c ∈ authority.toList, c ≠ '/' ∧ c ≠ '\\') →
          r.url.path = ['/']) ∧
    ∀ n : Nat, (ofAddress (address ++ String.ofList (List.replicate n '/')) i).run now peer code =
      (ofAddress address i).run now peer code := by
  refine ⟨fun r hr => ?_, fun n => ?_⟩
  · -- the one request that a run can send
    obtain ⟨url, host, hendpoint, hcheck, rfl⟩ : ∃ url host,
        (ofAddress address i).endpoint = .ok (url, host) ∧
        ((ofAddress address i).request url host ((ofAddress address i).body code) now).check =
          .ok () ∧
        r = (ofAddress address i).request url host ((ofAddress address i).body code) now := by
      rcases (ofAddress address i).sent_run now peer code with hsent | ⟨url, host, he, hc, hsent⟩
      · rw [hsent] at hr
        cases hr
      · rw [hsent, List.mem_singleton] at hr
        exact ⟨url, host, he, hc, hr⟩
    have hbase : ∀ c ∈ (ofAddress address i).baseUrl.toList, c ≠ '?' ∧ c ≠ '#' :=
      fun c hc => hmark c (mem_of_mem_trimSlashes hc)
    obtain ⟨hhost, hresigned⟩ := resigned_request hbase hendpoint hcheck hfrom hto
    refine ⟨rfl, congrArg some hhost, ⟨_, hresigned, rfl, rfl⟩, ?_⟩
    rintro scheme authority rfl hscheme hauthority
    obtain ⟨user, hparse, _⟩ := endpoint_spec hendpoint
    obtain ⟨port, hport⟩ := ownPort_of_check hcheck
    have hspelled : scheme ++ "://" ++ authority =
        String.ofList (scheme.toList ++ ':' :: '/' :: '/' :: authority.toList) := by
      rw [← String.toList_inj, String.toList_ofList, String.toList_append, String.toList_append,
        List.append_assoc]
      rfl
    -- what is left of the address when its slashes are dropped is still an authority
    obtain ⟨slashes, hslashes, hbare⟩ := trimSlashes_bare scheme.toList authority.toList
      fun hmem => (hauthority _ hmem).1 rfl
    rw [target_eq] at hparse
    change Url.parse (String.ofList ((trimSlashes (scheme ++ "://" ++ authority)).toList ++ _)) = _
      at hparse
    rw [hspelled, hbare] at hparse
    have hread : Url.ownPort? { url with user := user }.scheme = some port := hport
    change ({ url with user := user } : Url).path = ['/']
    refine Url.path_of_bare hscheme hslashes (fun c hc => ?_) isSafe_query hread hparse
    obtain ⟨hslash, hback⟩ := hauthority c hc
    obtain ⟨hquestion, hhash⟩ := hmark c (by
      rw [String.toList_append]
      exact List.mem_append_right _ hc)
    simp only [List.mem_cons, List.not_mem_nil, or_false, not_or]
    exact ⟨hslash, hback, hquestion, hhash⟩
  · rw [ofAddress, trimSlashes_append, ← ofAddress]

end Requests

/-! ### The loopback host -/

theorem query_eq : query = "Action=InvokeTool&Version=2025-10-30" := by
  have hsorted : Query.sorted [("Action", "InvokeTool"), ("Version", "2025-10-30")] =
      [("Action", "InvokeTool"), ("Version", "2025-10-30")] := by
    simp [Query.sorted, List.mergeSort]
  rw [query, Query.canonical, hsorted]
  decide +kernel

/-- The endpoint of an address, from the text that is read. -/
theorem endpoint_of_text {address text : String} {url : Url} (i : Identity)
    (htext : trimSlashes address ++ "/?" ++ "Action=InvokeTool&Version=2025-10-30" = text)
    (hparse : (Url.parse text).toOption = some url) (hhost : url.hostName?.isSome = true)
    (huser : url.user = []) :
    (ofAddress address i).endpoint = .ok (url, String.ofList url.authority) := by
  apply endpoint_of_parse
  · rw [target, query_eq, ofAddress, htext, hparse]
  · exact hhost
  · exact huser

/-- The address of requests to a port of the loopback host. -/
def loopbackUrl : Url where
  scheme := "http".toList
  host := some "127.0.0.1".toList
  port := some 8080
  path := ['/']
  query := some "Action=InvokeTool&Version=2025-10-30".toList
  fragment := none

theorem endpoint_loopback (i : Identity) :
    (ofAddress "http://127.0.0.1:8080" i).endpoint = .ok (loopbackUrl, "127.0.0.1:8080") := by
  have htext : trimSlashes "http://127.0.0.1:8080" ++ "/?" ++
      "Action=InvokeTool&Version=2025-10-30" =
        "http://127.0.0.1:8080/?Action=InvokeTool&Version=2025-10-30" := by decide +kernel
  exact endpoint_of_text i htext (by decide +kernel) rfl rfl

/-- Requests can be sent to the loopback host. -/
theorem canSend_loopback {i : Identity} (hkey : isHeaderValue i.accessKey = true)
    (hregion : isHeaderValue i.region = true) :
    (ofAddress "http://127.0.0.1:8080" i).CanSend loopbackUrl "127.0.0.1:8080" where
  endpoint := endpoint_loopback i
  reachable := by decide +kernel
  host := by decide
  accessKey := hkey
  region := hregion

/-- A run against the loopback host sends its request. -/
theorem sent_loopback {i : Identity} (hkey : isHeaderValue i.accessKey = true)
    (hregion : isHeaderValue i.region = true) (now : Int) (peer : Peer) (code : String) :
    ∃ r, ((ofAddress "http://127.0.0.1:8080" i).run now peer code).sent = [r] ∧
      r.url = loopbackUrl :=
  ⟨_, congrArg Run.sent (run_of_canSend (canSend_loopback hkey hregion) now peer code), rfl⟩

/-- A run against the loopback host sends a request, and the peer verifies it. -/
theorem loopback_verifies :
    let i : Identity := { accessKey := "key", secret := "secret", region := "cn-beijing" }
    ∃ r, ((ofAddress "http://127.0.0.1:8080" i).run 1761782400 (fun _ => .silence)
        "print(1)").sent = [r] ∧
      r.header? "Host" = some "127.0.0.1:8080" ∧ r.url.path = ['/'] ∧
      ∃ headers, r.resigned? i = some headers ∧
        r.header? "X-Content-Sha256" = some headers.contentHash ∧
        r.header? "Authorization" = some headers.authorization := by
  intro i
  have hmark : "http://127.0.0.1:8080".toList.all (fun c => c ≠ '?' ∧ c ≠ '#') = true := by decide
  have hslash : "127.0.0.1:8080".toList.all (fun c => c ≠ '/' ∧ c ≠ '\\') = true := by decide
  obtain ⟨hverified, _⟩ := request_verifies "http://127.0.0.1:8080" i 1761782400
    (fun _ => .silence) "print(1)" (fun c hc => of_decide_eq_true (List.all_eq_true.mp hmark c hc))
    (by rw [Calendar.startOfYear_zero]; decide) (by rw [Calendar.startOfYear_tenThousand]; decide)
  have hkey : isHeaderValue i.accessKey = true := by decide
  have hregion : isHeaderValue i.region = true := by decide
  obtain ⟨r, hsent, hurl⟩ := sent_loopback hkey hregion 1761782400 (fun _ => .silence) "print(1)"
  obtain ⟨_, hhost, hresigned, hpath⟩ := hverified r (by rw [hsent]; exact List.mem_cons_self)
  have hname : r.url.hostToName = "127.0.0.1:8080" := by
    rw [hurl]
    decide +kernel
  refine ⟨r, hsent, hhost.trans (congrArg some hname), ?_, hresigned⟩
  exact hpath "http" "127.0.0.1:8080" (by decide) (by decide)
    fun c hc => of_decide_eq_true (List.all_eq_true.mp hslash c hc)

end Transport
end RemoteFiles
