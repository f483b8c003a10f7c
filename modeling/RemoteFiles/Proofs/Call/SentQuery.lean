import RemoteFiles.Proofs.Call.Course
import RemoteFiles.Proofs.Verification

/-!
# The query that is sent

The query is signed as a text of its own.  What is sent is the query of an address that is read from
the given one with that text behind it.  Nothing looks for marks in the given address, so the two
agree only if there are none, or by coincidence: in front of any other address the query is cut off
by a fragment, or it ends up inside a longer one, and the request is sent all the same.

## Main definitions

* `Run.Asks` — a run that fails before it sends anything, or sends one signed request.

## Main results

* `Transport.query_request_iff` — the query of a request is the signed one just if the given address
  keeps it.
* `Transport.signed_query_sent_iff` — **the same for every run and every call.**
-/

namespace RemoteFiles

variable {ε α : Type}

/-- What a run sends to a given address: nothing, and then it fails, or one request with a signature
of the identity, whose own query is the one under the signature just if the address keeps it. -/
inductive Run.Asks (address : String) (i : Identity) (now : Int) (x : Run ε α) : Prop where
  /-- Nothing is sent. -/
  | nothing {e : ε} (sent : x.sent = []) (result : x.result = .error e)
  /-- One request is sent. -/
  | once {r : Request} {s : Signature.Subject} (sent : x.sent = [r])
      (subject : ∃ host, s = (Transport.ofAddress address i).subject host r.body now)
      (signed : r.header? "Authorization" = some (Signature.sign s).authorization)
      (query : r.url.query = some s.query.toList ↔
        Url.KeepsQuery s.query.toList address.toList)

namespace Transport

variable {address : String} {i : Identity} {url : Url} {host : String} {now : Int}

/-- An address is what is left without its slashes, and slashes. -/
theorem toList_eq_trimSlashes_append (s : String) :
    ∃ slashes, (∀ c ∈ slashes, c = '/') ∧ s.toList = (trimSlashes s).toList ++ slashes := by
  refine ⟨(s.toList.reverse.takeWhile (· = '/')).reverse, ?_, ?_⟩
  · intro c hc
    have hslash := List.mem_takeWhile_imp (List.mem_reverse.mp hc)
    simpa using hslash
  · rw [trimSlashes, String.toList_ofList, ← List.reverse_append,
      List.takeWhile_append_dropWhile, List.reverse_reverse]

theorem percent_notMem_query : '%' ∉ query.toList := by
  rw [query_eq]
  decide

/-- **The query of a request is the signed one just if the given address keeps it.** -/
theorem query_request_iff [Url.Names] {body : List UInt8}
    (hendpoint : (ofAddress address i).endpoint = .ok (url, host))
    (hcheck : ((ofAddress address i).request url host body now).check = .ok ()) :
    url.query = some query.toList ↔ Url.KeepsQuery query.toList address.toList := by
  obtain ⟨user, hparse, _⟩ := endpoint_spec hendpoint
  obtain ⟨port, hport⟩ := ownPort_of_check hcheck
  rw [target_eq] at hparse
  have hread : Url.ownPort? { url with user := user }.scheme = some port := hport
  obtain ⟨_, hquery⟩ := Url.parse_splitTail isSafe_query hread hparse
  obtain ⟨slashes, hslashes, haddress⟩ := toList_eq_trimSlashes_append address
  rw [hquery, Url.query_behind_iff _ isSafe_query percent_notMem_query, haddress,
    Url.keepsQuery_append_slashes hslashes]
  rfl

/-- A request carries a signature for its own body. -/
theorem authorization_request [Url.Names] (t : Transport) (url : Url) (host : String) (body : List UInt8)
    (now : Int) :
    let r := t.request url host body now
    r.header? "Authorization" =
      some (Signature.sign (t.subject host r.body now)).authorization := rfl

/-- What a run asks that sends the request of an endpoint. -/
theorem asks_of_sent [Url.Names] {x : Run ε α} {body : List UInt8}
    (hendpoint : (ofAddress address i).endpoint = .ok (url, host))
    (hcheck : ((ofAddress address i).request url host body now).check = .ok ())
    (hsent : x.sent = [(ofAddress address i).request url host body now]) :
    x.Asks address i now := by
  have hsigned := authorization_request (ofAddress address i) url host body now
  exact .once hsent ⟨host, rfl⟩ hsigned (query_request_iff hendpoint hcheck)

/-- What a run sends. -/
theorem asks_run [Url.Names] (address : String) (i : Identity) (now : Int) (peer : Peer) (code : String) :
    ((ofAddress address i).run now peer code).Asks address i now := by
  rcases (ofAddress address i).run_cases now peer code with
    ⟨e, _, hrun⟩ | ⟨url, host, f, _, _, hrun⟩ | ⟨url, host, hendpoint, hcheck, hrun⟩
  · rw [hrun]
    exact .nothing rfl rfl
  · rw [hrun]
    exact .nothing rfl rfl
  · apply asks_of_sent hendpoint hcheck
    rw [hrun]

/-- A call ends in another way than the run of its script, but sends the same. -/
theorem asks_conclude {x : Run InvokeError Outcome} (h : x.Asks address i now) (c : Call)
    (es : List Event) :
    (⟨es, x.sent, c.conclude x.result⟩ : Run FileError Answer).Asks address i now := by
  cases h with
  | @nothing e hsent hresult =>
    have hend : c.conclude x.result = .error (.invoke c.operation e) := by
      rw [hresult, Call.conclude]
    exact .nothing hsent hend
  | once hsent hsubject hsigned hquery => exact .once hsent hsubject hsigned hquery

/-- What a call sends. -/
theorem asks_call [Url.Names] (s : Sandbox) (address : String) (now : Int) (peer : Peer) (c : Call) :
    ((s.retarget address).call now peer c).Asks address s.identity now := by
  cases hparams : c.params with
  | error e =>
    rw [Sandbox.call_of_refused _ now peer hparams]
    exact .nothing rfl rfl
  | ok ps =>
    have htransport : (s.retarget address).transport = ofAddress address s.identity := rfl
    rw [Sandbox.call_of_params _ now peer hparams, htransport]
    exact asks_conclude (asks_run address s.identity now peer c.scriptText) c _

/-- **The query that is sent is the one that is signed just for the addresses that keep it.**  Every
run and every call at an address either fails and sends nothing, or sends one request, signed for
the query of the service; and what the peer finds as the query is that one if and only if the
address holds no mark, or has the same query already and a fragment behind it. -/
theorem signed_query_sent_iff [Url.Names] (address : String) (now : Int) (peer : Peer) :
    query = "Action=InvokeTool&Version=2025-10-30" ∧
    (∀ (i : Identity) (code : String),
      ((ofAddress address i).run now peer code).Asks address i now) ∧
    ∀ (s : Sandbox) (c : Call),
      ((s.retarget address).call now peer c).Asks address s.identity now := by
  refine ⟨query_eq, ?_, ?_⟩
  · intro i code
    exact asks_run address i now peer code
  · intro s c
    exact asks_call s address now peer c

/-- The address that is asked where the loopback host is given with a query of its own. -/
def markedUrl : Url :=
  { loopbackUrl with query := some "x=1/?Action=InvokeTool&Version=2025-10-30".toList }

theorem endpoint_marked (i : Identity) :
    (ofAddress "http://127.0.0.1:8080/?x=1" i).endpoint = .ok (markedUrl, "127.0.0.1:8080") := by
  have htext : trimSlashes "http://127.0.0.1:8080/?x=1" ++ "/?" ++
      "Action=InvokeTool&Version=2025-10-30" =
        "http://127.0.0.1:8080/?x=1/?Action=InvokeTool&Version=2025-10-30" := by decide +kernel
  exact endpoint_of_text i htext (by decide +kernel) rfl rfl

/-- A run that is given the loopback host with a query of its own sends its request. -/
theorem sent_marked {i : Identity} (hkey : isHeaderValue i.accessKey = true)
    (hregion : isHeaderValue i.region = true) (now : Int) (peer : Peer) (code : String) :
    let t := ofAddress "http://127.0.0.1:8080/?x=1" i
    ∃ r, (t.run now peer code).sent = [r] ∧ r.url = markedUrl ∧
      r.header? "Authorization" =
        some (Signature.sign (t.subject "127.0.0.1:8080" r.body now)).authorization := by
  intro t
  have hsend : t.CanSend markedUrl "127.0.0.1:8080" := {
    endpoint := endpoint_marked i
    reachable := by decide +kernel
    host := by decide
    accessKey := hkey
    region := hregion }
  exact ⟨_, congrArg Run.sent (run_of_canSend hsend now peer code), rfl,
    authorization_request _ _ _ _ _⟩

/-- That request is signed for one query and carries another. -/
theorem marked_asks_otherwise :
    let i : Identity := { accessKey := "key", secret := "secret", region := "cn-beijing" }
    let t := ofAddress "http://127.0.0.1:8080/?x=1" i
    ∃ (r : Request) (s : Signature.Subject),
      (t.run 1761782400 (fun _ => .silence) "print(1)").sent = [r] ∧
      s = t.subject "127.0.0.1:8080" r.body 1761782400 ∧
      r.header? "Authorization" = some (Signature.sign s).authorization ∧
      s.query = "Action=InvokeTool&Version=2025-10-30" ∧
      r.url.query = some "x=1/?Action=InvokeTool&Version=2025-10-30".toList ∧
      r.url.query ≠ some s.query.toList := by
  intro i t
  have hkey : isHeaderValue i.accessKey = true := by decide
  have hregion : isHeaderValue i.region = true := by decide
  obtain ⟨r, hsent, hurl, hsigned⟩ := sent_marked hkey hregion 1761782400 (fun _ => .silence)
    "print(1)"
  have hquery : markedUrl.query ≠ some query.toList := by
    rw [query_eq]
    decide
  rw [← hurl] at hquery
  exact ⟨r, _, hsent, rfl, hsigned, query_eq, congrArg Url.query hurl, hquery⟩

end Transport
end RemoteFiles
