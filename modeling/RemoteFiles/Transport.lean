import RemoteFiles.Invocation
import RemoteFiles.Outcome
import RemoteFiles.Query
import RemoteFiles.Run
import RemoteFiles.Signature

/-!
# Transport

A script is sent to the tool in a signed request, and its outcome is taken from the answer.

## Main definitions

* `Transport` — an address and an identity.
* `Transport.request` — the request that runs a script at a given time.
* `Transport.run` — a script run through a peer.
-/

namespace RemoteFiles

/-- An address and an identity. -/
structure Transport where
  /-- The address, without slashes at its end. -/
  baseUrl : String
  identity : Identity
  deriving DecidableEq, Repr

namespace Transport

/-- A text without slashes at its end. -/
def trimSlashes (s : String) : String :=
  String.ofList (s.toList.reverse.dropWhile (· = '/')).reverse

/-- A transport to an address, given with or without slashes at its end. -/
def ofAddress (baseUrl : String) (identity : Identity) : Transport :=
  ⟨trimSlashes baseUrl, identity⟩

/-- The service that the tool belongs to. -/
def service : String := "agentkit"

/-- The query of every request. -/
def query : String := Query.canonical [("Action", "InvokeTool"), ("Version", "2025-10-30")]

/-- The address of every request, before it is read. -/
def target (t : Transport) : String := t.baseUrl ++ "/?" ++ query

variable [Url.Names]

/-- The address of every request, as the client goes there, and the host to name in it. -/
def endpoint (t : Transport) : Except InvokeError (Url × String) :=
  match Url.parse t.target with
  | .error f => .error (.invalidEndpoint f.message)
  | .ok url =>
    if url.hostName?.isSome then .ok (url.bare, String.ofList url.authority)
    else .error (.invalidEndpoint ("missing host in " ++ url.text))

/-- The credentials that the client takes off the address. -/
def credentials? (t : Transport) : Option (String × Option String) :=
  (Url.parse t.target).toOption.bind Url.credentials?

/-- What the signature of a request covers. -/
def subject (t : Transport) (host : String) (body : List UInt8) (now : Int) :
    Signature.Subject where
  method := "POST"
  host := host
  query := query
  body := body
  accessKey := t.identity.accessKey
  secret := t.identity.secret
  region := t.identity.region
  service := service
  time := now

/-- The request with a given body. -/
def request (t : Transport) (url : Url) (host : String) (body : List UInt8) (now : Int) :
    Request where
  method := "POST"
  url := url
  credentials := t.credentials?
  headers := (Signature.sign (t.subject host body now)).toList ++
    [("Content-Length", toString body.length), ("Host", host)]
  body := body

/-- The body of the request that runs a script. -/
def body (t : Transport) (code : String) : List UInt8 := (Invocation.ofScript t.identity code).body

/-- The body of the answer to a request, if it comes with the status 200. -/
def bodyOf (url : Url) : Reply → Run InvokeError (List UInt8)
  | .silence => .fail (.request (SendFault.unanswered url).message)
  | .cutShort _ => .fail (.readBody "error decoding response body")
  | .answer status body => do
    Run.log (.responded status body.length)
    if status = 200 then return body else .fail (.status status)

/-- Send a body and take the body of the answer. -/
def invoke (t : Transport) (now : Int) (peer : Peer) (body : List UInt8) :
    Run InvokeError (List UInt8) := do
  let (url, host) ← Run.ofExcept t.endpoint
  let request := t.request url host body now
  Run.log (.invoking t.identity.toolId body.length)
  Run.ofExcept (request.check.mapError fun f => .request f.message)
  let reply ← Run.send peer request
  bodyOf url reply

/-- Run a script. -/
def run (t : Transport) (now : Int) (peer : Peer) (code : String) : Run InvokeError Outcome := do
  let answer ← t.invoke now peer (t.body code)
  Run.ofExcept (Outcome.decode answer)

end Transport
end RemoteFiles
