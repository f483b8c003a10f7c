import RemoteFiles.Url.Parse
import RemoteFiles.Text.Utf8

/-!
# Exchanges

A request as it is handed to the client that sends it, and the reply as the client hands it back.
The client stands between the program and the server: it adds headers of its own, and where a server
redirects a request it goes on to the other place by itself, so that only the last answer is a
reply.

## Main definitions

* `Request` — what is sent.
* `Reply` — what comes back: nothing, half an answer, or an answer.
* `SendFault` — why a request gets no answer, or is not even sent.
* `Request.check` — what keeps a request from being sent.
-/

namespace RemoteFiles

/-- What is sent. -/
structure Request where
  method : String
  /-- The address, without the credentials that the client takes off it. -/
  url : Url
  /-- The user and the password that were on the address.  The client sends them in a basic
  `Authorization` header, in front of the other headers. -/
  credentials : Option (String × Option String) := none
  /-- The headers, by name, that the program and its body fix.  Besides these and the one for the
  credentials, the client sends that it accepts any answer. -/
  headers : List (String × String)
  body : List UInt8
  deriving DecidableEq, Repr

/-- What the client hands back for a request, redirects that it follows included: what came from
the place where the last of them leads.  Redirects without an end are left out. -/
inductive Reply where
  /-- No answer: nobody is there, the connection is closed, or time runs out. -/
  | silence
  /-- An answer that breaks off before the end of its body. -/
  | cutShort (status : Nat)
  /-- An answer. -/
  | answer (status : Nat) (body : List UInt8)
  deriving DecidableEq, Repr

/-- A peer, by the reply that comes back from it for each request: whatever is behind the client. -/
abbrev Peer := Request → Reply

/-- Why a request gets no answer. -/
inductive SendFault where
  /-- A header holds a character that no header may. -/
  | badHeader
  /-- The address is of a kind that requests cannot be sent to. -/
  | badAddress (url : Url)
  /-- Nobody answered. -/
  | unanswered (url : Url)
  deriving DecidableEq, Repr

/-- What is wrong. -/
def SendFault.message : SendFault → String
  | badHeader => "builder error"
  | badAddress url => "builder error for url (" ++ url.text ++ ")"
  | unanswered url => "error sending request for url (" ++ url.text ++ ")"

/-- A byte that a header may hold: a tab, or no control character. -/
def isHeaderByte (b : UInt8) : Bool := b = 0x09 || (0x20 ≤ b && b ≠ 0x7f)

/-- Whether a text can be the value of a header. -/
def isHeaderValue (s : String) : Bool := (Utf8.encode s).all isHeaderByte

/-- The greatest size, in bytes, of an address that requests can be sent to. -/
def Url.sizeLimit : Nat := 65534

/-- Whether requests can be sent to an address: the scheme is one of two, the host holds none of
the marks that a name may hold in an address and not in a request, and the whole is not too long. -/
def Url.isReachable (u : Url) : Bool :=
  (u.scheme = "http".toList || u.scheme = "https".toList) &&
    !(u.hostName?.getD []).any (· ∈ ['"', '\x60', '\x7b', '\x7d']) &&
    u.text.utf8ByteSize ≤ Url.sizeLimit

/-- What keeps a request from being sent, if anything does. -/
def Request.check (r : Request) : Except SendFault Unit :=
  if !r.headers.all (fun h => isHeaderValue h.2) then .error .badHeader
  else if !r.url.isReachable then .error (.badAddress r.url)
  else .ok ()

end RemoteFiles
