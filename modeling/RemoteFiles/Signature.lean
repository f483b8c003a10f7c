import RemoteFiles.Calendar
import RemoteFiles.Digest.Hmac
import RemoteFiles.Text.Blank
import RemoteFiles.Text.Hex
import RemoteFiles.Text.Utf8

/-!
# Signatures

A request is signed by a keyed hash of a text that names its time, its scope and the hash of a
second text: the canonical request, which names the method, the query, four headers and the hash
of the body.  The key is derived from the secret by hashing in the day, the region and the service.

## Main definitions

* `Signature.Subject` — what a signature covers.
* `Signature.canonicalRequest`, `Signature.stringToSign` — the two texts.
* `Signature.signingKey` — the derived key.
* `Signature.sign` — the headers that carry the signature.
-/

namespace RemoteFiles
namespace Signature

/-- What a signature covers, and the credentials it is made with. -/
structure Subject where
  method : String
  /-- The host as the request names it, with the port where it is not the scheme's own. -/
  host : String
  query : String
  body : List UInt8
  accessKey : String
  secret : String
  region : String
  service : String
  /-- Seconds since the start of 1970. -/
  time : Int
  deriving DecidableEq, Repr

/-- The headers that carry a signature. -/
structure Headers where
  date : String
  contentHash : String
  contentType : String
  authorization : String
  deriving DecidableEq, Repr

/-- The headers by name, in the order in which they are set. -/
def Headers.toList (h : Headers) : List (String × String) :=
  [("X-Date", h.date), ("X-Content-Sha256", h.contentHash), ("Content-Type", h.contentType),
    ("Authorization", h.authorization)]

/-- The name of the scheme. -/
def algorithm : String := "HMAC-SHA256"

/-- The type of every body. -/
def contentType : String := "application/json"

/-- The names of the headers that are signed. -/
def signedHeaders : String := "host;x-date;x-content-sha256;content-type"

/-- The hash of some bytes, in lower-case digits. -/
def hashText (bs : List UInt8) : String := Hex.encode (Sha256.digest bs)

/-- A signed header on a line of its own. -/
def headerLine (name value : String) : String := name ++ ":" ++ Text.trim value ++ "\n"

/-- The text that names what is requested.  The path is always the root, and the headers end with
an empty line. -/
def canonicalRequest (s : Subject) (date payloadHash : String) : String :=
  s.method ++ "\n/\n" ++ s.query ++ "\n" ++
    headerLine "host" s.host ++ headerLine "x-date" date ++
    headerLine "x-content-sha256" payloadHash ++ headerLine "content-type" contentType ++
    "\n" ++ signedHeaders ++ "\n" ++ payloadHash

/-- The day of a moment's text: its first eight characters. -/
def dayOf (date : String) : String := String.ofList (date.toList.take 8)

/-- The scope that a key is good for. -/
def scope (s : Subject) (date : String) : String :=
  dayOf date ++ "/" ++ s.region ++ "/" ++ s.service ++ "/request"

/-- The text that is signed. -/
def stringToSign (s : Subject) : String :=
  let date := Calendar.stamp s.time
  let canonical := canonicalRequest s date (hashText s.body)
  algorithm ++ "\n" ++ date ++ "\n" ++ scope s date ++ "\n" ++ hashText (Utf8.encode canonical)

/-- The key for a day, a region and a service. -/
def signingKey (secret day region service : String) : List UInt8 :=
  [day, region, service, "request"].foldl (fun key part => Hmac.mac key (Utf8.encode part))
    (Utf8.encode secret)

/-- The signature, in lower-case digits. -/
def signature (s : Subject) : String :=
  let key := signingKey s.secret (dayOf (Calendar.stamp s.time)) s.region s.service
  Hex.encode (Hmac.mac key (Utf8.encode (stringToSign s)))

/-- What comes before the signature in the header that carries it. -/
def credential (s : Subject) : String :=
  algorithm ++ " Credential=" ++ s.accessKey ++ "/" ++ scope s (Calendar.stamp s.time) ++
    ", SignedHeaders=" ++ signedHeaders ++ ", Signature="

/-- The headers of a signed request. -/
def sign (s : Subject) : Headers where
  date := Calendar.stamp s.time
  contentHash := hashText s.body
  contentType := contentType
  authorization := credential s ++ signature s

end Signature
end RemoteFiles
