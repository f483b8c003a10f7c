import RemoteFiles.Digest.Sha256

/-!
# Keyed hashes

## Main definitions

* `Hmac.block` — a key as one block of the hash.
* `Hmac.mac` — the keyed hash of a message.
-/

namespace RemoteFiles
namespace Hmac

/-- A key as one block of sixty-four bytes: hashed if it is longer, and filled up with zeros. -/
def block (key : List UInt8) : List UInt8 :=
  let short := if 64 < key.length then Sha256.digest key else key
  short ++ List.replicate (64 - short.length) 0

/-- The keyed hash of a message. -/
def mac (key message : List UInt8) : List UInt8 :=
  let inner := Sha256.digest ((block key).map (· ^^^ 0x36) ++ message)
  Sha256.digest ((block key).map (· ^^^ 0x5c) ++ inner)

theorem length_mac (key message : List UInt8) : (mac key message).length = 32 :=
  Sha256.length_digest _

end Hmac
end RemoteFiles
