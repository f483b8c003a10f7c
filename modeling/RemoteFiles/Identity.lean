import RemoteFiles.Config

/-!
# Identity

Who asks, and in which session: what every request carries.

## Main definitions

* `Identity` — the credentials and the session.
* `Identity.ofConfig` — the identity of a configuration that is complete.
* `Identity.shown` — an identity as it is shown, without the secret.
-/

namespace RemoteFiles

/-- The credentials and the session that every request carries. -/
structure Identity where
  accessKey : String := ""
  secret : String := ""
  region : String := ""
  toolId : String := ""
  sessionId : String := ""
  userSessionId : String := ""
  sessionTtl : Option UInt32 := none
  executionTimeout : Option UInt32 := none
  deriving DecidableEq, Repr

namespace Identity

/-- An identity as it is shown; the secret is left out. -/
def shown (i : Identity) : String :=
  Shown.someFields "SessionIdentity" [
    ("access_key_id", Shown.text i.accessKey),
    ("region", Shown.text i.region),
    ("tool_id", Shown.text i.toolId),
    ("session_id", Shown.text i.sessionId),
    ("user_session_id", Shown.text i.userSessionId),
    ("session_ttl", Shown.option Shown.word i.sessionTtl),
    ("execution_timeout", Shown.option Shown.word i.executionTimeout)]

/-- The identity of a configuration in a region. -/
def ofParts (c : Config) (region : Region) : Identity where
  accessKey := c.accessKey
  secret := c.secret
  region := region.code
  toolId := c.toolId
  sessionId := c.sessionId
  userSessionId := c.userSessionId
  sessionTtl := c.sessionTtl
  executionTimeout := c.executionTimeout

/-- The identity of a configuration, and its region.  The first setting that is missing is the
error, and then a region that does not exist. -/
def ofConfig (c : Config) : Except ConfigError (Identity × Region) :=
  if c.accessKey = "" then .error (.missingField "AccessKeyID")
  else if c.secret = "" then .error (.missingField "SecretAccessKey")
  else if c.toolId = "" then .error (.missingField "ToolID")
  else if c.sessionId = "" ∧ c.userSessionId = "" then .error .missingSession
  else c.resolveRegion.map fun region => (ofParts c region, region)

end Identity
end RemoteFiles
