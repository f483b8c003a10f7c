import RemoteFiles.Region
import RemoteFiles.Text.Blank
import RemoteFiles.Text.Number
import RemoteFiles.Text.Shown
import RemoteFiles.Text.Utf8

/-!
# Configuration

The settings of a sandbox, given directly or by the environment.

## Main definitions

* `Config` — the settings.
* `Config.shown` — the settings as they are shown, without the secret.
* `Environment` — variables and their bytes.
* `Config.ofEnvironment` — the settings that the environment gives.
-/

namespace RemoteFiles

/-- A time limit, or none, may be given in whole milliseconds. -/
instance : Coe (Option Nat) (Option Duration) :=
  ⟨Option.map fun ms => .ofMillis (UInt64.ofNat ms)⟩

/-- How requests are sent. -/
inductive ClientChoice where
  /-- By a client made for the purpose. -/
  | standard
  /-- By a client that the caller supplies. -/
  | supplied
  deriving DecidableEq, Repr

/-- The settings of a sandbox.  Texts that are not set are empty. -/
structure Config where
  accessKey : String := ""
  secret : String := ""
  /-- The tool that runs the scripts. -/
  toolId : String := ""
  /-- The name of the region; empty for Beijing. -/
  region : String := ""
  sessionId : String := ""
  /-- A session of the user, which outlives the tool's own. -/
  userSessionId : String := ""
  /-- How long a new session lives, in seconds; nothing and zero leave it to the server. -/
  sessionTtl : Option UInt32 := none
  /-- How long a script may run, in seconds; nothing and zero leave it to the server. -/
  executionTimeout : Option UInt32 := none
  client : ClientChoice := .standard
  /-- How long a request may take with the standard client. -/
  requestTimeout : Option Duration := none
  deriving DecidableEq, Repr

namespace Config

/-- The region that the settings mean. -/
def resolveRegion (c : Config) : Except ConfigError Region := Region.ofSetting c.region

/-- The settings as they are shown; of the secret nothing is shown. -/
def shown (c : Config) : String :=
  Shown.fields "Config" [
    ("access_key_id", Shown.text c.accessKey),
    ("secret_access_key", Shown.text "[REDACTED]"),
    ("tool_id", Shown.text c.toolId),
    ("region", Shown.text c.region),
    ("session_id", Shown.text c.sessionId),
    ("user_session_id", Shown.text c.userSessionId),
    ("session_ttl", Shown.option Shown.word c.sessionTtl),
    ("execution_timeout", Shown.option Shown.word c.executionTimeout),
    ("http_client", Shown.flag (c.client = .supplied)),
    ("request_timeout", Shown.option Shown.duration c.requestTimeout)]

end Config

/-- The variables of an environment, each with its bytes. -/
abbrev Environment := List (String × List UInt8)

namespace Environment

/-- The text of a variable; a variable that is empty counts as not set. -/
def text? (env : Environment) (key : String) : Except ConfigError (Option String) :=
  match env.lookup key with
  | none => .ok none
  | some bytes =>
    match Utf8.decode? bytes with
    | some s => .ok (if s = "" then none else some s)
    | none =>
      .error (.invalidValue key
        ("environment variable was not valid unicode: " ++ Text.quotedBytes bytes))

/-- The text of a variable, empty if it is not set. -/
def text (env : Environment) (key : String) : Except ConfigError String :=
  (env.text? key).map (·.getD "")

/-- The number of a variable; blanks around it do not count. -/
def word? (env : Environment) (key : String) : Except ConfigError (Option UInt32) := do
  match ← env.text? key with
  | none => return none
  | some raw =>
    match Text.readWord (Text.trim raw) with
    | .ok n => return some n
    | .error f =>
      .error (.invalidValue key
        ("'" ++ raw ++ "' is not a non-negative integer: " ++ f.message))

end Environment

/-- The settings that the environment gives; the first variable that cannot be read is the
error. -/
def Config.ofEnvironment (env : Environment) : Except ConfigError Config := do
  let accessKey ← env.text "VOLC_ACCESS_KEY_ID"
  let secret ← env.text "VOLC_SECRET_ACCESS_KEY"
  let toolId ← env.text "VOLC_TOOL_ID"
  let region ← env.text "VOLC_REGION"
  let sessionId ← env.text "VOLC_SESSION_ID"
  let userSessionId ← env.text "VOLC_USER_SESSION_ID"
  let sessionTtl ← env.word? "VOLC_SESSION_TTL"
  let executionTimeout ← env.word? "VOLC_EXECUTION_TIMEOUT"
  return {
    accessKey := accessKey
    secret := secret
    toolId := toolId
    region := region
    sessionId := sessionId
    userSessionId := userSessionId
    sessionTtl := sessionTtl
    executionTimeout := executionTimeout }

end RemoteFiles
