import RemoteFiles.Operation
import RemoteFiles.Template

/-!
# Failures

What can go wrong with a configuration, with an invocation and with a file operation.

## Main definitions

* `ConfigError` — why a configuration is refused.
* `InvokeError` — why an invocation of the tool gave no outcome.
* `FileError` — why a file operation failed.
-/

namespace RemoteFiles

/-- Why a configuration is refused. -/
inductive ConfigError where
  /-- A required setting is empty. -/
  | missingField (name : String)
  /-- Neither kind of session is named. -/
  | missingSession
  /-- No such region. -/
  | invalidRegion (value : String)
  /-- A setting that cannot be read. -/
  | invalidValue (key detail : String)
  /-- There is no means to send requests. -/
  | httpClient (detail : String)
  deriving DecidableEq, Repr

/-- The text of the error. -/
def ConfigError.message : ConfigError → String
  | missingField name => name ++ " is required"
  | missingSession =>
    "SessionID or UserSessionID is required, at least one must be provided"
  | invalidRegion value => "invalid region: " ++ value
  | invalidValue key detail => "invalid value for " ++ key ++ ": " ++ detail
  | httpClient detail => "failed to build HTTP client: " ++ detail

/-- Why an invocation gave no outcome, in the order in which the stages come. -/
inductive InvokeError where
  /-- A document could not be written. -/
  | marshal (document detail : String)
  /-- The address is malformed. -/
  | invalidEndpoint (detail : String)
  /-- The request was not answered. -/
  | request (detail : String)
  /-- The answer broke off. -/
  | readBody (detail : String)
  /-- The answer has a status other than 200. -/
  | status (code : Nat)
  /-- The answer is not a document of the expected shape. -/
  | decodeResponse (detail : String)
  /-- The result inside the answer is not a document of the expected shape. -/
  | decodeResult (detail : String)
  deriving DecidableEq, Repr

namespace InvokeError

/-- The text of the error. -/
def message : InvokeError → String
  | marshal document detail => "failed to marshal " ++ document ++ ": " ++ detail
  | invalidEndpoint detail => "bad request: " ++ detail
  | request detail => "do request err: " ++ detail
  | readBody detail => "failed to read response body: " ++ detail
  | status code => "request failed with status code " ++ toString code
  | decodeResponse detail => "failed to unmarshal response: " ++ detail
  | decodeResult detail => "failed to unmarshal result data: " ++ detail

/-- Whether the invocation failed before anything was answered. -/
def isConnection : InvokeError → Bool
  | request _ => true
  | _ => false

end InvokeError

/-- Why a file operation failed. -/
inductive FileError where
  /-- A path that has to be absolute is not. -/
  | invalidPath (path : String)
  /-- An argument is missing or makes no sense. -/
  | invalidArgument (detail : String)
  /-- The script could not be made. -/
  | render (operation : Operation) (cause : TemplateError)
  /-- The script could not be run. -/
  | invoke (operation : Operation) (cause : InvokeError)
  /-- The script ran and failed. -/
  | scriptFailed (operation : Operation) (exitCode : Int) (output : String)
  deriving DecidableEq, Repr

namespace FileError

/-- There is no text to replace. -/
def oldTextMissing : FileError := invalidArgument "old string is required"

/-- A text is to be replaced by itself. -/
def newTextEqual : FileError := invalidArgument "new string must be different from old string"

/-- There is no command. -/
def commandMissing : FileError := invalidArgument "command is required"

/-- The text of the error. -/
def message : FileError → String
  | invalidPath path => "path must be an absolute path: " ++ path
  | invalidArgument detail => detail
  | render operation cause =>
    "failed to render " ++ operation.label ++ " template: " ++ cause.message
  | invoke operation cause =>
    "failed to execute " ++ operation.subject ++ " script: " ++ cause.message
  | scriptFailed operation exitCode output =>
    operation.failureLead ++ " " ++ toString exitCode ++ ": " ++ output

/-- The operation that failed, unless the request was refused before. -/
def operation? : FileError → Option Operation
  | invalidPath _ => none
  | invalidArgument _ => none
  | render operation _ => some operation
  | invoke operation _ => some operation
  | scriptFailed operation _ _ => some operation

/-- The exit code, for a script that failed. -/
def exitCode? : FileError → Option Int
  | scriptFailed _ exitCode _ => some exitCode
  | _ => none

/-- The text of the error inside, if there is one. -/
def cause? : FileError → Option String
  | render _ cause => some cause.message
  | invoke _ cause => some cause.message
  | _ => none

/-- Whether the request was refused without a script. -/
def isValidation : FileError → Bool
  | invalidPath _ => true
  | invalidArgument _ => true
  | _ => false

end FileError
end RemoteFiles
