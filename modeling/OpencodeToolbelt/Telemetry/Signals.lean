import OpencodeToolbelt.Data.JsMap
import OpencodeToolbelt.Data.JsString
import Mathlib.Algebra.Order.Ring.Unbundled.Rat

/-!
# Telemetry signals

The spans, measurements and log records that the recorder produces, and the events and hooks
that it is told of. Times are in milliseconds.
-/

namespace Telemetry

/-! ### What is recorded -/

inductive AttrValue where
  | str (s : String)
  | num (x : ℚ)
  | bool (b : Bool)
  | strs (l : List String)
  deriving DecidableEq

/-- The properties of an object, as they are written: a later one replaces an earlier one of
the same name. -/
abbrev Attributes := List (String × AttrValue)

/-- A property that is left out when its string is missing or empty. -/
def attrStr (name : String) (value : Option String) : Attributes :=
  ((nonEmpty value).map fun s => (name, .str s)).toList

def attrNum (name : String) (value : Option ℚ) : Attributes :=
  (value.map fun x => (name, .num x)).toList

def attrBool (name : String) (value : Option Bool) : Attributes :=
  (value.map fun b => (name, .bool b)).toList

/-- How often each of a list of strings occurs, as properties whose names start with a text. -/
def attrCounts (start : String) (l : List String) : Attributes :=
  let counts := l.foldl (fun m s => m.set s ((m.get s).getD 0 + 1)) (.empty : JsMap String ℕ)
  counts.entries.map fun e => (start ++ e.1, .num e.2)

/-- What a span has for its parent. -/
inductive Context where
  | root
  | span (id : ℕ)
  deriving DecidableEq

inductive SpanKind where
  | internal
  | client
  deriving DecidableEq

structure SpanData where
  name : String
  kind : SpanKind
  startTime : ℚ
  attributes : Attributes
  parent : Context
  /-- The message of an error status, once one has been set. -/
  status : Option (Option String)

namespace SpanData

def setAttributes (attributes : Attributes) (span : SpanData) : SpanData :=
  { span with attributes := span.attributes ++ attributes }

def updateName (name : String) (span : SpanData) : SpanData := { span with name }

def setError (message : Option String) (span : SpanData) : SpanData :=
  { span with status := some message }

end SpanData

inductive Instrument where
  | cost
  | tokens
  | duration
  | sessions
  | requests
  | compactions
  | activeTime
  | linesOfCode
  | toolInvocations
  | permissionDecisions
  | commands
  deriving DecidableEq

/-- What a measurement is about. This is not recorded. -/
inductive Source where
  | session (id : String)
  | message (id : String)
  | call (id : String)
  | file (sessionID file : String)
  | permission (id : String)
  deriving DecidableEq

structure Measurement where
  instrument : Instrument
  value : ℚ
  attributes : Attributes
  source : Source

inductive Severity where
  | info
  | warn
  | error
  deriving DecidableEq

/-- `severity >= SeverityNumber.ERROR ? "ERROR" : "INFO"` -/
def Severity.text : Severity → String
  | .error => "ERROR"
  | _ => "INFO"

structure LogRecord where
  timestamp : ℚ
  severity : Severity
  severityText : String
  body : String
  attributes : Attributes
  context : Option Context

/-! ### What is reported -/

structure SessionInfo where
  id : String
  parentID : Option String
  directory : Option String

inductive SessionStatus where
  | busy
  | retry (attempt : Option ℚ)
  | idle

structure MessageError where
  name : Option String
  statusCode : Option ℚ
  isRetryable : Option Bool

structure FileDiff where
  file : String
  additions : Option ℚ
  deletions : Option ℚ

structure CacheTokens where
  read : ℚ
  write : ℚ

structure Tokens where
  input : ℚ
  output : ℚ
  reasoning : ℚ
  cache : Option CacheTokens

structure MessageTime where
  created : ℚ
  completed : Option ℚ

structure Message where
  id : String
  sessionID : String
  role : String
  modelID : Option String
  providerID : Option String
  mode : Option String
  cost : Option ℚ
  tokens : Option Tokens
  time : Option MessageTime
  error : Option MessageError
  finish : Option String

/-- The state of a tool part: its status and, if it has them, its start and end. -/
structure PartState where
  status : String
  time : Option (Option ℚ × Option ℚ)

structure Part where
  type : String
  callID : Option String
  tool : Option String
  sessionID : Option String
  state : Option PartState

structure ToolInput where
  tool : String
  sessionID : String
  callID : String

/-- The sampling parameters of a request, none when they are not finite numbers. -/
structure SamplingParams where
  temperature : Option ℚ
  topP : Option ℚ
  topK : Option ℚ
  maxOutputTokens : Option ℚ

structure PromptPart where
  type : Option String
  text : Option String

/-- The events of the host, and the hooks that it calls. -/
inductive HostEvent where
  | sessionCreated (info : SessionInfo)
  | sessionIdle (sessionID : String)
  | sessionStatus (sessionID : String) (status : SessionStatus)
  | sessionCompacted (sessionID : String)
  | sessionError (sessionID : Option String) (error : Option MessageError)
  | sessionDiff (sessionID : String) (diff : List FileDiff)
  | messageUpdated (info : Message)
  | messagePartUpdated (part : Part)
  | permissionUpdated (id type sessionID : String)
  | permissionReplied (sessionID permissionID response : String)
  | commandExecuted (sessionID name : String) (arguments : Option String)
  | installationUpdated (version : String)
  | vcsBranchUpdated (branch : Option String)
  | todoUpdated (sessionID : String) (statuses : List (Option String))
  | sessionDeleted (id : String)
  | serverInstanceDisposed
  /-- An event that the recorder has no use for. -/
  | other
  | chatMessage (sessionID : String) (agent modelID providerID : Option String)
      (parts : List PromptPart)
  | chatParams (sessionID : String) (model agent : Option String) (output : SamplingParams)
  | textComplete (sessionID messageID : String) (text : Option String)
  | permissionAsk (id type sessionID : String) (status : Option String)
  | compactionAutocontinue (sessionID : String) (overflow : Bool) (agent : Option String)
      (enabled : Option Bool)
  | toolBefore (input : ToolInput)
  | toolAfter (input : ToolInput) (output : Option String)
  | shutdown

/-! ### Languages -/

def EXTENSION_LANGUAGES : List (String × String) :=
  [("ts", "typescript"), ("tsx", "typescript"), ("mts", "typescript"), ("cts", "typescript"),
    ("js", "javascript"), ("jsx", "javascript"), ("mjs", "javascript"), ("cjs", "javascript"),
    ("py", "python"), ("rs", "rust"), ("go", "go"), ("java", "java"), ("kt", "kotlin"),
    ("kts", "kotlin"), ("swift", "swift"), ("dart", "dart"), ("rb", "ruby"), ("php", "php"),
    ("cs", "csharp"), ("c", "c"), ("h", "c"), ("cc", "cpp"), ("cpp", "cpp"), ("hpp", "cpp"),
    ("m", "objective-c"), ("mm", "objective-c"), ("scala", "scala"), ("ex", "elixir"),
    ("exs", "elixir"), ("sh", "shell"), ("bash", "shell"), ("zsh", "shell"), ("sql", "sql"),
    ("html", "html"), ("css", "css"), ("scss", "scss"), ("json", "json"), ("yaml", "yaml"),
    ("yml", "yaml"), ("toml", "toml"), ("md", "markdown"), ("tf", "terraform")]

/-- What follows the last occurrence of a character, the whole text when there is none. -/
def afterLast (c : Char) (l : List Char) : List Char := (l.reverse.takeWhile (· ≠ c)).reverse

/-- The language of a file, by its extension. A name that starts with its only dot has no
extension. -/
def detectLanguage (file : String) : Option String :=
  let base := afterLast '/' file.toList
  if '.' ∈ base.drop 1 then
    EXTENSION_LANGUAGES.lookup (String.ofList (toLowerCase (afterLast '.' base)))
  else none

end Telemetry
