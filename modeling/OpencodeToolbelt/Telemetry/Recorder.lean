import OpencodeToolbelt.Telemetry.Signals

/-!
# The telemetry recorder

The recorder turns the events of the host into spans, measurements and log records. What it
remembers of sessions, messages, tool calls, permissions and files is kept in maps.
-/

namespace Telemetry

/-! ### The state -/

structure RecorderDeps where
  /-- Whether there is a tracer, a meter and a logger to report to. -/
  tracer : Bool
  meter : Bool
  otelLogger : Bool
  includeSessionId : Bool
  filteredTools : List String

structure SessionState where
  span : Option ℕ
  context : Context
  startedAt : ℚ
  busySince : Option ℚ
  requests : ℕ
  cost : ℚ
  inputTokens : ℚ
  outputTokens : ℚ

structure ChatState where
  span : Option ℕ
  sessionID : String
  /-- The sampling parameters of the request, stamped when the span ends. -/
  params : Option Attributes

structure ToolSpanState where
  span : Option ℕ
  tool : String
  sessionID : String
  startedAt : ℚ

structure PermissionState where
  type : String
  sessionID : String

/-- The totals of a file that were reported last. -/
structure DiffState where
  additions : ℚ
  deletions : ℚ

/-- A recorder, with what it has reported so far. -/
structure Recorder where
  /-- `Date.now()` -/
  now : ℚ
  sessions : JsMap String SessionState
  chats : JsMap String ChatState
  /-- The chats of sessions whose message has not arrived yet. -/
  pendingChats : JsMap String ChatState
  tools : JsMap String ToolSpanState
  responseLengths : JsMap String ℕ
  autoDecided : JsMap String Unit
  /-- The calls whose outcome has been counted, with their session. -/
  finishedTools : JsMap String String
  /-- The messages that have been counted, with their session. -/
  finalizedMessages : JsMap String String
  permissions : JsMap String PermissionState
  /-- The files of the sessions, under keys of a session, a NUL and a file. -/
  diffs : JsMap String DiffState
  spans : JsMap ℕ SpanData
  spanSeq : ℕ
  /-- The calls of `end`, with the time they were given, the latest first. -/
  ended : List (ℕ × Option ℚ)
  /-- What has been measured and logged, the latest first. -/
  measurements : List Measurement
  logs : List LogRecord
  /-- What has been told to the sinks of the resource. -/
  version : Option String
  branch : Option String

namespace Recorder

/-- A recorder that has just been made. -/
def initial : Recorder where
  now := 0
  sessions := .empty
  chats := .empty
  pendingChats := .empty
  tools := .empty
  responseLengths := .empty
  autoDecided := .empty
  finishedTools := .empty
  finalizedMessages := .empty
  permissions := .empty
  diffs := .empty
  spans := .empty
  spanSeq := 0
  ended := []
  measurements := []
  logs := []
  version := none
  branch := none

variable (deps : RecorderDeps) (r : Recorder)

/-! ### Reporting -/

def metricSession (sessionID : String) : Attributes :=
  if deps.includeSessionId then [("gen_ai.conversation.id", .str sessionID)] else []

def emit (name : String) (attributes : Attributes) (severity : Severity)
    (context : Option Context) : Recorder :=
  if deps.otelLogger then
    { r with
      logs :=
        { timestamp := r.now
          severity
          severityText := severity.text
          body := name
          attributes := ("event.name", .str name) :: attributes
          context } :: r.logs }
  else r

/-- A measurement is made with an instrument. -/
def measure (source : Source) (instrument : Instrument) (value : ℚ) (attributes : Attributes) :
    Recorder :=
  if deps.meter then
    { r with measurements := ⟨instrument, value, attributes, source⟩ :: r.measurements }
  else r

def startSpan (span : SpanData) : Recorder × Option ℕ :=
  if deps.tracer then
    ({ r with
        spans := r.spans.set r.spanSeq span
        spanSeq := r.spanSeq + 1 }, some r.spanSeq)
  else (r, none)

/-- `span?.end(time)` -/
def endSpan (span : Option ℕ) (time : Option ℚ) : Recorder :=
  match span with
  | none => r
  | some id => { r with ended := (id, time) :: r.ended }

/-- A span is given another name, other attributes or a status. -/
def updateSpan (span : Option ℕ) (f : SpanData → SpanData) : Recorder :=
  match span.bind fun id => (r.spans.get id).map fun data => (id, data) with
  | none => r
  | some (id, data) => { r with spans := r.spans.set id (f data) }

/-! ### Sessions -/

/-- The state of a session that was never seen to be created. -/
def unseenSession : SessionState where
  span := none
  context := .root
  startedAt := r.now
  busySince := none
  requests := 0
  cost := 0
  inputTokens := 0
  outputTokens := 0

/-- The state of a session, which is made if there is none. -/
def session (sessionID : String) : Recorder × SessionState :=
  match r.sessions.get sessionID with
  | some state => (r, state)
  | none => ({ r with sessions := r.sessions.set sessionID r.unseenSession }, r.unseenSession)

def setSession (sessionID : String) (state : SessionState) : Recorder :=
  { r with sessions := r.sessions.set sessionID state }

def onSessionCreated (info : SessionInfo) : Recorder :=
  let kind := if (nonEmpty info.parentID).isSome then "child" else "root"
  let (r, span) := r.startSpan deps
    { name := "invoke_agent opencode"
      kind := .internal
      startTime := r.now
      attributes :=
        [("gen_ai.operation.name", .str "invoke_agent"), ("gen_ai.agent.name", .str "opencode"),
          ("gen_ai.conversation.id", .str info.id), ("opencode.session.kind", .str kind)]
      parent := .root
      status := none }
  let context := span.elim .root .span
  let r := r.setSession info.id
    { span
      context
      startedAt := r.now
      busySince := none
      requests := 0
      cost := 0
      inputTokens := 0
      outputTokens := 0 }
  let r := r.measure deps (.session info.id) .sessions 1
    (("opencode.session.kind", .str kind) :: metricSession deps info.id)
  r.emit deps "opencode.session_start"
    ([("gen_ai.conversation.id", .str info.id), ("opencode.session.kind", .str kind)] ++
      attrStr "opencode.session.parent_id" info.parentID ++
      attrStr "opencode.directory" info.directory)
    .info (some context)

/-- The time for which a session has been busy is reported. -/
def settleActiveTime (sessionID : String) (state : SessionState) : Recorder :=
  match state.busySince with
  | none => r
  | some busySince =>
      (r.setSession sessionID { state with busySince := none }).measure deps
        (.session sessionID) .activeTime (max 0 ((r.now - busySince) / 1000))
        (metricSession deps sessionID)

def onSessionStatus (sessionID : String) (status : SessionStatus) : Recorder :=
  let (r, state) := r.session sessionID
  match status with
  | .busy =>
      r.setSession sessionID { state with busySince := some (state.busySince.getD r.now) }
  | .retry attempt =>
      r.emit deps "opencode.api_error"
        ([("gen_ai.conversation.id", .str sessionID), ("error.type", .str "retry"),
          ("opencode.error.retryable", .bool true)] ++ attrNum "opencode.retry.attempt" attempt)
        .warn (some state.context)
  | .idle => r.settleActiveTime deps sessionID state

/-- The marks of the messages and calls of a session that have been counted are dropped. -/
def pruneCompleted (sessionID : String) : Recorder :=
  let messages := (r.finalizedMessages.entries.filter (·.2 = sessionID)).map Prod.fst
  { r with
    finalizedMessages := r.finalizedMessages.filter fun _ owner => owner ≠ sessionID
    responseLengths := r.responseLengths.filter fun id _ => id ∉ messages
    finishedTools := r.finishedTools.filter fun _ owner => owner ≠ sessionID }

/-- The span of a session ends, and its state is dropped. -/
def closeSession (sessionID : String) (state : SessionState) : Recorder :=
  { r.endSpan state.span none with sessions := r.sessions.delete sessionID }

def onSessionIdle (sessionID : String) : Recorder :=
  match r.sessions.get sessionID with
  | none => r
  | some state =>
      let r := r.settleActiveTime deps sessionID state
      let r := r.emit deps "opencode.session_idle"
        [("gen_ai.conversation.id", .str sessionID),
          ("opencode.session.duration_ms", .num (r.now - state.startedAt)),
          ("opencode.session.request_count", .num state.requests),
          ("opencode.cost.usage", .num state.cost),
          ("gen_ai.usage.input_tokens", .num state.inputTokens),
          ("gen_ai.usage.output_tokens", .num state.outputTokens)]
        .info (some state.context)
      let r := r.updateSpan state.span (SpanData.setAttributes
        [("opencode.session.request_count", .num state.requests),
          ("opencode.cost.usage", .num state.cost)])
      (r.closeSession sessionID state).pruneCompleted sessionID

def onCompacted (sessionID : String) : Recorder :=
  let (r, state) := r.session sessionID
  let r := r.measure deps (.session sessionID) .compactions 1 (metricSession deps sessionID)
  let (r, span) := r.startSpan deps
    { name := "session_compaction"
      kind := .internal
      startTime := r.now
      attributes := []
      parent := state.context
      status := none }
  (r.endSpan span none).emit deps "opencode.compaction"
    [("gen_ai.conversation.id", .str sessionID)] .info (some state.context)

/-- The session that an error names, if it names one. -/
def sessionOf (sessionID : Option String) : Recorder × Option SessionState :=
  match nonEmpty sessionID with
  | none => (r, none)
  | some sessionID =>
      let (r, state) := r.session sessionID
      (r, some state)

def onSessionError (sessionID : Option String) (error : Option MessageError) : Recorder :=
  let (r, state) := r.sessionOf sessionID
  r.emit deps "opencode.api_error"
    (attrStr "gen_ai.conversation.id" sessionID ++
      [("error.type", .str ((error.bind MessageError.name).getD "UnknownError"))] ++
      attrNum "http.response.status_code" (error.bind MessageError.statusCode) ++
      attrBool "opencode.error.retryable" (error.bind MessageError.isRetryable))
    .error (state.map SessionState.context)

def diffKeyPrefix (sessionID : String) : String := sessionID ++ String.singleton (Char.ofNat 0)

def diffKey (sessionID file : String) : String := diffKeyPrefix sessionID ++ file

/-- A file of a diff: what is new of its totals is counted. -/
def onFileDiff (sessionID : String) (context : Context) (entry : FileDiff) : Recorder :=
  let key := diffKey sessionID entry.file
  let previous := (r.diffs.get key).getD ⟨0, 0⟩
  let additions := entry.additions.getD 0
  let deletions := entry.deletions.getD 0
  let added := max 0 (additions - previous.additions)
  let removed := max 0 (deletions - previous.deletions)
  let r : Recorder := { r with diffs := r.diffs.set key ⟨additions, deletions⟩ }
  if added = 0 ∧ removed = 0 then r
  else
    let languageAttr := attrStr "code.language" (detectLanguage entry.file)
    let r :=
      if 0 < added then
        r.measure deps (.file sessionID entry.file) .linesOfCode added
          (("opencode.change.type", .str "added") :: languageAttr ++ metricSession deps sessionID)
      else r
    let r :=
      if 0 < removed then
        r.measure deps (.file sessionID entry.file) .linesOfCode removed
          (("opencode.change.type", .str "removed") :: languageAttr ++ metricSession deps sessionID)
      else r
    r.emit deps "opencode.file_edited"
      ([("gen_ai.conversation.id", .str sessionID)] ++ languageAttr ++
        [("opencode.file.additions", .num added), ("opencode.file.deletions", .num removed)])
      .info (some context)

def onSessionDiff (sessionID : String) (diff : List FileDiff) : Recorder :=
  let (r, state) := r.session sessionID
  diff.foldl (fun r entry => r.onFileDiff deps sessionID state.context entry) r

/-! ### Messages -/

def baseAttributes (message : Message) : Attributes :=
  [("gen_ai.operation.name", .str "chat"), ("gen_ai.conversation.id", .str message.sessionID)] ++
    attrStr "gen_ai.request.model" message.modelID ++
    attrStr "gen_ai.provider.name" message.providerID ++
    attrStr "gen_ai.agent.name" message.mode

/-- The name of a chat span: `message.modelID ?? "unknown"`. -/
def chatName (modelID : Option String) : String := "chat " ++ modelID.getD "unknown"

/-- The chat of a message: its own, the one that waits for a message of the session, or a new
one. -/
def chatOf (message : Message) (context : Context) : Recorder × ChatState :=
  match r.chats.get message.id with
  | some chat => (r, chat)
  | none =>
      match r.pendingChats.get message.sessionID with
      | some pending =>
          let r : Recorder := { r with pendingChats := r.pendingChats.delete message.sessionID }
          let r := r.updateSpan pending.span (SpanData.updateName (chatName message.modelID))
          let r := r.updateSpan pending.span (SpanData.setAttributes (baseAttributes message))
          ({ r with chats := r.chats.set message.id pending }, pending)
      | none =>
          let (r, span) := r.startSpan deps
            { name := chatName message.modelID
              kind := .client
              startTime := (message.time.map MessageTime.created).getD r.now
              attributes := baseAttributes message
              parent := context
              status := none }
          let chat : ChatState :=
            { span
              sessionID := message.sessionID
              params := none }
          ({ r with chats := r.chats.set message.id chat }, chat)

def metricAttributes (message : Message) : Attributes :=
  [("gen_ai.operation.name", .str "chat")] ++
    attrStr "gen_ai.request.model" message.modelID ++
    attrStr "gen_ai.provider.name" message.providerID ++
    attrStr "gen_ai.agent.name" message.mode ++
    metricSession deps message.sessionID

/-- The amounts of tokens by their type. -/
def tokensByType (tokens : Tokens) : List (String × ℚ) :=
  [("input", tokens.input), ("output", tokens.output), ("reasoning", tokens.reasoning),
    ("cache_read", (tokens.cache.map CacheTokens.read).getD 0),
    ("cache_write", (tokens.cache.map CacheTokens.write).getD 0)]

/-- When a message was created and completed. -/
def createdAt (message : Message) : ℚ := (message.time.map MessageTime.created).getD r.now

def completedAt (message : Message) : ℚ := (message.time.bind MessageTime.completed).getD r.now

def costOf (message : Message) : ℚ := message.cost.getD 0

/-- What is measured of a message, in the order in which it is. -/
def messageMeasurements (message : Message) : List (Instrument × ℚ × Attributes) :=
  let attributes := metricAttributes deps message
  (if 0 < costOf message then [(.cost, costOf message, attributes)] else []) ++
    (((message.tokens.map tokensByType).getD []).filter (0 < ·.2)).map
      (fun t => (.tokens, t.2, attributes ++ [("gen_ai.token.type", .str t.1)])) ++
    [(.requests, 1, attributes),
      (.duration, max 0 ((r.completedAt message - r.createdAt message) / 1000),
        attributes ++ attrStr "error.type" (message.error.bind MessageError.name))]

def measureMessage (message : Message) : Recorder :=
  (r.messageMeasurements deps message).foldl
    (fun r m => r.measure deps (.message message.id) m.1 m.2.1 m.2.2) r

def usageAttributes (message : Message) (chat : ChatState) (responseLength : Option ℕ) :
    Attributes :=
  let amount (get : Tokens → ℚ) : AttrValue := .num ((message.tokens.map get).getD 0)
  let cached (get : CacheTokens → ℚ) : AttrValue :=
    .num (((message.tokens.bind Tokens.cache).map get).getD 0)
  baseAttributes message ++
    [("gen_ai.usage.input_tokens", amount Tokens.input),
      ("gen_ai.usage.output_tokens", amount Tokens.output),
      ("gen_ai.usage.reasoning_tokens", amount Tokens.reasoning),
      ("gen_ai.usage.cache_read_tokens", cached CacheTokens.read),
      ("gen_ai.usage.cache_write_tokens", cached CacheTokens.write),
      ("opencode.cost.usage", .num (costOf message)),
      ("opencode.response.duration_ms", .num (r.completedAt message - r.createdAt message))] ++
    attrNum "opencode.response.length" (responseLength.map fun length => (length : ℚ)) ++
    chat.params.getD [] ++
    ((nonEmpty message.finish).map fun f => ("gen_ai.response.finish_reasons", .strs [f])).toList ++
    attrStr "error.type" (message.error.bind MessageError.name)

/-- The totals of a session after one more message. -/
def addMessage (state : SessionState) (message : Message) : SessionState :=
  { state with
    requests := state.requests + 1
    cost := state.cost + costOf message
    inputTokens := state.inputTokens + (message.tokens.map Tokens.input).getD 0
    outputTokens := state.outputTokens + (message.tokens.map Tokens.output).getD 0 }

/-- The span of a chat ends with its message. -/
def endChat (message : Message) (chat : ChatState) (usage : Attributes) : Recorder :=
  let r := r.updateSpan chat.span (SpanData.setAttributes usage)
  let r :=
    match nonEmpty (message.error.bind MessageError.name) with
    | none => r
    | some errorType => r.updateSpan chat.span (SpanData.setError (some errorType))
  r.endSpan chat.span (some (r.completedAt message))

/-- A message is marked as counted. -/
def markMessage (message : Message) : Recorder :=
  { r with
    finalizedMessages := r.finalizedMessages.set message.id message.sessionID
    chats := r.chats.delete message.id
    responseLengths := r.responseLengths.delete message.id }

/-- The error of a message that has one is reported. -/
def reportError (message : Message) : Recorder :=
  match message.error with
  | none => r
  | some error => r.onSessionError deps (some message.sessionID) (some error)

def finalizeMessage (message : Message) (chat : ChatState) (session : SessionState) : Recorder :=
  let responseLength := r.responseLengths.get message.id
  let r := (r.markMessage message).measureMessage deps message
  let r := r.setSession message.sessionID (addMessage session message)
  let usage := r.usageAttributes message chat responseLength
  let r := r.endChat message chat usage
  let errorType := nonEmpty (message.error.bind MessageError.name)
  let r := r.emit deps "opencode.assistant_response" usage
    (if errorType.isSome then .error else .info) (some session.context)
  r.reportError deps message

def onMessageUpdated (message : Message) : Recorder :=
  if message.role ≠ "assistant" ∨ r.finalizedMessages.has message.id = true then r
  else
    let (r, session) := r.session message.sessionID
    let (r, chat) := r.chatOf deps message session.context
    match message.time.bind MessageTime.completed with
    | none => r
    | some _ => r.finalizeMessage deps message chat session

/-! ### Tools -/

structure ToolOutcome where
  tool : String
  sessionID : String
  failed : Bool
  durationMs : Option ℚ
  outputSize : Option ℕ

/-- The session of a call: the one in which it has been seen to start, if that has an id. -/
def callSession (callID : String) (outcome : ToolOutcome) : String :=
  (nonEmpty ((r.tools.get callID).map ToolSpanState.sessionID)).getD outcome.sessionID

/-- The span of a call ends with its outcome. -/
def endTool (span : Option ℕ) (attributes : Attributes) (failed : Bool) : Recorder :=
  let r := r.updateSpan span (SpanData.setAttributes attributes)
  let r := if failed then r.updateSpan span (SpanData.setError none) else r
  r.endSpan span none

/-- A call is marked as counted, with its session. -/
def markCall (callID sessionID : String) : Recorder :=
  { r with
    tools := r.tools.delete callID
    finishedTools := r.finishedTools.set callID sessionID }

def toolStatus (failed : Bool) : AttrValue := .str (if failed then "error" else "ok")

/-- The tool of a call: the one that has been seen to start. -/
def callTool (callID : String) (outcome : ToolOutcome) : String :=
  ((r.tools.get callID).map ToolSpanState.tool).getD outcome.tool

def callMetric (tool sessionID : String) (failed : Bool) : Attributes :=
  [("gen_ai.tool.name", .str tool), ("opencode.tool.status", toolStatus failed)] ++
    metricSession deps sessionID

/-- The outcome of a call is recorded, unless it has been. -/
def finishTool (callID : String) (outcome : ToolOutcome) : Recorder :=
  if r.finishedTools.has callID then r
  else
    let started := r.tools.get callID
    let tool := r.callTool callID outcome
    let sessionID := r.callSession callID outcome
    let r := r.markCall callID sessionID
    let durationMs := outcome.durationMs.or (started.map fun s => max 0 (r.now - s.startedAt))
    let r := r.measure deps (.call callID) .toolInvocations 1
      (callMetric deps tool sessionID outcome.failed)
    let attributes :=
      [("gen_ai.tool.name", .str tool), ("gen_ai.tool.call.id", .str callID),
        ("opencode.tool.status", toolStatus outcome.failed)] ++
        attrStr "gen_ai.conversation.id" (some sessionID) ++
        attrNum "opencode.tool.duration_ms" durationMs ++
        attrNum "opencode.tool.output.size" (outcome.outputSize.map fun size => (size : ℚ))
    let r := r.endTool (started.bind ToolSpanState.span) attributes outcome.failed
    let (r, state) := r.sessionOf (some sessionID)
    r.emit deps "opencode.tool_result" attributes
      (if outcome.failed then .error else .info) (state.map SessionState.context)

/-- The duration of a tool part that has a start and an end. -/
def partDuration (state : PartState) : Option ℚ :=
  state.time.bind fun time => time.2.bind fun e => time.1.map fun s => max 0 (e - s)

/-- The call of a tool part that has come to its end, and its outcome. -/
def partOutcome (part : Part) : Option (String × ToolOutcome) :=
  match nonEmpty part.callID, part.state with
  | some callID, some state =>
      if part.type = "tool" ∧ state.status ∈ ["completed", "error"] then
        some (callID,
          { tool := part.tool.getD "unknown"
            sessionID := part.sessionID.getD ""
            failed := state.status = "error"
            durationMs := partDuration state
            outputSize := none })
      else none
  | _, _ => none

def onPartUpdated (part : Part) : Recorder :=
  match partOutcome part with
  | none => r
  | some (callID, outcome) => r.finishTool deps callID outcome

def onToolBefore (input : ToolInput) : Recorder :=
  let (r, session) := r.session input.sessionID
  let (r, span) :=
    if input.tool ∈ deps.filteredTools then (r, none)
    else
      r.startSpan deps
        { name := "execute_tool " ++ input.tool
          kind := .internal
          startTime := r.now
          attributes :=
            [("gen_ai.operation.name", .str "execute_tool"), ("gen_ai.tool.name", .str input.tool),
              ("gen_ai.tool.call.id", .str input.callID),
              ("gen_ai.conversation.id", .str input.sessionID)]
          parent := session.context
          status := none }
  { r with
    tools := r.tools.set input.callID
      { span
        tool := input.tool
        sessionID := input.sessionID
        startedAt := r.now } }

def afterOutcome (input : ToolInput) (output : Option String) : ToolOutcome where
  tool := input.tool
  sessionID := input.sessionID
  failed := false
  durationMs := none
  outputSize := output.map utf16Length

def onToolAfter (input : ToolInput) (output : Option String) : Recorder :=
  r.finishTool deps input.callID (afterOutcome input output)

/-! ### Permissions -/

def recordDecision (sessionID permissionID decision source : String) (tool : Option String) :
    Recorder :=
  let (r, state) := r.session sessionID
  let toolAttr := attrStr "gen_ai.tool.name" tool
  let r := r.measure deps (.permission permissionID) .permissionDecisions 1
    ([("opencode.permission.decision", .str decision),
      ("opencode.permission.source", .str source)] ++ toolAttr ++ metricSession deps sessionID)
  r.emit deps "opencode.tool_decision"
    ([("gen_ai.conversation.id", .str sessionID),
      ("opencode.permission.decision", .str decision),
      ("opencode.permission.source", .str source),
      ("opencode.permission.id", .str permissionID)] ++ toolAttr)
    .info (some state.context)

def onPermissionUpdated (id type sessionID : String) : Recorder :=
  { r with permissions := r.permissions.set id ⟨type, sessionID⟩ }

def onPermissionReplied (sessionID permissionID response : String) : Recorder :=
  if r.autoDecided.has permissionID then
    { r with autoDecided := r.autoDecided.delete permissionID }
  else
    let pending := r.permissions.get permissionID
    { r with permissions := r.permissions.delete permissionID }.recordDecision deps sessionID
      permissionID response "user" (pending.map PermissionState.type)

/-- A permission that is decided without asking is counted at once. -/
def onPermissionAsk (id type sessionID : String) (status : Option String) : Recorder :=
  match nonEmpty status with
  | none => r
  | some decision =>
      if decision = "ask" then r
      else
        { r with autoDecided := r.autoDecided.set id () }.recordDecision deps sessionID id
          decision "auto" (some type)

/-! ### Other events and hooks -/

def onCommandExecuted (sessionID name : String) (arguments : Option String) : Recorder :=
  let (r, state) := r.session sessionID
  let r := r.measure deps (.session sessionID) .commands 1
    (("opencode.command.name", .str name) :: metricSession deps sessionID)
  r.emit deps "opencode.command_executed"
    [("gen_ai.conversation.id", .str sessionID), ("opencode.command.name", .str name),
      ("opencode.command.has_arguments",
        .bool (arguments.any fun s => s.toList.any fun c => !isBlank c))]
    .info (some state.context)

def onTodoUpdated (sessionID : String) (statuses : List (Option String)) : Recorder :=
  let (r, state) := r.session sessionID
  r.emit deps "opencode.todo_updated"
    ([("gen_ai.conversation.id", .str sessionID),
      ("opencode.todo.total", .num statuses.length)] ++
      attrCounts "opencode.todo." (statuses.map fun s => s.getD "unknown"))
    .info (some state.context)

def onChatMessage (sessionID : String) (agent modelID providerID : Option String)
    (parts : List PromptPart) : Recorder :=
  let (r, session) := r.session sessionID
  let promptLength := parts.foldl (fun n p => n + (p.text.map utf16Length).getD 0) 0
  r.emit deps "opencode.user_prompt"
    ([("gen_ai.conversation.id", .str sessionID),
      ("opencode.prompt.length", .num promptLength),
      ("opencode.prompt.part_count", .num parts.length)] ++
      attrCounts "opencode.prompt.parts." (parts.map fun p => p.type.getD "unknown") ++
      attrStr "gen_ai.agent.name" agent ++
      attrStr "gen_ai.request.model" modelID ++
      attrStr "gen_ai.provider.name" providerID)
    .info (some session.context)

def paramAttributes (output : SamplingParams) : Attributes :=
  attrNum "gen_ai.request.temperature" output.temperature ++
    attrNum "gen_ai.request.top_p" output.topP ++
    attrNum "gen_ai.request.top_k" output.topK ++
    attrNum "gen_ai.request.max_tokens" output.maxOutputTokens

/-- The span of a chat starts before its request is sent. One that still waits for a message of
the session ends. -/
def onChatParams (sessionID : String) (model agent : Option String) (output : SamplingParams) :
    Recorder :=
  let (r, session) := r.session sessionID
  let params := paramAttributes output
  let r := r.endSpan ((r.pendingChats.get sessionID).bind ChatState.span) none
  let (r, span) := r.startSpan deps
    { name := chatName model
      kind := .client
      startTime := r.now
      attributes :=
        [("gen_ai.operation.name", .str "chat"), ("gen_ai.conversation.id", .str sessionID)] ++
          attrStr "gen_ai.request.model" model ++ attrStr "gen_ai.agent.name" agent ++ params
      parent := session.context
      status := none }
  { r with
    pendingChats := r.pendingChats.set sessionID
      { span
        sessionID
        params := some params } }

def onTextComplete (messageID : String) (text : Option String) : Recorder :=
  match text with
  | none => r
  | some text =>
      { r with
        responseLengths := r.responseLengths.set messageID
          ((r.responseLengths.get messageID).getD 0 + utf16Length text) }

def onCompactionAutocontinue (sessionID : String) (overflow : Bool) (agent : Option String)
    (enabled : Option Bool) : Recorder :=
  let (r, state) := r.session sessionID
  r.emit deps "opencode.compaction_autocontinue"
    ([("gen_ai.conversation.id", .str sessionID),
      ("opencode.compaction.overflow", .bool overflow),
      ("opencode.compaction.autocontinue_enabled", .bool (enabled ≠ some false))] ++
      attrStr "gen_ai.agent.name" agent)
    .info (some state.context)

/-! ### Forgetting -/

/-- The chats of a session end. -/
def forgetChats (sessionID : String) : Recorder :=
  r.chats.entries.foldl (fun r e =>
    if e.2.sessionID = sessionID then
      { r.endSpan e.2.span none with chats := r.chats.delete e.1 }
    else r) r

/-- The calls of a session end. -/
def forgetTools (sessionID : String) : Recorder :=
  r.tools.entries.foldl (fun r e =>
    if e.2.sessionID = sessionID then
      { r.endSpan e.2.span none with tools := r.tools.delete e.1 }
    else r) r

def dropSession (sessionID : String) : Recorder :=
  match r.sessions.get sessionID with
  | none => r
  | some state => (r.settleActiveTime deps sessionID state).closeSession sessionID state

/-- The chat of a session that still waits for its message ends. -/
def dropPending (sessionID : String) : Recorder :=
  { r.endSpan ((r.pendingChats.get sessionID).bind ChatState.span) none with
    pendingChats := r.pendingChats.delete sessionID }

/-- The files and the permissions of a session are dropped. -/
def dropRecords (sessionID : String) : Recorder :=
  let forgotten := (r.permissions.entries.filter (·.2.sessionID = sessionID)).map Prod.fst
  { r with
    diffs := r.diffs.filter fun key _ =>
      !(diffKeyPrefix sessionID).toList.isPrefixOf key.toList
    permissions := r.permissions.filter fun _ permission => permission.sessionID ≠ sessionID
    autoDecided := r.autoDecided.filter fun id _ => id ∉ forgotten }

def forgetSession (sessionID : String) : Recorder :=
  let r := (r.dropSession deps sessionID).dropPending sessionID
  let r := (r.forgetChats sessionID).forgetTools sessionID
  (r.dropRecords sessionID).pruneCompleted sessionID

/-- The sessions end. -/
def endSessions : Recorder :=
  let r := r.sessions.entries.foldl (fun r e =>
    (r.settleActiveTime deps e.1 e.2).endSpan e.2.span none) r
  { r with sessions := r.sessions.clear }

/-- The chats end. -/
def endChats : Recorder :=
  let r := (r.chats.values ++ r.pendingChats.values).foldl (fun r chat =>
    r.endSpan chat.span none) r
  { r with chats := r.chats.clear, pendingChats := r.pendingChats.clear }

/-- The calls end. -/
def endTools : Recorder :=
  let r := r.tools.values.foldl (fun r tool => r.endSpan tool.span none) r
  { r with tools := r.tools.clear }

def shutdown : Recorder := (r.endSessions deps).endChats.endTools

/-! ### Events -/

def onBranchUpdated (branch : Option String) : Recorder :=
  match nonEmpty branch with
  | none => r
  | some branch => { r with branch := some branch }

def handle : HostEvent → Recorder
  | .sessionCreated info => r.onSessionCreated deps info
  | .sessionIdle sessionID => r.onSessionIdle deps sessionID
  | .sessionStatus sessionID status => r.onSessionStatus deps sessionID status
  | .sessionCompacted sessionID => r.onCompacted deps sessionID
  | .sessionError sessionID error => r.onSessionError deps sessionID error
  | .sessionDiff sessionID diff => r.onSessionDiff deps sessionID diff
  | .messageUpdated info => r.onMessageUpdated deps info
  | .messagePartUpdated part => r.onPartUpdated deps part
  | .permissionUpdated id type sessionID => r.onPermissionUpdated id type sessionID
  | .permissionReplied sessionID permissionID response =>
      r.onPermissionReplied deps sessionID permissionID response
  | .commandExecuted sessionID name arguments => r.onCommandExecuted deps sessionID name arguments
  | .installationUpdated version => { r with version := some version }
  | .vcsBranchUpdated branch => r.onBranchUpdated branch
  | .todoUpdated sessionID statuses => r.onTodoUpdated deps sessionID statuses
  | .sessionDeleted id => r.forgetSession deps id
  | .serverInstanceDisposed => r.shutdown deps
  | .other => r
  | .chatMessage sessionID agent modelID providerID parts =>
      r.onChatMessage deps sessionID agent modelID providerID parts
  | .chatParams sessionID model agent output => r.onChatParams deps sessionID model agent output
  | .textComplete _ messageID text => r.onTextComplete messageID text
  | .permissionAsk id type sessionID status => r.onPermissionAsk deps id type sessionID status
  | .compactionAutocontinue sessionID overflow agent enabled =>
      r.onCompactionAutocontinue deps sessionID overflow agent enabled
  | .toolBefore input => r.onToolBefore deps input
  | .toolAfter input output => r.onToolAfter deps input output
  | .shutdown => r.shutdown deps

/-- An event is handled at a time. -/
def deliver (e : ℚ × HostEvent) : Recorder := { r with now := e.1 }.handle deps e.2

/-- What a sequence of events, each with its time, leads to. -/
def run (es : List (ℚ × HostEvent)) : Recorder := es.foldl (deliver deps) initial

end Recorder

end Telemetry
