import OpencodeToolbelt.Async.EventSystem
import OpencodeToolbelt.Browser.Protocol
import OpencodeToolbelt.Data.JsMap

/-!
# The broker of the browser bridge

The broker passes the commands of agents to executors, the browser extensions. Its handlers
run without interruption. What follows the settling of a promise runs as a job of its own,
in the order in which the promises have settled.
-/

namespace Browser

/-! ### The state -/

structure BrokerOptions where
  executor : Option ExecutorPreference
  timeoutMs : ℚ
  maxCommandMs : Option ℚ

def DEFAULT_MAX_COMMAND_MS : ℚ := 600000

structure ExecutorInfo where
  conn : ℕ
  id : String
  label : String
  browser : String
  deriving DecidableEq, Repr

structure AgentInfo where
  conn : ℕ
  id : String
  deriving DecidableEq, Repr

/-- The owner of a group. A group without an agent is adopted by the next one to use it. -/
structure GroupOwner where
  executorId : String
  agentId : Option String
  deriving DecidableEq, Repr

structure BrokerError where
  message : String
  code : Option String
  deriving DecidableEq, Repr

/-- Who waits for what a command leads to: a caller in the process of the broker, or the
handler of a command frame, with the connection and the id of the frame. -/
inductive Requester where
  | caller (call : ℕ)
  | agent (call : ℕ) (conn : ℕ) (frameId : String)
  deriving DecidableEq, Repr

/-- What runs when the promise of a command has settled. -/
inductive Waiter where
  | request (requester : Requester)
  | rebuild (executor : ExecutorInfo)
  /-- The loop of `aggregateTabs`, at a position of its iterator, with the groups so far. -/
  | aggregate (executor : ExecutorInfo) (position : ℕ) (groups : List (TabGroup × String))
      (requester : Requester)
  deriving DecidableEq, Repr

/-- A command that has been dispatched and whose promise has not settled. -/
structure Pending where
  /-- Which promise `resolve` and `reject` settle. -/
  promise : ℕ
  waiter : Waiter
  timer : Option ℕ
  /-- The listener that `detachAbort` removes. -/
  detachAbort : Option ℕ
  agentId : String
  executorId : String
  deriving DecidableEq, Repr

abbrev Outcome := Except BrokerError Reply

/-- A promise has settled, and what waits for it is to run. -/
structure Job where
  waiter : Waiter
  outcome : Outcome

/-- What a timer does when it fires: it abandons a command. -/
structure Timer where
  reqId : String
  error : BrokerError

/-- What a listener does when its signal is aborted: it abandons a command. -/
structure Listener where
  signal : ℕ
  reqId : String

/-- A broker, with the part of its runtime and of its transport that it uses. -/
structure Broker where
  token : String
  executors : JsMap ℕ ExecutorInfo
  executorById : JsMap String ExecutorInfo
  agents : JsMap ℕ AgentInfo
  groupOwner : JsMap String GroupOwner
  pending : JsMap String Pending
  primaryExecutorId : Option String
  agentSeq : ℕ
  execSeq : ℕ
  idCounter : ℕ
  /-- The ids of the agents that `createLocalAgent` has made. -/
  localAgents : List String
  callSeq : ℕ
  timers : JsMap ℕ Timer
  timerSeq : ℕ
  listeners : JsMap ℕ Listener
  listenerSeq : ℕ
  /-- The signals that have been aborted. -/
  aborted : List ℕ
  jobs : List Job
  /-- How many connections have been opened, and which are open. -/
  connSeq : ℕ
  opened : List ℕ
  /-- The connections to which sending throws, with the message of the error. -/
  broken : JsMap ℕ String
  /-- The connections that the broker has closed. -/
  closing : List ℕ
  /-- What has been sent, the latest first. -/
  sent : List (ℕ × ServerFrame)
  /-- What has been returned to callers, the latest first. -/
  returned : List (ℕ × Outcome)
  promiseSeq : ℕ
  /-- The promises of the commands that have been dispatched, with their connection. -/
  dispatched : List (ℕ × ℕ)
  /-- What waits for each of these promises. -/
  minted : List (ℕ × Waiter)
  /-- The promises that have settled. -/
  settled : List ℕ
  /-- What each of them has settled with. -/
  outcomes : List (ℕ × Outcome)

namespace Broker

/-- A broker that has just been made. -/
def initial (token : String) : Broker where
  token
  executors := .empty
  executorById := .empty
  agents := .empty
  groupOwner := .empty
  pending := .empty
  primaryExecutorId := none
  agentSeq := 0
  execSeq := 0
  idCounter := 0
  localAgents := []
  callSeq := 0
  timers := .empty
  timerSeq := 0
  listeners := .empty
  listenerSeq := 0
  aborted := []
  jobs := []
  connSeq := 0
  opened := []
  broken := .empty
  closing := []
  sent := []
  returned := []
  promiseSeq := 0
  dispatched := []
  minted := []
  settled := []
  outcomes := []

variable (b : Broker)

/-! ### Helpers -/

/-- A frame is sent, unless that throws. -/
def safeSend (conn : ℕ) (frame : ServerFrame) : Broker :=
  if b.broken.has conn then b else { b with sent := (conn, frame) :: b.sent }

def closeConnection (conn : ℕ) : Broker := { b with closing := conn :: b.closing }

/-- A promise that no command waits for settles. -/
def addJob (waiter : Waiter) (outcome : Outcome) : Broker :=
  { b with jobs := b.jobs ++ [⟨waiter, outcome⟩] }

/-- `resolve` and `reject` of a pending command. -/
def settle (p : Pending) (outcome : Outcome) : Broker :=
  { b.addJob p.waiter outcome with
    settled := p.promise :: b.settled
    outcomes := (p.promise, outcome) :: b.outcomes }

/-- The timer of a command is cleared and its listener removed. -/
def disarm (p : Pending) : Broker :=
  { b with
    timers := p.timer.elim b.timers b.timers.delete
    listeners := p.detachAbort.elim b.listeners b.listeners.delete }

def clearPending (reqId : String) : Broker :=
  match b.pending.get reqId with
  | none => b
  | some p =>
      let b := b.disarm p
      { b with pending := b.pending.delete reqId }

def settleReject (reqId : String) (err : BrokerError) : Broker :=
  match b.pending.get reqId with
  | none => b
  | some p => (b.clearPending reqId).settle p (.error err)

/-- The executor is told to give up a command, which is then rejected. -/
def abandon (reqId : String) (err : BrokerError) : Broker :=
  match b.pending.get reqId with
  | none => b
  | some p =>
      match b.executorById.get p.executorId with
      | none => b.settleReject reqId err
      | some exec => (b.safeSend exec.conn (.cancel reqId)).settleReject reqId err

/-- The loops over `pending` that settle the commands with a property. -/
def settleAll (p : Pending → Bool) (act : Broker → String → Broker) : Broker :=
  b.pending.entries.foldl (fun b e => if p e.2 then act b e.1 else b) b

def rejectAllPending (err : BrokerError) : Broker :=
  b.settleAll (fun _ => true) fun b reqId => b.settleReject reqId err

/-! ### Dispatching -/

/-- The timeout of a command, clamped to the ceiling. -/
def timeoutFor (opts : BrokerOptions) (override : Option ℚ) : ℚ :=
  let requested := override.getD opts.timeoutMs
  if requested ≤ 0 then 0 else min requested (opts.maxCommandMs.getD DEFAULT_MAX_COMMAND_MS)

def abortError : BrokerError := ⟨"aborted", some "aborted"⟩

def timeoutError (action : BrowserAction) (timeoutMs : ℚ) : BrokerError :=
  ⟨s!"command '{action.name}' timed out after {timeoutMs}ms", some "timeout"⟩

/-- The timer of a command is set, if it has a timeout. -/
def setTimer (opts : BrokerOptions) (cmd : Command) (reqId : String) : Broker × Option ℕ :=
  let timeoutMs := timeoutFor opts cmd.timeoutMs
  if 0 < timeoutMs then
    ({ b with
        timers := b.timers.set b.timerSeq ⟨reqId, timeoutError cmd.action timeoutMs⟩
        timerSeq := b.timerSeq + 1 }, some b.timerSeq)
  else (b, none)

/-- The listener of a command is added, if it has a signal. -/
def addListener (signal : Option ℕ) (reqId : String) : Broker × Option ℕ :=
  match signal with
  | none => (b, none)
  | some signal =>
      ({ b with
          listeners := b.listeners.set b.listenerSeq ⟨signal, reqId⟩
          listenerSeq := b.listenerSeq + 1 }, some b.listenerSeq)

/-- A command is entered into `pending`. -/
def enter (opts : BrokerOptions) (executor : ExecutorInfo) (agentId : String) (cmd : Command)
    (signal : Option ℕ) (waiter : Waiter) (reqId : String) : Broker :=
  let timed := { b with idCounter := nextIdCounter b.idCounter }.setTimer opts cmd reqId
  let listening := timed.1.addListener signal reqId
  let p : Pending :=
    { promise := b.promiseSeq
      waiter
      timer := timed.2
      detachAbort := listening.2
      agentId
      executorId := executor.id }
  { listening.1 with
    promiseSeq := b.promiseSeq + 1
    dispatched := (b.promiseSeq, executor.conn) :: b.dispatched
    minted := (b.promiseSeq, waiter) :: b.minted
    pending := b.pending.set reqId p }

/-- A command is entered into `pending` and sent. -/
def dispatch (opts : BrokerOptions) (executor : ExecutorInfo) (agentId : String)
    (cmd : Command) (signal : Option ℕ) (waiter : Waiter) : Broker :=
  let reqId := correlationId (nextIdCounter b.idCounter)
  let b' := b.enter opts executor agentId cmd signal waiter reqId
  match b.broken.get executor.conn with
  | some message =>
      b'.settleReject reqId
        ⟨s!"failed to deliver '{cmd.action.name}': {message}", some "send_failed"⟩
  | none =>
      { b' with sent := (executor.conn, .command reqId cmd.action cmd.group cmd.params) :: b.sent }

def sendToExecutor (opts : BrokerOptions) (executor : ExecutorInfo) (agentId : String)
    (cmd : Command) (signal : Option ℕ) (waiter : Waiter) : Broker :=
  if signal.any (· ∈ b.aborted) then b.addJob waiter (.error abortError)
  else b.dispatch opts executor agentId cmd signal waiter

/-- The command by which the broker asks an executor for its tabs. -/
def tabsCommand : Command :=
  { action := .tabs
    group := ""
    params := ""
    target := none
    timeoutMs := none }

def handleResult (id : String) (ok : Bool) (data : Option ResultData)
    (error : Option ResultError) : Broker :=
  match b.pending.get id with
  | none => b
  | some p =>
      (b.clearPending id).settle p
        (if ok then .ok (.data data)
        else
          .error
            { message := (error.map ResultError.message).getD "executor error"
              code := error.bind ResultError.code })

/-! ### Routing -/

def listTargets : List TargetInfo :=
  b.executorById.values.map fun e =>
    { id := e.id
      label := e.label
      browser := e.browser
      groups := (b.groupOwner.entries.filter fun o => o.2.executorId = e.id).map Prod.fst }

/-- The groups of an agent are given up, and the executors that hold them told so. -/
def releaseForAgent (agentId : String) : Broker :=
  let owned := b.groupOwner.values.filter fun owner => owner.agentId = some agentId
  let execIds := (owned.map GroupOwner.executorId).eraseDups
  let b : Broker :=
    { b with
      groupOwner := b.groupOwner.mapValues fun _ owner =>
        if owner.agentId = some agentId then { owner with agentId := none } else owner }
  execIds.foldl (fun b id =>
    match b.executorById.get id with
    | none => b
    | some exec => b.safeSend exec.conn .release) b

def pickExecutor (target : Option String) : Except BrokerError ExecutorInfo :=
  if b.executorById.size = 0 then
    .error
      { message := "no browser extension is connected to the bridge — open the extension and confirm it shows 'connected'"
        code := some "not_connected" }
  else
    match nonEmpty target with
    | some target =>
        match b.executorById.get target with
        | some byId => .ok byId
        | none =>
            match b.executorById.values.filter fun e => e.label = target with
            | [] =>
                .error
                  { message := s!"no connected browser matches target \"{target}\""
                    code := some "unknown_target" }
            | [byLabel] => .ok byLabel
            | _ =>
                .error
                  { message := s!"target \"{target}\" is ambiguous — use the browser id"
                    code := some "ambiguous_target" }
    | none =>
        match (b.primaryExecutorId.bind b.executorById.get).or b.executorById.values.head? with
        | some exec => .ok exec
        | none =>
            .error
              { message := "no browser extension is connected"
                code := some "not_connected" }

/-- The executor of a group that has an owner, which the agent claims. -/
def resolveOwned (agentId : String) (group : String) (owner : GroupOwner) :
    Broker × Except BrokerError ExecutorInfo :=
  if owner.agentId.any (· ≠ agentId) then
    (b, .error
      { message := s!"group \"{group}\" is owned by another client"
        code := some "group_owned" })
  else
    let b : Broker :=
      { b with groupOwner := b.groupOwner.set group { owner with agentId := some agentId } }
    match b.executorById.get owner.executorId with
    | some exec => (b, .ok exec)
    | none =>
        (b, .error
          { message := s!"the browser for group \"{group}\" is disconnected"
            code := some "executor_gone" })

/-- The executor of a group without an owner, which only `open` gives one. -/
def resolveUnowned (agentId : String) (cmd : Command) :
    Broker × Except BrokerError ExecutorInfo :=
  if cmd.action ≠ .open then
    (b, .error
      { message := s!"group \"{cmd.group}\" has no open tabs — call browser_open first"
        code := some "no_group" })
  else
    match b.pickExecutor cmd.target with
    | .error err => (b, .error err)
    | .ok exec =>
        ({ b with
            groupOwner := b.groupOwner.set cmd.group
              { executorId := exec.id
                agentId := some agentId } }, .ok exec)

def resolveExecutor (agentId : String) (cmd : Command) :
    Broker × Except BrokerError ExecutorInfo :=
  match b.groupOwner.get cmd.group with
  | some owner => b.resolveOwned agentId cmd.group owner
  | none => b.resolveUnowned agentId cmd

/-- The executor of a command, which is not resolved through its group when the action is
not scoped to one. -/
def executorFor (agentId : String) (cmd : Command) : Broker × Except BrokerError ExecutorInfo :=
  if cmd.action ∈ GLOBAL_ACTIONS then (b, b.pickExecutor cmd.target)
  else b.resolveExecutor agentId cmd

/-- The loop of `aggregateTabs` up to its next `await`. -/
def aggregateTabs (opts : BrokerOptions) (position : ℕ) (groups : List (TabGroup × String))
    (requester : Requester) : Broker :=
  match b.executorById.next position with
  | none => b.addJob (.request requester) (.ok (.tabs groups))
  | some (position, _, executor) =>
      b.sendToExecutor opts executor "broker" tabsCommand none
        (.aggregate executor position groups requester)

def route (opts : BrokerOptions) (agentId : String) (cmd : Command) (signal : Option ℕ)
    (requester : Requester) : Broker :=
  if cmd.action = .targets then b.addJob (.request requester) (.ok (.targets b.listTargets))
  else if cmd.action = .release then
    (b.releaseForAgent agentId).addJob (.request requester) (.ok .released)
  else if cmd.action = .tabs ∧ cmd.group = "" then b.aggregateTabs opts 0 [] requester
  else
    match b.executorFor agentId cmd with
    | (b, .error err) => b.addJob (.request requester) (.error err)
    | (b, .ok executor) => b.sendToExecutor opts executor agentId cmd signal (.request requester)

/-! ### Connections -/

def adoptRotatedToken (latest : Option String) : Broker :=
  match nonEmpty latest with
  | none => b
  | some latest => { b with token := latest }

/-- An agent has been accepted. -/
def acceptAgent (conn : ℕ) : Broker :=
  let agentSeq := b.agentSeq + 1
  let id := s!"agent:{agentSeq}"
  { b with
    agentSeq
    agents := b.agents.set conn { conn, id } }.safeSend conn (.ready .agent id none)

/-- The id of an executor: the one it names, or a new one. -/
def executorIdFor (id : Option String) : Broker × String :=
  match nonEmpty id with
  | some id => (b, id)
  | none =>
      let execSeq := b.execSeq + 1
      ({ b with execSeq }, s!"exec:{execSeq}")

/-- A connection with the same id is replaced. -/
def replaceStale (conn : ℕ) (id : String) : Broker :=
  match b.executorById.get id with
  | none => b
  | some prior =>
      if prior.conn = conn then b
      else { b with executors := b.executors.delete prior.conn }.closeConnection prior.conn

/-- An executor is entered into the maps. -/
def register (info : ExecutorInfo) : Broker :=
  let b : Broker :=
    { b with
      executors := b.executors.set info.conn info
      executorById := b.executorById.set info.id info }
  if b.primaryExecutorId.any b.executorById.has then b
  else { b with primaryExecutorId := some info.id }

/-- An executor has been accepted. -/
def acceptExecutor (opts : BrokerOptions) (conn : ℕ) (frame : HelloFrame) : Broker :=
  let (b, id) := b.executorIdFor frame.id
  let info : ExecutorInfo :=
    { conn
      id
      label := (nonEmpty frame.label).getD id
      browser := (nonEmpty frame.browser).getD "unknown" }
  let b := ((b.replaceStale conn id).register info).safeSend conn
    (.ready .extension id opts.executor)
  b.sendToExecutor opts info "broker" tabsCommand none (.rebuild info)

def handleHello (opts : BrokerOptions) (conn : ℕ) (frame : HelloFrame)
    (reloadToken : Option String) : Broker :=
  let b := if frame.token = b.token then b else b.adoptRotatedToken reloadToken
  if frame.token = b.token then
    match frame.role with
    | some .agent => b.acceptAgent conn
    | _ => b.acceptExecutor opts conn frame
  else (b.safeSend conn (.rejected "bad_token")).closeConnection conn

/-- An event is forwarded to the agent that owns its group, or else to all agents. -/
def routeEvent (frame : EventFrame) : Broker :=
  let owner := (nonEmpty frame.group).bind b.groupOwner.get
  b.agents.values.foldl (fun b agent =>
    if (owner.bind GroupOwner.agentId).all (· = agent.id) then b.safeSend agent.conn (.event frame)
    else b) b

def handleExecutorFrame (conn : ℕ) : ClientFrame → Broker
  | .result id ok data error => b.handleResult id ok data error
  | .event frame => b.routeEvent frame
  | .ping => b.safeSend conn .pong
  | _ => b

def handleAgentFrame (opts : BrokerOptions) (agent : AgentInfo) (conn : ℕ) :
    ClientFrame → Broker
  | .command id cmd =>
      { b with callSeq := b.callSeq + 1 }.route opts agent.id cmd none (.agent b.callSeq conn id)
  | .ping => b.safeSend conn .pong
  | _ => b

def onMessage (opts : BrokerOptions) (conn : ℕ) (frame : ClientFrame)
    (reloadToken : Option String) : Broker :=
  match frame with
  | .hello frame => b.handleHello opts conn frame reloadToken
  | frame =>
      match b.executors.get conn with
      | some _ => b.handleExecutorFrame conn frame
      | none =>
          match b.agents.get conn with
          | some agent => b.handleAgentFrame opts agent conn frame
          | none => b

def disconnectError : BrokerError := ⟨"the browser disconnected", some "executor_gone"⟩

/-- The id of an executor is forgotten, with its groups and its commands. -/
def forgetExecutor (id : String) : Broker :=
  { b with
    executorById := b.executorById.delete id
    groupOwner := b.groupOwner.filter fun _ owner => owner.executorId ≠ id }.settleAll
      (fun p => p.executorId = id) fun b reqId => b.settleReject reqId disconnectError

def closeExecutor (conn : ℕ) (executor : ExecutorInfo) : Broker :=
  let b : Broker := { b with executors := b.executors.delete conn }
  let b :=
    if (b.executorById.get executor.id).any (·.conn = conn) then b.forgetExecutor executor.id
    else b
  if b.primaryExecutorId = some executor.id then
    { b with primaryExecutorId := b.executorById.keys.head? }
  else b

def agentGoneError : BrokerError := ⟨"agent disconnected", some "agent_gone"⟩

def closeAgent (conn : ℕ) (agent : AgentInfo) : Broker :=
  ({ b with agents := b.agents.delete conn }.releaseForAgent agent.id).settleAll
    (fun p => p.agentId = agent.id) fun b reqId => b.abandon reqId agentGoneError

def onClose (conn : ℕ) : Broker :=
  match b.executors.get conn with
  | some executor => b.closeExecutor conn executor
  | none =>
      match b.agents.get conn with
      | some agent => b.closeAgent conn agent
      | none => b

def stop : Broker :=
  let b := b.rejectAllPending ⟨"broker stopped", none⟩
  { b with
    executors := b.executors.clear
    executorById := b.executorById.clear
    agents := b.agents.clear
    groupOwner := b.groupOwner.clear
    primaryExecutorId := none }

def createLocalAgent : Broker :=
  let agentSeq := b.agentSeq + 1
  { b with
    agentSeq
    localAgents := s!"local:{agentSeq}" :: b.localAgents }

/-! ### Jobs -/

/-- The groups that a result lists, none when there is no result to read them of. -/
def reportedGroups : Outcome → List TabGroup
  | .ok (.data (some data)) => data.groups.getD []
  | _ => []

/-- A group that an executor reports and that has no owner is entered without an agent. -/
def rebuildGroup (executorId : String) (g : TabGroup) : Broker :=
  match nonEmpty g.name with
  | none => b
  | some name =>
      if b.groupOwner.has name then b
      else { b with groupOwner := b.groupOwner.set name { executorId, agentId := none } }

/-- What runs when a promise has settled. -/
def resume (opts : BrokerOptions) (outcome : Outcome) : Waiter → Broker
  | .request (.caller call) => { b with returned := (call, outcome) :: b.returned }
  | .request (.agent _ conn frameId) =>
      b.safeSend conn (.result frameId
        (match outcome with
        | .ok reply => .ok reply
        | .error err => .error ⟨err.message, err.code⟩))
  | .rebuild executor =>
      (reportedGroups outcome).foldl (fun b g => b.rebuildGroup executor.id g) b
  | .aggregate executor position groups requester =>
      b.aggregateTabs opts position
        (groups ++ (reportedGroups outcome).map fun g => (g, executor.id)) requester

def runJob (opts : BrokerOptions) : Broker :=
  match b.jobs with
  | [] => b
  | job :: jobs => { b with jobs }.resume opts job.outcome job.waiter

/-! ### Timers and signals -/

def fireTimer (timer : ℕ) : Broker :=
  match b.timers.get timer with
  | none => b
  | some t => { b with timers := b.timers.delete timer }.abandon t.reqId t.error

def fireListener (listener : ℕ) : Broker :=
  match b.listeners.get listener with
  | none => b
  | some l => { b with listeners := b.listeners.delete listener }.abandon l.reqId abortError

/-- A signal is aborted, and its listeners run. -/
def abort (signal : ℕ) : Broker :=
  let listeners := (b.listeners.entries.filter fun l => l.2.signal = signal).map Prod.fst
  listeners.foldl fireListener { b with aborted := signal :: b.aborted }

end Broker

/-! ### Events -/

/-- What happens to a broker. -/
inductive BrokerEvent where
  | opened
  /-- A frame arrives, and this is what `reloadToken` would return. -/
  | message (conn : ℕ) (frame : ClientFrame) (reloadToken : Option String)
  | closed (conn : ℕ)
  | stop
  | createLocalAgent
  /-- The methods of a local agent. -/
  | send (agentId : String) (cmd : Command) (signal : Option ℕ)
  | release (agentId : String)
  | abort (signal : ℕ)
  | timeout (timer : ℕ)
  | job
  /-- Sending to a connection starts or ceases to throw. -/
  | sendThrows (conn : ℕ) (error : Option String)

namespace Broker

variable (opts : BrokerOptions)

/-- Frames arrive on open connections, and timers fire that are set. -/
def enabled (b : Broker) : BrokerEvent → Prop
  | .message conn _ _ => conn ∈ b.opened
  | .closed conn => conn ∈ b.opened
  | .send agentId _ _ => agentId ∈ b.localAgents
  | .release agentId => agentId ∈ b.localAgents
  | .timeout timer => b.timers.has timer = true
  | _ => True

instance (b : Broker) (e : BrokerEvent) :
  Decidable (b.enabled e)
  := by
  unfold enabled
  split <;> infer_instance

def handle (b : Broker) : BrokerEvent → Broker
  | .opened => { b with connSeq := b.connSeq + 1, opened := b.connSeq :: b.opened }
  | .message conn frame reloadToken => b.onMessage opts conn frame reloadToken
  | .closed conn => { b with opened := b.opened.filter (· ≠ conn) }.onClose conn
  | .stop => b.stop
  | .createLocalAgent => b.createLocalAgent
  | .send agentId cmd signal =>
      { b with callSeq := b.callSeq + 1 }.route opts agentId cmd signal (.caller b.callSeq)
  | .release agentId => b.releaseForAgent agentId
  | .abort signal => b.abort signal
  | .timeout timer => b.fireTimer timer
  | .job => b.runJob opts
  | .sendThrows conn error =>
      { b with broken := error.elim (b.broken.delete conn) fun error => b.broken.set conn error }

/-- A broker and what happens to it. -/
def system : EventSystem Broker BrokerEvent where
  enabled := enabled
  next := handle opts

instance (b : Broker) (e : BrokerEvent) :
  Decidable ((system opts).enabled b e)
  := inferInstanceAs (Decidable (b.enabled e))

end Broker

end Browser
