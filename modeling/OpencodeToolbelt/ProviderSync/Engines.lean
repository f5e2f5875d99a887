import OpencodeToolbelt.Async.EventSystem
import OpencodeToolbelt.ProviderSync.Scheduler

/-!
# The engines of a process

Any number of model sync engines in one process, which start, warm up and stop. They share a
registry of who runs the scheduler of a server. A call of `start` runs without interruption
between its awaits.
-/

namespace ProviderSync

structure ProviderServerConfig where
  id : String
  syncIntervalMinutes : ℚ
  deriving DecidableEq

/-- The runtime of a server. Its number tells it from the one that may replace it. -/
structure ServerRuntime where
  object : ℕ
  scheduler : Option ℕ
  ownsScheduler : Bool
  deriving DecidableEq

structure Engine where
  cacheDirPath : String
  servers : List ProviderServerConfig
  runtimeByServer : JsMap String ServerRuntime
  initialized : Bool
  started : Bool

/-- What a call is waiting for. -/
inductive Await where
  /-- `initialize` has returned. -/
  | initialized
  /-- `ensureReady` of the cache. -/
  | ensureReady
  /-- `loadServerState` of a server, with the servers to load after it. -/
  | load (server : ProviderServerConfig) (rest : List ProviderServerConfig)
  /-- The first `syncServer` of a server, with the runtime that has been looked up, and the
  servers to start after it. -/
  | warmup (server : ProviderServerConfig) (runtime : Option ℕ) (rest : List ProviderServerConfig)

/-- A call of `start`, with its option, or of `initialize`, that has not returned. -/
structure Call where
  engine : ℕ
  warmup : Option Bool
  await : Await
  /-- Whether the engine has been stopped since the call. -/
  overtaken : Bool

/-- A scheduler that has been started, with the engine and the server it is for. -/
structure SchedulerHandle where
  engine : ℕ
  serverId : String
  scheduler : Scheduler

/-- The engines of a process and the registry they share. -/
structure Engines where
  engines : JsMap ℕ Engine
  engineSeq : ℕ
  schedulerOwnersByKey : JsMap String ℕ
  objectSeq : ℕ
  schedulers : JsMap ℕ SchedulerHandle
  schedulerSeq : ℕ
  calls : JsMap ℕ Call
  callSeq : ℕ

def schedulerOwnershipKey (cacheDir serverId : String) : String := cacheDir ++ "::" ++ serverId

def Engine.key (e : Engine) (serverId : String) : String :=
  schedulerOwnershipKey e.cacheDirPath serverId

/-- `Math.round` of an interval in milliseconds. -/
def ProviderServerConfig.intervalMs (server : ProviderServerConfig) : ℚ :=
  (server.syncIntervalMinutes * 60000 + 1 / 2).floor

namespace Engines

def initial : Engines where
  engines := .empty
  engineSeq := 0
  schedulerOwnersByKey := .empty
  objectSeq := 0
  schedulers := .empty
  schedulerSeq := 0
  calls := .empty
  callSeq := 0

variable (s : Engines)

/-- An engine is changed. -/
def updateEngine (i : ℕ) (f : Engine → Engine) : Engines :=
  match s.engines.get i with
  | none => s
  | some e => { s with engines := s.engines.set i (f e) }

/-- The runtime of a server of an engine, if there is one. -/
def runtime (i : ℕ) (serverId : String) : Option ServerRuntime :=
  (s.engines.get i).bind fun e => e.runtimeByServer.get serverId

/-- The runtime of a server of an engine is changed. -/
def updateRuntime (i : ℕ) (serverId : String) (f : ServerRuntime → ServerRuntime) : Engines :=
  s.updateEngine i fun e =>
    { e with
      runtimeByServer := e.runtimeByServer.mapValues fun id runtime =>
        if id = serverId then f runtime else runtime }

/-- A scheduler is changed. -/
def updateScheduler (handle : ℕ) (f : Scheduler → Scheduler) : Engines :=
  { s with
    schedulers := s.schedulers.mapValues fun h entry =>
      if h = handle then { entry with scheduler := f entry.scheduler } else entry }

/-! ### Ownership -/

/-- Whether nobody else owns the scheduler of a server of an engine. -/
def claims (i : ℕ) (serverId : String) : Bool :=
  (s.engines.get i).any fun e => (s.schedulerOwnersByKey.get (e.key serverId)).all (· = i)

/-- The scheduler of a server of an engine is claimed. -/
def claim (i : ℕ) (serverId : String) : Engines :=
  match s.engines.get i with
  | none => s
  | some e =>
      { s with
        schedulerOwnersByKey := s.schedulerOwnersByKey.set (e.key serverId) i }.updateRuntime i
          serverId fun runtime => { runtime with ownsScheduler := true }

def releaseSchedulerOwnership (i : ℕ) (key : String) : Engines :=
  if s.schedulerOwnersByKey.get key = some i then
    { s with schedulerOwnersByKey := s.schedulerOwnersByKey.delete key }
  else s

/-! ### Calls -/

def addCall (call : Call) : Engines :=
  { s with
    calls := s.calls.set s.callSeq call
    callSeq := s.callSeq + 1 }

/-- A call goes on to its next await. -/
def awaits (c : ℕ) (call : Call) (await : Await) : Engines :=
  { s with calls := s.calls.set c { call with await } }

/-- A call returns, or throws. -/
def returns (c : ℕ) : Engines := { s with calls := s.calls.delete c }

/-! ### Initialising -/

/-- The loop of `initialize` over the servers, up to its next await. -/
def loadServers (c : ℕ) (call : Call) : List ProviderServerConfig → Engines
  | server :: rest => s.awaits c call (.load server rest)
  | [] =>
      let s := s.updateEngine call.engine fun e => { e with initialized := true }
      match call.warmup with
      | none => s.returns c
      | some _ => s.awaits c call .initialized

/-- The runtime of a server is made, once its state has been loaded. -/
def setRuntime (i : ℕ) (serverId : String) : Engines :=
  { s with objectSeq := s.objectSeq + 1 }.updateEngine i fun e =>
    { e with
      runtimeByServer := e.runtimeByServer.set serverId
        { object := s.objectSeq
          scheduler := none
          ownsScheduler := false } }

/-- `initialize` is called, by itself or by `start`. -/
def callInitialize (i : ℕ) (e : Engine) (warmup : Option Bool) : Engines :=
  if e.initialized then
    match warmup with
    | none => s
    | some _ => s.addCall ⟨i, warmup, .initialized, false⟩
  else s.addCall ⟨i, warmup, .ensureReady, false⟩

/-! ### Starting and stopping -/

/-- The scheduler of a server is started, and kept in the runtime that has been looked up. -/
def launch (i : ℕ) (server : ProviderServerConfig) (object : Option ℕ) : Engines :=
  { s with
    schedulers := s.schedulers.set s.schedulerSeq ⟨i, server.id, startScheduler server.intervalMs⟩
    schedulerSeq := s.schedulerSeq + 1 }.updateRuntime i server.id fun runtime =>
      if object = some runtime.object then { runtime with scheduler := some s.schedulerSeq }
      else runtime

/-- The loop of `start` over the servers, up to its next await. -/
def startServers (c : ℕ) (call : Call) (warmup : Bool) :
    Engines → List ProviderServerConfig → Engines
  | s, [] => (s.updateEngine call.engine fun e => { e with started := true }).returns c
  | s, server :: rest =>
      if s.claims call.engine server.id then
        let s := s.claim call.engine server.id
        let object := (s.runtime call.engine server.id).map ServerRuntime.object
        if warmup then s.awaits c call (.warmup server object rest)
        else startServers c call warmup (s.launch call.engine server object) rest
      else startServers c call warmup s rest

/-- A call goes on after an await, which has thrown unless it is `ok`. -/
def resume (c : ℕ) (call : Call) (e : Engine) (ok : Bool) : Engines :=
  match call.await with
  | .ensureReady => if ok then s.loadServers c call e.servers else s.returns c
  | .load server rest =>
      if ok then (s.setRuntime call.engine server.id).loadServers c call rest else s.returns c
  | .initialized => startServers c call (call.warmup.getD true) s e.servers
  | .warmup server object rest =>
      startServers c call (call.warmup.getD true) (s.launch call.engine server object) rest

/-- The body of the loop of `stop`. -/
def stopServer (i : ℕ) (key : String) (runtime : ServerRuntime) : Engines :=
  let s := runtime.scheduler.elim s fun handle => s.updateScheduler handle Scheduler.stop
  if runtime.ownsScheduler then s.releaseSchedulerOwnership i key else s

def stop (i : ℕ) (e : Engine) : Engines :=
  let s := e.runtimeByServer.entries.foldl (fun s r => s.stopServer i (e.key r.1) r.2) s
  { s with
    calls := s.calls.mapValues fun _ call =>
      if call.engine = i then { call with overtaken := true } else call }.updateEngine i fun e =>
    { e with
      runtimeByServer := e.runtimeByServer.mapValues fun _ runtime =>
        { runtime with ownsScheduler := false }
      started := false }

end Engines

/-! ### Events -/

/-- What happens to the engines of a process. -/
inductive EngineEvent where
  | create (cacheDirPath : String) (servers : List ProviderServerConfig)
  | start (engine : ℕ) (warmup : Bool)
  | callInitialize (engine : ℕ)
  | stop (engine : ℕ)
  /-- What a call awaits has been done, or has failed. -/
  | resume (call : ℕ) (ok : Bool)
  | timer (scheduler timer : ℕ)
  /-- A run of the task of a scheduler has completed, or has failed. -/
  | completed (scheduler : ℕ) (ok : Bool)
  deriving DecidableEq

namespace Engines

variable (s : Engines)

def enabled : EngineEvent → Bool
  | .create _ servers => !servers.isEmpty
  | .start i _ => s.engines.has i
  | .callInitialize i => s.engines.has i
  | .stop i => s.engines.has i
  | .resume c _ => s.calls.has c
  | .timer h timer => (s.schedulers.get h).any fun entry => entry.scheduler.timers.has timer
  | .completed h _ => (s.schedulers.get h).any fun entry => decide (0 < entry.scheduler.runs)

/-- An engine that is there handles a call of one of its methods. -/
def withEngine (i : ℕ) (f : Engine → Engines) : Engines := (s.engines.get i).elim s f

def handle : EngineEvent → Engines
  | .create cacheDirPath servers =>
      { s with
        engines := s.engines.set s.engineSeq
          { cacheDirPath
            servers
            runtimeByServer := .empty
            initialized := false
            started := false }
        engineSeq := s.engineSeq + 1 }
  | .start i warmup =>
      s.withEngine i fun e => if e.started then s else s.callInitialize i e (some warmup)
  | .callInitialize i => s.withEngine i fun e => s.callInitialize i e none
  | .stop i => s.withEngine i fun e => s.stop i e
  | .resume c ok =>
      (s.calls.get c).elim s fun call =>
        s.withEngine call.engine fun e => s.resume c call e ok
  | .timer h timer => s.updateScheduler h fun scheduler => scheduler.tick timer
  | .completed h ok => s.updateScheduler h fun scheduler => scheduler.completed ok

/-- The engines of a process and what happens to them. -/
def system : EventSystem Engines EngineEvent where
  enabled s e := s.enabled e = true
  next := handle

instance (s : Engines) (e : EngineEvent) :
  Decidable (system.enabled s e)
  := inferInstanceAs (Decidable (s.enabled e = true))

end Engines

end ProviderSync
