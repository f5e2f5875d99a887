import OpencodeToolbelt.Lightbridge.Register
import OpencodeToolbelt.ProviderSync.Ownership
import OpencodeToolbelt.RepoAuth.Options

/-!
# The config hook of oauth2

The hook collects the providers of a configuration, and keeps an engine for them until their
signature changes. It waits for the new engine to be initialised and started, and only then records
the signature. Calls of the hook run without interruption between their awaits.
-/

namespace OAuth2

open ProviderSync
open RepoAuth (AuthServerConfigInput ensureString validateAuthConfig)

/-! ### Validation -/

def toAuthInput (input : ProviderServerConfigInput) : AuthServerConfigInput where
  id := input.id
  issuer := input.issuer
  clientId := input.clientId
  clientSecret := input.clientSecret
  scopes := input.scopes
  authorizationEndpoint := input.authorizationEndpoint
  tokenEndpoint := input.tokenEndpoint
  deviceAuthorizationEndpoint := input.deviceAuthorizationEndpoint
  jwksUri := input.jwksUri
  redirectPort := input.redirectPort
  authFlow := input.authFlow
  pkce := input.pkce
  subjectTokenSource := input.subjectTokenSource

def DEFAULT_SYNC_INTERVAL_MINUTES : ℚ := 60

/-- The settings of a server, as far as the schedulers of an engine go. -/
def normalizeServerConfig (input : ProviderServerConfigInput) :
    Except ConfigError ProviderServerConfig :=
  match validateAuthConfig (toAuthInput input) with
  | .error e => .error e
  | .ok auth =>
      match ensureString input.baseURL ".baseURL" with
      | .error e => .error e
      | .ok _ =>
          .ok
            { id := auth.id
              syncIntervalMinutes :=
                match input.syncIntervalMinutes with
                | some n => if 0 < n then n else DEFAULT_SYNC_INTERVAL_MINUTES
                | none => DEFAULT_SYNC_INTERVAL_MINUTES }

/-- The first server with the id of one before it. -/
def duplicateId : List String → List ProviderServerConfig → Option String
  | _, [] => none
  | ids, server :: rest =>
      if server.id ∈ ids then some server.id else duplicateId (server.id :: ids) rest

def validateConfig (servers : List ProviderServerConfigInput) :
    Except ConfigError (List ProviderServerConfig) :=
  if servers = [] then .error ⟨"servers", "must be a non-empty array", none⟩
  else
    match servers.mapM normalizeServerConfig with
    | .error e => .error e
    | .ok normalizedServers =>
        match duplicateId [] normalizedServers with
        | some id => .error ⟨"servers", s!"duplicate server id detected: {id}", none⟩
        | none => .ok normalizedServers

/-! ### The plugin -/

/-- What the plugin is given: where its engines have their cache, the order of `localeCompare`, and
`JSON.stringify`, which tells servers with other ids apart. -/
structure FactoryOptions where
  cacheDirPath : String
  localeLe : String → String → Bool
  stringify : List ProviderServerConfigInput → String
  stringify_ids : ∀ servers servers', stringify servers = stringify servers' →
    servers.map ProviderServerConfigInput.id = servers'.map ProviderServerConfigInput.id

def FactoryOptions.runtimeSignature (options : FactoryOptions)
    (servers : List ProviderServerConfigInput) : String :=
  options.stringify (servers.mergeSort fun a b => options.localeLe a.id b.id)

structure RuntimeState where
  runtime : Option ℕ
  signature : Option String
  managedProviderIds : List String

/-- What a call of the hook waits for. -/
inductive HookStage where
  /-- `initialize`, with the call of the engine. -/
  | initializing (call : ℕ)
  /-- `start`, with the call of the engine. -/
  | starting (call : ℕ)
  /-- The propagation of bearers. -/
  | propagating
  deriving DecidableEq

/-- A call of the hook, with the servers it has collected. -/
structure HookCall where
  servers : List ProviderServerConfigInput
  stage : HookStage

/-- The plugin with its engines, and from which servers each of them has been built. -/
structure Plugin where
  state : RuntimeState
  engines : Engines
  built : JsMap ℕ (List ProviderServerConfigInput)
  calls : JsMap ℕ HookCall
  callSeq : ℕ

inductive PluginEvent where
  /-- The hook is called. -/
  | config (config : OpenCodeConfig)
  /-- What a call of the hook waits for has been done, or has failed. -/
  | resume (i : ℕ) (ok : Bool)
  | timer (scheduler timer : ℕ)
  | completed (scheduler : ℕ) (ok : Bool)

/-- The managed providers of a configuration, or why there are none. -/
def collected (config : OpenCodeConfig) : Except ConfigError (List ProviderServerConfigInput) :=
  (config.collectManagedProviders OAUTH2_COLLECT_OPTIONS).2

namespace Plugin

def initial : Plugin := ⟨⟨none, none, []⟩, .initial, .empty, .empty, 0⟩

variable (options : FactoryOptions) (s : Plugin)

def addCall (call : HookCall) : Plugin :=
  { s with calls := s.calls.set s.callSeq call, callSeq := s.callSeq + 1 }

/-- A call goes on to its next await. -/
def awaits (i : ℕ) (servers : List ProviderServerConfigInput) (stage : HookStage) : Plugin :=
  { s with calls := s.calls.set i ⟨servers, stage⟩ }

/-- A call returns, or throws. -/
def returns (i : ℕ) : Plugin := { s with calls := s.calls.delete i }

/-- `state.runtime?.stop()` -/
def stopRuntime : Plugin :=
  match s.state.runtime with
  | none => s
  | some j => { s with engines := s.engines.handle (.stop j) }

/-- Whether a call finds a runtime that it can go on with. -/
def Reuses (servers : List ProviderServerConfigInput) : Prop :=
  s.state.runtime.isSome ∧ s.state.signature = some (options.runtimeSignature servers)

instance (servers : List ProviderServerConfigInput) :
  Decidable (s.Reuses options servers)
  := inferInstanceAs (Decidable (_ ∧ _))

/-- A runtime is built, and its `initialize` is called. -/
def build (servers : List ProviderServerConfigInput) : Plugin :=
  match validateConfig servers with
  | .error _ => s
  | .ok normalizedServers =>
      let j := s.engines.engineSeq
      let engines := s.engines.handle (.create options.cacheDirPath normalizedServers)
      { s with
        state := { s.state with runtime := some j }
        engines := engines.handle (.callInitialize j)
        built := s.built.set j servers }.addCall ⟨servers, .initializing engines.callSeq⟩

/-- The hook, up to its first await. -/
def config (config : OpenCodeConfig) : Plugin :=
  match collected config with
  | .error _ => s
  | .ok [] => { s.stopRuntime with state := ⟨none, none, []⟩ }
  | .ok servers =>
      if s.Reuses options servers then
        { s with
          state := { s.state with
            managedProviderIds := servers.map ProviderServerConfigInput.id } }.addCall
              ⟨servers, .propagating⟩
      else s.stopRuntime.build options servers

/-- The runtime has been started. -/
def afterStart (i : ℕ) (servers : List ProviderServerConfigInput) : Plugin :=
  { s with
    state := { s.state with
      signature := some (options.runtimeSignature servers)
      managedProviderIds := servers.map ProviderServerConfigInput.id } }.awaits i servers
        .propagating

/-- The runtime has been initialised. The one that is started is read from the state once more. -/
def afterInitialize (i : ℕ) (servers : List ProviderServerConfigInput) : Plugin :=
  match s.state.runtime with
  | none => s.returns i
  | some j =>
      let s' := { s with engines := s.engines.handle (.start j true) }
      -- an engine that has been started returns at once
      if s'.engines.callSeq = s.engines.callSeq then s'.afterStart options i servers
      else s'.awaits i servers (.starting s.engines.callSeq)

/-- Whether a call of an engine throws when what it waits for fails. -/
def throws (c : ℕ) : Bool :=
  (s.engines.calls.get c).any fun call =>
    match call.await with
    | .ensureReady | .load _ _ => true
    | _ => false

/-- A call of the hook goes on once the call of the engine that it waits for has returned. -/
def resume (i : ℕ) (ok : Bool) : Plugin :=
  match s.calls.get i with
  | none => s
  | some ⟨_, .propagating⟩ => s.returns i
  | some ⟨servers, .initializing c⟩ =>
      let s' := { s with engines := s.engines.handle (.resume c ok) }
      if s'.engines.calls.has c then s'
      else if s.throws c && !ok then s'.returns i
      else s'.afterInitialize options i servers
  | some ⟨servers, .starting c⟩ =>
      let s' := { s with engines := s.engines.handle (.resume c ok) }
      if s'.engines.calls.has c then s'
      else if s.throws c && !ok then s'.returns i
      else s'.afterStart options i servers

def handle : PluginEvent → Plugin
  | .config config => s.config options config
  | .resume i ok => s.resume options i ok
  | .timer h timer => { s with engines := s.engines.handle (.timer h timer) }
  | .completed h ok => { s with engines := s.engines.handle (.completed h ok) }

/-- The plugin and what happens to it. -/
def system : EventSystem Plugin PluginEvent where
  enabled s
    | .config _ => True
    | .resume i _ => s.calls.has i = true
    | .timer h timer => s.engines.enabled (.timer h timer) = true
    | .completed h ok => s.engines.enabled (.completed h ok) = true
  next s e := s.handle options e

instance (s : Plugin) (e : PluginEvent) :
  Decidable ((system options).enabled s e)
  := by
  cases e with
  | config config => exact inferInstanceAs (Decidable True)
  | resume i ok => exact inferInstanceAs (Decidable (s.calls.has i = true))
  | timer h timer => exact inferInstanceAs (Decidable (s.engines.enabled (.timer h timer) = true))
  | completed h ok =>
      exact inferInstanceAs (Decidable (s.engines.enabled (.completed h ok) = true))

/-! ### What a run is expected to keep -/

abbrev History := List (Plugin × PluginEvent)

/-- No call of the hook is running. -/
def AtRest (s : Plugin) : Prop := ∀ i, s.calls.get i = none

/-- The runtime, its signature and the managed providers belong together, and nothing runs for a
runtime that has been replaced. -/
structure Sound (options : FactoryOptions) (before : History) (s : Plugin) : Prop where
  signature : s.AtRest → ∀ signature, s.state.signature = some signature →
    ∃ j servers, s.state.runtime = some j ∧ s.built.get j = some servers ∧
      signature = options.runtimeSignature servers
  managed : s.AtRest → ∀ id ∈ s.state.managedProviderIds,
    ∃ j e, s.state.runtime = some j ∧ s.engines.engines.get j = some e ∧
      id ∈ e.servers.map ProviderServerConfig.id
  replaced : s.AtRest → ∀ j, s.built.has j = true → s.state.runtime ≠ some j →
    ∀ h entry, s.engines.Running h entry → entry.engine ≠ j
  reused : ∀ step ∈ before, ∀ config servers, step.2 = .config config →
    collected config = .ok servers → servers ≠ [] → step.1.Reuses options servers →
      ∃ j servers', step.1.state.runtime = some j ∧ step.1.built.get j = some servers' ∧
        options.runtimeSignature servers' = options.runtimeSignature servers

end Plugin

end OAuth2
