import OpencodeToolbelt.AuthCore.ProjectToken
import OpencodeToolbelt.ProviderSync.Engine

/-!
# The lightbridge runtime

One human login, kept in the state file of the server, which is the bearer itself or is
exchanged for the token of a project.
-/

def LIGHTBRIDGE_IDENTITY : String := "lightbridge"

def DEFAULT_CACHE_NAMESPACE : String := "opencode-lightbridge"

def ROOT_CACHE_SEGMENT : String := "opencode-oauth2"

def ROOT_CACHE_NAMESPACE : String := "opencode-oauth2-model-sync"

def DEFAULT_PROJECT_KEY : String := "__default__"

def OLD_ROOT_CACHE_NAMESPACE : String := "opencode-lightbridge"

def OLD_ROOT_KEY : String := "lightbridge"

structure LightbridgeRuntime where
  /-- Which object this is. -/
  instanceId : ℕ
  /-- Which objects its root runtime and its exchange runtime are. -/
  rootInstance : ℕ
  exchangeInstance : ℕ
  client : OAuthClient
  projectId : Option String
  exchange : Bool
  cacheRoot : String
  /-- The default cache directory of token runtimes, where the lock is. -/
  tokensDirectory : String
  hashCacheKey : String → String
  passes : ℕ

namespace LightbridgeRuntime

variable (l : LightbridgeRuntime)

def serverId : String := l.client.server.id

def projectKey : String := l.projectId.getD DEFAULT_PROJECT_KEY

def sharedDirectory : String :=
  l.cacheRoot ++ "/" ++ ROOT_CACHE_SEGMENT ++ "/" ++ ROOT_CACHE_NAMESPACE

def getCachedRoot : Auth (Option TokenSet) := do
  let state ← loadServerState l.sharedDirectory l.serverId
  pure (state.bind CachedServerState.token)

def setCachedRoot (token : TokenSet) : Auth Unit := do
  let existing ← loadServerState l.sharedDirectory l.serverId
  let now ← Auth.now
  saveServerState l.sharedDirectory
    { serverId := l.serverId
      updatedAt := now
      lastSyncAt := existing.bind CachedServerState.lastSyncAt
      models := existing.elim [] CachedServerState.models
      rawModels := existing.elim [] CachedServerState.rawModels
      token := some token }

/-- `buildSharedRootTokenRuntime` -/
def rootRuntime : TokenRuntime where
  instanceId := l.rootInstance
  identity := l.serverId
  client := l.client
  directory := l.tokensDirectory
  lockStaleMs := Auth.DEFAULT_LOCK_STALE_MS
  getCachedOverride := some l.getCachedRoot
  setCachedOverride := some l.setCachedRoot
  hashCacheKey := l.hashCacheKey
  passes := l.passes

def exchangeRuntime : TokenRuntime where
  instanceId := l.exchangeInstance
  identity := LIGHTBRIDGE_IDENTITY
  client := l.client
  directory := l.cacheRoot ++ "/" ++ DEFAULT_CACHE_NAMESPACE
  lockStaleMs := Auth.DEFAULT_LOCK_STALE_MS
  getCachedOverride := none
  setCachedOverride := none
  hashCacheKey := l.hashCacheKey
  passes := l.passes

/-! ### The migration of the root token -/

def hasUsableTokenShape (token : TokenSet) : Bool :=
  token.accessToken ≠ "" && token.tokenType ≠ ""

def migrateRootTokenIfNeeded : Auth Unit := do
  match ← loadServerState l.sharedDirectory l.serverId with
  | some _ => pure ()
  | none => do
      let legacy ← Auth.load ⟨l.cacheRoot ++ "/" ++ OLD_ROOT_CACHE_NAMESPACE, OLD_ROOT_KEY⟩
      match (legacy.map Entry.toTokenSet).filter hasUsableTokenShape with
      | none => pure ()
      | some legacyToken => do
          let now ← Auth.now
          saveServerState l.sharedDirectory
            { serverId := l.serverId
              updatedAt := now
              lastSyncAt := none
              models := []
              rawModels := []
              token := some legacyToken }

/-- The migration runs once for each runtime, and never fails. -/
def ensureMigrated : Auth Unit := do
  if ← Auth.perform (.claimMigration l.instanceId) then
    let _ ← l.migrateRootTokenIfNeeded.attempt
    Auth.perform (.endMigration l.instanceId)
  else Auth.perform (.awaitMigration l.instanceId)

/-! ### Tokens -/

def getCachedProjectToken : Auth (Option TokenSet) :=
  l.exchangeRuntime.getExchangedByKey l.projectKey

def performExchange (interactive : Option Bool) : Auth TokenSet := do
  let human ← l.rootRuntime.ensure interactive
  l.exchangeRuntime.exchangeTo l.projectKey human.accessToken
    ((nonEmpty l.projectId).toList.map fun projectId => ("project_id", projectId))

def getProjectToken (interactive : Option Bool) : Auth TokenSet := do
  l.ensureMigrated
  if l.exchange then
    resolveProjectToken (.exchange l.instanceId) l.client.tokenExpirySkewMs
      l.getCachedProjectToken (l.performExchange interactive)
  else l.rootRuntime.ensure interactive

def reset : Auth Unit := do
  l.exchangeRuntime.reset
  let existing ← loadServerState l.sharedDirectory l.serverId
  match existing with
  | none => pure ()
  | some state =>
      if state.token.isSome then do
        let now ← Auth.now
        saveServerState l.sharedDirectory { state with updatedAt := now, token := none }
      else pure ()

/-- The value of the header `Authorization` that carries a token. -/
def authorization (token : TokenSet) : String :=
  (if token.tokenType = "" then "Bearer" else token.tokenType) ++ " " ++ token.accessToken

/-- The `headers` of the token source for telemetry. -/
def telemetryHeaders : Auth (Option String) := do
  match ← (l.getProjectToken (some false)).attempt with
  | .ok token => pure (some (authorization token))
  | .error _ => pure none

/-- The bearer that the hook `chat.headers` injects. -/
def chatHeaders : Auth (Option String) := do
  match ← (l.getProjectToken (some true)).attempt with
  | .ok token => pure (some (authorization token))
  | .error _ => pure none

end LightbridgeRuntime
