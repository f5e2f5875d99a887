import OpencodeToolbelt.AuthCore.TokenRuntime
import OpencodeToolbelt.ProviderSync.State

/-!
# The model sync engine

What an engine does for one of its servers. The state it keeps in memory shares a file with
other engines and processes, and carries the root token of the server.
-/

/-- `FileCacheStore.loadServerState` -/
def loadServerState (directory serverId : String) : Auth (Option CachedServerState) := do
  let entry ← Auth.load ⟨directory, serverId⟩
  pure (entry.bind (Entry.toServerState serverId))

/-- `FileCacheStore.saveServerState` -/
def saveServerState (directory : String) (state : CachedServerState) : Auth Unit :=
  Auth.save ⟨directory, state.serverId⟩ (.ofState state)

structure ServerSnapshot where
  serverId : String
  models : List NormalizedModel
  lastSyncAt : Option ℕ

/-- A server of an engine. -/
structure EngineServer where
  /-- Which `runtimeByServer` entry holds the state in memory. -/
  engine : ℕ
  /-- Which object its token runtime is. -/
  runtime : ℕ
  serverId : String
  cacheDirPath : String
  client : OAuthClient
  /-- The default cache directory of token runtimes, where the lock is. -/
  tokensDirectory : String
  hashCacheKey : String → String
  passes : ℕ
  /-- `normalizeModelId`, with the name overrides of the server. -/
  normalizeModelId : String → String

namespace EngineServer

variable (e : EngineServer)

def readCachedToken : Auth (Option TokenSet) := do
  let persisted ← loadServerState e.cacheDirPath e.serverId
  Auth.perform (.adoptState e.engine persisted)

def setCached (token : TokenSet) : Auth Unit := do
  let (state, now) ← Auth.perform (.peekState e.engine)
  let next : CachedServerState := { state with updatedAt := now, token := some token }
  saveServerState e.cacheDirPath next
  Auth.perform (.assignState e.engine next)

def buildTokenRuntime : TokenRuntime where
  instanceId := e.runtime
  identity := e.serverId
  client := e.client
  directory := e.tokensDirectory
  lockStaleMs := Auth.DEFAULT_LOCK_STALE_MS
  getCachedOverride := some e.readCachedToken
  setCachedOverride := some e.setCached
  hashCacheKey := e.hashCacheKey
  passes := e.passes

def normalizeModelList (models : List RawModel) : List NormalizedModel :=
  models.map fun model => { id := model.id, displayName := e.normalizeModelId model.id }

/-- The `try` block of `syncServer`. -/
def fetchServerModels (interactive : Option Bool) : Auth ServerSnapshot := do
  let token ← e.buildTokenRuntime.ensure interactive
  match ← Auth.perform (.fetchModels e.serverId token) with
  | none => .fail .transport
  | some rawModels => do
      let models := e.normalizeModelList rawModels
      let (state, now) ← Auth.perform (.peekState e.engine)
      let nextState : CachedServerState :=
        { state with
          updatedAt := now
          lastSyncAt := some now
          token := some token
          rawModels
          models }
      saveServerState e.cacheDirPath nextState
      Auth.perform (.assignState e.engine nextState)
      pure
        { serverId := e.serverId
          models
          lastSyncAt := nextState.lastSyncAt }

def syncServer (interactive : Option Bool) : Auth ServerSnapshot := do
  let (previousState, _) ← Auth.perform (.peekState e.engine)
  (e.fetchServerModels interactive).tryCatch fun _ =>
    pure
      { serverId := e.serverId
        models := previousState.models
        lastSyncAt := previousState.lastSyncAt }

def ensureAccessToken (interactive : Option Bool) : Auth TokenSet :=
  e.buildTokenRuntime.ensure interactive

end EngineServer
