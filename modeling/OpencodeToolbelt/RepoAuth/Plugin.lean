import OpencodeToolbelt.AuthCore.ProjectToken

/-!
# The repo-auth plugin

The runtime of one managed provider: the human root token of the configured server, and the
project token it is exchanged for.
-/

def HUMAN_IDENTITY : String := "human"

structure RepoAuthPlugin where
  /-- Which object this is, and which object its token runtime is. -/
  instanceId : ℕ
  runtimeInstance : ℕ
  client : OAuthClient
  projectId : String
  cacheDir : String
  hashCacheKey : String → String
  passes : ℕ

namespace RepoAuthPlugin

variable (p : RepoAuthPlugin)

def runtime : TokenRuntime where
  instanceId := p.runtimeInstance
  identity := HUMAN_IDENTITY
  client := p.client
  directory := p.cacheDir
  lockStaleMs := Auth.DEFAULT_LOCK_STALE_MS
  getCachedOverride := none
  setCachedOverride := none
  hashCacheKey := p.hashCacheKey
  passes := p.passes

def ensureHumanToken (interactive : Option Bool) : Auth TokenSet := p.runtime.ensure interactive

def getCachedProjectToken : Auth (Option TokenSet) := p.runtime.getExchangedByKey p.projectId

def performExchange (interactive : Option Bool) : Auth TokenSet := do
  let human ← p.ensureHumanToken interactive
  p.runtime.exchangeTo p.projectId human.accessToken [("project_id", p.projectId)]

def resolveToken (interactive : Option Bool) : Auth TokenSet :=
  resolveProjectToken (.exchange p.instanceId) p.client.tokenExpirySkewMs
    p.getCachedProjectToken (p.performExchange interactive)

def reset : Auth Unit := p.runtime.reset

/-- The token whose bearer a config hook or the hook `chat.headers` injects. -/
def bearer (interactive : Bool) : Auth (Option TokenSet) := do
  match ← (p.resolveToken (some interactive)).attempt with
  | .ok token => pure (some token)
  | .error _ => pure none

end RepoAuthPlugin
