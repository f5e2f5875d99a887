import OpencodeToolbelt.AuthCore.Lock
import OpencodeToolbelt.AuthCore.OAuthClient

/-!
# The token runtime

The tokens of one identity: a root token, which `ensure` keeps valid, and the tokens it is
exchanged for. A refresh is shared by the calls of one runtime and, across processes, runs
under the lock file of the identity.
-/

structure TokenRuntime where
  /-- Which object this is: each has an `inFlight` slot of its own. -/
  instanceId : ℕ
  identity : String
  client : OAuthClient
  /-- The directory of the cache store. -/
  directory : String
  lockStaleMs : ℕ
  getCachedOverride : Option (Auth (Option TokenSet))
  setCachedOverride : Option (TokenSet → Auth Unit)
  hashCacheKey : String → String
  /-- How many passes of its loop `acquireFileLock` is followed through. -/
  passes : ℕ

namespace TokenRuntime

variable (r : TokenRuntime)

def cacheLoc : Loc := ⟨r.directory, r.identity⟩

def exchangeCacheKey (key : String) : String :=
  r.identity ++ "-" ++ r.hashCacheKey (r.identity ++ ":" ++ key)

def exchangeLoc (key : String) : Loc := ⟨r.directory, r.exchangeCacheKey key⟩

def lockPath : Loc := ⟨r.directory ++ "/locks", r.identity ++ ".lock"⟩

def getCached : Auth (Option TokenSet) :=
  match r.getCachedOverride with
  | some getCached => getCached
  | none => do
      let entry ← Auth.load r.cacheLoc
      pure (entry.map Entry.toTokenSet)

def persist (token : TokenSet) : Auth Unit :=
  match r.setCachedOverride with
  | some setCached => setCached token
  | none => Auth.save r.cacheLoc (.ofToken token)

def persisted (token : TokenSet) : Auth TokenSet := do
  r.persist token
  pure token

/-- The refresh with a token, and its persisting. -/
def refreshPersisted (refreshToken : String) : Auth TokenSet := do
  let token ← r.client.refreshToken refreshToken
  r.persisted token

def acquireRefreshLock : Auth Auth.FileLock := do
  let lock ← Auth.acquireFileLock r.passes r.lockPath
    { staleMs := some r.lockStaleMs
      pollIntervalMs := none
      maxWaitMs := none }
  match lock.reason with
  | none => pure lock
  | some reason => do
      Auth.perform (.proceedUnlocked reason)
      pure lock

/-- Another reading of the cache after the refresh token of `base` was refused. -/
def recoverFromRejectedRefresh (base : TokenSet) : Auth (Option TokenSet) := do
  let newer ← r.getCached
  match ← r.client.validToken newer with
  | some token => pure (some token)
  | none =>
      match nonEmpty (newer.bind TokenSet.refreshToken) with
      | none => pure none
      | some refreshToken =>
          if some refreshToken = base.refreshToken then pure none
          else
            match ← (r.refreshPersisted refreshToken).attempt with
            | .ok token => pure (some token)
            | .error _ => pure none

/-- The last part of `refreshOrLogin`. -/
def login (base : Option TokenSet) (refreshAttempted : Bool) (interactive : Option Bool) :
    Auth TokenSet := do
  let fallback :=
    if refreshAttempted then base.map fun token => { token with refreshToken := none } else base
  let token ← r.client.ensureToken fallback interactive
  if some token.accessToken ≠ base.map TokenSet.accessToken then r.persisted token
  else pure token

/-- Whether the token endpoint refused the refresh token. -/
def isRejection : AuthError → Bool
  | .refreshToken status => 400 ≤ status ∧ status < 500
  | _ => false

def refreshOrLogin (base : Option TokenSet) (interactive : Option Bool) : Auth TokenSet :=
  match base with
  | none => r.login none false interactive
  | some token =>
      match nonEmpty token.refreshToken with
      | none => r.login base false interactive
      | some refreshToken =>
          if r.client.usesRefreshToken then do
            match ← (r.refreshPersisted refreshToken).attempt with
            | .ok refreshed => pure refreshed
            | .error error =>
                if isRejection error then do
                  match ← r.recoverFromRejectedRefresh token with
                  | some recovered => pure recovered
                  | none => r.login base true interactive
                else r.login base true interactive
          else r.login base false interactive

def acquireCoordinated (snapshot : Option TokenSet) (interactive : Option Bool) :
    Auth TokenSet := do
  let lock ← r.acquireRefreshLock
  Program.tryFinally
    (do
      let reread ← r.getCached
      match ← r.client.validToken reread with
      | some token => pure token
      | none => r.refreshOrLogin (reread <|> snapshot) interactive)
    lock.release

def ensure (interactive : Option Bool) : Auth TokenSet := do
  let cached ← r.getCached
  match ← r.client.validToken cached with
  | some token => pure token
  | none =>
      match ← Auth.claimFlight (.refresh r.instanceId) with
      | .join flight => Auth.joinFlight flight
      | .lead flight => do
          let result ← (r.acquireCoordinated cached interactive).attempt
          Auth.clearSlot (.refresh r.instanceId) flight
          Auth.publishFlight flight result
          .settle result

def refresh (interactive : Option Bool) : Auth TokenSet := do
  let token ← r.client.ensureToken none interactive
  r.persisted token

def exchangeTo (key subjectToken : String) (extraParams : List (String × String)) :
    Auth TokenSet := do
  let token ← r.client.exchange subjectToken extraParams
  Auth.save (r.exchangeLoc key) (.ofToken token)
  pure token

def getExchangedByKey (key : String) : Auth (Option TokenSet) := do
  let entry ← Auth.load (r.exchangeLoc key)
  pure (entry.map Entry.toTokenSet)

/-- The removal of the entries with the keys. -/
def removeKeys : List String → Auth Unit
  | [] => pure ()
  | key :: keys => do
      Auth.remove ⟨r.directory, key⟩
      removeKeys keys

def reset : Auth Unit := do
  Auth.remove r.cacheLoc
  let exchangedKeys ← Auth.listKeys r.directory (r.identity ++ "-")
  r.removeKeys exchangedKeys

/-- The operations of `acquireRefreshLock`. -/
def RefreshLockOp (path : Loc) (o : Op) : Prop :=
  Auth.LockOp path o ∨ ∃ reason, o = .proceedUnlocked reason

theorem acquireRefreshLock_within :
  r.acquireRefreshLock.Within (RefreshLockOp r.lockPath) (Auth.LockOutcome r.lockPath)
  := by
  apply ((Auth.acquireFileLock_within r.passes r.lockPath _).mono (fun _ h => .inl h)
    (fun _ h => h)).bind
  · rintro ⟨acquired, reason, release⟩ hlock
    cases reason with
    | none => apply hlock
    | some reason => exact ⟨.inr ⟨reason, rfl⟩, fun _ => hlock⟩
  · exact fun _ h => h

end TokenRuntime
