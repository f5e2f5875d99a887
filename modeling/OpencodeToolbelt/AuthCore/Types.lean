import OpencodeToolbelt.Data.JsString
import Mathlib.Data.Nat.Notation
import Mathlib.Data.Rat.Cast.Order

/-!
# Tokens, server configurations and cache entries

The data the token runtimes read and write. Times are in milliseconds.
-/

/-- Where a cache entry or a lock file lives: the directory of its store and its key. -/
structure Loc where
  dir : String
  key : String
  deriving DecidableEq, Repr

/-! ### Tokens -/

structure TokenSet where
  accessToken : String
  tokenType : String
  refreshToken : Option String
  scope : Option String
  expiresAt : Option ℚ
  deriving DecidableEq, Repr

/-- What makes a runtime throw. -/
inductive AuthError where
  /-- The token endpoint refused a refresh token: `RefreshTokenError`. -/
  | refreshToken (status : ℕ)
  /-- The response carries no `access_token`. -/
  | missingAccessToken
  /-- The response carries no `refresh_token`. -/
  | missingRefreshToken
  /-- A login is needed, but the call was made with `interactive: false`. -/
  | interactiveRequired (serverId : String)
  | missingClientSecret
  | missingSubjectTokenSource
  /-- A request other than a refresh was answered with an error status. -/
  | request (status : ℕ)
  /-- No response: discovery, the network, the timeout or the response body failed. -/
  | transport
  /-- A file could not be written. -/
  | storage
  deriving DecidableEq, Repr

instance decidableEqExcept {ε α : Type} [DecidableEq ε] [DecidableEq α] :
    DecidableEq (Except ε α)
  | .ok a, .ok b => decidable_of_iff (a = b) ⟨congrArg Except.ok, Except.ok.inj⟩
  | .error e, .error f => decidable_of_iff (e = f) ⟨congrArg Except.error, Except.error.inj⟩
  | .ok _, .error _ => isFalse (by simp)
  | .error _, .ok _ => isFalse (by simp)

/-- The fields of a token response that are read, absent when they have another type. -/
structure TokenPayload where
  accessToken : Option String
  tokenType : Option String
  expiresIn : Option ℚ
  refreshToken : Option String
  scope : Option String
  deriving DecidableEq, Repr

inductive TokenResponse where
  | failed
  | status (status : ℕ)
  | ok (payload : TokenPayload)
  deriving DecidableEq, Repr

/-- The token set of a response received at the time `now`. -/
def toTokenSet (payload : TokenPayload) (fallbackRefreshToken : Option String)
    (requireRefreshToken : Bool) (now : ℕ) : Except AuthError TokenSet :=
  match nonEmpty payload.accessToken with
  | none => .error .missingAccessToken
  | some accessToken =>
      let refreshToken := (nonEmpty payload.refreshToken).or fallbackRefreshToken
      if requireRefreshToken ∧ nonEmpty refreshToken = none then .error .missingRefreshToken
      else
        .ok
          { accessToken
            tokenType := (nonEmpty payload.tokenType).getD "Bearer"
            refreshToken
            scope := payload.scope
            expiresAt :=
              (payload.expiresIn.filter (· ≠ 0)).map fun expiresIn => now + expiresIn * 1000 }

/-! ### Server configurations -/

inductive OAuthAuthFlow where
  | authorizationCode
  | deviceCode
  | clientCredentials
  | jwtBearer
  | tokenExchange
  deriving DecidableEq, Repr

inductive SubjectTokenSource where
  | githubActions (audience : String)
  | kubernetesSa (tokenPath : Option String)
  | file (path : String)
  | env (name : String)
  deriving DecidableEq, Repr

structure AuthServerConfig where
  id : String
  issuer : String
  clientId : String
  clientSecret : Option String
  authFlow : OAuthAuthFlow
  subjectTokenSource : Option SubjectTokenSource
  tokenExchangeAudience : Option String
  deriving DecidableEq, Repr

/-- A request to the token endpoint of a server: what it presents. -/
inductive TokenRequest where
  | refresh (refreshToken : String)
  | clientCredentials (clientSecret : String)
  | jwtBearer (assertion : String)
  | tokenExchange (subjectToken : String) (extraParams : List (String × String))
  deriving DecidableEq, Repr

/-! ### Cache entries -/

structure RawModel where
  id : String
  deriving DecidableEq, Repr

structure NormalizedModel where
  id : String
  displayName : String
  deriving DecidableEq, Repr

/-- The fused state a provider-sync engine keeps of a server. -/
structure CachedServerState where
  serverId : String
  updatedAt : ℕ
  lastSyncAt : Option ℕ
  models : List NormalizedModel
  rawModels : List RawModel
  token : Option TokenSet
  deriving DecidableEq, Repr

instance : Inhabited CachedServerState := ⟨⟨"", 0, none, [], [], none⟩⟩

/-- The content of a cache file. -/
inductive Entry where
  | ofToken (token : TokenSet)
  | ofState (state : CachedServerState)
  deriving DecidableEq, Repr

/-- A cache file read as a token set. A server state has none of the fields of one. -/
def Entry.toTokenSet : Entry → TokenSet
  | .ofToken token => token
  | .ofState _ => ⟨"", "", none, none, none⟩

def hasValidTokenShape (token : TokenSet) : Bool :=
  token.accessToken ≠ "" && token.tokenType ≠ "" && token.refreshToken ≠ some ""

/-- A cache file read as the state of a server: `loadServerState`. -/
def Entry.toServerState (serverId : String) : Entry → Option CachedServerState
  | .ofToken _ => none
  | .ofState state =>
      if state.serverId = serverId then
        some { state with token := state.token.filter hasValidTokenShape }
      else none
