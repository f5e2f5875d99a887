import OpencodeToolbelt.Lightbridge.Runtime
import OpencodeToolbelt.RepoAuth.Plugin
import OpencodeToolbelt.AuthCore.Host

/-!
# The stores of the token runtimes

Where the token runtimes of the source keep their root token.
-/

namespace TokenRuntime

/-- A token runtime that keeps its root token in its own file, in the state of a server of
an engine, or in the state file of a lightbridge runtime. -/
inductive Store : TokenRuntime → Prop where
  | file {r : TokenRuntime} (hget : r.getCachedOverride = none)
      (hset : r.setCachedOverride = none) : Store r
  | engine (e : EngineServer) : Store e.buildTokenRuntime
  | lightbridge (l : LightbridgeRuntime) : Store l.rootRuntime

/-- The operations of `getCached`. -/
def ReadOp : Op → Prop
  | .load _ => True
  | .adoptState _ _ => True
  | _ => False

theorem Store.getCached_within {r : TokenRuntime} (h : r.Store) :
  r.getCached.Within ReadOp Auth.Settled
  := by
  cases h with
  | file hget hset =>
      rw [getCached, hget]
      exact ⟨trivial, fun _ => trivial⟩
  | engine e => exact ⟨trivial, fun _ => ⟨trivial, fun _ => trivial⟩⟩
  | lightbridge l => exact ⟨trivial, fun _ => trivial⟩

/-- The operations of `persist`. -/
def WriteOp : Op → Prop
  | .load _ => True
  | .now => True
  | .save _ _ => True
  | .peekState _ => True
  | .assignState _ _ => True
  | _ => False

theorem Store.persist_within {r : TokenRuntime} (h : r.Store) (token : TokenSet) :
  (r.persist token).Within WriteOp fun result => ∀ e, result = .error e → e = .storage
  := by
  have hsave : ∀ loc entry, (Auth.save loc entry).Within WriteOp
      fun result => ∀ e, result = .error e → e = .storage := by
    intro loc entry
    refine ⟨trivial, fun saved => ?_⟩
    cases saved with
    | true => rintro e ⟨⟩
    | false =>
        rintro e ⟨⟩
        rfl
  cases h with
  | file hget hset =>
      rw [persist, hset]
      apply hsave
  | engine e =>
      refine ⟨trivial, fun state => ?_⟩
      apply (hsave _ _).bind
      · refine fun _ _ => ⟨trivial, fun _ => ?_⟩
        rintro e ⟨⟩
      · exact fun _ h => h
  | lightbridge l => exact ⟨trivial, fun _ => ⟨trivial, fun _ => hsave _ _⟩⟩

/-! ### No refresh outside of a refresh -/

theorem nonRefresh_of_read {o : Op} (ho : ReadOp o) :
  OAuthClient.NonRefresh o
  := by
  cases o with
  | postToken server request => cases ho
  | _ => trivial

theorem nonRefresh_of_write {o : Op} (ho : WriteOp o) :
  OAuthClient.NonRefresh o
  := by
  cases o with
  | postToken server request => cases ho
  | _ => trivial

theorem nonRefresh_of_lock {path : Loc} {o : Op} (ho : RefreshLockOp path o) :
  OAuthClient.NonRefresh o
  := by
  obtain ho | ⟨reason, rfl⟩ := ho
  · cases o with
    | postToken server request => cases ho
    | _ => trivial
  · trivial

end TokenRuntime

/-! ### A configuration to run -/

def sampleServer : AuthServerConfig where
  id := "idp"
  issuer := "https://idp.example"
  clientId := "cli"
  clientSecret := none
  authFlow := .authorizationCode
  subjectTokenSource := none
  tokenExchangeAudience := none

/-- A token runtime with a file of its own. -/
def sampleRuntime (instanceId : ℕ) : TokenRuntime where
  instanceId
  identity := "human"
  client := { server := sampleServer, tokenExpirySkewMs := DEFAULT_TOKEN_EXPIRY_SKEW_MS }
  directory := "tokens"
  lockStaleMs := Auth.DEFAULT_LOCK_STALE_MS
  getCachedOverride := none
  setCachedOverride := none
  hashCacheKey := fun value => value
  passes := 3

/-- A token with a refresh token. -/
def sampleToken (accessToken refreshToken : String) (expiresAt : ℚ) : TokenSet where
  accessToken
  tokenType := "Bearer"
  refreshToken := some refreshToken
  scope := none
  expiresAt := some expiresAt

/-- A response of the token endpoint, for one hour. -/
def samplePayload (accessToken refreshToken : String) : TokenPayload where
  accessToken := some accessToken
  tokenType := none
  expiresIn := some 3600
  refreshToken := some refreshToken
  scope := none

/-- The answer of the token endpoint to whatever is requested of it. -/
def respond (response : TokenResponse) : (o : Op) → Option (Ans o)
  | .postToken _ _ => some response
  | .awaitLogin _ => some response
  | _ => none

/-- The answer of a disk that cannot be written to. -/
def diskFull : (o : Op) → Option (Ans o)
  | .save _ _ => some false
  | _ => none

/-- The file of `sampleRuntime` holds a token which has expired. -/
def expiredCache : World :=
  { World.blank 1000000 with
    entries := JsMap.empty.set ⟨"tokens", "human"⟩ (.ofToken (sampleToken "access-1" "refresh-1" 1)) }
