import OpencodeToolbelt.AuthCore.Effects
import Mathlib.Algebra.Order.Archimedean.Basic
import Mathlib.Tactic.Linarith

/-!
# The OAuth client

Which tokens can still be presented, and the requests that obtain new ones.
-/

structure OAuthClient where
  server : AuthServerConfig
  tokenExpirySkewMs : ℚ

def DEFAULT_TOKEN_EXPIRY_SKEW_MS : ℚ := 30000

/-- The grants that present a machine identity instead of a refresh token. -/
def MACHINE_FLOWS : List OAuthAuthFlow := [.clientCredentials, .jwtBearer, .tokenExchange]

/-- The form fields that the caller of an exchange cannot set. -/
def RESERVED_EXCHANGE_PARAMS : List String :=
  ["grant_type", "client_id", "client_secret", "scope", "subject_token", "subject_token_type"]

namespace OAuthClient

def usesRefreshToken (client : OAuthClient) : Bool :=
  client.server.authFlow ∉ MACHINE_FLOWS

/-- Whether a token can still be presented at the time `now`. -/
def isTokenValid (client : OAuthClient) (now : ℕ) (token : TokenSet) : Bool :=
  if token.accessToken = "" then false
  else
    match token.expiresAt.filter (· ≠ 0) with
    | none => client.usesRefreshToken
    | some expiresAt => now + client.tokenExpirySkewMs < expiresAt

/-- A token that is present and can still be presented. -/
def validToken (client : OAuthClient) (token : Option TokenSet) : Auth (Option TokenSet) := do
  let now ← Auth.now
  pure (token.filter (client.isTokenValid now))

/-- A token that has expired stays expired. -/
theorem isTokenValid_of_le {client : OAuthClient} {now later : ℕ} {token : TokenSet}
    (h : now ≤ later) (hv : client.isTokenValid later token = true) :
  client.isTokenValid now token = true
  := by
  unfold isTokenValid at hv ⊢
  split at hv
  · cases hv
  · next hne =>
      rw [if_neg hne]
      split at hv
      · assumption
      · simp only [decide_eq_true_eq] at hv ⊢
        have hcast : (now : ℚ) ≤ later := Nat.cast_le.mpr h
        apply lt_of_le_of_lt _ hv
        apply add_le_add_left hcast

/-! ### The lifetime a response declares

A lifetime of zero, and one that ends at time zero, read as if no lifetime was declared.
-/

theorem toTokenSet_eq_ok {payload : TokenPayload} {fallback : Option String} {require : Bool}
    {now : ℕ} {token : TokenSet} (h : toTokenSet payload fallback require now = .ok token) :
  token.accessToken ≠ "" ∧
    token.expiresAt =
      (payload.expiresIn.filter (· ≠ 0)).map fun expiresIn => (now : ℚ) + expiresIn * 1000
  := by
  rw [toTokenSet] at h
  cases hpresent : nonEmpty payload.accessToken with
  | none => simp [hpresent] at h
  | some accessToken =>
      rw [hpresent] at h
      dsimp only at h
      split at h
      · simp at h
      · injection h with h
        subst h
        constructor
        · apply of_decide_eq_true (Option.filter_eq_some_iff.mp hpresent).2
        · rfl

/-- Where the expiry counts as absent, only the flow decides. -/
theorem isTokenValid_of_absent {client : OAuthClient} {token : TokenSet}
    (hne : token.accessToken ≠ "") (habsent : token.expiresAt.filter (· ≠ 0) = none) (now : ℕ) :
  client.isTokenValid now token = client.usesRefreshToken
  := by
  rw [isTokenValid, if_neg hne, habsent]

/-- An expiry other than zero is compared with the clock. -/
theorem isTokenValid_of_present {client : OAuthClient} {token : TokenSet} {expiresAt : ℚ}
    (hne : token.accessToken ≠ "") (hpresent : token.expiresAt = some expiresAt)
    (hzero : expiresAt ≠ 0) (now : ℕ) :
  client.isTokenValid now token = decide (now + client.tokenExpirySkewMs < expiresAt)
  := by
  rw [isTokenValid, if_neg hne, hpresent, Option.filter_some, if_pos (decide_eq_true hzero)]

/-- A token is judged invalid from the end of its declared lifetime on if and only if the flow
presents a machine identity, or neither the lifetime nor its end is zero. -/
theorem expires_iff (client : OAuthClient) {payload : TokenPayload} {fallback : Option String}
    {require : Bool} {receivedAt : ℕ} {expiresIn : ℚ} {token : TokenSet}
    (hexpiresIn : payload.expiresIn = some expiresIn)
    (htoken : toTokenSet payload fallback require receivedAt = .ok token) :
  (∀ now : ℕ, receivedAt + 1000 * expiresIn - client.tokenExpirySkewMs ≤ now →
      client.isTokenValid now token = false) ↔
    client.usesRefreshToken = false ∨ (expiresIn ≠ 0 ∧ receivedAt + 1000 * expiresIn ≠ 0)
  := by
  obtain ⟨hne, hexpiresAt⟩ := toTokenSet_eq_ok htoken
  rw [hexpiresIn, Option.filter_some] at hexpiresAt
  by_cases hcounts : expiresIn ≠ 0 ∧ receivedAt + 1000 * expiresIn ≠ 0
  · have hpresent : token.expiresAt = some (receivedAt + 1000 * expiresIn) := by
      rw [hexpiresAt, if_pos (decide_eq_true hcounts.1), Option.map_some, mul_comm]
    constructor
    · intro _
      apply Or.inr hcounts
    · intro _ now hend
      rw [isTokenValid_of_present hne hpresent hcounts.2]
      apply decide_eq_false
      linarith
  · have habsent : token.expiresAt.filter (· ≠ 0) = none := by
      rw [hexpiresAt]
      by_cases hzero : expiresIn = 0
      · simp [hzero]
      · have hend : receivedAt + expiresIn * 1000 = 0 := by
          rw [mul_comm]
          by_contra hend
          apply hcounts ⟨hzero, hend⟩
        simp [hzero, hend]
    constructor
    · intro hinvalid
      obtain ⟨now, hnow⟩ :=
        exists_nat_ge ((receivedAt : ℚ) + 1000 * expiresIn - client.tokenExpirySkewMs)
      have hjudged := hinvalid now hnow
      rw [isTokenValid_of_absent hne habsent] at hjudged
      apply Or.inl hjudged
    · intro hflow now _
      rw [isTokenValid_of_absent hne habsent]
      apply hflow.resolve_right hcounts

/-- A client of a flow that logs users in. -/
def sampleClient : OAuthClient where
  server :=
    { id := "idp"
      issuer := "https://idp"
      clientId := "cli"
      clientSecret := none
      authFlow := .authorizationCode
      subjectTokenSource := none
      tokenExchangeAudience := none }
  tokenExpirySkewMs := DEFAULT_TOKEN_EXPIRY_SKEW_MS

/-- A response that declares a lifetime in seconds. -/
def sampleResponse (expiresIn : ℚ) : TokenPayload :=
  ⟨some "access", some "Bearer", some expiresIn, some "refresh", none⟩

theorem expires_iff_minute :
  (∀ now : ℕ, ((1000 : ℕ) : ℚ) + 1000 * 60 - sampleClient.tokenExpirySkewMs ≤ now →
      sampleClient.isTokenValid now
        ⟨"access", "Bearer", some "refresh", none, some 61000⟩ = false) ↔
    sampleClient.usesRefreshToken = false ∨ ((60 : ℚ) ≠ 0 ∧ ((1000 : ℕ) : ℚ) + 1000 * 60 ≠ 0)
  := by
  have hexpiresIn : (sampleResponse 60).expiresIn = some 60 := rfl
  have htoken : toTokenSet (sampleResponse 60) none true 1000 =
      .ok ⟨"access", "Bearer", some "refresh", none, some 61000⟩ := by decide +kernel
  apply sampleClient.expires_iff hexpiresIn htoken

/-- A token of a response that declares a lifetime of zero is valid for ever. -/
theorem never_expires :
  ¬∀ (client : OAuthClient) (payload : TokenPayload) (fallback : Option String) (require : Bool)
    (receivedAt : ℕ) (expiresIn : ℚ) (token : TokenSet), payload.expiresIn = some expiresIn →
      toTokenSet payload fallback require receivedAt = .ok token →
        ∀ now : ℕ, receivedAt + 1000 * expiresIn - client.tokenExpirySkewMs ≤ now →
          client.isTokenValid now token = false
  := by
  intro h
  have hjudged := h sampleClient (sampleResponse 0) none true 0 0
    ⟨"access", "Bearer", some "refresh", none, none⟩ rfl (by decide +kernel) 0 (by decide +kernel)
  revert hjudged
  decide +kernel

/-- The token set of a response: an error status is thrown as `rejected` says. -/
def readTokenResponse (response : TokenResponse) (fallbackRefreshToken : Option String)
    (requireRefreshToken : Bool) (rejected : ℕ → AuthError) : Auth TokenSet := do
  match response with
  | .failed => .fail .transport
  | .status status => .fail (rejected status)
  | .ok payload =>
      let now ← Auth.now
      .settle (toTokenSet payload fallbackRefreshToken requireRefreshToken now)

def refreshToken (client : OAuthClient) (refreshToken : String) : Auth TokenSet := do
  let response ← Auth.postToken client.server (.refresh refreshToken)
  readTokenResponse response (some refreshToken) true .refreshToken

/-- A grant that presents a machine identity. -/
def postGrant (client : OAuthClient) (request : TokenRequest) : Auth TokenSet := do
  let response ← Auth.postToken client.server request
  readTokenResponse response none false .request

def loginClientCredentials (client : OAuthClient) : Auth TokenSet :=
  match nonEmpty client.server.clientSecret with
  | none => .fail .missingClientSecret
  | some clientSecret => client.postGrant (.clientCredentials clientSecret)

/-- A grant that presents the identity token of the platform. -/
def postFederatedGrant (client : OAuthClient) (request : String → TokenRequest) :
    Auth TokenSet := do
  match client.server.subjectTokenSource with
  | none => .fail .missingSubjectTokenSource
  | some source =>
      match ← Auth.perform (.resolveSubjectToken source) with
      | none => .fail .transport
      | some subjectToken => client.postGrant (request subjectToken)

def loginJwtBearer (client : OAuthClient) : Auth TokenSet :=
  client.postFederatedGrant .jwtBearer

def loginTokenExchange (client : OAuthClient) : Auth TokenSet :=
  client.postFederatedGrant fun subjectToken =>
    .tokenExchange subjectToken
      ((nonEmpty client.server.tokenExchangeAudience).toList.map fun audience =>
        ("audience", audience))

/-- The exchange of a token that the caller presents. -/
def exchange (client : OAuthClient) (subjectToken : String)
    (extraParams : List (String × String)) : Auth TokenSet :=
  client.postGrant
    (.tokenExchange subjectToken (extraParams.filter fun p => p.1 ∉ RESERVED_EXCHANGE_PARAMS))

/-- A login that waits for the user, in a browser or with a device code. -/
def loginInteractive (client : OAuthClient) : Auth TokenSet := do
  Auth.perform (.promptLogin client.server)
  let response ← Auth.perform (.awaitLogin client.server)
  readTokenResponse response none true .request

/-- The refresh of a token that carries a refresh token, unless it fails. -/
def tryRefreshToken (client : OAuthClient) (current : Option TokenSet) :
    Auth (Option TokenSet) :=
  match nonEmpty (current.bind TokenSet.refreshToken) with
  | none => pure none
  | some refreshToken => do
      match ← (client.refreshToken refreshToken).attempt with
      | .ok token => pure (some token)
      | .error _ => pure none

/-- The part of `ensureToken` of the flows that log a user in. -/
def ensureUserToken (client : OAuthClient) (current : Option TokenSet)
    (interactive : Option Bool) : Auth TokenSet := do
  match ← client.tryRefreshToken current with
  | some token => pure token
  | none =>
      if interactive = some false then .fail (.interactiveRequired client.server.id)
      else client.loginInteractive

def ensureToken (client : OAuthClient) (current : Option TokenSet)
    (interactive : Option Bool) : Auth TokenSet := do
  match ← client.validToken current with
  | some token => pure token
  | none =>
      match client.server.authFlow with
      | .clientCredentials => client.loginClientCredentials
      | .jwtBearer => client.loginJwtBearer
      | .tokenExchange => client.loginTokenExchange
      | .authorizationCode => client.ensureUserToken current interactive
      | .deviceCode => client.ensureUserToken current interactive

/-! ### Logins present no refresh token -/

/-- The operations other than a refresh. -/
def NonRefresh : Op → Prop
  | .postToken _ (.refresh _) => False
  | _ => True

/-- No refresh token is left to present: there is none, or the flow does not use one. -/
def NoRefresh (client : OAuthClient) (current : Option TokenSet) : Prop :=
  nonEmpty (current.bind TokenSet.refreshToken) = none ∨ client.usesRefreshToken = false

theorem readTokenResponse_within {C : Op → Prop} (hnow : C .now) (response : TokenResponse)
    (fallback : Option String) (require : Bool) (rejected : ℕ → AuthError) :
  (readTokenResponse response fallback require rejected).Within C fun _ => True
  := by
  cases response with
  | failed => trivial
  | status status => trivial
  | ok payload => exact ⟨hnow, fun _ => Program.Within.settle trivial⟩

theorem postGrant_within (client : OAuthClient) {request : TokenRequest}
    (h : NonRefresh (.postToken client.server request)) :
  (client.postGrant request).Within NonRefresh fun _ => True
  := ⟨h, fun response => readTokenResponse_within trivial response _ _ _⟩

theorem postFederatedGrant_within (client : OAuthClient) {request : String → TokenRequest}
    (h : ∀ subjectToken, NonRefresh (.postToken client.server (request subjectToken))) :
  (client.postFederatedGrant request).Within NonRefresh fun _ => True
  := by
  unfold postFederatedGrant
  cases client.server.subjectTokenSource with
  | none => trivial
  | some source =>
      refine ⟨trivial, fun subjectToken => ?_⟩
      cases subjectToken with
      | none => trivial
      | some subjectToken => apply client.postGrant_within (h subjectToken)

theorem loginInteractive_within (client : OAuthClient) :
  client.loginInteractive.Within NonRefresh fun _ => True
  := ⟨trivial, fun _ => ⟨trivial, fun response => readTokenResponse_within trivial response _ _ _⟩⟩

theorem ensureUserToken_within {client : OAuthClient} {current : Option TokenSet}
    (h : nonEmpty (current.bind TokenSet.refreshToken) = none) (interactive : Option Bool) :
  (client.ensureUserToken current interactive).Within NonRefresh fun _ => True
  := by
  simp only [ensureUserToken, tryRefreshToken, h, Program.pure_eq, Program.bind_eq, Program.bind]
  split
  · trivial
  · apply client.loginInteractive_within

/-- A token that is valid, or else what follows. -/
theorem validToken_within {client : OAuthClient} {α : Type} {C : Op → Prop}
    {R : Except AuthError α → Prop} (hnow : C .now) (token : Option TokenSet)
    {f : Option TokenSet → Auth α} (hf : ∀ t, (f t).Within C R) :
  ((client.validToken token).bind f).Within C R
  := ⟨hnow, fun _ => hf _⟩

theorem ensureToken_within {client : OAuthClient} {current : Option TokenSet}
    (h : client.NoRefresh current) (interactive : Option Bool) :
  (client.ensureToken current interactive).Within NonRefresh fun _ => True
  := by
  apply validToken_within (C := NonRefresh) trivial current
  intro valid
  cases valid with
  | some token => trivial
  | none =>
      have huser : client.usesRefreshToken = true →
          (client.ensureUserToken current interactive).Within NonRefresh fun _ => True := by
        intro huses
        apply ensureUserToken_within
        apply h.resolve_right (by simp [huses])
      cases hflow : client.server.authFlow with
      | clientCredentials =>
          simp only [loginClientCredentials]
          cases nonEmpty client.server.clientSecret with
          | none => trivial
          | some clientSecret => apply client.postGrant_within (by trivial)
      | jwtBearer => apply client.postFederatedGrant_within fun _ => (by trivial)
      | tokenExchange => apply client.postFederatedGrant_within fun _ => (by trivial)
      | authorizationCode => apply huser (by simp [usesRefreshToken, hflow, MACHINE_FLOWS])
      | deviceCode => apply huser (by simp [usesRefreshToken, hflow, MACHINE_FLOWS])

end OAuthClient
