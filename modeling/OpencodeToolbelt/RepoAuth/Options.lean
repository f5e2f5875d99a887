import OpencodeToolbelt.ProviderSync.ManagedProviders

/-!
# The options of repo-auth

A provider opts in with a block in its options. The block is parsed for itself, and the settings of
its identity provider are validated once more when a runtime is built from them.
-/

namespace RepoAuth

open OpenCodeConfig (asAuthFlow asBoolean asClientSecret asRedirectPort flowName)

structure AuthServerConfigInput where
  id : String
  issuer : String
  clientId : String
  clientSecret : Option String
  scopes : List String
  authorizationEndpoint : Option String
  tokenEndpoint : Option String
  deviceAuthorizationEndpoint : Option String
  jwksUri : Option String
  redirectPort : Option ℕ
  authFlow : Option OAuthAuthFlow
  pkce : Option Bool
  subjectTokenSource : JsValue

structure RepoAuthConfig where
  projectId : String
  auth : AuthServerConfigInput

inductive RepoAuthParseResult where
  | notOptedIn
  | missingProjectId
  | optedIn (config : RepoAuthConfig)

def REPO_AUTH_META_KEY : String := "repoAuth"

/-! ### Parsing -/

/-- The block of a provider that opts in, from `options.meta`. -/
def repoAuthBlock (providerOptions : Option JsObject) : Option JsObject := do
  let options ← providerOptions
  let metaOptions ← asRecord (options.get "meta")
  asRecord (metaOptions.get REPO_AUTH_META_KEY)

/-- The settings of the identity provider, once the required ones are there. -/
def readAuth (raw : JsObject) (source issuer clientId : String) (scopes : List String) :
    Except ConfigError AuthServerConfigInput := do
  let clientSecret ← asClientSecret (raw.get "clientSecret") source
  let redirectPort ← asRedirectPort (raw.get "redirectPort") source
  let authFlow ← asAuthFlow (raw.get "authFlow") source
  let pkce ← asBoolean (raw.get "pkce") s!"{source}.pkce"
  pure {
    id := REPO_AUTH_META_KEY
    issuer
    clientId
    clientSecret
    scopes
    authorizationEndpoint := asString (raw.get "authorizationEndpoint")
    tokenEndpoint := asString (raw.get "tokenEndpoint")
    deviceAuthorizationEndpoint := asString (raw.get "deviceAuthorizationEndpoint")
    jwksUri := asString (raw.get "jwksUri")
    redirectPort
    authFlow
    pkce
    subjectTokenSource := raw.get "subjectTokenSource" }

def parseRepoAuthOptions (providerOptions : Option JsObject) :
    Except ConfigError RepoAuthParseResult :=
  match repoAuthBlock providerOptions with
  | none => .ok .notOptedIn
  | some raw =>
      match asString (raw.get "projectId") with
      | none => .ok .missingProjectId
      | some projectId =>
          let source := "provider.options.meta.repoAuth"
          match asString (raw.get "issuer"), asString (raw.get "clientId"),
            asStringArray (raw.get "scopes") with
          | some issuer, some clientId, some scopes => do
              let auth ← readAuth raw source issuer clientId scopes
              pure (.optedIn { projectId, auth })
          | _, _, _ =>
              .error
                { field := source
                  problem := s!"requires non-empty issuer, clientId and scopes (projectId={projectId})"
                  received := none }

/-! ### Conflicts with oauth2 -/

def OAUTH2_CONFLICT_KEYS : List String := ["oauth2", "oauth2ModelSync"]

def oauth2ManagedProviderIds (config : OpenCodeConfig) : List String :=
  (config.serverList "oauth2ModelSync").filterMap fun rawServer =>
    (asRecord rawServer).bind fun entry => asString (entry.get "id")

def hasOAuth2Conflict (config : OpenCodeConfig) (providerOptions : Option JsObject)
    (providerId : String) : Bool :=
  (providerOptions.any fun options =>
      OAUTH2_CONFLICT_KEYS.any fun key => (asRecord (options.get key)).isSome) ||
    (providerId ≠ "" && (oauth2ManagedProviderIds config).contains providerId)

/-! ### Validation -/

structure ValidatedAuthConfig where
  id : String
  issuer : String
  clientId : String
  clientSecret : Option String
  scopes : List String
  authorizationEndpoint : Option String
  tokenEndpoint : Option String
  deviceAuthorizationEndpoint : Option String
  jwksUri : Option String
  redirectPort : Option ℕ
  authFlow : OAuthAuthFlow
  pkce : Bool
  subjectTokenSource : Option SubjectTokenSource

def DEFAULT_AUTH_FLOW : OAuthAuthFlow := .authorizationCode

def ensureString (value : String) (path : String) : Except ConfigError String :=
  match nonBlank value with
  | none => .error ⟨path, "must be a non-empty string", none⟩
  | some text => .ok text

def ensureStringArray (value : List String) (path : String) : Except ConfigError (List String) :=
  if value = [] then .error ⟨path, "must be a non-empty array of strings", none⟩
  else value.zipIdx.mapM fun item => ensureString item.1 s!"{path}[{item.2}]"

def validateRedirectPort (value : Option ℕ) (path : String) : Except ConfigError (Option ℕ) :=
  if value.any fun port => port = 0 || 65536 ≤ port then
    .error ⟨path, "must be a positive integer less than 65536", none⟩
  else .ok value

/-- A text in the description of a token source. -/
def sourceText (value : JsValue) (path problem : String) : Except ConfigError String :=
  match asString value with
  | none => .error ⟨path, problem, none⟩
  | some text => .ok text

/-- The description of a token source that is an object. -/
def readSubjectTokenSource (record : JsObject) (path : String) :
    Except ConfigError SubjectTokenSource :=
  match record.get "type" with
  | .string "github_actions" => do
      let audience ← sourceText (record.get "audience") s!"{path}.audience"
        "must be a non-empty string when type is \"github_actions\""
      pure (.githubActions audience)
  | .string "kubernetes_sa" =>
      match record.get "tokenPath" with
      | .undefined | .null => .ok (.kubernetesSa none)
      | tokenPath => do
          let tokenPath ← sourceText tokenPath s!"{path}.tokenPath"
            "must be a non-empty string when provided"
          pure (.kubernetesSa (some tokenPath))
  | .string "file" => do
      let filePath ← sourceText (record.get "path") s!"{path}.path"
        "must be a non-empty string when type is \"file\""
      pure (.file filePath)
  | .string "env" => do
      let varName ← sourceText (record.get "var") s!"{path}.var"
        "must be a non-empty string when type is \"env\""
      pure (.env varName)
  | type =>
      .error
        { field := s!"{path}.type"
          problem := "must be one of \"github_actions\" | \"kubernetes_sa\" | \"file\" | \"env\""
          received := some type }

def validateSubjectTokenSource (value : JsValue) (path : String) :
    Except ConfigError (Option SubjectTokenSource) :=
  match value with
  | .undefined | .null => .ok none
  | value =>
      match asRecord value with
      | none => .error ⟨path, "must be an object", none⟩
      | some record => some <$> readSubjectTokenSource record path

/-- What the flow of an identity provider needs besides. -/
def validateFlow (authFlow : OAuthAuthFlow) (clientSecret : Option String)
    (subjectTokenSource : Option SubjectTokenSource) : Except ConfigError Unit :=
  if authFlow = .clientCredentials ∧ clientSecret.isNone then
    .error ⟨".clientSecret", "is required when authFlow is \"client_credentials\"", none⟩
  else if (authFlow = .jwtBearer ∨ authFlow = .tokenExchange) ∧ subjectTokenSource.isNone then
    .error
      { field := ".subjectTokenSource"
        problem := "is required when authFlow is \"" ++ flowName authFlow ++
          "\" — set it to \x7btype: \"github_actions\" | \"kubernetes_sa\" | \"file\" | \"env\", ...\x7d"
        received := none }
  else .ok ()

def validateAuthConfig (input : AuthServerConfigInput) :
    Except ConfigError ValidatedAuthConfig := do
  let id ← ensureString input.id ".id"
  let issuer ← ensureString input.issuer ".issuer"
  let clientId ← ensureString input.clientId ".clientId"
  let scopes ← ensureStringArray input.scopes ".scopes"
  let authFlow := input.authFlow.getD DEFAULT_AUTH_FLOW
  let redirectPort ← validateRedirectPort input.redirectPort ".redirectPort"
  let subjectTokenSource ← validateSubjectTokenSource input.subjectTokenSource ".subjectTokenSource"
  if input.clientSecret = some "" then
    .error ⟨".clientSecret", "must be a non-empty string when provided", none⟩
  else
    validateFlow authFlow input.clientSecret subjectTokenSource
    pure {
      id
      issuer
      clientId
      clientSecret := input.clientSecret
      scopes
      authorizationEndpoint := input.authorizationEndpoint
      tokenEndpoint := input.tokenEndpoint
      deviceAuthorizationEndpoint := input.deviceAuthorizationEndpoint
      jwksUri := input.jwksUri
      redirectPort
      authFlow
      pkce := input.pkce.getD true
      subjectTokenSource }

end RepoAuth
