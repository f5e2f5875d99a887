import OpencodeToolbelt.Data.JsValue
import OpencodeToolbelt.AuthCore.Types

/-!
# Managed providers

Which providers a plugin manages, as it reads them from the configuration of the host: from the
servers listed under its own key, and from the extensions in the options of the providers. The
entries of the managed providers are rewritten while they are collected.
-/

/-- The entry of a provider in the configuration of the host. -/
structure OpenCodeProviderConfig where
  npm : Option String
  name : Option String
  options : Option JsObject

structure OpenCodeConfig where
  provider : Option (JsMap String OpenCodeProviderConfig)
  pluginConfig : JsValue

/-- Why a configuration is refused: the field, what is wrong with it, and what has been received
for it where the message says so. -/
structure ConfigError where
  field : String
  problem : String
  received : Option JsValue

structure ProviderExtension where
  issuer : String
  clientId : String
  clientSecret : Option String
  scopes : List String
  syncIntervalMinutes : Option ℚ
  nameOverrides : Option (List (String × String))
  authorizationEndpoint : Option String
  tokenEndpoint : Option String
  deviceAuthorizationEndpoint : Option String
  jwksUri : Option String
  redirectPort : Option ℕ
  authFlow : Option OAuthAuthFlow
  pkce : Option Bool
  subjectTokenSource : JsValue
  tokenExchangeAudience : Option String
  responseApi : Option Bool

structure ProviderServerConfigInput extends ProviderExtension where
  id : String
  name : String
  baseURL : String

/-- The keys under which a plugin looks, and its repair of the Responses API. -/
structure CollectManagedProvidersOptions where
  pluginConfigKey : String
  optionKeys : List String
  createResponsesRepairFetch : Option (Option FetchFunction → FetchFunction)

namespace OpenCodeConfig

def OPENAI_COMPATIBLE_NPM : String := "@ai-sdk/openai-compatible"

def OPENAI_RESPONSES_NPM : String := "@ai-sdk/openai"

def RESPONSES_API_PLACEHOLDER_KEY : String := "oauth2-managed-bearer"

/-! ### Fields -/

def asBoolean (value : JsValue) (source : String) : Except ConfigError (Option Bool) :=
  match value with
  | .undefined | .null => .ok none
  | .bool b => .ok (some b)
  | value => .error ⟨source, "must be a boolean", some value⟩

/-- What each of the flows is called in a configuration. -/
def flowName : OAuthAuthFlow → String
  | .authorizationCode => "authorization_code"
  | .deviceCode => "device_code"
  | .clientCredentials => "client_credentials"
  | .jwtBearer => "jwt_bearer"
  | .tokenExchange => "token_exchange"

def AUTH_FLOWS : List OAuthAuthFlow :=
  [.authorizationCode, .deviceCode, .clientCredentials, .jwtBearer, .tokenExchange]

def asAuthFlow (value : JsValue) (source : String) :
    Except ConfigError (Option OAuthAuthFlow) :=
  let refused : ConfigError :=
    ⟨s!"{source}.authFlow",
      "must be one of " ++ " | ".intercalate (AUTH_FLOWS.map fun flow => "\"" ++ flowName flow ++ "\""),
      some value⟩
  match value with
  | .undefined | .null => .ok none
  | .string s =>
      match AUTH_FLOWS.find? fun flow => flowName flow = s with
      | some flow => .ok (some flow)
      | none => .error refused
  | _ => .error refused

def asClientSecret (value : JsValue) (source : String) : Except ConfigError (Option String) :=
  let refused : ConfigError :=
    ⟨s!"{source}.clientSecret", "must be a non-empty string when provided", none⟩
  match value with
  | .undefined | .null => .ok none
  | .string s => if s = "" then .error refused else .ok (some s)
  | _ => .error refused

def asRedirectPort (value : JsValue) (source : String) : Except ConfigError (Option ℕ) :=
  let refused : ConfigError :=
    ⟨s!"{source}.redirectPort", "must be an integer in [1, 65535]", some value⟩
  match value with
  | .undefined | .null => .ok none
  | .number n =>
      if n.den = 1 ∧ 0 < n ∧ n < 65536 then .ok (some n.num.toNat) else .error refused
  | _ => .error refused

def asSyncInterval : JsValue → Option ℚ
  | .number n => if 0 < n then some n else none
  | _ => none

/-- The fields that a server and an extension have in common, once the required ones are there. -/
def readExtension (raw : JsObject) (source : String) (issuer clientId : String)
    (scopes : List String) : Except ConfigError ProviderExtension := do
  let clientSecret ← asClientSecret (raw.get "clientSecret") source
  let redirectPort ← asRedirectPort (raw.get "redirectPort") source
  let authFlow ← asAuthFlow (raw.get "authFlow") source
  let pkce ← asBoolean (raw.get "pkce") s!"{source}.pkce"
  let responseApi ← asBoolean (raw.get "responseApi") s!"{source}.responseApi"
  pure {
    issuer
    clientId
    clientSecret
    scopes
    syncIntervalMinutes := asSyncInterval (raw.get "syncIntervalMinutes")
    nameOverrides := asStringMap (raw.get "nameOverrides")
    authorizationEndpoint := asString (raw.get "authorizationEndpoint")
    tokenEndpoint := asString (raw.get "tokenEndpoint")
    deviceAuthorizationEndpoint := asString (raw.get "deviceAuthorizationEndpoint")
    jwksUri := asString (raw.get "jwksUri")
    redirectPort
    authFlow
    pkce
    subjectTokenSource := raw.get "subjectTokenSource"
    tokenExchangeAudience := asString (raw.get "tokenExchangeAudience")
    responseApi }

/-! ### Options of a provider -/

def resolveProviderNpm (responseApi : Option Bool) : String :=
  if responseApi = some true then OPENAI_RESPONSES_NPM else OPENAI_COMPATIBLE_NPM

def applyResponsesApiOptions (options : JsObject) (responseApi : Option Bool)
    (createResponsesRepairFetch : Option (Option FetchFunction → FetchFunction)) : JsObject :=
  if responseApi = some true then
    let next :=
      if (asString (options.get "apiKey")).isSome then options
      else options.set "apiKey" (.string RESPONSES_API_PLACEHOLDER_KEY)
    match createResponsesRepairFetch with
    | none => next
    | some repair =>
        let delegate := match next.get "fetch" with
          | .function f => some f
          | _ => none
        next.set "fetch" (.function (repair delegate))
  else if asString (options.get "apiKey") = some RESPONSES_API_PLACEHOLDER_KEY then
    options.delete "apiKey"
  else options

/-! ### Parsing -/

/-- The list of servers under the key of a plugin. -/
def serverList (config : OpenCodeConfig) (pluginConfigKey : String) : List JsValue :=
  let pluginConfig := (asRecord config.pluginConfig).getD []
  let scopedConfig := (asRecord (pluginConfig.get pluginConfigKey)).getD []
  match scopedConfig.get "servers" with
  | .array servers => servers
  | _ => []

/-- One server of the list, with `none` for one that is passed over. -/
def parseServer (pluginConfigKey : String) (index : ℕ) (rawServer : JsValue) :
    Except ConfigError (Option ProviderServerConfigInput) :=
  match asRecord rawServer with
  | none => .ok none
  | some entry =>
      match asString (entry.get "id"), asString (entry.get "issuer"),
        asString (entry.get "baseURL"), asString (entry.get "clientId"),
        asStringArray (entry.get "scopes") with
      | some id, some issuer, some baseURL, some clientId, some scopes => do
          let sourceLabel := s!"pluginConfig.{pluginConfigKey}.servers[{index}] (id={id})"
          let extension ← readExtension entry sourceLabel issuer clientId scopes
          let name := (asString (entry.get "name")).getD id
          pure (some { extension with id, name, baseURL })
      | _, _, _, _, _ => .ok none

def parseServers (pluginConfigKey : String) :
    ℕ → List JsValue → Except ConfigError (List ProviderServerConfigInput)
  | _, [] => .ok []
  | index, rawServer :: servers => do
      let server ← parseServer pluginConfigKey index rawServer
      let parsed ← parseServers pluginConfigKey (index + 1) servers
      pure (server.toList ++ parsed)

def parsePluginConfigServers (config : OpenCodeConfig) (pluginConfigKey : String) :
    Except ConfigError (List ProviderServerConfigInput) :=
  parseServers pluginConfigKey 0 (config.serverList pluginConfigKey)

/-- The first record in the options of a provider under one of the keys. -/
def rawExtension (optionKeys : List String) (provider : OpenCodeProviderConfig) :
    Option JsObject :=
  provider.options.bind fun options =>
    optionKeys.findSome? fun key => asRecord (options.get key)

def parseOAuthExtension (optionKeys : List String) (provider : OpenCodeProviderConfig) :
    Except ConfigError (Option ProviderExtension) :=
  match rawExtension optionKeys provider with
  | none => .ok none
  | some raw =>
      match asString (raw.get "issuer"), asString (raw.get "clientId"),
        asStringArray (raw.get "scopes") with
      | some issuer, some clientId, some scopes =>
          some <$> readExtension raw "provider.options.oauth2" issuer clientId scopes
      | _, _, _ => .ok none

/-! ### Collecting -/

/-- The entries of the providers and the managed ones among them. -/
structure Collection where
  providers : JsMap String OpenCodeProviderConfig
  byId : JsMap String ProviderServerConfigInput

/-- A provider entered by a server of the list. -/
def addServer (options : CollectManagedProvidersOptions) (c : Collection)
    (server : ProviderServerConfigInput) : Collection :=
  let providerConfig := (c.providers.get server.id).getD ⟨none, none, none⟩
  let name := (providerConfig.name.bind nonBlank).getD server.name
  let baseURL := JsValue.string server.baseURL
  let providerOptions := applyResponsesApiOptions
    ((providerConfig.options.getD []).set "baseURL" baseURL) server.responseApi
    options.createResponsesRepairFetch
  { providers := c.providers.set server.id
      { npm := some (resolveProviderNpm server.responseApi)
        name := some name
        options := some providerOptions }
    byId := c.byId.set server.id { server with name } }

/-- A provider entered by the extension in its options. -/
def addExtension (options : CollectManagedProvidersOptions) (c : Collection)
    (providerId : String) (providerConfig : OpenCodeProviderConfig)
    (extension : ProviderExtension) (baseURL : String) : Collection :=
  let name := (providerConfig.name.bind nonBlank).getD providerId
  let providerOptions := applyResponsesApiOptions
    ((providerConfig.options.getD []).set "baseURL" (.string baseURL)) extension.responseApi
    options.createResponsesRepairFetch
  { providers := c.providers.set providerId
      { npm := some (resolveProviderNpm extension.responseApi)
        name := some name
        options := some providerOptions }
    byId := c.byId.set providerId { extension with id := providerId, name, baseURL } }

/-- The base URL in the options of a provider. -/
def baseUrlOf (provider : OpenCodeProviderConfig) : Option String :=
  provider.options.bind fun options => asString (options.get "baseURL")

/-- The providers gone through in order. The first malformed extension ends it, with the entries
before it rewritten. -/
def addExtensions (options : CollectManagedProvidersOptions) :
    List (String × OpenCodeProviderConfig) → Collection → Collection × Except ConfigError Unit
  | [], c => (c, .ok ())
  | (providerId, providerConfig) :: entries, c =>
      match parseOAuthExtension options.optionKeys providerConfig with
      | .error e => (c, .error e)
      | .ok none => addExtensions options entries c
      | .ok (some extension) =>
          match baseUrlOf providerConfig with
          | none => addExtensions options entries c
          | some baseURL =>
              addExtensions options entries
                (addExtension options c providerId providerConfig extension baseURL)

def enterServers (options : CollectManagedProvidersOptions)
    (providers : JsMap String OpenCodeProviderConfig)
    (servers : List ProviderServerConfigInput) : Collection :=
  servers.foldl (addServer options) ⟨providers, .empty⟩

def enterExtensions (options : CollectManagedProvidersOptions) (c : Collection) :
    Collection × Except ConfigError Unit :=
  addExtensions options (objectEntries c.providers) c

/-- The entries of the providers of a configuration. -/
def providers (config : OpenCodeConfig) : JsMap String OpenCodeProviderConfig :=
  config.provider.getD .empty

/-- The configuration afterwards, and the managed providers or why there are none. -/
def collectManagedProviders (config : OpenCodeConfig)
    (options : CollectManagedProvidersOptions) :
    OpenCodeConfig × Except ConfigError (List ProviderServerConfigInput) :=
  match config.parsePluginConfigServers options.pluginConfigKey with
  | .error e => ({ config with provider := some config.providers }, .error e)
  | .ok servers =>
      let (c, result) := enterExtensions options (enterServers options config.providers servers)
      ({ config with provider := some c.providers }, result.map fun _ => c.byId.values)

end OpenCodeConfig
