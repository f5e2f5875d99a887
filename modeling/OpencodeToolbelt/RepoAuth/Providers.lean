import OpencodeToolbelt.Lightbridge.Register
import OpencodeToolbelt.RepoAuth.Options

/-!
# The providers that repo-auth manages

The config hook of repo-auth collects the providers that opt in and builds a runtime for each of
them, unless their signature is that of the configuration before. The runtimes it keeps are those
that the last configuration asks for.
-/

namespace RepoAuth

open OpenCodeConfig (flowName)

structure ManagedProvider where
  projectId : String
  auth : AuthServerConfigInput
  authSignature : String

/-- The runtime of a managed provider, as far as its configuration goes. -/
structure RepoAuthRuntime where
  config : RepoAuthConfig
  validated : ValidatedAuthConfig

structure RuntimeState where
  pluginByProvider : JsMap String RepoAuthRuntime
  signature : Option String

/-! ### Signatures -/

/-- A field of an object that may be `undefined`. -/
def ofOption {α : Type} (f : α → JsValue) (value : Option α) : JsValue := value.elim .undefined f

def isDefined : JsValue → Bool
  | .undefined => false
  | _ => true

/-- The fields of an identity provider that its signature is made of. -/
def authFields (auth : AuthServerConfigInput) : JsObject :=
  [("issuer", .string auth.issuer), ("clientId", .string auth.clientId),
    ("clientSecret", ofOption .string auth.clientSecret),
    ("scopes", .array (auth.scopes.map .string)),
    ("authorizationEndpoint", ofOption .string auth.authorizationEndpoint),
    ("tokenEndpoint", ofOption .string auth.tokenEndpoint),
    ("deviceAuthorizationEndpoint", ofOption .string auth.deviceAuthorizationEndpoint),
    ("jwksUri", ofOption .string auth.jwksUri),
    ("redirectPort", ofOption (fun port : ℕ => .number port) auth.redirectPort),
    ("authFlow", ofOption (fun flow => .string (flowName flow)) auth.authFlow),
    ("pkce", ofOption .bool auth.pkce), ("subjectTokenSource", auth.subjectTokenSource)]

/-- What is left of an object in JSON: its members that are `undefined` are left out. -/
def jsonObject (members : JsObject) : JsValue :=
  .object (members.filter fun member => isDefined member.2)

/-- The entry of a managed provider in the signature of all. -/
def signatureEntry (providerId : String) (entry : ManagedProvider) : JsValue :=
  .object
    [("providerId", .string providerId), ("projectId", .string entry.projectId),
      ("authSignature", .string entry.authSignature)]

section Hook

variable (stringify : JsValue → String) (localeLe : String → String → Bool)

def authSignature (auth : AuthServerConfigInput) : String :=
  stringify (jsonObject (authFields auth))

/-- The managed providers in the order of `localeCompare`. -/
def sortedEntries (managed : JsMap String ManagedProvider) : List (String × ManagedProvider) :=
  managed.entries.mergeSort fun a b => localeLe a.1 b.1

def runtimeSignature (managed : JsMap String ManagedProvider) : String :=
  stringify (.array ((sortedEntries localeLe managed).map fun entry =>
    signatureEntry entry.1 entry.2))

/-! ### Collecting -/

/-- A provider that opts in, unless oauth2 manages it too. -/
def optIn (config : OpenCodeConfig) (providerId : String) (provider : OpenCodeProviderConfig) :
    Option ManagedProvider :=
  match parseRepoAuthOptions provider.options with
  | .ok (.optedIn parsed) =>
      if hasOAuth2Conflict config provider.options providerId then none
      else
        some
          { projectId := parsed.projectId
            auth := parsed.auth
            authSignature := authSignature stringify parsed.auth }
  | _ => none

def optedIn (config : OpenCodeConfig) : List (String × ManagedProvider) :=
  (objectEntries config.providers).filterMap fun entry =>
    (optIn stringify config entry.1 entry.2).map fun managed => (entry.1, managed)

/-- The providers that opt in with the identity provider of the first one. -/
def collectManagedProviders (config : OpenCodeConfig) : JsMap String ManagedProvider :=
  match optedIn stringify config with
  | [] => .empty
  | (providerId, first) :: rest =>
      ((providerId, first) :: rest).foldl (fun managed entry =>
        if entry.2.authSignature = first.authSignature then managed.set entry.1 entry.2
        else managed) .empty

/-! ### The hook -/

/-- The runtime of a provider, unless its settings are refused. -/
def build (entry : ManagedProvider) : Option RepoAuthRuntime :=
  match validateAuthConfig entry.auth with
  | .ok validated => some ⟨⟨entry.projectId, entry.auth⟩, validated⟩
  | .error _ => none

def rebuild (managed : JsMap String ManagedProvider) : JsMap String RepoAuthRuntime :=
  managed.entries.foldl (fun rebuilt entry =>
    match build entry.2 with
    | some plugin => rebuilt.set entry.1 plugin
    | none => rebuilt) .empty

def configHook (state : RuntimeState) (config : OpenCodeConfig) : RuntimeState :=
  let managed := collectManagedProviders stringify config
  if managed.size = 0 then ⟨state.pluginByProvider.clear, none⟩
  else
    let signature := runtimeSignature stringify localeLe managed
    if state.signature ≠ some signature ∨ state.pluginByProvider.size = 0 then
      ⟨rebuild managed, some signature⟩
    else state

/-- The state before the first call. -/
def initial : RuntimeState := ⟨.empty, none⟩

/-- The state after the hook has been called with some configurations. -/
def after (configs : List OpenCodeConfig) : RuntimeState :=
  configs.foldl (configHook stringify localeLe) initial

end Hook

/-- The runtimes that repo-auth keeps for a configuration: for providers that oauth2 does not
collect from it, with one identity provider, and as they opt in. -/
structure Manages (config : OpenCodeConfig) (state : RuntimeState) : Prop where
  disjoint : ∀ id plugin, state.pluginByProvider.get id = some plugin →
    ¬ ∃ servers, (config.collectManagedProviders OAUTH2_COLLECT_OPTIONS).2 = .ok servers ∧
      id ∈ servers.map ProviderServerConfigInput.id
  alike : ∀ id plugin id' plugin', state.pluginByProvider.get id = some plugin →
    state.pluginByProvider.get id' = some plugin' → plugin.config.auth = plugin'.config.auth
  asked : ∀ id plugin, state.pluginByProvider.get id = some plugin →
    ∃ provider, config.providers.get id = some provider ∧
      parseRepoAuthOptions provider.options = .ok (.optedIn plugin.config) ∧
      validateAuthConfig plugin.config.auth = .ok plugin.validated

/-! ### Conflicts -/

theorem ne_empty_of_nonBlank {s text : String} (h : nonBlank s = some text) :
  text ≠ ""
  := by
  rw [nonBlank] at h
  split at h
  · cases h
  · next hne =>
      obtain rfl := Option.some.inj h
      apply hne

theorem ne_empty_of_asString {value : JsValue} {text : String} (h : asString value = some text) :
  text ≠ ""
  := by
  cases value with
  | string s => apply ne_empty_of_nonBlank h
  | _ => cases h

/-- A provider without a conflict is not collected by oauth2. -/
theorem not_collected_of_no_conflict {config : OpenCodeConfig} {id : String}
    {provider : OpenCodeProviderConfig} (hget : config.providers.get id = some provider)
    (hconflict : hasOAuth2Conflict config provider.options id = false) :
  ¬ ∃ servers, (config.collectManagedProviders OAUTH2_COLLECT_OPTIONS).2 = .ok servers ∧
    id ∈ servers.map ProviderServerConfigInput.id
  := by
  rw [hasOAuth2Conflict, Bool.or_eq_false_iff] at hconflict
  obtain ⟨hoptions, hlist⟩ := hconflict
  intro hcollected
  obtain ⟨-, hlisted | ⟨provider', hget', ⟨raw, hraw, -⟩, -⟩⟩ :=
    (OpenCodeConfig.mem_collectManagedProviders RegisterModule.kept_oauth2 config id).mp hcollected
  · obtain ⟨rawServer, hmem, entry, hentry, hserver⟩ := hlisted
    have hids : id ∈ oauth2ManagedProviderIds config := by
      apply List.mem_filterMap.mpr
      use rawServer, hmem
      rw [hentry, Option.bind_some, hserver.id]
    rw [decide_eq_true (ne_empty_of_asString hserver.id), Bool.true_and] at hlist
    rw [List.contains_iff_mem.mpr hids] at hlist
    cases hlist
  · rw [hget] at hget'
    obtain rfl := Option.some.inj hget'
    obtain ⟨options, hsome, hfound⟩ := Option.bind_eq_some_iff.mp hraw
    obtain ⟨key, hkey, hrecord⟩ := List.exists_of_findSome?_eq_some hfound
    rw [hsome, Option.any_some] at hoptions
    have hnone := List.any_eq_false.mp hoptions key hkey
    rw [hrecord] at hnone
    exact hnone rfl

end RepoAuth
