import OpencodeToolbelt.ProviderSync.Managing
import Mathlib.Data.List.Induction

/-!
# The register module

The lightbridge plugin registers the provider of its own login in the configuration of the host,
unless the oauth2 plugin manages that provider already. Here the hooks of both plugins are called
on one configuration after the other. From the first configuration without a conflict on, the
register module holds an engine and does not look for conflicts any more.
-/

/-- What the oauth2 plugin collects its managed providers with. -/
def OAUTH2_COLLECT_OPTIONS : CollectManagedProvidersOptions where
  pluginConfigKey := "oauth2ModelSync"
  optionKeys := ["oauth2", "oauth2ModelSync"]
  createResponsesRepairFetch := some .repairing

structure LightbridgeRegisterOptions where
  baseURL : String
  baseURL_nonBlank : nonBlank baseURL = some baseURL
  name : Option String
  nameOverrides : Option (List (String × String))
  syncIntervalMinutes : Option ℚ
  responseApi : Option Bool

/-- The one server of the engine of the register module. -/
structure RegisterServerConfig extends AuthServerConfig where
  name : String
  baseURL : String
  syncIntervalMinutes : ℚ
  nameOverrides : List (String × String)

structure RegisterModuleState where
  engine : Option RegisterServerConfig
  started : Bool
  skippedForConflict : Bool

/-- How a call of the register module ends: it leaves the provider to the other plugin, the start
of the engine fails, or the entry of the provider is rewritten. -/
inductive RegisterOutcome where
  | skipped
  | failed
  | applied
  deriving DecidableEq

namespace RegisterModule

def OAUTH2_OPTION_KEYS : List String := ["oauth2", "oauth2ModelSync"]

def oauth2ManagedProviderIds (config : OpenCodeConfig) : List String :=
  (config.serverList "oauth2ModelSync").filterMap fun raw =>
    match ((asRecord raw).getD []).get "id" with
    | .string id => if id = "" then none else some id
    | _ => none

def hasOAuth2Conflict (config : OpenCodeConfig) (providerId : String) : Bool :=
  let providerOptions := (config.providers.get providerId).bind OpenCodeProviderConfig.options
  (providerOptions.any fun options =>
      OAUTH2_OPTION_KEYS.any fun key => (asRecord (options.get key)).isSome) ||
    (oauth2ManagedProviderIds config).contains providerId

def buildRegisterServerConfig (auth : AuthServerConfig) (register : LightbridgeRegisterOptions) :
    RegisterServerConfig :=
  { auth with
    name := register.name.getD auth.id
    baseURL := register.baseURL
    syncIntervalMinutes := register.syncIntervalMinutes.getD 60
    nameOverrides := register.nameOverrides.getD [] }

/-- The state of the module before the first call. -/
def initial : RegisterModuleState := ⟨none, false, false⟩

section Rounds

variable (auth : AuthServerConfig) (register : LightbridgeRegisterOptions)

/-- The configuration with the entry of the provider rewritten. -/
def registerProvider (config : OpenCodeConfig) : OpenCodeConfig :=
  let providerConfig := (config.providers.get auth.id).getD ⟨none, none, none⟩
  let options := OpenCodeConfig.applyResponsesApiOptions
    ((providerConfig.options.getD []).set "baseURL" (.string register.baseURL))
    register.responseApi none
  { config with
    provider := some (config.providers.set auth.id
      { npm := some (OpenCodeConfig.resolveProviderNpm register.responseApi)
        name := some (providerConfig.name.getD (register.name.getD auth.id))
        options := some options }) }

/-- One call, in which the start of an engine that has not started succeeds or not. -/
def applyRegisterModule (starts : Bool) (state : RegisterModuleState) (config : OpenCodeConfig) :
    RegisterModuleState × OpenCodeConfig × RegisterOutcome :=
  if state.engine.isNone && hasOAuth2Conflict config auth.id then
    ({ state with skippedForConflict := true }, config, .skipped)
  else
    let engine := state.engine.getD (buildRegisterServerConfig auth register)
    if state.started || starts then
      ({ state with engine := some engine, started := true },
        registerProvider auth register config, .applied)
    else ({ state with engine := some engine }, config, .failed)

/-- A configuration that the host passes to the hooks of both plugins, one after the other. -/
structure Round where
  config : OpenCodeConfig
  lightbridgeFirst : Bool
  starts : Bool

/-- What a round comes to: what oauth2 has collected from the configuration, and what the register
module has done with it. -/
structure RoundResult where
  state : RegisterModuleState
  outcome : RegisterOutcome
  collected : Except ConfigError (List ProviderServerConfigInput)

def play (state : RegisterModuleState) (round : Round) : RoundResult :=
  if round.lightbridgeFirst then
    let (state, config, outcome) :=
      applyRegisterModule auth register round.starts state round.config
    let (_, collected) := config.collectManagedProviders OAUTH2_COLLECT_OPTIONS
    ⟨state, outcome, collected⟩
  else
    let (config, collected) := round.config.collectManagedProviders OAUTH2_COLLECT_OPTIONS
    let (state, _, outcome) := applyRegisterModule auth register round.starts state config
    ⟨state, outcome, collected⟩

/-- The state of the module after some rounds. -/
def after (rounds : List Round) : RegisterModuleState :=
  rounds.foldl (fun state round => (play auth register state round).state) initial

/-- Both plugins own a provider: oauth2 has collected it, and the register module holds an engine
and has rewritten its entry. -/
def RoundResult.BothOwn (result : RoundResult) (providerId : String) : Prop :=
  (∃ servers, result.collected = .ok servers ∧
      providerId ∈ servers.map ProviderServerConfigInput.id) ∧
    result.state.engine.isSome ∧ result.outcome = .applied

/-! ### Which configurations clash -/

/-- A start of the engine has succeeded after a configuration in which the module sees no
conflict. -/
def Owning (rounds : List Round) : Prop :=
  ∃ before round, before ++ [round] <+: rounds ∧ round.starts = true ∧
    ∃ seen ∈ before ++ [round], hasOAuth2Conflict seen.config auth.id = false

/-- The configuration of a round makes oauth2 manage a provider: it lists a server for it, or the
options of the provider carry an extension, with a base URL unless the register module runs
first and puts one there. -/
def Round.Claims (round : Round) (providerId : String) : Prop :=
  round.config.Accepted OAUTH2_COLLECT_OPTIONS ∧
    ((∃ rawServer ∈ round.config.serverList "oauth2ModelSync",
        OpenCodeConfig.Lists rawServer providerId) ∨
      ∃ provider, round.config.providers.get providerId = some provider ∧
        OpenCodeConfig.Extended ["oauth2", "oauth2ModelSync"] provider ∧
        (round.lightbridgeFirst = true ∨ (OpenCodeConfig.baseUrlOf provider).isSome))

/-! ### What the module sees -/

theorem kept_oauth2 :
  OpenCodeConfig.Kept OAUTH2_COLLECT_OPTIONS.optionKeys
  := by
  simp [OpenCodeConfig.Kept, OAUTH2_COLLECT_OPTIONS]

/-- A conflict is an extension, or a server under the very id. -/
theorem hasOAuth2Conflict_eq (config : OpenCodeConfig) (providerId : String) :
  hasOAuth2Conflict config providerId =
    (((config.providers.get providerId).bind
      (OpenCodeConfig.rawExtension OAUTH2_COLLECT_OPTIONS.optionKeys)).isSome ||
      (oauth2ManagedProviderIds config).contains providerId)
  := by
  rw [hasOAuth2Conflict]
  congr 1
  cases config.providers.get providerId with
  | none => rfl
  | some provider =>
      rw [Option.bind_some, Option.bind_some, OpenCodeConfig.rawExtension]
      cases provider.options with
      | none => rfl
      | some options =>
          rw [Option.any_some, Option.bind_some, List.isSome_findSome?]
          rfl

/-- Where both plugins look for servers and extensions is the same in two configurations. -/
structure Alike (config config' : OpenCodeConfig) : Prop where
  pluginConfig : config'.pluginConfig = config.pluginConfig
  extensions : OpenCodeConfig.SameExtensions OAUTH2_COLLECT_OPTIONS.optionKeys config.providers
    config'.providers

theorem Alike.serverList {config config' : OpenCodeConfig} (h : Alike config config')
    (pluginConfigKey : String) :
  config'.serverList pluginConfigKey = config.serverList pluginConfigKey
  := by
  rw [OpenCodeConfig.serverList, OpenCodeConfig.serverList, h.pluginConfig]

theorem Alike.hasOAuth2Conflict {config config' : OpenCodeConfig} (h : Alike config config')
    (providerId : String) :
  RegisterModule.hasOAuth2Conflict config' providerId =
    RegisterModule.hasOAuth2Conflict config providerId
  := by
  rw [hasOAuth2Conflict_eq, hasOAuth2Conflict_eq, h.extensions, oauth2ManagedProviderIds,
    oauth2ManagedProviderIds, h.serverList]

theorem Alike.accepted {config config' : OpenCodeConfig} (h : Alike config config') :
  config'.Accepted OAUTH2_COLLECT_OPTIONS ↔ config.Accepted OAUTH2_COLLECT_OPTIONS
  := by
  constructor
  · rintro ⟨hservers, hextensions⟩
    constructor
    · rw [← h.serverList]
      apply hservers
    · intro id
      apply (h.extensions.sound id).mp (hextensions id)
  · rintro ⟨hservers, hextensions⟩
    constructor
    · rw [h.serverList]
      apply hservers
    · intro id
      apply (h.extensions.sound id).mpr (hextensions id)

theorem alike_collect (config : OpenCodeConfig) :
  Alike config (config.collectManagedProviders OAUTH2_COLLECT_OPTIONS).1
  := by
  constructor
  · rw [OpenCodeConfig.collectManagedProviders]
    split <;> rfl
  · apply OpenCodeConfig.sameExtensions_collect kept_oauth2

theorem providers_registerProvider (config : OpenCodeConfig) :
  ∃ npm name, (registerProvider auth register config).providers = config.providers.set auth.id
    ⟨npm, name, some (OpenCodeConfig.rewritten (config.providers.get auth.id) register.baseURL
      register.responseApi none)⟩
  := by
  use some (OpenCodeConfig.resolveProviderNpm register.responseApi),
    some (((config.providers.get auth.id).getD ⟨none, none, none⟩).name.getD
      (register.name.getD auth.id))
  rw [registerProvider, OpenCodeConfig.rewritten]
  cases config.providers.get auth.id <;> rfl

theorem alike_registerProvider (config : OpenCodeConfig) :
  Alike config (registerProvider auth register config)
  := by
  constructor
  · rfl
  · obtain ⟨npm, name, hproviders⟩ := providers_registerProvider auth register config
    rw [hproviders]
    apply OpenCodeConfig.sameExtensions_set kept_oauth2

/-- The entry of the provider has a base URL once it has been rewritten. -/
theorem baseUrlOf_registerProvider (config : OpenCodeConfig) :
  ((registerProvider auth register config).providers.get auth.id).bind
      OpenCodeConfig.baseUrlOf = some register.baseURL
  := by
  obtain ⟨npm, name, hproviders⟩ := providers_registerProvider auth register config
  have hbase : "baseURL" ≠ "apiKey" ∧ "baseURL" ≠ "fetch" := by decide
  rw [hproviders, JsMap.get_set_self, Option.bind_some, OpenCodeConfig.baseUrlOf,
    Option.bind_some, OpenCodeConfig.rewritten,
    OpenCodeConfig.get_applyResponsesApiOptions _ _ _ hbase.1 hbase.2, JsObject.get_set_self,
    asString, register.baseURL_nonBlank]

/-! ### A call of the module -/

/-- What a call does, by whether the configuration shows a conflict. -/
structure Applied (starts : Bool) (state : RegisterModuleState) (config : OpenCodeConfig)
    (result : RegisterModuleState × OpenCodeConfig × RegisterOutcome) : Prop where
  engine : result.1.engine.isSome ↔
    state.engine.isSome ∨ hasOAuth2Conflict config auth.id = false
  started : result.1.started = true ↔ state.started = true ∨ result.2.2 = .applied
  applied : result.2.2 = .applied ↔
    result.1.engine.isSome ∧ (state.started = true ∨ starts = true)
  config : result.2.1 =
    if result.2.2 = .applied then registerProvider auth register config else config

theorem applied_applyRegisterModule (starts : Bool) (state : RegisterModuleState)
    (config : OpenCodeConfig) :
  Applied auth register starts state config
    (applyRegisterModule auth register starts state config)
  := by
  rw [applyRegisterModule]
  split
  · next h =>
      rw [Bool.and_eq_true, Option.isNone_iff_eq_none] at h
      constructor
      · simp [h]
      · simp
      · simp [h]
      · simp
  · next h =>
      rw [Bool.and_eq_true, not_and_or, Bool.not_eq_true, Option.isNone_eq_false_iff,
        Bool.not_eq_true] at h
      split
      · next hstart =>
          rw [Bool.or_eq_true] at hstart
          constructor
          · simp [h]
          · simp
          · simp [hstart]
          · simp
      · next hstart =>
          rw [Bool.or_eq_true] at hstart
          constructor
          · simp [h]
          · simp
          · simp [hstart]
          · simp

/-! ### A round -/

/-- What a round does to the register module. -/
structure Played (state : RegisterModuleState) (round : Round) (result : RoundResult) :
    Prop where
  engine : result.state.engine.isSome ↔
    state.engine.isSome ∨ hasOAuth2Conflict round.config auth.id = false
  started : result.state.started = true ↔ state.started = true ∨ result.outcome = .applied
  applied : result.outcome = .applied ↔
    result.state.engine.isSome ∧ (state.started = true ∨ round.starts = true)

theorem played (state : RegisterModuleState) (round : Round) :
  Played auth state round (play auth register state round)
  := by
  rw [play]
  split
  · have happlied := applied_applyRegisterModule auth register round.starts state round.config
    apply Played.mk happlied.engine happlied.started happlied.applied
  · have happlied := applied_applyRegisterModule auth register round.starts state
      (round.config.collectManagedProviders OAUTH2_COLLECT_OPTIONS).1
    have halike := alike_collect round.config
    apply Played.mk _ happlied.started happlied.applied
    rw [← halike.hasOAuth2Conflict]
    apply happlied.engine

/-- What oauth2 collects after the register module has rewritten the entry of the provider. -/
theorem manages_registerProvider (config : OpenCodeConfig) :
  (registerProvider auth register config).Manages OAUTH2_COLLECT_OPTIONS auth.id ↔
    (∃ rawServer ∈ config.serverList "oauth2ModelSync",
        OpenCodeConfig.Lists rawServer auth.id) ∨
      ∃ provider, config.providers.get auth.id = some provider ∧
        OpenCodeConfig.Extended ["oauth2", "oauth2ModelSync"] provider
  := by
  have halike := alike_registerProvider auth register config
  have hext := halike.extensions.extended auth.id
  rw [OpenCodeConfig.Manages, halike.serverList]
  apply or_congr_right
  apply Iff.trans _ hext
  constructor
  · rintro ⟨provider, hget, hextended, -⟩
    use provider, hget
  · rintro ⟨provider, hget, hextended⟩
    have hbase := baseUrlOf_registerProvider auth register config
    rw [hget, Option.bind_some] at hbase
    use provider, hget, hextended
    rw [hbase, Option.isSome_some]

/-- What oauth2 collects in a round in which the register module rewrites the entry. -/
theorem collected_iff (state : RegisterModuleState) (round : Round)
    (happlied : (play auth register state round).outcome = .applied) :
  (∃ servers, (play auth register state round).collected = .ok servers ∧
      auth.id ∈ servers.map ProviderServerConfigInput.id) ↔ round.Claims auth.id
  := by
  rw [play] at happlied ⊢
  rw [Round.Claims]
  split at happlied
  · next hfirst =>
      have hcall := applied_applyRegisterModule auth register round.starts state round.config
      have hconfig := hcall.config
      rw [if_pos happlied] at hconfig
      rw [if_pos hfirst]
      dsimp only
      rw [hconfig, OpenCodeConfig.mem_collectManagedProviders kept_oauth2,
        (alike_registerProvider auth register round.config).accepted,
        manages_registerProvider]
      simp only [hfirst, true_or, and_true]
  · next hfirst =>
      rw [if_neg hfirst]
      dsimp only
      rw [OpenCodeConfig.mem_collectManagedProviders kept_oauth2]
      simp only [hfirst, Bool.false_eq_true, false_or, OpenCodeConfig.Manages,
        OAUTH2_COLLECT_OPTIONS]

/-! ### Runs -/

theorem after_concat (rounds : List Round) (round : Round) :
  after auth register (rounds ++ [round]) =
    (play auth register (after auth register rounds) round).state
  := by
  rw [after, List.foldl_append]
  rfl

theorem engine_after (rounds : List Round) :
  (after auth register rounds).engine.isSome ↔
    ∃ seen ∈ rounds, hasOAuth2Conflict seen.config auth.id = false
  := by
  induction rounds using List.reverseRecOn with
  | nil => simp [after, initial]
  | append_singleton rounds round ih =>
      rw [after_concat, (played auth register _ round).engine, ih]
      simp only [List.mem_append, List.mem_singleton, or_and_right, exists_or, exists_eq_left]

theorem owning_concat (rounds : List Round) (round : Round) :
  Owning auth (rounds ++ [round]) ↔ Owning auth rounds ∨ round.starts = true ∧
    ∃ seen ∈ rounds ++ [round], hasOAuth2Conflict seen.config auth.id = false
  := by
  constructor
  · rintro ⟨before, starting, hprefix, hstarts, hseen⟩
    rcases List.prefix_concat_iff.mp hprefix with heq | hprefix
    · right
      rw [heq] at hseen
      obtain ⟨-, hround⟩ := List.append_inj' heq rfl
      rw [List.singleton_inj.mp hround] at hstarts
      use hstarts
    · left
      use before, starting
  · rintro (⟨before, starting, hprefix, hstarts, hseen⟩ | ⟨hstarts, hseen⟩)
    · use before, starting, hprefix.trans (List.prefix_append _ _)
    · use rounds, round, List.prefix_rfl

theorem owning_seen {rounds : List Round} (h : Owning auth rounds) :
  ∃ seen ∈ rounds, hasOAuth2Conflict seen.config auth.id = false
  := by
  obtain ⟨before, starting, hprefix, -, seen, hmem, hseen⟩ := h
  use seen, hprefix.mem hmem

/-- The entry is rewritten in a round when a start of the engine has succeeded by then. -/
theorem applied_after (rounds : List Round) (round : Round)
    (hstarted : (after auth register rounds).started = true ↔ Owning auth rounds) :
  (play auth register (after auth register rounds) round).outcome = .applied ↔
    Owning auth (rounds ++ [round])
  := by
  have hengine := engine_after auth register (rounds ++ [round])
  rw [after_concat] at hengine
  rw [(played auth register _ round).applied, hengine, hstarted, owning_concat]
  constructor
  · rintro ⟨hseen, howning | hstarts⟩
    · left
      apply howning
    · right
      use hstarts
  · rintro (howning | ⟨hstarts, hseen⟩)
    · have hseen := owning_seen auth ((owning_concat auth rounds round).mpr (.inl howning))
      use hseen
      left
      apply howning
    · use hseen
      right
      apply hstarts

theorem started_after (rounds : List Round) :
  (after auth register rounds).started = true ↔ Owning auth rounds
  := by
  induction rounds using List.reverseRecOn with
  | nil =>
      constructor
      · intro h
        cases h
      · intro h
        obtain ⟨seen, hmem, -⟩ := owning_seen auth h
        cases hmem
  | append_singleton rounds round ih =>
      rw [after_concat, (played auth register _ round).started,
        applied_after auth register rounds round ih, ih, owning_concat]
      tauto

theorem bothOwn_iff (rounds : List Round) (round : Round) :
  (play auth register (after auth register rounds) round).BothOwn auth.id ↔
    Owning auth (rounds ++ [round]) ∧ round.Claims auth.id
  := by
  have happlied := applied_after auth register rounds round (started_after auth register rounds)
  rw [RoundResult.BothOwn]
  constructor
  · rintro ⟨hcollected, -, houtcome⟩
    use happlied.mp houtcome
    apply (collected_iff auth register _ round houtcome).mp hcollected
  · rintro ⟨howning, hclaims⟩
    have houtcome := happlied.mpr howning
    use (collected_iff auth register _ round houtcome).mpr hclaims
    use ((played auth register _ round).applied.mp houtcome).1

/-- No round of a run leaves a provider to both plugins if and only if no configuration makes
oauth2 manage the provider once the engine has started. -/
theorem ownedOnce_iff (rounds : List Round) :
  (∀ earlier round, earlier ++ [round] <+: rounds →
      ¬(play auth register (after auth register earlier) round).BothOwn auth.id) ↔
    ∀ earlier round, earlier ++ [round] <+: rounds → Owning auth (earlier ++ [round]) →
      ¬round.Claims auth.id
  := by
  apply forall_congr'
  intro earlier
  apply forall_congr'
  intro round
  rw [bothOwn_iff, not_and]

end Rounds

/-! ### A clash -/

def sampleAuth : AuthServerConfig where
  id := "idp"
  issuer := "https://idp"
  clientId := "client"
  clientSecret := none
  authFlow := .authorizationCode
  subjectTokenSource := none
  tokenExchangeAudience := none

def sampleRegister : LightbridgeRegisterOptions where
  baseURL := "https://gateway"
  baseURL_nonBlank := by decide +kernel
  name := none
  nameOverrides := none
  syncIntervalMinutes := none
  responseApi := none

/-- A configuration that lists one server, under an id with a blank behind it. -/
def sampleConfig : OpenCodeConfig where
  provider := none
  pluginConfig := .object [("oauth2ModelSync", .object [("servers", .array [.object [
    ("id", .string "idp "), ("issuer", .string "https://idp"),
    ("baseURL", .string "https://gateway"), ("clientId", .string "client"),
    ("scopes", .array [.string "openid"])]])])]

/-- The id with the blank is the provider's to oauth2, and none the register module looks for. -/
theorem owns_listed_provider :
  ¬∀ (auth : AuthServerConfig) (register : LightbridgeRegisterOptions) (rounds : List Round)
    (earlier : List Round) (round : Round), earlier ++ [round] <+: rounds →
      ¬(play auth register (after auth register earlier) round).BothOwn auth.id
  := by
  intro h
  let round : Round := ⟨sampleConfig, false, true⟩
  apply h sampleAuth sampleRegister [round] [] round List.prefix_rfl
  have hids : (play sampleAuth sampleRegister initial round).collected.toOption.map
      (List.map ProviderServerConfigInput.id) = some ["idp"] := by
    decide +kernel
  obtain ⟨servers, hservers, hmap⟩ := Option.map_eq_some_iff.mp hids
  constructor
  · use servers
    constructor
    · cases hcollected : (play sampleAuth sampleRegister initial round).collected with
      | error e =>
          rw [hcollected] at hservers
          cases hservers
      | ok collected =>
          rw [hcollected] at hservers
          rw [← Option.some.inj hservers]
          apply hcollected
    · rw [hmap]
      apply List.mem_singleton_self
  · decide +kernel

end RegisterModule
