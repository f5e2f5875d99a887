import OpencodeToolbelt.Data.Spreading
import OpencodeToolbelt.RepoAuth.Signatures

/-!
# Runtimes that are kept

The runtimes of a state are those of the providers that the last configuration manages, as their
signature is that of the providers for which they have been built.
-/

namespace RepoAuth

/-! ### Managed providers -/

section Managed

variable {stringify : JsValue → String} {localeLe : String → String → Bool}

/-- An entry as it is made for a provider of a configuration in JSON. -/
structure Genuine (stringify : JsValue → String) (entry : ManagedProvider) : Prop where
  id : entry.auth.id = REPO_AUTH_META_KEY
  json : entry.auth.subjectTokenSource = .undefined ∨ entry.auth.subjectTokenSource.IsJson
  signature : entry.authSignature = authSignature stringify entry.auth

/-- A provider of a configuration that opts in with an entry. -/
structure OptsIn (config : OpenCodeConfig) (id : String) (entry : ManagedProvider) : Prop where
  asked : ∃ provider, config.providers.get id = some provider ∧
    parseRepoAuthOptions provider.options = .ok (.optedIn ⟨entry.projectId, entry.auth⟩)
  disjoint : ¬ ∃ servers, (config.collectManagedProviders OAUTH2_COLLECT_OPTIONS).2 = .ok servers ∧
    id ∈ servers.map ProviderServerConfigInput.id

theorem optIn_eq_some {config : OpenCodeConfig} {id : String} {provider : OpenCodeProviderConfig}
    {entry : ManagedProvider} (h : optIn stringify config id provider = some entry) :
  parseRepoAuthOptions provider.options = .ok (.optedIn ⟨entry.projectId, entry.auth⟩) ∧
    hasOAuth2Conflict config provider.options id = false ∧
    entry.authSignature = authSignature stringify entry.auth
  := by
  rw [optIn] at h
  split at h
  · next parsed hparsed =>
      split at h
      · cases h
      · next hconflict =>
          cases h
          exact ⟨hparsed, Bool.eq_false_of_not_eq_true hconflict, rfl⟩
  · cases h

theorem mem_optedIn {config : OpenCodeConfig} {id : String} {entry : ManagedProvider}
    (h : (id, entry) ∈ optedIn stringify config) :
  OptsIn config id entry ∧ (config.IsJson → Genuine stringify entry)
  := by
  obtain ⟨⟨id, provider⟩, hmem, hentry⟩ := List.mem_filterMap.mp h
  obtain ⟨entry, hentry, heq⟩ := Option.map_eq_some_iff.mp hentry
  cases heq
  have hget : config.providers.get id = some provider :=
    JsMap.get_eq_some.mpr (mem_objectEntries.mp hmem)
  obtain ⟨hparsed, hconflict, hsignature⟩ := optIn_eq_some hentry
  constructor
  · exact ⟨⟨provider, hget, hparsed⟩, not_collected_of_no_conflict hget hconflict⟩
  · intro hjson
    obtain ⟨raw, -, hid, -⟩ := parsed_of_optedIn hparsed
    exact ⟨hid, isJson_subjectTokenSource hjson hget hparsed, hsignature⟩

/-- The providers that are managed opt in, all with the signature of the first of them. -/
theorem mem_collectManagedProviders (config : OpenCodeConfig) :
  ∃ signature, ∀ id entry, (collectManagedProviders stringify config).get id = some entry →
    (id, entry) ∈ optedIn stringify config ∧ entry.authSignature = signature
  := by
  rw [collectManagedProviders]
  split
  · use ""
    intro id entry hget
    rw [JsMap.get_empty] at hget
    cases hget
  · next providerId first rest hoptedIn =>
      rw [hoptedIn]
      use first.authSignature
      apply List.foldlRecOn (motive := fun managed : JsMap String ManagedProvider =>
        ∀ id entry, managed.get id = some entry →
          (id, entry) ∈ (providerId, first) :: rest ∧ entry.authSignature = first.authSignature)
      · intro id entry hget
        rw [JsMap.get_empty] at hget
        cases hget
      · intro managed ih entry hmem
        split
        · next hsignature =>
            intro id entry' hget
            rw [JsMap.get_set] at hget
            split at hget
            · next hid =>
                cases hget
                rw [hid]
                exact ⟨hmem, hsignature⟩
            · apply ih id entry' hget
        · apply ih

theorem build_eq_some {entry : ManagedProvider} {plugin : RepoAuthRuntime}
    (h : build entry = some plugin) :
  plugin.config = ⟨entry.projectId, entry.auth⟩ ∧
    validateAuthConfig entry.auth = .ok plugin.validated
  := by
  rw [build] at h
  split at h
  · next validated hvalidated =>
      cases h
      exact ⟨rfl, hvalidated⟩
  · cases h

/-- Each managed provider gets the runtime of its entry. -/
theorem get_rebuild (managed : JsMap String ManagedProvider) (id : String) :
  (rebuild managed).get id = (managed.get id).bind build
  := by
  have hrebuild : rebuild managed = JsMap.empty.setAll (managed.entries.filterMap fun entry =>
      (build entry.2).map fun plugin => (entry.1, plugin)) := by
    rw [rebuild, JsMap.setAll, List.foldl_filterMap]
    congr 1
    funext rebuilt entry
    cases build entry.2 with
    | none => rfl
    | some plugin => rfl
  have hnodup : ((managed.entries.filterMap fun entry =>
      (build entry.2).map fun plugin => (entry.1, plugin)).map Prod.fst).Nodup := by
    rw [List.Nodup, List.pairwise_map, List.pairwise_filterMap]
    apply (List.pairwise_map.mp managed.nodup).imp
    intro entry entry' hne kept hkept kept' hkept'
    obtain ⟨plugin, -, rfl⟩ := Option.map_eq_some_iff.mp hkept
    obtain ⟨plugin', -, rfl⟩ := Option.map_eq_some_iff.mp hkept'
    apply hne
  rw [hrebuild, JsMap.get_setAll _ hnodup, JsMap.get_empty, Option.or_none]
  apply Option.ext
  intro plugin
  rw [lookup_eq_some hnodup, List.mem_filterMap, Option.bind_eq_some_iff]
  constructor
  · rintro ⟨⟨id, entry⟩, hmem, hplugin⟩
    obtain ⟨plugin, hplugin, heq⟩ := Option.map_eq_some_iff.mp hplugin
    cases heq
    use entry, JsMap.get_eq_some.mpr hmem
  · rintro ⟨entry, hget, hplugin⟩
    use (id, entry), JsMap.get_eq_some.mp hget
    rw [hplugin, Option.map_some]

theorem genuine_of_get {config : OpenCodeConfig} (hjson : config.IsJson) {id : String}
    {entry : ManagedProvider}
    (hget : (collectManagedProviders stringify config).get id = some entry) :
  Genuine stringify entry
  := by
  obtain ⟨signature, hmanaged⟩ := @mem_collectManagedProviders stringify config
  apply (mem_optedIn (hmanaged id entry hget).1).2 hjson

/-! ### Runs -/

/-- The runtimes of a state are those of managed providers, with whose signature they are kept. -/
def Consistent (stringify : JsValue → String) (localeLe : String → String → Bool)
    (state : RuntimeState) : Prop :=
  ∃ managed : JsMap String ManagedProvider,
    (∀ id entry, managed.get id = some entry → Genuine stringify entry) ∧
    (∀ signature, state.signature = some signature →
      signature = runtimeSignature stringify localeLe managed) ∧
    ∀ id, state.pluginByProvider.get id = (managed.get id).bind build

theorem consistent_initial :
  Consistent stringify localeLe initial
  := by
  use .empty
  constructor
  · intro id entry hget
    cases hget
  · constructor
    · intro signature hsignature
      cases hsignature
    · intro id
      rfl

section Injective

variable (hinj : ∀ a b : JsValue, a.IsJson → b.IsJson → stringify a = stringify b → a = b)

include hinj

/-- The signature of an identity provider determines it. -/
theorem auth_eq_of_signature {entry entry' : ManagedProvider} (h : Genuine stringify entry)
    (h' : Genuine stringify entry') (hsignature : entry.authSignature = entry'.authSignature) :
  entry.auth = entry'.auth
  := by
  rw [h.signature, h'.signature] at hsignature
  apply auth_eq_of_jsonObject (h.id.trans h'.id.symm)
  apply hinj _ _ (isJson_jsonObject (isJson_authFields h.json))
    (isJson_jsonObject (isJson_authFields h'.json)) hsignature

theorem entry_eq_of_signatureEntry {id id' : String} {entry entry' : ManagedProvider}
    (h : Genuine stringify entry) (h' : Genuine stringify entry')
    (heq : signatureEntry id entry = signatureEntry id' entry') :
  id = id' ∧ entry = entry'
  := by
  have hsignature : entry.authSignature = entry'.authSignature := by
    simp only [signatureEntry, JsValue.object.injEq, List.cons.injEq, Prod.mk.injEq,
      JsValue.string.injEq, true_and, and_true] at heq
    apply heq.2.2
  have hprojectId : entry.projectId = entry'.projectId := by
    simp only [signatureEntry, JsValue.object.injEq, List.cons.injEq, Prod.mk.injEq,
      JsValue.string.injEq, true_and, and_true] at heq
    apply heq.2.1
  have hauth := auth_eq_of_signature hinj h h' hsignature
  constructor
  · simp only [signatureEntry, JsValue.object.injEq, List.cons.injEq, Prod.mk.injEq,
      JsValue.string.injEq, true_and, and_true] at heq
    apply heq.1
  · cases entry
    cases entry'
    rw [ManagedProvider.mk.injEq]
    exact ⟨hprojectId, hauth, hsignature⟩

/-- Providers are managed alike where the signature is the same. -/
theorem get_of_runtimeSignature {managed managed' : JsMap String ManagedProvider}
    (h : ∀ id entry, managed.get id = some entry → Genuine stringify entry)
    (h' : ∀ id entry, managed'.get id = some entry → Genuine stringify entry)
    (heq : runtimeSignature stringify localeLe managed =
      runtimeSignature stringify localeLe managed') {id : String} {entry : ManagedProvider}
    (hget : managed.get id = some entry) :
  managed'.get id = some entry
  := by
  have hjson : ∀ entries : List (String × ManagedProvider),
      (JsValue.array (entries.map fun entry => signatureEntry entry.1 entry.2)).IsJson := by
    intro entries
    apply JsValue.IsJson.array
    intro item hitem
    obtain ⟨entry, -, rfl⟩ := List.mem_map.mp hitem
    apply isJson_signatureEntry
  have hentries := JsValue.array.inj (hinj _ _ (hjson _) (hjson _) heq)
  have hmem : signatureEntry id entry ∈ (sortedEntries localeLe managed').map fun entry =>
      signatureEntry entry.1 entry.2 := by
    rw [← hentries]
    apply List.mem_map.mpr
    use (id, entry)
    exact ⟨List.mem_mergeSort.mpr (JsMap.get_eq_some.mp hget), rfl⟩
  obtain ⟨⟨id', entry'⟩, hmem', heq'⟩ := List.mem_map.mp hmem
  have hget' := JsMap.get_eq_some.mpr (List.mem_mergeSort.mp hmem')
  obtain ⟨rfl, rfl⟩ := entry_eq_of_signatureEntry hinj (h' id' entry' hget') (h id entry hget) heq'
  apply hget'

/-- After a call the runtimes are those of the providers that its configuration manages. -/
theorem get_configHook {state : RuntimeState} (h : Consistent stringify localeLe state)
    {config : OpenCodeConfig} (hjson : config.IsJson) (id : String) :
  (configHook stringify localeLe state config).pluginByProvider.get id =
    ((collectManagedProviders stringify config).get id).bind build
  := by
  rw [configHook]
  dsimp only
  split
  · next hsize =>
      have hnone : (collectManagedProviders stringify config).get id = none := by
        rw [JsMap.get, List.length_eq_zero_iff.mp hsize]
        rfl
      rw [JsMap.get_clear, hnone, Option.bind_none]
  · split
    · apply get_rebuild
    · next hkept =>
        rw [not_or, not_not] at hkept
        obtain ⟨managed, hgenuine, hsignature, hbuilt⟩ := h
        have heq := hsignature _ hkept.1
        have hcollected : ∀ id entry, (collectManagedProviders stringify config).get id =
            some entry → Genuine stringify entry := fun _ _ hget => genuine_of_get hjson hget
        rw [hbuilt id]
        congr 1
        apply Option.ext
        intro entry
        exact ⟨get_of_runtimeSignature hinj hgenuine hcollected heq.symm,
          get_of_runtimeSignature hinj hcollected hgenuine heq⟩

theorem Consistent.configHook {state : RuntimeState} (h : Consistent stringify localeLe state)
    {config : OpenCodeConfig} (hjson : config.IsJson) :
  Consistent stringify localeLe (RepoAuth.configHook stringify localeLe state config)
  := by
  use collectManagedProviders stringify config
  constructor
  · intro id entry hget
    apply genuine_of_get hjson hget
  · constructor
    · intro signature hsignature
      rw [RepoAuth.configHook] at hsignature
      dsimp only at hsignature
      split at hsignature
      · cases hsignature
      · split at hsignature
        · cases hsignature
          rfl
        · next hkept =>
            rw [not_or, not_not] at hkept
            rw [hkept.1] at hsignature
            cases hsignature
            rfl
    · apply get_configHook hinj h hjson

theorem consistent_after {configs : List OpenCodeConfig}
    (hjson : ∀ config ∈ configs, config.IsJson) :
  Consistent stringify localeLe (after stringify localeLe configs)
  := by
  rw [after]
  apply List.foldlRecOn (motive := Consistent stringify localeLe)
  · apply consistent_initial
  · intro state h config hmem
    apply h.configHook hinj (hjson config hmem)

end Injective

end Managed

/-! ### A sample -/

def sampleAuth : AuthServerConfigInput where
  id := "repoAuth"
  issuer := "https://idp"
  clientId := "client"
  clientSecret := none
  scopes := ["openid"]
  authorizationEndpoint := none
  tokenEndpoint := none
  deviceAuthorizationEndpoint := none
  jwksUri := none
  redirectPort := none
  authFlow := none
  pkce := none
  subjectTokenSource := .undefined

def sampleOptions : JsObject :=
  [("meta", .object [("repoAuth", .object
    [("projectId", .string "acme"), ("issuer", .string "https://idp"),
      ("clientId", .string "client"), ("scopes", .array [.string "openid"])])])]

/-- A configuration with one provider, which opts in. -/
def sampleConfig : OpenCodeConfig where
  provider := some (JsMap.empty.set "gateway" ⟨none, none, some sampleOptions⟩)
  pluginConfig := .undefined

def authText : String :=
  "\x7b\"issuer\":\"https://idp\",\"clientId\":\"client\",\"scopes\":[\"openid\"]\x7d"

def entriesText : String :=
  "[\x7b\"providerId\":\"gateway\",\"projectId\":\"acme\",\"authSignature\":\"" ++
    "\x7b\\\"issuer\\\":\\\"https://idp\\\",\\\"clientId\\\":\\\"client\\\"," ++
    "\\\"scopes\\\":[\\\"openid\\\"]\x7d\"\x7d]"

/-- The sample is written as it is in JSON, and all else as its number in strokes. -/
def sampleText (value : JsValue) : String :=
  if value.code = (jsonObject (authFields sampleAuth)).code then authText
  else if value.code =
      (JsValue.array [signatureEntry "gateway" ⟨"acme", sampleAuth, authText⟩]).code then
    entriesText
  else String.ofList (List.replicate value.code '|')

theorem ne_strokes {text : String} (h : '{' ∈ text.toList) (n : ℕ) :
  text ≠ String.ofList (List.replicate n '|')
  := by
  rintro rfl
  rw [String.toList_ofList] at h
  have hchar := List.eq_of_mem_replicate h
  cases hchar

theorem sampleText_injective {a b : JsValue} (ha : a.IsJson) (hb : b.IsJson)
    (h : sampleText a = sampleText b) :
  a = b
  := by
  have hauth : '{' ∈ authText.toList := by decide +kernel
  have hentries : '{' ∈ entriesText.toList := by decide +kernel
  have hne : authText ≠ entriesText := by decide +kernel
  apply JsValue.code_injective ha hb
  rw [sampleText, sampleText] at h
  split at h
  · next haCode =>
      split at h
      · next hbCode => rw [haCode, hbCode]
      · split at h
        · apply absurd h hne
        · apply absurd h (ne_strokes hauth _)
  · split at h
    · next haCode =>
        split at h
        · apply absurd h.symm hne
        · split at h
          · next hbCode => rw [haCode, hbCode]
          · apply absurd h (ne_strokes hentries _)
    · split at h
      · apply absurd h.symm (ne_strokes hauth _)
      · split at h
        · apply absurd h.symm (ne_strokes hentries _)
        · have hlength := congrArg List.length (String.ofList_injective h)
          rw [List.length_replicate, List.length_replicate] at hlength
          apply hlength

theorem isJson_sampleConfig :
  sampleConfig.IsJson
  := by
  intro id provider options hget hoptions
  have hprovider : provider.options = some sampleOptions := by
    rw [OpenCodeConfig.providers, sampleConfig, Option.getD_some, JsMap.get_set] at hget
    split at hget
    · cases hget
      rfl
    · cases hget
  rw [hprovider] at hoptions
  obtain rfl := Option.some.inj hoptions
  have hblock : (JsValue.object [("projectId", .string "acme"), ("issuer", .string "https://idp"),
      ("clientId", .string "client"), ("scopes", .array [.string "openid"])]).IsJson := by
    apply JsValue.IsJson.object
    simp only [List.forall_mem_cons, List.not_mem_nil, false_implies, implies_true, and_true]
    refine ⟨.string _, .string _, .string _, .array ?_⟩
    simp only [List.forall_mem_cons, List.not_mem_nil, false_implies, implies_true, and_true]
    apply JsValue.IsJson.string
  apply JsValue.IsJson.object
  rw [sampleOptions, List.forall_mem_singleton]
  apply JsValue.IsJson.object
  rw [List.forall_mem_singleton]
  apply hblock

theorem json_of_mem_samples {config : OpenCodeConfig}
    (h : config ∈ [sampleConfig] ++ [sampleConfig]) :
  config.IsJson
  := by
  simp only [List.singleton_append, List.mem_cons, List.not_mem_nil, or_false, or_self] at h
  rw [h]
  apply isJson_sampleConfig

end RepoAuth
