import OpencodeToolbelt.Data.Sweeping
import OpencodeToolbelt.ModelsInfo.Mapping
import OpencodeToolbelt.ModelsInfo.RequestHeaders

/-!
# Enriching a configuration

How the models of the providers that opt in are matched against a catalog, hidden, or filled with
what the catalog says of them.
-/

namespace ModelsInfo

/-! ### Options -/

structure MetaProviderOptions where
  modelsInfoUrl : String
  modelsInfoTtlSeconds : ℕ
  modelsInfoTimeoutMs : ℕ
  modelsInfoHeaders : Option HeaderMap
  modelsInfoOverwrite : Option (List String)
  modelsInfoHideTextOnly : Bool
  modelsInfoHideInternal : Bool
  modelsInfoHideUnmatched : Bool

def DEFAULT_TTL_SECONDS : ℕ := 86400

def DEFAULT_TIMEOUT_MS : ℕ := 5000

def OVERWRITABLE_FIELDS : List String :=
  ["name", "attachment", "reasoning", "temperature", "tool_call", "cost", "limit", "modalities"]

def asOverwriteList (value : JsValue) : Option (List String) :=
  match value with
  | .array items =>
      let out := items.foldl (fun (out : List String) raw =>
        match raw with
        | .string field => if field ∈ OVERWRITABLE_FIELDS ∧ field ∉ out then out ++ [field] else out
        | _ => out) []
      if out = [] then none else some out
  | _ => none

def asPositiveInt (value : JsValue) (fallback : ℕ) : ℕ :=
  match value with
  | .number n => if 0 < n then n.floor.toNat else fallback
  | _ => fallback

/-- `value === true` -/
def asBoolean (value : JsValue) : Bool :=
  match value with
  | .bool value => value
  | _ => false

/-- `/^https?:\/\//i` -/
def isAbsoluteUrl (candidate : String) : Bool :=
  "http://".toList.isPrefixOf (toLowerCase candidate.toList) ||
    "https://".toList.isPrefixOf (toLowerCase candidate.toList)

/-- The first argument resolves a URL against another, with `none` for an error. -/
def resolveUrl (resolve : String → String → Option String) (candidate : String)
    (baseURL : Option String) : String :=
  if isAbsoluteUrl candidate then candidate
  else
    match baseURL with
    | none => candidate
    | some baseURL =>
        let base := if baseURL.toList.getLast? = some '/' then baseURL else baseURL ++ "/"
        (resolve candidate base).getD candidate

def parseMetaOptions (resolve : String → String → Option String)
    (providerOptions : Option JsObject) : Option MetaProviderOptions := do
  let providerOptions ← providerOptions
  let options ← asRecord (providerOptions.get "meta")
  let rawUrl ← asString (options.get "modelsInfoUrl")
  return {
    modelsInfoUrl := resolveUrl resolve rawUrl (asString (providerOptions.get "baseURL"))
    modelsInfoTtlSeconds := asPositiveInt (options.get "modelsInfoTtlSeconds") DEFAULT_TTL_SECONDS
    modelsInfoTimeoutMs := asPositiveInt (options.get "modelsInfoTimeoutMs") DEFAULT_TIMEOUT_MS
    modelsInfoHeaders := asHeaderMap (options.get "modelsInfoHeaders")
    modelsInfoOverwrite := asOverwriteList (options.get "modelsInfoOverwrite")
    modelsInfoHideTextOnly := asBoolean (options.get "modelsInfoHideTextOnly")
    modelsInfoHideInternal := asBoolean (options.get "modelsInfoHideInternal")
    modelsInfoHideUnmatched := asBoolean (options.get "modelsInfoHideUnmatched") }

/-! ### Providers -/

/-- The models of a provider, each with its fields. -/
abbrev Models := JsMap String JsObject

structure ProviderConfig where
  options : Option JsObject
  models : Option Models

abbrev Providers := JsMap String (Option ProviderConfig)

/-- What a run works with. The catalogs that `loadRecord` finds for the providers are fixed. -/
structure EnrichDeps where
  resolve : String → String → Option String
  floats : Floats
  loadRecord : String → MetaProviderOptions → Option HeaderMap → Option (List OpenRouterModel)

/-- What the models of a provider are matched against. -/
structure ReconcileContext where
  byId : JsMap String OpenRouterModel
  opts : MetaProviderOptions

/-- The id that a model declares. -/
def declaredId (modelConfig : JsObject) : Option String :=
  match modelConfig.get "id" with
  | .string id => some id
  | _ => none

/-- The models once one of them has been reconciled: without it, with what has been merged into it,
or as they were. -/
def reconcileModel (deps : EnrichDeps) (ctx : ReconcileContext) (models : Models)
    (modelId : String) (modelConfig : JsObject) : Models :=
  let overwrite := ctx.opts.modelsInfoOverwrite
  match (ctx.byId.get modelId).or ((nonEmpty (declaredId modelConfig)).bind ctx.byId.get) with
  | none =>
      if !ctx.opts.modelsInfoHideTextOnly && !ctx.opts.modelsInfoHideUnmatched then models
      else models.delete modelId
  | some entry =>
      if ctx.opts.modelsInfoHideInternal && entry.internal = some true then models.delete modelId
      else
        let derived := mapOpenRouterEntry deps.floats entry overwrite
        if ctx.opts.modelsInfoHideTextOnly && isTextOnlyModality derived.modalities then
          models.delete modelId
        else models.set modelId (mergeIntoModel modelConfig derived.members overwrite)

/-- The entries of a catalog by their ids, the last of each. -/
def matchTable (catalog : List OpenRouterModel) : JsMap String OpenRouterModel :=
  catalog.foldl (fun byId entry => byId.set entry.id entry) .empty

/-- The models are reconciled one after the other, in the order in which they stood at first. -/
def reconcileModels (deps : EnrichDeps) (ctx : ReconcileContext) (models : Models) : Models :=
  (objectEntries models).foldl (fun models model => reconcileModel deps ctx models model.1 model.2)
    models

def enrichProvider (deps : EnrichDeps) (providerId : String) (providerConfig : ProviderConfig) :
    ProviderConfig :=
  match parseMetaOptions deps.resolve providerConfig.options, providerConfig.models with
  | some opts, some models =>
      if models.size = 0 then providerConfig
      else
        let providerHeaders := asHeaderMap ((providerConfig.options.getD []).get "headers")
        match deps.loadRecord providerId opts providerHeaders with
        | none => providerConfig
        | some catalog =>
            { providerConfig with
              models := some (reconcileModels deps ⟨matchTable catalog, opts⟩ models) }
  | _, _ => providerConfig

/-- Providers are enriched at the same time, but each of them has models of its own. -/
def enrichConfig (deps : EnrichDeps) (providers : Option Providers) : Option Providers :=
  providers.map fun providers =>
    providers.mapValues fun providerId providerConfig =>
      providerConfig.map (enrichProvider deps providerId)

/-! ### What a run is to do -/

/-- The last entry of a catalog with an id. -/
def lastEntry (catalog : List OpenRouterModel) (id : String) : Option OpenRouterModel :=
  catalog.reverse.find? fun entry => entry.id = id

/-- The entry for a model: that of its key, or else of the id that it declares. -/
def entryOf (catalog : List OpenRouterModel) (modelId : String) (modelConfig : JsObject) :
    Option OpenRouterModel :=
  (lastEntry catalog modelId).or ((nonEmpty (declaredId modelConfig)).bind (lastEntry catalog))

/-- The rules by which a model is hidden. -/
def Hidden (opts : MetaProviderOptions) : Option OpenRouterModel → Prop
  | none => opts.modelsInfoHideTextOnly = true ∨ opts.modelsInfoHideUnmatched = true
  | some entry =>
      opts.modelsInfoHideInternal = true ∧ entry.internal = some true ∨
        opts.modelsInfoHideTextOnly = true ∧ TextOnly entry

/-- What a catalog derives for a field of a model. -/
def Derives (deps : EnrichDeps) (opts : MetaProviderOptions) (entry : Option OpenRouterModel)
    (field : String) (value : JsValue) : Prop :=
  ∃ entry' ∈ entry,
    (field, value) ∈ (mapOpenRouterEntry deps.floats entry' opts.modelsInfoOverwrite).members

/-- The models of a provider before and after a run. -/
structure Reconciled (deps : EnrichDeps) (opts : MetaProviderOptions)
    (catalog : List OpenRouterModel) (before after : Models) : Prop where
  /-- The models that are left are those that were there and that no rule hides. -/
  kept : ∀ modelId, after.has modelId = true ↔
    ∃ modelConfig, before.get modelId = some modelConfig ∧
      ¬ Hidden opts (entryOf catalog modelId modelConfig)
  /-- A defined field stays what it was, unless it is to be overwritten and a value is derived. -/
  unchanged : ∀ modelId modelConfig modelConfig', before.get modelId = some modelConfig →
    after.get modelId = some modelConfig' → ∀ field, isUndefined (modelConfig.get field) = false →
      ¬ (overwrites opts.modelsInfoOverwrite field = true ∧
        ∃ value, Derives deps opts (entryOf catalog modelId modelConfig) field value) →
      modelConfig'.get field = modelConfig.get field

/-- The catalog with the options of a provider that opts in, as far as it can be loaded. -/
def loaded (deps : EnrichDeps) (providerId : String) (providerConfig : ProviderConfig) :
    Option (MetaProviderOptions × List OpenRouterModel) := do
  let opts ← parseMetaOptions deps.resolve providerConfig.options
  let providerHeaders := asHeaderMap ((providerConfig.options.getD []).get "headers")
  let catalog ← deps.loadRecord providerId opts providerHeaders
  return (opts, catalog)

/-- A provider before and after a run. -/
structure Enriched (deps : EnrichDeps) (providerId : String) (before after : ProviderConfig) :
    Prop where
  /-- Only the models are ever changed. -/
  options : after.options = before.options
  optedOut : parseMetaOptions deps.resolve before.options = none → after = before
  notLoaded : loaded deps providerId before = none → after = before
  /-- The models are reconciled with the catalog, if there are any. -/
  reconciled : ∀ opts catalog, loaded deps providerId before = some (opts, catalog) →
    Option.Rel (Reconciled deps opts catalog) before.models after.models

/-! ### One model -/

theorem get_matchTable (catalog : List OpenRouterModel) (id : String) :
  (matchTable catalog).get id = lastEntry catalog id
  := by
  induction catalog using List.reverseRecOn with
  | nil => rfl
  | append_singleton catalog entry ih =>
      rw [matchTable, List.foldl_append, ← matchTable, List.foldl_cons, List.foldl_nil,
        JsMap.get_set, ih, lastEntry, lastEntry, List.reverse_append, List.reverse_singleton,
        List.singleton_append, List.find?_cons]
      by_cases hid : entry.id = id
      · rw [if_pos hid.symm, decide_eq_true hid]
      · rw [if_neg (Ne.symm hid), decide_eq_false hid]

section Model

variable (deps : EnrichDeps) (opts : MetaProviderOptions) (catalog : List OpenRouterModel)

/-- What becomes of a model, with `none` for one that is hidden. -/
def fate (modelId : String) (modelConfig : JsObject) : Option JsObject :=
  match entryOf catalog modelId modelConfig with
  | none =>
      if !opts.modelsInfoHideTextOnly && !opts.modelsInfoHideUnmatched then some modelConfig
      else none
  | some entry =>
      let derived := mapOpenRouterEntry deps.floats entry opts.modelsInfoOverwrite
      if opts.modelsInfoHideInternal && entry.internal = some true then none
      else if opts.modelsInfoHideTextOnly && isTextOnlyModality derived.modalities then none
      else some (mergeIntoModel modelConfig derived.members opts.modelsInfoOverwrite)

theorem fate_eq_none {modelId : String} {modelConfig : JsObject} :
  fate deps opts catalog modelId modelConfig = none ↔
    Hidden opts (entryOf catalog modelId modelConfig)
  := by
  rw [fate]
  cases entryOf catalog modelId modelConfig with
  | none =>
      simp only [Hidden, ite_eq_right_iff, reduceCtorEq, imp_false, Bool.and_eq_true,
        Bool.not_eq_true', not_and_or, Bool.not_eq_false]
  | some entry =>
      have htext := @isTextOnlyModality_iff deps.floats entry opts.modelsInfoOverwrite
      simp only [Hidden, ← htext, ite_eq_left_iff, reduceCtorEq, imp_false, Bool.and_eq_true,
        decide_eq_true_eq]
      tauto

theorem reconcileModel_eq {models : Models} {modelId : String} {modelConfig : JsObject}
    (h : models.get modelId = some modelConfig) :
  reconcileModel deps ⟨matchTable catalog, opts⟩ models modelId modelConfig =
    models.update modelId (fate deps opts catalog modelId modelConfig)
  := by
  have hentry : ((matchTable catalog).get modelId).or
      ((nonEmpty (declaredId modelConfig)).bind (matchTable catalog).get) =
        entryOf catalog modelId modelConfig := by
    rw [entryOf, get_matchTable, funext (get_matchTable catalog)]
  rw [reconcileModel, fate]
  simp only [hentry]
  cases entryOf catalog modelId modelConfig with
  | none =>
      dsimp only
      split
      · rw [JsMap.update_self h]
      · rw [JsMap.update_none]
  | some entry =>
      dsimp only
      split
      · rw [JsMap.update_none]
      · split
        · rw [JsMap.update_none]
        · rw [JsMap.update_some h]

theorem reconcileModels_eq (models : Models) :
  reconcileModels deps ⟨matchTable catalog, opts⟩ models = models.modify (fate deps opts catalog)
  := by
  have hget : ∀ e ∈ objectEntries models, models.get e.1 = some e.2 := fun e hmem =>
    JsMap.get_eq_some.mpr (mem_objectEntries.mp hmem)
  rw [reconcileModels, JsMap.foldl_update (f := fate deps opts catalog)
    (fun m e h => reconcileModel_eq deps opts catalog h) hget (nodup_objectEntries models)]
  apply JsMap.modify_congr
  intro modelId modelConfig hmem
  rw [if_pos]
  apply List.mem_map.mpr ⟨(modelId, modelConfig), mem_objectEntries.mpr hmem, rfl⟩

/-- The field that a model is matched by is never derived. -/
theorem get_id_mergeIntoModel (existing : JsObject) (derived : ModelMetadata)
    (overwrite : Option (List String)) :
  (mergeIntoModel existing derived.members overwrite).get "id" = existing.get "id"
  := by
  apply get_mergeIntoModel_of_notMem
  intro hmem
  have hname := (keys_presentMembers _).subset hmem
  revert hname
  simp only [List.map_cons, List.map_nil]
  decide

/-- A model that is kept is kept as it is the next time. -/
theorem fate_twice {modelId : String} {modelConfig modelConfig' : JsObject}
    (h : fate deps opts catalog modelId modelConfig = some modelConfig') :
  fate deps opts catalog modelId modelConfig' = some modelConfig'
  := by
  cases hentry : entryOf catalog modelId modelConfig with
  | none =>
      have hsame : modelConfig' = modelConfig := by
        rw [fate, hentry] at h
        dsimp only at h
        split at h
        · cases h
          rfl
        · cases h
      rw [hsame] at h ⊢
      apply h
  | some entry =>
      rw [fate, hentry] at h
      dsimp only at h
      split at h
      · cases h
      · next hinternal =>
          split at h
          · cases h
          · next htext =>
              cases h
              have hentry' : entryOf catalog modelId (mergeIntoModel modelConfig
                  (mapOpenRouterEntry deps.floats entry opts.modelsInfoOverwrite).members
                  opts.modelsInfoOverwrite) = some entry := by
                rw [← hentry, entryOf, declaredId, get_id_mergeIntoModel]
                rfl
              rw [fate, hentry']
              dsimp only
              rw [if_neg hinternal, if_neg htext, mergeIntoModel_twice _ _ (nodup_members _)
                (defined_members _)]

/-- A defined field of a model that is kept. -/
theorem get_fate {modelId : String} {modelConfig modelConfig' : JsObject}
    (h : fate deps opts catalog modelId modelConfig = some modelConfig') {field : String}
    (hdefined : isUndefined (modelConfig.get field) = false)
    (hnot : ¬ (overwrites opts.modelsInfoOverwrite field = true ∧
      ∃ value, Derives deps opts (entryOf catalog modelId modelConfig) field value)) :
  modelConfig'.get field = modelConfig.get field
  := by
  rw [fate] at h
  cases hentry : entryOf catalog modelId modelConfig with
  | none =>
      rw [hentry] at h
      dsimp only at h
      split at h
      · cases h
        rfl
      · cases h
  | some entry =>
      rw [hentry] at h hnot
      dsimp only at h
      split at h
      · cases h
      · split at h
        · cases h
        · cases h
          by_cases hmem : field ∈
              (mapOpenRouterEntry deps.floats entry opts.modelsInfoOverwrite).members.map Prod.fst
          · obtain ⟨⟨field, value⟩, hmember, rfl⟩ := List.mem_map.mp hmem
            have hover : overwrites opts.modelsInfoOverwrite field = false := by
              rw [← Bool.not_eq_true]
              intro hover
              apply hnot ⟨hover, value, entry, rfl, hmember⟩
            rw [get_mergeIntoModel _ _ (nodup_members _) hmember (defined_members _ _ hmember)]
            dsimp only at hdefined hover ⊢
            rw [hdefined, hover, Bool.or_false, if_neg Bool.false_ne_true]
          · apply get_mergeIntoModel_of_notMem _ _ hmem

theorem reconciled_reconcileModels (models : Models) :
  Reconciled deps opts catalog models (reconcileModels deps ⟨matchTable catalog, opts⟩ models)
  := by
  rw [reconcileModels_eq]
  constructor
  · intro modelId
    simp only [JsMap.has, JsMap.get_modify, Option.isSome_iff_exists, Option.bind_eq_some_iff,
      ← fate_eq_none deps, ← Ne.eq_def, Option.ne_none_iff_exists']
    constructor
    · rintro ⟨modelConfig', modelConfig, hget, hfate⟩
      use modelConfig, hget, modelConfig'
    · rintro ⟨modelConfig, hget, modelConfig', hfate⟩
      use modelConfig', modelConfig
  · intro modelId modelConfig modelConfig' hget hget' field hdefined hnot
    rw [JsMap.get_modify, hget] at hget'
    apply get_fate deps opts catalog hget' hdefined hnot

theorem reconcileModels_twice (models : Models) :
  reconcileModels deps ⟨matchTable catalog, opts⟩
      (reconcileModels deps ⟨matchTable catalog, opts⟩ models) =
    reconcileModels deps ⟨matchTable catalog, opts⟩ models
  := by
  simp only [reconcileModels_eq]
  apply JsMap.modify_twice
  intro modelId modelConfig modelConfig' h
  apply fate_twice deps opts catalog h

end Model

/-! ### Every provider -/

theorem size_eq_zero {models : Models} (h : models.size = 0) :
  objectEntries models = []
  := by
  apply List.eq_nil_iff_forall_not_mem.mpr
  intro entry hmem
  have hentries : models.entries = [] := List.length_eq_zero_iff.mp h
  have hmem' := mem_objectEntries.mp hmem
  rw [hentries] at hmem'
  cases hmem'

/-- Models of which there are none need no exception. -/
theorem enrichProvider_eq (deps : EnrichDeps) (providerId : String)
    (providerConfig : ProviderConfig) :
  enrichProvider deps providerId providerConfig =
    match loaded deps providerId providerConfig with
    | none => providerConfig
    | some (opts, catalog) =>
        { providerConfig with
          models := providerConfig.models.map
            (reconcileModels deps ⟨matchTable catalog, opts⟩) }
  := by
  obtain ⟨options, models⟩ := providerConfig
  rw [enrichProvider, loaded]
  dsimp only
  cases parseMetaOptions deps.resolve options with
  | none => rfl
  | some opts =>
      cases hcatalog : deps.loadRecord providerId opts
          (asHeaderMap ((options.getD []).get "headers")) with
      | none =>
          simp only [Option.bind_eq_bind, Option.bind_some, hcatalog, Option.bind_none]
          cases models with
          | none => rfl
          | some models =>
              simp only [hcatalog, ite_self]
      | some catalog =>
          simp only [Option.bind_eq_bind, Option.bind_some, hcatalog, Option.pure_def]
          cases models with
          | none => rfl
          | some models =>
              dsimp only
              split
              · next hsize =>
                  simp only [Option.map_some, reconcileModels, size_eq_zero hsize, List.foldl_nil]
              · simp only [hcatalog, Option.map_some]

theorem loaded_enrichProvider (deps : EnrichDeps) (providerId : String)
    (providerConfig : ProviderConfig) :
  loaded deps providerId (enrichProvider deps providerId providerConfig) =
    loaded deps providerId providerConfig
  := by
  rw [enrichProvider_eq]
  split <;> rfl

theorem enriched_enrichProvider (deps : EnrichDeps) (providerId : String)
    (providerConfig : ProviderConfig) :
  Enriched deps providerId providerConfig (enrichProvider deps providerId providerConfig)
  := by
  rw [enrichProvider_eq]
  constructor
  · split <;> rfl
  · intro hnone
    rw [loaded, hnone]
    rfl
  · intro hnone
    rw [hnone]
  · intro opts catalog hsome
    rw [hsome]
    dsimp only
    cases providerConfig.models with
    | none => apply Option.Rel.none
    | some models => apply Option.Rel.some (reconciled_reconcileModels deps opts catalog models)

theorem enrichProvider_twice (deps : EnrichDeps) (providerId : String)
    (providerConfig : ProviderConfig) :
  enrichProvider deps providerId (enrichProvider deps providerId providerConfig) =
    enrichProvider deps providerId providerConfig
  := by
  rw [enrichProvider_eq deps providerId (enrichProvider deps providerId providerConfig),
    loaded_enrichProvider]
  cases hloaded : loaded deps providerId providerConfig with
  | none => rfl
  | some found =>
      obtain ⟨opts, catalog⟩ := found
      rw [enrichProvider_eq, hloaded]
      dsimp only
      rw [Option.map_map]
      congr 2
      funext models
      apply reconcileModels_twice

/-- Every provider is enriched, and none is added or removed. A second run changes nothing. -/
theorem enrichConfig_spec (deps : EnrichDeps) (providers : Option Providers) :
  Option.Rel (fun before after => ∀ providerId,
      Option.Rel (Option.Rel (Enriched deps providerId)) (before.get providerId)
        (after.get providerId)) providers (enrichConfig deps providers) ∧
    enrichConfig deps (enrichConfig deps providers) = enrichConfig deps providers
  := by
  cases providers with
  | none => exact ⟨Option.Rel.none, rfl⟩
  | some providers =>
      constructor
      · apply Option.Rel.some
        intro providerId
        rw [JsMap.get_mapValues]
        cases providers.get providerId with
        | none => apply Option.Rel.none
        | some providerConfig =>
            apply Option.Rel.some
            cases providerConfig with
            | none => apply Option.Rel.none
            | some providerConfig =>
                apply Option.Rel.some (enriched_enrichProvider deps providerId providerConfig)
      · simp only [enrichConfig, Option.map_some, Option.some.injEq]
        apply JsMap.modify_twice
        intro providerId providerConfig providerConfig' h
        cases h
        dsimp only
        rw [Option.map_map]
        congr 2
        funext providerConfig
        apply enrichProvider_twice

end ModelsInfo
