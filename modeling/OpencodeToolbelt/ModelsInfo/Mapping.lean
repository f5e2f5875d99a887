import OpencodeToolbelt.Data.JsValue

/-!
# Metadata of models

What a catalog says of a model, as far as it can be derived from its entry, and how that is merged
into what the configuration says of it.
-/

namespace ModelsInfo

/-! ### Catalogs -/

/-- The prices of a model for one token, as texts. -/
structure OpenRouterPricing where
  prompt : Option String
  completion : Option String
  inputCacheRead : Option String
  inputCacheWrite : Option String

structure OpenRouterArchitecture where
  inputModalities : Option (List String)
  outputModalities : Option (List String)

structure OpenRouterTopProvider where
  maxCompletionTokens : Option ℚ
  contextLength : Option ℚ

/-- An entry of a catalog. -/
structure OpenRouterModel where
  id : String
  name : Option String
  contextLength : Option ℚ
  pricing : Option OpenRouterPricing
  architecture : Option OpenRouterArchitecture
  topProvider : Option OpenRouterTopProvider
  supportedParameters : Option (List String)
  internal : Option Bool

/-- Floating-point numbers, as far as prices have to do with them: `Number.parseFloat`, with `none`
for what is not finite, and the price of a million tokens, rounded to six decimals. -/
structure Floats where
  Float : Type
  parseFloat : String → Option Float
  million : Float → JsValue

/-! ### What is derived -/

structure Cost where
  input : JsValue
  output : JsValue
  cacheRead : Option JsValue
  cacheWrite : Option JsValue

structure Limit where
  context : ℚ
  output : ℚ

structure Modalities where
  input : List String
  output : List String

/-- The fields of a model that an entry of a catalog can fill. -/
structure ModelMetadata where
  name : Option String
  attachment : Option Bool
  reasoning : Option Bool
  temperature : Option Bool
  toolCall : Option Bool
  cost : Option Cost
  limit : Option Limit
  modalities : Option Modalities

def OPENCODE_MODALITIES : List String := ["text", "audio", "image", "video", "pdf"]

/-- The known modalities among some, each of them once. -/
def filterModalities (values : Option (List String)) : List String :=
  (values.getD []).foldl (fun out value =>
    if value ∈ OPENCODE_MODALITIES ∧ value ∉ out then out ++ [value] else out) []

def perMillion (floats : Floats) (raw : Option String) : Option JsValue :=
  (nonEmpty raw).bind fun raw => (floats.parseFloat raw).map floats.million

def mapPricing (floats : Floats) (pricing : Option OpenRouterPricing) : Option Cost := do
  let pricing ← pricing
  let input ← perMillion floats pricing.prompt
  let output ← perMillion floats pricing.completion
  return {
    input, output
    cacheRead := perMillion floats pricing.inputCacheRead
    cacheWrite := perMillion floats pricing.inputCacheWrite }

/-- Whether a field is to be overwritten. -/
def overwrites (overwrite : Option (List String)) (field : String) : Bool :=
  (overwrite.getD []).contains field

/-- What `setCapability` makes of a field that is not set. -/
def setCapability (field : String) (present known : Bool) (overwrite : Option (List String)) :
    Option Bool :=
  if present then some true
  else if known && overwrites overwrite field then some false
  else none

def mapOpenRouterEntry (floats : Floats) (entry : OpenRouterModel)
    (overwrite : Option (List String)) : ModelMetadata :=
  let context := (entry.topProvider.bind OpenRouterTopProvider.contextLength).or entry.contextLength
  let output := entry.topProvider.bind OpenRouterTopProvider.maxCompletionTokens
  let declaredInput := entry.architecture.bind OpenRouterArchitecture.inputModalities
  let inputMods := filterModalities declaredInput
  let outputMods :=
    filterModalities (entry.architecture.bind OpenRouterArchitecture.outputModalities)
  let params := (entry.supportedParameters.getD []).map fun p => String.ofList (toLowerCase p.toList)
  let knowsParams := entry.supportedParameters.isSome
  { name := nonEmpty entry.name
    limit := context.bind fun context => output.map fun output => { context, output }
    cost := mapPricing floats entry.pricing
    modalities := if inputMods ≠ [] ∧ outputMods ≠ [] then some ⟨inputMods, outputMods⟩ else none
    toolCall := setCapability "tool_call" (params.contains "tools" || params.contains "tool_choice")
      knowsParams overwrite
    reasoning := setCapability "reasoning"
      (params.contains "reasoning" || params.contains "reasoning_effort" ||
        params.contains "thinking")
      knowsParams overwrite
    temperature := setCapability "temperature" (params.contains "temperature") knowsParams overwrite
    attachment := setCapability "attachment" (inputMods.any (· ≠ "text")) declaredInput.isSome
      overwrite }

def isTextOnlyModality (modalities : Option Modalities) : Bool :=
  match modalities with
  | none => false
  | some modalities => modalities.input = ["text"] && modalities.output = ["text"]

/-! ### Merging -/

def strings (texts : List String) : JsValue := .array (texts.map .string)

/-- The members of an object that are present. -/
def presentMembers (members : List (String × Option JsValue)) : JsObject :=
  members.filterMap fun member => member.2.map fun value => (member.1, value)

def Cost.value (cost : Cost) : JsValue :=
  .object (presentMembers [("input", some cost.input), ("output", some cost.output),
    ("cache_read", cost.cacheRead), ("cache_write", cost.cacheWrite)])

def Limit.value (limit : Limit) : JsValue :=
  .object [("context", .number limit.context), ("output", .number limit.output)]

def Modalities.value (modalities : Modalities) : JsValue :=
  .object [("input", strings modalities.input), ("output", strings modalities.output)]

/-- `Object.entries(derived)` -/
def ModelMetadata.members (derived : ModelMetadata) : JsObject :=
  presentMembers [("name", derived.name.map .string), ("limit", derived.limit.map Limit.value),
    ("cost", derived.cost.map Cost.value),
    ("modalities", derived.modalities.map Modalities.value),
    ("tool_call", derived.toolCall.map .bool), ("reasoning", derived.reasoning.map .bool),
    ("temperature", derived.temperature.map .bool), ("attachment", derived.attachment.map .bool)]

/-- `value === undefined` -/
def isUndefined : JsValue → Bool
  | .undefined => true
  | _ => false

/-- A derived value is written unless the field is defined and not to be overwritten. -/
def mergeMember (overwrite : Option (List String)) (existing : JsObject)
    (member : String × JsValue) : JsObject :=
  if isUndefined member.2 then existing
  else if isUndefined (existing.get member.1) || overwrites overwrite member.1 then
    existing.set member.1 member.2
  else existing

def mergeIntoModel (existing derived : JsObject) (overwrite : Option (List String)) : JsObject :=
  derived.foldl (mergeMember overwrite) existing

/-! ### What is merged -/

/-- An object in which a key has a value, wherever it occurs. -/
def Holds (object : JsObject) (key : String) (value : JsValue) : Prop :=
  (object.lookup key).isSome = true ∧ ∀ member ∈ object, member.1 = key → member.2 = value

theorem lookup_isSome {object : JsObject} {member : String × JsValue} {key : String}
    (hmember : member ∈ object) (hkey : member.1 = key) :
  (object.lookup key).isSome = true
  := by
  rw [Option.isSome_iff_ne_none]
  intro hnone
  have := List.lookup_eq_none_iff.mp hnone member hmember
  simp [hkey] at this

theorem holds_set (object : JsObject) (key : String) (value : JsValue) :
  Holds (object.set key value) key value
  := by
  constructor
  · rw [JsObject.lookup_set, if_pos rfl]
    rfl
  · intro member hmember hkey
    rw [JsObject.set] at hmember
    split at hmember
    · obtain ⟨member', -, rfl⟩ := List.mem_map.mp hmember
      split
      · rfl
      · next hne =>
          rw [if_neg hne] at hkey
          apply absurd hkey hne
    · next hnone =>
        rcases List.mem_append.mp hmember with hmember | hmember
        · apply absurd (lookup_isSome hmember hkey) hnone
        · rw [List.mem_singleton.mp hmember]

theorem Holds.set {object : JsObject} {key : String} {value : JsValue} (h : Holds object key value)
    {key' : String} (hne : key' ≠ key) (value' : JsValue) :
  Holds (object.set key' value') key value
  := by
  constructor
  · rw [JsObject.lookup_set, if_neg hne.symm]
    apply h.1
  · intro member hmember hkey
    rw [JsObject.set] at hmember
    split at hmember
    · obtain ⟨member', hmember', rfl⟩ := List.mem_map.mp hmember
      split at hkey
      · apply absurd hkey hne
      · next hne' =>
          rw [if_neg hne']
          apply h.2 member' hmember' hkey
    · rcases List.mem_append.mp hmember with hmember | hmember
      · apply h.2 member hmember hkey
      · rw [List.mem_singleton.mp hmember] at hkey
        apply absurd hkey hne

theorem Holds.set_eq {object : JsObject} {key : String} {value : JsValue}
    (h : Holds object key value) :
  object.set key value = object
  := by
  rw [JsObject.set, if_pos h.1]
  apply (List.map_congr_left _).trans (List.map_id object)
  intro member hmember
  split
  · next hkey => rw [id, ← hkey, ← h.2 member hmember hkey]
  · rfl

theorem Holds.mergeMember {overwrite : Option (List String)} {object : JsObject} {key : String}
    {value : JsValue} (h : Holds object key value) {member : String × JsValue}
    (hne : member.1 ≠ key) :
  Holds (mergeMember overwrite object member) key value
  := by
  rw [ModelsInfo.mergeMember]
  split
  · apply h
  · split
    · apply h.set hne
    · apply h

theorem get_mergeMember_of_ne (overwrite : Option (List String)) (object : JsObject)
    {member : String × JsValue} {key : String} (hne : key ≠ member.1) :
  (mergeMember overwrite object member).get key = object.get key
  := by
  rw [mergeMember]
  split
  · rfl
  · split
    · apply JsObject.get_set_of_ne _ hne
    · rfl

section Merge

variable {derived : JsObject} (overwrite : Option (List String))

theorem get_mergeIntoModel_of_notMem (existing : JsObject) {key : String}
    (h : key ∉ derived.map Prod.fst) :
  (mergeIntoModel existing derived overwrite).get key = existing.get key
  := by
  induction derived generalizing existing with
  | nil => rfl
  | cons member derived ih =>
      rw [List.map_cons, List.mem_cons, not_or] at h
      rw [mergeIntoModel, List.foldl_cons, ← mergeIntoModel, ih _ h.2,
        get_mergeMember_of_ne overwrite existing h.1]

/-- A derived value is found in a field that was not defined, or is to be overwritten. -/
theorem get_mergeIntoModel (existing : JsObject) (hnodup : (derived.map Prod.fst).Nodup)
    {key : String} {value : JsValue} (hmem : (key, value) ∈ derived)
    (hdefined : isUndefined value = false) :
  (mergeIntoModel existing derived overwrite).get key =
    if isUndefined (existing.get key) || overwrites overwrite key then value
    else existing.get key
  := by
  induction derived generalizing existing with
  | nil => cases hmem
  | cons member derived ih =>
      rw [List.map_cons, List.nodup_cons] at hnodup
      rw [mergeIntoModel, List.foldl_cons, ← mergeIntoModel]
      rcases List.mem_cons.mp hmem with rfl | hmem
      · rw [get_mergeIntoModel_of_notMem overwrite _ hnodup.1, mergeMember, hdefined,
          if_neg Bool.false_ne_true]
        split
        · apply JsObject.get_set_self
        · rfl
      · have hne : key ≠ member.1 := by
          rintro rfl
          apply hnodup.1 (List.mem_map.mpr ⟨_, hmem, rfl⟩)
        rw [ih _ hnodup.2 hmem, get_mergeMember_of_ne overwrite existing hne]

theorem Holds.mergeIntoModel {object : JsObject} {key : String} {value : JsValue}
    (h : Holds object key value) (hnot : key ∉ derived.map Prod.fst) :
  Holds (ModelsInfo.mergeIntoModel object derived overwrite) key value
  := by
  induction derived generalizing object with
  | nil => apply h
  | cons member derived ih =>
      rw [List.map_cons, List.mem_cons, not_or] at hnot
      apply ih (h.mergeMember (Ne.symm hnot.1)) hnot.2

/-- A field that is overwritten holds the derived value wherever it occurs. -/
theorem holds_mergeIntoModel (existing : JsObject) (hnodup : (derived.map Prod.fst).Nodup)
    {key : String} {value : JsValue} (hmem : (key, value) ∈ derived)
    (hdefined : isUndefined value = false) (hoverwrite : overwrites overwrite key = true) :
  Holds (mergeIntoModel existing derived overwrite) key value
  := by
  induction derived generalizing existing with
  | nil => cases hmem
  | cons member derived ih =>
      rw [List.map_cons, List.nodup_cons] at hnodup
      rcases List.mem_cons.mp hmem with rfl | hmem
      · apply Holds.mergeIntoModel overwrite _ hnodup.1
        rw [mergeMember, hdefined, if_neg Bool.false_ne_true, hoverwrite, Bool.or_true, if_pos rfl]
        apply holds_set
      · apply ih _ hnodup.2 hmem

theorem foldl_mergeMember_eq {object : JsObject} {members : JsObject}
    (h : ∀ member ∈ members, mergeMember overwrite object member = object) :
  members.foldl (mergeMember overwrite) object = object
  := by
  induction members with
  | nil => rfl
  | cons member members ih =>
      rw [List.foldl_cons, h member List.mem_cons_self]
      apply ih fun member' hmem => h member' (List.mem_cons_of_mem _ hmem)

/-- What has been merged is not changed by merging it again. -/
theorem mergeIntoModel_twice (existing : JsObject) (hnodup : (derived.map Prod.fst).Nodup)
    (hdefined : ∀ member ∈ derived, isUndefined member.2 = false) :
  mergeIntoModel (mergeIntoModel existing derived overwrite) derived overwrite =
    mergeIntoModel existing derived overwrite
  := by
  apply foldl_mergeMember_eq
  rintro ⟨key, value⟩ hmem
  have hvalue := hdefined (key, value) hmem
  rw [mergeMember, hvalue, if_neg Bool.false_ne_true]
  by_cases hoverwrite : overwrites overwrite key = true
  · rw [hoverwrite, Bool.or_true, if_pos rfl]
    apply (holds_mergeIntoModel overwrite existing hnodup hmem hvalue hoverwrite).set_eq
  · have hget := get_mergeIntoModel overwrite existing hnodup hmem hvalue
    rw [Bool.not_eq_true] at hoverwrite
    rw [hoverwrite, Bool.or_false] at hget ⊢
    rw [hget]
    cases hundefined : isUndefined (existing.get key) with
    | true =>
        rw [if_pos rfl, hvalue]
        rfl
    | false =>
        rw [if_neg Bool.false_ne_true, hundefined]
        rfl

end Merge

/-! ### What is derived -/

theorem mem_presentMembers {members : List (String × Option JsValue)} {key : String}
    {value : JsValue} :
  (key, value) ∈ presentMembers members ↔ (key, some value) ∈ members
  := by
  rw [presentMembers, List.mem_filterMap]
  constructor
  · rintro ⟨⟨key', value'⟩, hmem, heq⟩
    obtain ⟨value'', hvalue, hpair⟩ := Option.map_eq_some_iff.mp heq
    cases hpair
    cases hvalue
    apply hmem
  · intro hmem
    exact ⟨(key, some value), hmem, rfl⟩

theorem keys_presentMembers (members : List (String × Option JsValue)) :
  ((presentMembers members).map Prod.fst).Sublist (members.map Prod.fst)
  := by
  induction members with
  | nil => apply List.Sublist.refl
  | cons member members ih =>
      rw [presentMembers, List.filterMap_cons]
      cases member.2 with
      | none => apply ih.cons
      | some value => apply ih.cons_cons

theorem nodup_members (derived : ModelMetadata) :
  (derived.members.map Prod.fst).Nodup
  := by
  have hnames : ["name", "limit", "cost", "modalities", "tool_call", "reasoning", "temperature",
    "attachment"].Nodup := by decide
  apply List.Nodup.sublist (keys_presentMembers _)
  apply hnames

theorem defined_members (derived : ModelMetadata) :
  ∀ member ∈ derived.members, isUndefined member.2 = false
  := by
  rintro ⟨key, value⟩ hmem
  have hmem' := mem_presentMembers.mp hmem
  simp only [List.mem_cons, List.not_mem_nil, or_false, Prod.mk.injEq] at hmem'
  have hmap : ∀ {α : Type} {f : α → JsValue} {field : Option α}, some value = field.map f →
      (∀ a, isUndefined (f a) = false) → isUndefined value = false := by
    intro α f field heq hf
    obtain ⟨a, -, rfl⟩ := Option.map_eq_some_iff.mp heq.symm
    apply hf a
  rcases hmem' with ⟨-, h⟩ | ⟨-, h⟩ | ⟨-, h⟩ | ⟨-, h⟩ | ⟨-, h⟩ | ⟨-, h⟩ | ⟨-, h⟩ | ⟨-, h⟩ <;>
    apply hmap h (fun _ => rfl)

/-- Known modalities, of which there are some, and none but text. -/
def OnlyText (declared : Option (List String)) : Prop :=
  (∃ modality ∈ declared.getD [], modality ∈ OPENCODE_MODALITIES) ∧
    ∀ modality ∈ declared.getD [], modality ∈ OPENCODE_MODALITIES → modality = "text"

/-- An entry with text on both sides, as far as its modalities are known, and nothing else. -/
def TextOnly (entry : OpenRouterModel) : Prop :=
  OnlyText (entry.architecture.bind OpenRouterArchitecture.inputModalities) ∧
    OnlyText (entry.architecture.bind OpenRouterArchitecture.outputModalities)

/-- One step of `filterModalities`. -/
theorem mem_foldl_filter {values out : List String} {modality : String} :
  modality ∈ values.foldl (fun out value =>
      if value ∈ OPENCODE_MODALITIES ∧ value ∉ out then out ++ [value] else out) out ↔
    modality ∈ out ∨ modality ∈ values ∧ modality ∈ OPENCODE_MODALITIES
  := by
  induction values generalizing out with
  | nil => simp
  | cons value values ih =>
      rw [List.foldl_cons, ih, List.mem_cons]
      split
      · next hnew =>
          rw [List.mem_append, List.mem_singleton]
          constructor
          · rintro ((hmem | rfl) | hmem)
            · exact Or.inl hmem
            · exact Or.inr ⟨Or.inl rfl, hnew.1⟩
            · exact Or.inr ⟨Or.inr hmem.1, hmem.2⟩
          · rintro (hmem | ⟨rfl | hmem, hknown⟩)
            · exact Or.inl (Or.inl hmem)
            · exact Or.inl (Or.inr rfl)
            · exact Or.inr ⟨hmem, hknown⟩
      · next hold =>
          constructor
          · rintro (hmem | hmem)
            · exact Or.inl hmem
            · exact Or.inr ⟨Or.inr hmem.1, hmem.2⟩
          · rintro (hmem | ⟨rfl | hmem, hknown⟩)
            · exact Or.inl hmem
            · left
              by_contra hnot
              apply hold ⟨hknown, hnot⟩
            · exact Or.inr ⟨hmem, hknown⟩

theorem mem_filterModalities {declared : Option (List String)} {modality : String} :
  modality ∈ filterModalities declared ↔
    modality ∈ declared.getD [] ∧ modality ∈ OPENCODE_MODALITIES
  := by
  rw [filterModalities, mem_foldl_filter]
  simp

theorem nodup_foldl_filter {values out : List String} (h : out.Nodup) :
  (values.foldl (fun out value =>
    if value ∈ OPENCODE_MODALITIES ∧ value ∉ out then out ++ [value] else out) out).Nodup
  := by
  induction values generalizing out with
  | nil => apply h
  | cons value values ih =>
      rw [List.foldl_cons]
      apply ih
      split
      · next hnew => apply List.nodup_append.mpr ⟨h, List.nodup_singleton value, by
          rintro a ha b hb rfl
          rw [List.mem_singleton.mp hb] at ha
          apply hnew.2 ha⟩
      · apply h

theorem filterModalities_eq_text {declared : Option (List String)} :
  filterModalities declared = ["text"] ↔ OnlyText declared
  := by
  have hnodup : (filterModalities declared).Nodup := nodup_foldl_filter List.nodup_nil
  constructor
  · intro h
    have hmem : ∀ modality, modality ∈ filterModalities declared ↔ modality = "text" := by
      intro modality
      rw [h, List.mem_singleton]
    constructor
    · obtain ⟨hdeclared, hknown⟩ := mem_filterModalities.mp ((hmem "text").mpr rfl)
      use "text"
    · intro modality hdeclared hknown
      apply (hmem modality).mp
      apply mem_filterModalities.mpr ⟨hdeclared, hknown⟩
  · rintro ⟨⟨modality, hdeclared, hknown⟩, hall⟩
    apply List.perm_singleton.mp
    apply (List.perm_ext_iff_of_nodup hnodup (List.nodup_singleton _)).mpr
    intro modality'
    rw [mem_filterModalities, List.mem_singleton]
    constructor
    · rintro ⟨hdeclared', hknown'⟩
      apply hall modality' hdeclared' hknown'
    · rintro rfl
      have htext := hall modality hdeclared hknown
      rw [htext] at hdeclared hknown
      exact ⟨hdeclared, hknown⟩

theorem isTextOnlyModality_iff {floats : Floats} {entry : OpenRouterModel}
    {overwrite : Option (List String)} :
  isTextOnlyModality (mapOpenRouterEntry floats entry overwrite).modalities = true ↔
    TextOnly entry
  := by
  rw [TextOnly, ← filterModalities_eq_text, ← filterModalities_eq_text]
  simp only [mapOpenRouterEntry]
  split
  · next h => simp [isTextOnlyModality]
  · next h =>
      rw [isTextOnlyModality]
      constructor
      · intro hfalse
        cases hfalse
      · rintro ⟨hinput, houtput⟩
        apply absurd _ h
        rw [hinput, houtput]
        exact ⟨List.cons_ne_nil _ _, List.cons_ne_nil _ _⟩

end ModelsInfo
