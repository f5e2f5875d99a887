import OpencodeToolbelt.Data.Fetch
import OpencodeToolbelt.Data.Spreading
import OpencodeToolbelt.ModelsInfo.CacheKey

/-!
# Headers of catalog requests

The headers of a provider and those configured for its catalog, as they are merged and sent, and
when the latter override the former.
-/

namespace ModelsInfo

/-! ### Reading a `Headers` object -/

/-- The white space that is dropped from the ends of a value. -/
def isHttpSpace (c : Char) : Bool := c ∈ ['\t', '\n', '\r', ' ']

def normalizeValue (value : String) : String :=
  .ofList ((value.toList.dropWhile isHttpSpace).reverse.dropWhile isHttpSpace).reverse

def lowerName (name : String) : String := .ofList (name.toList.map Char.toLower)

/-- The spellings of a name in a record. -/
def spellings (name : String) (headers : HeaderMap) : List String :=
  headers.keys.filter fun key => lowerName key = name

/-- The values of a name, joined. -/
def combine (values : List String) : Option String :=
  if values = [] then none else some (", ".intercalate values)

/-- `new Headers(headers)` -/
def headersOf (headers : HeaderMap) : Fetch.Headers := fun name =>
  combine (((objectEntries headers).filter fun header => lowerName header.1 = name).map
    fun header => normalizeValue header.2)

/-! ### The headers of a request -/

/-- The headers among the options of a provider. Those configured for its catalog are read in the
same way. -/
def asHeaderMap (value : JsValue) : Option HeaderMap :=
  let out := ((asRecord value).getD []).foldl (fun (out : HeaderMap) member =>
    match member.2 with
    | .string text => if text ≠ "" then out.set member.1 text else out
    | _ => out) .empty
  if out.keys = [] then none else some out

def buildFetchHeaders (modelsInfoHeaders providerHeaders : Option HeaderMap) : Option HeaderMap :=
  if providerHeaders.isNone ∧ modelsInfoHeaders.isNone then none
  else
    some ((JsMap.empty.spread (providerHeaders.getD .empty)).spread
      (modelsInfoHeaders.getD .empty))

/-- What a request carries unless the headers say otherwise. -/
def acceptHeaders : HeaderMap := JsMap.empty.set "accept" "application/json"

/-- What a request carries when the cache has a tag. -/
def conditionalHeaders (etag : Option String) : HeaderMap :=
  match nonEmpty etag with
  | some etag => JsMap.empty.set "if-none-match" etag
  | none => .empty

/-- The headers that `fetchOpenRouterModels` passes to `fetch`. -/
def fetchHeaders (headers : Option HeaderMap) (etag : Option String) : HeaderMap :=
  let headers := acceptHeaders.spread (headers.getD .empty)
  match nonEmpty etag with
  | some etag => headers.set "if-none-match" etag
  | none => headers

/-- The headers that a request for a catalog is sent with. -/
def catalogHeaders (providerHeaders modelsInfoHeaders : Option HeaderMap) (etag : Option String) :
    Fetch.Headers :=
  headersOf (fetchHeaders (buildFetchHeaders modelsInfoHeaders providerHeaders) etag)

/-! ### Overriding -/

/-- Headers that override one another name by name, the last of them all others. -/
def overridden : List HeaderMap → Fetch.Headers
  | [], _ => none
  | headers :: rest, name => (overridden rest name).or (headersOf headers name)

/-- The last of some headers that have a name. -/
def lastWith (name : String) (layers : List HeaderMap) : Option HeaderMap :=
  layers.reverse.find? fun headers => spellings name headers ≠ []

/-- Some names and those of others that are not among them. -/
def addNew (names names' : List String) : List String :=
  names ++ names'.filter fun name => name ∉ names

/-- The spellings of a name in the order in which they first occur. -/
def allSpellings (name : String) : List HeaderMap → List String
  | [] => []
  | headers :: rest => addNew (spellings name headers) (allSpellings name rest)

/-- The values that a record has under some keys, as they are sent. -/
def valuesOf (lookup : String → Option String) (keys : List String) : List String :=
  keys.filterMap fun key => (lookup key).map normalizeValue

/-- A name whose last values are sent alone: the headers that have it last spell it in every way
in which it is spelled, and in the order of these spellings their values make the same text. -/
def Settled (name : String) (layers : List HeaderMap) : Prop :=
  ∀ headers ∈ lastWith name layers,
    (∀ key ∈ allSpellings name layers, key ∈ headers.keys) ∧
      combine (valuesOf headers.get (allSpellings name layers)) = headersOf headers name

/-! ### Names and values -/

theorem mem_spellings {name key : String} {headers : HeaderMap} :
  key ∈ spellings name headers ↔ key ∈ headers.keys ∧ lowerName key = name
  := by
  rw [spellings, List.mem_filter, decide_eq_true_eq]

theorem isDigit_of_unit {c : Char} {u : UInt16} (h : u ∈ unitsOf c) (hlow : 48 ≤ u.toNat)
    (hhigh : u.toNat ≤ 57) :
  48 ≤ c.toNat ∧ c.toNat ≤ 57
  := by
  have hvalid : c.toNat < 0xd800 ∨ 0xdfff < c.toNat ∧ c.toNat < 0x110000 := c.valid
  unfold unitsOf at h
  dsimp only at h
  split at h
  · rw [List.mem_singleton.mp h, UInt16.toNat_ofNat'] at hlow hhigh
    omega
  · rcases List.mem_cons.mp h with rfl | h
    · rw [UInt16.toNat_ofNat'] at hlow hhigh
      omega
    · rw [List.mem_singleton.mp h, UInt16.toNat_ofNat'] at hlow hhigh
      omega

/-- An index is written in digits. -/
theorem digits_of_index {key : String} (h : Json.arrayIndex (unitsOfString key) ≠ none) :
  ∀ c ∈ key.toList, 48 ≤ c.toNat ∧ c.toNat ≤ 57
  := by
  intro c hc
  unfold Json.arrayIndex at h
  dsimp only at h
  split at h
  · next hvalid =>
      obtain ⟨-, hrange, -⟩ := hvalid
      cases hunits : unitsOf c with
      | nil => apply absurd hunits (unitsOf_ne_nil c)
      | cons u rest =>
          have hmem : u ∈ unitsOf c := by rw [hunits]; apply List.mem_cons_self
          have hall : u ∈ unitsOfString key := List.mem_flatMap.mpr ⟨c, hc, hmem⟩
          obtain ⟨hlow, hhigh⟩ := hrange u.toNat (List.mem_map_of_mem hall)
          apply isDigit_of_unit hmem hlow hhigh
  · apply absurd rfl h

/-- A digit is the small letter of itself and of nothing else. -/
theorem eq_of_toLower_eq {c d : Char} (hd : 48 ≤ d.toNat ∧ d.toNat ≤ 57)
    (h : c.toLower = d.toLower) :
  c = d
  := by
  have htoNat := congr_arg Char.toNat h
  rw [toNat_toLower, toNat_toLower, if_neg (by omega : ¬ (65 ≤ d.toNat ∧ d.toNat ≤ 90))] at htoNat
  apply Char.toNat_inj.mp
  split at htoNat
  · omega
  · apply htoNat

theorem map_toLower_inj {text text' : List Char} (h : ∀ c ∈ text, 48 ≤ c.toNat ∧ c.toNat ≤ 57)
    (heq : text'.map Char.toLower = text.map Char.toLower) :
  text' = text
  := by
  induction text generalizing text' with
  | nil => apply List.map_eq_nil_iff.mp heq
  | cons c text ih =>
      cases text' with
      | nil => cases heq
      | cons c' text' =>
          obtain ⟨hhead, htail⟩ := List.cons.inj heq
          rw [eq_of_toLower_eq (h c (by simp)) hhead,
            ih (fun c hc => h c (List.mem_cons_of_mem _ hc)) htail]

theorem lowerName_eq_index {key key' : String}
    (h : Json.arrayIndex (unitsOfString key) ≠ none) (heq : lowerName key' = lowerName key) :
  key' = key
  := by
  apply String.toList_injective
  apply map_toLower_inj (digits_of_index h)
  apply String.ofList_injective heq

/-- The spellings of a name stand in the order in which they were added. -/
theorem filter_spelled (headers : HeaderMap) (name : String) :
  (objectEntries headers).filter (fun header => lowerName header.1 = name) =
    headers.entries.filter fun header => lowerName header.1 = name
  := by
  apply filter_objectEntries headers (p := fun key => decide (lowerName key = name))
  intro key hkey hindex key' hkey'
  rw [decide_eq_true_eq] at hkey hkey'
  apply lowerName_eq_index hindex (hkey'.trans hkey.symm)

theorem headersOf_eq (headers : HeaderMap) (name : String) :
  headersOf headers name = combine (valuesOf headers.get (spellings name headers))
  := by
  rw [headersOf, filter_spelled, valuesOf, spellings, JsMap.keys, List.filter_map, List.filterMap_map]
  congr 1
  rw [← List.filterMap_eq_map]
  apply List.filterMap_congr
  intro entry hentry
  have hget : headers.get entry.1 = some entry.2 :=
    JsMap.get_eq_some.mpr (List.mem_of_mem_filter hentry)
  simp [hget]

/-! ### Joined values -/

/-- How long the text of some values is, with a separator behind each. -/
def weight (values : List String) : ℕ := (values.map fun value => value.length + 2).sum

theorem length_intercalate (value : String) (values : List String) :
  (", ".intercalate (value :: values)).length + 2 = weight (value :: values)
  := by
  induction values generalizing value with
  | nil => rw [String.intercalate_singleton]; rfl
  | cons value' values ih =>
      rw [String.intercalate_cons_cons, String.length_append, String.length_append]
      have hrest := ih value'
      have hseparator : ", ".length = 2 := by decide
      simp only [weight, List.map_cons, List.sum_cons] at hrest ⊢
      omega

theorem weight_eq_of_combine {values values' : List String}
    (h : combine values = combine values') :
  weight values = weight values'
  := by
  cases values with
  | nil =>
      cases values' with
      | nil => rfl
      | cons value' values' => cases h
  | cons value values =>
      cases values' with
      | nil => cases h
      | cons value' values' =>
          have htext := Option.some.inj h
          rw [← length_intercalate, ← length_intercalate, htext]

/-! ### Layers of headers -/

theorem nodup_spellings (name : String) (headers : HeaderMap) :
  (spellings name headers).Nodup
  := headers.keys_nodup.filter _

theorem mem_allSpellings {name key : String} {layers : List HeaderMap} :
  key ∈ allSpellings name layers ↔ ∃ headers ∈ layers, key ∈ spellings name headers
  := by
  induction layers with
  | nil => simp [allSpellings]
  | cons headers rest ih =>
      rw [allSpellings, addNew, List.mem_append, List.mem_filter, ih, List.exists_mem_cons_iff]
      by_cases hkey : key ∈ spellings name headers
      · simp [hkey]
      · simp [hkey]

theorem nodup_allSpellings (name : String) (layers : List HeaderMap) :
  (allSpellings name layers).Nodup
  := by
  induction layers with
  | nil => apply List.nodup_nil
  | cons headers rest ih =>
      apply List.nodup_append.mpr
      refine ⟨nodup_spellings name headers, ih.filter _, ?_⟩
      rintro key hkey key' hkey' rfl
      have := (List.mem_filter.mp hkey').2
      simp [hkey] at this

/-- What the last of some headers with a key has under it. -/
def lastValue : List HeaderMap → String → Option String
  | [], _ => none
  | headers :: rest, key => (lastValue rest key).or (headers.get key)

theorem lastValue_append (before after : List HeaderMap) (key : String) :
  lastValue (before ++ after) key = (lastValue after key).or (lastValue before key)
  := by
  induction before with
  | nil => rw [List.nil_append, lastValue, Option.or_none]
  | cons headers before ih =>
      rw [List.cons_append, lastValue, lastValue, ih, Option.or_assoc]

theorem lastValue_eq_none {layers : List HeaderMap} {key : String} :
  lastValue layers key = none ↔ ∀ headers ∈ layers, key ∉ headers.keys
  := by
  induction layers with
  | nil => simp [lastValue]
  | cons headers rest ih =>
      rw [lastValue, Option.or_eq_none_iff, ih, List.forall_mem_cons, JsMap.get_eq_none, and_comm]

theorem lastValue_isSome {name key : String} {layers : List HeaderMap}
    (h : key ∈ allSpellings name layers) :
  (lastValue layers key).isSome = true
  := by
  obtain ⟨headers, hheaders, hkey⟩ := mem_allSpellings.mp h
  rw [Option.isSome_iff_ne_none]
  intro hnone
  apply lastValue_eq_none.mp hnone headers hheaders (mem_spellings.mp hkey).1

/-- Where a name occurs last, all that follows is without it. -/
theorem lastWith_eq_some {name : String} {layers : List HeaderMap} {headers : HeaderMap}
    (h : lastWith name layers = some headers) :
  ∃ before after, layers = before ++ headers :: after ∧ spellings name headers ≠ [] ∧
    ∀ headers' ∈ after, spellings name headers' = []
  := by
  obtain ⟨hne, after, before, hsplit, hafter⟩ := List.find?_eq_some_iff_append.mp h
  refine ⟨before.reverse, after.reverse, ?_, of_decide_eq_true hne, ?_⟩
  · rw [← List.reverse_reverse layers, hsplit]
    simp
  · intro headers' hmem
    have := hafter headers' (List.mem_reverse.mp hmem)
    simpa using this

theorem lastWith_eq_none {name : String} {layers : List HeaderMap}
    (h : lastWith name layers = none) :
  ∀ headers ∈ layers, spellings name headers = []
  := by
  intro headers hheaders
  have := List.find?_eq_none.mp h headers (List.mem_reverse.mpr hheaders)
  simpa using this

theorem headersOf_eq_none {name : String} {headers : HeaderMap} (h : spellings name headers = []) :
  headersOf headers name = none
  := by
  rw [headersOf_eq, h]
  rfl

theorem overridden_append (before after : List HeaderMap) (name : String) :
  overridden (before ++ after) name = (overridden after name).or (overridden before name)
  := by
  induction before with
  | nil => rw [List.nil_append, overridden, Option.or_none]
  | cons headers before ih =>
      rw [List.cons_append, overridden, overridden, ih, Option.or_assoc]

theorem overridden_eq_none {name : String} {layers : List HeaderMap}
    (h : ∀ headers ∈ layers, spellings name headers = []) :
  overridden layers name = none
  := by
  induction layers with
  | nil => rfl
  | cons headers rest ih =>
      rw [overridden, ih (fun headers' hmem => h headers' (List.mem_cons_of_mem _ hmem)),
        headersOf_eq_none (h headers List.mem_cons_self)]
      rfl

theorem headersOf_isSome {name : String} {headers : HeaderMap} (h : spellings name headers ≠ []) :
  (headersOf headers name).isSome = true
  := by
  rw [headersOf_eq, combine]
  split
  · next hnil =>
      obtain ⟨key, hkey⟩ := List.exists_mem_of_ne_nil _ h
      obtain ⟨value, hvalue⟩ := JsMap.mem_keys.mp (mem_spellings.mp hkey).1
      have hmem : normalizeValue value ∈ valuesOf headers.get (spellings name headers) := by
        apply List.mem_filterMap.mpr
        refine ⟨key, hkey, ?_⟩
        rw [hvalue]
        rfl
      rw [hnil] at hmem
      cases hmem
  · rfl

theorem overridden_eq {name : String} {layers : List HeaderMap} {headers : HeaderMap}
    (h : lastWith name layers = some headers) :
  overridden layers name = headersOf headers name
  := by
  obtain ⟨before, after, rfl, hne, hafter⟩ := lastWith_eq_some h
  rw [overridden_append, overridden, overridden_eq_none hafter, Option.none_or]
  obtain ⟨value, hvalue⟩ := Option.isSome_iff_exists.mp (headersOf_isSome hne)
  rw [hvalue]
  rfl

/-- The last of the headers with a name decide what its spellings there stand for. -/
theorem lastValue_eq {name key : String} {layers : List HeaderMap} {headers : HeaderMap}
    (h : lastWith name layers = some headers) (hkey : key ∈ spellings name headers) :
  lastValue layers key = headers.get key
  := by
  obtain ⟨before, after, rfl, -, hafter⟩ := lastWith_eq_some h
  obtain ⟨hmem, hname⟩ := mem_spellings.mp hkey
  have hnone : lastValue after key = none := by
    apply lastValue_eq_none.mpr
    intro headers' hheaders' hmem'
    have hspelled : key ∈ spellings name headers' := mem_spellings.mpr ⟨hmem', hname⟩
    rw [hafter headers' hheaders'] at hspelled
    cases hspelled
  obtain ⟨value, hvalue⟩ := JsMap.mem_keys.mp hmem
  rw [lastValue_append, lastValue, hnone, Option.none_or, hvalue]
  rfl

/-! ### Layers in one object -/

theorem valuesOf_congr {lookup lookup' : String → Option String} {keys : List String}
    (h : ∀ key ∈ keys, lookup key = lookup' key) :
  valuesOf lookup keys = valuesOf lookup' keys
  := by
  apply List.filterMap_congr
  intro key hkey
  rw [h key hkey]

theorem weight_perm {values values' : List String} (h : values.Perm values') :
  weight values = weight values'
  := (h.map _).sum_nat

theorem weight_append (values values' : List String) :
  weight (values ++ values') = weight values + weight values'
  := by
  rw [weight, List.map_append, List.sum_append]
  rfl

theorem eq_nil_of_weight (lookup : String → Option String) {keys : List String}
    (hsome : ∀ key ∈ keys, (lookup key).isSome = true) (h : weight (valuesOf lookup keys) = 0) :
  keys = []
  := by
  cases keys with
  | nil => rfl
  | cons key keys =>
      obtain ⟨value, hvalue⟩ := Option.isSome_iff_exists.mp (hsome key List.mem_cons_self)
      rw [valuesOf, List.filterMap_cons, hvalue, Option.map_some] at h
      simp only [weight, List.map_cons, List.sum_cons] at h
      omega

theorem valuesOf_append (lookup : String → Option String) (keys keys' : List String) :
  valuesOf lookup (keys ++ keys') = valuesOf lookup keys ++ valuesOf lookup keys'
  := List.filterMap_append

/-- All spellings are those of one object and the others. -/
theorem perm_spellings {name : String} {layers : List HeaderMap} {headers : HeaderMap}
    (h : lastWith name layers = some headers) :
  (allSpellings name layers).Perm (spellings name headers ++
    (allSpellings name layers).filter fun key => key ∉ headers.keys)
  := by
  obtain ⟨before, after, hlayers, -⟩ := lastWith_eq_some h
  have hsplit := List.filter_append_perm (fun key => decide (key ∈ headers.keys))
    (allSpellings name layers)
  apply hsplit.symm.trans
  have hspelled : ((allSpellings name layers).filter fun key => decide (key ∈ headers.keys)).Perm
      (spellings name headers) := by
    apply (List.perm_ext_iff_of_nodup ((nodup_allSpellings name layers).filter _)
      (nodup_spellings name headers)).mpr
    intro key
    rw [List.mem_filter, decide_eq_true_eq, mem_spellings, mem_allSpellings]
    constructor
    · rintro ⟨⟨headers', -, hkey⟩, hmem⟩
      exact ⟨hmem, (mem_spellings.mp hkey).2⟩
    · rintro ⟨hmem, hname⟩
      refine ⟨⟨headers, ?_, mem_spellings.mpr ⟨hmem, hname⟩⟩, hmem⟩
      rw [hlayers]
      simp
  simp only [decide_not] at *
  apply hspelled.append_right

/-- An object into which some headers have been written one after the other sends what overrides
all else, for a name that is settled and for no other one. -/
theorem headersOf_layers {total : HeaderMap} {layers : List HeaderMap} {name : String}
    (hspellings : spellings name total = allSpellings name layers)
    (hget : ∀ key, total.get key = lastValue layers key) :
  headersOf total name = overridden layers name ↔ Settled name layers
  := by
  have htotal : headersOf total name =
      combine (valuesOf (lastValue layers) (allSpellings name layers)) := by
    rw [headersOf_eq, hspellings, valuesOf_congr fun key _ => hget key]
  cases hlast : lastWith name layers with
  | none =>
      have hnone := lastWith_eq_none hlast
      have hnil : allSpellings name layers = [] := by
        apply List.eq_nil_iff_forall_not_mem.mpr
        intro key hkey
        obtain ⟨headers, hheaders, hmem⟩ := mem_allSpellings.mp hkey
        rw [hnone headers hheaders] at hmem
        cases hmem
      rw [htotal, hnil, overridden_eq_none hnone, Settled, hlast]
      simp [valuesOf, combine]
  | some headers =>
      have hvalues : valuesOf (lastValue layers) (spellings name headers) =
          valuesOf headers.get (spellings name headers) :=
        valuesOf_congr fun key hkey => lastValue_eq hlast hkey
      have hsettled : Settled name layers ↔ (∀ key ∈ allSpellings name layers, key ∈ headers.keys) ∧
          combine (valuesOf headers.get (allSpellings name layers)) = headersOf headers name := by
        rw [Settled, hlast]
        simp
      have hspelled : ∀ key ∈ allSpellings name layers, key ∈ headers.keys →
          key ∈ spellings name headers := by
        intro key hkey hmem
        obtain ⟨headers', -, hkey'⟩ := mem_allSpellings.mp hkey
        apply mem_spellings.mpr ⟨hmem, (mem_spellings.mp hkey').2⟩
      have hagree : (∀ key ∈ allSpellings name layers, key ∈ headers.keys) →
          valuesOf (lastValue layers) (allSpellings name layers) =
            valuesOf headers.get (allSpellings name layers) := by
        intro hall
        apply valuesOf_congr
        intro key hkey
        apply lastValue_eq hlast (hspelled key hkey (hall key hkey))
      rw [htotal, overridden_eq hlast, hsettled]
      constructor
      · intro h
        have hrest : (allSpellings name layers).filter (fun key => key ∉ headers.keys) = [] := by
          apply eq_nil_of_weight (lastValue layers)
          · intro key hkey
            apply lastValue_isSome (List.mem_of_mem_filter hkey)
          · rw [headersOf_eq, ← hvalues] at h
            have hweight := weight_eq_of_combine h
            have hperm : (valuesOf (lastValue layers) (allSpellings name layers)).Perm
                (valuesOf (lastValue layers) (spellings name headers ++
                  (allSpellings name layers).filter fun key => key ∉ headers.keys)) :=
              (perm_spellings hlast).filterMap _
            rw [weight_perm hperm, valuesOf_append, weight_append] at hweight
            omega
        have hall : ∀ key ∈ allSpellings name layers, key ∈ headers.keys := by
          intro key hkey
          by_contra hnot
          have hmem : key ∈ (allSpellings name layers).filter fun key => key ∉ headers.keys := by
            apply List.mem_filter.mpr ⟨hkey, by simpa using hnot⟩
          rw [hrest] at hmem
          cases hmem
        use hall
        rw [← hagree hall, h]
      · rintro ⟨hall, hcombine⟩
        rw [hagree hall, hcombine]

/-! ### The merged object -/

/-- What a request for a catalog is to be sent with, each time overriding what stands before it:
what all requests accept, the headers of the provider, those that are configured for the catalog,
and the tag of the cache. -/
def headerLayers (providerHeaders modelsInfoHeaders : Option HeaderMap) (etag : Option String) :
    List HeaderMap :=
  [acceptHeaders, providerHeaders.getD .empty, modelsInfoHeaders.getD .empty,
    conditionalHeaders etag]

theorem addNew_nil (names : List String) :
  addNew names [] = names
  := by rw [addNew, List.filter_nil, List.append_nil]

theorem nil_addNew (names : List String) :
  addNew [] names = names
  := by simp [addNew]

theorem addNew_assoc (names names' names'' : List String) :
  addNew (addNew names names') names'' = addNew names (addNew names' names'')
  := by
  simp only [addNew, List.filter_append, List.filter_filter, List.append_assoc]
  congr 2
  apply List.filter_congr
  intro name hname
  by_cases h : name ∈ names
  · simp [h]
  · simp [h]

theorem spellings_empty (name : String) :
  spellings name .empty = []
  := rfl

theorem spellings_spread (name : String) (headers headers' : HeaderMap) :
  spellings name (headers.spread headers') =
    addNew (spellings name headers) (spellings name headers')
  := by
  have hnames : ((objectEntries headers').map Prod.fst).filter (fun key => lowerName key = name) =
      spellings name headers' := by
    rw [spellings, JsMap.keys, List.filter_map, List.filter_map]
    congr 1
    apply filter_spelled
  rw [addNew, ← hnames, spellings, spellings, JsMap.keys_spread, List.filter_append,
    List.filter_filter, List.filter_filter]
  congr 1
  apply List.filter_congr
  intro key hkey
  by_cases hname : lowerName key = name
  · simp [hname]
  · simp [hname]

theorem spread_empty (headers : HeaderMap) :
  headers.spread .empty = headers
  := rfl

theorem getD_buildFetchHeaders (modelsInfoHeaders providerHeaders : Option HeaderMap) :
  (buildFetchHeaders modelsInfoHeaders providerHeaders).getD .empty =
    (JsMap.empty.spread (providerHeaders.getD .empty)).spread (modelsInfoHeaders.getD .empty)
  := by
  rw [buildFetchHeaders]
  split
  · next h =>
      rw [Option.isNone_iff_eq_none.mp h.1, Option.isNone_iff_eq_none.mp h.2]
      rfl
  · rfl

theorem fetchHeaders_eq (headers : Option HeaderMap) (etag : Option String) :
  fetchHeaders headers etag =
    (acceptHeaders.spread (headers.getD .empty)).spread (conditionalHeaders etag)
  := by
  rw [fetchHeaders, conditionalHeaders]
  cases nonEmpty etag with
  | none => rfl
  | some etag =>
      have hentries : objectEntries (JsMap.empty.set "if-none-match" etag) =
          [("if-none-match", etag)] := by
        apply List.perm_singleton.mp (objectEntries_perm _)
      simp only [JsMap.spread, hentries]
      rfl

theorem get_fetchHeaders (providerHeaders modelsInfoHeaders : Option HeaderMap)
    (etag : Option String) (key : String) :
  (fetchHeaders (buildFetchHeaders modelsInfoHeaders providerHeaders) etag).get key =
    lastValue (headerLayers providerHeaders modelsInfoHeaders etag) key
  := by
  rw [fetchHeaders_eq, getD_buildFetchHeaders]
  simp only [JsMap.get_spread, JsMap.get_empty, headerLayers, lastValue, Option.none_or,
    Option.or_none, Option.or_assoc]

theorem spellings_fetchHeaders (providerHeaders modelsInfoHeaders : Option HeaderMap)
    (etag : Option String) (name : String) :
  spellings name (fetchHeaders (buildFetchHeaders modelsInfoHeaders providerHeaders) etag) =
    allSpellings name (headerLayers providerHeaders modelsInfoHeaders etag)
  := by
  rw [fetchHeaders_eq, getD_buildFetchHeaders]
  simp only [spellings_spread, spellings_empty, headerLayers, allSpellings, addNew_nil, nil_addNew,
    addNew_assoc]

/-- The headers of a request for a catalog are those of the provider, overridden by those that are
configured for the catalog, as far as all names are settled. -/
theorem catalogHeaders_iff (providerHeaders modelsInfoHeaders : Option HeaderMap)
    (etag : Option String) :
  catalogHeaders providerHeaders modelsInfoHeaders etag =
      overridden (headerLayers providerHeaders modelsInfoHeaders etag) ↔
    ∀ name, Settled name (headerLayers providerHeaders modelsInfoHeaders etag)
  := by
  rw [funext_iff]
  apply forall_congr'
  intro name
  apply headersOf_layers
  · apply spellings_fetchHeaders
  · apply get_fetchHeaders

/-- A token under a name in capitals does not replace the one of the provider: both are sent. -/
theorem two_credentials :
  ¬ catalogHeaders (asHeaderMap (.object [("authorization", .string "Bearer provider")]))
      (asHeaderMap (.object [("Authorization", .string "Bearer catalog")])) none =
    overridden (headerLayers
      (asHeaderMap (.object [("authorization", .string "Bearer provider")]))
      (asHeaderMap (.object [("Authorization", .string "Bearer catalog")])) none)
  := by
  intro h
  have hvalue := congr_fun h "authorization"
  revert hvalue
  decide +kernel

end ModelsInfo
