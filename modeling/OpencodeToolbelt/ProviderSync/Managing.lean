import OpencodeToolbelt.ProviderSync.ManagedProviders

/-!
# What makes a provider managed

A declarative reading of a configuration: which providers it makes a plugin manage, and when it
is refused. The entries that are rewritten on the way do not change that reading.
-/

namespace OpenCodeConfig

/-! ### Fields -/

/-- A field that is left out. -/
def Absent (value : JsValue) : Prop := value = .undefined ∨ value = .null

def IsBoolean (value : JsValue) : Prop := ∃ b, value = .bool b

/-- The optional fields of a server or an extension are what they have to be. -/
structure WellTyped (raw : JsObject) : Prop where
  clientSecret : Absent (raw.get "clientSecret") ∨
    ∃ s, s ≠ "" ∧ raw.get "clientSecret" = .string s
  redirectPort : Absent (raw.get "redirectPort") ∨
    ∃ n : ℚ, (n.den = 1 ∧ 0 < n ∧ n < 65536) ∧ raw.get "redirectPort" = .number n
  authFlow : Absent (raw.get "authFlow") ∨
    ∃ flow, raw.get "authFlow" = .string (flowName flow)
  pkce : Absent (raw.get "pkce") ∨ IsBoolean (raw.get "pkce")
  responseApi : Absent (raw.get "responseApi") ∨ IsBoolean (raw.get "responseApi")

theorem asBoolean_isOk (value : JsValue) (source : String) :
  (asBoolean value source).isOk = true ↔ Absent value ∨ IsBoolean value
  := by
  cases value <;> simp [asBoolean, Absent, IsBoolean, Except.isOk, Except.toBool]

theorem find_authFlows (s : String) :
  (AUTH_FLOWS.find? fun flow => flowName flow = s).isSome ↔ ∃ flow, s = flowName flow
  := by
  rw [List.find?_isSome]
  constructor
  · rintro ⟨flow, -, h⟩
    use flow
    symm
    apply of_decide_eq_true h
  · rintro ⟨flow, rfl⟩
    use flow
    cases flow <;> simp [AUTH_FLOWS]

theorem asAuthFlow_isOk (value : JsValue) (source : String) :
  (asAuthFlow value source).isOk = true ↔
    Absent value ∨ ∃ flow, value = .string (flowName flow)
  := by
  cases value with
  | string s =>
      have hs := find_authFlows s
      simp only [asAuthFlow, Absent, JsValue.string.injEq, reduceCtorEq, or_self, false_or]
      rw [← hs]
      cases AUTH_FLOWS.find? fun flow => flowName flow = s with
      | none => simp [Except.isOk, Except.toBool]
      | some flow => simp [Except.isOk, Except.toBool]
  | _ => simp [asAuthFlow, Absent, Except.isOk, Except.toBool]

theorem asClientSecret_isOk (value : JsValue) (source : String) :
  (asClientSecret value source).isOk = true ↔
    Absent value ∨ ∃ s, s ≠ "" ∧ value = .string s
  := by
  cases value with
  | string s =>
      by_cases hs : s = ""
      · simp [asClientSecret, Absent, hs, Except.isOk, Except.toBool]
      · simp [asClientSecret, Absent, hs, Except.isOk, Except.toBool]
  | _ => simp [asClientSecret, Absent, Except.isOk, Except.toBool]

theorem asRedirectPort_isOk (value : JsValue) (source : String) :
  (asRedirectPort value source).isOk = true ↔
    Absent value ∨ ∃ n : ℚ, (n.den = 1 ∧ 0 < n ∧ n < 65536) ∧ value = .number n
  := by
  cases value with
  | number n =>
      simp only [asRedirectPort, Absent, JsValue.number.injEq, reduceCtorEq, or_self, false_or,
        exists_eq_right']
      split
      · next h => simp [h, Except.isOk, Except.toBool]
      · next h => simp [h, Except.isOk, Except.toBool]
  | _ => simp [asRedirectPort, Absent, Except.isOk, Except.toBool]

/-- A value that has been read, and another read after it. -/
theorem isOk_bind {α β : Type} (x : Except ConfigError α) (f : α → Except ConfigError β)
    (P : Prop) (hf : ∀ a, (f a).isOk = true ↔ P) :
  (x >>= f).isOk = true ↔ x.isOk = true ∧ P
  := by
  cases x with
  | error e => simp [bind, Except.bind, Except.isOk, Except.toBool]
  | ok a => simpa [bind, Except.bind, Except.isOk, Except.toBool] using hf a

theorem readExtension_isOk (raw : JsObject) (source issuer clientId : String)
    (scopes : List String) :
  (readExtension raw source issuer clientId scopes).isOk = true ↔ WellTyped raw
  := by
  have hread : (readExtension raw source issuer clientId scopes).isOk = true ↔
      (asClientSecret (raw.get "clientSecret") source).isOk = true ∧
      (asRedirectPort (raw.get "redirectPort") source).isOk = true ∧
      (asAuthFlow (raw.get "authFlow") source).isOk = true ∧
      (asBoolean (raw.get "pkce") s!"{source}.pkce").isOk = true ∧
      (asBoolean (raw.get "responseApi") s!"{source}.responseApi").isOk = true ∧ True := by
    apply isOk_bind
    intro clientSecret
    apply isOk_bind
    intro redirectPort
    apply isOk_bind
    intro authFlow
    apply isOk_bind
    intro pkce
    apply isOk_bind
    intro responseApi
    exact iff_of_true rfl trivial
  rw [hread, asClientSecret_isOk, asRedirectPort_isOk, asAuthFlow_isOk, asBoolean_isOk,
    asBoolean_isOk]
  constructor
  · rintro ⟨hsecret, hport, hflow, hpkce, hapi, -⟩
    apply WellTyped.mk hsecret hport hflow hpkce hapi
  · rintro ⟨hsecret, hport, hflow, hpkce, hapi⟩
    exact ⟨hsecret, hport, hflow, hpkce, hapi, trivial⟩

/-! ### Servers and extensions -/

/-- The required fields of an extension are there. -/
structure Complete (raw : JsObject) : Prop where
  issuer : (asString (raw.get "issuer")).isSome
  clientId : (asString (raw.get "clientId")).isSome
  scopes : (asStringArray (raw.get "scopes")).isSome

/-- The required fields of a server are there, and it is the one of a provider. -/
structure ServerOf (id : String) (entry : JsObject) : Prop extends Complete entry where
  id : asString (entry.get "id") = some id
  baseURL : (asString (entry.get "baseURL")).isSome

variable {optionKeys : List String} {provider : OpenCodeProviderConfig}

/-- The options of a provider carry an extension that a plugin takes. -/
def Extended (optionKeys : List String) (provider : OpenCodeProviderConfig) : Prop :=
  ∃ raw, rawExtension optionKeys provider = some raw ∧ Complete raw

/-- An extension that a plugin takes is well typed. -/
def SoundExtension (optionKeys : List String) (provider : OpenCodeProviderConfig) : Prop :=
  ∀ raw, rawExtension optionKeys provider = some raw → Complete raw → WellTyped raw

theorem parseOAuthExtension_of_not (h : ¬Extended optionKeys provider) :
  parseOAuthExtension optionKeys provider = .ok none
  := by
  rw [parseOAuthExtension]
  split
  · rfl
  · next raw hraw =>
      split
      · next issuer clientId scopes hissuer hclient hscopes =>
          apply absurd _ h
          use raw, hraw
          apply Complete.mk
          · rw [hissuer, Option.isSome_some]
          · rw [hclient, Option.isSome_some]
          · rw [hscopes, Option.isSome_some]
      · rfl

theorem parseOAuthExtension_of_complete {raw : JsObject}
    (h : rawExtension optionKeys provider = some raw) (hraw : Complete raw) :
  ∃ issuer clientId scopes, parseOAuthExtension optionKeys provider =
    some <$> readExtension raw "provider.options.oauth2" issuer clientId scopes
  := by
  obtain ⟨issuer, hissuer⟩ := Option.isSome_iff_exists.mp hraw.issuer
  obtain ⟨clientId, hclient⟩ := Option.isSome_iff_exists.mp hraw.clientId
  obtain ⟨scopes, hscopes⟩ := Option.isSome_iff_exists.mp hraw.scopes
  use issuer, clientId, scopes
  rw [parseOAuthExtension, h]
  dsimp only
  rw [hissuer, hclient, hscopes]

/-- What a plugin makes of the options of a provider: no extension, an extension it takes, or one
for which it refuses the configuration. -/
theorem parseOAuthExtension_cases (optionKeys : List String)
    (provider : OpenCodeProviderConfig) :
  (¬Extended optionKeys provider ∧ SoundExtension optionKeys provider ∧
      parseOAuthExtension optionKeys provider = .ok none) ∨
    (Extended optionKeys provider ∧ SoundExtension optionKeys provider ∧
      ∃ extension, parseOAuthExtension optionKeys provider = .ok (some extension)) ∨
    (¬SoundExtension optionKeys provider ∧
      ∃ e, parseOAuthExtension optionKeys provider = .error e)
  := by
  by_cases hext : Extended optionKeys provider
  · obtain ⟨raw, hraw, hcomplete⟩ := hext
    obtain ⟨issuer, clientId, scopes, hparse⟩ := parseOAuthExtension_of_complete hraw hcomplete
    have hread := readExtension_isOk raw "provider.options.oauth2" issuer clientId scopes
    right
    cases hresult : readExtension raw "provider.options.oauth2" issuer clientId scopes with
    | ok extension =>
        rw [hresult] at hread
        have hsound : SoundExtension optionKeys provider := by
          intro raw' hraw' _
          obtain rfl := Option.some.inj (hraw'.symm.trans hraw)
          apply hread.mp rfl
        left
        use ⟨raw, hraw, hcomplete⟩, hsound, extension
        rw [hparse, hresult]
        rfl
    | error e =>
        rw [hresult] at hread
        right
        constructor
        · intro hsound
          cases hread.mpr (hsound raw hraw hcomplete)
        · use e
          rw [hparse, hresult]
          rfl
  · left
    use hext
    constructor
    · intro raw hraw hcomplete
      apply absurd ⟨raw, hraw, hcomplete⟩ hext
    · apply parseOAuthExtension_of_not hext

/-- An item of the list of servers stands for a provider. -/
def Lists (rawServer : JsValue) (id : String) : Prop :=
  ∃ entry, asRecord rawServer = some entry ∧ ServerOf id entry

/-- A server that a plugin takes is well typed. -/
def SoundServer (rawServer : JsValue) : Prop :=
  ∀ id entry, asRecord rawServer = some entry → ServerOf id entry → WellTyped entry

theorem parseServer_of_not {rawServer : JsValue} (pluginConfigKey : String) (index : ℕ)
    (h : ∀ id, ¬Lists rawServer id) :
  parseServer pluginConfigKey index rawServer = .ok none
  := by
  rw [parseServer]
  split
  · rfl
  · next entry hentry =>
      split
      · next id issuer baseURL clientId scopes hid hissuer hbase hclient hscopes =>
          apply absurd _ (h id)
          use entry, hentry
          apply ServerOf.mk _ hid
          · rw [hbase, Option.isSome_some]
          · apply Complete.mk
            · rw [hissuer, Option.isSome_some]
            · rw [hclient, Option.isSome_some]
            · rw [hscopes, Option.isSome_some]
      · rfl

theorem parseServer_of_serverOf {rawServer : JsValue} {entry : JsObject} {id : String}
    (pluginConfigKey : String) (index : ℕ) (h : asRecord rawServer = some entry)
    (hentry : ServerOf id entry) :
  ∃ source issuer clientId scopes baseURL, parseServer pluginConfigKey index rawServer =
    readExtension entry source issuer clientId scopes >>= fun extension =>
      pure (some { extension with
        id, name := (asString (entry.get "name")).getD id, baseURL })
  := by
  obtain ⟨issuer, hissuer⟩ := Option.isSome_iff_exists.mp hentry.issuer
  obtain ⟨clientId, hclient⟩ := Option.isSome_iff_exists.mp hentry.clientId
  obtain ⟨scopes, hscopes⟩ := Option.isSome_iff_exists.mp hentry.scopes
  obtain ⟨baseURL, hbase⟩ := Option.isSome_iff_exists.mp hentry.baseURL
  use s!"pluginConfig.{pluginConfigKey}.servers[{index}] (id={id})", issuer, clientId, scopes,
    baseURL
  rw [parseServer, h]
  dsimp only
  rw [hentry.id, hissuer, hbase, hclient, hscopes]

/-- What a plugin makes of an item of the list of servers. -/
theorem parseServer_cases (pluginConfigKey : String) (index : ℕ) (rawServer : JsValue) :
  ((∀ id, ¬Lists rawServer id) ∧ SoundServer rawServer ∧
      parseServer pluginConfigKey index rawServer = .ok none) ∨
    (SoundServer rawServer ∧ ∃ server : ProviderServerConfigInput,
      (∀ id, Lists rawServer id ↔ server.id = id) ∧
      parseServer pluginConfigKey index rawServer = .ok (some server)) ∨
    (¬SoundServer rawServer ∧ ∃ e, parseServer pluginConfigKey index rawServer = .error e)
  := by
  by_cases hlists : ∃ id, Lists rawServer id
  · obtain ⟨id, entry, hrecord, hentry⟩ := hlists
    obtain ⟨source, issuer, clientId, scopes, baseURL, hparse⟩ :=
      parseServer_of_serverOf pluginConfigKey index hrecord hentry
    have hread := readExtension_isOk entry source issuer clientId scopes
    right
    cases hresult : readExtension entry source issuer clientId scopes with
    | ok extension =>
        rw [hresult] at hread hparse
        have hsound : SoundServer rawServer := by
          intro id' entry' hrecord' _
          obtain rfl := Option.some.inj (hrecord'.symm.trans hrecord)
          apply hread.mp rfl
        left
        use hsound, { extension with id, name := (asString (entry.get "name")).getD id, baseURL }
        constructor
        · intro id'
          constructor
          · rintro ⟨entry', hrecord', hentry'⟩
            obtain rfl := Option.some.inj (hrecord'.symm.trans hrecord)
            apply Option.some.inj (hentry.id.symm.trans hentry'.id)
          · rintro rfl
            use entry, hrecord
        · apply hparse
    | error e =>
        rw [hresult] at hread hparse
        right
        constructor
        · intro hsound
          cases hread.mpr (hsound id entry hrecord hentry)
        · use e, hparse
  · left
    have hnone : ∀ id, ¬Lists rawServer id := fun id h => hlists ⟨id, h⟩
    use hnone
    constructor
    · intro id entry hrecord hentry
      apply absurd ⟨entry, hrecord, hentry⟩ (hnone id)
    · apply parseServer_of_not _ _ hnone

/-- The list of servers is read when all of them are sound, and then it yields what it lists. -/
theorem parseServers_cases (pluginConfigKey : String) (index : ℕ) (servers : List JsValue) :
  ((∀ rawServer ∈ servers, SoundServer rawServer) ∧ ∃ parsed,
      (∀ id, id ∈ parsed.map ProviderServerConfigInput.id ↔
        ∃ rawServer ∈ servers, Lists rawServer id) ∧
      parseServers pluginConfigKey index servers = .ok parsed) ∨
    ((¬∀ rawServer ∈ servers, SoundServer rawServer) ∧
      ∃ e, parseServers pluginConfigKey index servers = .error e)
  := by
  induction servers generalizing index with
  | nil =>
      left
      simp [parseServers]
  | cons rawServer servers ih =>
      rw [List.forall_mem_cons]
      obtain ⟨hnone, hsound, hparse⟩ | ⟨hsound, server, hserver, hparse⟩ | ⟨hsound, e, hparse⟩ :=
        parseServer_cases pluginConfigKey index rawServer
      · obtain ⟨hall, parsed, hids, hrest⟩ | ⟨hall, e, hrest⟩ := ih (index + 1)
        · left
          use ⟨hsound, hall⟩, parsed
          constructor
          · intro id
            rw [hids, List.exists_mem_cons_iff, or_iff_right (hnone id)]
          · rw [parseServers, hparse, hrest]
            rfl
        · right
          use fun h => hall h.2, e
          rw [parseServers, hparse, hrest]
          rfl
      · obtain ⟨hall, parsed, hids, hrest⟩ | ⟨hall, e, hrest⟩ := ih (index + 1)
        · left
          use ⟨hsound, hall⟩, server :: parsed
          constructor
          · intro id
            rw [List.map_cons, List.mem_cons, hids, List.exists_mem_cons_iff, hserver, eq_comm]
          · rw [parseServers, hparse, hrest]
            rfl
        · right
          use fun h => hall h.2, e
          rw [parseServers, hparse, hrest]
          rfl
      · right
        use fun h => hsound h.1, e
        rw [parseServers, hparse]
        rfl

/-! ### Rewritten options -/

theorem get_applyResponsesApiOptions (options : JsObject) (responseApi : Option Bool)
    (repair : Option (Option FetchFunction → FetchFunction)) {key : String}
    (hkey : key ≠ "apiKey") (hfetch : key ≠ "fetch") :
  (applyResponsesApiOptions options responseApi repair).get key = options.get key
  := by
  have hstamped : ∀ value, (if (asString (options.get "apiKey")).isSome = true then options
      else options.set "apiKey" value).get key = options.get key := by
    intro value
    split
    · rfl
    · apply JsObject.get_set_of_ne _ hkey
  rw [applyResponsesApiOptions]
  split
  · cases repair with
    | none => apply hstamped
    | some repair =>
        dsimp only
        rw [JsObject.get_set_of_ne _ hfetch]
        apply hstamped
  · split
    · apply JsObject.get_delete_of_ne _ hkey
    · rfl

/-- The options of a provider, rewritten for the base URL of a managed one. -/
def rewritten (provider : Option OpenCodeProviderConfig) (baseURL : String)
    (responseApi : Option Bool) (repair : Option (Option FetchFunction → FetchFunction)) :
    JsObject :=
  let options := (provider.bind OpenCodeProviderConfig.options).getD []
  applyResponsesApiOptions (options.set "baseURL" (.string baseURL)) responseApi repair

theorem get_rewritten (provider : Option OpenCodeProviderConfig) (baseURL : String)
    (responseApi : Option Bool) (repair : Option (Option FetchFunction → FetchFunction))
    {key : String} (hkey : key ∉ ["baseURL", "apiKey", "fetch"]) :
  (rewritten provider baseURL responseApi repair).get key =
    ((provider.bind OpenCodeProviderConfig.options).getD []).get key
  := by
  simp only [List.mem_cons, List.not_mem_nil, or_false, not_or] at hkey
  obtain ⟨hbase, hapi, hfetch⟩ := hkey
  rw [rewritten, get_applyResponsesApiOptions _ _ _ hapi hfetch, JsObject.get_set_of_ne _ hbase]

/-- Keys whose values survive a rewriting. -/
def Kept (optionKeys : List String) : Prop :=
  ∀ key ∈ optionKeys, key ∉ ["baseURL", "apiKey", "fetch"]

theorem rawExtension_rewritten (hkeys : Kept optionKeys)
    (provider : Option OpenCodeProviderConfig) (npm name : Option String) (baseURL : String)
    (responseApi : Option Bool) (repair : Option (Option FetchFunction → FetchFunction)) :
  rawExtension optionKeys ⟨npm, name, some (rewritten provider baseURL responseApi repair)⟩ =
    provider.bind (rawExtension optionKeys)
  := by
  have hget : ∀ key ∈ optionKeys, asRecord ((rewritten provider baseURL responseApi repair).get
      key) = asRecord (((provider.bind OpenCodeProviderConfig.options).getD []).get key) := by
    intro key hkey
    rw [get_rewritten _ _ _ _ (hkeys key hkey)]
  rw [rawExtension, Option.bind_some, ← List.head?_filterMap, List.filterMap_congr hget,
    List.head?_filterMap]
  cases hoptions : provider.bind OpenCodeProviderConfig.options with
  | none =>
      have hnone : provider.bind (rawExtension optionKeys) = none := by
        cases provider with
        | none => rfl
        | some provider =>
            rw [Option.bind_some] at hoptions ⊢
            rw [rawExtension, hoptions, Option.bind_none]
      rw [hnone, List.findSome?_eq_none_iff]
      intro key _
      rfl
  | some options =>
      obtain ⟨provider, rfl, hprovider⟩ := Option.bind_eq_some_iff.mp hoptions
      rw [Option.bind_some, rawExtension, hprovider, Option.bind_some, Option.getD_some]

/-- The extensions in the options of the providers are the same. -/
def SameExtensions (optionKeys : List String)
    (providers providers' : JsMap String OpenCodeProviderConfig) : Prop :=
  ∀ id, (providers'.get id).bind (rawExtension optionKeys) =
    (providers.get id).bind (rawExtension optionKeys)

theorem sameExtensions_set (hkeys : Kept optionKeys)
    (providers : JsMap String OpenCodeProviderConfig) (id : String) (npm name : Option String)
    (baseURL : String) (responseApi : Option Bool)
    (repair : Option (Option FetchFunction → FetchFunction)) :
  SameExtensions optionKeys providers (providers.set id
    ⟨npm, name, some (rewritten (providers.get id) baseURL responseApi repair)⟩)
  := by
  intro id'
  by_cases h : id' = id
  · rw [h, JsMap.get_set_self, Option.bind_some, rawExtension_rewritten hkeys]
  · rw [JsMap.get_set_of_ne _ h]

theorem SameExtensions.trans {providers providers' providers'' : JsMap String OpenCodeProviderConfig}
    (h : SameExtensions optionKeys providers providers')
    (h' : SameExtensions optionKeys providers' providers'') :
  SameExtensions optionKeys providers providers''
  := fun id => (h' id).trans (h id)

/-! ### Collecting -/

variable {options : CollectManagedProvidersOptions}

/-- Every managed provider stands under its id. -/
def Named (c : Collection) : Prop := ∀ id server, c.byId.get id = some server → server.id = id

theorem named_set {c : Collection} (hc : Named c)
    (providers : JsMap String OpenCodeProviderConfig) {id : String}
    {server : ProviderServerConfigInput} (hserver : server.id = id) :
  Named ⟨providers, c.byId.set id server⟩
  := by
  intro id' server' h
  rw [JsMap.get_set] at h
  split at h
  · next heq =>
      rw [← Option.some.inj h, heq, hserver]
  · apply hc id' server' h

theorem addServer_providers (options : CollectManagedProvidersOptions) (c : Collection)
    (server : ProviderServerConfigInput) :
  ∃ npm name, (addServer options c server).providers = c.providers.set server.id
    ⟨npm, name, some (rewritten (c.providers.get server.id) server.baseURL server.responseApi
      options.createResponsesRepairFetch)⟩
  := by
  use some (resolveProviderNpm server.responseApi),
    some ((((c.providers.get server.id).getD ⟨none, none, none⟩).name.bind nonBlank).getD
      server.name)
  rw [addServer, rewritten]
  cases c.providers.get server.id <;> rfl

/-- What entering the servers of the list does. -/
structure Listed (optionKeys : List String) (c : Collection)
    (servers : List ProviderServerConfigInput) (c' : Collection) : Prop where
  same : SameExtensions optionKeys c.providers c'.providers
  others : ∀ id, id ∉ servers.map ProviderServerConfigInput.id →
    c'.providers.get id = c.providers.get id
  byId : ∀ id, c'.byId.has id = true ↔
    c.byId.has id = true ∨ id ∈ servers.map ProviderServerConfigInput.id
  named : Named c → Named c'

theorem listed_servers (hkeys : Kept options.optionKeys)
    (servers : List ProviderServerConfigInput) (c : Collection) :
  Listed options.optionKeys c servers (servers.foldl (addServer options) c)
  := by
  induction servers generalizing c with
  | nil =>
      constructor
      · intro id
        rfl
      · intro id _
        rfl
      · simp
      · apply id
  | cons server servers ih =>
      obtain ⟨npm, name, hproviders⟩ := addServer_providers options c server
      have hrest := ih (addServer options c server)
      rw [List.foldl_cons]
      constructor
      · apply SameExtensions.trans _ hrest.same
        rw [hproviders]
        apply sameExtensions_set hkeys
      · intro id hid
        rw [List.map_cons, List.mem_cons, not_or] at hid
        rw [hrest.others id hid.2, hproviders, JsMap.get_set_of_ne _ hid.1]
      · intro id
        rw [hrest.byId, List.map_cons, List.mem_cons, ← or_assoc]
        apply or_congr_left
        rw [addServer, JsMap.has_set_iff, or_comm]
      · intro hc
        apply hrest.named
        apply named_set hc
        rfl

/-- What entering the providers with extensions does. -/
structure Entered (optionKeys : List String) (c : Collection)
    (entries : List (String × OpenCodeProviderConfig)) (c' : Collection) : Prop where
  byId : ∀ id, c'.byId.has id = true ↔ c.byId.has id = true ∨
    ∃ provider, (id, provider) ∈ entries ∧ Extended optionKeys provider ∧
      (baseUrlOf provider).isSome
  named : Named c → Named c'

theorem Entered.cons_of_not {c c' : Collection} {id : String}
    {provider : OpenCodeProviderConfig} {entries : List (String × OpenCodeProviderConfig)}
    (h : Entered optionKeys c entries c')
    (hnot : ¬(Extended optionKeys provider ∧ (baseUrlOf provider).isSome)) :
  Entered optionKeys c ((id, provider) :: entries) c'
  := by
  constructor
  · intro id'
    rw [h.byId]
    apply or_congr_right
    constructor
    · rintro ⟨provider', hmem, hextended⟩
      use provider', List.mem_cons_of_mem _ hmem
    · rintro ⟨provider', hmem, hextended⟩
      rcases List.mem_cons.mp hmem with heq | hmem
      · obtain ⟨-, rfl⟩ := Prod.mk.inj heq
        apply absurd hextended hnot
      · use provider'
  · apply h.named

theorem Entered.cons_addExtension {c c' : Collection} {id : String}
    {provider : OpenCodeProviderConfig} {entries : List (String × OpenCodeProviderConfig)}
    {extension : ProviderExtension} {baseURL : String}
    (h : Entered optionKeys (addExtension options c id provider extension baseURL) entries c')
    (hext : Extended optionKeys provider) (hbase : (baseUrlOf provider).isSome) :
  Entered optionKeys c ((id, provider) :: entries) c'
  := by
  constructor
  · intro id'
    rw [h.byId, addExtension, JsMap.has_set_iff]
    constructor
    · rintro ((rfl | hhas) | ⟨provider', hmem, hextended⟩)
      · right
        use provider, List.mem_cons_self
      · left
        apply hhas
      · right
        use provider', List.mem_cons_of_mem _ hmem
    · rintro (hhas | ⟨provider', hmem, hextended⟩)
      · left
        right
        apply hhas
      · rcases List.mem_cons.mp hmem with heq | hmem
        · left
          left
          apply (Prod.mk.inj heq).1
        · right
          use provider'
  · intro hc
    apply h.named
    apply named_set hc
    rfl

theorem addExtension_providers (options : CollectManagedProvidersOptions) (c : Collection)
    (id : String) (provider : OpenCodeProviderConfig) (extension : ProviderExtension)
    (baseURL : String) :
  ∃ npm name, (addExtension options c id provider extension baseURL).providers =
    c.providers.set id ⟨npm, name, some (rewritten (some provider) baseURL extension.responseApi
      options.createResponsesRepairFetch)⟩
  := by
  use some (resolveProviderNpm extension.responseApi),
    some ((provider.name.bind nonBlank).getD id)
  rfl

/-- The extensions of the entries still to come are those of the providers. -/
def Faithful (optionKeys : List String) (c : Collection)
    (entries : List (String × OpenCodeProviderConfig)) : Prop :=
  ∀ id provider, (id, provider) ∈ entries →
    (c.providers.get id).bind (rawExtension optionKeys) = rawExtension optionKeys provider

theorem sameExtensions_addExtension (hkeys : Kept options.optionKeys) {c : Collection}
    {entries : List (String × OpenCodeProviderConfig)}
    (h : Faithful options.optionKeys c entries) {id : String} {provider : OpenCodeProviderConfig}
    (hmem : (id, provider) ∈ entries) (extension : ProviderExtension) (baseURL : String) :
  SameExtensions options.optionKeys c.providers
    (addExtension options c id provider extension baseURL).providers
  := by
  obtain ⟨npm, name, hproviders⟩ :=
    addExtension_providers options c id provider extension baseURL
  intro id'
  rw [hproviders]
  by_cases hid : id' = id
  · rw [hid, JsMap.get_set_self, Option.bind_some, rawExtension_rewritten hkeys,
      Option.bind_some, h id provider hmem]
  · rw [JsMap.get_set_of_ne _ hid]

theorem Faithful.of_same {c c' : Collection} {entries : List (String × OpenCodeProviderConfig)}
    (h : Faithful optionKeys c entries)
    (hsame : SameExtensions optionKeys c.providers c'.providers) :
  Faithful optionKeys c' entries
  := by
  intro id provider hmem
  rw [hsame, h id provider hmem]

theorem sameExtensions_addExtensions (hkeys : Kept options.optionKeys)
    (entries : List (String × OpenCodeProviderConfig)) (c : Collection)
    (h : Faithful options.optionKeys c entries) :
  SameExtensions options.optionKeys c.providers (addExtensions options entries c).1.providers
  := by
  induction entries generalizing c with
  | nil =>
      intro id
      rfl
  | cons entry entries ih =>
      obtain ⟨id, provider⟩ := entry
      have htail : Faithful options.optionKeys c entries :=
        fun id' provider' hmem => h id' provider' (List.mem_cons_of_mem _ hmem)
      rw [addExtensions]
      split
      · intro id'
        rfl
      · apply ih c htail
      · next extension _ =>
          split
          · apply ih c htail
          · next baseURL _ =>
              have hsame := sameExtensions_addExtension hkeys h List.mem_cons_self extension
                baseURL
              apply hsame.trans
              apply ih _ (htail.of_same hsame)

/-- The providers are gone through to the end when all extensions are sound, and then they are
entered. -/
theorem addExtensions_cases (options : CollectManagedProvidersOptions)
    (entries : List (String × OpenCodeProviderConfig)) (c : Collection) :
  ((∀ entry ∈ entries, SoundExtension options.optionKeys entry.2) ∧
      (addExtensions options entries c).2 = .ok () ∧
      Entered options.optionKeys c entries (addExtensions options entries c).1) ∨
    ((¬∀ entry ∈ entries, SoundExtension options.optionKeys entry.2) ∧
      ∃ e, (addExtensions options entries c).2 = .error e)
  := by
  induction entries generalizing c with
  | nil =>
      left
      use by simp, rfl
      constructor
      · simp [addExtensions]
      · apply id
  | cons entry entries ih =>
      obtain ⟨id, provider⟩ := entry
      rw [List.forall_mem_cons, addExtensions]
      obtain ⟨hnone, hsound, hparse⟩ | ⟨hext, hsound, extension, hparse⟩ | ⟨hsound, e, hparse⟩ :=
        parseOAuthExtension_cases options.optionKeys provider
      · rw [hparse]
        obtain ⟨hall, hok, hrest⟩ | ⟨hall, herror⟩ := ih c
        · left
          use ⟨hsound, hall⟩, hok
          apply hrest.cons_of_not
          rintro ⟨hext, -⟩
          apply hnone hext
        · right
          use fun h => hall h.2
      · rw [hparse]
        cases hbase : baseUrlOf provider with
        | none =>
            obtain ⟨hall, hok, hrest⟩ | ⟨hall, herror⟩ := ih c
            · left
              use ⟨hsound, hall⟩, hok
              apply hrest.cons_of_not
              rw [hbase]
              rintro ⟨-, hsome⟩
              cases hsome
            · right
              use fun h => hall h.2
        | some baseURL =>
            obtain ⟨hall, hok, hrest⟩ | ⟨hall, herror⟩ :=
              ih (addExtension options c id provider extension baseURL)
            · left
              use ⟨hsound, hall⟩, hok
              apply hrest.cons_addExtension hext
              rw [hbase, Option.isSome_some]
            · right
              use fun h => hall h.2
      · rw [hparse]
        right
        use fun h => hsound h.1, e

/-! ### Managed providers -/

/-- A configuration that is not refused. -/
structure Accepted (config : OpenCodeConfig) (options : CollectManagedProvidersOptions) :
    Prop where
  servers : ∀ rawServer ∈ config.serverList options.pluginConfigKey, SoundServer rawServer
  extensions : ∀ id provider, config.providers.get id = some provider →
    SoundExtension options.optionKeys provider

/-- A configuration makes a plugin manage a provider: it lists a server for it, or the options of
the provider carry an extension and a base URL. -/
def Manages (config : OpenCodeConfig) (options : CollectManagedProvidersOptions) (id : String) :
    Prop :=
  (∃ rawServer ∈ config.serverList options.pluginConfigKey, Lists rawServer id) ∨
    ∃ provider, config.providers.get id = some provider ∧
      Extended options.optionKeys provider ∧ (baseUrlOf provider).isSome

theorem faithful_objectEntries (optionKeys : List String) (c : Collection) :
  Faithful optionKeys c (objectEntries c.providers)
  := by
  intro id provider hmem
  rw [JsMap.get_eq_some.mpr (mem_objectEntries.mp hmem), Option.bind_some]

theorem sameExtensions_collect (hkeys : Kept options.optionKeys) (config : OpenCodeConfig) :
  SameExtensions options.optionKeys config.providers
    (config.collectManagedProviders options).1.providers
  := by
  rw [collectManagedProviders]
  cases config.parsePluginConfigServers options.pluginConfigKey with
  | error e =>
      intro id
      rfl
  | ok servers =>
      apply SameExtensions.trans (listed_servers hkeys servers ⟨config.providers, .empty⟩).same
      apply sameExtensions_addExtensions hkeys _ _ (faithful_objectEntries _ _)

theorem extended_iff {optionKeys : List String}
    {providers : JsMap String OpenCodeProviderConfig} {id : String} :
  (∃ provider, providers.get id = some provider ∧ Extended optionKeys provider) ↔
    ∃ raw, (providers.get id).bind (rawExtension optionKeys) = some raw ∧ Complete raw
  := by
  constructor
  · rintro ⟨provider, hget, raw, hraw, hcomplete⟩
    use raw
    rw [hget, Option.bind_some]
    use hraw
  · rintro ⟨raw, hraw, hcomplete⟩
    obtain ⟨provider, hget, hraw⟩ := Option.bind_eq_some_iff.mp hraw
    use provider, hget, raw

theorem soundExtension_iff {optionKeys : List String}
    {providers : JsMap String OpenCodeProviderConfig} {id : String} :
  (∀ provider, providers.get id = some provider → SoundExtension optionKeys provider) ↔
    ∀ raw, (providers.get id).bind (rawExtension optionKeys) = some raw → Complete raw →
      WellTyped raw
  := by
  constructor
  · intro h raw hraw
    obtain ⟨provider, hget, hraw⟩ := Option.bind_eq_some_iff.mp hraw
    apply h provider hget raw hraw
  · intro h provider hget raw hraw
    apply h raw
    rw [hget, Option.bind_some, hraw]

theorem SameExtensions.extended {providers providers' : JsMap String OpenCodeProviderConfig}
    (h : SameExtensions optionKeys providers providers') (id : String) :
  (∃ provider, providers'.get id = some provider ∧ Extended optionKeys provider) ↔
    ∃ provider, providers.get id = some provider ∧ Extended optionKeys provider
  := by
  rw [extended_iff, extended_iff, h]

theorem SameExtensions.sound {providers providers' : JsMap String OpenCodeProviderConfig}
    (h : SameExtensions optionKeys providers providers') (id : String) :
  (∀ provider, providers'.get id = some provider → SoundExtension optionKeys provider) ↔
    ∀ provider, providers.get id = some provider → SoundExtension optionKeys provider
  := by
  rw [soundExtension_iff, soundExtension_iff, h]

theorem Named.mem_values {c : Collection} (h : Named c) (id : String) :
  id ∈ c.byId.values.map ProviderServerConfigInput.id ↔ c.byId.has id = true
  := by
  rw [JsMap.has_eq_true, JsMap.mem_keys, List.mem_map]
  constructor
  · rintro ⟨server, hserver, rfl⟩
    obtain ⟨id, hget⟩ := JsMap.mem_values.mp hserver
    use server
    rw [h id server hget, hget]
  · rintro ⟨server, hget⟩
    use server, JsMap.mem_values.mpr ⟨id, hget⟩, h id server hget

theorem named_empty (providers : JsMap String OpenCodeProviderConfig) :
  Named ⟨providers, .empty⟩
  := by
  intro id server h
  cases h

/-- The servers of the list and the providers with an extension are managed, and no others. -/
theorem managed_iff {config : OpenCodeConfig} {parsed : List ProviderServerConfigInput}
    {c c' : Collection} (hparsed : ∀ id, id ∈ parsed.map ProviderServerConfigInput.id ↔
      ∃ rawServer ∈ config.serverList options.pluginConfigKey, Lists rawServer id)
    (hlisted : Listed options.optionKeys ⟨config.providers, .empty⟩ parsed c)
    (hentered : Entered options.optionKeys c (objectEntries c.providers) c') (id : String) :
  id ∈ c'.byId.values.map ProviderServerConfigInput.id ↔ config.Manages options id
  := by
  have hnamed := hentered.named (hlisted.named (named_empty _))
  have hempty : ¬(JsMap.empty : JsMap String ProviderServerConfigInput).has id = true := by
    rw [JsMap.has, JsMap.get_empty]
    exact Bool.false_ne_true
  rw [hnamed.mem_values, hentered.byId, hlisted.byId, or_iff_right hempty, hparsed, Manages]
  by_cases hlist : ∃ rawServer ∈ config.serverList options.pluginConfigKey, Lists rawServer id
  · rw [iff_true_right (.inl hlist)]
    left
    apply hlist
  · rw [or_iff_right hlist, or_iff_right hlist]
    have hget := hlisted.others id (mt (hparsed id).mp hlist)
    constructor
    · rintro ⟨provider, hmem, hextended⟩
      use provider, hget ▸ JsMap.get_eq_some.mpr (mem_objectEntries.mp hmem)
    · rintro ⟨provider, hprovider, hextended⟩
      use provider, mem_objectEntries.mpr (JsMap.get_eq_some.mp (hget ▸ hprovider))

theorem accepted_iff {config : OpenCodeConfig}
    (hservers : ∀ rawServer ∈ config.serverList options.pluginConfigKey, SoundServer rawServer)
    {providers : JsMap String OpenCodeProviderConfig}
    (hsame : SameExtensions options.optionKeys config.providers providers) :
  config.Accepted options ↔
    ∀ entry ∈ objectEntries providers, SoundExtension options.optionKeys entry.2
  := by
  constructor
  · intro h entry hmem
    have hget := JsMap.get_eq_some.mpr (mem_objectEntries.mp hmem)
    apply (hsame.sound entry.1).mpr (h.extensions entry.1) entry.2 hget
  · intro h
    apply Accepted.mk hservers
    intro id
    apply (hsame.sound id).mp
    intro provider hget
    apply h (id, provider) (mem_objectEntries.mpr (JsMap.get_eq_some.mp hget))

/-- A plugin manages the providers that an accepted configuration makes it manage. -/
theorem mem_collectManagedProviders (hkeys : Kept options.optionKeys) (config : OpenCodeConfig)
    (id : String) :
  (∃ servers, (config.collectManagedProviders options).2 = .ok servers ∧
      id ∈ servers.map ProviderServerConfigInput.id) ↔
    config.Accepted options ∧ config.Manages options id
  := by
  rw [collectManagedProviders, parsePluginConfigServers]
  obtain ⟨hall, parsed, hids, hparse⟩ | ⟨hall, e, hparse⟩ :=
    parseServers_cases options.pluginConfigKey 0 (config.serverList options.pluginConfigKey)
  · have hlisted : Listed options.optionKeys ⟨config.providers, .empty⟩ parsed
        (enterServers options config.providers parsed) := listed_servers hkeys parsed _
    rw [hparse, accepted_iff hall hlisted.same]
    obtain ⟨hext, hok, hentered⟩ | ⟨hext, e, herror⟩ := addExtensions_cases options
      (objectEntries (enterServers options config.providers parsed).providers)
      (enterServers options config.providers parsed)
    · rw [← managed_iff hids hlisted hentered id, and_iff_right hext]
      dsimp only [enterExtensions]
      rw [hok]
      constructor
      · rintro ⟨servers, h, hmem⟩
        rw [← Except.ok.inj h] at hmem
        apply hmem
      · intro hmem
        refine ⟨_, rfl, hmem⟩
    · dsimp only [enterExtensions]
      rw [herror]
      constructor
      · rintro ⟨servers, h, -⟩
        cases h
      · rintro ⟨h, -⟩
        apply absurd h hext
  · rw [hparse]
    constructor
    · rintro ⟨servers, h, -⟩
      cases h
    · rintro ⟨h, -⟩
      apply absurd h.servers hall

end OpenCodeConfig
