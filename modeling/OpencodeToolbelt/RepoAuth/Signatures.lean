import Mathlib.Data.Rat.Encodable
import Mathlib.Logic.Equiv.List
import OpencodeToolbelt.RepoAuth.Providers

/-!
# Signatures of identity providers

What a signature is made of is a value of JSON where the configuration is, and it determines the
identity provider.
-/

/-- A value of JSON. -/
inductive JsValue.IsJson : JsValue → Prop where
  | null : IsJson .null
  | bool (b : Bool) : IsJson (.bool b)
  | number (n : ℚ) : IsJson (.number n)
  | string (s : String) : IsJson (.string s)
  | array {items : List JsValue} : (∀ item ∈ items, IsJson item) → IsJson (.array items)
  | object {members : JsObject} : (∀ member ∈ members, IsJson member.2) → IsJson (.object members)

/-- The options of the providers are values of JSON. -/
def OpenCodeConfig.IsJson (config : OpenCodeConfig) : Prop :=
  ∀ id provider options, config.providers.get id = some provider →
    provider.options = some options → (JsValue.object options).IsJson

namespace RepoAuth

open OpenCodeConfig (flowName)

/-! ### Values of JSON -/

theorem isJson_get {object : JsObject} (h : (JsValue.object object).IsJson) (key : String) :
  object.get key = .undefined ∨ (object.get key).IsJson
  := by
  rw [JsObject.get]
  cases hlookup : object.lookup key with
  | none => exact .inl rfl
  | some value =>
      right
      cases h with
      | object hmembers =>
          rw [List.lookup_eq_findSome?] at hlookup
          obtain ⟨member, hmem, hvalue⟩ := List.exists_of_findSome?_eq_some hlookup
          split at hvalue
          · obtain rfl := Option.some.inj hvalue
            apply hmembers member hmem
          · cases hvalue

theorem isJson_asRecord {value : JsValue} {object : JsObject}
    (h : value = .undefined ∨ value.IsJson) (hrecord : asRecord value = some object) :
  (JsValue.object object).IsJson
  := by
  cases value with
  | object members =>
      cases hrecord
      apply h.resolve_left
      intro hundefined
      cases hundefined
  | _ => cases hrecord

/-- What is read for an identity provider without being looked at, and its id. -/
theorem readAuth_eq {raw : JsObject} {source issuer clientId : String} {scopes : List String}
    {auth : AuthServerConfigInput} (h : readAuth raw source issuer clientId scopes = .ok auth) :
  auth.id = REPO_AUTH_META_KEY ∧ auth.subjectTokenSource = raw.get "subjectTokenSource"
  := by
  simp only [readAuth, bind, Except.bind] at h
  split at h
  · cases h
  · split at h
    · cases h
    · split at h
      · cases h
      · split at h
        · cases h
        · cases h
          exact ⟨rfl, rfl⟩

theorem parsed_of_optedIn {providerOptions : Option JsObject} {parsed : RepoAuthConfig}
    (h : parseRepoAuthOptions providerOptions = .ok (.optedIn parsed)) :
  ∃ raw, repoAuthBlock providerOptions = some raw ∧ parsed.auth.id = REPO_AUTH_META_KEY ∧
    parsed.auth.subjectTokenSource = raw.get "subjectTokenSource"
  := by
  rw [parseRepoAuthOptions] at h
  split at h
  · cases h
  · next raw hraw =>
      split at h
      · cases h
      · dsimp only at h
        split at h
        · next projectId _ issuer clientId scopes _ _ _ =>
            use raw, hraw
            cases hauth : readAuth raw "provider.options.meta.repoAuth" issuer clientId scopes with
            | error e =>
                rw [hauth] at h
                cases h
            | ok auth =>
                rw [hauth] at h
                cases h
                apply readAuth_eq hauth
        · cases h

/-- The source of a subject token is a value of JSON where the options are. -/
theorem isJson_subjectTokenSource {config : OpenCodeConfig} (hjson : config.IsJson) {id : String}
    {provider : OpenCodeProviderConfig} (hget : config.providers.get id = some provider)
    {parsed : RepoAuthConfig}
    (hparsed : parseRepoAuthOptions provider.options = .ok (.optedIn parsed)) :
  parsed.auth.subjectTokenSource = .undefined ∨ parsed.auth.subjectTokenSource.IsJson
  := by
  obtain ⟨raw, hraw, -, hsource⟩ := parsed_of_optedIn hparsed
  rw [hsource]
  apply isJson_get
  obtain ⟨options, hoptions, hblock⟩ := Option.bind_eq_some_iff.mp hraw
  obtain ⟨metaOptions, hmeta, hrecord⟩ := Option.bind_eq_some_iff.mp hblock
  have houter := isJson_asRecord (isJson_get (hjson id provider options hget hoptions) "meta") hmeta
  apply isJson_asRecord (isJson_get houter REPO_AUTH_META_KEY) hrecord

/-! ### Signatures -/

theorem ofOption_injective {α : Type} {f : α → JsValue} (hf : ∀ a b, f a = f b → a = b)
    (hdefined : ∀ a, isDefined (f a) = true) {x y : Option α} (h : ofOption f x = ofOption f y) :
  x = y
  := by
  cases x with
  | none =>
      cases y with
      | none => rfl
      | some b =>
          have hb := hdefined b
          rw [ofOption, ofOption, Option.elim_none, Option.elim_some] at h
          rw [← h] at hb
          cases hb
  | some a =>
      cases y with
      | none =>
          have ha := hdefined a
          rw [ofOption, ofOption, Option.elim_none, Option.elim_some] at h
          rw [h] at ha
          cases ha
      | some b => rw [hf a b h]

/-- An object gives back its members when those that are `undefined` are left out. -/
theorem get_filter_isDefined {members : JsObject} (h : (members.map Prod.fst).Nodup)
    (key : String) :
  JsObject.get (members.filter fun member => isDefined member.2) key = members.get key
  := by
  induction members with
  | nil => rfl
  | cons member members ih =>
      rw [List.map_cons, List.nodup_cons] at h
      have hrest := ih h.2
      rw [JsObject.get, JsObject.get] at hrest ⊢
      rw [JsObject.lookup_cons, List.filter_cons]
      split
      · rw [JsObject.lookup_cons]
        by_cases hkey : key = member.1
        · rw [if_pos hkey, if_pos hkey]
        · rw [if_neg hkey, if_neg hkey, hrest]
      · next hdefined =>
          rw [hrest]
          by_cases hkey : key = member.1
          · -- The member is left out, and there is no other of its key.
            have hnone : List.lookup key members = none := by
              apply List.lookup_eq_none_iff.mpr
              intro other hmem
              apply bne_iff_ne.mpr
              intro heq
              apply h.1
              rw [← hkey, heq]
              apply List.mem_map_of_mem hmem
            rw [if_pos hkey, hnone]
            cases hvalue : member.2 with
            | undefined => rfl
            | _ =>
                rw [hvalue] at hdefined
                apply absurd rfl hdefined
          · rw [if_neg hkey]

theorem nodup_authFields (auth : AuthServerConfigInput) :
  ((authFields auth).map Prod.fst).Nodup
  := by
  simp [authFields]

theorem flowName_injective {flow flow' : OAuthAuthFlow} (h : flowName flow = flowName flow') :
  flow = flow'
  := by
  cases flow <;> cases flow' <;> simp [flowName] at h ⊢

/-- The fields of an identity provider determine it. -/
theorem auth_eq_of_jsonObject {auth auth' : AuthServerConfigInput} (hid : auth.id = auth'.id)
    (h : jsonObject (authFields auth) = jsonObject (authFields auth')) :
  auth = auth'
  := by
  have hget : ∀ key, (authFields auth).get key = (authFields auth').get key := by
    intro key
    rw [← get_filter_isDefined (nodup_authFields auth),
      ← get_filter_isDefined (nodup_authFields auth'), JsValue.object.inj h]
  have htext : ∀ {x y : Option String}, ofOption .string x = ofOption .string y → x = y :=
    ofOption_injective (fun _ _ => JsValue.string.inj) fun _ => rfl
  have hflow := ofOption_injective (f := fun flow => .string (flowName flow))
    (fun _ _ heq => flowName_injective (JsValue.string.inj heq)) (fun _ => rfl) (hget "authFlow")
  have hport := ofOption_injective (f := fun port : ℕ => .number port)
    (fun _ _ heq => Nat.cast_injective (JsValue.number.inj heq)) (fun _ => rfl)
    (hget "redirectPort")
  have hpkce := ofOption_injective (fun _ _ => JsValue.bool.inj) (fun _ => rfl) (hget "pkce")
  have hscopes : auth.scopes = auth'.scopes :=
    List.map_injective_iff.mpr (fun _ _ => JsValue.string.inj) (JsValue.array.inj (hget "scopes"))
  cases auth
  cases auth'
  rw [AuthServerConfigInput.mk.injEq]
  exact ⟨hid, JsValue.string.inj (hget "issuer"), JsValue.string.inj (hget "clientId"),
    htext (hget "clientSecret"), hscopes, htext (hget "authorizationEndpoint"),
    htext (hget "tokenEndpoint"), htext (hget "deviceAuthorizationEndpoint"),
    htext (hget "jwksUri"), hport, hflow, hpkce, hget "subjectTokenSource"⟩

/-- What is left of an object of values of JSON is one. -/
theorem isJson_jsonObject {members : JsObject}
    (h : ∀ member ∈ members, member.2 = .undefined ∨ member.2.IsJson) :
  (jsonObject members).IsJson
  := by
  apply JsValue.IsJson.object
  intro member hmem
  obtain ⟨hmem, hdefined⟩ := List.mem_filter.mp hmem
  apply (h member hmem).resolve_left
  intro hundefined
  rw [hundefined] at hdefined
  cases hdefined

theorem isJson_ofOption {α : Type} {f : α → JsValue} (hf : ∀ a, (f a).IsJson) (value : Option α) :
  ofOption f value = .undefined ∨ (ofOption f value).IsJson
  := by
  cases value with
  | none => exact .inl rfl
  | some a => exact .inr (hf a)

theorem isJson_authFields {auth : AuthServerConfigInput}
    (h : auth.subjectTokenSource = .undefined ∨ auth.subjectTokenSource.IsJson) :
  ∀ member ∈ authFields auth, member.2 = .undefined ∨ member.2.IsJson
  := by
  have hscopes : (JsValue.array (auth.scopes.map .string)).IsJson := by
    apply JsValue.IsJson.array
    intro item hitem
    obtain ⟨scope, -, rfl⟩ := List.mem_map.mp hitem
    apply JsValue.IsJson.string
  simp only [authFields, List.forall_mem_cons, List.not_mem_nil, false_implies, implies_true,
    and_true]
  exact ⟨.inr (.string _), .inr (.string _), isJson_ofOption .string _, .inr hscopes,
    isJson_ofOption .string _, isJson_ofOption .string _, isJson_ofOption .string _,
    isJson_ofOption .string _, isJson_ofOption (fun _ => .number _) _,
    isJson_ofOption (fun _ => .string _) _, isJson_ofOption .bool _, h⟩

theorem isJson_signatureEntry (providerId : String) (entry : ManagedProvider) :
  (signatureEntry providerId entry).IsJson
  := by
  apply JsValue.IsJson.object
  simp only [List.forall_mem_cons, List.not_mem_nil, false_implies, implies_true, and_true]
  exact ⟨.string _, .string _, .string _⟩

end RepoAuth

/-! ### A way of writing values -/

namespace JsValue

/-- The number of a text. -/
def codeText (s : String) : ℕ := Encodable.encode (s.toList.map Char.toNat)

mutual

/-- The number of a value. -/
def code : JsValue → ℕ
  | .undefined => Nat.pair 0 0
  | .null => Nat.pair 1 0
  | .bool b => Nat.pair 2 (Encodable.encode b)
  | .number n => Nat.pair 3 (Encodable.encode n)
  | .nonFinite => Nat.pair 4 0
  | .string s => Nat.pair 5 (codeText s)
  | .array items => Nat.pair 6 (codeItems items)
  | .object members => Nat.pair 7 (codeMembers members)
  | .function _ => Nat.pair 8 0

def codeItems : List JsValue → ℕ
  | [] => 0
  | item :: items => Nat.pair (code item) (codeItems items) + 1

def codeMembers : List (String × JsValue) → ℕ
  | [] => 0
  | (key, value) :: members =>
      Nat.pair (codeText key) (Nat.pair (code value) (codeMembers members)) + 1

end

theorem codeText_injective {s s' : String} (h : codeText s = codeText s') :
  s = s'
  := by
  have htext := Encodable.encode_injective h
  apply String.toList_inj.mp
  apply List.map_injective_iff.mpr _ htext
  intro c c' hc
  apply Char.toNat_inj.mp hc

theorem codeItems_injective {items : List JsValue}
    (ih : ∀ item ∈ items, ∀ item' : JsValue, item'.IsJson → item.code = item'.code → item = item')
    {items' : List JsValue} (hjson : ∀ item' ∈ items', item'.IsJson)
    (h : codeItems items = codeItems items') :
  items = items'
  := by
  induction items generalizing items' with
  | nil =>
      cases items' with
      | nil => rfl
      | cons item' items' =>
          rw [codeItems, codeItems] at h
          cases h
  | cons item items iht =>
      cases items' with
      | nil =>
          rw [codeItems, codeItems] at h
          cases h
      | cons item' items' =>
          rw [codeItems, codeItems] at h
          obtain ⟨hitem, hitems⟩ := Nat.pair_eq_pair.mp (Nat.succ.inj h)
          rw [List.forall_mem_cons] at ih hjson
          rw [ih.1 item' hjson.1 hitem, iht ih.2 hjson.2 hitems]

theorem codeMembers_injective {members : JsObject}
    (ih : ∀ member ∈ members, ∀ value' : JsValue, value'.IsJson →
      member.2.code = value'.code → member.2 = value')
    {members' : JsObject} (hjson : ∀ member' ∈ members', member'.2.IsJson)
    (h : codeMembers members = codeMembers members') :
  members = members'
  := by
  induction members generalizing members' with
  | nil =>
      cases members' with
      | nil => rfl
      | cons member' members' =>
          rw [codeMembers, codeMembers] at h
          cases h
  | cons member members iht =>
      cases members' with
      | nil =>
          rw [codeMembers, codeMembers] at h
          cases h
      | cons member' members' =>
          rw [codeMembers, codeMembers] at h
          obtain ⟨hkey, hrest⟩ := Nat.pair_eq_pair.mp (Nat.succ.inj h)
          obtain ⟨hvalue, hmembers⟩ := Nat.pair_eq_pair.mp hrest
          rw [List.forall_mem_cons] at ih hjson
          rw [Prod.ext (codeText_injective hkey) (ih.1 member'.2 hjson.1 hvalue),
            iht ih.2 hjson.2 hmembers]

/-- A value of JSON is told by its number. -/
theorem code_injective {value value' : JsValue} (hjson : value.IsJson) (hjson' : value'.IsJson)
    (h : value.code = value'.code) :
  value = value'
  := by
  induction hjson generalizing value' with
  | null =>
      cases hjson' with
      | null => rfl
      | _ =>
          rw [code, code, Nat.pair_eq_pair] at h
          cases h.1
  | bool b =>
      cases hjson' with
      | bool b' =>
          rw [code, code, Nat.pair_eq_pair] at h
          rw [Encodable.encode_injective h.2]
      | _ =>
          rw [code, code, Nat.pair_eq_pair] at h
          cases h.1
  | number n =>
      cases hjson' with
      | number n' =>
          rw [code, code, Nat.pair_eq_pair] at h
          rw [Encodable.encode_injective h.2]
      | _ =>
          rw [code, code, Nat.pair_eq_pair] at h
          cases h.1
  | string s =>
      cases hjson' with
      | string s' =>
          rw [code, code, Nat.pair_eq_pair] at h
          rw [codeText_injective h.2]
      | _ =>
          rw [code, code, Nat.pair_eq_pair] at h
          cases h.1
  | array hitems ih =>
      cases hjson' with
      | array hitems' =>
          rw [code, code, Nat.pair_eq_pair] at h
          rw [codeItems_injective (fun item hmem _ hjson' => ih item hmem hjson') hitems' h.2]
      | _ =>
          rw [code, code, Nat.pair_eq_pair] at h
          cases h.1
  | object hmembers ih =>
      cases hjson' with
      | object hmembers' =>
          rw [code, code, Nat.pair_eq_pair] at h
          rw [codeMembers_injective (fun member hmem _ hjson' => ih member hmem hjson')
            hmembers' h.2]
      | _ =>
          rw [code, code, Nat.pair_eq_pair] at h
          cases h.1

end JsValue
