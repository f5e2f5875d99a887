import OpencodeToolbelt.Data.Rereading
import OpencodeToolbelt.OAuth2.Recording

/-!
# Rebuilding the runtime

The runtime, its signature and the managed providers belong together between the calls of the hook,
unless `initialize` throws for a runtime that has taken the place of another one, or calls disturb
each other.
-/

namespace OAuth2

open ProviderSync

namespace Plugin

/-! ### Runs -/

/-- The runtime, its signature and the managed providers belong together in every run in which the
calls of the hook go on undisturbed. -/
theorem sound_of_undisturbed (options : FactoryOptions) (before : History) (s : Plugin)
    (h : ((system options).restrict (Undisturbed options)).Run initial before s) :
  Sound options before s
  := by
  have hnext : ∀ s event, Kept options s →
      ((system options).restrict (Undisturbed options)).enabled s event →
        Kept options (((system options).restrict (Undisturbed options)).next s event) :=
    fun s event hs henabled => hs.handle henabled.1 henabled.2
  have hs : Kept options s := h.preserves hnext Kept.initial
  constructor
  · intro hrest signature hsignature
    obtain hrecorded | ⟨i, call, -, hcall, -⟩ := hs.recorded
    · obtain ⟨j, servers, hruntime, hbuilt, heq, -⟩ := hrecorded signature hsignature
      use j, servers, hruntime, hbuilt, heq
    · rw [hrest i] at hcall
      cases hcall
  · intro hrest id hid
    cases hsignature : s.state.signature with
    | none =>
        rw [hs.unmanaged hsignature] at hid
        cases hid
    | some signature =>
        obtain hrecorded | ⟨i, call, -, hcall, -⟩ := hs.recorded
        · obtain ⟨j, servers, hruntime, hbuilt, -, hids⟩ := hrecorded signature hsignature
          obtain ⟨e, he, -, hservers⟩ := hs.built j servers hbuilt
          use j, e, hruntime, he
          obtain ⟨server, hserver, rfl⟩ := List.mem_map.mp (hids id hid)
          apply hservers server hserver
        · rw [hrest i] at hcall
          cases hcall
  · intro _ j hbuilt hne
    apply ((hs.dormant j hbuilt hne).quiet hs.coherent).running
  · rintro ⟨t, event⟩ hstep config servers rfl hcollected hservers hreuses
    obtain ⟨ht, -, hundisturbed⟩ := h.preserves_steps hnext Kept.initial _ hstep
    rw [Undisturbed, hcollected] at hundisturbed
    obtain ⟨-, hreuse, -⟩ := hundisturbed
    obtain hrecorded | ⟨i, call, j, hcall, hbuilding, hruntime⟩ := ht.recorded
    · obtain ⟨j, servers', hruntime, hbuilt, hsignature, -⟩ := hrecorded _ hreuses.2
      use j, servers', hruntime, hbuilt, hsignature.symm
    · apply absurd (hbuilding.trans hruntime.symm)
      apply hreuse hreuses call
      apply JsMap.mem_values.mpr ⟨i, hcall⟩

/-! ### A sample -/

/-- A server without any of the other settings. -/
def serverJson (server : ProviderServerConfigInput) : Json ℕ :=
  .object [(unitsOfString "id", .string (unitsOfString server.id)),
    (unitsOfString "name", .string (unitsOfString server.name)),
    (unitsOfString "issuer", .string (unitsOfString server.issuer)),
    (unitsOfString "baseURL", .string (unitsOfString server.baseURL)),
    (unitsOfString "clientId", .string (unitsOfString server.clientId)),
    (unitsOfString "scopes", .array (server.scopes.map fun scope => .string (unitsOfString scope)))]

/-- The id of a server that has been written. -/
def idOf : Json ℕ → Option JsUnits
  | .object members => Json.getString members (unitsOfString "id")
  | _ => none

theorem idOf_serverJson (server : ProviderServerConfigInput) :
  idOf (serverJson server) = some (unitsOfString server.id)
  := by
  have hget : ∀ members : List (JsUnits × Json ℕ), Json.get ((unitsOfString "id",
      .string (unitsOfString server.id)) :: members) (unitsOfString "id") =
        some (.string (unitsOfString server.id)) := by
    intro members
    rw [Json.get_cons, if_pos rfl]
  simp only [serverJson, idOf, Json.getString, hget]

theorem ordered_servers (servers : List ProviderServerConfigInput) :
  Json.Ordered (.array (servers.map serverJson))
  := by
  apply Json.Ordered.array
  intro item hitem
  obtain ⟨server, -, rfl⟩ := List.mem_map.mp hitem
  apply Json.Ordered.object
  · change Json.Enumerated [unitsOfString "id", unitsOfString "name", unitsOfString "issuer",
      unitsOfString "baseURL", unitsOfString "clientId", unitsOfString "scopes"]
    decide +kernel
  · simp only [List.forall_mem_cons, List.not_mem_nil, false_implies, implies_true, and_true]
    refine ⟨.string _, .string _, .string _, .string _, .string _, .array ?_⟩
    intro scope hscope
    obtain ⟨text, -, rfl⟩ := List.mem_map.mp hscope
    apply Json.Ordered.string

/-- `JSON.stringify` of servers without any of the other settings. -/
def sampleStringify (servers : List ProviderServerConfigInput) : String :=
  .ofList (Json.stringify (.array (servers.map serverJson)))

theorem ids_of_sampleStringify (servers servers' : List ProviderServerConfigInput)
    (h : sampleStringify servers = sampleStringify servers') :
  servers.map ProviderServerConfigInput.id = servers'.map ProviderServerConfigInput.id
  := by
  have hparse := congrArg (Json.parse (N := ℕ)) (String.ofList_injective h)
  rw [Json.parse_stringify (ordered_servers _), Json.parse_stringify (ordered_servers _)] at hparse
  have hservers := Json.array.inj (Option.some.inj hparse)
  have hids := congrArg (List.map idOf) hservers
  rw [List.map_map, List.map_map] at hids
  apply List.map_injective_iff.mpr unitsOfString_injective
  apply List.map_injective_iff.mpr (Option.some_injective _)
  rw [List.map_map, List.map_map, List.map_map, List.map_map]
  calc servers.map _
    _ = servers.map (idOf ∘ serverJson) :=
        List.map_congr_left fun server _ => (idOf_serverJson server).symm
    _ = servers'.map (idOf ∘ serverJson) := hids
    _ = servers'.map _ := List.map_congr_left fun server _ => idOf_serverJson server

def sampleOptions : FactoryOptions where
  cacheDirPath := "cache"
  localeLe a b := a ≤ b
  stringify := sampleStringify
  stringify_ids := ids_of_sampleStringify

/-- A configuration that lists one server. -/
def sampleConfig (id : String) : OpenCodeConfig where
  provider := none
  pluginConfig := .object [("oauth2ModelSync", .object [("servers", .array [.object [
    ("id", .string id), ("issuer", .string "https://idp"), ("baseURL", .string "https://gateway"),
    ("clientId", .string "client"), ("scopes", .array [.string "openid"])]])])]

/-- A call of the hook builds a runtime, initialises and starts it. -/
def sampleBuild : List PluginEvent :=
  [.config (sampleConfig "gateway"), .resume 0 true, .resume 0 true, .resume 0 true,
    .resume 0 true, .resume 0 true]

/-- Another call finds the runtime. -/
theorem sound_of_undisturbed_reused :
  ∃ before s, ((system sampleOptions).restrict (Undisturbed sampleOptions)).Run initial before s ∧
    (s.calls.size = 0 ∧ s.state.runtime = some 0 ∧ s.state.managedProviderIds = ["gateway"]) ∧
      Sound sampleOptions before s
  := by
  obtain ⟨before, s, hrun, hs⟩ := EventSystem.exists_run_of_play
    ((system sampleOptions).restrict (Undisturbed sampleOptions))
    (sampleBuild ++ [.config (sampleConfig "gateway"), .resume 1 true]) initial
    (fun s => s.calls.size = 0 ∧ s.state.runtime = some 0 ∧
      s.state.managedProviderIds = ["gateway"]) (by decide +kernel)
  use before, s, hrun, of_decide_eq_true hs
  apply sound_of_undisturbed sampleOptions before s hrun

/-- The cache of another runtime cannot be made ready, which leaves that runtime with the signature
of the one before. -/
theorem unsound_after_throwing :
  ¬ ∀ options before s, (system options).Run initial before s → Sound options before s
  := by
  intro h
  obtain ⟨before, s, hrun, hs⟩ := EventSystem.exists_run_of_play (system sampleOptions)
    (sampleBuild ++ [.config (sampleConfig "other"), .resume 1 false]) initial
    (fun s => s.calls.keys = [] ∧ s.state.signature.any fun signature =>
      s.state.runtime.any fun j => (s.built.get j).all fun servers =>
        signature ≠ sampleOptions.runtimeSignature servers) (by decide +kernel)
  obtain ⟨hkeys, hsignature⟩ := of_decide_eq_true hs
  have hrest : s.AtRest := by
    intro i
    rw [JsMap.get_eq_none, hkeys]
    apply List.not_mem_nil
  obtain ⟨signature, hsome, hruntime⟩ := (Option.any_eq_true _ _).mp hsignature
  obtain ⟨j, servers, hj, hbuilt, heq⟩ :=
    (h sampleOptions before s hrun).signature hrest signature hsome
  rw [hj, Option.any_some, hbuilt, Option.all_some] at hruntime
  apply of_decide_eq_true hruntime heq

end Plugin

end OAuth2
