import OpencodeToolbelt.OAuth2.ConfigHook
import OpencodeToolbelt.ProviderSync.Building

/-!
# What the plugin records

A call of the hook builds a runtime and records its signature when the runtime has been started.
Calls may overlap as long as none of them goes on with a runtime that another one has built.
-/

namespace OAuth2

open ProviderSync
open RepoAuth (ensureString validateAuthConfig)

/-! ### Validation -/

theorem bind_eq_ok {α β E : Type} {x : Except E α} {f : α → Except E β} {b : β}
    (h : x >>= f = .ok b) :
  ∃ a, x = .ok a ∧ f a = .ok b
  := by
  cases x with
  | error e => cases h
  | ok a =>
      use a, rfl
      apply h

theorem id_of_validateAuthConfig {input : RepoAuth.AuthServerConfigInput}
    {auth : RepoAuth.ValidatedAuthConfig} (h : validateAuthConfig input = .ok auth) :
  auth.id = trim input.id
  := by
  rw [validateAuthConfig] at h
  obtain ⟨id, hid, h⟩ := bind_eq_ok h
  obtain ⟨issuer, -, h⟩ := bind_eq_ok h
  obtain ⟨clientId, -, h⟩ := bind_eq_ok h
  obtain ⟨scopes, -, h⟩ := bind_eq_ok h
  obtain ⟨redirectPort, -, h⟩ := bind_eq_ok h
  obtain ⟨subjectTokenSource, -, h⟩ := bind_eq_ok h
  split at h
  · cases h
  · obtain ⟨-, -, h⟩ := bind_eq_ok h
    cases h
    rw [ensureString, nonBlank] at hid
    split at hid
    · cases hid
    · next hsome =>
        cases hid
        split at hsome
        · cases hsome
        · apply (Option.some.inj hsome).symm

theorem id_of_normalizeServerConfig {input : ProviderServerConfigInput}
    {server : ProviderServerConfig} (h : normalizeServerConfig input = .ok server) :
  server.id = trim input.id
  := by
  rw [normalizeServerConfig] at h
  split at h
  · cases h
  · next auth hauth =>
      split at h
      · cases h
      · cases h
        apply id_of_validateAuthConfig hauth

theorem mem_of_mapM {α β E : Type} {f : α → Except E β} {l : List α} {l' : List β}
    (h : l.mapM f = .ok l') :
  ∀ a ∈ l, ∃ b ∈ l', f a = .ok b
  := by
  induction l generalizing l' with
  | nil =>
      intro a hmem
      cases hmem
  | cons first l ih =>
      rw [List.mapM_cons] at h
      simp only [bind, Except.bind] at h
      split at h
      · cases h
      · next b hfirst =>
          split at h
          · cases h
          · next l'' hrest =>
              cases h
              intro a hmem
              obtain rfl | hmem := List.mem_cons.mp hmem
              · use b, List.mem_cons_self
              · obtain ⟨b', hb', hf⟩ := ih hrest a hmem
                use b', List.mem_cons_of_mem _ hb'

theorem nodup_of_duplicateId {ids : List String} {servers : List ProviderServerConfig}
    (h : duplicateId ids servers = none) :
  (servers.map ProviderServerConfig.id).Nodup ∧ ∀ server ∈ servers, server.id ∉ ids
  := by
  induction servers generalizing ids with
  | nil => simp
  | cons server rest ih =>
      rw [duplicateId] at h
      split at h
      · cases h
      · next hnot =>
          obtain ⟨hnodup, hrest⟩ := ih h
          constructor
          · rw [List.map_cons, List.nodup_cons]
            apply And.intro _ hnodup
            intro hmem
            obtain ⟨server', hserver', heq⟩ := List.mem_map.mp hmem
            apply hrest server' hserver'
            rw [heq]
            apply List.mem_cons_self
          · intro server' hmem
            obtain rfl | hmem := List.mem_cons.mp hmem
            · apply hnot
            · intro hids
              apply hrest server' hmem (List.mem_cons_of_mem _ hids)

/-- The servers of a runtime have distinct ids, which are those of the managed providers without
the blanks around them. -/
theorem ids_of_validateConfig {servers : List ProviderServerConfigInput}
    {normalizedServers : List ProviderServerConfig}
    (h : validateConfig servers = .ok normalizedServers) :
  normalizedServers ≠ [] ∧ (normalizedServers.map ProviderServerConfig.id).Nodup ∧
    ∀ server ∈ servers, trim server.id ∈ normalizedServers.map ProviderServerConfig.id
  := by
  rw [validateConfig] at h
  split at h
  · cases h
  · next hservers =>
    split at h
    · cases h
    · next hmap =>
        split at h
        · cases h
        · next hnone =>
            cases h
            have hmem := mem_of_mapM hmap
            constructor
            · rintro rfl
              obtain ⟨server, hserver⟩ := List.exists_mem_of_ne_nil _ hservers
              obtain ⟨normalized, hnormalized, -⟩ := hmem server hserver
              cases hnormalized
            use (nodup_of_duplicateId hnone).1
            intro server hserver
            obtain ⟨normalized, hnormalized, heq⟩ := hmem server hserver
            rw [← id_of_normalizeServerConfig heq]
            apply List.mem_map_of_mem hnormalized

/-! ### Calls that do not disturb each other -/

namespace HookStage

/-- The call of an engine that a call of the hook waits for. -/
def call : HookStage → Option ℕ
  | .initializing c => some c
  | .starting c => some c
  | .propagating => none

def isStarting : HookStage → Bool
  | .starting _ => true
  | _ => false

end HookStage

namespace Plugin

/-- The engine that a call of the hook initialises or starts. -/
def building (s : Plugin) (call : HookCall) : Option ℕ :=
  call.stage.call.bind fun c => (s.engines.calls.get c).map Call.engine

/-- The hook is not called while a runtime is started, does not reuse a runtime that is being
initialised, and gets no ids with blanks around them. Once `initialize` has returned the runtime is
the one it was called for, or there is none, and once it has thrown the runtime is another one, or
no signature has been recorded. -/
def Undisturbed (options : FactoryOptions) (s : Plugin) : PluginEvent → Prop
  | .config config =>
      match collected config with
      | .error _ => True
      | .ok servers =>
          (∀ call ∈ s.calls.values, call.stage.isStarting = false) ∧
            (s.Reuses options servers →
              ∀ call ∈ s.calls.values, s.building call ≠ s.state.runtime) ∧
            ((validateConfig servers).isOk = true → ∀ server ∈ servers, trim server.id = server.id)
  | .resume i ok =>
      match s.calls.get i with
      | some ⟨servers, .initializing c⟩ =>
          (s.engines.handle (.resume c ok)).calls.has c = false →
            if ok then
              s.state.runtime = none ∨ s.state.runtime = s.building ⟨servers, .initializing c⟩
            else
              s.state.signature = none ∨ s.state.runtime ≠ s.building ⟨servers, .initializing c⟩
      | _ => True
  | _ => True

instance (options : FactoryOptions) (s : Plugin) (event : PluginEvent) :
  Decidable (s.Undisturbed options event)
  :=
  match event with
  | .config config => by
      dsimp only [Undisturbed]
      cases collected config with
      | error e => exact inferInstanceAs (Decidable True)
      | ok servers => exact inferInstanceAs (Decidable (_ ∧ _))
  | .resume i ok => by
      dsimp only [Undisturbed]
      cases s.calls.get i with
      | none => exact inferInstanceAs (Decidable True)
      | some call =>
          obtain ⟨servers, stage⟩ := call
          cases stage with
          | initializing c => exact inferInstanceAs (Decidable (_ → _))
          | _ => exact inferInstanceAs (Decidable True)
  | .timer _ _ => inferInstanceAs (Decidable True)
  | .completed _ _ => inferInstanceAs (Decidable True)

/-! ### The invariant -/

/-- What the plugin and its engines know of each other between events. -/
structure Sane (s : Plugin) : Prop where
  coherent : Coherent s.engines
  numbered : s.engines.Numbered
  fresh : ∀ i call, s.calls.get i = some call → i < s.callSeq
  runtime : ∀ j, s.state.runtime = some j → s.built.has j = true
  built : ∀ j servers, s.built.get j = some servers → ∃ e, s.engines.engines.get j = some e ∧
    (e.servers.map ProviderServerConfig.id).Nodup ∧
      ∀ server ∈ servers, server.id ∈ e.servers.map ProviderServerConfig.id
  dormant : ∀ j, s.built.has j = true → s.state.runtime ≠ some j → Dormant j s.engines
  initializing : ∀ i servers c, s.calls.get i = some ⟨servers, .initializing c⟩ →
    ∃ j, s.built.get j = some servers ∧ Initializing j c s.engines
  starting : ∀ i servers c, s.calls.get i = some ⟨servers, .starting c⟩ →
    ∃ j, s.state.runtime = some j ∧ s.built.get j = some servers ∧ Starting j c s.engines
  distinct : ∀ i i' call call' c, s.calls.get i = some call → s.calls.get i' = some call' →
    call.stage.call = some c → call'.stage.call = some c → i = i'
  settled : (∀ i call, s.calls.get i = some call → call.stage.isStarting = false) →
    ∀ j, s.state.runtime = some j → Resting j s.engines

/-- The recorded signature is that of the servers that the runtime has been built from, and these
are the managed providers. -/
def Recorded (options : FactoryOptions) (s : Plugin) : Prop :=
  ∀ signature, s.state.signature = some signature → ∃ j servers, s.state.runtime = some j ∧
    s.built.get j = some servers ∧ signature = options.runtimeSignature servers ∧
      ∀ id ∈ s.state.managedProviderIds, id ∈ servers.map ProviderServerConfigInput.id

/-- A call of the hook has built the runtime and has not recorded it. -/
def Pending (s : Plugin) : Prop :=
  ∃ i call j, s.calls.get i = some call ∧ s.building call = some j ∧ s.state.runtime = some j

structure Kept (options : FactoryOptions) (s : Plugin) : Prop extends Sane s where
  unmanaged : s.state.signature = none → s.state.managedProviderIds = []
  recorded : Recorded options s ∨ s.Pending

variable {options : FactoryOptions} {s : Plugin}

theorem Sane.initial :
  Sane initial
  := by
  constructor
  · apply Coherent.initial
  all_goals simp [Plugin.initial, Engines.initial, Engines.Numbered, JsMap.has]

theorem Kept.initial :
  Kept options initial
  := by
  use Sane.initial
  · exact fun _ => rfl
  · left
    exact nofun

/-! ### Steps -/

namespace Sane

/-- An engine goes on, and calls of the hook may return. -/
theorem handle (h : Sane s) {event : EngineEvent} {calls : JsMap ℕ HookCall}
    (henabled : s.engines.enabled event = true) (hundisturbed : s.engines.Undisturbed event)
    (hcallee : event.callee = none)
    (hcalls : ∀ i call, calls.get i = some call → s.calls.get i = some call)
    (hinitializing : ∀ i servers c j, calls.get i = some ⟨servers, .initializing c⟩ →
      Initializing j c s.engines → Initializing j c (s.engines.handle event))
    (hstarting : ∀ i servers c j, calls.get i = some ⟨servers, .starting c⟩ →
      Starting j c s.engines → Starting j c (s.engines.handle event))
    (hsettled : (∀ i call, calls.get i = some call → call.stage.isStarting = false) →
      ∀ j, s.state.runtime = some j → Resting j (s.engines.handle event)) :
  Sane { s with engines := s.engines.handle event, calls }
  := by
  constructor
  · apply h.coherent.handle henabled hundisturbed
  · apply h.numbered.handle h.coherent henabled
  · exact fun i call hcall => h.fresh i call (hcalls i call hcall)
  · apply h.runtime
  · intro j servers hbuilt
    obtain ⟨e, he, hids⟩ := h.built j servers hbuilt
    obtain ⟨e', he', hservers⟩ := servers_handle h.coherent henabled he
    use e', he'
    rw [hservers]
    apply hids
  · intro j hbuilt hne
    apply (h.dormant j hbuilt hne).handle h.coherent henabled
    apply EngineEvent.starts_ne (hcallee.trans_ne (Option.some_ne_none j).symm)
  · intro i servers c hcall
    obtain ⟨j, hbuilt, hj⟩ := h.initializing i servers c (hcalls _ _ hcall)
    exact ⟨j, hbuilt, hinitializing i servers c j hcall hj⟩
  · intro i servers c hcall
    obtain ⟨j, hruntime, hbuilt, hj⟩ := h.starting i servers c (hcalls _ _ hcall)
    exact ⟨j, hruntime, hbuilt, hstarting i servers c j hcall hj⟩
  · exact fun i i' call call' c hcall hcall' => h.distinct i i' call call' c (hcalls _ _ hcall)
      (hcalls _ _ hcall')
  · apply hsettled

/-- A call of the hook returns that has not started the runtime. -/
theorem returns (h : Sane s) {i : ℕ}
    (hi : ∀ call, s.calls.get i = some call → call.stage.isStarting = false) :
  Sane (s.returns i)
  := by
  have hcalls : ∀ k call, (s.returns i).calls.get k = some call → s.calls.get k = some call :=
    fun k call => JsMap.get_of_get_delete
  refine ⟨h.coherent, h.numbered, ?_, h.runtime, h.built, h.dormant, ?_, ?_, ?_, ?_⟩
  · exact fun k call hcall => h.fresh k call (hcalls k call hcall)
  · exact fun k servers c hcall => h.initializing k servers c (hcalls _ _ hcall)
  · exact fun k servers c hcall => h.starting k servers c (hcalls _ _ hcall)
  · exact fun k k' call call' c hcall hcall' => h.distinct k k' call call' c (hcalls _ _ hcall)
      (hcalls _ _ hcall')
  · intro hnone
    apply h.settled
    intro k call hcall
    by_cases hk : k = i
    · subst hk
      apply hi call hcall
    · apply hnone k call
      rw [Plugin.returns, JsMap.get_delete_of_ne _ hk]
      apply hcall

/-- A call of the hook waits that has been away. -/
theorem awaits {i : ℕ} (h : Sane (s.returns i)) (hi : i < s.callSeq)
    {servers : List ProviderServerConfigInput} {stage : HookStage}
    (hinitializing : ∀ c, stage = .initializing c →
      ∃ j, s.built.get j = some servers ∧ Initializing j c s.engines)
    (hstarting : ∀ c, stage = .starting c →
      ∃ j, s.state.runtime = some j ∧ s.built.get j = some servers ∧ Starting j c s.engines)
    (hdistinct : ∀ c, stage.call = some c → ∀ k call, s.calls.get k = some call → k ≠ i →
      call.stage.call ≠ some c) :
  Sane (s.awaits i servers stage)
  := by
  have hcalls : ∀ k call, (s.awaits i servers stage).calls.get k = some call →
      k ≠ i ∧ (s.returns i).calls.get k = some call ∨ k = i ∧ call = ⟨servers, stage⟩ := by
    intro k call hcall
    rw [Plugin.awaits, JsMap.get_set] at hcall
    split at hcall
    · next heq => exact .inr ⟨heq, (Option.some.inj hcall).symm⟩
    · next hne =>
        left
        use hne
        rw [Plugin.returns, JsMap.get_delete_of_ne _ hne]
        apply hcall
  have hold : ∀ k call, (s.returns i).calls.get k = some call → s.calls.get k = some call :=
    fun k call => JsMap.get_of_get_delete
  refine ⟨h.coherent, h.numbered, ?_, h.runtime, h.built, h.dormant, ?_, ?_, ?_, ?_⟩
  · intro k call hcall
    obtain ⟨-, hcall⟩ | ⟨rfl, -⟩ := hcalls k call hcall
    · apply h.fresh k call hcall
    · apply hi
  · intro k servers' c hcall
    obtain ⟨-, hcall⟩ | ⟨-, heq⟩ := hcalls k _ hcall
    · apply h.initializing k servers' c hcall
    · cases heq
      apply hinitializing c rfl
  · intro k servers' c hcall
    obtain ⟨-, hcall⟩ | ⟨-, heq⟩ := hcalls k _ hcall
    · apply h.starting k servers' c hcall
    · cases heq
      apply hstarting c rfl
  · intro k k' call call' c hcall hcall' hc hc'
    obtain ⟨hk, hcall⟩ | ⟨rfl, rfl⟩ := hcalls k call hcall
    · obtain ⟨-, hcall'⟩ | ⟨rfl, rfl⟩ := hcalls k' call' hcall'
      · apply h.distinct k k' call call' c hcall hcall' hc hc'
      · apply absurd hc (hdistinct c hc' k call (hold _ _ hcall) hk)
    · obtain ⟨hk', hcall'⟩ | ⟨rfl, -⟩ := hcalls k' call' hcall'
      · apply absurd hc' (hdistinct c hc k' call' (hold _ _ hcall') hk')
      · rfl
  · intro hnone
    apply h.settled
    intro k call hcall
    apply hnone k call
    have hk : k ≠ i := by
      rintro rfl
      rw [Plugin.returns, JsMap.get_delete_self] at hcall
      cases hcall
    rw [Plugin.awaits, JsMap.get_set_of_ne _ hk]
    apply hold k call hcall

/-- The signature and the managed providers are recorded. -/
theorem record (h : Sane s) (signature : Option String) (managedProviderIds : List String) :
  Sane { s with state := ⟨s.state.runtime, signature, managedProviderIds⟩ }
  := ⟨h.coherent, h.numbered, h.fresh, h.runtime, h.built, h.dormant, h.initializing, h.starting,
    h.distinct, h.settled⟩

/-- The engine of a runtime that a call of the hook waits for. -/
theorem building_eq (h : Sane s) {i : ℕ} {call : HookCall} (hcall : s.calls.get i = some call)
    {c : ℕ} (hc : call.stage.call = some c) :
  ∃ j, s.building call = some j ∧ s.built.get j = some call.servers ∧
    (s.engines.calls.get c).map Call.engine = some j
  := by
  obtain ⟨servers, stage⟩ := call
  cases stage with
  | initializing c' =>
      obtain rfl := Option.some.inj hc
      obtain ⟨j, hbuilt, hj⟩ := h.initializing i servers c' hcall
      obtain ⟨call, hc', rfl⟩ := hj.call
      have hmap : (s.engines.calls.get c').map Call.engine = some call.engine := by
        rw [hc', Option.map_some]
      use call.engine, hmap, hbuilt
  | starting c' =>
      obtain rfl := Option.some.inj hc
      obtain ⟨j, -, hbuilt, hj⟩ := h.starting i servers c' hcall
      obtain ⟨call, -, -, hc', rfl, -⟩ := hj.call
      have hmap : (s.engines.calls.get c').map Call.engine = some call.engine := by
        rw [hc', Option.map_some]
      use call.engine, hmap, hbuilt
  | propagating => cases hc

end Sane

/-- A call that builds the runtime goes on building it. -/
theorem Pending.handle (h : Sane s) {event : EngineEvent} {calls : JsMap ℕ HookCall}
    (henabled : s.engines.enabled event = true)
    (h' : Sane { s with engines := s.engines.handle event, calls }) {i j : ℕ} {call : HookCall}
    (hcall : calls.get i = some call)
    (hbuilding : s.building call = some j) (hruntime : s.state.runtime = some j) :
  Pending { s with engines := s.engines.handle event, calls }
  := by
  rw [building, Option.bind_eq_some_iff] at hbuilding
  obtain ⟨c, hc, hbuilding⟩ := hbuilding
  obtain ⟨j', hbuilding', -, hmap⟩ := h'.building_eq hcall hc
  have hj : j' = j := by
    rw [Option.map_eq_some_iff] at hmap hbuilding
    obtain ⟨engineCall, hget, rfl⟩ := hmap
    obtain ⟨old, hold, rfl⟩ := hbuilding
    obtain ⟨call', hcall', hengine⟩ | ⟨rfl, -⟩ := calls_of_handle h.coherent henabled hget
    · rw [hold] at hcall'
      obtain rfl := Option.some.inj hcall'
      apply hengine.symm
    · apply absurd (h.numbered _ old hold) (Nat.lt_irrefl _)
  rw [hj] at hbuilding'
  exact ⟨i, call, j, hcall, hbuilding', hruntime⟩

/-- What is recorded does not change when an engine goes on. -/
theorem Kept.of_sane (h : Kept options s) {event : EngineEvent} {calls : JsMap ℕ HookCall}
    (henabled : s.engines.enabled event = true)
    (hsane : Sane { s with engines := s.engines.handle event, calls })
    (hcalls : ∀ i call, s.calls.get i = some call → s.building call = s.state.runtime →
      calls.get i = some call) :
  Kept options { s with engines := s.engines.handle event, calls }
  := by
  use hsane
  · apply h.unmanaged
  · apply h.recorded.imp id
    rintro ⟨i, call, j, hcall, hbuilding, hruntime⟩
    have hkept := hcalls i call hcall (hbuilding.trans hruntime.symm)
    apply Pending.handle h.toSane henabled hsane hkept hbuilding hruntime

/-! ### Calls of the hook -/

theorem Kept.stopRuntime (h : Kept options s)
    (hnot : ∀ i call, s.calls.get i = some call → call.stage.isStarting = false) :
  Kept options s.stopRuntime ∧
    ∀ j, s.built.has j = true → Dormant j s.stopRuntime.engines
  := by
  rw [Plugin.stopRuntime]
  cases hruntime : s.state.runtime with
  | none =>
      use h
      intro j hbuilt
      apply h.dormant j hbuilt
      rw [hruntime]
      exact nofun
  | some j =>
      obtain ⟨servers, hservers⟩ := Option.isSome_iff_exists.mp (h.runtime j hruntime)
      obtain ⟨e, he, -⟩ := h.built j servers hservers
      have henabled : s.engines.enabled (.stop j) = true := JsMap.has_of_get he
      have hstopped : Dormant j (s.engines.handle (.stop j)) := by
        rw [Engines.handle, Coherent.withEngine_eq he]
        apply (h.settled hnot j hruntime).stop
      have hsane : Sane { s with engines := s.engines.handle (.stop j), calls := s.calls } := by
        apply h.handle henabled trivial rfl fun _ _ => id
        · intro i servers c j' _ hj'
          apply hj'.handle h.coherent h.numbered henabled (Option.some_ne_none _).symm
            (Option.some_ne_none _).symm
        · intro i servers c j' hcall
          cases hnot i _ hcall
        · intro _ j' hj'
          rw [hruntime] at hj'
          obtain rfl := Option.some.inj hj'
          exact .inl hstopped
      constructor
      · apply h.of_sane henabled hsane
        exact fun i call hcall _ => hcall
      · intro j' hbuilt
        by_cases heq : j' = j
        · subst heq
          apply hstopped
        · apply (h.dormant j' hbuilt _).handle h.coherent henabled (Option.some_ne_none _).symm
          rw [hruntime]
          exact fun hsame => heq (Option.some.inj hsame).symm

/-- A runtime is built, and its `initialize` is on its way. -/
theorem Sane.build (h : Sane s)
    (hnot : ∀ i call, s.calls.get i = some call → call.stage.isStarting = false)
    (hdormant : ∀ j, s.built.has j = true → Dormant j s.engines)
    {servers : List ProviderServerConfigInput} {normalizedServers : List ProviderServerConfig}
    (hok : validateConfig servers = .ok normalizedServers)
    (htrim : ∀ server ∈ servers, trim server.id = server.id) :
  Sane (s.build options servers) ∧ Pending (s.build options servers)
  := by
  obtain ⟨hnormalized, hnodup, hids⟩ := ids_of_validateConfig hok
  have hcreate : s.engines.enabled (.create options.cacheDirPath normalizedServers) = true := by
    simp [Engines.enabled, hnormalized]
  have hcoherent := h.coherent.handle hcreate trivial
  have hnumbered := h.numbered.handle h.coherent hcreate
  have hget : (s.engines.handle (.create options.cacheDirPath normalizedServers)).engines.get
      s.engines.engineSeq = some ⟨options.cacheDirPath, normalizedServers, .empty, false, false⟩ :=
    JsMap.get_set_self _ _ _
  have hinitializes : (s.engines.handle (.create options.cacheDirPath normalizedServers)).enabled
      (.callInitialize s.engines.engineSeq) = true := JsMap.has_of_get hget
  have hinitializing := Initializing.of_create h.coherent options.cacheDirPath normalizedServers
    hnormalized
  have hold : ∀ j, s.built.has j = true → j ≠ s.engines.engineSeq := by
    intro j hbuilt
    obtain ⟨servers', hservers'⟩ := Option.isSome_iff_exists.mp hbuilt
    obtain ⟨e, he, -⟩ := h.built j servers' hservers'
    apply (h.coherent.engines j e he).ne
  rw [Plugin.build, hok]
  have hsane : Sane
      { s with
        state := { s.state with runtime := some s.engines.engineSeq }
        engines := (s.engines.handle (.create options.cacheDirPath normalizedServers)).handle
          (.callInitialize s.engines.engineSeq)
        built := s.built.set s.engines.engineSeq servers
        callSeq := s.callSeq + 1 } := by
    constructor
    · apply hcoherent.handle hinitializes trivial
    · apply hnumbered.handle hcoherent hinitializes
    · exact fun i call hcall => (h.fresh i call hcall).trans (Nat.lt_succ_self _)
    · intro j hj
      cases hj
      apply JsMap.has_set_self
    · intro j servers' hbuilt
      dsimp only at hbuilt
      rw [JsMap.get_set] at hbuilt
      split at hbuilt
      · next heq =>
          subst heq
          obtain rfl := Option.some.inj hbuilt
          obtain ⟨e, he, hservers⟩ := servers_handle hcoherent hinitializes hget
          use e, he
          rw [hservers]
          use hnodup
          intro server hserver
          rw [← htrim server hserver]
          apply hids server hserver
      · obtain ⟨e, he, hsame⟩ := h.built j servers' hbuilt
        obtain ⟨e', he', hservers'⟩ := servers_handle h.coherent hcreate he
        obtain ⟨e'', he'', hservers''⟩ := servers_handle hcoherent hinitializes he'
        use e'', he''
        rw [hservers'', hservers']
        apply hsame
    · intro j hbuilt hne
      have hj : j ≠ s.engines.engineSeq := by
        rintro rfl
        apply hne rfl
      rw [JsMap.has_set_iff] at hbuilt
      have hbuilt' := hbuilt.resolve_left hj
      apply Dormant.handle _ hcoherent hinitializes (Option.some_ne_none _).symm
      apply (hdormant j hbuilt').handle h.coherent hcreate (Option.some_ne_none _).symm
    · intro i servers' c hcall
      obtain ⟨j, hbuilt, hj⟩ := h.initializing i servers' c hcall
      have hne := hold j (JsMap.has_of_get hbuilt)
      refine ⟨j, ?_, ?_⟩
      · dsimp only
        rw [JsMap.get_set_of_ne _ hne]
        apply hbuilt
      · apply Initializing.handle _ hcoherent hnumbered hinitializes _ (Option.some_ne_none _).symm
        · apply hj.handle h.coherent h.numbered hcreate (Option.some_ne_none _).symm
            (Option.some_ne_none _).symm
        · intro heq
          apply hne (Option.some.inj heq).symm
    · intro i servers' c hcall
      cases hnot i _ hcall
    · apply h.distinct
    · intro _ j hj
      cases hj
      exact .inl hinitializing.dormant
  constructor
  · apply Sane.awaits (hsane.returns (hnot s.callSeq)) (Nat.lt_succ_self _)
    · intro c hc
      cases hc
      exact ⟨_, JsMap.get_set_self _ _ _, hinitializing⟩
    · intro c hc
      cases hc
    · intro c hc k call hcall _ hcall'
      cases hc
      obtain ⟨j, -, -, hmap⟩ := h.building_eq hcall hcall'
      obtain ⟨engineCall, hget', -⟩ := Option.map_eq_some_iff.mp hmap
      apply absurd (h.numbered _ _ hget') (Nat.lt_irrefl _)
  · obtain ⟨engineCall, hget', hengine⟩ := hinitializing.call
    refine ⟨_, _, s.engines.engineSeq, JsMap.get_set_self _ _ _, ?_, rfl⟩
    apply Option.map_eq_some_iff.mpr
    exact ⟨engineCall, hget', hengine⟩

/-- The ids of servers show in their signature. -/
theorem ids_of_runtimeSignature {servers servers' : List ProviderServerConfigInput}
    (h : options.runtimeSignature servers = options.runtimeSignature servers') {id : String}
    (hid : id ∈ servers.map ProviderServerConfigInput.id) :
  id ∈ servers'.map ProviderServerConfigInput.id
  := by
  have hids := options.stringify_ids _ _ h
  obtain ⟨server, hserver, rfl⟩ := List.mem_map.mp hid
  have hmem := List.mem_map_of_mem (f := ProviderServerConfigInput.id)
    ((List.mergeSort_perm servers fun a b => options.localeLe a.id b.id).mem_iff.mpr hserver)
  rw [hids] at hmem
  obtain ⟨server', hserver', heq⟩ := List.mem_map.mp hmem
  rw [← heq]
  apply List.mem_map_of_mem ((List.mergeSort_perm servers' _).mem_iff.mp hserver')

theorem Kept.config (h : Kept options s) {config : OpenCodeConfig}
    (hundisturbed : s.Undisturbed options (.config config)) :
  Kept options (s.config options config)
  := by
  rw [Undisturbed] at hundisturbed
  rw [Plugin.config]
  cases hcollected : collected config with
  | error e => apply h
  | ok servers =>
      rw [hcollected] at hundisturbed
      obtain ⟨hstarting, hreuse, htrim⟩ := hundisturbed
      have hmem : ∀ {i call}, s.calls.get i = some call → call ∈ s.calls.values :=
        fun hcall => JsMap.mem_values.mpr ⟨_, hcall⟩
      have hnot : ∀ i call, s.calls.get i = some call → call.stage.isStarting = false :=
        fun i call hcall => hstarting call (hmem hcall)
      obtain ⟨hstopped, hdormant⟩ := h.stopRuntime hnot
      obtain ⟨engines, heq⟩ : ∃ engines, s.stopRuntime = { s with engines } := by
        rw [Plugin.stopRuntime]
        split
        · exact ⟨_, rfl⟩
        · exact ⟨_, rfl⟩
      rw [heq] at hstopped hdormant
      cases servers with
      | nil =>
          dsimp only
          rw [heq]
          constructor
          · refine ⟨hstopped.coherent, hstopped.numbered, hstopped.fresh, nofun, hstopped.built,
              ?_, hstopped.initializing, ?_, hstopped.distinct, nofun⟩
            · exact fun j hbuilt _ => hdormant j hbuilt
            · intro i servers c hcall
              cases hnot i _ hcall
          · exact fun _ => rfl
          · left
            exact nofun
      | cons first rest =>
          dsimp only
          split
          · next hreuses =>
              have hrecorded : Recorded options s := by
                obtain hrecorded | ⟨i, call, j, hcall, hbuilding, hruntime⟩ := h.recorded
                · apply hrecorded
                · apply absurd (hbuilding.trans hruntime.symm) (hreuse hreuses call (hmem hcall))
              obtain ⟨j, servers', hruntime, hbuilt, hsignature, -⟩ := hrecorded _ hreuses.2
              have hsane : Sane { s with callSeq := s.callSeq + 1 } :=
                ⟨h.coherent, h.numbered, fun i call hcall => (h.fresh i call hcall).trans
                  (Nat.lt_succ_self _), h.runtime, h.built, h.dormant, h.initializing, h.starting,
                  h.distinct, h.settled⟩
              constructor
              · apply Sane.awaits ((hsane.record _ _).returns (hnot s.callSeq))
                  (Nat.lt_succ_self _)
                · exact nofun
                · exact nofun
                · exact nofun
              · intro hnone
                rw [Plugin.addCall] at hnone
                rw [hreuses.2] at hnone
                cases hnone
              · left
                intro signature heq
                rw [Plugin.addCall] at heq
                rw [hreuses.2] at heq
                obtain rfl := Option.some.inj heq
                use j, servers', hruntime, hbuilt, hsignature
                intro id hid
                apply ids_of_runtimeSignature hsignature hid
          · rw [heq]
            cases hok : validateConfig (first :: rest) with
            | error e =>
                rw [Plugin.build, hok]
                apply hstopped
            | ok normalizedServers =>
                rw [hok] at htrim
                obtain ⟨hsane, hpending⟩ := @Sane.build options _ hstopped.toSane hnot hdormant
                  _ _ hok (htrim rfl)
                use hsane
                · rw [Plugin.build, hok]
                  apply h.unmanaged
                · exact .inr hpending

/-! ### Calls that go on -/

/-- `initialize` goes on for a call of the hook, or returns or throws. -/
theorem Sane.resumeInitializing (h : Sane s) {i c : ℕ} {servers : List ProviderServerConfigInput}
    (hcall : s.calls.get i = some ⟨servers, .initializing c⟩) (ok : Bool) :
  s.engines.enabled (.resume c ok) = true ∧
    ((s.engines.handle (.resume c ok)).calls.has c = true ∧
        Sane { s with engines := s.engines.handle (.resume c ok) } ∨
      (s.engines.handle (.resume c ok)).calls.has c = false ∧
        Sane ({ s with engines := s.engines.handle (.resume c ok) }.returns i) ∧
          ∃ j, s.built.get j = some servers ∧ s.building ⟨servers, .initializing c⟩ = some j ∧
            Dormant j (s.engines.handle (.resume c ok)) ∧
              (∀ c' call, (s.engines.handle (.resume c ok)).calls.get c' = some call →
                call.engine ≠ j) ∧
              (ok = true → (s.engines.handle (.resume c ok)).Initialized j))
  := by
  obtain ⟨j, hbuilt, hj⟩ := h.initializing i servers c hcall
  obtain ⟨engineCall, hget, rfl⟩ := hj.call
  have henabled : s.engines.enabled (.resume c ok) = true := JsMap.has_of_get hget
  have hundisturbed := Dormant.undisturbed_resume h.coherent hget hj.dormant ok
  have hothers : ∀ k servers' c' j', k ≠ i → s.calls.get k = some ⟨servers', .initializing c'⟩ →
      Initializing j' c' s.engines → Initializing j' c' (s.engines.handle (.resume c ok)) := by
    intro k servers' c' j' hk hcall' hj'
    apply hj'.handle h.coherent h.numbered henabled (Option.some_ne_none _).symm
    intro heq
    cases heq
    apply hk (h.distinct k i _ _ c hcall' hcall rfl rfl)
  have hstarting : ∀ c' j', Starting j' c' s.engines →
      Starting j' c' (s.engines.handle (.resume c ok)) := by
    intro c' j' hj'
    apply hj'.resume_of_dormant h.coherent hget hj.dormant
    rintro rfl
    apply hj'.not_initializing hj
  have hsettled : ∀ calls : JsMap ℕ HookCall,
      (∀ k call, k ≠ i → s.calls.get k = some call → calls.get k = some call) →
        (∀ k call, calls.get k = some call → call.stage.isStarting = false) →
          ∀ j', s.state.runtime = some j' →
            Resting j' (s.engines.handle (.resume c ok)) := by
    intro calls hcalls hnone j' hj'
    apply Resting.handle _ h.coherent henabled (Option.some_ne_none _).symm
    apply h.settled _ j' hj'
    intro k call hcall'
    by_cases hk : k = i
    · subst hk
      rw [hcall] at hcall'
      cases hcall'
      rfl
    · apply hnone k call (hcalls k call hk hcall')
  use henabled
  obtain ⟨hnone, hinitialized⟩ | hnext := hj.resume h.coherent ok
  · right
    refine ⟨?_, ?_, engineCall.engine, hbuilt, ?_, ?_, hnone, hinitialized⟩
    · apply has_resume_of_none h.coherent hget hnone
    · apply h.handle henabled hundisturbed rfl fun k call => JsMap.get_of_get_delete
      · intro k servers' c' j' hcall'
        rw [JsMap.get_delete] at hcall'
        split at hcall'
        · cases hcall'
        · next hk => apply hothers k servers' c' j' hk hcall'
      · exact fun k servers' c' j' _ => hstarting c' j'
      · apply hsettled
        intro k call hk hcall'
        rw [JsMap.get_delete_of_ne _ hk]
        apply hcall'
    · apply Option.map_eq_some_iff.mpr
      exact ⟨engineCall, hget, rfl⟩
    · apply hj.dormant.handle h.coherent henabled (Option.some_ne_none _).symm
  · left
    constructor
    · obtain ⟨call', hcall', -⟩ := hnext.call
      apply JsMap.has_of_get hcall'
    · apply h.handle henabled hundisturbed rfl fun k call => id
      · intro k servers' c' j' hcall' hj'
        by_cases hk : k = i
        · subst hk
          rw [hcall] at hcall'
          cases hcall'
          obtain ⟨call', hcall', rfl⟩ := hj'.call
          rw [hget] at hcall'
          obtain rfl := Option.some.inj hcall'
          apply hnext
        · apply hothers k servers' c' j' hk hcall' hj'
      · exact fun k servers' c' j' _ => hstarting c' j'
      · exact hsettled _ fun k call _ => id

/-- `start` goes on for a call of the hook, or returns. -/
theorem Sane.resumeStarting (h : Sane s) {i c : ℕ} {servers : List ProviderServerConfigInput}
    (hcall : s.calls.get i = some ⟨servers, .starting c⟩) (ok : Bool) :
  s.engines.enabled (.resume c ok) = true ∧ s.throws c = false ∧
    ((s.engines.handle (.resume c ok)).calls.has c = true ∧
        Sane { s with engines := s.engines.handle (.resume c ok) } ∨
      (s.engines.handle (.resume c ok)).calls.has c = false ∧
        Sane ({ s with engines := s.engines.handle (.resume c ok) }.returns i) ∧
          ∃ j, s.state.runtime = some j ∧ s.built.get j = some servers)
  := by
  obtain ⟨j, hruntime, hbuilt, hj⟩ := h.starting i servers c hcall
  obtain ⟨engineCall, -, -, hget, rfl, hnot, -⟩ := hj.call
  have henabled : s.engines.enabled (.resume c ok) = true := JsMap.has_of_get hget
  have hundisturbed := hj.undisturbed_resume ok
  have hinitializing : ∀ k servers' c' j', s.calls.get k = some ⟨servers', .initializing c'⟩ →
      Initializing j' c' s.engines → Initializing j' c' (s.engines.handle (.resume c ok)) := by
    intro k servers' c' j' hcall' hj'
    apply hj'.handle h.coherent h.numbered henabled (Option.some_ne_none _).symm
    intro heq
    cases heq
    have hk := h.distinct k i _ _ c hcall' hcall rfl rfl
    subst hk
    rw [hcall] at hcall'
    cases hcall'
  -- only this call of the hook starts a runtime
  have honly : ∀ k servers' c' j', s.calls.get k = some ⟨servers', .starting c'⟩ →
      Starting j' c' s.engines → k = i ∧ c' = c ∧ j' = engineCall.engine := by
    intro k servers' c' j' hcall' hj'
    obtain ⟨j'', hruntime', -, hj''⟩ := h.starting k servers' c' hcall'
    obtain rfl := hj'.unique hj''
    rw [hruntime] at hruntime'
    obtain rfl := Option.some.inj hruntime'
    obtain ⟨call', -, -, hget', hengine, -⟩ := hj'.call
    obtain rfl := hj.only c' call' hget' hengine
    exact ⟨h.distinct k i _ _ c' hcall' hcall rfl rfl, rfl, rfl⟩
  use henabled
  constructor
  · rw [Plugin.throws, hget, Option.any_some]
    cases hawait : engineCall.await with
    | ensureReady =>
        rw [hawait] at hnot
        apply absurd trivial hnot
    | load server rest =>
        rw [hawait] at hnot
        apply absurd trivial hnot
    | _ => rfl
  obtain hnone | hnext := hj.resume h.coherent ok
  · right
    refine ⟨?_, ?_, engineCall.engine, hruntime, hbuilt⟩
    · apply has_resume_of_none h.coherent hget hnone
    · apply h.handle henabled hundisturbed rfl fun k call => JsMap.get_of_get_delete
      · exact fun k servers' c' j' hcall' => hinitializing k servers' c' j'
          (JsMap.get_of_get_delete hcall')
      · intro k servers' c' j' hcall' hj'
        obtain ⟨rfl, -⟩ := honly k servers' c' j' (JsMap.get_of_get_delete hcall') hj'
        rw [JsMap.get_delete_self] at hcall'
        cases hcall'
      · intro _ j' hj'
        rw [hruntime] at hj'
        obtain rfl := Option.some.inj hj'
        exact .inr hnone
  · left
    constructor
    · obtain ⟨call', -, -, hcall', -⟩ := hnext.call
      apply JsMap.has_of_get hcall'
    · apply h.handle henabled hundisturbed rfl fun k call => id
      · apply hinitializing
      · intro k servers' c' j' hcall' hj'
        obtain ⟨-, rfl, rfl⟩ := honly k servers' c' j' hcall' hj'
        apply hnext
      · intro hnone
        cases hnone i _ hcall

/-- The runtime has been started for a call of the hook. -/
theorem Kept.afterStart {i j : ℕ} {servers : List ProviderServerConfigInput}
    (h : Sane (s.returns i)) (hi : i < s.callSeq) (hruntime : s.state.runtime = some j)
    (hbuilt : s.built.get j = some servers) :
  Kept options (s.afterStart options i servers)
  := by
  have hrecord : Sane (Plugin.returns
      { s with
        state := ⟨s.state.runtime, some (options.runtimeSignature servers),
          servers.map ProviderServerConfigInput.id⟩ } i) := h.record _ _
  constructor
  · apply Sane.awaits hrecord hi
    · exact nofun
    · exact nofun
    · exact nofun
  · exact nofun
  · left
    intro signature heq
    cases heq
    exact ⟨j, servers, hruntime, hbuilt, rfl, fun id hid => hid⟩

/-- `start` is called for a call of the hook, and waits. -/
theorem Sane.start {i j : ℕ} {servers : List ProviderServerConfigInput} (h : Sane (s.returns i))
    (hi : i < s.callSeq) (hruntime : s.state.runtime = some j)
    (hbuilt : s.built.get j = some servers)
    (hnone : ∀ c call, s.engines.calls.get c = some call → call.engine ≠ j)
    (hj : Starting j s.engines.callSeq (s.engines.handle (.start j true))) :
  Sane ({ s with engines := s.engines.handle (.start j true) }.awaits i servers
    (.starting s.engines.callSeq))
  := by
  obtain ⟨e, he, -⟩ := h.built j servers hbuilt
  have henabled : s.engines.enabled (.start j true) = true := JsMap.has_of_get he
  have hcalls : ∀ k call, (s.calls.set i ⟨servers, .starting s.engines.callSeq⟩).get k = some call →
      (s.returns i).calls.get k = some call ∨
        k = i ∧ call = ⟨servers, .starting s.engines.callSeq⟩ := by
    intro k call hcall
    rw [JsMap.get_set] at hcall
    split at hcall
    · next heq => exact .inr ⟨heq, (Option.some.inj hcall).symm⟩
    · next hne =>
        left
        rw [Plugin.returns, JsMap.get_delete_of_ne _ hne]
        apply hcall
  have hnew : ∀ k call, (s.returns i).calls.get k = some call →
      call.stage.call ≠ some s.engines.callSeq := by
    intro k call hcall hc
    obtain ⟨j', -, -, hmap⟩ := h.building_eq hcall hc
    obtain ⟨engineCall, hget, -⟩ := Option.map_eq_some_iff.mp hmap
    apply absurd (h.numbered _ _ hget) (Nat.lt_irrefl _)
  constructor
  · apply h.coherent.handle henabled trivial
  · apply h.numbered.handle h.coherent henabled
  · intro k call hcall
    obtain hold | ⟨rfl, -⟩ := hcalls k call hcall
    · apply h.fresh k call hold
    · apply hi
  · apply h.runtime
  · intro j' servers' hbuilt'
    obtain ⟨e', he', hids⟩ := h.built j' servers' hbuilt'
    obtain ⟨e'', he'', hservers⟩ := servers_handle h.coherent henabled he'
    use e'', he''
    rw [hservers]
    apply hids
  · intro j' hbuilt' hne
    apply (h.dormant j' hbuilt' hne).handle h.coherent henabled
    intro heq
    cases heq
    apply hne hruntime
  · intro k servers' c hcall
    obtain hold | ⟨-, heq⟩ := hcalls k _ hcall
    · obtain ⟨j', hbuilt', hj'⟩ := h.initializing k servers' c hold
      refine ⟨j', hbuilt', ?_⟩
      apply hj'.handle h.coherent h.numbered henabled _ (Option.some_ne_none _).symm
      intro heq
      cases heq
      obtain ⟨call, hget, hengine⟩ := hj'.call
      apply hnone c call hget hengine
    · cases heq
  · intro k servers' c hcall
    obtain hold | ⟨-, heq⟩ := hcalls k _ hcall
    · obtain ⟨j', hruntime', -, hj'⟩ := h.starting k servers' c hold
      rw [Plugin.returns, hruntime] at hruntime'
      obtain rfl := Option.some.inj hruntime'
      obtain ⟨call, -, -, hget, hengine, -⟩ := hj'.call
      apply (hnone c call hget hengine).elim
    · cases heq
      exact ⟨j, hruntime, hbuilt, hj⟩
  · intro k k' call call' c hcall hcall' hc hc'
    obtain hold | ⟨rfl, rfl⟩ := hcalls k call hcall
    · obtain hold' | ⟨-, rfl⟩ := hcalls k' call' hcall'
      · apply h.distinct k k' call call' c hold hold' hc hc'
      · cases hc'
        apply absurd hc (hnew k call hold)
    · obtain hold' | ⟨rfl, -⟩ := hcalls k' call' hcall'
      · cases hc
        apply absurd hc' (hnew k' call' hold')
      · rfl
  · intro hnone
    cases hnone i _ (JsMap.get_set_self _ _ _)

/-- `initialize` has returned for a call of the hook that finds the runtime it has built. -/
theorem Kept.afterInitialize {i j : ℕ} {servers : List ProviderServerConfigInput}
    (h : Sane (s.returns i)) (hi : i < s.callSeq) (hruntime : s.state.runtime = some j)
    (hbuilt : s.built.get j = some servers) (hd : Dormant j s.engines)
    (hnone : ∀ c call, s.engines.calls.get c = some call → call.engine ≠ j)
    (hinitialized : s.engines.Initialized j)
    (hunmanaged : s.state.signature = none → s.state.managedProviderIds = []) :
  Kept options (s.afterInitialize options i servers)
  := by
  have hcoherent : Coherent s.engines := h.coherent
  obtain ⟨e, he, hinitialized⟩ := hinitialized
  obtain ⟨e', he', hnodup, -⟩ := h.built j servers hbuilt
  obtain rfl := Option.some.inj (he.symm.trans he')
  rw [Plugin.afterInitialize, hruntime]
  dsimp only
  obtain heq | ⟨hcallSeq, hj⟩ := Starting.of_start hcoherent hd hnone he hnodup hinitialized
  · have hsame : ({ s with engines := s.engines.handle (.start j true) } : Plugin) = s :=
      congrArg (fun engines => { s with engines }) heq
    rw [if_pos (congrArg Engines.callSeq heq), hsame]
    apply Kept.afterStart h hi hruntime hbuilt
  · rw [if_neg fun hsame => Nat.succ_ne_self _ (hcallSeq.symm.trans hsame)]
    use h.start hi hruntime hbuilt hnone hj
    · apply hunmanaged
    · right
      obtain ⟨call, -, -, hget, rfl, -⟩ := hj.call
      refine ⟨i, _, call.engine, JsMap.get_set_self _ _ _, ?_, hruntime⟩
      apply Option.map_eq_some_iff.mpr
      exact ⟨call, hget, rfl⟩

theorem Kept.resume (h : Kept options s) {i : ℕ} {ok : Bool}
    (hundisturbed : s.Undisturbed options (.resume i ok)) :
  Kept options (s.resume options i ok)
  := by
  rw [Undisturbed] at hundisturbed
  rw [Plugin.resume]
  cases hcall : s.calls.get i with
  | none => apply h
  | some call =>
      rw [hcall] at hundisturbed
      have hi := h.fresh i call hcall
      obtain ⟨servers, stage⟩ := call
      cases stage with
      | propagating =>
          dsimp only
          constructor
          · apply h.returns
            rw [hcall]
            rintro call ⟨⟩
            rfl
          · apply h.unmanaged
          · apply h.recorded.imp id
            rintro ⟨k, call, j, hk, hbuilding, hruntime⟩
            refine ⟨k, call, j, ?_, hbuilding, hruntime⟩
            rw [Plugin.returns, JsMap.get_delete_of_ne, hk]
            rintro rfl
            rw [hcall] at hk
            cases hk
            cases hbuilding
      | initializing c =>
          dsimp only at hundisturbed ⊢
          obtain ⟨henabled, ⟨hhas, hsane⟩ |
              ⟨hhas, hsane, j, hbuilt, hbuilding, hd, hnone, hinit⟩⟩ :=
            h.toSane.resumeInitializing hcall ok
          · rw [if_pos hhas]
            apply h.of_sane henabled hsane
            exact fun k call hk _ => hk
          · have hthrows : s.throws c = true := by
              obtain ⟨j', -, hj'⟩ := h.initializing i servers c hcall
              obtain ⟨engineCall, hget, hengine⟩ := hj'.call
              obtain ⟨-, hinitializing⟩ := hj'.dormant.calls c engineCall hget hengine
              rw [Plugin.throws, hget, Option.any_some]
              cases hawait : engineCall.await with
              | ensureReady => rfl
              | load server rest => rfl
              | _ =>
                  rw [hawait] at hinitializing
                  cases hinitializing
            rw [if_neg (Bool.eq_false_iff.mp hhas), hthrows, Bool.true_and]
            have hmeets := hundisturbed hhas
            rw [hbuilding] at hmeets
            cases ok with
            | false =>
                rw [if_neg Bool.false_ne_true] at hmeets
                rw [Bool.not_false, if_pos rfl]
                obtain hsignature | hother := hmeets
                · use hsane
                  · apply h.unmanaged
                  · left
                    intro signature heq
                    rw [Plugin.returns, hsignature] at heq
                    cases heq
                · apply h.of_sane henabled hsane
                  intro k call hk hbuilding'
                  have hne : k ≠ i := by
                    rintro rfl
                    rw [hcall] at hk
                    cases hk
                    apply hother (hbuilding'.symm.trans hbuilding)
                  rw [JsMap.get_delete_of_ne _ hne, hk]
            | true =>
                rw [if_pos rfl] at hmeets
                rw [Bool.not_true, if_neg Bool.false_ne_true]
                obtain hruntime | hruntime := hmeets
                · rw [Plugin.afterInitialize, hruntime]
                  use hsane
                  · apply h.unmanaged
                  · apply h.recorded.imp id
                    rintro ⟨k, call, j', -, -, hj'⟩
                    rw [hruntime] at hj'
                    cases hj'
                · apply Kept.afterInitialize hsane hi hruntime hbuilt hd hnone (hinit rfl)
                    h.unmanaged
      | starting c =>
          dsimp only
          obtain ⟨henabled, hthrows, ⟨hhas, hsane⟩ | ⟨hhas, hsane, j, hruntime, hbuilt⟩⟩ :=
            h.toSane.resumeStarting hcall ok
          · rw [if_pos hhas]
            apply h.of_sane henabled hsane
            exact fun k call hk _ => hk
          · rw [if_neg (Bool.eq_false_iff.mp hhas), hthrows, Bool.false_and,
              if_neg Bool.false_ne_true]
            apply Kept.afterStart hsane hi hruntime hbuilt

/-- What the schedulers do changes nothing. -/
theorem Kept.scheduler (h : Kept options s) {event : EngineEvent} {k : ℕ}
    {f : Scheduler → Scheduler} (henabled : s.engines.enabled event = true)
    (hhandle : s.engines.handle event = s.engines.updateScheduler k f)
    (hf : ∀ scheduler, (f scheduler).stopped = scheduler.stopped)
    (hundisturbed : s.engines.Undisturbed event) (hcallee : event.callee = none)
    (hresumes : event.resumes = none) :
  Kept options { s with engines := s.engines.handle event }
  := by
  have hnone : ∀ j, event.callee ≠ some j :=
    fun j => hcallee.trans_ne (Option.some_ne_none j).symm
  have hsane : Sane { s with engines := s.engines.handle event, calls := s.calls } := by
    apply h.handle henabled hundisturbed hcallee fun _ _ => id
    · intro i servers c j _ hj
      apply hj.handle h.coherent h.numbered henabled (hnone j)
      apply hresumes.trans_ne (Option.some_ne_none c).symm
    · intro i servers c j _ hj
      rw [hhandle]
      apply hj.updateScheduler k hf
    · exact fun hsettled j hj =>
        (h.settled hsettled j hj).handle h.coherent henabled (hnone j)
  apply h.of_sane henabled hsane
  exact fun i call hcall _ => hcall

theorem Kept.handle (h : Kept options s) {event : PluginEvent}
    (henabled : (system options).enabled s event)
    (hundisturbed : s.Undisturbed options event) :
  Kept options (s.handle options event)
  := by
  cases event with
  | config config => apply h.config hundisturbed
  | resume i ok => apply h.resume hundisturbed
  | timer k timer =>
      apply h.scheduler (k := k) (f := fun scheduler => scheduler.tick timer) henabled rfl
        (fun scheduler => scheduler.stopped_tick timer) trivial rfl rfl
  | completed k ok =>
      apply h.scheduler (k := k) (f := fun scheduler => scheduler.completed ok) henabled rfl
        (fun scheduler => scheduler.stopped_completed ok) trivial rfl rfl

end Plugin

end OAuth2
