import OpencodeToolbelt.ProviderSync.Handling

/-!
# Building engines

An engine is initialised by one call and started by another one. Both go on undisturbed as long as
nothing else starts or stops the engine, whatever becomes of other engines meanwhile.
-/

namespace ProviderSync

/-! ### Engines that have not been started -/

/-- An engine owns the scheduler of no server. -/
def Unclaimed (i : ℕ) (s : Engines) : Prop :=
  ∀ e, s.engines.get i = some e → ∀ serverId r, e.runtimeByServer.get serverId = some r →
    r.ownsScheduler = false

/-- An engine is initialised. -/
def Engines.Initialized (s : Engines) (i : ℕ) : Prop :=
  ∃ e, s.engines.get i = some e ∧ e.initialized = true

/-- An engine that has not been started, or has been stopped: only its `initialize` may be on its
way. -/
structure Dormant (i : ℕ) (s : Engines) : Prop where
  unclaimed : Unclaimed i s
  calls : ∀ c call, s.calls.get c = some call → call.engine = i →
    call.warmup = none ∧ call.await.Initializing

section

variable {i : ℕ} {s s' : Engines}

theorem Unclaimed.of_same (h : Unclaimed i s) (hget : s'.engines.get i = s.engines.get i) :
  Unclaimed i s'
  := by
  intro e he
  rw [hget] at he
  apply h e he

theorem Unclaimed.setRuntime (h : Unclaimed i s) (serverId : String) :
  Unclaimed i (s.setRuntime i serverId)
  := by
  intro e he serverId' r hr
  obtain ⟨engines, heq, hget⟩ := Engines.updateEngine_eq { s with objectSeq := s.objectSeq + 1 } i
    fun e =>
      { e with
        runtimeByServer := e.runtimeByServer.set serverId
          { object := s.objectSeq
            scheduler := none
            ownsScheduler := false } }
  rw [Engines.setRuntime, heq] at he
  rw [hget, Option.map_eq_some_iff] at he
  obtain ⟨e₀, he₀, rfl⟩ := he
  rw [if_pos rfl] at hr
  dsimp only at hr
  rw [JsMap.get_set] at hr
  split at hr
  · cases hr
    rfl
  · apply h e₀ he₀ serverId' r hr

theorem Unclaimed.loadServers {c : ℕ} {call : Call} (h : Unclaimed call.engine s)
    (servers : List ProviderServerConfig) :
  Unclaimed call.engine (s.loadServers c call servers)
  := by
  cases servers with
  | cons server rest => apply h
  | nil =>
      have hset : Unclaimed call.engine
          (s.updateEngine call.engine fun e => { e with initialized := true }) := by
        intro e he
        obtain ⟨engines, heq, hget⟩ := s.updateEngine_eq call.engine
          fun e => { e with initialized := true }
        rw [heq] at he
        rw [hget, Option.map_eq_some_iff] at he
        obtain ⟨e₀, he₀, rfl⟩ := he
        rw [if_pos rfl]
        apply h e₀ he₀
      rw [Engines.loadServers]
      split <;> apply hset

/-- What runs for an engine it owns. -/
theorem not_running_of_unclaimed (hs : Coherent s) (h : Unclaimed i s) {k : ℕ}
    {entry : SchedulerHandle} (hrunning : s.Running k entry) :
  entry.engine ≠ i
  := by
  rintro rfl
  obtain ⟨e, r, he, hr, -, howns⟩ := hs.running k entry hrunning
  have hfalse := h e he _ r hr
  rw [howns] at hfalse
  cases hfalse

namespace Dormant

theorem quiet (hs : Coherent s) (h : Dormant i s) :
  Quiet i s
  := by
  constructor
  · exact fun k entry hrunning => not_running_of_unclaimed hs h.unclaimed hrunning
  · exact fun c call hcall hengine => .inr (h.calls c call hcall hengine)

/-- An engine that is not there yet. -/
theorem fresh (hs : Coherent s) :
  Dormant s.engineSeq s
  := by
  constructor
  · intro e he
    apply absurd (hs.engines _ e he) (Nat.lt_irrefl _)
  · rintro c call hcall hengine
    obtain ⟨e, he, -⟩ := hs.calls c call hcall
    apply absurd (hs.engines _ e he)
    rw [hengine]
    apply Nat.lt_irrefl

theorem of_same (h : Dormant i s) (hget : s'.engines.get i = s.engines.get i)
    (hcalls : ∀ c call, s'.calls.get c = some call → call.engine = i →
      s.calls.get c = some call ∨ call.warmup = none ∧ call.await.Initializing) :
  Dormant i s'
  := by
  use h.unclaimed.of_same hget
  intro c call hcall hengine
  obtain hold | hnew := hcalls c call hcall hengine
  · apply h.calls c call hold hengine
  · apply hnew

theorem addCall (h : Dormant i s) {call : Call}
    (hcall : call.engine = i → call.warmup = none ∧ call.await.Initializing) :
  Dormant i (s.addCall call)
  := by
  refine h.of_same rfl ?_
  intro c call' hc hengine
  rw [Engines.addCall, JsMap.get_set] at hc
  split at hc
  · obtain rfl := Option.some.inj hc
    exact .inr (hcall hengine)
  · exact .inl hc

/-- A stopped engine owns nothing, and what is left to do for it is to initialise it. -/
theorem stop {e : Engine} {j : ℕ} (h : j ≠ i → Unclaimed i s)
    (hcalls : ∀ c call, s.calls.get c = some call → call.engine = i →
      call.warmup = none ∧ call.await.Initializing) :
  Dormant i (s.stop j e)
  := by
  obtain ⟨s', -, engines, heq, hget⟩ := s.stop_eq j e
  rw [heq]
  constructor
  · intro e' he' serverId r hr
    dsimp only at he'
    rw [hget, Option.map_eq_some_iff] at he'
    obtain ⟨e₀, he₀, rfl⟩ := he'
    split at hr
    · dsimp only at hr
      rw [JsMap.get_mapValues, Option.map_eq_some_iff] at hr
      obtain ⟨r₀, -, rfl⟩ := hr
      rfl
    · next hne => apply h (Ne.symm hne) e₀ he₀ serverId r hr
  · intro c call hcall hengine
    dsimp only at hcall
    rw [JsMap.get_mapValues, Option.map_eq_some_iff] at hcall
    obtain ⟨call₀, hcall₀, rfl⟩ := hcall
    by_cases hj : call₀.engine = j
    · rw [if_pos hj] at hengine ⊢
      apply hcalls c call₀ hcall₀ hengine
    · rw [if_neg hj] at hengine ⊢
      apply hcalls c call₀ hcall₀ hengine

/-! ### Initialising -/

section Resume

variable {c : ℕ} {call : Call}

theorem undisturbed_resume (hs : Coherent s) (hcall : s.calls.get c = some call)
    (h : Dormant call.engine s) (ok : Bool) :
  s.Undisturbed (.resume c ok)
  := by
  intro call' hcall' e he
  rw [hcall] at hcall'
  cases hcall'
  obtain ⟨-, hinitializing⟩ := h.calls c call hcall rfl
  rw [Engines.launched]
  cases hawait : call.await with
  | ensureReady => simp [Await.loading]
  | load server rest =>
      simp only [List.not_mem_nil, false_implies, implies_true, List.map_nil, List.nodup_nil,
        true_and]
      intro _ server' _ howner
      obtain ⟨r, hr, howns⟩ := hs.owned _ e _ he howner
      have hfalse := h.unclaimed e he _ r hr
      rw [howns] at hfalse
      cases hfalse
  | _ =>
      rw [hawait] at hinitializing
      cases hinitializing

/-- `initialize` loads its next server, or throws. -/
theorem resume (hs : Coherent s) (hcall : s.calls.get c = some call) (h : Dormant call.engine s)
    (ok : Bool) :
  ∃ s₁ servers, s₁.calls = s.calls ∧ s₁.schedulers = s.schedulers ∧ Unclaimed call.engine s₁ ∧
    (s₁.engines.get call.engine).isSome = true ∧ s.handle (.resume c ok) =
      if ok then s₁.loadServers c call servers else s.returns c
  := by
  obtain ⟨e, he, hhandle⟩ := handle_resume hs hcall ok
  obtain ⟨-, hinitializing⟩ := h.calls c call hcall rfl
  rw [hhandle, Engines.resume]
  cases hawait : call.await with
  | ensureReady =>
      use s, e.servers, rfl, rfl, h.unclaimed
      rw [he]
      exact ⟨rfl, rfl⟩
  | load server rest =>
      use s.setRuntime call.engine server.id, rest, calls_setRuntime _ _ _
      obtain ⟨e', he', -⟩ := (Touches.setRuntime s call.engine server.id).get he
      rw [he']
      use Engines.schedulers_updateEngine _ _ _, h.unclaimed.setRuntime server.id
      exact ⟨rfl, rfl⟩
  | _ =>
      rw [hawait] at hinitializing
      cases hinitializing

theorem schedulers_resume (hs : Coherent s) (hcall : s.calls.get c = some call)
    (h : Dormant call.engine s) (ok : Bool) :
  (s.handle (.resume c ok)).schedulers = s.schedulers
  := by
  obtain ⟨s₁, servers, -, hschedulers, -, -, heq⟩ := h.resume hs hcall ok
  rw [heq]
  split
  · rw [schedulers_loadServers, hschedulers]
  · rfl

/-- `initialize` returns, which it does only with the engine initialised, or it goes on to its next
await. -/
theorem resumed (hs : Coherent s) (hcall : s.calls.get c = some call) (h : Dormant call.engine s)
    (ok : Bool) :
  (s.handle (.resume c ok)).calls.get c = none ∧
      (ok = true → (s.handle (.resume c ok)).Initialized call.engine) ∨
    ∃ await, await.Initializing ∧
      (s.handle (.resume c ok)).calls.get c = some { call with await }
  := by
  obtain ⟨s₁, servers, -, -, -, hsome, heq⟩ := h.resume hs hcall ok
  obtain ⟨hwarmup, -⟩ := h.calls c call hcall rfl
  rw [heq]
  cases ok with
  | false =>
      left
      rw [if_neg Bool.false_ne_true]
      use JsMap.get_delete_self _ _
      exact nofun
  | true =>
      rw [if_pos rfl]
      cases servers with
      | cons server rest =>
          right
          use .load server rest, trivial
          apply JsMap.get_set_self
      | nil =>
          left
          rw [Engines.loadServers, hwarmup]
          use JsMap.get_delete_self _ _
          intro _
          obtain ⟨e, he⟩ := Option.isSome_iff_exists.mp hsome
          obtain ⟨engines, hupdate, hget⟩ := s₁.updateEngine_eq call.engine
            fun e => { e with initialized := true }
          use { e with initialized := true }
          rw [hupdate]
          constructor
          · change engines.get call.engine = _
            rw [hget, he, Option.map_some, if_pos rfl]
          · rfl

end Resume

/-- An engine is not started by anything but a call of its `start`. -/
theorem handle (h : Dormant i s) (hs : Coherent s) {event : EngineEvent}
    (henabled : s.enabled event = true) (hstarts : event.starts ≠ some i) :
  Dormant i (s.handle event)
  := by
  have hhandled := handled hs henabled
  generalize hs' : s.handle event = s' at hhandled ⊢
  cases hhandled with
  | created cacheDirPath servers =>
      refine ⟨?_, h.calls⟩
      intro e he serverId r hr
      rw [Engines.handle, JsMap.get_set] at he
      split at he
      · cases he
        rw [JsMap.get_empty] at hr
        cases hr
      · apply h.unclaimed e he serverId r hr
  | called hcallee hcalled =>
      apply h.addCall
      rintro rfl
      apply hcalled.resolve_left hstarts
  | stopped he =>
      apply stop fun _ => h.unclaimed
      apply h.calls
  | @resumed c call e hcall he ok =>
      by_cases heq : call.engine = i
      · subst heq
        rw [← hs']
        constructor
        · obtain ⟨s₁, servers, -, -, hunclaimed, -, hresume⟩ := h.resume hs hcall ok
          rw [hresume]
          split
          · apply hunclaimed.loadServers
          · apply h.unclaimed
        · intro c' call' hcall' hsame
          by_cases hc : c' = c
          · subst hc
            obtain ⟨hnone, -⟩ | ⟨await, hinitializing, hnext⟩ := h.resumed hs hcall ok
            · rw [hnone] at hcall'
              cases hcall'
            · rw [hnext] at hcall'
              obtain rfl := Option.some.inj hcall'
              use (h.calls c' call hcall rfl).1, hinitializing
          · rw [hs', get_calls_resume hc] at hcall'
            apply h.calls c' call' hcall' hsame
      · apply h.of_same ((Touches.resume s c call e ok).others i (Ne.symm heq))
        intro c' call' hcall' hsame
        by_cases hc : c' = c
        · subst hc
          obtain ⟨await, rfl⟩ := call_of_resume hcall hcall'
          apply (heq hsame).elim
        · left
          rwa [get_calls_resume hc] at hcall'
  | ignored => apply h
  | scheduled k f => exact ⟨h.unclaimed, h.calls⟩

end Dormant

/-! ### Engines that are being initialised -/

/-- One call initialises an engine, and no other call is for it. -/
structure Initializing (i c : ℕ) (s : Engines) : Prop where
  dormant : Dormant i s
  call : ∃ call, s.calls.get c = some call ∧ call.engine = i
  only : ∀ c' call, s.calls.get c' = some call → call.engine = i → c' = c

/-- An engine that no call starts. -/
def Resting (i : ℕ) (s : Engines) : Prop :=
  Dormant i s ∨ ∀ c call, s.calls.get c = some call → call.engine ≠ i

theorem Resting.handle (h : Resting i s) (hs : Coherent s) {event : EngineEvent}
    (henabled : s.enabled event = true) (hcallee : event.callee ≠ some i) :
  Resting i (s.handle event)
  := by
  obtain hd | hnone := h
  · exact .inl (hd.handle hs henabled (EngineEvent.starts_ne hcallee))
  · right
    rintro c call hcall rfl
    obtain ⟨call', hcall', hengine⟩ | ⟨-, -, hsame⟩ := calls_of_handle hs henabled hcall
    · apply hnone c call' hcall' hengine
    · apply hcallee hsame

/-- An engine that no call starts can be stopped. -/
theorem Resting.stop (h : Resting i s) (e : Engine) :
  Dormant i (s.stop i e)
  := by
  apply Dormant.stop fun hne => absurd rfl hne
  intro c call hcall hengine
  obtain hd | hnone := h
  · apply hd.calls c call hcall hengine
  · apply (hnone c call hcall hengine).elim

namespace Initializing

variable {c : ℕ}

/-- It goes on undisturbed by what happens to other engines. -/
theorem handle (h : Initializing i c s) (hs : Coherent s) (hnumbered : s.Numbered)
    {event : EngineEvent} (henabled : s.enabled event = true)
    (hcallee : event.callee ≠ some i) (hresumes : event.resumes ≠ some c) :
  Initializing i c (s.handle event)
  := by
  use h.dormant.handle hs henabled (EngineEvent.starts_ne hcallee)
  · obtain ⟨call, hcall, rfl⟩ := h.call
    apply call_handle hs hnumbered henabled hresumes hcall
  · rintro c' call hcall rfl
    obtain ⟨call', hcall', hengine⟩ | ⟨-, -, hsame⟩ := calls_of_handle hs henabled hcall
    · apply h.only c' call' hcall' hengine
    · apply absurd hsame hcallee

/-- `initialize` goes on with its engine until it returns. It has then initialised the engine,
unless it has thrown. -/
theorem resume (h : Initializing i c s) (hs : Coherent s) (ok : Bool) :
  (∀ c' call, (s.handle (.resume c ok)).calls.get c' = some call → call.engine ≠ i) ∧
      (ok = true → (s.handle (.resume c ok)).Initialized i) ∨
    Initializing i c (s.handle (.resume c ok))
  := by
  obtain ⟨call, hcall, rfl⟩ := h.call
  have henabled : s.enabled (.resume c ok) = true := JsMap.has_of_get hcall
  have honly : ∀ c' call', (s.handle (.resume c ok)).calls.get c' = some call' →
      call'.engine = call.engine → c' = c := by
    intro c' call' hcall' hengine
    obtain ⟨call₀, hcall₀, hsame⟩ | ⟨-, -, hcallee⟩ := calls_of_handle hs henabled hcall'
    · apply h.only c' call₀ hcall₀ (hsame.trans hengine)
    · cases hcallee
  obtain ⟨hnone, hinitialized⟩ | ⟨await, -, hnext⟩ := h.dormant.resumed hs hcall ok
  · left
    apply And.intro _ hinitialized
    intro c' call' hcall' hengine
    rw [honly c' call' hcall' hengine, hnone] at hcall'
    cases hcall'
  · right
    have hdormant := h.dormant.handle hs henabled (Option.some_ne_none _).symm
    exact ⟨hdormant, ⟨_, hnext, rfl⟩, honly⟩

/-- The engine that is made next. -/
theorem of_create (hs : Coherent s) (cacheDirPath : String)
    (servers : List ProviderServerConfig) (hservers : servers ≠ []) :
  Initializing s.engineSeq s.callSeq
    ((s.handle (.create cacheDirPath servers)).handle (.callInitialize s.engineSeq))
  := by
  have henabled : s.enabled (.create cacheDirPath servers) = true := by
    simp [Engines.enabled, hservers]
  have hcreated := hs.handle henabled trivial
  have hd := (Dormant.fresh hs).handle hs henabled (Option.some_ne_none _).symm
  have hget : (s.handle (.create cacheDirPath servers)).engines.get s.engineSeq =
      some ⟨cacheDirPath, servers, .empty, false, false⟩ := JsMap.get_set_self _ _ _
  have henabled' : (s.handle (.create cacheDirPath servers)).enabled
      (.callInitialize s.engineSeq) = true := JsMap.has_of_get hget
  have hhandle : (s.handle (.create cacheDirPath servers)).handle (.callInitialize s.engineSeq) =
      (s.handle (.create cacheDirPath servers)).addCall
        ⟨s.engineSeq, none, .ensureReady, false⟩ :=
    (Coherent.withEngine_eq hget _).trans rfl
  constructor
  · apply hd.handle hcreated henabled' (Option.some_ne_none _).symm
  · rw [hhandle]
    exact ⟨_, JsMap.get_set_self _ _ _, rfl⟩
  · intro c call hcall hengine
    rw [hhandle, Engines.addCall, JsMap.get_set] at hcall
    split at hcall
    · next heq => apply heq
    · change s.calls.get c = some call at hcall
      obtain ⟨e, he, -⟩ := hs.calls c call hcall
      rw [hengine] at he
      apply absurd (hs.engines _ e he) (Nat.lt_irrefl _)

end Initializing

/-! ### Engines that are being started -/

/-- The servers that a call of `start` has not come past. -/
def Await.remaining (e : Engine) : Await → List ProviderServerConfig
  | .initialized => e.servers
  | .warmup server _ rest => server :: rest
  | _ => []

/-- How far a call of `start` has come: what runs is for the servers before. -/
structure Progress (s : Engines) (call : Call) (e : Engine)
    (before servers : List ProviderServerConfig) : Prop where
  warmup : call.warmup = some true
  overtaken : call.overtaken = false
  engine : s.engines.get call.engine = some e
  nodup : (e.servers.map ProviderServerConfig.id).Nodup
  servers : e.servers = before ++ servers
  running : ∀ h entry, s.Running h entry → entry.engine = call.engine →
    entry.serverId ∈ before.map ProviderServerConfig.id

/-- One call starts an engine, and no other call is for it. -/
structure Starting (i c : ℕ) (s : Engines) : Prop where
  call : ∃ call e before, s.calls.get c = some call ∧ call.engine = i ∧
    ¬ call.await.Initializing ∧ Progress s call e before (call.await.remaining e)
  only : ∀ c' call, s.calls.get c' = some call → call.engine = i → c' = c

theorem Progress.of_same {call : Call} {e e' : Engine} {before servers : List ProviderServerConfig}
    (h : Progress s call e before servers) (he : s'.engines.get call.engine = some e')
    (hservers : e'.servers = e.servers)
    (hschedulers : s'.schedulers = s.schedulers) :
  Progress s' call e' before servers
  := by
  refine ⟨h.warmup, h.overtaken, he, ?_, ?_, ?_⟩
  · rw [hservers]
    apply h.nodup
  · rw [hservers]
    apply h.servers
  · intro k entry hrunning
    rw [Engines.Running, hschedulers] at hrunning
    apply h.running k entry hrunning

/-- A server is skipped. -/
theorem Progress.skip {call : Call} {e : Engine} {before rest : List ProviderServerConfig}
    {server : ProviderServerConfig} (h : Progress s call e before (server :: rest)) :
  Progress s call e (before ++ [server]) rest
  := by
  refine ⟨h.warmup, h.overtaken, h.engine, h.nodup, ?_, ?_⟩
  · rw [h.servers, List.append_assoc, List.singleton_append]
  · intro k entry hrunning hengine
    rw [List.map_append]
    apply List.mem_append_left
    apply h.running k entry hrunning hengine

/-- The scheduler of a server is started. -/
theorem Progress.launch {call : Call} {e : Engine} {before rest : List ProviderServerConfig}
    {server : ProviderServerConfig} (h : Progress s call e before (server :: rest))
    (object : Option ℕ) :
  ∃ e', Progress (s.launch call.engine server object) call e' (before ++ [server]) rest
  := by
  obtain ⟨e', he', hservers⟩ := (Touches.launch s call.engine server object).get h.engine
  obtain ⟨-, -, hschedulers, -, -, -⟩ := s.launch_eq call.engine server object
  use e'
  refine ⟨h.warmup, h.overtaken, he', ?_, ?_, ?_⟩
  · rw [hservers]
    apply h.nodup
  · rw [hservers, h.servers, List.append_assoc, List.singleton_append]
  · rintro k entry ⟨hentry, hstopped⟩ hengine
    rw [hschedulers, JsMap.get_set] at hentry
    rw [List.map_append]
    split at hentry
    · obtain rfl := Option.some.inj hentry
      apply List.mem_append_right
      apply List.mem_singleton_self
    · apply List.mem_append_left
      apply h.running k entry ⟨hentry, hstopped⟩ hengine

namespace Starting

variable {c : ℕ}

/-- A call starts only one engine. -/
theorem unique {j : ℕ} (h : Starting i c s) (h' : Starting j c s) :
  i = j
  := by
  obtain ⟨call, -, -, hcall, rfl, -⟩ := h.call
  obtain ⟨call', -, -, hcall', rfl, -⟩ := h'.call
  rw [hcall] at hcall'
  rw [Option.some.inj hcall']

/-- An engine is not started while it is initialised. -/
theorem not_initializing {c' : ℕ} (h : Starting i c s) :
  ¬ Initializing i c' s
  := by
  intro hi
  obtain ⟨call, -, -, hcall, hengine, hnot, -⟩ := h.call
  apply hnot (hi.dormant.calls c call hcall hengine).2

theorem undisturbed_resume (h : Starting i c s) (ok : Bool) :
  s.Undisturbed (.resume c ok)
  := by
  obtain ⟨call, e, before, hcall, rfl, hnot, hp⟩ := h.call
  intro call' hcall' e' he'
  rw [hcall] at hcall'
  cases hcall'
  rw [hp.engine] at he'
  cases he'
  have hstartable : ∀ servers, s.startable call servers = [] := by
    intro servers
    rw [Engines.startable, hp.warmup]
    rfl
  rw [Engines.launched]
  cases hawait : call.await with
  | initialized =>
      dsimp only
      rw [hstartable]
      simp [Await.loading]
  | warmup server object rest =>
      dsimp only
      rw [hstartable]
      constructor
      · intro server' hserver'
        rw [List.mem_singleton.mp hserver']
        use hp.overtaken
        intro entry hentry hstopped hengine heq
        obtain ⟨k, hk⟩ := JsMap.mem_values.mp hentry
        have hmem := hp.running k entry ⟨hk, hstopped⟩ hengine
        have hnodup := hp.nodup
        rw [hp.servers, hawait, Await.remaining, List.map_append, List.map_cons,
          List.nodup_append] at hnodup
        apply hnodup.2.2 _ hmem _ List.mem_cons_self heq
      · simp [Await.loading]
  | _ =>
      rw [hawait] at hnot
      apply absurd trivial hnot

/-- The loop of `start` waits for a warm-up, or comes to its end. -/
theorem startServers {call : Call} {e : Engine} {before servers : List ProviderServerConfig}
    (honly : ∀ c' call', s.calls.get c' = some call' → call'.engine = call.engine → c' = c)
    (hp : Progress s call e before servers) :
  (∀ c' call', (Engines.startServers c call true s servers).calls.get c' = some call' →
      call'.engine ≠ call.engine) ∨
    Starting call.engine c (Engines.startServers c call true s servers)
  := by
  induction servers generalizing before with
  | nil =>
      left
      intro c' call' hcall' hengine
      rw [Engines.startServers, Engines.returns, JsMap.get_delete] at hcall'
      split at hcall'
      · cases hcall'
      · next hne =>
          rw [Engines.calls_updateEngine] at hcall'
          apply hne (honly c' call' hcall' hengine)
  | cons server rest ih =>
      rw [Engines.startServers]
      split
      · right
        obtain ⟨e', he', hservers⟩ := (Touches.claim s call.engine server.id).get hp.engine
        have hclaim := hp.of_same he' hservers (schedulers_claim _ _ _)
        rw [if_pos rfl]
        constructor
        · refine ⟨_, e', before, JsMap.get_set_self _ _ _, rfl, id, ?_⟩
          exact ⟨hclaim.warmup, hclaim.overtaken, hclaim.engine, hclaim.nodup, hclaim.servers,
            hclaim.running⟩
        · intro c' call' hcall' hengine
          rw [Engines.awaits, JsMap.get_set] at hcall'
          split at hcall'
          · next heq => apply heq
          · rw [calls_claim] at hcall'
            apply honly c' call' hcall' hengine
      · apply ih hp.skip

/-- `start` goes on with its engine until it returns. -/
theorem resume (hs : Coherent s) (h : Starting i c s) (ok : Bool) :
  (∀ c' call, (s.handle (.resume c ok)).calls.get c' = some call → call.engine ≠ i) ∨
    Starting i c (s.handle (.resume c ok))
  := by
  obtain ⟨⟨call, e, before, hcall, rfl, hnot, hp⟩, honly⟩ := h
  obtain ⟨e', he', hhandle⟩ := handle_resume hs hcall ok
  rw [hp.engine] at he'
  obtain rfl := Option.some.inj he'
  rw [hhandle, Engines.resume]
  cases hawait : call.await with
  | initialized =>
      rw [hawait] at hp
      dsimp only
      rw [hp.warmup, Option.getD_some]
      apply startServers honly hp
  | warmup server object rest =>
      rw [hawait] at hp
      dsimp only
      rw [hp.warmup, Option.getD_some]
      obtain ⟨e', hlaunch⟩ := hp.launch object
      apply startServers _ hlaunch
      rw [calls_launch]
      apply honly
  | _ =>
      rw [hawait] at hnot
      apply absurd trivial hnot

/-- What becomes of other engines does not matter. -/
theorem of_same (h : Starting i c s) (hget : s'.engines.get i = s.engines.get i)
    (hcall : s'.calls.get c = s.calls.get c) (hschedulers : s'.schedulers = s.schedulers)
    (hcalls : ∀ c' call, s'.calls.get c' = some call → call.engine = i →
      ∃ call', s.calls.get c' = some call' ∧ call'.engine = i) :
  Starting i c s'
  := by
  obtain ⟨⟨call, e, before, hc, rfl, hnot, hp⟩, honly⟩ := h
  constructor
  · use call, e, before, hcall.trans hc, rfl, hnot
    apply hp.of_same (hget.trans hp.engine) rfl hschedulers
  · intro c' call' hc' hengine
    obtain ⟨call₀, hc₀, hengine₀⟩ := hcalls c' call' hc' hengine
    apply honly c' call₀ hc₀ hengine₀

/-- Another engine is initialised meanwhile. -/
theorem resume_of_dormant (hs : Coherent s) (h : Starting i c s) {c' : ℕ} {call : Call}
    (hcall : s.calls.get c' = some call) (hd : Dormant call.engine s) (hne : call.engine ≠ i)
    (ok : Bool) :
  Starting i c (s.handle (.resume c' ok))
  := by
  obtain ⟨e, he, hhandle⟩ := handle_resume hs hcall ok
  have hc : c ≠ c' := by
    rintro rfl
    obtain ⟨call', -, -, hcall', hengine, -⟩ := h.call
    rw [hcall] at hcall'
    obtain rfl := Option.some.inj hcall'
    apply hne hengine
  have hschedulers := hd.schedulers_resume hs hcall ok
  rw [hhandle] at hschedulers ⊢
  apply h.of_same ((Touches.resume s c' call e ok).others i (Ne.symm hne))
    (get_calls_resume hc e ok) hschedulers
  intro c'' call' hcall' hengine
  by_cases heq : c'' = c'
  · subst heq
    obtain ⟨await, rfl⟩ := call_of_resume hcall hcall'
    apply (hne hengine).elim
  · rw [get_calls_resume heq] at hcall'
    use call'

/-- The timers and the runs of schedulers do not matter either. -/
theorem updateScheduler (h : Starting i c s) (handle : ℕ) {f : Scheduler → Scheduler}
    (hf : ∀ scheduler, (f scheduler).stopped = scheduler.stopped) :
  Starting i c (s.updateScheduler handle f)
  := by
  obtain ⟨⟨call, e, before, hcall, hengine, hnot, hp⟩, honly⟩ := h
  refine ⟨⟨call, e, before, hcall, hengine, hnot, ?_⟩, honly⟩
  refine ⟨hp.warmup, hp.overtaken, hp.engine, hp.nodup, hp.servers, ?_⟩
  rintro k entry ⟨hentry, hstopped⟩ hengine
  rw [Engines.updateScheduler, JsMap.get_mapValues, Option.map_eq_some_iff] at hentry
  obtain ⟨entry₀, hentry₀, rfl⟩ := hentry
  split at hstopped
  · next heq =>
      rw [if_pos heq] at hengine ⊢
      rw [hf] at hstopped
      apply hp.running k entry₀ ⟨hentry₀, hstopped⟩ hengine
  · next hne =>
      rw [if_neg hne] at hengine ⊢
      apply hp.running k entry₀ ⟨hentry₀, hstopped⟩ hengine

/-- `start` is called of an engine that has been initialised. It returns at once if the engine has
been started. -/
theorem of_start (hs : Coherent s) (hd : Dormant i s) {e : Engine}
    (hcalls : ∀ c call, s.calls.get c = some call → call.engine ≠ i)
    (he : s.engines.get i = some e) (hnodup : (e.servers.map ProviderServerConfig.id).Nodup)
    (hinitialized : e.initialized = true) :
  s.handle (.start i true) = s ∨
    (s.handle (.start i true)).callSeq = s.callSeq + 1 ∧
      Starting i s.callSeq (s.handle (.start i true))
  := by
  rw [Engines.handle, Coherent.withEngine_eq he]
  split
  · exact .inl rfl
  · right
    rw [Engines.callInitialize, if_pos hinitialized]
    use rfl
    constructor
    · refine ⟨_, e, [], JsMap.get_set_self _ _ _, rfl, id, ?_⟩
      refine ⟨rfl, rfl, he, hnodup, rfl, ?_⟩
      intro k entry hrunning hengine
      apply absurd hengine (not_running_of_unclaimed hs hd.unclaimed hrunning)
    · intro c' call hcall hengine
      rw [Engines.addCall, JsMap.get_set] at hcall
      split at hcall
      · next heq => apply heq
      · apply (hcalls c' call hcall hengine).elim

end Starting

end

end ProviderSync
