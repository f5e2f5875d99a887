import OpencodeToolbelt.ProviderSync.Engines

/-!
# Who runs the scheduler of a server

An engine that runs the scheduler of a server owns it, and keeps its handle, so that `stop`
finds it. That fails when calls of one engine overlap.
-/

namespace ProviderSync

/-! ### Keys -/

theorem Engine.key_inj {e : Engine} {serverId serverId' : String}
    (h : e.key serverId = e.key serverId') :
  serverId = serverId'
  := (String.append_right_inj _).mp h

/-- The server whose state a call waits for in `initialize`. -/
def Await.loading : Await → Option ProviderServerConfig
  | .load server _ => some server
  | _ => none

namespace Engines

/-- A scheduler that has been started and not been stopped. -/
def Running (s : Engines) (h : ℕ) (entry : SchedulerHandle) : Prop :=
  s.schedulers.get h = some entry ∧ entry.scheduler.stopped = false

/-- The servers that a call of `start` without a warm-up starts the schedulers of. -/
def startable (s : Engines) (call : Call) (servers : List ProviderServerConfig) :
    List ProviderServerConfig :=
  if call.warmup.getD true then []
  else servers.filter fun server => s.claims call.engine server.id

/-- The servers whose schedulers a call starts when it goes on. -/
def launched (s : Engines) (call : Call) (e : Engine) : List ProviderServerConfig :=
  match call.await with
  | .initialized => s.startable call e.servers
  | .warmup server _ rest => server :: s.startable call rest
  | _ => []

/-- No call goes on to start a scheduler after its engine has been stopped, or while one runs
for the same server, nor to replace the runtime of a server whose scheduler the engine owns. -/
def Undisturbed (s : Engines) : EngineEvent → Prop
  | .resume c ok =>
      ∀ call ∈ s.calls.get c, ∀ e ∈ s.engines.get call.engine,
        (∀ server ∈ s.launched call e, call.overtaken = false ∧
          ∀ entry ∈ s.schedulers.values, entry.scheduler.stopped = false →
            entry.engine = call.engine → entry.serverId ≠ server.id) ∧
        ((s.launched call e).map ProviderServerConfig.id).Nodup ∧
        (ok = true → ∀ server ∈ call.await.loading,
          s.schedulerOwnersByKey.get (e.key server.id) ≠ some call.engine)
  | _ => True

instance (s : Engines) (event : EngineEvent) :
  Decidable (s.Undisturbed event)
  := by
  unfold Undisturbed
  split <;> infer_instance

theorem Undisturbed.resume {s : Engines} {c : ℕ} {ok : Bool} (h : s.Undisturbed (.resume c ok))
    {call : Call} {e : Engine} (hc : s.calls.get c = some call)
    (he : s.engines.get call.engine = some e) :
  (∀ server ∈ s.launched call e, call.overtaken = false ∧
      ∀ h entry, s.Running h entry → entry.engine = call.engine → entry.serverId ≠ server.id) ∧
    ((s.launched call e).map ProviderServerConfig.id).Nodup ∧
    (ok = true → ∀ server ∈ call.await.loading,
      s.schedulerOwnersByKey.get (e.key server.id) ≠ some call.engine)
  := by
  obtain ⟨hlaunched, hrest⟩ := h call hc e he
  constructor
  · intro server hserver
    obtain ⟨hovertaken, hnone⟩ := hlaunched server hserver
    use hovertaken
    intro h entry hrunning
    apply hnone entry _ hrunning.2
    apply JsMap.mem_values.mpr ⟨h, hrunning.1⟩
  · apply hrest

/-! ### Changes of an engine -/

variable (s : Engines)

/-- A change of an engine leaves everything else as it is. -/
theorem updateEngine_eq (i : ℕ) (f : Engine → Engine) :
  ∃ engines, s.updateEngine i f = { s with engines } ∧
    ∀ j, engines.get j = (s.engines.get j).map fun e => if j = i then f e else e
  := by
  unfold updateEngine
  split
  · next hnone =>
      use s.engines, rfl
      intro j
      by_cases hj : j = i
      · subst hj
        rw [hnone]
        rfl
      · simp [hj]
  · next e he =>
      use s.engines.set i (f e), rfl
      intro j
      by_cases hj : j = i
      · subst hj
        rw [JsMap.get_set_self, he]
        simp
      · rw [JsMap.get_set_of_ne _ hj]
        simp [hj]

@[simp]
theorem schedulers_updateEngine (i : ℕ) (f : Engine → Engine) :
  (s.updateEngine i f).schedulers = s.schedulers
  := by
  unfold updateEngine
  split <;> rfl

@[simp]
theorem schedulerOwnersByKey_updateEngine (i : ℕ) (f : Engine → Engine) :
  (s.updateEngine i f).schedulerOwnersByKey = s.schedulerOwnersByKey
  := by
  unfold updateEngine
  split <;> rfl

@[simp]
theorem engineSeq_updateEngine (i : ℕ) (f : Engine → Engine) :
  (s.updateEngine i f).engineSeq = s.engineSeq
  := by
  unfold updateEngine
  split <;> rfl

@[simp]
theorem schedulerSeq_updateEngine (i : ℕ) (f : Engine → Engine) :
  (s.updateEngine i f).schedulerSeq = s.schedulerSeq
  := by
  unfold updateEngine
  split <;> rfl

@[simp]
theorem calls_updateEngine (i : ℕ) (f : Engine → Engine) :
  (s.updateEngine i f).calls = s.calls
  := by
  unfold updateEngine
  split <;> rfl

end Engines

/-- An engine whose runtimes have been changed. -/
structure EngineUpdates (f : String → ServerRuntime → ServerRuntime) (e e' : Engine) : Prop where
  cacheDirPath : e'.cacheDirPath = e.cacheDirPath
  servers : e'.servers = e.servers
  initialized : e'.initialized = e.initialized
  runtimes : ∀ serverId,
    e'.runtimeByServer.get serverId = (e.runtimeByServer.get serverId).map (f serverId)

/-- Engines whose runtimes have been changed. -/
structure Updates (f : ℕ → String → ServerRuntime → ServerRuntime) (s s' : Engines) : Prop where
  old : ∀ j e', s'.engines.get j = some e' →
    ∃ e, s.engines.get j = some e ∧ EngineUpdates (f j) e e'
  new : ∀ j e, s.engines.get j = some e →
    ∃ e', s'.engines.get j = some e' ∧ EngineUpdates (f j) e e'

theorem EngineUpdates.key {f : String → ServerRuntime → ServerRuntime} {e e' : Engine}
    (h : EngineUpdates f e e') (serverId : String) :
  e'.key serverId = e.key serverId
  := by
  rw [Engine.key, Engine.key, h.cacheDirPath]

theorem Updates.of_updateEngine (s : Engines) (i : ℕ) {f : Engine → Engine}
    {g : ℕ → String → ServerRuntime → ServerRuntime} (hf : ∀ e, EngineUpdates (g i) e (f e))
    (hg : ∀ j, j ≠ i → ∀ serverId r, g j serverId r = r) :
  Updates g s (s.updateEngine i f)
  := by
  obtain ⟨engines, heq, hget⟩ := s.updateEngine_eq i f
  have heach : ∀ j e, EngineUpdates (g j) e (if j = i then f e else e) := by
    intro j e
    split
    · next hj =>
        subst hj
        apply hf
    · next hj =>
        have hid : ∀ serverId, g j serverId = id := fun serverId => funext (hg j hj serverId)
        refine ⟨rfl, rfl, rfl, ?_⟩
        intro serverId
        rw [hid, Option.map_id, id]
  rw [heq]
  constructor
  · intro j e' he'
    simp only [hget, Option.map_eq_some_iff] at he'
    obtain ⟨e, he, rfl⟩ := he'
    exact ⟨e, he, heach j e⟩
  · intro j e he
    simp only [hget, he, Option.map_some]
    exact ⟨_, rfl, heach j e⟩

theorem Updates.of_updateRuntime (s : Engines) (i : ℕ) (serverId : String)
    (f : ServerRuntime → ServerRuntime) :
  Updates (fun j k r => if j = i ∧ k = serverId then f r else r) s (s.updateRuntime i serverId f)
  := by
  apply Updates.of_updateEngine
  · intro e
    refine ⟨rfl, rfl, rfl, ?_⟩
    intro k
    simp
  · intro j hj k r
    simp [hj]

/-- A claim sets the owner and says so in the runtime. -/
theorem Engines.claim_eq (s : Engines) {i : ℕ} {e : Engine} (he : s.engines.get i = some e)
    (serverId : String) :
  Updates (fun j k r => if j = i ∧ k = serverId then { r with ownsScheduler := true } else r) s
      (s.claim i serverId) ∧
    (s.claim i serverId).schedulerOwnersByKey = s.schedulerOwnersByKey.set (e.key serverId) i ∧
    (s.claim i serverId).schedulers = s.schedulers ∧
    (s.claim i serverId).engineSeq = s.engineSeq ∧
    (s.claim i serverId).schedulerSeq = s.schedulerSeq ∧ (s.claim i serverId).calls = s.calls
  := by
  simp only [Engines.claim, he]
  refine ⟨?_, ?_, ?_, ?_, ?_, ?_⟩
  · have hu := Updates.of_updateRuntime
      { s with schedulerOwnersByKey := s.schedulerOwnersByKey.set (e.key serverId) i } i serverId
      fun runtime => { runtime with ownsScheduler := true }
    exact ⟨hu.old, hu.new⟩
  all_goals simp [Engines.updateRuntime]

/-- A scheduler that is started has a new handle, which the runtime keeps. -/
theorem Engines.launch_eq (s : Engines) (i : ℕ) (server : ProviderServerConfig)
    (object : Option ℕ) :
  Updates (fun j k r => if j = i ∧ k = server.id then
        if object = some r.object then { r with scheduler := some s.schedulerSeq } else r
      else r) s (s.launch i server object) ∧
    (s.launch i server object).schedulerOwnersByKey = s.schedulerOwnersByKey ∧
    (s.launch i server object).schedulers =
      s.schedulers.set s.schedulerSeq ⟨i, server.id, startScheduler server.intervalMs⟩ ∧
    (s.launch i server object).engineSeq = s.engineSeq ∧
    (s.launch i server object).schedulerSeq = s.schedulerSeq + 1 ∧
    (s.launch i server object).calls = s.calls
  := by
  unfold Engines.launch
  refine ⟨?_, ?_, ?_, ?_, ?_, ?_⟩
  · have hu := Updates.of_updateRuntime
      { s with
        schedulers := s.schedulers.set s.schedulerSeq
          ⟨i, server.id, startScheduler server.intervalMs⟩
        schedulerSeq := s.schedulerSeq + 1 } i server.id
      fun runtime =>
        if object = some runtime.object then { runtime with scheduler := some s.schedulerSeq }
        else runtime
    exact ⟨hu.old, hu.new⟩
  all_goals simp [Engines.updateRuntime]

/-! ### The invariant -/

/-- What the engine knows when a call waits. -/
def Waits (e : Engine) (call : Call) : Prop :=
  match call.await with
  | .initialized => e.initialized = true
  | .ensureReady => True
  | .load server rest =>
      ∃ done, e.servers = done ++ server :: rest ∧
        ∀ server ∈ done, e.runtimeByServer.has server.id = true
  | .warmup server object rest =>
      e.initialized = true ∧ (∀ server ∈ rest, server ∈ e.servers) ∧
        (call.overtaken = false →
          ∃ r, e.runtimeByServer.get server.id = some r ∧ object = some r.object ∧
            r.ownsScheduler = true)

/-- What the engines of a process and the calls that wait know of each other. -/
structure Known (s : Engines) : Prop where
  engines : ∀ i e, s.engines.get i = some e → i < s.engineSeq
  initialized : ∀ i e, s.engines.get i = some e → e.initialized = true →
    ∀ server ∈ e.servers, e.runtimeByServer.has server.id = true
  calls : ∀ c call, s.calls.get c = some call →
    ∃ e, s.engines.get call.engine = some e ∧ Waits e call

/-- What the registry and the engines know of the schedulers. -/
structure Registered (s : Engines) : Prop where
  handles : ∀ h entry, s.schedulers.get h = some entry → h < s.schedulerSeq
  owners : ∀ key i, s.schedulerOwnersByKey.get key = some i → i < s.engineSeq
  owned : ∀ i e serverId, s.engines.get i = some e →
    s.schedulerOwnersByKey.get (e.key serverId) = some i →
      ∃ r, e.runtimeByServer.get serverId = some r ∧ r.ownsScheduler = true
  owns : ∀ i e serverId r, s.engines.get i = some e → e.runtimeByServer.get serverId = some r →
    r.ownsScheduler = true → s.schedulerOwnersByKey.get (e.key serverId) = some i
  kept : ∀ i e serverId r h, s.engines.get i = some e → e.runtimeByServer.get serverId = some r →
    r.scheduler = some h →
      ∃ entry, s.schedulers.get h = some entry ∧ entry.engine = i ∧ entry.serverId = serverId
  running : ∀ h entry, s.Running h entry →
    ∃ e r, s.engines.get entry.engine = some e ∧
      e.runtimeByServer.get entry.serverId = some r ∧ r.scheduler = some h ∧
        r.ownsScheduler = true

/-- What holds of the engines of a process between events, unless calls overlap. -/
structure Coherent (s : Engines) : Prop extends Known s, Registered s

/-- A change of runtimes that keeps which they are, and who owns their scheduler. -/
def Faithful (f : ℕ → String → ServerRuntime → ServerRuntime) : Prop :=
  ∀ j serverId r, (f j serverId r).object = r.object ∧
    (r.ownsScheduler = true → (f j serverId r).ownsScheduler = true)

theorem EngineUpdates.has {f : String → ServerRuntime → ServerRuntime} {e e' : Engine}
    (h : EngineUpdates f e e') (serverId : String) :
  e'.runtimeByServer.has serverId = e.runtimeByServer.has serverId
  := by
  rw [JsMap.has, JsMap.has, h.runtimes, Option.isSome_map]

theorem Waits.updates {f : ℕ → String → ServerRuntime → ServerRuntime} {j : ℕ} {e e' : Engine}
    {call : Call} (h : Waits e call) (hu : EngineUpdates (f j) e e') (hf : Faithful f) :
  Waits e' call
  := by
  unfold Waits at h ⊢
  split at h
  · rw [hu.initialized]
    apply h
  · trivial
  · obtain ⟨done, hdone, hhas⟩ := h
    use done
    constructor
    · rw [hu.servers, hdone]
    · intro server hserver
      rw [hu.has]
      apply hhas server hserver
  · next server object rest _ =>
      obtain ⟨hinitialized, hrest, hr⟩ := h
      refine ⟨?_, ?_, ?_⟩
      · rw [hu.initialized, hinitialized]
      · rw [hu.servers]
        apply hrest
      · intro hovertaken
        obtain ⟨r, hget, hobject, howns⟩ := hr hovertaken
        use f j server.id r
        obtain ⟨hsame, hkeeps⟩ := hf j server.id r
        rw [hu.runtimes, hget, hsame]
        use rfl, hobject, hkeeps howns

/-- What the engines know does not depend on who owns what. -/
theorem Known.updates {s s' : Engines} (hs : Known s)
    {f : ℕ → String → ServerRuntime → ServerRuntime} (hu : Updates f s s') (hf : Faithful f)
    (hseq : s'.engineSeq = s.engineSeq) (hcalls : s'.calls = s.calls) :
  Known s'
  := by
  constructor
  · intro i e' he'
    obtain ⟨e, he, -⟩ := hu.old i e' he'
    rw [hseq]
    apply hs.engines i e he
  · intro i e' he' hinitialized server hserver
    obtain ⟨e, he, hup⟩ := hu.old i e' he'
    rw [hup.has]
    rw [hup.servers] at hserver
    rw [hup.initialized] at hinitialized
    apply hs.initialized i e he hinitialized server hserver
  · intro c call hc
    rw [hcalls] at hc
    obtain ⟨e, he, hwaits⟩ := hs.calls c call hc
    obtain ⟨e', he', hup⟩ := hu.new call.engine e he
    use e', he', hwaits.updates hup hf

/-! ### Claiming and starting a scheduler -/

namespace Coherent

variable {s s' : Engines}

theorem initial :
  Coherent .initial
  := by
  have hnone : ∀ {K V : Type} [DecidableEq K] (k : K) (v : V),
      (JsMap.empty : JsMap K V).get k ≠ some v := by
    intro K V _ k v
    rw [JsMap.get_empty]
    exact nofun
  constructor
  · constructor
    · exact fun i e he => (hnone i e he).elim
    · exact fun i e he => (hnone i e he).elim
    · exact fun c call hc => (hnone c call hc).elim
  · constructor
    · exact fun h entry hentry => (hnone h entry hentry).elim
    · exact fun key i hi => (hnone key i hi).elim
    · exact fun i e _ he => (hnone i e he).elim
    · exact fun i e _ _ he => (hnone i e he).elim
    · exact fun i e _ _ _ he => (hnone i e he).elim
    · exact fun h entry hrunning => (hnone h entry hrunning.1).elim

/-- The calls that wait may change. -/
theorem withCalls (hs : Coherent s) {calls : JsMap ℕ Call} {callSeq : ℕ}
    (hcalls : ∀ c call, calls.get c = some call →
      ∃ e, s.engines.get call.engine = some e ∧ Waits e call) :
  Coherent { s with calls, callSeq }
  := ⟨⟨hs.engines, hs.initialized, hcalls⟩,
    ⟨hs.handles, hs.owners, hs.owned, hs.owns, hs.kept, hs.running⟩⟩

theorem addCall (hs : Coherent s) {call : Call} {e : Engine}
    (he : s.engines.get call.engine = some e) (hwaits : Waits e call) :
  Coherent (s.addCall call)
  := by
  apply hs.withCalls
  intro c call' hc
  rw [JsMap.get_set] at hc
  split at hc
  · obtain rfl := Option.some.inj hc
    use e, he
  · apply hs.calls c call' hc

theorem awaits (hs : Coherent s) (c : ℕ) {call : Call} {await : Await} {e : Engine}
    (he : s.engines.get call.engine = some e) (hwaits : Waits e { call with await }) :
  Coherent (s.awaits c call await)
  := by
  apply hs.withCalls
  intro c' call' hc
  rw [JsMap.get_set] at hc
  split at hc
  · obtain rfl := Option.some.inj hc
    use e, he
  · apply hs.calls c' call' hc

theorem returns (hs : Coherent s) (c : ℕ) :
  Coherent (s.returns c)
  := by
  apply hs.withCalls
  exact fun c' call hc => hs.calls c' call (JsMap.get_of_get_delete hc)

/-- A claim of a scheduler that nobody else owns. -/
theorem claim (hs : Coherent s) {i : ℕ} {serverId : String} {e : Engine} {r : ServerRuntime}
    (he : s.engines.get i = some e) (hr : e.runtimeByServer.get serverId = some r)
    (hclaims : s.claims i serverId = true) :
  Coherent (s.claim i serverId)
  := by
  have hfree : ∀ j, s.schedulerOwnersByKey.get (e.key serverId) = some j → j = i := by
    intro j hj
    simp only [Engines.claims, he, Option.any_some, hj, Option.all_some] at hclaims
    apply of_decide_eq_true hclaims
  obtain ⟨hu, howners, hschedulers, hseq, hschedulerSeq, hcalls⟩ := s.claim_eq he serverId
  generalize s.claim i serverId = s' at hu howners hschedulers hseq hschedulerSeq hcalls
  constructor
  · apply hs.toKnown.updates hu _ hseq hcalls
    intro j k r'
    beta_reduce
    split
    · exact ⟨rfl, fun _ => rfl⟩
    · exact ⟨rfl, id⟩
  · constructor
    · rw [hschedulers, hschedulerSeq]
      apply hs.handles
    · intro key j hj
      rw [howners, JsMap.get_set] at hj
      rw [hseq]
      split at hj
      · obtain rfl := Option.some.inj hj
        apply hs.engines i e he
      · apply hs.owners key j hj
    · intro j e' k he' hj
      obtain ⟨e₀, he₀, hup⟩ := hu.old j e' he'
      rw [howners, hup.key, JsMap.get_set] at hj
      rw [hup.runtimes]
      split at hj
      · next hkey =>
          obtain rfl := Option.some.inj hj
          rw [he] at he₀
          obtain rfl := Option.some.inj he₀
          obtain rfl := Engine.key_inj hkey
          simp [hr]
      · obtain ⟨r₀, hr₀, howns⟩ := hs.owned j e₀ k he₀ hj
        rw [hr₀, Option.map_some]
        refine ⟨_, rfl, ?_⟩
        split
        · rfl
        · apply howns
    · intro j e' k r' he' hr' howns
      obtain ⟨e₀, he₀, hup⟩ := hu.old j e' he'
      rw [hup.runtimes] at hr'
      obtain ⟨r₀, hr₀, rfl⟩ := Option.map_eq_some_iff.mp hr'
      rw [howners, hup.key, JsMap.get_set]
      by_cases hself : j = i ∧ k = serverId
      · obtain ⟨rfl, rfl⟩ := hself
        rw [he] at he₀
        obtain rfl := Option.some.inj he₀
        rw [if_pos rfl]
      · rw [if_neg hself] at howns
        have hold := hs.owns j e₀ k r₀ he₀ hr₀ howns
        split
        · next hkey =>
            rw [hkey] at hold
            rw [hfree j hold]
        · apply hold
    · intro j e' k r' h he' hr' hh
      obtain ⟨e₀, he₀, hup⟩ := hu.old j e' he'
      rw [hup.runtimes] at hr'
      obtain ⟨r₀, hr₀, rfl⟩ := Option.map_eq_some_iff.mp hr'
      rw [hschedulers]
      apply hs.kept j e₀ k r₀ h he₀ hr₀
      split at hh
      · apply hh
      · apply hh
    · intro h entry hrunning
      rw [Engines.Running, hschedulers] at hrunning
      obtain ⟨e₀, r₀, he₀, hr₀, hscheduler, howns⟩ := hs.running h entry hrunning
      obtain ⟨e', he', hup⟩ := hu.new _ e₀ he₀
      refine ⟨e', _, he', by rw [hup.runtimes, hr₀]; rfl, ?_, ?_⟩
      · split
        · apply hscheduler
        · apply hscheduler
      · split
        · rfl
        · apply howns

/-- A scheduler that is started for a server it owns and that has none running. -/
theorem launch (hs : Coherent s) {i : ℕ} {server : ProviderServerConfig} {object : Option ℕ}
    {e : Engine} {r : ServerRuntime} (he : s.engines.get i = some e)
    (hr : e.runtimeByServer.get server.id = some r) (hobject : object = some r.object)
    (howns : r.ownsScheduler = true)
    (hnone : ∀ h entry, s.Running h entry → entry.engine = i → entry.serverId ≠ server.id) :
  Coherent (s.launch i server object)
  := by
  obtain ⟨hu, howners, hschedulers, hseq, hschedulerSeq, hcalls⟩ := s.launch_eq i server object
  generalize s.launch i server object = s' at hu howners hschedulers hseq hschedulerSeq hcalls
  have hold : ∀ h entry, s.schedulers.get h = some entry →
      s'.schedulers.get h = some entry := by
    intro h entry hentry
    rw [hschedulers, JsMap.get_set_of_ne]
    · apply hentry
    · apply Nat.ne_of_lt (hs.handles h entry hentry)
  constructor
  · apply hs.toKnown.updates hu _ hseq hcalls
    intro j k r'
    beta_reduce
    split
    · split
      · exact ⟨rfl, id⟩
      · exact ⟨rfl, id⟩
    · exact ⟨rfl, id⟩
  · constructor
    · intro h entry hentry
      rw [hschedulers, JsMap.get_set] at hentry
      rw [hschedulerSeq]
      split at hentry
      · omega
      · apply Nat.lt_succ_of_lt (hs.handles h entry hentry)
    · rw [howners, hseq]
      apply hs.owners
    · intro j e' k he' hj
      obtain ⟨e₀, he₀, hup⟩ := hu.old j e' he'
      rw [howners, hup.key] at hj
      obtain ⟨r₀, hr₀, howns₀⟩ := hs.owned j e₀ k he₀ hj
      rw [hup.runtimes, hr₀, Option.map_some]
      refine ⟨_, rfl, ?_⟩
      split
      · split
        · apply howns₀
        · apply howns₀
      · apply howns₀
    · intro j e' k r' he' hr' howns'
      obtain ⟨e₀, he₀, hup⟩ := hu.old j e' he'
      rw [hup.runtimes] at hr'
      obtain ⟨r₀, hr₀, rfl⟩ := Option.map_eq_some_iff.mp hr'
      rw [howners, hup.key]
      apply hs.owns j e₀ k r₀ he₀ hr₀
      split at howns'
      · split at howns'
        · apply howns'
        · apply howns'
      · apply howns'
    · intro j e' k r' h he' hr' hh
      obtain ⟨e₀, he₀, hup⟩ := hu.old j e' he'
      rw [hup.runtimes] at hr'
      obtain ⟨r₀, hr₀, rfl⟩ := Option.map_eq_some_iff.mp hr'
      have hkept : r₀.scheduler = some h →
          ∃ entry, s'.schedulers.get h = some entry ∧ entry.engine = j ∧ entry.serverId = k := by
        intro hh
        obtain ⟨entry, hentry, hself⟩ := hs.kept j e₀ k r₀ h he₀ hr₀ hh
        use entry, hold h entry hentry
      split at hh
      · next hself =>
          split at hh
          · obtain rfl := Option.some.inj hh
            obtain ⟨rfl, rfl⟩ := hself
            rw [hschedulers, JsMap.get_set_self]
            exact ⟨_, rfl, rfl, rfl⟩
          · apply hkept hh
      · apply hkept hh
    · intro h entry hrunning
      obtain ⟨hentry, hstopped⟩ := hrunning
      rw [hschedulers, JsMap.get_set] at hentry
      split at hentry
      · next hself =>
          obtain rfl := Option.some.inj hentry
          obtain ⟨e', he', hup⟩ := hu.new i e he
          refine ⟨e', _, he', by rw [hup.runtimes, hr]; rfl, ?_, ?_⟩
          · simp [hobject, hself]
          · simp [hobject, howns]
      · obtain ⟨e₀, r₀, he₀, hr₀, hscheduler, howns₀⟩ := hs.running h entry ⟨hentry, hstopped⟩
        obtain ⟨e', he', hup⟩ := hu.new _ e₀ he₀
        have hother : ¬ (entry.engine = i ∧ entry.serverId = server.id) :=
          fun hself => hnone h entry ⟨hentry, hstopped⟩ hself.1 hself.2
        refine ⟨e', _, he', by rw [hup.runtimes, hr₀]; rfl, ?_, ?_⟩
        · beta_reduce
          rw [if_neg hother, hscheduler]
        · beta_reduce
          rw [if_neg hother, howns₀]

/-- A flag of an engine may change. -/
theorem updateFlag (hs : Coherent s) (i : ℕ) {f : Engine → Engine}
    (hf : ∀ e, (f e).cacheDirPath = e.cacheDirPath ∧ (f e).servers = e.servers ∧
      (f e).runtimeByServer = e.runtimeByServer ∧
        (e.initialized = true → (f e).initialized = true))
    (hinitialized : ∀ e, s.engines.get i = some e → (f e).initialized = true →
      ∀ server ∈ e.servers, e.runtimeByServer.has server.id = true) :
  Coherent (s.updateEngine i f)
  := by
  obtain ⟨engines, heq, hget⟩ := s.updateEngine_eq i f
  have hold : ∀ j e', engines.get j = some e' → ∃ e, s.engines.get j = some e ∧
      e'.cacheDirPath = e.cacheDirPath ∧ e'.servers = e.servers ∧
        e'.runtimeByServer = e.runtimeByServer ∧
          (e.initialized = true → e'.initialized = true) ∧
            (e'.initialized = true → ∀ server ∈ e.servers,
              e.runtimeByServer.has server.id = true) := by
    intro j e' he'
    rw [hget, Option.map_eq_some_iff] at he'
    obtain ⟨e, he, rfl⟩ := he'
    use e, he
    by_cases hj : j = i
    · subst hj
      obtain ⟨hdir, hservers, hruntimes, hmono⟩ := hf e
      rw [if_pos rfl]
      use hdir, hservers, hruntimes, hmono, hinitialized e he
    · rw [if_neg hj]
      use rfl, rfl, rfl, id, hs.initialized j e he
  have hnew : ∀ j e, s.engines.get j = some e → ∃ e', engines.get j = some e' := by
    intro j e he
    rw [hget, he]
    exact ⟨_, rfl⟩
  have hkey : ∀ {e e' : Engine} (k : String), e'.cacheDirPath = e.cacheDirPath →
      e'.key k = e.key k := by
    intro e e' k hdir
    rw [Engine.key, Engine.key, hdir]
  rw [heq]
  constructor
  · constructor
    · intro j e' he'
      obtain ⟨e, he, -⟩ := hold j e' he'
      apply hs.engines j e he
    · intro j e' he' hflag server hserver
      obtain ⟨e, he, -, hservers, hruntimes, -, hall⟩ := hold j e' he'
      rw [hruntimes]
      rw [hservers] at hserver
      apply hall hflag server hserver
    · intro c call hc
      obtain ⟨e, he, hwaits⟩ := hs.calls c call hc
      obtain ⟨e', he'⟩ := hnew _ e he
      use e', he'
      obtain ⟨e₁, he₁, -, hservers, hruntimes, hmono, -⟩ := hold _ e' he'
      rw [he] at he₁
      obtain rfl := Option.some.inj he₁
      unfold Waits at hwaits ⊢
      split at hwaits
      · apply hmono hwaits
      · trivial
      · rw [hservers, hruntimes]
        apply hwaits
      · obtain ⟨hflag, hrest⟩ := hwaits
        rw [hservers, hruntimes]
        use hmono hflag
  · constructor
    · exact hs.handles
    · exact hs.owners
    · intro j e' k he' hj
      obtain ⟨e, he, hdir, -, hruntimes, -⟩ := hold j e' he'
      rw [hkey k hdir] at hj
      rw [hruntimes]
      apply hs.owned j e k he hj
    · intro j e' k r he' hr howns
      obtain ⟨e, he, hdir, -, hruntimes, -⟩ := hold j e' he'
      rw [hruntimes] at hr
      rw [hkey k hdir]
      apply hs.owns j e k r he hr howns
    · intro j e' k r h he' hr hh
      obtain ⟨e, he, -, -, hruntimes, -⟩ := hold j e' he'
      rw [hruntimes] at hr
      apply hs.kept j e k r h he hr hh
    · intro h entry hrunning
      obtain ⟨e, r, he, hr, hrest⟩ := hs.running h entry hrunning
      obtain ⟨e', he'⟩ := hnew _ e he
      obtain ⟨e₁, he₁, -, -, hruntimes, -⟩ := hold _ e' he'
      rw [he] at he₁
      obtain rfl := Option.some.inj he₁
      use e', r, he'
      rw [hruntimes]
      use hr

/-! ### The loop of `start` -/

theorem claims_of_claim {i : ℕ} {serverId : String} {e : Engine}
    (he : s.engines.get i = some e) (hclaims : s.claims i serverId = true) (k : String) :
  (s.claim i serverId).claims i k = s.claims i k
  := by
  obtain ⟨hu, howners, -⟩ := s.claim_eq he serverId
  obtain ⟨e', he', hup⟩ := hu.new i e he
  simp only [Engines.claims, he, Option.any_some] at hclaims
  simp only [Engines.claims, he, he', Option.any_some, howners, hup.key, JsMap.get_set]
  split
  · next hkey =>
      rw [hkey, hclaims]
      simp
  · rfl

theorem claims_of_launch {i : ℕ} {server : ProviderServerConfig} {object : Option ℕ} {e : Engine}
    (he : s.engines.get i = some e) (k : String) :
  (s.launch i server object).claims i k = s.claims i k
  := by
  obtain ⟨hu, howners, -⟩ := s.launch_eq i server object
  obtain ⟨e', he', hup⟩ := hu.new i e he
  simp only [Engines.claims, he, he', Option.any_some, howners, hup.key]

/-- What runs after a scheduler has been started ran before, or is that scheduler. -/
theorem running_of_launch {i : ℕ} {server : ProviderServerConfig} {object : Option ℕ} {h : ℕ}
    {entry : SchedulerHandle} (hrunning : (s.launch i server object).Running h entry) :
  s.Running h entry ∨ entry.serverId = server.id
  := by
  obtain ⟨hentry, hstopped⟩ := hrunning
  obtain ⟨-, -, hschedulers, -⟩ := s.launch_eq i server object
  rw [hschedulers, JsMap.get_set] at hentry
  split at hentry
  · obtain rfl := Option.some.inj hentry
    exact .inr rfl
  · exact .inl ⟨hentry, hstopped⟩

/-- The servers that are still to be started have no scheduler after one has been started. -/
theorem none_of_launch {i : ℕ} {server : ProviderServerConfig} {object : Option ℕ}
    {servers : List ProviderServerConfig}
    (hnone : ∀ x ∈ servers, ∀ h entry, s.Running h entry → entry.engine = i →
      entry.serverId ≠ x.id)
    (hnew : server.id ∉ servers.map ProviderServerConfig.id) :
  ∀ x ∈ servers, ∀ h entry, (s.launch i server object).Running h entry → entry.engine = i →
    entry.serverId ≠ x.id
  := by
  intro x hx h entry hrunning hengine
  obtain hold | hself := running_of_launch hrunning
  · apply hnone x hx h entry hold hengine
  · intro heq
    apply hnew
    rw [← hself, heq]
    apply List.mem_map_of_mem hx

theorem startable_congr {call : Call} {servers : List ProviderServerConfig}
    (h : ∀ k, s'.claims call.engine k = s.claims call.engine k) :
  s'.startable call servers = s.startable call servers
  := by
  simp only [Engines.startable, h]

/-- The runtime of a server that has been initialised. -/
theorem runtime_of_initialized (hs : Coherent s) {i : ℕ} {e : Engine}
    (he : s.engines.get i = some e) (hinitialized : e.initialized = true)
    {server : ProviderServerConfig} (hserver : server ∈ e.servers) :
  ∃ r, e.runtimeByServer.get server.id = some r
  := Option.isSome_iff_exists.mp (hs.initialized i e he hinitialized server hserver)

/-- The schedulers that a call starts do not disturb those that run. -/
theorem startServers (hs : Coherent s) (c : ℕ) {call : Call} {warmup : Bool}
    (hwarmup : call.warmup.getD true = warmup) {servers : List ProviderServerConfig} {e : Engine}
    (he : s.engines.get call.engine = some e) (hinitialized : e.initialized = true)
    (hservers : ∀ server ∈ servers, server ∈ e.servers)
    (hnone : ∀ server ∈ s.startable call servers, ∀ h entry, s.Running h entry →
      entry.engine = call.engine → entry.serverId ≠ server.id)
    (hnodup : ((s.startable call servers).map ProviderServerConfig.id).Nodup) :
  Coherent (Engines.startServers c call warmup s servers)
  := by
  induction servers generalizing s e with
  | nil =>
      apply Coherent.returns
      apply hs.updateFlag
      · exact fun e => ⟨rfl, rfl, rfl, id⟩
      · exact fun e he hflag => hs.initialized _ e he hflag
  | cons server rest ih =>
      have hrest : ∀ x ∈ rest, x ∈ e.servers :=
        fun x hx => hservers x (List.mem_cons_of_mem server hx)
      unfold Engines.startServers
      split
      · next hclaims =>
          obtain ⟨r, hr⟩ := hs.runtime_of_initialized he hinitialized
            (hservers server List.mem_cons_self)
          have hclaimed := hs.claim he hr hclaims
          obtain ⟨hu, -, hschedulers, -⟩ := s.claim_eq he server.id
          obtain ⟨e₁, he₁, hup⟩ := hu.new call.engine e he
          have hr₁ : e₁.runtimeByServer.get server.id = some { r with ownsScheduler := true } := by
            rw [hup.runtimes, hr]
            simp
          have hobject : ((s.claim call.engine server.id).runtime call.engine server.id).map
              ServerRuntime.object = some r.object := by
            simp only [Engines.runtime, he₁, Option.bind_some, hr₁, Option.map_some]
          simp only [hobject]
          split
          · apply hclaimed.awaits c he₁
            refine ⟨?_, ?_, fun _ => ⟨_, hr₁, rfl, rfl⟩⟩
            · rw [hup.initialized, hinitialized]
            · rw [hup.servers]
              apply hrest
          · next hwarm =>
              have hstartable : s.startable call (server :: rest) =
                  server :: s.startable call rest := by
                simp [Engines.startable, hwarmup, hwarm, hclaims]
              rw [hstartable, List.map_cons, List.nodup_cons] at hnodup
              rw [hstartable] at hnone
              have hnone₁ : ∀ h entry, (s.claim call.engine server.id).Running h entry →
                  entry.engine = call.engine → entry.serverId ≠ server.id := by
                intro h entry hrunning
                rw [Engines.Running, hschedulers] at hrunning
                apply hnone server List.mem_cons_self h entry hrunning
              have hlaunched := hclaimed.launch he₁ hr₁ rfl rfl hnone₁
              obtain ⟨hu₂, -⟩ := (s.claim call.engine server.id).launch_eq
                call.engine server (some r.object)
              obtain ⟨e₂, he₂, hup₂⟩ := hu₂.new call.engine e₁ he₁
              have hsame : ((s.claim call.engine server.id).launch call.engine server
                  (some r.object)).startable call rest = s.startable call rest := by
                apply startable_congr
                intro k
                rw [claims_of_launch he₁, claims_of_claim he hclaims]
              apply ih hlaunched he₂
              · rw [hup₂.initialized, hup.initialized, hinitialized]
              · rw [hup₂.servers, hup.servers]
                apply hrest
              · rw [hsame]
                apply none_of_launch _ hnodup.1
                intro x hx h entry hrunning
                rw [Engines.Running, hschedulers] at hrunning
                apply hnone x (List.mem_cons_of_mem server hx) h entry hrunning
              · rw [hsame]
                apply hnodup.2
      · next hclaims =>
          have hstartable : s.startable call (server :: rest) = s.startable call rest := by
            simp [Engines.startable, hclaims]
          rw [hstartable] at hnone hnodup
          apply ih hs he hinitialized hrest hnone hnodup

/-! ### The loop of `initialize` -/

/-- A runtime may be replaced whose scheduler the engine does not own. -/
theorem setRuntime (hs : Coherent s) {i : ℕ} {serverId : String} {e : Engine}
    (he : s.engines.get i = some e)
    (hfree : s.schedulerOwnersByKey.get (e.key serverId) ≠ some i) :
  Coherent (s.setRuntime i serverId)
  := by
  obtain ⟨engines, heq, hget⟩ := Engines.updateEngine_eq { s with objectSeq := s.objectSeq + 1 } i
    fun e =>
      { e with
        runtimeByServer := e.runtimeByServer.set serverId
          { object := s.objectSeq
            scheduler := none
            ownsScheduler := false } }
  have hset : s.setRuntime i serverId =
      { s with
        objectSeq := s.objectSeq + 1
        engines } := heq
  have hself : ∀ {e' : Engine}, s.engines.get i = some e' → e' = e := by
    intro e' he'
    rw [he] at he'
    exact (Option.some.inj he').symm
  have hold : ∀ j e', engines.get j = some e' → ∃ e₀, s.engines.get j = some e₀ ∧
      e'.cacheDirPath = e₀.cacheDirPath ∧ e'.servers = e₀.servers ∧
        e'.initialized = e₀.initialized ∧
          ∀ k, e'.runtimeByServer.get k =
            if j = i ∧ k = serverId then some ⟨s.objectSeq, none, false⟩
            else e₀.runtimeByServer.get k := by
    intro j e' he'
    rw [hget, Option.map_eq_some_iff] at he'
    obtain ⟨e₀, he₀, rfl⟩ := he'
    use e₀, he₀
    by_cases hj : j = i
    · simp [hj, JsMap.get_set]
    · simp [hj]
  have hnew : ∀ j e₀, s.engines.get j = some e₀ → ∃ e', engines.get j = some e' := by
    intro j e₀ he₀
    rw [hget, he₀]
    exact ⟨_, rfl⟩
  rw [hset]
  constructor
  · constructor
    · intro j e' he'
      obtain ⟨e₀, he₀, -⟩ := hold j e' he'
      apply hs.engines j e₀ he₀
    · intro j e' he' hinitialized server hserver
      obtain ⟨e₀, he₀, -, hservers, hflag, hruntimes⟩ := hold j e' he'
      rw [JsMap.has, hruntimes]
      split
      · rfl
      · rw [hservers] at hserver
        rw [hflag] at hinitialized
        apply hs.initialized j e₀ he₀ hinitialized server hserver
    · intro c call hc
      obtain ⟨e₀, he₀, hwaits⟩ := hs.calls c call hc
      obtain ⟨e', he'⟩ := hnew _ e₀ he₀
      use e', he'
      obtain ⟨e₁, he₁, -, hservers, hflag, hruntimes⟩ := hold _ e' he'
      rw [he₀] at he₁
      obtain rfl := Option.some.inj he₁
      unfold Waits at hwaits ⊢
      split at hwaits
      · rw [hflag, hwaits]
      · trivial
      · obtain ⟨done, hdone, hhas⟩ := hwaits
        use done
        constructor
        · rw [hservers, hdone]
        · intro server hserver
          rw [JsMap.has, hruntimes]
          split
          · rfl
          · apply hhas server hserver
      · next server object rest _ =>
          obtain ⟨hinitialized, hrest, hr⟩ := hwaits
          refine ⟨?_, ?_, ?_⟩
          · rw [hflag, hinitialized]
          · rw [hservers]
            apply hrest
          · intro hovertaken
            obtain ⟨r, hr, hobject, howns⟩ := hr hovertaken
            use r
            rw [hruntimes, if_neg]
            · use hr
            · rintro ⟨hengine, heq⟩
              rw [hengine] at he₀
              obtain rfl := hself he₀
              apply hfree
              rw [← heq]
              apply hs.owns i e₀ server.id r he₀ hr howns
  · constructor
    · exact hs.handles
    · exact hs.owners
    · intro j e' k he' hj
      obtain ⟨e₀, he₀, hdir, -, -, hruntimes⟩ := hold j e' he'
      have hkey : e'.key k = e₀.key k := by
        rw [Engine.key, Engine.key, hdir]
      rw [hkey] at hj
      rw [hruntimes, if_neg]
      · apply hs.owned j e₀ k he₀ hj
      · rintro ⟨rfl, rfl⟩
        obtain rfl := hself he₀
        apply hfree hj
    · intro j e' k r he' hr howns
      obtain ⟨e₀, he₀, hdir, -, -, hruntimes⟩ := hold j e' he'
      have hkey : e'.key k = e₀.key k := by
        rw [Engine.key, Engine.key, hdir]
      rw [hkey]
      rw [hruntimes] at hr
      split at hr
      · obtain rfl := Option.some.inj hr
        cases howns
      · apply hs.owns j e₀ k r he₀ hr howns
    · intro j e' k r h he' hr hh
      obtain ⟨e₀, he₀, -, -, -, hruntimes⟩ := hold j e' he'
      rw [hruntimes] at hr
      split at hr
      · obtain rfl := Option.some.inj hr
        cases hh
      · apply hs.kept j e₀ k r h he₀ hr hh
    · intro h entry hrunning
      obtain ⟨e₀, r, he₀, hr, hscheduler, howns⟩ := hs.running h entry hrunning
      obtain ⟨e', he'⟩ := hnew _ e₀ he₀
      obtain ⟨e₁, he₁, -, -, -, hruntimes⟩ := hold _ e' he'
      rw [he₀] at he₁
      obtain rfl := Option.some.inj he₁
      use e', r, he'
      rw [hruntimes, if_neg]
      · use hr
      · rintro ⟨hengine, heq⟩
        rw [hengine] at he₀
        obtain rfl := hself he₀
        apply hfree
        rw [← heq]
        apply hs.owns i e₀ entry.serverId r he₀ hr howns

/-- An engine is initialised once all its servers have a runtime. -/
theorem markInitialized (hs : Coherent s) {i : ℕ} {e : Engine} (he : s.engines.get i = some e)
    (hall : ∀ server ∈ e.servers, e.runtimeByServer.has server.id = true) :
  Coherent (s.updateEngine i fun e => { e with initialized := true })
  := by
  apply hs.updateFlag
  · exact fun e => ⟨rfl, rfl, rfl, fun _ => rfl⟩
  · intro e' he' _
    rw [he] at he'
    obtain rfl := Option.some.inj he'
    apply hall

theorem loadServers (hs : Coherent s) (c : ℕ) {call : Call} {e : Engine}
    (he : s.engines.get call.engine = some e) {done servers : List ProviderServerConfig}
    (hsplit : e.servers = done ++ servers)
    (hdone : ∀ server ∈ done, e.runtimeByServer.has server.id = true) :
  Coherent (s.loadServers c call servers)
  := by
  cases servers with
  | cons server rest =>
      apply hs.awaits c he
      exact ⟨done, hsplit, hdone⟩
  | nil =>
      rw [List.append_nil] at hsplit
      rw [← hsplit] at hdone
      have hmarked := hs.markInitialized he hdone
      simp only [Engines.loadServers]
      split
      · apply hmarked.returns
      · obtain ⟨engines, heq, hget⟩ := s.updateEngine_eq call.engine
          fun e => { e with initialized := true }
        have he' : (s.updateEngine call.engine fun e => { e with initialized := true }).engines.get
            call.engine = some { e with initialized := true } := by
          rw [heq]
          simp only [hget, he, Option.map_some, if_true]
        apply hmarked.awaits c he'
        rfl

/-! ### Stopping -/

end Coherent

/-- What the loop of `stop` over some runtimes of an engine does. -/
structure Stops (i : ℕ) (e : Engine) (l : List (String × ServerRuntime)) (s s' : Engines) :
    Prop where
  engines : s'.engines = s.engines
  engineSeq : s'.engineSeq = s.engineSeq
  schedulerSeq : s'.schedulerSeq = s.schedulerSeq
  calls : s'.calls = s.calls
  owners : ∀ key j, s'.schedulerOwnersByKey.get key = some j ↔
    s.schedulerOwnersByKey.get key = some j ∧
      ¬ (j = i ∧ ∃ r ∈ l, r.2.ownsScheduler = true ∧ e.key r.1 = key)
  old : ∀ h entry, s'.schedulers.get h = some entry →
    ∃ entry', s.schedulers.get h = some entry' ∧ entry'.engine = entry.engine ∧
      entry'.serverId = entry.serverId ∧
        (entry.scheduler.stopped = false → entry' = entry ∧ ∀ r ∈ l, r.2.scheduler ≠ some h)
  new : ∀ h entry, s.schedulers.get h = some entry →
    ∃ entry', s'.schedulers.get h = some entry' ∧ entry'.engine = entry.engine ∧
      entry'.serverId = entry.serverId ∧
        ((∀ r ∈ l, r.2.scheduler ≠ some h) → entry' = entry)

theorem Stops.nil (i : ℕ) (e : Engine) (s : Engines) :
  Stops i e [] s s
  := by
  constructor
  · rfl
  · rfl
  · rfl
  · rfl
  · simp
  · exact fun h entry hentry => ⟨entry, hentry, rfl, rfl, fun _ => ⟨rfl, by simp⟩⟩
  · exact fun h entry hentry => ⟨entry, hentry, rfl, rfl, fun _ => rfl⟩

theorem Stops.cons {i : ℕ} {e : Engine} {r : String × ServerRuntime}
    {l : List (String × ServerRuntime)} {s s₁ s' : Engines} (h₁ : Stops i e [r] s s₁)
    (h : Stops i e l s₁ s') :
  Stops i e (r :: l) s s'
  := by
  constructor
  · rw [h.engines, h₁.engines]
  · rw [h.engineSeq, h₁.engineSeq]
  · rw [h.schedulerSeq, h₁.schedulerSeq]
  · rw [h.calls, h₁.calls]
  · intro key j
    rw [h.owners, h₁.owners, and_assoc]
    simp only [List.mem_cons, List.not_mem_nil, or_false, exists_eq_or_imp, exists_eq_left,
      ← not_or, ← and_or_left]
  · intro k entry hentry
    obtain ⟨entry₁, hentry₁, hengine, hserver, hrunning⟩ := h.old k entry hentry
    obtain ⟨entry₀, hentry₀, hengine₁, hserver₁, hrunning₁⟩ := h₁.old k entry₁ hentry₁
    use entry₀, hentry₀, hengine₁.trans hengine, hserver₁.trans hserver
    intro hstopped
    obtain ⟨rfl, hother⟩ := hrunning hstopped
    obtain ⟨rfl, hself⟩ := hrunning₁ hstopped
    use rfl
    intro r' hr'
    obtain rfl | hr' := List.mem_cons.mp hr'
    · apply hself r' List.mem_cons_self
    · apply hother r' hr'
  · intro k entry hentry
    obtain ⟨entry₁, hentry₁, hengine₁, hserver₁, hsame₁⟩ := h₁.new k entry hentry
    obtain ⟨entry', hentry', hengine, hserver, hsame⟩ := h.new k entry₁ hentry₁
    use entry', hentry', hengine.trans hengine₁, hserver.trans hserver₁
    intro hother
    rw [hsame fun r' hr' => hother r' (List.mem_cons_of_mem r hr')]
    apply hsame₁
    intro r' hr'
    obtain rfl := List.mem_singleton.mp hr'
    apply hother r' List.mem_cons_self

/-- The scheduler of a runtime is stopped. -/
theorem Engines.stopScheduler_eq (s : Engines) (scheduler : Option ℕ) :
  ∃ schedulers, (scheduler.elim s fun handle => s.updateScheduler handle Scheduler.stop) =
      { s with schedulers } ∧
    ∀ h, schedulers.get h = (s.schedulers.get h).map fun entry =>
      if scheduler = some h then { entry with scheduler := entry.scheduler.stop } else entry
  := by
  cases scheduler with
  | none =>
      use s.schedulers, rfl
      simp
  | some handle =>
      refine ⟨_, rfl, ?_⟩
      intro h
      rw [JsMap.get_mapValues]
      simp only [Option.some.injEq, eq_comm]

/-- The ownership of a runtime is released. -/
theorem Engines.releaseOwnership_eq (s : Engines) (i : ℕ) (key : String) (owns : Bool) :
  ∃ schedulerOwnersByKey, (if owns = true then s.releaseSchedulerOwnership i key else s) =
      { s with schedulerOwnersByKey } ∧
    ∀ key' j, schedulerOwnersByKey.get key' = some j ↔
      s.schedulerOwnersByKey.get key' = some j ∧ ¬ (j = i ∧ owns = true ∧ key = key')
  := by
  unfold releaseSchedulerOwnership
  split
  · next howns =>
      split
      · next howner =>
          refine ⟨_, rfl, ?_⟩
          intro key' j
          by_cases hkey : key' = key
          · subst hkey
            rw [JsMap.get_delete_self, howner]
            simp [howns, eq_comm]
          · rw [JsMap.get_delete_of_ne _ hkey]
            simp [Ne.symm hkey]
      · next howner =>
          use s.schedulerOwnersByKey, rfl
          intro key' j
          constructor
          · intro hj
            use hj
            rintro ⟨rfl, -, rfl⟩
            apply howner hj
          · exact And.left
  · next howns =>
      use s.schedulerOwnersByKey, rfl
      simp [howns]

theorem Stops.stopServer (s : Engines) (i : ℕ) (e : Engine) (r : String × ServerRuntime) :
  Stops i e [r] s (s.stopServer i (e.key r.1) r.2)
  := by
  obtain ⟨schedulers, hschedulers, hget⟩ := s.stopScheduler_eq r.2.scheduler
  obtain ⟨owners, howners, hget'⟩ :=
    { s with schedulers }.releaseOwnership_eq i (e.key r.1) r.2.ownsScheduler
  simp only [Engines.stopServer, hschedulers, howners]
  constructor
  · rfl
  · rfl
  · rfl
  · rfl
  · intro key j
    rw [hget']
    simp
  · intro h entry hentry
    rw [hget, Option.map_eq_some_iff] at hentry
    obtain ⟨entry₀, hentry₀, rfl⟩ := hentry
    use entry₀, hentry₀
    split
    · exact ⟨rfl, rfl, fun hstopped => by cases hstopped⟩
    · next hother => exact ⟨rfl, rfl, fun _ => ⟨rfl, by simpa using hother⟩⟩
  · intro h entry hentry
    rw [hget, hentry, Option.map_some]
    refine ⟨_, rfl, ?_⟩
    split
    · next hself => exact ⟨rfl, rfl, fun hother => (hother r (by simp) hself).elim⟩
    · exact ⟨rfl, rfl, fun _ => rfl⟩

theorem Stops.loop (s : Engines) (i : ℕ) (e : Engine) (l : List (String × ServerRuntime)) :
  Stops i e l s (l.foldl (fun s r => s.stopServer i (e.key r.1) r.2) s)
  := by
  induction l generalizing s with
  | nil => apply Stops.nil
  | cons r l ih => apply (Stops.stopServer s i e r).cons (ih _)

/-- A call waits for the same once its engine has been stopped. -/
theorem Waits.stopped {e e' : Engine} {call : Call} {i : ℕ} (h : Waits e call)
    (hservers : e'.servers = e.servers) (hinitialized : e'.initialized = e.initialized)
    (hhas : ∀ k, e'.runtimeByServer.has k = e.runtimeByServer.has k)
    (hruntimes : call.engine ≠ i → ∀ k, e'.runtimeByServer.get k = e.runtimeByServer.get k) :
  Waits e' (if call.engine = i then { call with overtaken := true } else call)
  := by
  have hawait : (if call.engine = i then { call with overtaken := true } else call).await =
      call.await := by
    split <;> rfl
  unfold Waits at h ⊢
  rw [hawait]
  split at h
  · rw [hinitialized, h]
  · trivial
  · simpa only [hservers, hhas] using h
  · obtain ⟨hflag, hrest, hr⟩ := h
    refine ⟨by rw [hinitialized, hflag], by rwa [hservers], ?_⟩
    intro hovertaken
    by_cases hengine : call.engine = i
    · rw [if_pos hengine] at hovertaken
      cases hovertaken
    · rw [if_neg hengine] at hovertaken
      rw [hruntimes hengine]
      apply hr hovertaken

/-- What `stop` does. -/
theorem Engines.stop_eq (s : Engines) (i : ℕ) (e : Engine) :
  ∃ s', Stops i e e.runtimeByServer.entries s s' ∧ ∃ engines, s.stop i e =
      { s' with
        engines
        calls := s.calls.mapValues fun _ call =>
          if call.engine = i then { call with overtaken := true } else call } ∧
    ∀ j, engines.get j = (s.engines.get j).map fun e =>
      if j = i then
        { e with
          runtimeByServer := e.runtimeByServer.mapValues fun _ runtime =>
            { runtime with ownsScheduler := false }
          started := false }
      else e
  := by
  have hstops := Stops.loop s i e e.runtimeByServer.entries
  refine ⟨_, hstops, ?_⟩
  simp only [Engines.stop]
  generalize e.runtimeByServer.entries.foldl
    (fun s r => s.stopServer i (e.key r.1) r.2) s = s' at hstops
  obtain ⟨engines, heq, hget⟩ := Engines.updateEngine_eq
    { s' with
      calls := s'.calls.mapValues fun _ call =>
        if call.engine = i then { call with overtaken := true } else call } i fun e =>
    { e with
      runtimeByServer := e.runtimeByServer.mapValues fun _ runtime =>
        { runtime with ownsScheduler := false }
      started := false }
  use engines
  constructor
  · rw [heq, hstops.calls]
  · intro j
    rw [hget, hstops.engines]

namespace Coherent

variable {s : Engines}

/-- An engine that has been stopped owns nothing, and runs nothing. -/
theorem stop (hs : Coherent s) {i : ℕ} {e : Engine} (he : s.engines.get i = some e) :
  Coherent (s.stop i e) ∧ ∀ h entry, (s.stop i e).Running h entry →
    s.Running h entry ∧ entry.engine ≠ i
  := by
  obtain ⟨s', hstops, engines, heq, hget⟩ := s.stop_eq i e
  have hold : ∀ j e', engines.get j = some e' → ∃ e₀, s.engines.get j = some e₀ ∧
      e'.cacheDirPath = e₀.cacheDirPath ∧ e'.servers = e₀.servers ∧
        e'.initialized = e₀.initialized ∧
          ∀ k, e'.runtimeByServer.get k = (e₀.runtimeByServer.get k).map fun r =>
            if j = i then { r with ownsScheduler := false } else r := by
    intro j e' he'
    rw [hget, Option.map_eq_some_iff] at he'
    obtain ⟨e₀, he₀, rfl⟩ := he'
    use e₀, he₀
    by_cases hj : j = i
    · simp [hj]
    · simp [hj]
  have hnew : ∀ j e₀, s.engines.get j = some e₀ → ∃ e', engines.get j = some e' := by
    intro j e₀ he₀
    rw [hget, he₀]
    exact ⟨_, rfl⟩
  have hkey : ∀ {e e' : Engine} (k : String), e'.cacheDirPath = e.cacheDirPath →
      e'.key k = e.key k := by
    intro e e' k hdir
    rw [Engine.key, Engine.key, hdir]
  have hself : ∀ {e' : Engine}, s.engines.get i = some e' → e' = e := by
    intro e' he'
    rw [he] at he'
    exact (Option.some.inj he').symm
  -- What still runs was not in any runtime of the engine.
  have hrunning : ∀ h entry, s'.Running h entry → s.Running h entry ∧ entry.engine ≠ i := by
    rintro h entry ⟨hentry, hstopped⟩
    obtain ⟨entry', hentry', -, -, hother⟩ := hstops.old h entry hentry
    obtain ⟨rfl, hnot⟩ := hother hstopped
    use ⟨hentry', hstopped⟩
    rintro rfl
    obtain ⟨e₀, r, he₀, hr, hscheduler, -⟩ := hs.running h entry' ⟨hentry', hstopped⟩
    obtain rfl := hself he₀
    apply hnot _ (JsMap.get_eq_some.mp hr) hscheduler
  rw [heq]
  constructor
  · constructor
    · constructor
      · intro j e' he'
        obtain ⟨e₀, he₀, -⟩ := hold j e' he'
        change j < s'.engineSeq
        rw [hstops.engineSeq]
        apply hs.engines j e₀ he₀
      · intro j e' he' hflag server hserver
        obtain ⟨e₀, he₀, -, hservers, hinitialized, hruntimes⟩ := hold j e' he'
        rw [JsMap.has, hruntimes, Option.isSome_map]
        rw [hservers] at hserver
        rw [hinitialized] at hflag
        apply hs.initialized j e₀ he₀ hflag server hserver
      · intro c call hc
        change (s.calls.mapValues _).get c = some call at hc
        rw [JsMap.get_mapValues, Option.map_eq_some_iff] at hc
        obtain ⟨call₀, hc₀, rfl⟩ := hc
        obtain ⟨e₀, he₀, hwaits⟩ := hs.calls c call₀ hc₀
        obtain ⟨e', he'⟩ := hnew _ e₀ he₀
        obtain ⟨e₁, he₁, -, hservers, hinitialized, hruntimes⟩ := hold _ e' he'
        rw [he₀] at he₁
        obtain rfl := Option.some.inj he₁
        use e'
        constructor
        · split <;> apply he'
        · apply hwaits.stopped hservers hinitialized
          · intro k
            rw [JsMap.has, hruntimes, Option.isSome_map]
            rfl
          · intro hne k
            rw [hruntimes]
            simp [hne]
    · constructor
      · intro h entry hentry
        obtain ⟨entry', hentry', -⟩ := hstops.old h entry hentry
        change h < s'.schedulerSeq
        rw [hstops.schedulerSeq]
        apply hs.handles h entry' hentry'
      · intro key j hj
        change j < s'.engineSeq
        rw [hstops.engineSeq]
        apply hs.owners key j ((hstops.owners key j).mp hj).1
      · intro j e' k he' hj
        obtain ⟨e₀, he₀, hdir, -, -, hruntimes⟩ := hold j e' he'
        rw [hkey k hdir] at hj
        obtain ⟨howner, hnot⟩ := (hstops.owners _ j).mp hj
        obtain ⟨r, hr, howns⟩ := hs.owned j e₀ k he₀ howner
        rw [hruntimes, hr, Option.map_some]
        refine ⟨_, rfl, ?_⟩
        split
        · next hj =>
            subst hj
            obtain rfl := hself he₀
            apply (hnot ⟨rfl, (k, r), JsMap.get_eq_some.mp hr, howns, rfl⟩).elim
        · apply howns
      · intro j e' k r he' hr howns
        obtain ⟨e₀, he₀, hdir, -, -, hruntimes⟩ := hold j e' he'
        rw [hruntimes] at hr
        obtain ⟨r₀, hr₀, rfl⟩ := Option.map_eq_some_iff.mp hr
        split at howns
        · cases howns
        · next hj =>
            rw [hkey k hdir]
            apply (hstops.owners _ j).mpr
            use hs.owns j e₀ k r₀ he₀ hr₀ howns
            exact fun h => hj h.1
      · intro j e' k r h he' hr hh
        obtain ⟨e₀, he₀, -, -, -, hruntimes⟩ := hold j e' he'
        rw [hruntimes] at hr
        obtain ⟨r₀, hr₀, rfl⟩ := Option.map_eq_some_iff.mp hr
        have hh₀ : r₀.scheduler = some h := by
          split at hh <;> apply hh
        obtain ⟨entry, hentry, hengine, hserver⟩ := hs.kept j e₀ k r₀ h he₀ hr₀ hh₀
        obtain ⟨entry', hentry', hengine', hserver', -⟩ := hstops.new h entry hentry
        use entry', hentry', hengine'.trans hengine, hserver'.trans hserver
      · intro h entry hrun
        obtain ⟨hbefore, hne⟩ := hrunning h entry hrun
        obtain ⟨e₀, r, he₀, hr, hscheduler, howns⟩ := hs.running h entry hbefore
        obtain ⟨e', he'⟩ := hnew _ e₀ he₀
        obtain ⟨e₁, he₁, -, -, -, hruntimes⟩ := hold _ e' he'
        rw [he₀] at he₁
        obtain rfl := Option.some.inj he₁
        use e', r, he'
        rw [hruntimes, hr]
        simp [hne, hscheduler, howns]
  · exact hrunning

/-- A timer of a scheduler, or the end of a run of its task. -/
theorem updateScheduler (hs : Coherent s) (handle : ℕ) {f : Scheduler → Scheduler}
    (hf : ∀ scheduler, (f scheduler).stopped = scheduler.stopped) :
  Coherent (s.updateScheduler handle f)
  := by
  have hget : ∀ h, (s.updateScheduler handle f).schedulers.get h =
      (s.schedulers.get h).map fun entry =>
        if h = handle then { entry with scheduler := f entry.scheduler } else entry := by
    intro h
    apply JsMap.get_mapValues
  constructor
  · exact ⟨hs.engines, hs.initialized, hs.calls⟩
  · constructor
    · intro h entry hentry
      rw [hget, Option.map_eq_some_iff] at hentry
      obtain ⟨entry₀, hentry₀, -⟩ := hentry
      apply hs.handles h entry₀ hentry₀
    · exact hs.owners
    · exact hs.owned
    · exact hs.owns
    · intro j e k r h he hr hh
      obtain ⟨entry, hentry, hengine, hserver⟩ := hs.kept j e k r h he hr hh
      rw [hget, hentry, Option.map_some]
      refine ⟨_, rfl, ?_, ?_⟩
      · split <;> apply hengine
      · split <;> apply hserver
    · rintro h entry ⟨hentry, hstopped⟩
      rw [hget, Option.map_eq_some_iff] at hentry
      obtain ⟨entry₀, hentry₀, rfl⟩ := hentry
      have hrunning : s.Running h entry₀ := by
        use hentry₀
        split at hstopped
        · rwa [← hf]
        · apply hstopped
      have hsame := hs.running h entry₀ hrunning
      split <;> apply hsame

/-- A new engine owns nothing. -/
theorem create (hs : Coherent s) (cacheDirPath : String) (servers : List ProviderServerConfig) :
  Coherent (s.handle (.create cacheDirPath servers))
  := by
  have hold : ∀ j e, (s.handle (.create cacheDirPath servers)).engines.get j = some e →
      s.engines.get j = some e ∨ j = s.engineSeq ∧ e.runtimeByServer = .empty ∧
        e.initialized = false := by
    intro j e he
    change (s.engines.set s.engineSeq _).get j = some e at he
    rw [JsMap.get_set] at he
    split at he
    · next hj =>
        obtain rfl := Option.some.inj he
        exact .inr ⟨hj, rfl, rfl⟩
    · exact .inl he
  have hnew : ∀ j e, s.engines.get j = some e →
      (s.handle (.create cacheDirPath servers)).engines.get j = some e := by
    intro j e he
    change (s.engines.set s.engineSeq _).get j = some e
    rw [JsMap.get_set_of_ne _ (Nat.ne_of_lt (hs.engines j e he)), he]
  constructor
  · constructor
    · intro j e he
      obtain he | ⟨rfl, -, -⟩ := hold j e he
      · apply Nat.lt_succ_of_lt (hs.engines j e he)
      · apply Nat.lt_succ_self
    · intro j e he hflag server hserver
      obtain he | ⟨-, -, hfalse⟩ := hold j e he
      · apply hs.initialized j e he hflag server hserver
      · rw [hfalse] at hflag
        cases hflag
    · intro c call hc
      obtain ⟨e, he, hwaits⟩ := hs.calls c call hc
      use e, hnew _ e he
  · constructor
    · exact hs.handles
    · exact fun key j hj => Nat.lt_succ_of_lt (hs.owners key j hj)
    · intro j e k he hj
      obtain he | ⟨rfl, -, -⟩ := hold j e he
      · apply hs.owned j e k he hj
      · apply (Nat.lt_irrefl _ (hs.owners _ _ hj)).elim
    · intro j e k r he hr howns
      obtain he | ⟨-, hempty, -⟩ := hold j e he
      · apply hs.owns j e k r he hr howns
      · rw [hempty, JsMap.get_empty] at hr
        cases hr
    · intro j e k r h he hr hh
      obtain he | ⟨-, hempty, -⟩ := hold j e he
      · apply hs.kept j e k r h he hr hh
      · rw [hempty, JsMap.get_empty] at hr
        cases hr
    · intro h entry hrunning
      obtain ⟨e, r, he, hrest⟩ := hs.running h entry hrunning
      use e, r, hnew _ e he

theorem callInitialize (hs : Coherent s) {i : ℕ} {e : Engine} (he : s.engines.get i = some e)
    (warmup : Option Bool) :
  Coherent (s.callInitialize i e warmup)
  := by
  unfold Engines.callInitialize
  split
  · next hinitialized =>
      split
      · apply hs
      · apply hs.addCall he
        apply hinitialized
  · apply hs.addCall he
    trivial

/-- A call that goes on undisturbed. -/
theorem resume (hs : Coherent s) {c : ℕ} {call : Call} {e : Engine} (ok : Bool)
    (hc : s.calls.get c = some call) (he : s.engines.get call.engine = some e)
    (hundisturbed : s.Undisturbed (.resume c ok)) :
  Coherent (s.resume c call e ok)
  := by
  obtain ⟨hlaunched, hnodup, hset⟩ := hundisturbed.resume hc he
  obtain ⟨e', he', hwaits⟩ := hs.calls c call hc
  rw [he] at he'
  obtain rfl := Option.some.inj he'
  unfold Engines.resume
  unfold Engines.launched at hlaunched hnodup
  unfold Waits at hwaits
  split at hwaits
  · next hawait =>
      simp only [hawait] at hlaunched hnodup ⊢
      apply hs.startServers c rfl he hwaits (fun _ h => h)
      · exact fun server hserver => (hlaunched server hserver).2
      · apply hnodup
  · next hawait =>
      simp only [hawait]
      split
      · apply hs.loadServers c he (List.nil_append _).symm
        simp
      · apply hs.returns
  · next server rest hawait =>
      simp only [hawait]
      split
      · next hok =>
          obtain ⟨done, hdone, hhas⟩ := hwaits
          have hset' := hs.setRuntime he (hset hok server (by rw [hawait]; rfl))
          obtain ⟨engines, heq, hget⟩ := Engines.updateEngine_eq
            { s with objectSeq := s.objectSeq + 1 } call.engine fun e =>
              { e with
                runtimeByServer := e.runtimeByServer.set server.id
                  { object := s.objectSeq
                    scheduler := none
                    ownsScheduler := false } }
          have he' := hget call.engine
          rw [he, Option.map_some, if_pos rfl] at he'
          have hengines : (s.setRuntime call.engine server.id).engines = engines :=
            congrArg Engines.engines heq
          rw [← hengines] at he'
          rw [List.append_cons] at hdone
          apply hset'.loadServers c he' hdone
          intro x hx
          obtain hx | hx := List.mem_append.mp hx
          · apply JsMap.has_set _ _ _ (hhas x hx)
          · obtain rfl := List.mem_singleton.mp hx
            apply JsMap.has_set_self
      · apply hs.returns
  · next server object rest hawait =>
      simp only [hawait] at hlaunched hnodup ⊢
      obtain ⟨hinitialized, hrest, hr⟩ := hwaits
      obtain ⟨hovertaken, hnone⟩ := hlaunched server List.mem_cons_self
      obtain ⟨r, hr, hobject, howns⟩ := hr hovertaken
      have hlaunch := hs.launch he hr hobject howns hnone
      obtain ⟨hu, -⟩ := s.launch_eq call.engine server object
      obtain ⟨e', he', hup⟩ := hu.new call.engine e he
      have hsame : (s.launch call.engine server object).startable call rest =
          s.startable call rest := startable_congr (claims_of_launch he)
      rw [List.map_cons, List.nodup_cons] at hnodup
      apply hlaunch.startServers c rfl he'
      · rw [hup.initialized, hinitialized]
      · rw [hup.servers]
        apply hrest
      · rw [hsame]
        apply none_of_launch _ hnodup.1
        exact fun x hx => (hlaunched x (List.mem_cons_of_mem server hx)).2
      · rw [hsame]
        apply hnodup.2

theorem withEngine_eq {i : ℕ} {e : Engine} (he : s.engines.get i = some e) (f : Engine → Engines) :
  s.withEngine i f = f e
  := by
  rw [Engines.withEngine, he, Option.elim_some]

theorem handle (hs : Coherent s) {event : EngineEvent} (henabled : s.enabled event = true)
    (hundisturbed : s.Undisturbed event) :
  Coherent (s.handle event)
  := by
  have hengine : ∀ i, s.engines.has i = true → ∃ e, s.engines.get i = some e :=
    fun i h => Option.isSome_iff_exists.mp h
  cases event with
  | create cacheDirPath servers => apply hs.create
  | start i warmup =>
      obtain ⟨e, he⟩ := hengine i henabled
      simp only [Engines.handle, withEngine_eq he]
      split
      · apply hs
      · apply hs.callInitialize he
  | callInitialize i =>
      obtain ⟨e, he⟩ := hengine i henabled
      simp only [Engines.handle, withEngine_eq he]
      apply hs.callInitialize he
  | stop i =>
      obtain ⟨e, he⟩ := hengine i henabled
      simp only [Engines.handle, withEngine_eq he]
      apply (hs.stop he).1
  | resume c ok =>
      obtain ⟨call, hc⟩ := Option.isSome_iff_exists.mp henabled
      obtain ⟨e, he, -⟩ := hs.calls c call hc
      simp only [Engines.handle, hc, Option.elim_some, withEngine_eq he]
      apply hs.resume ok hc he hundisturbed
  | timer h timer =>
      simp only [Engines.handle]
      apply hs.updateScheduler
      exact fun scheduler => scheduler.stopped_tick timer
  | completed h ok =>
      simp only [Engines.handle]
      apply hs.updateScheduler
      exact fun scheduler => scheduler.stopped_completed ok

end Coherent

end ProviderSync
