import OpencodeToolbelt.ProviderSync.Ownership

/-!
# Stopping an engine

After `stop` no scheduler of an engine runs until `start` is called again, and those of other
engines run on. A `start` that is still waiting for its warm-up does not know of it.
-/

namespace ProviderSync

/-! ### Engines that have been stopped -/

/-- A wait of `initialize`. -/
def Await.Initializing : Await → Prop
  | .ensureReady => True
  | .load _ _ => True
  | _ => False

/-- An engine that runs nothing, and that no call goes on to start anything for. -/
structure Quiet (i : ℕ) (s : Engines) : Prop where
  running : ∀ h entry, s.Running h entry → entry.engine ≠ i
  calls : ∀ c call, s.calls.get c = some call → call.engine = i →
    call.overtaken = true ∨ call.warmup = none ∧ call.await.Initializing

section Changes

variable {s : Engines}

theorem calls_of_awaits {c c' : ℕ} {call call' : Call} {await : Await}
    (h : (s.awaits c call await).calls.get c' = some call') :
  s.calls.get c' = some call' ∨ call' = { call with await }
  := by
  change (s.calls.set c _).get c' = some call' at h
  rw [JsMap.get_set] at h
  split at h
  · exact .inr (Option.some.inj h).symm
  · exact .inl h

theorem calls_of_loadServers {c c' : ℕ} {call call' : Call} {servers : List ProviderServerConfig}
    (h : (s.loadServers c call servers).calls.get c' = some call') :
  s.calls.get c' = some call' ∨
    ∃ await, call' = { call with await } ∧ (call.warmup = none → await.Initializing)
  := by
  cases servers with
  | cons server rest =>
      apply (calls_of_awaits h).imp_right
      exact fun heq => ⟨_, heq, fun _ => trivial⟩
  | nil =>
      simp only [Engines.loadServers] at h
      split at h
      · left
        have hold := JsMap.get_of_get_delete h
        rwa [Engines.calls_updateEngine] at hold
      · next hwarmup =>
          obtain hold | heq := calls_of_awaits h
          · left
            rwa [Engines.calls_updateEngine] at hold
          · right
            refine ⟨_, heq, ?_⟩
            rw [hwarmup]
            intro hnone
            cases hnone

theorem schedulers_loadServers {c : ℕ} {call : Call} {servers : List ProviderServerConfig} :
  (s.loadServers c call servers).schedulers = s.schedulers
  := by
  cases servers with
  | cons server rest => rfl
  | nil =>
      simp only [Engines.loadServers]
      split <;> apply Engines.schedulers_updateEngine

theorem calls_of_startServers {c c' : ℕ} {call call' : Call} {warmup : Bool}
    {servers : List ProviderServerConfig}
    (h : (Engines.startServers c call warmup s servers).calls.get c' = some call') :
  s.calls.get c' = some call' ∨ ∃ await, call' = { call with await }
  := by
  induction servers generalizing s with
  | nil =>
      left
      have hold := JsMap.get_of_get_delete h
      rwa [Engines.calls_updateEngine] at hold
  | cons server rest ih =>
      have hclaim : (s.claim call.engine server.id).calls = s.calls := by
        unfold Engines.claim
        split
        · rfl
        · simp [Engines.updateRuntime]
      unfold Engines.startServers at h
      split at h
      · simp only at h
        split at h
        · obtain hold | heq := calls_of_awaits h
          · left
            rwa [hclaim] at hold
          · exact .inr ⟨_, heq⟩
        · obtain hold | heq := ih h
          · left
            obtain ⟨-, -, -, -, -, hcalls⟩ := (s.claim call.engine server.id).launch_eq call.engine
              server (((s.claim call.engine server.id).runtime call.engine server.id).map
                ServerRuntime.object)
            rwa [hcalls, hclaim] at hold
          · exact .inr heq
      · apply ih h

theorem schedulers_claim (s : Engines) (i : ℕ) (serverId : String) :
  (s.claim i serverId).schedulers = s.schedulers
  := by
  unfold Engines.claim
  split
  · rfl
  · simp [Engines.updateRuntime]

/-- What runs after a call has gone on ran before, or has been started by it. -/
theorem running_of_startServers {c : ℕ} {call : Call} {warmup : Bool}
    {servers : List ProviderServerConfig} {h : ℕ} {entry : SchedulerHandle}
    (hrunning : (Engines.startServers c call warmup s servers).Running h entry) :
  s.Running h entry ∨ entry.engine = call.engine
  := by
  induction servers generalizing s with
  | nil =>
      left
      obtain ⟨hentry, hstopped⟩ := hrunning
      change (s.updateEngine call.engine _).schedulers.get h = some entry at hentry
      rw [Engines.schedulers_updateEngine] at hentry
      exact ⟨hentry, hstopped⟩
  | cons server rest ih =>
      unfold Engines.startServers at hrunning
      split at hrunning
      · simp only at hrunning
        split at hrunning
        · left
          obtain ⟨hentry, hstopped⟩ := hrunning
          change (s.claim call.engine server.id).schedulers.get h = some entry at hentry
          rw [schedulers_claim] at hentry
          exact ⟨hentry, hstopped⟩
        · obtain hold | hself := ih hrunning
          · obtain ⟨-, -, hschedulers, -⟩ := (s.claim call.engine server.id).launch_eq call.engine
              server (((s.claim call.engine server.id).runtime call.engine server.id).map
                ServerRuntime.object)
            obtain ⟨hentry, hstopped⟩ := hold
            rw [hschedulers, schedulers_claim, JsMap.get_set] at hentry
            split at hentry
            · obtain rfl := Option.some.inj hentry
              exact .inr rfl
            · exact .inl ⟨hentry, hstopped⟩
          · exact .inr hself
      · apply ih hrunning

/-- A call that starts nothing changes no scheduler. -/
theorem schedulers_startServers {c : ℕ} {call : Call} {warmup : Bool}
    (hwarmup : call.warmup.getD true = warmup) {servers : List ProviderServerConfig}
    (hnone : s.startable call servers = []) :
  (Engines.startServers c call warmup s servers).schedulers = s.schedulers
  := by
  induction servers generalizing s with
  | nil => apply Engines.schedulers_updateEngine
  | cons server rest ih =>
      unfold Engines.startServers
      split
      · next hclaims =>
          simp only
          split
          · apply schedulers_claim
          · next hwarm => simp [Engines.startable, hwarmup, hwarm, hclaims] at hnone
      · next hclaims =>
          apply ih
          simp only [Engines.startable, List.filter_cons, hclaims] at hnone
          apply hnone

end Changes

namespace Quiet

variable {s : Engines} {i : ℕ}

theorem of_same {s' : Engines} (hq : Quiet i s)
    (hrunning : ∀ h entry, s'.Running h entry → s.Running h entry ∨ entry.engine ≠ i)
    (hcalls : ∀ c call, s'.calls.get c = some call → s.calls.get c = some call ∨
      (call.engine = i → call.overtaken = true ∨
        call.warmup = none ∧ call.await.Initializing)) :
  Quiet i s'
  := by
  constructor
  · intro h entry hrun
    obtain hold | hother := hrunning h entry hrun
    · apply hq.running h entry hold
    · apply hother
  · intro c call hc hengine
    obtain hold | hnew := hcalls c call hc
    · apply hq.calls c call hold hengine
    · apply hnew hengine

theorem addCall (hq : Quiet i s) {call : Call}
    (h : call.engine = i → call.overtaken = true ∨
      call.warmup = none ∧ call.await.Initializing) :
  Quiet i (s.addCall call)
  := by
  apply hq.of_same
  · exact fun h entry hrun => .inl hrun
  · intro c call' hc
    change (s.calls.set s.callSeq call).get c = some call' at hc
    rw [JsMap.get_set] at hc
    split at hc
    · obtain rfl := Option.some.inj hc
      exact .inr h
    · exact .inl hc

theorem returns (hq : Quiet i s) (c : ℕ) :
  Quiet i (s.returns c)
  := by
  apply hq.of_same
  · exact fun h entry hrun => .inl hrun
  · exact fun c' call hc => .inl (JsMap.get_of_get_delete hc)

theorem loadServers (hq : Quiet i s) {s' : Engines} (hschedulers : s'.schedulers = s.schedulers)
    (hcalls : s'.calls = s.calls) {c : ℕ} {call : Call} (hc : s.calls.get c = some call)
    (servers : List ProviderServerConfig) :
  Quiet i (s'.loadServers c call servers)
  := by
  apply hq.of_same
  · rintro h entry ⟨hentry, hstopped⟩
    left
    rw [schedulers_loadServers, hschedulers] at hentry
    exact ⟨hentry, hstopped⟩
  · intro c' call' hc'
    obtain hold | ⟨await, rfl, hinit⟩ := calls_of_loadServers hc'
    · left
      rwa [← hcalls]
    · right
      intro hengine
      obtain hovertaken | ⟨hnone, -⟩ := hq.calls c call hc hengine
      · exact .inl hovertaken
      · exact .inr ⟨hnone, hinit hnone⟩

theorem resume (hq : Quiet i s) {c : ℕ} {call : Call} {e : Engine} (ok : Bool)
    (hc : s.calls.get c = some call) (he : s.engines.get call.engine = some e)
    (hundisturbed : s.Undisturbed (.resume c ok)) :
  Quiet i (s.resume c call e ok)
  := by
  obtain ⟨hlaunched, -, -⟩ := hundisturbed.resume hc he
  unfold Engines.resume
  unfold Engines.launched at hlaunched
  split
  · split
    · apply hq.loadServers rfl rfl hc
    · apply hq.returns
  · next server rest _ =>
      split
      · apply hq.loadServers _ _ hc
        · apply Engines.schedulers_updateEngine
        · apply Engines.calls_updateEngine
      · apply hq.returns
  · next hawait =>
      simp only [hawait] at hlaunched
      have hovertaken : call.engine = i → call.overtaken = true := by
        intro hengine
        obtain hovertaken | ⟨-, hinit⟩ := hq.calls c call hc hengine
        · apply hovertaken
        · rw [hawait] at hinit
          cases hinit
      apply hq.of_same
      · intro h entry hrun
        by_cases hengine : call.engine = i
        · left
          have hnone : s.startable call e.servers = [] := by
            apply List.eq_nil_iff_forall_not_mem.mpr
            intro server hserver
            have hfalse := (hlaunched server hserver).1
            rw [hovertaken hengine] at hfalse
            cases hfalse
          obtain ⟨hentry, hstopped⟩ := hrun
          rw [schedulers_startServers rfl hnone] at hentry
          exact ⟨hentry, hstopped⟩
        · apply (running_of_startServers hrun).imp_right
          intro hself
          rwa [hself]
      · intro c' call' hc'
        apply (calls_of_startServers hc').imp_right
        rintro ⟨await, rfl⟩ hengine
        exact .inl (hovertaken hengine)
  · next server object rest hawait =>
      simp only [hawait] at hlaunched
      have hfalse := (hlaunched server List.mem_cons_self).1
      have hother : call.engine ≠ i := by
        intro hengine
        obtain hovertaken | ⟨-, hinit⟩ := hq.calls c call hc hengine
        · rw [hovertaken] at hfalse
          cases hfalse
        · rw [hawait] at hinit
          cases hinit
      obtain ⟨-, -, hschedulers, -, -, hcalls⟩ := s.launch_eq call.engine server object
      apply hq.of_same
      · intro h entry hrun
        obtain ⟨hentry, hstopped⟩ | hself := running_of_startServers hrun
        · rw [hschedulers, JsMap.get_set] at hentry
          split at hentry
          · obtain rfl := Option.some.inj hentry
            exact .inr hother
          · exact .inl ⟨hentry, hstopped⟩
        · right
          rwa [hself]
      · intro c' call' hc'
        rw [← hcalls]
        apply (calls_of_startServers hc').imp_right
        rintro ⟨await, rfl⟩ hengine
        apply (hother hengine).elim

theorem updateScheduler (hq : Quiet i s) (handle : ℕ) {f : Scheduler → Scheduler}
    (hf : ∀ scheduler, (f scheduler).stopped = scheduler.stopped) :
  Quiet i (s.updateScheduler handle f)
  := by
  constructor
  · rintro h entry ⟨hentry, hstopped⟩
    change (s.schedulers.mapValues _).get h = some entry at hentry
    rw [JsMap.get_mapValues, Option.map_eq_some_iff] at hentry
    obtain ⟨entry₀, hentry₀, rfl⟩ := hentry
    have hrunning : s.Running h entry₀ := by
      use hentry₀
      split at hstopped
      · rwa [← hf]
      · apply hstopped
    have hother := hq.running h entry₀ hrunning
    split <;> apply hother
  · exact hq.calls

theorem stop (hq : Quiet i s) (hs : Coherent s) {j : ℕ} {e : Engine}
    (he : s.engines.get j = some e) :
  Quiet i (s.stop j e)
  := by
  constructor
  · intro h entry hrun
    apply hq.running h entry ((hs.stop he).2 h entry hrun).1
  · intro c call hc hengine
    obtain ⟨s', -, engines, heq, -⟩ := s.stop_eq j e
    rw [heq] at hc
    change (s.calls.mapValues _).get c = some call at hc
    rw [JsMap.get_mapValues, Option.map_eq_some_iff] at hc
    obtain ⟨call₀, hc₀, rfl⟩ := hc
    by_cases hj : call₀.engine = j
    · left
      rw [if_pos hj]
    · rw [if_neg hj] at hengine ⊢
      apply hq.calls c call₀ hc₀ hengine

/-- `stop` leaves an engine quiet. -/
theorem of_stop (hs : Coherent s) {e : Engine} (he : s.engines.get i = some e) :
  Quiet i (s.stop i e)
  := by
  constructor
  · intro h entry hrun
    apply ((hs.stop he).2 h entry hrun).2
  · intro c call hc hengine
    obtain ⟨s', -, engines, heq, -⟩ := s.stop_eq i e
    rw [heq] at hc
    change (s.calls.mapValues _).get c = some call at hc
    rw [JsMap.get_mapValues, Option.map_eq_some_iff] at hc
    obtain ⟨call₀, hc₀, rfl⟩ := hc
    left
    by_cases hj : call₀.engine = i
    · rw [if_pos hj]
    · rw [if_neg hj] at hengine
      apply (hj hengine).elim

/-- An engine that has been stopped starts nothing until `start` is called again. -/
theorem handle (hq : Quiet i s) (hs : Coherent s) {event : EngineEvent}
    (henabled : s.enabled event = true) (hundisturbed : s.Undisturbed event)
    (hstart : ∀ warmup, event ≠ .start i warmup) :
  Quiet i (s.handle event)
  := by
  have hengine : ∀ i, s.engines.has i = true → ∃ e, s.engines.get i = some e :=
    fun i h => Option.isSome_iff_exists.mp h
  cases event with
  | create cacheDirPath servers => exact ⟨hq.running, hq.calls⟩
  | start j warmup =>
      obtain ⟨e, he⟩ := hengine j henabled
      simp only [Engines.handle, Coherent.withEngine_eq he]
      have hne : j ≠ i := by
        rintro rfl
        apply hstart warmup rfl
      split
      · apply hq
      · unfold Engines.callInitialize
        split
        · apply hq.addCall fun h => (hne h).elim
        · apply hq.addCall fun h => (hne h).elim
  | callInitialize j =>
      obtain ⟨e, he⟩ := hengine j henabled
      simp only [Engines.handle, Coherent.withEngine_eq he, Engines.callInitialize]
      split
      · apply hq
      · apply hq.addCall
        exact fun _ => .inr ⟨rfl, trivial⟩
  | stop j =>
      obtain ⟨e, he⟩ := hengine j henabled
      simp only [Engines.handle, Coherent.withEngine_eq he]
      apply hq.stop hs he
  | resume c ok =>
      obtain ⟨call, hc⟩ := Option.isSome_iff_exists.mp henabled
      obtain ⟨e, he, -⟩ := hs.calls c call hc
      simp only [Engines.handle, hc, Option.elim_some, Coherent.withEngine_eq he]
      apply hq.resume ok hc he hundisturbed
  | timer h timer =>
      simp only [Engines.handle]
      apply hq.updateScheduler
      exact fun scheduler => scheduler.stopped_tick timer
  | completed h ok =>
      simp only [Engines.handle]
      apply hq.updateScheduler
      exact fun scheduler => scheduler.stopped_completed ok

end Quiet

/-! ### Runs -/

/-- What the schedulers of a process owe each other. -/
structure SchedulersSafe (steps : List (Engines × EngineEvent)) (s : Engines) : Prop where
  single : ∀ h h' entry entry' e e', s.Running h entry → s.Running h' entry' →
    s.engines.get entry.engine = some e → s.engines.get entry'.engine = some e' →
      e.cacheDirPath = e'.cacheDirPath → entry.serverId = entry'.serverId → h = h'
  owned : ∀ h entry, s.Running h entry → ∃ e, s.engines.get entry.engine = some e ∧
    s.schedulerOwnersByKey.get (e.key entry.serverId) = some entry.engine
  stopped : ∀ before t i after, steps = before ++ (t, .stop i) :: after →
    (∀ step ∈ after, ∀ warmup, step.2 ≠ .start i warmup) →
      ∀ h entry, s.Running h entry → entry.engine ≠ i
  others : ∀ step ∈ steps, ∀ i, step.2 = .stop i →
    (∀ h entry, step.1.schedulers.get h = some entry → entry.engine ≠ i →
      (step.1.handle step.2).schedulers.get h = some entry) ∧
    ∀ key j, j ≠ i → ((step.1.handle step.2).schedulerOwnersByKey.get key = some j ↔
      step.1.schedulerOwnersByKey.get key = some j)

namespace Coherent

variable {s : Engines}

theorem single (hs : Coherent s) {h h' : ℕ} {entry entry' : SchedulerHandle} {e e' : Engine}
    (hrunning : s.Running h entry) (hrunning' : s.Running h' entry')
    (he : s.engines.get entry.engine = some e) (he' : s.engines.get entry'.engine = some e')
    (hdir : e.cacheDirPath = e'.cacheDirPath) (hserver : entry.serverId = entry'.serverId) :
  h = h'
  := by
  obtain ⟨e₁, r, he₁, hr, hscheduler, howns⟩ := hs.running h entry hrunning
  obtain ⟨e₂, r', he₂, hr', hscheduler', howns'⟩ := hs.running h' entry' hrunning'
  rw [he] at he₁
  rw [he'] at he₂
  obtain rfl := Option.some.inj he₁
  obtain rfl := Option.some.inj he₂
  have howner := hs.owns _ e _ r he hr howns
  have howner' := hs.owns _ e' _ r' he' hr' howns'
  have hkey : e.key entry.serverId = e'.key entry'.serverId := by
    rw [Engine.key, Engine.key, hdir, hserver]
  rw [hkey, howner'] at howner
  have hengine := Option.some.inj howner
  rw [← hengine, he'] at he
  obtain rfl := Option.some.inj he
  rw [hserver, hr'] at hr
  obtain rfl := Option.some.inj hr
  rw [hscheduler] at hscheduler'
  apply Option.some.inj hscheduler'

theorem owner_of_running (hs : Coherent s) {h : ℕ} {entry : SchedulerHandle}
    (hrunning : s.Running h entry) :
  ∃ e, s.engines.get entry.engine = some e ∧
    s.schedulerOwnersByKey.get (e.key entry.serverId) = some entry.engine
  := by
  obtain ⟨e, r, he, hr, -, howns⟩ := hs.running h entry hrunning
  use e, he, hs.owns _ e _ r he hr howns

/-- The schedulers and the claims of other engines are left alone. -/
theorem others (hs : Coherent s) {i : ℕ} {e : Engine} (he : s.engines.get i = some e) :
  (∀ h entry, s.schedulers.get h = some entry → entry.engine ≠ i →
      (s.stop i e).schedulers.get h = some entry) ∧
    ∀ key j, j ≠ i → ((s.stop i e).schedulerOwnersByKey.get key = some j ↔
      s.schedulerOwnersByKey.get key = some j)
  := by
  obtain ⟨s', hstops, engines, heq, -⟩ := s.stop_eq i e
  rw [heq]
  constructor
  · intro h entry hentry hengine
    obtain ⟨entry', hentry', -, -, hsame⟩ := hstops.new h entry hentry
    change s'.schedulers.get h = some entry
    rw [hentry', hsame]
    rintro ⟨k, r⟩ hr hscheduler
    obtain ⟨entry₀, hentry₀, hengine₀, -⟩ := hs.kept i e k r h he (JsMap.get_eq_some.mpr hr)
      hscheduler
    rw [hentry] at hentry₀
    obtain rfl := Option.some.inj hentry₀
    apply hengine hengine₀
  · intro key j hj
    change s'.schedulerOwnersByKey.get key = some j ↔ _
    rw [hstops.owners]
    simp [hj]

end Coherent

/-- In every run in which no call goes on disturbed, the schedulers are safe. -/
theorem schedulersSafe_of_undisturbed (steps : List (Engines × EngineEvent)) (s : Engines)
    (h : (Engines.system.restrict Engines.Undisturbed).Run .initial steps s) :
  SchedulersSafe steps s
  := by
  have hnext : ∀ s event, Coherent s →
      (Engines.system.restrict Engines.Undisturbed).enabled s event →
        Coherent ((Engines.system.restrict Engines.Undisturbed).next s event) :=
    fun s event hs henabled => hs.handle henabled.1 henabled.2
  have hs : Coherent s := h.preserves hnext Coherent.initial
  have hengine : ∀ {s : Engines} {i : ℕ}, s.enabled (.stop i) = true →
      ∃ e, s.engines.get i = some e := Option.isSome_iff_exists.mp
  constructor
  · intro h h' entry entry' e e' hrunning hrunning' he he' hdir hserver
    apply hs.single hrunning hrunning' he he' hdir hserver
  · exact fun h entry hrunning => hs.owner_of_running hrunning
  · rintro before t i after rfl hstart
    obtain ⟨hbefore, henabled, hafter⟩ := h.split
    have ht : Coherent t := hbefore.preserves hnext Coherent.initial
    obtain ⟨e, he⟩ := hengine henabled.1
    have hstop : (Engines.system.restrict Engines.Undisturbed).next t (.stop i) = t.stop i e := by
      change t.handle (.stop i) = _
      simp only [Engines.handle, Coherent.withEngine_eq he]
    rw [hstop] at hafter
    have hquiet : ∀ s event, Coherent s ∧ Quiet i s →
        (Engines.system.restrict Engines.Undisturbed).enabled s event →
          ¬ (∃ warmup, event = .start i warmup) →
            Coherent (s.handle event) ∧ Quiet i (s.handle event) := by
      rintro s event ⟨hs, hq⟩ henabled hnot
      use hnext s event hs henabled
      apply hq.handle hs henabled.1 henabled.2
      exact fun warmup heq => hnot ⟨warmup, heq⟩
    obtain hkept | ⟨step, hstep, warmup, heq⟩ := hafter.preserves_until hquiet
      ⟨(ht.stop he).1, Quiet.of_stop ht he⟩
    · apply hkept.2.running
    · apply (hstart step hstep warmup heq).elim
  · rintro ⟨t, event⟩ hstep i rfl
    obtain ⟨ht, henabled⟩ := h.preserves_steps hnext Coherent.initial _ hstep
    obtain ⟨e, he⟩ := hengine henabled.1
    simp only [Engines.handle, Coherent.withEngine_eq he]
    apply ht.others he

/-- An engine with one server is started. -/
def sampleStart : List EngineEvent :=
  [.create "cache" [⟨"gateway", 5⟩], .start 0 true, .resume 0 true, .resume 0 true,
    .resume 0 true]

/-- The warm-up ends and the engine is stopped. -/
theorem schedulersSafe_of_undisturbed_stopped :
  ∃ steps s, (Engines.system.restrict Engines.Undisturbed).Run .initial steps s ∧
    s.schedulers.size = 1 ∧ SchedulersSafe steps s
  := by
  obtain ⟨steps, s, hrun, hs⟩ := EventSystem.exists_run_of_play
    (Engines.system.restrict Engines.Undisturbed) (sampleStart ++ [.resume 0 true, .stop 0])
    .initial (fun s => s.schedulers.size = 1) (by decide)
  use steps, s, hrun, of_decide_eq_true hs
  apply schedulersSafe_of_undisturbed steps s hrun

/-- The engine is stopped during its warm-up, and starts its scheduler after that. -/
theorem started_after_stop :
  ¬ ∀ steps s, Engines.system.Run .initial steps s → SchedulersSafe steps s
  := by
  intro h
  have hplay : (Engines.system.play (sampleStart ++ [.stop 0, .resume 0 true]) .initial).any
      (fun s => (s.schedulers.get 0).any fun entry =>
        entry.scheduler.stopped = false ∧ entry.engine = 0) = true := by
    decide
  obtain ⟨s, hs, hany⟩ := (Option.any_eq_true _ _).mp hplay
  obtain ⟨entry, hentry, hrunning⟩ := (Option.any_eq_true _ _).mp hany
  obtain ⟨hstopped, hengine⟩ := of_decide_eq_true hrunning
  have hsafe := h _ s (Engines.system.run_of_play hs)
  apply hsafe.stopped (Engines.system.steps sampleStart .initial) _ 0
    [_] rfl _ 0 entry ⟨hentry, hstopped⟩ hengine
  intro step hstep warmup
  obtain rfl := List.mem_singleton.mp hstep
  exact nofun

end ProviderSync
