import OpencodeToolbelt.ProviderSync.Stopping

/-!
# What an event does to the engines

An event changes one engine, lets one call go on, adds one or stops schedulers. The servers of
engines stay what they are, and no call goes over to another engine.
-/

namespace ProviderSync

/-! ### One engine changes -/

theorem callSeq_stop (s : Engines) (i : ℕ) (e : Engine) :
  (s.stop i e).callSeq = s.callSeq
  := by
  have hrelease : ∀ (s : Engines) key, (s.releaseSchedulerOwnership i key).callSeq = s.callSeq := by
    intro s key
    rw [Engines.releaseSchedulerOwnership]
    split <;> rfl
  have hserver : ∀ (s : Engines) key r, (s.stopServer i key r).callSeq = s.callSeq := by
    intro s key r
    have hscheduler : (r.scheduler.elim s fun handle =>
        s.updateScheduler handle Scheduler.stop).callSeq = s.callSeq := by
      cases r.scheduler <;> rfl
    rw [Engines.stopServer]
    split
    · rw [hrelease, hscheduler]
    · apply hscheduler
  have hloop : ∀ (l : List (String × ServerRuntime)) (s : Engines),
      (l.foldl (fun s r => s.stopServer i (e.key r.1) r.2) s).callSeq = s.callSeq := by
    intro l
    induction l with
    | nil => exact fun s => rfl
    | cons r l ih =>
        intro s
        rw [List.foldl_cons, ih, hserver]
  rw [Engines.stop, Engines.updateEngine]
  split <;> apply hloop

/-- Only one engine changes, and it keeps its servers. -/
structure Touches (i : ℕ) (s s' : Engines) : Prop where
  servers : ∀ j, (s'.engines.get j).map Engine.servers = (s.engines.get j).map Engine.servers
  others : ∀ j, j ≠ i → s'.engines.get j = s.engines.get j
  callSeq : s'.callSeq = s.callSeq

namespace Touches

variable {i : ℕ} {s s' s'' : Engines}

theorem trans (h : Touches i s s') (h' : Touches i s' s'') :
  Touches i s s''
  := by
  constructor
  · exact fun j => (h'.servers j).trans (h.servers j)
  · exact fun j hj => (h'.others j hj).trans (h.others j hj)
  · exact h'.callSeq.trans h.callSeq

theorem of_engines (h : s'.engines = s.engines) (hcallSeq : s'.callSeq = s.callSeq) :
  Touches i s s'
  := by
  constructor
  · intro j
    rw [h]
  · intro j _
    rw [h]
  · apply hcallSeq

/-- The servers of an engine are those it has had. -/
theorem get (h : Touches i s s') {j : ℕ} {e : Engine} (he : s.engines.get j = some e) :
  ∃ e', s'.engines.get j = some e' ∧ e'.servers = e.servers
  := by
  have hj := h.servers j
  rw [he, Option.map_some, Option.map_eq_some_iff] at hj
  apply hj

theorem of_get {f : Engine → Engine}
    (hget : ∀ j, s'.engines.get j = (s.engines.get j).map fun e => if j = i then f e else e)
    (hf : ∀ e, (f e).servers = e.servers) (hcallSeq : s'.callSeq = s.callSeq) :
  Touches i s s'
  := by
  constructor
  · intro j
    rw [hget, Option.map_map]
    congr 1
    funext e
    dsimp only [Function.comp_apply]
    split
    · apply hf
    · rfl
  · intro j hj
    simp [hget, hj]
  · apply hcallSeq

theorem updateEngine (s : Engines) (i : ℕ) {f : Engine → Engine}
    (hf : ∀ e, (f e).servers = e.servers) :
  Touches i s (s.updateEngine i f)
  := by
  obtain ⟨engines, heq, hget⟩ := s.updateEngine_eq i f
  rw [heq]
  exact of_get hget hf rfl

theorem claim (s : Engines) (i : ℕ) (serverId : String) :
  Touches i s (s.claim i serverId)
  := by
  rw [Engines.claim]
  split
  · exact of_engines rfl rfl
  · next e _ =>
      have hsame : Touches i s
          { s with schedulerOwnersByKey := s.schedulerOwnersByKey.set (e.key serverId) i } :=
        of_engines rfl rfl
      exact hsame.trans (updateEngine _ _ fun _ => rfl)

theorem launch (s : Engines) (i : ℕ) (server : ProviderServerConfig) (object : Option ℕ) :
  Touches i s (s.launch i server object)
  := by
  have hsame : Touches i s
      { s with
        schedulers := s.schedulers.set s.schedulerSeq
          ⟨i, server.id, startScheduler server.intervalMs⟩
        schedulerSeq := s.schedulerSeq + 1 } := of_engines rfl rfl
  exact hsame.trans (updateEngine _ _ fun _ => rfl)

theorem loadServers (s : Engines) (c : ℕ) (call : Call) (servers : List ProviderServerConfig) :
  Touches call.engine s (s.loadServers c call servers)
  := by
  cases servers with
  | cons server rest => exact of_engines rfl rfl
  | nil =>
      rw [Engines.loadServers]
      have hset := updateEngine s call.engine (f := fun e => { e with initialized := true })
        fun _ => rfl
      split <;> exact hset.trans (of_engines rfl rfl)

theorem startServers (s : Engines) (c : ℕ) (call : Call) (warmup : Bool)
    (servers : List ProviderServerConfig) :
  Touches call.engine s (Engines.startServers c call warmup s servers)
  := by
  induction servers generalizing s with
  | nil =>
      have hset := updateEngine s call.engine (f := fun e => { e with started := true })
        fun _ => rfl
      exact hset.trans (of_engines rfl rfl)
  | cons server rest ih =>
      rw [Engines.startServers]
      split
      · have hclaim := claim s call.engine server.id
        dsimp only
        split
        · exact hclaim.trans (of_engines rfl rfl)
        · apply hclaim.trans
          apply (launch _ _ _ _).trans
          apply ih
      · apply ih

theorem setRuntime (s : Engines) (i : ℕ) (serverId : String) :
  Touches i s (s.setRuntime i serverId)
  := by
  have hsame : Touches i s { s with objectSeq := s.objectSeq + 1 } := of_engines rfl rfl
  exact hsame.trans (updateEngine _ _ fun _ => rfl)

theorem resume (s : Engines) (c : ℕ) (call : Call) (e : Engine) (ok : Bool) :
  Touches call.engine s (s.resume c call e ok)
  := by
  rw [Engines.resume]
  split
  · split
    · apply loadServers
    · exact of_engines rfl rfl
  · split
    · apply (setRuntime _ _ _).trans (loadServers _ _ _ _)
    · exact of_engines rfl rfl
  · apply startServers
  · apply (launch _ _ _ _).trans (startServers _ _ _ _ _)

theorem stop (s : Engines) (i : ℕ) (e : Engine) :
  Touches i s (s.stop i e)
  := by
  have hcallSeq := callSeq_stop s i e
  obtain ⟨s', -, engines, heq, hget⟩ := s.stop_eq i e
  rw [heq] at hcallSeq ⊢
  exact of_get hget (fun _ => rfl) hcallSeq

end Touches

/-! ### One call goes on -/

section Calls

variable {s : Engines} {c c' : ℕ} {call call' : Call}

theorem get_calls_loadServers (hne : c' ≠ c) (servers : List ProviderServerConfig) :
  (s.loadServers c call servers).calls.get c' = s.calls.get c'
  := by
  cases servers with
  | cons server rest => apply JsMap.get_set_of_ne _ hne
  | nil =>
      rw [Engines.loadServers]
      split
      · rw [Engines.returns, JsMap.get_delete_of_ne _ hne, Engines.calls_updateEngine]
      · rw [Engines.awaits, JsMap.get_set_of_ne _ hne, Engines.calls_updateEngine]

theorem calls_claim (s : Engines) (i : ℕ) (serverId : String) :
  (s.claim i serverId).calls = s.calls
  := by
  rw [Engines.claim]
  split
  · rfl
  · simp [Engines.updateRuntime]

theorem get_calls_startServers (hne : c' ≠ c) {warmup : Bool}
    (servers : List ProviderServerConfig) :
  (Engines.startServers c call warmup s servers).calls.get c' = s.calls.get c'
  := by
  induction servers generalizing s with
  | nil =>
      rw [Engines.startServers, Engines.returns, JsMap.get_delete_of_ne _ hne,
        Engines.calls_updateEngine]
  | cons server rest ih =>
      rw [Engines.startServers]
      split
      · dsimp only
        split
        · rw [Engines.awaits, JsMap.get_set_of_ne _ hne, calls_claim]
        · rw [ih]
          obtain ⟨-, -, -, -, -, hcalls⟩ := (s.claim call.engine server.id).launch_eq call.engine
            server (((s.claim call.engine server.id).runtime call.engine server.id).map
              ServerRuntime.object)
          rw [hcalls, calls_claim]
      · apply ih

theorem calls_setRuntime (s : Engines) (i : ℕ) (serverId : String) :
  (s.setRuntime i serverId).calls = s.calls
  := by
  rw [Engines.setRuntime, Engines.calls_updateEngine]

theorem calls_launch (s : Engines) (i : ℕ) (server : ProviderServerConfig) (object : Option ℕ) :
  (s.launch i server object).calls = s.calls
  := by
  obtain ⟨-, -, -, -, -, hcalls⟩ := s.launch_eq i server object
  apply hcalls

/-- The other calls wait on. -/
theorem get_calls_resume (hne : c' ≠ c) (e : Engine) (ok : Bool) :
  (s.resume c call e ok).calls.get c' = s.calls.get c'
  := by
  rw [Engines.resume]
  split
  · split
    · apply get_calls_loadServers hne
    · apply JsMap.get_delete_of_ne _ hne
  · split
    · rw [get_calls_loadServers hne, calls_setRuntime]
    · apply JsMap.get_delete_of_ne _ hne
  · apply get_calls_startServers hne
  · rw [get_calls_startServers hne, calls_launch]

/-- The call that goes on changes only in what it waits for. -/
theorem call_of_resume (hcall : s.calls.get c = some call) {e : Engine} {ok : Bool}
    (h : (s.resume c call e ok).calls.get c = some call') :
  ∃ await, call' = { call with await }
  := by
  have hload : ∀ s' servers, s'.calls = s.calls →
      (Engines.loadServers s' c call servers).calls.get c = some call' →
        ∃ await, call' = { call with await } := by
    intro s' servers hcalls h
    obtain hold | ⟨await, heq, -⟩ := calls_of_loadServers h
    · rw [hcalls, hcall] at hold
      use call.await
      apply (Option.some.inj hold).symm
    · use await
  have hstart : ∀ s' servers warmup, s'.calls = s.calls →
      (Engines.startServers c call warmup s' servers).calls.get c = some call' →
        ∃ await, call' = { call with await } := by
    intro s' servers warmup hcalls h
    obtain hold | heq := calls_of_startServers h
    · rw [hcalls, hcall] at hold
      use call.await
      apply (Option.some.inj hold).symm
    · apply heq
  have hreturns : (s.returns c).calls.get c = none := JsMap.get_delete_self _ _
  rw [Engines.resume] at h
  split at h
  · split at h
    · apply hload _ _ rfl h
    · rw [hreturns] at h
      cases h
  · split at h
    · apply hload _ _ (calls_setRuntime _ _ _) h
    · rw [hreturns] at h
      cases h
  · apply hstart _ _ _ rfl h
  · apply hstart _ _ _ (calls_launch _ _ _ _) h

/-- What a call that waits does when it goes on. -/
theorem handle_resume (hs : Coherent s) (hcall : s.calls.get c = some call) (ok : Bool) :
  ∃ e, s.engines.get call.engine = some e ∧ s.handle (.resume c ok) = s.resume c call e ok
  := by
  obtain ⟨e, he, -⟩ := hs.calls c call hcall
  use e, he
  rw [Engines.handle, hcall, Option.elim_some, Coherent.withEngine_eq he]

/-- A call has returned when its engine has no call any more. -/
theorem has_resume_of_none (hs : Coherent s) (hcall : s.calls.get c = some call) {ok : Bool}
    (hnone : ∀ c' call', (s.handle (.resume c ok)).calls.get c' = some call' →
      call'.engine ≠ call.engine) :
  (s.handle (.resume c ok)).calls.has c = false
  := by
  obtain ⟨e, -, hhandle⟩ := handle_resume hs hcall ok
  rw [JsMap.has, Option.isSome_eq_false_iff, Option.isNone_iff_eq_none,
    Option.eq_none_iff_forall_ne_some]
  intro call' hcall'
  have hengine := hnone c call' hcall'
  rw [hhandle] at hcall'
  obtain ⟨await, rfl⟩ := call_of_resume hcall hcall'
  apply hengine rfl

end Calls

/-! ### What an event does -/

namespace EngineEvent

/-- The engine that an event starts. -/
def starts : EngineEvent → Option ℕ
  | .start i _ => some i
  | _ => none

/-- The engine that an event starts or initialises. -/
def callee : EngineEvent → Option ℕ
  | .start i _ => some i
  | .callInitialize i => some i
  | _ => none

/-- The call that an event lets go on. -/
def resumes : EngineEvent → Option ℕ
  | .resume c _ => some c
  | _ => none

/-- To start an engine is to call it. -/
theorem starts_ne {event : EngineEvent} {i : ℕ} (h : event.callee ≠ some i) :
  event.starts ≠ some i
  := by
  cases event with
  | start j warmup => apply h
  | _ => apply (Option.some_ne_none _).symm

end EngineEvent

/-- What an event may do to the engines. -/
inductive Handled (s : Engines) : EngineEvent → Engines → Prop where
  | created (cacheDirPath : String) (servers : List ProviderServerConfig) :
      Handled s (.create cacheDirPath servers) (s.handle (.create cacheDirPath servers))
  /-- An engine has been started or initialised before. -/
  | ignored (event : EngineEvent) : Handled s event s
  | called {event : EngineEvent} {call : Call} (hcallee : event.callee = some call.engine)
      (hstarts : event.starts = some call.engine ∨
        call.warmup = none ∧ call.await.Initializing) : Handled s event (s.addCall call)
  | stopped {i : ℕ} {e : Engine} (he : s.engines.get i = some e) :
      Handled s (.stop i) (s.stop i e)
  | resumed {c : ℕ} {call : Call} {e : Engine} (hcall : s.calls.get c = some call)
      (he : s.engines.get call.engine = some e) (ok : Bool) :
      Handled s (.resume c ok) (s.resume c call e ok)
  | scheduled (event : EngineEvent) (handle : ℕ) {f : Scheduler → Scheduler}
      (hf : ∀ scheduler, (f scheduler).stopped = scheduler.stopped) :
      Handled s event (s.updateScheduler handle f)

/-- The numbers of the calls are used up in order. -/
def Engines.Numbered (s : Engines) : Prop := ∀ c call, s.calls.get c = some call → c < s.callSeq

section Events

variable {s : Engines} {event : EngineEvent} {c : ℕ} {call : Call}

theorem handled_callInitialize {i : ℕ} {e : Engine} {warmup : Option Bool}
    (hcallee : event.callee = some i) (hstarts : event.starts = some i ∨ warmup = none) :
  Handled s event (s.callInitialize i e warmup)
  := by
  unfold Engines.callInitialize
  split
  · split
    · apply Handled.ignored
    · next h =>
        apply Handled.called hcallee
        exact .inl (hstarts.resolve_right nofun)
  · apply Handled.called hcallee
    exact hstarts.imp_right fun h => ⟨h, trivial⟩

theorem handled (hs : Coherent s) (henabled : s.enabled event = true) :
  Handled s event (s.handle event)
  := by
  have hengine : ∀ i, s.engines.has i = true → ∃ e, s.engines.get i = some e :=
    fun i h => Option.isSome_iff_exists.mp h
  cases event with
  | create cacheDirPath servers => apply Handled.created
  | start i warmup =>
      obtain ⟨e, he⟩ := hengine i henabled
      rw [Engines.handle, Coherent.withEngine_eq he]
      split
      · apply Handled.ignored
      · exact handled_callInitialize rfl (.inl rfl)
  | callInitialize i =>
      obtain ⟨e, he⟩ := hengine i henabled
      rw [Engines.handle, Coherent.withEngine_eq he]
      exact handled_callInitialize rfl (.inr rfl)
  | stop i =>
      obtain ⟨e, he⟩ := hengine i henabled
      rw [Engines.handle, Coherent.withEngine_eq he]
      apply Handled.stopped he
  | resume c ok =>
      obtain ⟨call, hcall⟩ := Option.isSome_iff_exists.mp henabled
      obtain ⟨e, he, hhandle⟩ := handle_resume hs hcall ok
      rw [hhandle]
      apply Handled.resumed hcall he
  | timer k timer => exact .scheduled _ k fun scheduler => scheduler.stopped_tick timer
  | completed k ok => exact .scheduled _ k fun scheduler => scheduler.stopped_completed ok

/-- An event adds a call of an engine only if it is one, and takes none to another engine. -/
theorem calls_of_handle (hs : Coherent s) (henabled : s.enabled event = true)
    (h : (s.handle event).calls.get c = some call) :
  (∃ call', s.calls.get c = some call' ∧ call'.engine = call.engine) ∨
    c = s.callSeq ∧ (s.handle event).callSeq = s.callSeq + 1 ∧
      event.callee = some call.engine
  := by
  have hhandled := handled hs henabled
  generalize s.handle event = s' at h hhandled ⊢
  cases hhandled with
  | called hcallee hstarts =>
      rw [Engines.addCall, JsMap.get_set] at h
      split at h
      · next heq =>
          obtain rfl := Option.some.inj h
          exact .inr ⟨heq, rfl, hcallee⟩
      · exact .inl ⟨call, h, rfl⟩
  | @stopped i e he =>
      left
      obtain ⟨s', -, engines, heq, -⟩ := s.stop_eq i e
      rw [heq] at h
      dsimp only at h
      rw [JsMap.get_mapValues, Option.map_eq_some_iff] at h
      obtain ⟨call', hcall', rfl⟩ := h
      use call', hcall'
      split <;> rfl
  | @resumed c' call' e hcall' he ok =>
      left
      by_cases heq : c = c'
      · subst heq
        obtain ⟨await, rfl⟩ := call_of_resume hcall' h
        exact ⟨call', hcall', rfl⟩
      · rw [get_calls_resume heq] at h
        exact ⟨call, h, rfl⟩
  | created cacheDirPath servers => exact .inl ⟨call, h, rfl⟩
  | ignored => exact .inl ⟨call, h, rfl⟩
  | scheduled k f => exact .inl ⟨call, h, rfl⟩

theorem callSeq_handle_le (hs : Coherent s) (henabled : s.enabled event = true) :
  s.callSeq ≤ (s.handle event).callSeq
  := by
  have hhandled := handled hs henabled
  generalize s.handle event = s' at hhandled ⊢
  cases hhandled with
  | called hcallee hstarts => apply Nat.le_succ
  | stopped he => rw [callSeq_stop]
  | resumed hcall he ok => rw [(Touches.resume _ _ _ _ _).callSeq]
  | _ => apply Nat.le_refl

theorem Engines.Numbered.handle (h : s.Numbered) (hs : Coherent s)
    (henabled : s.enabled event = true) :
  (s.handle event).Numbered
  := by
  intro c call hcall
  obtain ⟨call', hcall', -⟩ | ⟨rfl, hseq, -⟩ := calls_of_handle hs henabled hcall
  · apply (h c call' hcall').trans_le (callSeq_handle_le hs henabled)
  · rw [hseq]
    apply Nat.lt_succ_self

/-- A call waits on for its engine until it goes on. -/
theorem call_handle (hs : Coherent s) (hnumbered : s.Numbered) (henabled : s.enabled event = true)
    (hresumes : event.resumes ≠ some c) (hcall : s.calls.get c = some call) :
  ∃ call', (s.handle event).calls.get c = some call' ∧ call'.engine = call.engine
  := by
  have hhandled := handled hs henabled
  generalize s.handle event = s' at hhandled ⊢
  cases hhandled with
  | called hcallee hstarts =>
      use call
      rw [Engines.addCall, JsMap.get_set_of_ne _ (hnumbered c call hcall).ne]
      use hcall
  | @stopped i e he =>
      obtain ⟨s', -, engines, heq, -⟩ := s.stop_eq i e
      rw [heq]
      dsimp only
      rw [JsMap.get_mapValues, hcall, Option.map_some]
      refine ⟨_, rfl, ?_⟩
      split <;> rfl
  | @resumed c' call' e hcall' he ok =>
      have hne : c ≠ c' := by
        rintro rfl
        apply hresumes rfl
      rw [get_calls_resume hne]
      use call, hcall
  | _ => use call, hcall

/-- An engine that is there keeps its servers. -/
theorem servers_handle (hs : Coherent s) (henabled : s.enabled event = true) {j : ℕ} {e : Engine}
    (he : s.engines.get j = some e) :
  ∃ e', (s.handle event).engines.get j = some e' ∧ e'.servers = e.servers
  := by
  have hhandled := handled hs henabled
  generalize s.handle event = s' at hhandled ⊢
  cases hhandled with
  | created cacheDirPath servers =>
      rw [Engines.handle, JsMap.get_set_of_ne _ (hs.engines j e he).ne]
      use e, he
  | stopped _ => apply (Touches.stop _ _ _).get he
  | resumed _ _ ok => apply (Touches.resume _ _ _ _ _).get he
  | _ => use e, he

end Events

end ProviderSync
