import OpencodeToolbelt.Browser.Registry

/-!
# The maps of the broker agree

Along every run in which connections keep their role and id, and in which the groups an
executor has reported are entered before it leaves, the maps of the registry agree.
-/

namespace Browser

/-! ### The reports of executors -/

/-- Commands are pending only for executors that are registered, and so are the reports of
groups that have not been entered yet. -/
structure Reporting (b : Broker) : Prop where
  commands : ∀ reqId p, b.pending.get reqId = some p → b.executorById.has p.executorId = true ∧
    ∀ e, p.waiter = .rebuild e → e.id = p.executorId
  rebuilds : ∀ job ∈ b.jobs, Broker.reportedGroups job.outcome ≠ [] →
    ∀ e, job.waiter = .rebuild e → b.executorById.has e.id = true

namespace Reporting

theorem clears {b b' : Broker} (hb : Reporting b) (h : Clears b b')
    (hjobs : ∀ job ∈ b'.jobs, job ∈ b.jobs ∨ Broker.reportedGroups job.outcome = [] ∨
      ∃ reqId p, b.pending.get reqId = some p ∧ p.waiter = job.waiter) :
  Reporting b'
  := by
  constructor
  · rw [h.executorById]
    exact fun reqId p hp => hb.commands reqId p (h.pending reqId p hp)
  · rw [h.executorById]
    intro job hjob hgroups e he
    obtain hold | hnone | ⟨reqId, p, hp, hwaiter⟩ := hjobs job hjob
    · apply hb.rebuilds job hold hgroups e he
    · exact (hgroups hnone).elim
    · obtain ⟨hhas, hid⟩ := hb.commands reqId p hp
      rwa [hid e (hwaiter.trans he)]

theorem settles {b b' : Broker} (hb : Reporting b) (h : Settles b b') :
  Reporting b'
  := by
  apply hb.clears h.toClears
  exact fun job hjob => (h.jobs job hjob).imp_right .inl

theorem sends {b b' : Broker} (hb : Reporting b) {executor : ExecutorInfo} {waiter : Waiter}
    (hexecutor : b.executorById.has executor.id = true)
    (hwaiter : ∀ e, waiter = .rebuild e → e = executor) (h : Sends executor waiter b b') :
  Reporting b'
  := by
  constructor
  · rw [h.executorById]
    intro reqId p hp
    obtain hold | ⟨hid, hw, -⟩ := h.pending reqId p hp
    · apply hb.commands reqId p hold
    · rw [hid]
      use hexecutor
      intro e he
      rw [hwaiter e (hw.symm.trans he)]
  · rw [h.executorById]
    intro job hjob hgroups
    apply hb.rebuilds job ((h.jobs job hjob).resolve_right hgroups) hgroups

/-- Executors may join, as long as no command or job does. -/
theorem mono {b b' : Broker} (hb : Reporting b) (hpending : b'.pending = b.pending)
    (hjobs : b'.jobs = b.jobs)
    (hhas : ∀ id, b.executorById.has id = true → b'.executorById.has id = true) :
  Reporting b'
  := by
  constructor
  · rw [hpending]
    exact fun reqId p hp => (hb.commands reqId p hp).imp_left (hhas _)
  · rw [hjobs]
    exact fun job hjob hgroups e he => hhas _ (hb.rebuilds job hjob hgroups e he)

end Reporting

/-- The registry agrees, and the reports are those of registered executors. -/
structure Agrees (b : Broker) : Prop where
  registered : Registered b
  reporting : Reporting b

namespace Agrees

theorem settles {b b' : Broker} (hb : Agrees b) (h : Settles b b') :
  Agrees b'
  := ⟨hb.registered.of_same h.toSameRegistry, hb.reporting.settles h⟩

theorem sends {b b' : Broker} (hb : Agrees b) {executor : ExecutorInfo} {waiter : Waiter}
    (hexecutor : ∃ id, b.executorById.get id = some executor)
    (hwaiter : ∀ e, waiter = .rebuild e → e = executor) (h : Sends executor waiter b b') :
  Agrees b'
  := by
  obtain ⟨id, hid⟩ := hexecutor
  use hb.registered.of_same h.toSameRegistry
  apply hb.reporting.sends (hb.registered.has_id hid) hwaiter h

/-! ### Commands -/

theorem aggregateTabs {b : Broker} (hb : Agrees b) (opts : BrokerOptions) (position : ℕ)
    (groups : List (TabGroup × String)) (requester : Requester) :
  Agrees (b.aggregateTabs opts position groups requester)
  := by
  unfold Broker.aggregateTabs
  split
  · apply hb.settles (b.settles_addJob _ rfl)
  · next position' id executor hnext =>
      apply hb.sends _ _ (b.sends_sendToExecutor _ _ _ _ _ _)
      · use id
        apply JsMap.get_eq_some.mpr (JsMap.mem_entries_of_next hnext)
      · rintro e ⟨⟩

theorem releaseForAgent {b : Broker} (hb : Agrees b) (agentId : String) :
  Agrees (b.releaseForAgent agentId)
  := by
  apply Agrees.settles _ (b.settles_releaseForAgent agentId)
  use hb.registered.withoutOwner agentId
  exact hb.reporting.mono rfl rfl fun _ h => h

theorem route {b : Broker} (hb : Agrees b) (opts : BrokerOptions) {agentId : String}
    (hagent : Present b agentId) (cmd : Command) (signal : Option ℕ) (requester : Requester) :
  Agrees (b.route opts agentId cmd signal requester)
  := by
  unfold Broker.route
  split
  · apply hb.settles (b.settles_addJob _ rfl)
  · split
    · apply (hb.releaseForAgent agentId).settles (Broker.settles_addJob _ _ rfl)
    · split
      · apply hb.aggregateTabs
      · obtain ⟨hclaims, hchosen⟩ := b.claims_executorFor agentId cmd
        have hclaimed : Agrees (b.executorFor agentId cmd).1 := by
          use hb.registered.claims hagent hclaims
          rw [hclaims.rest]
          exact hb.reporting.mono rfl rfl fun _ h => h
        split
        · next b' err heq =>
            rw [heq] at hclaimed
            apply hclaimed.settles (b'.settles_addJob _ rfl)
        · next b' executor heq =>
            rw [heq] at hclaims hchosen hclaimed
            apply hclaimed.sends _ _ (b'.sends_sendToExecutor _ _ _ _ _ _)
            · rw [hclaims.rest]
              apply hchosen executor rfl
            · rintro e ⟨⟩

/-! ### Hello -/

theorem acceptAgent {b : Broker} (hb : Agrees b) {conn : ℕ} (hopen : conn ∈ b.opened)
    (hexecutor : b.executors.get conn = none)
    (hagent : ∀ info, b.agents.get conn = some info → ∀ group owner,
      b.groupOwner.get group = some owner → owner.agentId ≠ some info.id) :
  Agrees (b.acceptAgent conn)
  := by
  apply Agrees.settles _ (Broker.settles_safeSend _ _ _)
  use hb.registered.joinAgent hopen hexecutor hagent _ _
  exact hb.reporting.mono rfl rfl fun _ h => h

theorem register {b : Broker} (hb : Agrees b) (info : ExecutorInfo)
    (hid : SameId b info.conn info.id) (hopen : info.conn ∈ b.opened)
    (hagent : b.agents.get info.conn = none) :
  Agrees ((b.replaceStale info.conn info.id).register info)
  := by
  use hb.registered.register info hid hopen hagent
  have hkeeps := (b.keepsCommands_replaceStale info.conn info.id).trans
    (Broker.keepsCommands_register _ info)
  apply hb.reporting.mono hkeeps.pending hkeeps.jobs
  intro id hhas
  rw [((b.replaceStale info.conn info.id).register_executors info).2,
    (b.replaceStale_same info.conn info.id).1]
  apply JsMap.has_set _ _ _ hhas

theorem acceptExecutor {b : Broker} (hb : Agrees b) (opts : BrokerOptions) {conn : ℕ}
    {frame : HelloFrame} (hid : SameId b conn (b.executorIdFor frame.id).2)
    (hopen : conn ∈ b.opened) (hagent : b.agents.get conn = none) :
  Agrees (b.acceptExecutor opts conn frame)
  := by
  have hnamed := b.settles_executorIdFor frame.id
  have hb' := hb.settles hnamed
  simp only [Broker.acceptExecutor]
  apply Agrees.sends _ _ _ (Broker.sends_sendToExecutor _ _ _ _ _ _ _)
  · apply Agrees.settles _ (Broker.settles_safeSend _ _ _)
    apply hb'.register
    · unfold SameId
      rwa [hnamed.executors]
    · rwa [hnamed.opened]
    · rwa [hnamed.agents]
  · use (b.executorIdFor frame.id).2
    rw [(Broker.settles_safeSend _ _ _).executorById, (Broker.register_executors _ _).2,
      JsMap.get_set_self]
  · rintro e ⟨⟩
    rfl

end Agrees

/-- A hello for which the connection may have been registered before: that of an executor
under the same id, or that of an agent which owned no group. -/
def KeepsRole (b : Broker) (conn : ℕ) (frame : HelloFrame) : Prop :=
  if frame.role = some .agent then
    b.executors.get conn = none ∧ ∀ info ∈ b.agents.get conn,
      ∀ e ∈ b.groupOwner.entries, e.2.agentId ≠ some info.id
  else b.agents.get conn = none ∧ SameId b conn (b.executorIdFor frame.id).2

instance (b : Broker) (conn : ℕ) (frame : HelloFrame) :
  Decidable (KeepsRole b conn frame)
  := inferInstanceAs (Decidable (if frame.role = some .agent then
      b.executors.get conn = none ∧ ∀ info ∈ b.agents.get conn,
        ∀ e ∈ b.groupOwner.entries, e.2.agentId ≠ some info.id
    else b.agents.get conn = none ∧ SameId b conn (b.executorIdFor frame.id).2))

/-- What waits enters groups for one of some executors. -/
def Waiter.Rebuilds (ids : String → Prop) : Waiter → Prop
  | .rebuild e => ids e.id
  | _ => False

/-- The groups that the executors which leave have reported have been entered. -/
def Entered (b : Broker) (leaves : String → Prop) : Prop :=
  ∀ job ∈ b.jobs, Broker.reportedGroups job.outcome = [] ∨ ¬ job.waiter.Rebuilds leaves

/-- Connections that are registered keep their role and id, and executors leave after the
groups they have reported have been entered. -/
def Orderly (b : Broker) : BrokerEvent → Prop
  | .message conn (.hello frame) reloadToken => Accepts b frame reloadToken → KeepsRole b conn frame
  | .closed conn => ∀ executor ∈ b.executors.get conn, Entered b (· = executor.id)
  | .stop => Entered b fun _ => True
  | _ => True

namespace Agrees

theorem handleHello {b : Broker} (hb : Agrees b) (opts : BrokerOptions) {conn : ℕ}
    (hopen : conn ∈ b.opened) {frame : HelloFrame} {reloadToken : Option String}
    (h : Accepts b frame reloadToken → KeepsRole b conn frame) :
  Agrees (b.handleHello opts conn frame reloadToken)
  := by
  obtain ⟨token, hb', haccepts⟩ := b.checkToken frame reloadToken
  simp only [Broker.handleHello, hb']
  have hagrees : Agrees { b with token } :=
    hb.settles (.of_same ⟨rfl, rfl, rfl, rfl, rfl, rfl, rfl⟩ rfl rfl rfl rfl rfl fun _ h => .inl h)
  split
  · next heq =>
      have hrole := h (haccepts heq)
      unfold KeepsRole at hrole
      split
      · next hagent =>
          rw [if_pos hagent] at hrole
          obtain ⟨hexecutor, hvacant⟩ := hrole
          apply hagrees.acceptAgent hopen hexecutor
          intro info hinfo group owner howner
          apply hvacant info hinfo (group, owner) (JsMap.mem_entries_of_get howner)
      · next hagent =>
          rw [if_neg hagent] at hrole
          obtain ⟨hvacant, hid⟩ := hrole
          apply hagrees.acceptExecutor opts _ hopen hvacant
          rw [b.executorIdFor_token token]
          apply hid
  · apply Agrees.settles _ (Broker.settles_closeConnection _ _)
    apply hagrees.settles (Broker.settles_safeSend _ _ _)

/-! ### Events -/

theorem onMessage {b : Broker} (hb : Agrees b) (opts : BrokerOptions) {conn : ℕ}
    {frame : ClientFrame} {reloadToken : Option String}
    (hopen : conn ∈ b.opened) (h : Orderly b (.message conn frame reloadToken)) :
  Agrees (b.onMessage opts conn frame reloadToken)
  := by
  have hother : Agrees (b.handleFrame opts conn frame) := by
    unfold Broker.handleFrame
    split
    · cases frame with
      | result id ok data error =>
          use hb.registered.of_same (b.clears_handleResult id ok data error).toSameRegistry
          apply hb.reporting.clears (b.clears_handleResult id ok data error)
          exact fun job hjob => (b.jobs_handleResult id ok data error job hjob).imp_right .inr
      | event frame => apply hb.settles (b.settles_routeEvent frame)
      | ping => apply hb.settles (b.settles_safeSend _ _)
      | _ => apply hb
    · split
      · next agent hagent =>
          cases frame with
          | command id cmd =>
              apply Agrees.route
              · apply hb.settles
                exact .of_same ⟨rfl, rfl, rfl, rfl, rfl, rfl, rfl⟩ rfl rfl rfl rfl rfl
                  fun _ h => .inl h
              right
              use conn, agent, hagent, rfl
          | ping => apply hb.settles (b.settles_safeSend _ _)
          | _ => apply hb
      · apply hb
  cases frame with
  | hello frame => apply hb.handleHello opts hopen h
  | _ => apply hother

theorem closed {b : Broker} (hb : Agrees b) {conn : ℕ} (h : Orderly b (.closed conn)) :
  Agrees ({ b with opened := b.opened.filter (· ≠ conn) }.onClose conn)
  := by
  unfold Broker.onClose
  split
  · next executor hexecutor =>
      change b.executors.get conn = some executor at hexecutor
      obtain ⟨hconn, hid⟩ := hb.registered.byConn conn executor hexecutor
      obtain ⟨hsettles, hgone⟩ := Broker.settles_closeExecutor
        { b with opened := b.opened.filter (· ≠ conn) } hconn hid
      use (hb.registered.withoutExecutor hexecutor).of_same hsettles.toSameRegistry
      constructor
      · rw [hsettles.executorById]
        intro reqId p hp
        obtain ⟨hhas, hwaiter⟩ := hb.reporting.commands reqId p (hsettles.pending reqId p hp)
        use JsMap.has_delete _ (hgone reqId p hp) hhas
      · rw [hsettles.executorById]
        intro job hjob hgroups e he
        have hold := (hsettles.jobs job hjob).resolve_right hgroups
        have hentered := (h executor hexecutor job hold).resolve_left hgroups
        rw [he] at hentered
        apply JsMap.has_delete _ hentered
        apply hb.reporting.rebuilds job hold hgroups e he
  · next hexecutor =>
      split
      · next agent hagent =>
          apply Agrees.settles _ (Broker.settles_closeAgent _ _ _)
          use hb.registered.withoutAgent hagent
          exact hb.reporting.mono rfl rfl fun _ h => h
      · next hagent =>
          use hb.registered.closed hexecutor hagent
          exact hb.reporting.mono rfl rfl fun _ h => h

theorem stop {b : Broker} (h : Orderly b .stop) :
  Agrees b.stop
  := by
  have hsettles : Settles b (b.rejectAllPending ⟨"broker stopped", none⟩) := by
    apply b.settles_settleAll
    exact fun b reqId => b.settles_settleReject reqId _
  have hnone : ∀ reqId p,
      (b.rejectAllPending ⟨"broker stopped", none⟩).pending.get reqId ≠ some p := by
    intro reqId p hp
    have hgone := b.get_settleAll (fun b reqId => b.settles_settleReject reqId _)
      (fun b reqId => b.get_settleReject_self reqId _) hp
    cases hgone
  use Registered.clear _
  constructor
  · exact fun reqId p hp => (hnone reqId p hp).elim
  · intro job hjob hgroups e he
    have hold := (hsettles.jobs job hjob).resolve_right hgroups
    have hentered := (h job hold).resolve_left hgroups
    rw [he] at hentered
    exact (hentered trivial).elim

theorem rebuild {b : Broker} (hb : Agrees b) {executorId : String} (groups : List TabGroup)
    (h : groups ≠ [] → b.executorById.has executorId = true) :
  Agrees (groups.foldl (fun b g => b.rebuildGroup executorId g) b)
  := by
  induction groups generalizing b with
  | nil => apply hb
  | cons g groups ih =>
      have hhas := h (List.cons_ne_nil _ _)
      obtain ⟨hregistered, hsame⟩ := hb.registered.rebuildGroup hhas g
      have hcommands : (b.rebuildGroup executorId g).pending = b.pending ∧
          (b.rebuildGroup executorId g).jobs = b.jobs := by
        unfold Broker.rebuildGroup
        split
        · exact ⟨rfl, rfl⟩
        · split <;> exact ⟨rfl, rfl⟩
      apply ih
      · use hregistered
        apply hb.reporting.mono hcommands.1 hcommands.2
        rw [hsame]
        exact fun _ h => h
      · rw [hsame]
        exact fun _ => hhas

theorem runJob {b : Broker} (hb : Agrees b) (opts : BrokerOptions) :
  Agrees (b.runJob opts)
  := by
  unfold Broker.runJob
  split
  · apply hb
  · next job jobs hjobs =>
      have hrest : Agrees { b with jobs } := by
        apply hb.settles
        refine .of_same ⟨rfl, rfl, rfl, rfl, rfl, rfl, rfl⟩ rfl rfl rfl rfl rfl fun j hj => .inl ?_
        rw [hjobs]
        apply List.mem_cons_of_mem _ hj
      obtain ⟨waiter, outcome⟩ := job
      cases waiter with
      | request requester =>
          cases requester with
          | caller call =>
              apply hrest.settles
              exact .of_same ⟨rfl, rfl, rfl, rfl, rfl, rfl, rfl⟩ rfl rfl rfl rfl rfl
                fun _ h => .inl h
          | agent call conn frameId => apply hrest.settles (Broker.settles_safeSend _ _ _)
      | rebuild executor =>
          apply hrest.rebuild
          intro hgroups
          apply hb.reporting.rebuilds ⟨.rebuild executor, outcome⟩ _ hgroups executor rfl
          rw [hjobs]
          apply List.mem_cons_self
      | aggregate executor position groups requester => apply hrest.aggregateTabs

theorem createLocalAgent {b : Broker} (hb : Agrees b) :
  Agrees b.createLocalAgent
  := by
  constructor
  · refine ⟨hb.registered.toInverse.of_same rfl rfl fun _ h => h, hb.registered.roles,
      hb.registered.agents, hb.registered.vacant, hb.registered.primary, hb.registered.groups, ?_⟩
    exact fun group owner agentId ho ha =>
      (hb.registered.owners group owner agentId ho ha).imp_left (List.mem_cons_of_mem _)
  · exact hb.reporting.mono rfl rfl fun _ h => h

theorem opened {b : Broker} (hb : Agrees b) :
  Agrees { b with connSeq := b.connSeq + 1, opened := b.connSeq :: b.opened }
  := by
  constructor
  · refine ⟨hb.registered.toInverse.of_same rfl rfl fun _ h => List.mem_cons_of_mem _ h,
      hb.registered.roles, ?_, hb.registered.vacant, hb.registered.primary,
      hb.registered.groups, ?_⟩
    · exact fun conn info h => List.mem_cons_of_mem _ (hb.registered.agents conn info h)
    · intro group owner agentId ho ha
      obtain hlocal | ⟨conn, info, hinfo, hid, hopen⟩ := hb.registered.owners group owner agentId ho ha
      · exact .inl hlocal
      · exact .inr ⟨conn, info, hinfo, hid, List.mem_cons_of_mem _ hopen⟩
  · exact hb.reporting.mono rfl rfl fun _ h => h

/-- Every orderly event keeps the maps in agreement. -/
theorem handle {b : Broker} (hb : Agrees b) (opts : BrokerOptions) {e : BrokerEvent}
    (henabled : b.enabled e) (h : Orderly b e) :
  Agrees (b.handle opts e)
  := by
  cases e with
  | opened => apply hb.opened
  | message conn frame reloadToken => apply hb.onMessage opts henabled h
  | closed conn => apply hb.closed h
  | stop => apply stop h
  | createLocalAgent => apply hb.createLocalAgent
  | send agentId cmd signal =>
      apply Agrees.route
      · apply hb.settles
        exact .of_same ⟨rfl, rfl, rfl, rfl, rfl, rfl, rfl⟩ rfl rfl rfl rfl rfl fun _ h => .inl h
      · exact .inl henabled
  | release agentId => apply hb.releaseForAgent
  | abort signal => apply hb.settles (b.settles_abort signal)
  | timeout timer => apply hb.settles (b.settles_fireTimer timer)
  | job => apply hb.runJob
  | sendThrows conn error =>
      apply hb.settles
      exact .of_same ⟨rfl, rfl, rfl, rfl, rfl, rfl, rfl⟩ rfl rfl rfl rfl rfl fun _ h => .inl h

theorem initial (token : String) :
  Agrees (Broker.initial token)
  := by
  constructor
  · exact ⟨⟨nofun, nofun, nofun⟩, fun _ => .inl rfl, nofun, fun _ _ => rfl, nofun, nofun, nofun⟩
  · exact ⟨nofun, nofun⟩

end Agrees

/-! ### Runs -/

/-- What the maps of the broker are to satisfy. -/
structure MapsAgree (b : Broker) : Prop where
  byConn : ∀ conn info, b.executors.get conn = some info →
    info.conn = conn ∧ b.executorById.get info.id = some info
  byId : ∀ id info, b.executorById.get id = some info →
    info.id = id ∧ b.executors.get info.conn = some info
  connected : ∀ conn info, b.executors.get conn = some info → conn ∈ b.opened
  roles : ∀ conn, b.executors.get conn = none ∨ b.agents.get conn = none
  vacant : b.primaryExecutorId = none ↔ ∀ conn, b.executors.get conn = none
  primary : ∀ id, b.primaryExecutorId = some id →
    ∃ conn info, b.executors.get conn = some info ∧ info.id = id
  groups : ∀ group owner, b.groupOwner.get group = some owner →
    ∃ conn info, b.executors.get conn = some info ∧ info.id = owner.executorId
  owners : ∀ group owner agentId, b.groupOwner.get group = some owner →
    owner.agentId = some agentId → Present b agentId

theorem Registered.mapsAgree {b : Broker} (hb : Registered b) :
  MapsAgree b
  := by
  have hconnected : ∀ id, b.executorById.has id = true →
      ∃ conn info, b.executors.get conn = some info ∧ info.id = id := by
    intro id hid
    obtain ⟨info, hinfo⟩ := Option.isSome_iff_exists.mp hid
    obtain ⟨heq, hconn⟩ := hb.byId id info hinfo
    use info.conn, info
  refine ⟨hb.byConn, hb.byId, hb.opened, hb.roles, ⟨?_, ?_⟩, ?_, ?_, hb.owners⟩
  · intro hnone conn
    rw [Option.eq_none_iff_forall_ne_some]
    intro info hinfo
    have hid := (hb.byConn conn info hinfo).2
    rw [hb.vacant hnone] at hid
    cases hid
  · intro hnone
    rw [Option.eq_none_iff_forall_ne_some]
    intro id hid
    obtain ⟨conn, info, hinfo, -⟩ := hconnected id (hb.primary id hid)
    rw [hnone conn] at hinfo
    cases hinfo
  · exact fun id hid => hconnected id (hb.primary id hid)
  · exact fun group owner ho => hconnected _ (hb.groups group owner ho)

/-- When all events are orderly, the maps agree in every state that is reached. -/
theorem maps_agree_of_orderly (opts : BrokerOptions) (token : String) (b : Broker)
    (hrun : ((Broker.system opts).restrict Orderly).Reaches (.initial token) b) :
  MapsAgree b
  := by
  apply Registered.mapsAgree
  apply Agrees.registered
  apply hrun.preserves (I := Agrees) _ (Agrees.initial token)
  exact fun b e hb he => hb.handle opts he.1 he.2

instance (ids : String → Prop) [DecidablePred ids] (waiter : Waiter) :
  Decidable (waiter.Rebuilds ids)
  := by
  unfold Waiter.Rebuilds
  split <;> infer_instance

instance (b : Broker) (leaves : String → Prop) [DecidablePred leaves] :
  Decidable (Entered b leaves)
  := inferInstanceAs (Decidable (∀ job ∈ b.jobs, _ ∨ ¬ job.waiter.Rebuilds leaves))

instance (b : Broker) (e : BrokerEvent) :
  Decidable (Orderly b e)
  :=
  match e with
  | .message conn (.hello frame) reloadToken =>
      inferInstanceAs (Decidable (Accepts b frame reloadToken → KeepsRole b conn frame))
  | .closed conn =>
      inferInstanceAs
        (Decidable (∀ executor ∈ b.executors.get conn, Entered b (· = executor.id)))
  | .stop => inferInstanceAs (Decidable (Entered b fun _ => True))
  | .message _ (.command _ _) _ => .isTrue trivial
  | .message _ (.result _ _ _ _) _ => .isTrue trivial
  | .message _ (.event _) _ => .isTrue trivial
  | .message _ .ping _ => .isTrue trivial
  | .message _ .ignored _ => .isTrue trivial
  | .opened => .isTrue trivial
  | .createLocalAgent => .isTrue trivial
  | .send _ _ _ => .isTrue trivial
  | .release _ => .isTrue trivial
  | .abort _ => .isTrue trivial
  | .timeout _ => .isTrue trivial
  | .job => .isTrue trivial
  | .sendThrows _ _ => .isTrue trivial

/-! ### Sample runs -/

def sampleOptions : BrokerOptions where
  executor := none
  timeoutMs := 0
  maxCommandMs := none

/-- A hello with the token `token`. -/
def sampleHello (role : ClientRole) (id : String) : ClientFrame :=
  .hello
    { token := "token"
      role := some role
      id := some id
      label := none
      browser := none }

/-- A command that opens a tab in the group `work`. -/
def sampleOpen : Command where
  action := .open
  group := "work"
  params := "{}"
  target := none
  timeoutMs := none

/-- An agent opens a tab in a browser. -/
theorem maps_agree_of_orderly_once :
  ∃ b, ((Broker.system sampleOptions).restrict Orderly).Reaches (.initial "token") b ∧
    b.groupOwner.get "work" = some ⟨"chrome", some "agent:1"⟩ ∧ MapsAgree b
  := by
  obtain ⟨b, hrun, hb⟩ := EventSystem.exists_reaches_of_play
    ((Broker.system sampleOptions).restrict Orderly)
    [.opened, .message 0 (sampleHello .extension "chrome") none, .opened,
      .message 1 (sampleHello .agent "") none, .message 1 (.command "c1" sampleOpen) none]
    (.initial "token")
    (fun b => b.groupOwner.get "work" = some ⟨"chrome", some "agent:1"⟩)
    (by decide)
  use b, hrun, of_decide_eq_true hb
  apply maps_agree_of_orderly sampleOptions "token" b hrun

/-- A connection that says hello under a second id stays known under the first one. -/
theorem maps_disagree :
  ¬ ∀ b, (Broker.system sampleOptions).Reaches (.initial "token") b → MapsAgree b
  := by
  intro h
  obtain ⟨b, hrun, hb⟩ := EventSystem.exists_reaches_of_play (Broker.system sampleOptions)
    [.opened, .message 0 (sampleHello .extension "chrome") none,
      .message 0 (sampleHello .extension "work") none]
    (.initial "token")
    (fun b => b.executorById.get "chrome" = some ⟨0, "chrome", "chrome", "unknown"⟩ ∧
      b.executors.get 0 = some ⟨0, "work", "work", "unknown"⟩)
    (by decide)
  obtain ⟨hold, hnew⟩ := of_decide_eq_true hb
  have hconn := ((h b hrun).byId "chrome" _ hold).2
  rw [hnew] at hconn
  apply absurd hconn
  decide

end Browser
