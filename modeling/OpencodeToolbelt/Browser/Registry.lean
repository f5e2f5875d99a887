import OpencodeToolbelt.Browser.Commands

/-!
# The registry of the broker

The broker knows its executors by their connection and by their id, its agents by their
connection, and the owners of the groups of tabs. These maps agree with each other as long
as a connection does not say hello again, under another role or id, and a broker that has
been told the groups of an executor enters them before the executor leaves.
-/

namespace Browser

/-! ### Executors -/

/-- The two maps of executors are inverse to each other, and their connections open. -/
structure Inverse (b : Broker) : Prop where
  byConn : ∀ conn info, b.executors.get conn = some info →
    info.conn = conn ∧ b.executorById.get info.id = some info
  byId : ∀ id info, b.executorById.get id = some info →
    info.id = id ∧ b.executors.get info.conn = some info
  opened : ∀ conn info, b.executors.get conn = some info → conn ∈ b.opened

namespace Inverse

theorem of_same {b b' : Broker} (h : Inverse b) (hexecutors : b'.executors = b.executors)
    (hid : b'.executorById = b.executorById) (hopened : ∀ conn ∈ b.opened, conn ∈ b'.opened) :
  Inverse b'
  := by
  constructor
  · rw [hexecutors, hid]
    apply h.byConn
  · rw [hexecutors, hid]
    apply h.byId
  · rw [hexecutors]
    exact fun conn info hinfo => hopened conn (h.opened conn info hinfo)

/-- An executor is registered under its own id. -/
theorem has_id {b : Broker} (h : Inverse b) {id : String} {info : ExecutorInfo}
    (hinfo : b.executorById.get id = some info) :
  b.executorById.has info.id = true
  := by
  rw [(h.byId id info hinfo).1]
  apply JsMap.has_of_get hinfo

end Inverse

/-- A hello with the token of the broker, or with the one that it reloads. -/
def Accepts (b : Broker) (frame : HelloFrame) (reloadToken : Option String) : Prop :=
  frame.token = b.token ∨ nonEmpty reloadToken = some frame.token

/-- A connection that is registered as an executor says hello under the same id only. -/
def SameId (b : Broker) (conn : ℕ) (id : String) : Prop :=
  ∀ info ∈ b.executors.get conn, info.id = id

instance (b : Broker) (frame : HelloFrame) (reloadToken : Option String) :
  Decidable (Accepts b frame reloadToken)
  := inferInstanceAs (Decidable (_ ∨ _))

instance (b : Broker) (conn : ℕ) (id : String) :
  Decidable (SameId b conn id)
  := inferInstanceAs (Decidable (∀ info ∈ b.executors.get conn, _))

namespace Broker

variable (b : Broker)

theorem get_replaceStale (conn : ℕ) (id : String) (conn' : ℕ) :
  (b.replaceStale conn id).executors.get conn' =
    if ∃ prior, b.executorById.get id = some prior ∧ prior.conn ≠ conn ∧ prior.conn = conn'
    then none else b.executors.get conn'
  := by
  unfold replaceStale
  split
  · next h => simp [h]
  · next prior h =>
      split
      · next hconn =>
          rw [if_neg]
          rintro ⟨prior', hprior', hne, -⟩
          rw [h] at hprior'
          obtain rfl := Option.some.inj hprior'
          exact hne hconn
      · next hconn =>
          change (b.executors.delete prior.conn).get conn' = _
          rw [JsMap.get_delete]
          by_cases heq : conn' = prior.conn
          · rw [if_pos heq, if_pos]
            use prior, h, hconn, heq.symm
          · rw [if_neg heq, if_neg]
            rintro ⟨prior', hprior', -, hconn'⟩
            rw [h] at hprior'
            obtain rfl := Option.some.inj hprior'
            exact heq hconn'.symm

/-- What replacing a connection leaves alone. -/
theorem replaceStale_same (conn : ℕ) (id : String) :
  (b.replaceStale conn id).executorById = b.executorById ∧
    (b.replaceStale conn id).agents = b.agents ∧
    (b.replaceStale conn id).groupOwner = b.groupOwner ∧
    (b.replaceStale conn id).primaryExecutorId = b.primaryExecutorId ∧
    (b.replaceStale conn id).localAgents = b.localAgents ∧
    (b.replaceStale conn id).opened = b.opened
  := by
  unfold replaceStale
  split
  · exact ⟨rfl, rfl, rfl, rfl, rfl, rfl⟩
  · split <;> exact ⟨rfl, rfl, rfl, rfl, rfl, rfl⟩

/-- The maps after an executor has been registered. -/
theorem register_executors (info : ExecutorInfo) :
  (b.register info).executors = b.executors.set info.conn info ∧
    (b.register info).executorById = b.executorById.set info.id info
  := by
  simp only [register]
  split <;> exact ⟨rfl, rfl⟩

theorem keepsCommands_replaceStale (conn : ℕ) (id : String) :
  KeepsCommands b (b.replaceStale conn id)
  := by
  unfold replaceStale
  split
  · exact ⟨rfl, rfl, rfl, rfl, rfl, rfl⟩
  · split <;> exact ⟨rfl, rfl, rfl, rfl, rfl, rfl⟩

theorem keepsCommands_register (info : ExecutorInfo) :
  KeepsCommands b (b.register info)
  := by
  simp only [register]
  split <;> exact ⟨rfl, rfl, rfl, rfl, rfl, rfl⟩

theorem settles_executorIdFor (id : Option String) :
  Settles b (b.executorIdFor id).1
  := by
  unfold executorIdFor
  split
  · apply Settles.refl
  · exact .of_same ⟨rfl, rfl, rfl, rfl, rfl, rfl, rfl⟩ rfl rfl rfl rfl rfl fun _ h => .inl h

/-- The id of an executor does not depend on the token. -/
theorem executorIdFor_token (token : String) (id : Option String) :
  (({ b with token } : Broker).executorIdFor id).2 = (b.executorIdFor id).2
  := by
  unfold executorIdFor
  split <;> rfl

/-- The token may be reloaded before a hello is accepted. -/
theorem checkToken (frame : HelloFrame) (reloadToken : Option String) :
  ∃ token, (if frame.token = b.token then b
    else b.adoptRotatedToken reloadToken) = { b with token } ∧
      (frame.token = token → Accepts b frame reloadToken)
  := by
  split
  · next heq => exact ⟨b.token, rfl, fun _ => .inl heq⟩
  · unfold adoptRotatedToken
    split
    · exact ⟨b.token, rfl, .inl⟩
    · next latest hlatest =>
        refine ⟨latest, rfl, fun heq => .inr ?_⟩
        rw [hlatest, heq]

end Broker

/-- An executor is registered, and a stale connection of the same id forgotten. -/
theorem Inverse.register {b : Broker} (h : Inverse b) (info : ExecutorInfo)
    (hid : SameId b info.conn info.id) (hopen : info.conn ∈ b.opened) :
  Inverse ((b.replaceStale info.conn info.id).register info)
  := by
  obtain ⟨hexecutors, hbyId⟩ := (b.replaceStale info.conn info.id).register_executors info
  obtain ⟨hsame, -, -, -, -, hopened⟩ := b.replaceStale_same info.conn info.id
  rw [hsame] at hbyId
  have hopened' : ((b.replaceStale info.conn info.id).register info).opened = b.opened := by
    rw [← hopened, Broker.register]
    split <;> rfl
  constructor
  · intro conn info' hinfo'
    rw [hexecutors, JsMap.get_set] at hinfo'
    split at hinfo'
    · next heq =>
        obtain rfl := Option.some.inj hinfo'
        rw [hbyId, JsMap.get_set_self]
        exact ⟨heq.symm, rfl⟩
    · next hne =>
        rw [Broker.get_replaceStale] at hinfo'
        split at hinfo'
        · cases hinfo'
        · next hkept =>
            obtain ⟨hconn, hold⟩ := h.byConn conn info' hinfo'
            use hconn
            rw [hbyId, JsMap.get_set]
            split
            · next heq =>
                rw [heq] at hold
                exact (hkept ⟨info', hold, fun hc => hne (hconn.symm.trans hc), hconn⟩).elim
            · apply hold
  · intro id info' hinfo'
    rw [hbyId, JsMap.get_set] at hinfo'
    split at hinfo'
    · next heq =>
        obtain rfl := Option.some.inj hinfo'
        rw [hexecutors, JsMap.get_set_self]
        exact ⟨heq.symm, rfl⟩
    · next hne =>
        obtain ⟨hid', hconn⟩ := h.byId id info' hinfo'
        use hid'
        rw [hexecutors, JsMap.get_set]
        split
        · next heq =>
            rw [heq] at hconn
            exact (hne (hid'.symm.trans (hid info' hconn))).elim
        · rw [Broker.get_replaceStale, if_neg]
          · apply hconn
          · rintro ⟨prior, hprior, -, heq⟩
            obtain ⟨hid'', hconn'⟩ := h.byId _ prior hprior
            rw [heq, hconn] at hconn'
            obtain rfl := Option.some.inj hconn'
            exact hne (hid'.symm.trans hid'')
  · intro conn info' hinfo'
    rw [hopened']
    rw [hexecutors, JsMap.get_set] at hinfo'
    split at hinfo'
    · next heq => rwa [heq]
    · rw [Broker.get_replaceStale] at hinfo'
      split at hinfo'
      · cases hinfo'
      · apply h.opened conn info' hinfo'

/-! ### Leaving -/

namespace Broker

variable (b : Broker)

/-- The registry without an executor. -/
def withoutExecutor (conn : ℕ) (executor : ExecutorInfo) : Broker :=
  { b with
    executors := b.executors.delete conn
    executorById := b.executorById.delete executor.id
    groupOwner := b.groupOwner.filter fun _ owner => owner.executorId ≠ executor.id
    primaryExecutorId :=
      if b.primaryExecutorId = some executor.id then
        (b.executorById.delete executor.id).keys.head?
      else b.primaryExecutorId }

/-- The registry without the claims of an agent. -/
def withoutOwner (agentId : String) : Broker :=
  { b with
    groupOwner := b.groupOwner.mapValues fun _ owner =>
      if owner.agentId = some agentId then { owner with agentId := none } else owner }

/-- The registry without an agent. -/
def withoutAgent (conn : ℕ) (agent : AgentInfo) : Broker :=
  { b with agents := b.agents.delete conn }.withoutOwner agent.id

theorem settles_withPrimary {b b' : Broker} (h : Settles b b') (primary : Option String) :
  Settles { b with primaryExecutorId := primary } { b' with primaryExecutorId := primary }
  := ⟨⟨⟨h.executors, h.executorById, h.agents, h.groupOwner, rfl, h.localAgents, h.opened⟩,
    h.pending, h.removed, h.settled, h.dispatched, h.promiseSeq, h.idCounter⟩, h.jobs⟩

/-- When an executor leaves, it is forgotten, and its commands settle. -/
theorem settles_closeExecutor {conn : ℕ} {executor : ExecutorInfo} (hconn : executor.conn = conn)
    (hid : b.executorById.get executor.id = some executor) :
  Settles (b.withoutExecutor conn executor) (b.closeExecutor conn executor) ∧
    ∀ reqId p, (b.closeExecutor conn executor).pending.get reqId = some p →
      p.executorId ≠ executor.id
  := by
  have hforget := settles_settleAll
    { b with
      executors := b.executors.delete conn
      executorById := b.executorById.delete executor.id
      groupOwner := b.groupOwner.filter fun _ owner => owner.executorId ≠ executor.id }
    (fun p => p.executorId = executor.id)
    fun b reqId => b.settles_settleReject reqId disconnectError
  have hgone : ∀ reqId p,
      (({ b with executors := b.executors.delete conn } : Broker).forgetExecutor
        executor.id).pending.get reqId = some p → p.executorId ≠ executor.id := by
    intro reqId p hp
    apply of_decide_eq_false
    apply get_settleAll _ (fun b reqId => b.settles_settleReject reqId disconnectError)
      (fun b reqId => b.get_settleReject_self reqId disconnectError) hp
  have hany : (b.executorById.get executor.id).any (fun e => e.conn = conn) = true := by
    simp [hid, hconn]
  simp only [closeExecutor, hany, if_true]
  split
  · next hprimary =>
      have hold : b.primaryExecutorId = some executor.id := hforget.primaryExecutorId ▸ hprimary
      constructor
      · have hfirst : (({ b with executors := b.executors.delete conn } : Broker).forgetExecutor
            executor.id).executorById.keys.head? =
              (b.executorById.delete executor.id).keys.head? :=
          congrArg (fun m => m.keys.head?) hforget.executorById
        unfold withoutExecutor
        rw [if_pos hold, ← hfirst]
        exact settles_withPrimary hforget _
      · apply hgone
  · next hprimary =>
      have hold : b.primaryExecutorId ≠ some executor.id := by
        intro heq
        exact hprimary (hforget.primaryExecutorId.trans heq)
      constructor
      · unfold withoutExecutor
        rw [if_neg hold]
        apply hforget
      · apply hgone

/-- When an agent releases its groups, they have no agent any more. -/
theorem settles_releaseForAgent (agentId : String) :
  Settles (b.withoutOwner agentId) (b.releaseForAgent agentId)
  := by
  apply Settles.foldl
  intro b id
  split
  · apply Settles.refl
  · apply settles_safeSend

/-- When an agent leaves, it is forgotten with its groups and its commands. -/
theorem settles_closeAgent (conn : ℕ) (agent : AgentInfo) :
  Settles (b.withoutAgent conn agent) (b.closeAgent conn agent)
  := by
  apply Settles.trans (settles_releaseForAgent _ _)
  apply settles_settleAll
  exact fun b reqId => b.settles_abandon reqId agentGoneError

end Broker

/-- The other connections stay open when one is closed. -/
theorem stays_open {opened : List ℕ} {conn conn' : ℕ} (h : conn' ∈ opened) (hne : conn' ≠ conn) :
  conn' ∈ opened.filter (· ≠ conn)
  := by
  simp only [List.mem_filter, decide_eq_true_eq]
  exact ⟨h, hne⟩

/-- An executor leaves, and its connection is closed. -/
theorem Inverse.withoutExecutor {b : Broker} (h : Inverse b) {conn : ℕ} {executor : ExecutorInfo}
    (hexecutor : b.executors.get conn = some executor) :
  Inverse ({ b with opened := b.opened.filter (· ≠ conn) }.withoutExecutor conn executor)
  := by
  obtain ⟨hconn, hid⟩ := h.byConn conn executor hexecutor
  constructor
  · intro conn' info hinfo
    change (b.executors.delete conn).get conn' = some info at hinfo
    change info.conn = conn' ∧ (b.executorById.delete executor.id).get info.id = some info
    rw [JsMap.get_delete] at hinfo
    split at hinfo
    · cases hinfo
    · next hne =>
        obtain ⟨hconn', hid'⟩ := h.byConn conn' info hinfo
        use hconn'
        rw [JsMap.get_delete_of_ne]
        · apply hid'
        · intro heq
          rw [heq, hid] at hid'
          obtain rfl := Option.some.inj hid'
          exact hne (hconn'.symm.trans hconn)
  · intro id info hinfo
    change (b.executorById.delete executor.id).get id = some info at hinfo
    change info.id = id ∧ (b.executors.delete conn).get info.conn = some info
    rw [JsMap.get_delete] at hinfo
    split at hinfo
    · cases hinfo
    · next hne =>
        obtain ⟨hid', hconn'⟩ := h.byId id info hinfo
        use hid'
        rw [JsMap.get_delete_of_ne]
        · apply hconn'
        · intro heq
          rw [heq, hexecutor] at hconn'
          obtain rfl := Option.some.inj hconn'
          exact hne hid'.symm
  · intro conn' info hinfo
    change (b.executors.delete conn).get conn' = some info at hinfo
    change conn' ∈ b.opened.filter (· ≠ conn)
    rw [JsMap.get_delete] at hinfo
    split at hinfo
    · cases hinfo
    · next hne =>
        apply stays_open (h.opened conn' info hinfo) hne

/-! ### The choice of an executor -/

namespace Broker

variable (b : Broker)

/-- A command is sent to an executor that is registered. -/
theorem pickExecutor_mem {target : Option String} {executor : ExecutorInfo}
    (h : b.pickExecutor target = .ok executor) :
  ∃ id, b.executorById.get id = some executor
  := by
  unfold pickExecutor at h
  split at h
  · cases h
  · split at h
    · next target _ =>
        split at h
        · next byId hbyId =>
            obtain rfl := Except.ok.inj h
            use target
        · split at h
          · cases h
          · next byLabel hlabel =>
              obtain rfl := Except.ok.inj h
              apply JsMap.mem_values.mp
              apply List.mem_of_mem_filter (p := fun e => decide (e.label = target))
              rw [hlabel]
              apply List.mem_singleton_self
          · cases h
    · split at h
      · next exec hexec =>
          obtain rfl := Except.ok.inj h
          obtain hprimary | ⟨-, hfirst⟩ := Option.or_eq_some_iff.mp hexec
          · obtain ⟨id, -, hid⟩ := Option.bind_eq_some_iff.mp hprimary
            use id
          · apply JsMap.mem_values.mp
            apply List.mem_of_mem_head? hfirst
      · cases h

end Broker

/-- The claim of a group by an agent: the group has an executor that is registered. -/
structure Claims (agentId : String) (b b' : Broker) : Prop where
  rest : b' = { b with groupOwner := b'.groupOwner }
  groups : ∀ group owner, b'.groupOwner.get group = some owner →
    b.groupOwner.get group = some owner ∨
      owner.agentId = some agentId ∧
        ((∃ old, b.groupOwner.get group = some old ∧ old.executorId = owner.executorId) ∨
          ∃ executor, (∃ id, b.executorById.get id = some executor) ∧
            executor.id = owner.executorId)

namespace Broker

variable (b : Broker)

theorem Claims.refl (agentId : String) :
  Claims agentId b b
  := ⟨rfl, fun _ _ h => .inl h⟩

theorem claims_resolveOwned {agentId group : String} {owner : GroupOwner}
    (howner : b.groupOwner.get group = some owner) :
  Claims agentId b (b.resolveOwned agentId group owner).1 ∧
    ∀ executor, (b.resolveOwned agentId group owner).2 = .ok executor →
      ∃ id, b.executorById.get id = some executor
  := by
  have hclaim : Claims agentId b
      { b with groupOwner := b.groupOwner.set group { owner with agentId := some agentId } } := by
    refine ⟨rfl, fun group' owner' h => ?_⟩
    rw [JsMap.get_set] at h
    split at h
    · next heq =>
        obtain rfl := Option.some.inj h
        right
        use rfl
        left
        rw [heq]
        use owner, howner
    · exact .inl h
  unfold resolveOwned
  split
  · use Claims.refl b agentId
    rintro executor ⟨⟩
  · simp only
    split
    · next exec hexec =>
        use hclaim
        rintro executor ⟨⟩
        use owner.executorId, hexec
    · use hclaim
      rintro executor ⟨⟩

theorem claims_resolveUnowned (agentId : String) (cmd : Command) :
  Claims agentId b (b.resolveUnowned agentId cmd).1 ∧
    ∀ executor, (b.resolveUnowned agentId cmd).2 = .ok executor →
      ∃ id, b.executorById.get id = some executor
  := by
  unfold resolveUnowned
  split
  · use Claims.refl b agentId
    rintro executor ⟨⟩
  · split
    · use Claims.refl b agentId
      rintro executor ⟨⟩
    · next exec hexec =>
        have hmem := b.pickExecutor_mem hexec
        constructor
        · refine ⟨rfl, fun group' owner' h => ?_⟩
          change (b.groupOwner.set cmd.group _).get group' = some owner' at h
          rw [JsMap.get_set] at h
          split at h
          · obtain rfl := Option.some.inj h
            right
            use rfl
            right
            use exec, hmem
          · exact .inl h
        · rintro executor ⟨⟩
          apply hmem

/-- The choice of an executor at most claims the group, and chooses one that is
registered. -/
theorem claims_executorFor (agentId : String) (cmd : Command) :
  Claims agentId b (b.executorFor agentId cmd).1 ∧
    ∀ executor, (b.executorFor agentId cmd).2 = .ok executor →
      ∃ id, b.executorById.get id = some executor
  := by
  unfold executorFor
  split
  · use Claims.refl b agentId
    exact fun _ h => b.pickExecutor_mem h
  · unfold resolveExecutor
    split
    · next owner howner => apply b.claims_resolveOwned howner
    · apply b.claims_resolveUnowned

end Broker

/-! ### The registry -/

/-- An agent that is local, or whose connection is open and registered. -/
def Present (b : Broker) (agentId : String) : Prop :=
  agentId ∈ b.localAgents ∨
    ∃ conn info, b.agents.get conn = some info ∧ info.id = agentId ∧ conn ∈ b.opened

/-- The maps of the registry agree with each other. -/
structure Registered (b : Broker) : Prop extends Inverse b where
  roles : ∀ conn, b.executors.get conn = none ∨ b.agents.get conn = none
  agents : ∀ conn info, b.agents.get conn = some info → conn ∈ b.opened
  vacant : b.primaryExecutorId = none → ∀ id, b.executorById.get id = none
  primary : ∀ id, b.primaryExecutorId = some id → b.executorById.has id = true
  groups : ∀ group owner, b.groupOwner.get group = some owner →
    b.executorById.has owner.executorId = true
  owners : ∀ group owner agentId, b.groupOwner.get group = some owner →
    owner.agentId = some agentId → Present b agentId

namespace Registered

theorem of_same {b b' : Broker} (hb : Registered b) (h : SameRegistry b b') :
  Registered b'
  := by
  refine ⟨hb.toInverse.of_same h.executors h.executorById ?_, ?_, ?_, ?_, ?_, ?_, ?_⟩
  · rw [h.opened]
    exact fun _ hc => hc
  · rw [h.executors, h.agents]
    apply hb.roles
  · rw [h.agents, h.opened]
    apply hb.agents
  · rw [h.primaryExecutorId, h.executorById]
    apply hb.vacant
  · rw [h.primaryExecutorId, h.executorById]
    apply hb.primary
  · rw [h.groupOwner, h.executorById]
    apply hb.groups
  · unfold Present
    rw [h.groupOwner, h.localAgents, h.agents, h.opened]
    apply hb.owners

/-- A change of the owners of groups. -/
theorem of_groups {b : Broker} (hb : Registered b) {groupOwner : JsMap String GroupOwner}
    (h : ∀ group owner, groupOwner.get group = some owner →
      b.executorById.has owner.executorId = true ∧
        ∀ agentId, owner.agentId = some agentId → Present b agentId) :
  Registered { b with groupOwner }
  := ⟨hb.toInverse.of_same rfl rfl fun _ hc => hc, hb.roles, hb.agents, hb.vacant, hb.primary,
    fun group owner ho => (h group owner ho).1, fun group owner agentId ho => (h group owner ho).2 agentId⟩

theorem claims {b b' : Broker} (hb : Registered b) {agentId : String} (hagent : Present b agentId)
    (h : Claims agentId b b') :
  Registered b'
  := by
  rw [h.rest]
  apply hb.of_groups
  intro group owner howner
  obtain hold | ⟨hclaimed, hexecutor⟩ := h.groups group owner howner
  · exact ⟨hb.groups group owner hold, fun agentId => hb.owners group owner agentId hold⟩
  · constructor
    · obtain ⟨old, hold, heq⟩ | ⟨executor, ⟨id, hid⟩, heq⟩ := hexecutor
      · rw [← heq]
        apply hb.groups group old hold
      · rw [← heq]
        apply hb.toInverse.has_id hid
    · intro agentId' hagent'
      rw [hclaimed] at hagent'
      obtain rfl := Option.some.inj hagent'
      apply hagent

theorem get_withoutOwner {b : Broker} {agentId group : String} {owner : GroupOwner}
    (h : (b.withoutOwner agentId).groupOwner.get group = some owner) :
  owner.agentId ≠ some agentId ∧ ∃ old, b.groupOwner.get group = some old ∧
    old.executorId = owner.executorId ∧ ∀ a, owner.agentId = some a → old.agentId = some a
  := by
  change (b.groupOwner.mapValues _).get group = some owner at h
  rw [JsMap.get_mapValues, Option.map_eq_some_iff] at h
  obtain ⟨old, hold, rfl⟩ := h
  by_cases hne : old.agentId = some agentId
  · rw [if_pos hne]
    exact ⟨by simp, old, hold, rfl, by simp⟩
  · rw [if_neg hne]
    exact ⟨hne, old, hold, rfl, fun _ ha => ha⟩

theorem withoutOwner {b : Broker} (hb : Registered b) (agentId : String) :
  Registered (b.withoutOwner agentId)
  := by
  apply hb.of_groups
  intro group owner howner
  obtain ⟨-, old, hold, hexecutor, hagent⟩ := get_withoutOwner howner
  constructor
  · rw [← hexecutor]
    apply hb.groups group old hold
  · exact fun a ha => hb.owners group old a hold (hagent a ha)

/-- A group is entered without an agent, for an executor that is registered. -/
theorem rebuildGroup {b : Broker} (hb : Registered b) {executorId : String}
    (h : b.executorById.has executorId = true) (g : TabGroup) :
  Registered (b.rebuildGroup executorId g) ∧
    (b.rebuildGroup executorId g).executorById = b.executorById
  := by
  unfold Broker.rebuildGroup
  split
  · exact ⟨hb, rfl⟩
  · split
    · exact ⟨hb, rfl⟩
    · refine ⟨?_, rfl⟩
      apply hb.of_groups
      intro group owner howner
      rw [JsMap.get_set] at howner
      split at howner
      · obtain rfl := Option.some.inj howner
        use h
        rintro agentId ⟨⟩
      · exact ⟨hb.groups group owner howner, fun agentId => hb.owners group owner agentId howner⟩

/-- An agent joins on a connection that is not an executor's. If the connection was an
agent's before, that agent owned no group. -/
theorem joinAgent {b : Broker} (hb : Registered b) {conn : ℕ} (hopen : conn ∈ b.opened)
    (hexecutor : b.executors.get conn = none)
    (hagent : ∀ info, b.agents.get conn = some info → ∀ group owner,
      b.groupOwner.get group = some owner → owner.agentId ≠ some info.id)
    (agentSeq : ℕ) (info : AgentInfo) :
  Registered { b with agentSeq, agents := b.agents.set conn info }
  := by
  refine ⟨hb.toInverse.of_same rfl rfl fun _ hc => hc, ?_, ?_, hb.vacant, hb.primary, hb.groups, ?_⟩
  · intro conn'
    change b.executors.get conn' = none ∨ (b.agents.set conn info).get conn' = none
    rw [JsMap.get_set]
    split
    · next heq =>
        left
        rw [heq, hexecutor]
    · apply hb.roles
  · intro conn' info' hinfo'
    change (b.agents.set conn info).get conn' = some info' at hinfo'
    rw [JsMap.get_set] at hinfo'
    split at hinfo'
    · next heq => rwa [heq]
    · apply hb.agents conn' info' hinfo'
  · intro group owner agentId howner hagentId
    obtain hlocal | ⟨conn', info', hinfo', hid, hopen'⟩ := hb.owners group owner agentId howner hagentId
    · exact .inl hlocal
    · right
      have hne : conn' ≠ conn := by
        rintro rfl
        rw [← hid] at hagentId
        apply hagent info' hinfo' group owner howner hagentId
      use conn', info'
      change (b.agents.set conn info).get conn' = some info' ∧ _
      rw [JsMap.get_set_of_ne _ hne]
      exact ⟨hinfo', hid, hopen'⟩

/-- An executor joins on a connection that is not an agent's. -/
theorem register {b : Broker} (hb : Registered b) (info : ExecutorInfo)
    (hid : SameId b info.conn info.id) (hopen : info.conn ∈ b.opened)
    (hagent : b.agents.get info.conn = none) :
  Registered ((b.replaceStale info.conn info.id).register info)
  := by
  obtain ⟨hexecutors, hbyId⟩ := (b.replaceStale info.conn info.id).register_executors info
  obtain ⟨hold, hagents, hgroups, hprimary, hlocal, hopened⟩ :=
    b.replaceStale_same info.conn info.id
  rw [hold] at hbyId
  have hrest : ((b.replaceStale info.conn info.id).register info).agents = b.agents ∧
      ((b.replaceStale info.conn info.id).register info).groupOwner = b.groupOwner ∧
      ((b.replaceStale info.conn info.id).register info).localAgents = b.localAgents ∧
      ((b.replaceStale info.conn info.id).register info).opened = b.opened := by
    rw [← hagents, ← hgroups, ← hlocal, ← hopened, Broker.register]
    split <;> exact ⟨rfl, rfl, rfl, rfl⟩
  obtain ⟨hagents', hgroups', hlocal', hopened'⟩ := hrest
  have hfirst : ((b.replaceStale info.conn info.id).register info).primaryExecutorId =
      if b.primaryExecutorId.any (b.executorById.set info.id info).has then b.primaryExecutorId
      else some info.id := by
    rw [Broker.register, hold, hprimary]
    split <;> rfl
  have hgrows : ∀ id, b.executorById.has id = true →
      (b.executorById.set info.id info).has id = true :=
    fun id h => JsMap.has_set _ _ _ h
  refine ⟨hb.toInverse.register info hid hopen, ?_, ?_, ?_, ?_, ?_, ?_⟩
  · intro conn
    rw [hexecutors, hagents', JsMap.get_set, Broker.get_replaceStale]
    split
    · next heq =>
        right
        rw [heq, hagent]
    · split
      · exact .inl rfl
      · apply hb.roles
  · rw [hagents', hopened']
    apply hb.agents
  · intro hnone
    rw [hfirst] at hnone
    split at hnone
    · next hany =>
        rw [hnone] at hany
        cases hany
    · cases hnone
  · intro id hsome
    rw [hbyId]
    rw [hfirst] at hsome
    split at hsome
    · next hany =>
        rw [hsome] at hany
        apply hany
    · obtain rfl := Option.some.inj hsome
      apply JsMap.has_set_self
  · rw [hgroups', hbyId]
    exact fun group owner ho => hgrows _ (hb.groups group owner ho)
  · unfold Present
    rw [hgroups', hlocal', hagents', hopened']
    apply hb.owners

/-- An executor leaves, and its connection is closed. -/
theorem withoutExecutor {b : Broker} (hb : Registered b) {conn : ℕ} {executor : ExecutorInfo}
    (hexecutor : b.executors.get conn = some executor) :
  Registered ({ b with opened := b.opened.filter (· ≠ conn) }.withoutExecutor conn executor)
  := by
  have hagent := (hb.roles conn).resolve_left (by simp [hexecutor])
  have hother : ∀ conn' info, b.agents.get conn' = some info → conn' ≠ conn := by
    rintro conn' info hinfo rfl
    rw [hagent] at hinfo
    cases hinfo
  have howner : ∀ group owner,
      (b.groupOwner.filter fun _ owner => owner.executorId ≠ executor.id).get group = some owner →
        b.groupOwner.get group = some owner ∧ owner.executorId ≠ executor.id := by
    intro group owner ho
    rw [JsMap.get_filter, Option.filter_eq_some_iff] at ho
    exact ⟨ho.1, of_decide_eq_true ho.2⟩
  refine ⟨hb.toInverse.withoutExecutor hexecutor, ?_, ?_, ?_, ?_, ?_, ?_⟩
  · intro conn'
    change (b.executors.delete conn).get conn' = none ∨ b.agents.get conn' = none
    rw [JsMap.get_delete]
    split
    · exact .inl rfl
    · apply hb.roles
  · intro conn' info hinfo
    apply stays_open (hb.agents conn' info hinfo) (hother conn' info hinfo)
  · intro hnone id
    change (b.executorById.delete executor.id).get id = none
    change (if b.primaryExecutorId = some executor.id then
      (b.executorById.delete executor.id).keys.head? else b.primaryExecutorId) = none at hnone
    split at hnone
    · rw [JsMap.get_eq_none, List.head?_eq_none_iff.mp hnone]
      apply List.not_mem_nil
    · rw [JsMap.get_delete, hb.vacant hnone]
      split <;> rfl
  · intro id hsome
    change (b.executorById.delete executor.id).has id = true
    change (if b.primaryExecutorId = some executor.id then
      (b.executorById.delete executor.id).keys.head? else b.primaryExecutorId) = some id at hsome
    split at hsome
    · rw [JsMap.has_eq_true]
      apply List.mem_of_mem_head? hsome
    · next hne =>
        apply JsMap.has_delete
        · rintro rfl
          exact hne hsome
        · apply hb.primary id hsome
  · intro group owner ho
    obtain ⟨ho, hne⟩ := howner group owner ho
    apply JsMap.has_delete _ hne
    apply hb.groups group owner ho
  · intro group owner agentId ho hagentId
    obtain ⟨ho, -⟩ := howner group owner ho
    obtain hlocal | ⟨conn', info, hinfo, hid, hopen⟩ := hb.owners group owner agentId ho hagentId
    · exact .inl hlocal
    · right
      use conn', info, hinfo, hid
      apply stays_open hopen (hother conn' info hinfo)

/-- An agent leaves, and its connection is closed. -/
theorem withoutAgent {b : Broker} (hb : Registered b) {conn : ℕ} {agent : AgentInfo}
    (hagent : b.agents.get conn = some agent) :
  Registered ({ b with opened := b.opened.filter (· ≠ conn) }.withoutAgent conn agent)
  := by
  have hexecutor := (hb.roles conn).resolve_right (by simp [hagent])
  refine ⟨⟨hb.byConn, hb.byId, ?_⟩, ?_, ?_, hb.vacant, hb.primary, ?_, ?_⟩
  · intro conn' info hinfo
    change b.executors.get conn' = some info at hinfo
    apply stays_open (hb.opened conn' info hinfo)
    rintro rfl
    rw [hexecutor] at hinfo
    cases hinfo
  · intro conn'
    change b.executors.get conn' = none ∨ (b.agents.delete conn).get conn' = none
    rw [JsMap.get_delete]
    split
    · exact .inr rfl
    · apply hb.roles
  · intro conn' info hinfo
    change (b.agents.delete conn).get conn' = some info at hinfo
    rw [JsMap.get_delete] at hinfo
    split at hinfo
    · cases hinfo
    · next hne => apply stays_open (hb.agents conn' info hinfo) hne
  · intro group owner ho
    obtain ⟨-, old, hold, heq, -⟩ := get_withoutOwner ho
    rw [← heq]
    apply hb.groups group old hold
  · intro group owner agentId ho hagentId
    obtain ⟨hne, old, hold, -, hkept⟩ := get_withoutOwner ho
    obtain hlocal | ⟨conn', info, hinfo, hid, hopen⟩ :=
      hb.owners group old agentId hold (hkept agentId hagentId)
    · exact .inl hlocal
    · have hother : conn' ≠ conn := by
        rintro rfl
        rw [hagent] at hinfo
        obtain rfl := Option.some.inj hinfo
        rw [hid] at hne
        exact hne hagentId
      right
      use conn', info
      refine ⟨?_, hid, stays_open hopen hother⟩
      change (b.agents.delete conn).get conn' = some info
      rwa [JsMap.get_delete_of_ne _ hother]

/-- A connection that is not registered is closed. -/
theorem closed {b : Broker} (hb : Registered b) {conn : ℕ} (hexecutor : b.executors.get conn = none)
    (hagent : b.agents.get conn = none) :
  Registered { b with opened := b.opened.filter (· ≠ conn) }
  := by
  have hother : ∀ conn' info, b.agents.get conn' = some info → conn' ≠ conn := by
    rintro conn' info hinfo rfl
    rw [hagent] at hinfo
    cases hinfo
  refine ⟨⟨hb.byConn, hb.byId, ?_⟩, hb.roles, ?_, hb.vacant, hb.primary, hb.groups, ?_⟩
  · intro conn' info hinfo
    apply stays_open (hb.opened conn' info hinfo)
    rintro rfl
    rw [hexecutor] at hinfo
    cases hinfo
  · intro conn' info hinfo
    apply stays_open (hb.agents conn' info hinfo) (hother conn' info hinfo)
  · intro group owner agentId ho hagentId
    obtain hlocal | ⟨conn', info, hinfo, hid, hopen⟩ := hb.owners group owner agentId ho hagentId
    · exact .inl hlocal
    · right
      use conn', info, hinfo, hid
      apply stays_open hopen (hother conn' info hinfo)

/-- Nobody is registered. -/
theorem clear (b : Broker) :
  Registered
    { b with
      executors := b.executors.clear
      executorById := b.executorById.clear
      agents := b.agents.clear
      groupOwner := b.groupOwner.clear
      primaryExecutorId := none }
  := by
  have hnone : ∀ {K V : Type} [DecidableEq K] (m : JsMap K V) (k : K) (v : V),
      m.clear.get k ≠ some v := by
    intro K V _ m k v h
    rw [JsMap.get_clear] at h
    cases h
  refine ⟨⟨?_, ?_, ?_⟩, ?_, ?_, ?_, nofun, ?_, ?_⟩
  · exact fun _ _ h => (hnone _ _ _ h).elim
  · exact fun _ _ h => (hnone _ _ _ h).elim
  · exact fun _ _ h => (hnone _ _ _ h).elim
  · exact fun conn => .inl (JsMap.get_clear _ _)
  · exact fun _ _ h => (hnone _ _ _ h).elim
  · exact fun _ id => JsMap.get_clear _ _
  · exact fun _ _ h => (hnone _ _ _ h).elim
  · exact fun _ _ _ h => (hnone _ _ _ h).elim

end Registered

end Browser
