import OpencodeToolbelt.Browser.Owners
import OpencodeToolbelt.Browser.Unanswered

/-!
# Agents are isolated from each other

A command that is scoped to a group goes to the executor that holds the group, on behalf of
the agent that owns it. Another agent gets at the group only after it has been freed.
-/

namespace Browser

/-! ### Executors are known by their id -/

/-- Every executor is known by its own id. -/
def KeyedById (b : Broker) : Prop :=
  ∀ id info, b.executorById.get id = some info → info.id = id

theorem Works.executorById {b b' : Broker} (h : Works b b') :
  b'.executorById = b.executorById
  := by
  obtain ⟨b₁, hsame, hclears | ⟨executor, waiter, -, hsends⟩⟩ := h
  · rw [hclears.executorById, hsame.executorById]
  · rw [hsends.executorById, hsame.executorById]

namespace KeyedById

variable {b b' : Broker}

theorem same (hb : KeyedById b) (h : b'.executorById = b.executorById) :
  KeyedById b'
  := by
  unfold KeyedById
  rw [h]
  apply hb

theorem handleHello (hb : KeyedById b) (opts : BrokerOptions) (conn : ℕ) (frame : HelloFrame)
    (reloadToken : Option String) :
  KeyedById (b.handleHello opts conn frame reloadToken)
  := by
  obtain ⟨token, hb', -⟩ := b.checkToken frame reloadToken
  simp only [Broker.handleHello, hb']
  split
  · split
    · exact hb.same (Broker.settles_safeSend _ _ _).executorById
    · intro id info hinfo
      simp only [Broker.acceptExecutor] at hinfo
      rw [(Broker.sends_sendToExecutor _ _ _ _ _ _ _).executorById,
        (Broker.settles_safeSend _ _ _).executorById, (Broker.register_executors _ _).2,
        (Broker.replaceStale_same _ _ _).1, (Broker.settles_executorIdFor _ _).executorById,
        JsMap.get_set] at hinfo
      split at hinfo
      · next heq =>
          obtain rfl := Option.some.inj hinfo
          exact heq.symm
      · apply hb id info hinfo
  · exact hb.same (Broker.settles_safeSend _ _ _).executorById

theorem onMessage (hb : KeyedById b) (opts : BrokerOptions) (conn : ℕ) (frame : ClientFrame)
    (reloadToken : Option String) :
  KeyedById (b.onMessage opts conn frame reloadToken)
  := by
  unfold Broker.onMessage
  split
  · apply hb.handleHello
  · split
    · apply hb.same
      unfold Broker.handleExecutorFrame
      split
      · exact (b.clears_handleResult _ _ _ _).executorById
      · exact (b.settles_routeEvent _).executorById
      · exact (b.settles_safeSend _ _).executorById
      · rfl
    · split
      · apply hb.same
        unfold Broker.handleAgentFrame
        split
        · exact (Broker.works_route _ _ _ _ _ _).executorById
        · exact (b.settles_safeSend _ _).executorById
        · rfl
      · apply hb

theorem closed (hb : KeyedById b) (conn : ℕ) :
  KeyedById ({ b with opened := b.opened.filter (· ≠ conn) }.onClose conn)
  := by
  unfold Broker.onClose
  split
  · next executor _ =>
      have hprimary : ∀ (c : Prop) [Decidable c] (b : Broker) (primary : Option String),
          (if c then { b with primaryExecutorId := primary } else b).executorById =
            b.executorById := by
        intro c _ b primary
        split <;> rfl
      intro id info hinfo
      simp only [Broker.closeExecutor] at hinfo
      rw [hprimary] at hinfo
      split at hinfo
      · unfold Broker.forgetExecutor at hinfo
        rw [(Broker.settles_settleAll _ _ fun b reqId => b.settles_settleReject reqId _).executorById]
          at hinfo
        apply hb id info (JsMap.get_of_get_delete hinfo)
      · apply hb id info hinfo
  · split
    · exact hb.same (Broker.settles_closeAgent _ _ _).executorById
    · apply hb

theorem handle (hb : KeyedById b) (opts : BrokerOptions) (e : BrokerEvent) :
  KeyedById (b.handle opts e)
  := by
  cases e with
  | message conn frame reloadToken => apply hb.onMessage
  | closed conn => apply hb.closed
  | stop =>
      intro id info hinfo
      change (JsMap.clear _).get id = some info at hinfo
      rw [JsMap.get_clear] at hinfo
      cases hinfo
  | send agentId cmd signal => exact hb.same (b.called.works_route opts _ _ _ _).executorById
  | release agentId => exact hb.same (b.settles_releaseForAgent agentId).executorById
  | abort signal => exact hb.same (b.settles_abort signal).executorById
  | timeout timer => exact hb.same (b.settles_fireTimer timer).executorById
  | job => exact hb.same (b.works_runJob opts).executorById
  | _ => apply hb

end KeyedById

/-! ### Commands that are scoped to a group -/

/-- A command that is scoped to a group, by its action and group. -/
def Scoped (action : BrowserAction) (group : String) : Prop :=
  action ∉ GLOBAL_ACTIONS ∧ action ≠ .targets ∧ action ≠ .release ∧
    ¬ (action = .tabs ∧ group = "")

/-- A step by which a command that is scoped to a group is sent to a connection, on behalf of
an agent. -/
def Forwards (opts : BrokerOptions) (step : Broker × BrokerEvent) (agentId group : String)
    (conn : ℕ) : Prop :=
  ∃ a id, step.1.asks step.2 = some a ∧ a.agentId = agentId ∧ Scoped a.cmd.action a.cmd.group ∧
    a.cmd.group = group ∧
      (conn, .command id a.cmd.action a.cmd.group a.cmd.params) ∈ step.1.sends opts step.2

/-- The connection is that of the executor which holds the group for the agent, and which held
it before if any did. -/
def HeldFor (opts : BrokerOptions) (step : Broker × BrokerEvent) (agentId group : String)
    (conn : ℕ) : Prop :=
  ∃ exec, (step.1.handle opts step.2).groupOwner.get group = some ⟨exec.id, some agentId⟩ ∧
    step.1.executorById.get exec.id = some exec ∧ exec.conn = conn ∧
      ∀ owner, step.1.groupOwner.get group = some owner →
        owner.executorId = exec.id ∧ ∀ a, owner.agentId = some a → a = agentId

/-- The group of an agent is freed: the agent releases its groups, or the executor that holds
this one disconnects, or the broker stops. -/
def Frees (agentId group : String) (b : Broker) (e : BrokerEvent) : Prop :=
  Releases b agentId e ∨ ∃ owner, b.groupOwner.get group = some owner ∧ Drops b owner.executorId e

namespace Broker

variable (b : Broker)

/-- The executor of a command that is scoped to a group holds the group, for the agent. -/
theorem executorFor_scoped (hb : KeyedById b) {agentId : String} {cmd : Command} {b' : Broker}
    {executor : ExecutorInfo} (hglobal : cmd.action ∉ GLOBAL_ACTIONS)
    (h : b.executorFor agentId cmd = (b', .ok executor)) :
  b'.groupOwner.get cmd.group = some ⟨executor.id, some agentId⟩ ∧
    b.executorById.get executor.id = some executor ∧
      ∀ owner, b.groupOwner.get cmd.group = some owner →
        owner.executorId = executor.id ∧ ∀ a, owner.agentId = some a → a = agentId
  := by
  rw [executorFor, if_neg hglobal, resolveExecutor] at h
  split at h
  · next owner howner =>
      unfold resolveOwned at h
      split at h
      · cases (Prod.mk.inj h).2
      · next hagent =>
          simp only at h
          split at h
          · next exec hexec =>
              obtain ⟨rfl, hok⟩ := Prod.mk.inj h
              obtain rfl := Except.ok.inj hok
              have hid := hb _ exec hexec
              refine ⟨?_, hid ▸ hexec, ?_⟩
              · rw [hid]
                apply JsMap.get_set_self
              · intro owner' howner'
                rw [howner] at howner'
                obtain rfl := Option.some.inj howner'
                use hid.symm
                intro a ha
                simpa [ha] using hagent
          · cases (Prod.mk.inj h).2
  · next hnone =>
      unfold resolveUnowned at h
      split at h
      · cases (Prod.mk.inj h).2
      · split at h
        · cases (Prod.mk.inj h).2
        · next exec hexec =>
            obtain ⟨rfl, hok⟩ := Prod.mk.inj h
            obtain rfl := Except.ok.inj hok
            obtain ⟨id, hid⟩ := b.pickExecutor_mem hexec
            refine ⟨JsMap.get_set_self _ _ _, (hb id exec hid).symm ▸ hid, ?_⟩
            intro owner howner
            rw [hnone] at howner
            cases howner

/-- A command frame that is scoped to a group is sent for an agent that has asked for it, to
the executor it is routed to. -/
theorem scoped_of_mem_sends {opts : BrokerOptions} {e : BrokerEvent} {conn : ℕ} {id : String}
    {action : BrowserAction} {group params : String} (hscoped : Scoped action group)
    (h : (conn, .command id action group params) ∈ b.sends opts e) :
  ∃ a b' executor, b.asks e = some a ∧ a.cmd.action = action ∧ a.cmd.group = group ∧
    a.cmd.params = params ∧ a.cmd.Routed ∧ executor.conn = conn ∧
      b.called.executorFor a.agentId a.cmd = (b', .ok executor)
  := by
  obtain ⟨b', c, hallowed, hsends, -⟩ := b.mem_sends h
  cases c with
  | dispatch executor agentId cmd signal waiter =>
      obtain ⟨hconn, hframe⟩ := hsends
      obtain ⟨-, haction, hgroup, hparams⟩ := ServerFrame.command.inj hframe
      obtain ⟨-, horigin⟩ := hallowed
      cases horigin with
      | rebuild _ _ _ => exact (hscoped.2.2.2 ⟨haction.symm, hgroup.symm⟩).elim
      | tabs _ _ => exact (hscoped.2.2.2 ⟨haction.symm, hgroup.symm⟩).elim
      | @routed a _ hasks hrouted hexecutor _ =>
          use a, b', executor, hasks, haction, hgroup, hparams, hrouted, hconn
  | frame conn' f =>
      obtain ⟨-, rfl⟩ := hsends
      cases hallowed
  | reply conn' frameId outcome => cases hsends.2
  | giveUp reqId err => cases hsends.1
  | _ => cases hsends

/-- A command that is scoped to a group goes to the executor that holds the group. -/
theorem heldFor_of_mem_sends (hb : KeyedById b) {opts : BrokerOptions} {e : BrokerEvent} {conn : ℕ}
    {id : String} {action : BrowserAction} {group params : String} (hscoped : Scoped action group)
    (h : (conn, .command id action group params) ∈ b.sends opts e) :
  ∃ agentId, Forwards opts (b, e) agentId group conn ∧ HeldFor opts (b, e) agentId group conn
  := by
  obtain ⟨a, b', executor, hasks, rfl, rfl, rfl, hrouted, hconn, hexecutor⟩ :=
    b.scoped_of_mem_sends hscoped h
  obtain ⟨hclaimed, hknown, hbefore⟩ := b.called.executorFor_scoped hb hscoped.1 hexecutor
  use a.agentId
  constructor
  · use a, id
  · refine ⟨executor, ?_, hknown, hconn, hbefore⟩
    have howners : (b.handle opts e).groupOwner = b'.groupOwner := by
      simp only [groupOwner_handle, ownersAfter, hasks, ownersAfterAsk]
      rw [if_neg hscoped.2.2.1, if_pos hrouted, hexecutor]
    rwa [howners]

end Broker

/-- Agents are isolated from each other. -/
structure Isolated (opts : BrokerOptions) (steps : List (Broker × BrokerEvent)) : Prop where
  exclusive : ∀ before step between step' after, steps = before ++ step :: between ++ step' :: after →
    ∀ agentId agentId' group conn conn', Forwards opts step agentId group conn →
      Forwards opts step' agentId' group conn' → agentId ≠ agentId' →
        ∃ s ∈ between, Frees agentId group s.1 s.2
  held : ∀ step ∈ steps, ∀ conn id action group params, Scoped action group →
    (conn, .command id action group params) ∈ step.1.sends opts step.2 →
      ∃ agentId, Forwards opts step agentId group conn ∧ HeldFor opts step agentId group conn

/-- The agent that owns a group keeps it until it is freed. -/
theorem owner_kept (opts : BrokerOptions) {b : Broker} {e : BrokerEvent} {agentId group : String}
    {executorId : String} (h : b.groupOwner.get group = some ⟨executorId, some agentId⟩)
    (hfree : ¬ Frees agentId group b e) :
  (b.handle opts e).groupOwner.get group = some ⟨executorId, some agentId⟩
  := by
  obtain ⟨⟨executorId', agent⟩, howner, hexecutor, hagent⟩ := b.keeps_handle opts h fun hdrops =>
    hfree (.inr ⟨_, h, hdrops⟩)
  obtain rfl : executorId' = executorId := hexecutor
  obtain rfl : agent = some agentId := hagent agentId rfl fun hreleases => hfree (.inl hreleases)
  apply howner

/-- In every run, agents are isolated from each other. -/
theorem isolated (opts : BrokerOptions) (token : String) (steps : List (Broker × BrokerEvent))
    (b : Broker) (hrun : (Broker.system opts).Run (.initial token) steps b) :
  Isolated opts steps
  := by
  have hkeyed : KeyedById (.initial token) := by
    intro id info hinfo
    cases hinfo
  have hsteps := hrun.preserves_steps (I := KeyedById)
    (fun b e hb _ => KeyedById.handle hb opts e) hkeyed
  have hheld : ∀ step ∈ steps, ∀ agentId group conn, Forwards opts step agentId group conn →
      HeldFor opts step agentId group conn := by
    intro step hstep agentId group conn hforwards
    obtain ⟨a, id, hasks, rfl, hscoped, rfl, hmem⟩ := hforwards
    obtain ⟨agentId, ⟨a', id', hasks', rfl, -⟩, hheld⟩ :=
      step.1.heldFor_of_mem_sends (hsteps step hstep).1 hscoped hmem
    rw [hasks] at hasks'
    obtain rfl := Option.some.inj hasks'
    apply hheld
  constructor
  · rintro before step between step' after rfl agentId agentId' group conn conn' hfirst hsecond hne
    obtain ⟨executor, hclaimed, -, -, -⟩ := hheld step (by simp) _ _ _ hfirst
    obtain ⟨executor', -, -, -, hbefore⟩ := hheld step' (by simp) _ _ _ hsecond
    rw [List.append_assoc, List.cons_append] at hrun
    obtain ⟨t, -, hrest⟩ := EventSystem.Run.append_iff.mp hrun
    cases hrest with
    | cons _ hrest =>
        obtain ⟨hbetween, -, -⟩ := hrest.split
        obtain hkept | hfreed := hbetween.preserves_until
          (I := fun b => b.groupOwner.get group = some ⟨executor.id, some agentId⟩)
          (fun b e hb _ hfree => owner_kept opts hb hfree) hclaimed
        · exact (hne ((hbefore _ hkept).2 agentId rfl)).elim
        · apply hfreed
  · intro step hstep conn id action group params hscoped hmem
    apply step.1.heldFor_of_mem_sends (hsteps step hstep).1 hscoped hmem

/-- A command that does something in the group `work`. -/
def sampleCommand (action : BrowserAction) : Command := { sampleOpen with action }

/-- A group passes from an agent whose connection is closed to another one. -/
theorem isolated_takeover :
  ∃ steps b, (Broker.system sampleOptions).Run (.initial "token") steps b ∧
    b.groupOwner.get "work" = some ⟨"chrome", some "agent:2"⟩ ∧ Isolated sampleOptions steps
  := by
  obtain ⟨steps, b, hrun, hb⟩ := EventSystem.exists_run_of_play (Broker.system sampleOptions)
    [.opened, .message 0 (sampleHello .extension "chrome") none,
      .opened, .message 1 (sampleHello .agent "") none,
      .opened, .message 2 (sampleHello .agent "") none,
      .message 1 (.command "c1" sampleOpen) none, .closed 1,
      .message 2 (.command "c1" (sampleCommand .click)) none]
    (.initial "token")
    (fun b => b.groupOwner.get "work" = some ⟨"chrome", some "agent:2"⟩)
    (by decide)
  use steps, b, hrun, of_decide_eq_true hb
  apply isolated sampleOptions "token" steps b hrun

end Browser
