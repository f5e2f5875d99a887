import OpencodeToolbelt.Browser.Changes

/-!
# The owners of groups

What an event makes of the owners of groups depends only on the event and the registry, not on
the commands that are pending. A group gets an executor when it is opened, or reported by an
executor, and keeps it until the executor disconnects or the broker stops.
-/

namespace Browser

instance (cmd : Command) :
  Decidable cmd.Routed
  := inferInstanceAs (Decidable (_ ∧ _ ∧ ¬ _))

/-- A group that an executor reports is entered into a map of owners. -/
def enterGroup (executorId : String) (owners : JsMap String GroupOwner) (g : TabGroup) :
    JsMap String GroupOwner :=
  match nonEmpty g.name with
  | none => owners
  | some name =>
      if owners.has name then owners
      else owners.set name { executorId, agentId := none }

namespace Broker

variable (opts : BrokerOptions) (b : Broker)

theorem groupOwner_rebuildGroup (executorId : String) (g : TabGroup) :
  (b.rebuildGroup executorId g).groupOwner = enterGroup executorId b.groupOwner g
  := by
  unfold rebuildGroup enterGroup
  cases nonEmpty g.name with
  | none => rfl
  | some name => exact apply_ite groupOwner _ _ _

theorem groupOwner_rebuild (executorId : String) (groups : List TabGroup) :
  (groups.foldl (fun b g => b.rebuildGroup executorId g) b).groupOwner =
    groups.foldl (enterGroup executorId) b.groupOwner
  := by
  induction groups generalizing b with
  | nil => rfl
  | cons g groups ih => rw [List.foldl_cons, ih, groupOwner_rebuildGroup, List.foldl_cons]

/-- The owners of groups after a command has been asked for. -/
def ownersAfterAsk (a : Ask) : JsMap String GroupOwner :=
  if a.cmd.action = .release then (b.withoutOwner a.agentId).groupOwner
  else if a.cmd.Routed then (b.called.executorFor a.agentId a.cmd).1.groupOwner
  else b.groupOwner

/-- The owners of groups after a connection has been closed. -/
def ownersAfterClose (conn : ℕ) : JsMap String GroupOwner :=
  match b.executors.get conn with
  | some executor =>
      if (b.executorById.get executor.id).any (·.conn = conn) then
        b.groupOwner.filter fun _ owner => owner.executorId ≠ executor.id
      else b.groupOwner
  | none =>
      match b.agents.get conn with
      | some agent => (b.withoutOwner agent.id).groupOwner
      | none => b.groupOwner

/-- The owners of groups after the first job has run. -/
def ownersAfterJob : JsMap String GroupOwner :=
  match b.jobs with
  | ⟨.rebuild executor, outcome⟩ :: _ =>
      (reportedGroups outcome).foldl (enterGroup executor.id) b.groupOwner
  | _ => b.groupOwner

/-- The owners of groups after an event that asks for no command. -/
def ownersAfterOther : BrokerEvent → JsMap String GroupOwner
  | .release agentId => (b.withoutOwner agentId).groupOwner
  | .closed conn => b.ownersAfterClose conn
  | .stop => b.groupOwner.clear
  | .job => b.ownersAfterJob
  | _ => b.groupOwner

/-- The owners of groups after an event. -/
def ownersAfter (e : BrokerEvent) : JsMap String GroupOwner :=
  match b.asks e with
  | some a => b.ownersAfterAsk a
  | none => b.ownersAfterOther e

theorem handle_asks {e : BrokerEvent} {a : Ask} (h : b.asks e = some a) :
  b.handle opts e = b.called.route opts a.agentId a.cmd a.signal a.requester
  := by
  unfold asks at h
  split at h
  · obtain rfl := Option.some.inj h
    rfl
  · split at h
    · cases h
    · next hexecutor =>
        obtain ⟨agent, hagent, rfl⟩ := Option.map_eq_some_iff.mp h
        simp only [handle, onMessage, hexecutor, hagent, handleAgentFrame]
        rfl
  · cases h

theorem sameRegistry_aggregateTabs (position : ℕ) (groups : List (TabGroup × String))
    (requester : Requester) :
  SameRegistry b (b.aggregateTabs opts position groups requester)
  := by
  unfold aggregateTabs
  split
  · exact (b.settles_addJob _ rfl).toSameRegistry
  · exact (b.sends_sendToExecutor _ _ _ _ _ _).toSameRegistry

theorem groupOwner_route (a : Ask) :
  (b.called.route opts a.agentId a.cmd a.signal a.requester).groupOwner = b.ownersAfterAsk a
  := by
  unfold route ownersAfterAsk
  split
  · next htargets =>
      have hrouted : ¬ a.cmd.Routed := fun h => h.1 htargets
      rw [if_neg (by simp [htargets]), if_neg hrouted]
      rfl
  · next htargets =>
      split
      · next hrelease => exact (b.called.settles_releaseForAgent a.agentId).groupOwner
      · next hrelease =>
          split
          · next htabs =>
              have hrouted : ¬ a.cmd.Routed := fun h => h.2.2 htabs
              rw [if_neg hrouted]
              exact (b.called.sameRegistry_aggregateTabs opts _ _ _).groupOwner
          · next htabs =>
              have hrouted : a.cmd.Routed := ⟨htargets, hrelease, htabs⟩
              rw [if_pos hrouted]
              split
              · next b' err heq => rw [heq]; rfl
              · next b' executor heq =>
                  rw [heq]
                  exact (b'.sends_sendToExecutor _ _ _ _ _ _).groupOwner

theorem groupOwner_closeExecutor (conn : ℕ) (executor : ExecutorInfo) :
  (b.closeExecutor conn executor).groupOwner =
    if (b.executorById.get executor.id).any (·.conn = conn) then
      b.groupOwner.filter fun _ owner => owner.executorId ≠ executor.id
    else b.groupOwner
  := by
  have hprimary : ∀ (c : Prop) [Decidable c] (b : Broker) (primary : Option String),
      (if c then { b with primaryExecutorId := primary } else b).groupOwner = b.groupOwner := by
    intro c _ b primary
    split <;> rfl
  simp only [closeExecutor]
  rw [hprimary]
  split
  · exact (settles_settleAll _ _ fun b reqId => b.settles_settleReject reqId _).groupOwner
  · rfl

theorem groupOwner_onClose (conn : ℕ) :
  ({ b with opened := b.opened.filter (· ≠ conn) }.onClose conn).groupOwner =
    b.ownersAfterClose conn
  := by
  unfold onClose ownersAfterClose
  split
  · next executor hexecutor =>
      change b.executors.get conn = some executor at hexecutor
      rw [hexecutor]
      apply groupOwner_closeExecutor
  · next hexecutor =>
      change b.executors.get conn = none at hexecutor
      rw [hexecutor]
      split
      · next agent hagent =>
          change b.agents.get conn = some agent at hagent
          rw [hagent]
          exact (settles_closeAgent _ conn agent).groupOwner
      · next hagent =>
          change b.agents.get conn = none at hagent
          rw [hagent]

theorem groupOwner_runJob :
  (b.runJob opts).groupOwner = b.ownersAfterJob
  := by
  unfold runJob ownersAfterJob
  split
  · next hjobs => rw [hjobs]
  · next job jobs hjobs =>
      rw [hjobs]
      obtain ⟨waiter, outcome⟩ := job
      cases waiter with
      | request requester =>
          cases requester with
          | caller call => rfl
          | agent call conn frameId => exact (settles_safeSend _ _ _).groupOwner
      | rebuild executor => apply groupOwner_rebuild
      | aggregate executor position groups requester =>
          exact (sameRegistry_aggregateTabs opts _ _ _ _).groupOwner

theorem groupOwner_handleHello (conn : ℕ) (frame : HelloFrame) (reloadToken : Option String) :
  (b.handleHello opts conn frame reloadToken).groupOwner = b.groupOwner
  := by
  obtain ⟨token, hb', -⟩ := b.checkToken frame reloadToken
  simp only [handleHello, hb']
  split
  · split
    · exact (settles_safeSend _ _ _).groupOwner
    · have hregister : ∀ (b : Broker) info, (b.register info).groupOwner = b.groupOwner := by
        intro b info
        simp only [register]
        split <;> rfl
      simp only [acceptExecutor]
      rw [(sends_sendToExecutor _ _ _ _ _ _ _).groupOwner, (settles_safeSend _ _ _).groupOwner,
        hregister, (replaceStale_same _ _ _).2.2.1, (settles_executorIdFor _ _).groupOwner]
  · exact (settles_safeSend _ _ _).groupOwner

/-- The owners of groups after an event do not depend on the commands that are pending. -/
theorem groupOwner_handle (e : BrokerEvent) :
  (b.handle opts e).groupOwner = b.ownersAfter e
  := by
  unfold ownersAfter
  cases hasks : b.asks e with
  | some a => rw [b.handle_asks opts hasks, groupOwner_route]
  | none =>
      cases e with
      | opened => rfl
      | message conn frame reloadToken =>
          cases frame with
          | hello frame => apply groupOwner_handleHello
          | command id cmd =>
              simp only [handle, onMessage]
              split
              · rfl
              · next hexecutor =>
                  split
                  · next agent hagent => simp [asks, hexecutor, hagent] at hasks
                  · rfl
          | result id ok data error =>
              simp only [handle, onMessage]
              split
              · exact (b.clears_handleResult id ok data error).groupOwner
              · split <;> rfl
          | event frame =>
              simp only [handle, onMessage]
              split
              · exact (b.settles_routeEvent frame).groupOwner
              · split <;> rfl
          | ping =>
              simp only [handle, onMessage]
              split
              · exact (b.settles_safeSend _ _).groupOwner
              · split
                · exact (b.settles_safeSend _ _).groupOwner
                · rfl
          | ignored =>
              simp only [handle, onMessage]
              split
              · rfl
              · split <;> rfl
      | closed conn => apply groupOwner_onClose
      | stop =>
          have hsettles : Settles b (b.rejectAllPending ⟨"broker stopped", none⟩) := by
            apply b.settles_settleAll
            exact fun b reqId => b.settles_settleReject reqId _
          exact congrArg JsMap.clear hsettles.groupOwner
      | createLocalAgent => rfl
      | send agentId cmd signal => cases hasks
      | release agentId => exact (b.settles_releaseForAgent agentId).groupOwner
      | abort signal => exact (b.settles_abort signal).groupOwner
      | timeout timer => exact (b.settles_fireTimer timer).groupOwner
      | job => apply groupOwner_runJob
      | sendThrows conn error => rfl

end Broker

/-! ### Groups that keep their owner -/

/-- An event that takes an executor its groups: it disconnects, or the broker stops. -/
inductive Drops (b : Broker) (executorId : String) : BrokerEvent → Prop where
  | stopped : Drops b executorId .stop
  | disconnected {conn : ℕ} {executor info : ExecutorInfo} :
      b.executors.get conn = some executor → b.executorById.get executor.id = some info →
      info.conn = conn → executor.id = executorId → Drops b executorId (.closed conn)

/-- An event by which an agent releases its groups: it asks for that, or its connection is
closed. -/
inductive Releases (b : Broker) (agentId : String) : BrokerEvent → Prop where
  | released : Releases b agentId (.release agentId)
  | asked {e : BrokerEvent} {a : Ask} : b.asks e = some a → a.agentId = agentId →
      a.cmd.action = .release → Releases b agentId e
  | closed {conn : ℕ} {agent : AgentInfo} : b.agents.get conn = some agent → agent.id = agentId →
      Releases b agentId (.closed conn)

/-- The record of a group that stays, with its agent unless that releases its groups. -/
def Keeps (owner : GroupOwner) (releases : String → Prop) (owners : JsMap String GroupOwner)
    (group : String) : Prop :=
  ∃ owner', owners.get group = some owner' ∧ owner'.executorId = owner.executorId ∧
    ∀ agentId, owner.agentId = some agentId → ¬ releases agentId → owner'.agentId = some agentId

/-- A record that has not changed has been kept. -/
theorem Keeps.of_get {owner : GroupOwner} {releases : String → Prop}
    {owners : JsMap String GroupOwner} {group : String} (h : owners.get group = some owner) :
  Keeps owner releases owners group
  := ⟨owner, h, rfl, fun _ ha _ => ha⟩

theorem get_enterGroup {executorId group : String} {owners : JsMap String GroupOwner}
    {owner : GroupOwner} (groups : List TabGroup) (h : owners.get group = some owner) :
  (groups.foldl (enterGroup executorId) owners).get group = some owner
  := by
  induction groups generalizing owners with
  | nil => apply h
  | cons g groups ih =>
      rw [List.foldl_cons]
      apply ih
      unfold enterGroup
      split
      · apply h
      · next name _ =>
          split
          · apply h
          · next hnew =>
              rw [JsMap.get_set_of_ne]
              · apply h
              · rintro rfl
                apply hnew
                apply JsMap.has_of_get h

namespace Broker

variable (opts : BrokerOptions) (b : Broker)

theorem keeps_withoutOwner (agentId : String) {group : String} {owner : GroupOwner}
    (h : b.groupOwner.get group = some owner) :
  Keeps owner (· = agentId) (b.withoutOwner agentId).groupOwner group
  := by
  have hget : (b.withoutOwner agentId).groupOwner.get group =
      some (if owner.agentId = some agentId then { owner with agentId := none } else owner) := by
    change (b.groupOwner.mapValues _).get group = _
    rw [JsMap.get_mapValues, h]
    rfl
  by_cases hagent : owner.agentId = some agentId
  · rw [if_pos hagent] at hget
    refine ⟨_, hget, rfl, ?_⟩
    intro a ha hne
    rw [hagent] at ha
    exact (hne (Option.some.inj ha).symm).elim
  · rw [if_neg hagent] at hget
    apply Keeps.of_get hget

theorem keeps_executorFor (agentId : String) (cmd : Command) {group : String} {owner : GroupOwner}
    (h : b.groupOwner.get group = some owner) :
  Keeps owner (fun _ => False) (b.executorFor agentId cmd).1.groupOwner group
  := by
  unfold executorFor
  split
  · apply Keeps.of_get h
  · unfold resolveExecutor
    split
    · next old hold =>
        unfold resolveOwned
        split
        · apply Keeps.of_get h
        · next hagent =>
            have hclaimed : Keeps owner (fun _ => False)
                (b.groupOwner.set cmd.group { old with agentId := some agentId }) group := by
              by_cases heq : group = cmd.group
              · subst heq
                rw [hold] at h
                obtain rfl := Option.some.inj h
                refine ⟨_, JsMap.get_set_self _ _ _, rfl, ?_⟩
                intro a ha _
                rw [ha, Option.any_some, decide_eq_true_eq, not_not] at hagent
                rw [hagent]
              · apply Keeps.of_get
                rwa [JsMap.get_set_of_ne _ heq]
            simp only
            split <;> apply hclaimed
    · next hnone =>
        unfold resolveUnowned
        split
        · apply Keeps.of_get h
        · split
          · apply Keeps.of_get h
          · apply Keeps.of_get
            change (b.groupOwner.set cmd.group _).get group = some owner
            rw [JsMap.get_set_of_ne]
            · apply h
            · rintro rfl
              rw [hnone] at h
              cases h

/-- A group keeps its executor unless the event takes it, and its agent unless that releases
its groups. -/
theorem keeps_handle {e : BrokerEvent} {group : String} {owner : GroupOwner}
    (h : b.groupOwner.get group = some owner) (hkept : ¬ Drops b owner.executorId e) :
  Keeps owner (fun agentId => Releases b agentId e) (b.handle opts e).groupOwner group
  := by
  rw [groupOwner_handle]
  unfold ownersAfter
  split
  · next a hasks =>
      unfold ownersAfterAsk
      split
      · next hrelease =>
          obtain ⟨owner', howner', hexecutor, hagent⟩ := b.keeps_withoutOwner a.agentId h
          use owner', howner', hexecutor
          intro agentId ha hnot
          apply hagent agentId ha
          rintro rfl
          apply hnot (.asked hasks rfl hrelease)
      · split
        · obtain ⟨owner', howner', hexecutor, hagent⟩ := b.called.keeps_executorFor a.agentId a.cmd h
          use owner', howner', hexecutor
          exact fun agentId ha _ => hagent agentId ha id
        · apply Keeps.of_get h
  · cases e with
    | release agentId =>
        obtain ⟨owner', howner', hexecutor, hagent⟩ := b.keeps_withoutOwner agentId h
        use owner', howner', hexecutor
        intro a ha hnot
        apply hagent a ha
        rintro rfl
        apply hnot .released
    | closed conn =>
        simp only [ownersAfterOther, ownersAfterClose]
        split
        · next executor hexecutor =>
            split
            · next hany =>
                obtain ⟨info, hinfo, hconn⟩ := (Option.any_eq_true _ _).mp hany
                apply Keeps.of_get
                rw [JsMap.get_filter, Option.filter_eq_some_iff]
                use h
                apply decide_eq_true
                intro heq
                apply hkept
                apply Drops.disconnected hexecutor hinfo (of_decide_eq_true hconn) heq.symm
            · apply Keeps.of_get h
        · split
          · next agent hagent =>
              obtain ⟨owner', howner', hexecutor, hkeeps⟩ :=
                b.keeps_withoutOwner agent.id h
              use owner', howner', hexecutor
              intro a ha hnot
              apply hkeeps a ha
              rintro rfl
              apply hnot (.closed hagent rfl)
          · apply Keeps.of_get h
    | stop => exact (hkept .stopped).elim
    | job =>
        simp only [ownersAfterOther, ownersAfterJob]
        split
        · apply Keeps.of_get (get_enterGroup _ h)
        · apply Keeps.of_get h
    | _ => apply Keeps.of_get h

end Broker

end Browser
