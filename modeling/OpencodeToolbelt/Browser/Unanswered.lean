import OpencodeToolbelt.Browser.Agreement

/-!
# Commands that are pending

A command stays pending only as long as the connection on which it was dispatched is that of
its executor. An executor that takes over the id of a connection with commands pending, or
takes a second id, breaks this.
-/

namespace Browser

/-! ### Events that change no executor -/

/-- Two brokers with the same executors and the same commands. -/
structure SameCommands (b b' : Broker) : Prop where
  executors : b'.executors = b.executors
  executorById : b'.executorById = b.executorById
  opened : b'.opened = b.opened
  pending : b'.pending = b.pending
  settled : b'.settled = b.settled
  dispatched : b'.dispatched = b.dispatched
  promiseSeq : b'.promiseSeq = b.promiseSeq
  idCounter : b'.idCounter = b.idCounter

/-- A change that clears commands, or dispatches one to an executor that is registered. -/
def Works (b b' : Broker) : Prop :=
  ∃ b₁, SameCommands b b₁ ∧ (Clears b₁ b' ∨
    ∃ executor waiter, (∃ id, b.executorById.get id = some executor) ∧
      Sends executor waiter b₁ b')

theorem Settles.works {b b' : Broker} (h : Settles b b') :
  Works b b'
  := ⟨b, ⟨rfl, rfl, rfl, rfl, rfl, rfl, rfl, rfl⟩, .inl h.toClears⟩

namespace Broker

variable (b : Broker)

theorem works_aggregateTabs (opts : BrokerOptions) (position : ℕ)
    (groups : List (TabGroup × String)) (requester : Requester) :
  Works b (b.aggregateTabs opts position groups requester)
  := by
  unfold aggregateTabs
  split
  · exact (b.settles_addJob _ rfl).works
  · next position' id executor hnext =>
      refine ⟨b, ⟨rfl, rfl, rfl, rfl, rfl, rfl, rfl, rfl⟩, .inr ⟨executor, _, ⟨id, ?_⟩,
        b.sends_sendToExecutor _ _ _ _ _ _⟩⟩
      apply JsMap.get_eq_some.mpr (JsMap.mem_entries_of_next hnext)

theorem works_releaseForAgent (agentId : String) :
  Works b (b.releaseForAgent agentId)
  := ⟨b.withoutOwner agentId, ⟨rfl, rfl, rfl, rfl, rfl, rfl, rfl, rfl⟩,
    .inl (b.settles_releaseForAgent agentId).toClears⟩

theorem works_route (opts : BrokerOptions) (agentId : String) (cmd : Command)
    (signal : Option ℕ) (requester : Requester) :
  Works b (b.route opts agentId cmd signal requester)
  := by
  unfold route
  split
  · exact (b.settles_addJob _ rfl).works
  · split
    · refine ⟨b.withoutOwner agentId, ⟨rfl, rfl, rfl, rfl, rfl, rfl, rfl, rfl⟩, .inl ?_⟩
      exact ((b.settles_releaseForAgent agentId).trans (settles_addJob _ _ rfl)).toClears
    · split
      · apply works_aggregateTabs
      · obtain ⟨hclaims, hchosen⟩ := b.claims_executorFor agentId cmd
        have hsame : SameCommands b (b.executorFor agentId cmd).1 := by
          rw [hclaims.rest]
          exact ⟨rfl, rfl, rfl, rfl, rfl, rfl, rfl, rfl⟩
        split
        · next b' err heq =>
            rw [heq] at hsame
            exact ⟨b', hsame, .inl (b'.settles_addJob _ rfl).toClears⟩
        · next b' executor heq =>
            rw [heq] at hsame hchosen
            exact ⟨b', hsame, .inr ⟨executor, _, hchosen executor rfl,
              b'.sends_sendToExecutor _ _ _ _ _ _⟩⟩

theorem sameCommands_rebuild (executorId : String) (groups : List TabGroup) :
  SameCommands b (groups.foldl (fun b g => b.rebuildGroup executorId g) b)
  := by
  induction groups generalizing b with
  | nil => exact ⟨rfl, rfl, rfl, rfl, rfl, rfl, rfl, rfl⟩
  | cons g groups ih =>
      have hgroup : ∃ groupOwner, b.rebuildGroup executorId g = { b with groupOwner } := by
        unfold rebuildGroup
        split
        · use b.groupOwner
        · split
          · use b.groupOwner
          · exact ⟨_, rfl⟩
      obtain ⟨groupOwner, heq⟩ := hgroup
      have h := ih (b.rebuildGroup executorId g)
      rw [List.foldl_cons]
      rw [heq] at h ⊢
      exact ⟨h.1, h.2, h.3, h.4, h.5, h.6, h.7, h.8⟩

theorem works_runJob (opts : BrokerOptions) :
  Works b (b.runJob opts)
  := by
  unfold runJob
  split
  · exact (Settles.refl b).works
  · next job jobs hjobs =>
      have hrest : SameCommands b { b with jobs } := ⟨rfl, rfl, rfl, rfl, rfl, rfl, rfl, rfl⟩
      obtain ⟨waiter, outcome⟩ := job
      cases waiter with
      | request requester =>
          refine ⟨_, hrest, .inl ?_⟩
          cases requester with
          | caller call =>
              apply Settles.toClears
              exact .of_same ⟨rfl, rfl, rfl, rfl, rfl, rfl, rfl⟩ rfl rfl rfl rfl rfl
                fun _ h => .inl h
          | agent call conn frameId => exact (settles_safeSend _ _ _).toClears
      | rebuild executor =>
          have h := sameCommands_rebuild { b with jobs } executor.id (reportedGroups outcome)
          refine ⟨_, ⟨h.1, h.2, h.3, h.4, h.5, h.6, h.7, h.8⟩, .inl (Settles.refl _).toClears⟩
      | aggregate executor position groups requester =>
          obtain ⟨b₁, h, hworks⟩ := works_aggregateTabs { b with jobs } opts position
            (groups ++ (reportedGroups outcome).map fun g => (g, executor.id)) requester
          exact ⟨b₁, ⟨h.1, h.2, h.3, h.4, h.5, h.6, h.7, h.8⟩, hworks⟩

end Broker

/-! ### The invariant -/

/-- The connection is open, and that of the executor of a command. -/
def LiveOn (b : Broker) (p : Pending) (conn : ℕ) : Prop :=
  ∃ info, b.executorById.get p.executorId = some info ∧ info.conn = conn ∧
    b.executors.get conn = some info ∧ conn ∈ b.opened

/-- Every command that has been dispatched has settled, or is pending and its connection is
still that of its executor. -/
structure Answering (b : Broker) : Prop extends Inverse b where
  live : ∀ reqId p, b.pending.get reqId = some p →
    ∃ info, b.executorById.get p.executorId = some info ∧ (p.promise, info.conn) ∈ b.dispatched
  answered : ∀ d ∈ b.dispatched, d.1 ∈ b.settled ∨
    ∃ reqId p, b.pending.get reqId = some p ∧ p.promise = d.1
  fresh : ∀ d ∈ b.dispatched, d.1 < b.promiseSeq
  once : ∀ d ∈ b.dispatched, ∀ d' ∈ b.dispatched, d.1 = d'.1 → d = d'

/-- The counter of command ids has not come round to a command that is pending. -/
def FreshId (b : Broker) : Prop :=
  b.pending.get (correlationId (nextIdCounter b.idCounter)) = none

instance (b : Broker) :
  Decidable (FreshId b)
  := inferInstanceAs (Decidable (b.pending.get (correlationId (nextIdCounter b.idCounter)) = none))

namespace Answering

variable {b b' : Broker}

theorem same (hb : Answering b) (h : SameCommands b b') :
  Answering b'
  := by
  refine ⟨hb.toInverse.of_same h.executors h.executorById ?_, ?_, ?_, ?_, ?_⟩
  · rw [h.opened]
    exact fun _ hc => hc
  · rw [h.pending, h.executorById, h.dispatched]
    apply hb.live
  · rw [h.pending, h.dispatched, h.settled]
    apply hb.answered
  · rw [h.dispatched, h.promiseSeq]
    apply hb.fresh
  · rw [h.dispatched]
    apply hb.once

/-- What the clearing of commands does to those that have been dispatched. -/
theorem answered_of_clears (hb : Answering b) (h : Clears b b') :
  ∀ d ∈ b'.dispatched, d.1 ∈ b'.settled ∨
    ∃ reqId p, b'.pending.get reqId = some p ∧ p.promise = d.1
  := by
  rw [h.dispatched]
  intro d hd
  obtain hd | ⟨reqId, p, hp, hpromise⟩ := hb.answered d hd
  · left
    apply h.settled _ hd
  · obtain hp | hp := h.removed reqId p hp
    · right
      use reqId, p
    · left
      rwa [hpromise] at hp

theorem clears (hb : Answering b) (h : Clears b b') :
  Answering b'
  := by
  refine ⟨hb.toInverse.of_same h.executors h.executorById ?_, ?_, hb.answered_of_clears h, ?_, ?_⟩
  · rw [h.opened]
    exact fun _ hc => hc
  · rw [h.executorById, h.dispatched]
    exact fun reqId p hp => hb.live reqId p (h.pending reqId p hp)
  · rw [h.dispatched, h.promiseSeq]
    apply hb.fresh
  · rw [h.dispatched]
    apply hb.once

theorem sends (hb : Answering b) (hid : FreshId b) {executor : ExecutorInfo} {waiter : Waiter}
    (hexecutor : b.executorById.get executor.id = some executor)
    (h : Sends executor waiter b b') :
  Answering b'
  := by
  refine ⟨hb.toInverse.of_same h.executors h.executorById ?_, ?_, ?_, ?_, ?_⟩
  · rw [h.opened]
    exact fun _ hc => hc
  · rw [h.executorById]
    intro reqId p hp
    obtain hold | ⟨heq, -, hdispatched⟩ := h.pending reqId p hp
    · obtain ⟨info, hinfo, hmem⟩ := hb.live reqId p hold
      use info, hinfo, h.kept _ hmem
    · use executor
      rw [heq]
      use hexecutor
  · intro d hd
    obtain hold | ⟨-, -, hnew⟩ := h.dispatched d hd
    · obtain hsettled | ⟨reqId, p, hp, hpromise⟩ := hb.answered d hold
      · left
        apply h.settled _ hsettled
      · obtain hp' | hp' | hreused := h.removed reqId p hp
        · right
          use reqId, p
        · left
          rwa [hpromise] at hp'
        · rw [hreused, hid] at hp
          cases hp
    · obtain hsettled | ⟨reqId, p, hp, hpromise, -⟩ := hnew
      · exact .inl hsettled
      · right
        use reqId, p
  · intro d hd
    obtain hold | ⟨rfl, hlt, -⟩ := h.dispatched d hd
    · apply Nat.lt_of_lt_of_le (hb.fresh d hold) h.promiseSeq
    · apply hlt
  · intro d hd d' hd' heq
    obtain hold | ⟨rfl, -, -⟩ := h.dispatched d hd
    · obtain hold' | ⟨rfl, -, -⟩ := h.dispatched d' hd'
      · apply hb.once d hold d' hold' heq
      · exact (Nat.ne_of_lt (hb.fresh d hold) heq).elim
    · obtain hold' | ⟨rfl, -, -⟩ := h.dispatched d' hd'
      · exact (Nat.ne_of_lt (hb.fresh d' hold') heq.symm).elim
      · rfl

theorem works (hb : Answering b) (hid : FreshId b) (h : Works b b') :
  Answering b'
  := by
  obtain ⟨b₁, hsame, hclears | ⟨executor, waiter, ⟨id, hexecutor⟩, hsends⟩⟩ := h
  · apply (hb.same hsame).clears hclears
  · apply (hb.same hsame).sends _ _ hsends
    · unfold FreshId
      rwa [hsame.pending, hsame.idCounter]
    · rw [hsame.executorById, (hb.byId id executor hexecutor).1, hexecutor]

/-! ### Executors that come and go -/

/-- An executor joins whose id no other connection has while commands are pending for it. -/
theorem register (hb : Answering b) (info : ExecutorInfo)
    (hid : SameId b info.conn info.id) (hopen : info.conn ∈ b.opened)
    (hprior : ∀ prior, b.executorById.get info.id = some prior → prior.conn = info.conn ∨
      ∀ reqId p, b.pending.get reqId = some p → p.executorId ≠ info.id) :
  Answering ((b.replaceStale info.conn info.id).register info)
  := by
  have hkeeps := (b.keepsCommands_replaceStale info.conn info.id).trans
    (Broker.keepsCommands_register _ info)
  have hbyId : ((b.replaceStale info.conn info.id).register info).executorById =
      b.executorById.set info.id info := by
    rw [(Broker.register_executors _ _).2, (b.replaceStale_same _ _).1]
  refine ⟨hb.toInverse.register info hid hopen, ?_, ?_, ?_, ?_⟩
  · rw [hkeeps.pending, hkeeps.dispatched, hbyId]
    intro reqId p hp
    obtain ⟨old, hold, hmem⟩ := hb.live reqId p hp
    by_cases heq : p.executorId = info.id
    · rw [heq] at hold
      obtain hconn | hnone := hprior old hold
      · use info
        rw [heq, JsMap.get_set_self, ← hconn]
        use rfl
      · exact (hnone reqId p hp heq).elim
    · use old
      rw [JsMap.get_set_of_ne _ heq]
      use hold
  · rw [hkeeps.pending, hkeeps.dispatched, hkeeps.settled]
    apply hb.answered
  · rw [hkeeps.dispatched, hkeeps.promiseSeq]
    apply hb.fresh
  · rw [hkeeps.dispatched]
    apply hb.once

theorem acceptExecutor (hb : Answering b) (hfresh : FreshId b) (opts : BrokerOptions) {conn : ℕ}
    {frame : HelloFrame} (hid : SameId b conn (b.executorIdFor frame.id).2)
    (hopen : conn ∈ b.opened)
    (hprior : ∀ prior, b.executorById.get (b.executorIdFor frame.id).2 = some prior →
      prior.conn = conn ∨ ∀ reqId p, b.pending.get reqId = some p →
        p.executorId ≠ (b.executorIdFor frame.id).2) :
  Answering (b.acceptExecutor opts conn frame)
  := by
  have hnamed := b.settles_executorIdFor frame.id
  have hpending : (b.executorIdFor frame.id).1.pending = b.pending := by
    unfold Broker.executorIdFor
    split <;> rfl
  simp only [Broker.acceptExecutor]
  apply Answering.sends _ _ _ (Broker.sends_sendToExecutor _ _ _ _ _ _ _)
  · apply Answering.clears _ (Broker.settles_safeSend _ _ _).toClears
    apply (hb.clears hnamed.toClears).register
    · unfold SameId
      rwa [hnamed.executors]
    · rwa [hnamed.opened]
    · rw [hnamed.executorById, hpending]
      apply hprior
  · unfold FreshId
    rw [(Broker.settles_safeSend _ _ _).idCounter, (Broker.keepsCommands_register _ _).idCounter,
      (Broker.keepsCommands_replaceStale _ _ _).idCounter, hnamed.idCounter,
      Option.eq_none_iff_forall_ne_some]
    intro p hp
    have hold := (Broker.settles_safeSend _ _ _).pending _ p hp
    rw [(Broker.keepsCommands_register _ _).pending,
      (Broker.keepsCommands_replaceStale _ _ _).pending, hpending, hfresh] at hold
    cases hold
  · rw [(Broker.settles_safeSend _ _ _).executorById, (Broker.register_executors _ _).2,
      JsMap.get_set_self]

theorem closed (hb : Answering b) (conn : ℕ) :
  Answering ({ b with opened := b.opened.filter (· ≠ conn) }.onClose conn)
  := by
  unfold Broker.onClose
  split
  · next executor hexecutor =>
      change b.executors.get conn = some executor at hexecutor
      obtain ⟨hconn, hid⟩ := hb.byConn conn executor hexecutor
      obtain ⟨hsettles, hgone⟩ := Broker.settles_closeExecutor
        { b with opened := b.opened.filter (· ≠ conn) } hconn hid
      refine ⟨(hb.toInverse.withoutExecutor hexecutor).of_same hsettles.executors
        hsettles.executorById ?_, ?_, ?_, ?_, ?_⟩
      · rw [hsettles.opened]
        exact fun _ h => h
      · rw [hsettles.executorById, hsettles.dispatched]
        intro reqId p hp
        obtain ⟨info, hinfo, hmem⟩ := hb.live reqId p (hsettles.pending reqId p hp)
        exact ⟨info, (JsMap.get_delete_of_ne _ (hgone reqId p hp)).trans hinfo, hmem⟩
      · intro d hd
        rw [hsettles.dispatched] at hd
        obtain hsettled | ⟨reqId, p, hp, hpromise⟩ := hb.answered d hd
        · left
          apply hsettles.settled _ hsettled
        · obtain hp | hp := hsettles.removed reqId p hp
          · right
            use reqId, p
          · left
            rwa [hpromise] at hp
      · rw [hsettles.dispatched, hsettles.promiseSeq]
        apply hb.fresh
      · rw [hsettles.dispatched]
        apply hb.once
  · next hexecutor =>
      have hclosed : Answering { b with opened := b.opened.filter (· ≠ conn) } := by
        refine ⟨⟨hb.byConn, hb.byId, ?_⟩, hb.live, hb.answered, hb.fresh, hb.once⟩
        intro conn' info hinfo
        apply stays_open (hb.opened conn' info hinfo)
        rintro rfl
        change b.executors.get conn' = none at hexecutor
        rw [hexecutor] at hinfo
        cases hinfo
      split
      · next agent _ =>
          apply Answering.clears _ (Broker.settles_closeAgent _ _ _).toClears
          apply hclosed.same
          exact ⟨rfl, rfl, rfl, rfl, rfl, rfl, rfl, rfl⟩
      · apply hclosed

theorem stop (hb : Answering b) :
  Answering b.stop
  := by
  have hsettles : Settles b (b.rejectAllPending ⟨"broker stopped", none⟩) := by
    apply b.settles_settleAll
    exact fun b reqId => b.settles_settleReject reqId _
  have hnone : ∀ reqId p,
      (b.rejectAllPending ⟨"broker stopped", none⟩).pending.get reqId ≠ some p := by
    intro reqId p hp
    have hgone := b.get_settleAll (fun b reqId => b.settles_settleReject reqId _)
      (fun b reqId => b.get_settleReject_self reqId _) hp
    cases hgone
  have hrest := hb.clears hsettles.toClears
  refine ⟨(Registered.clear _).toInverse, ?_, hrest.answered, hrest.fresh, hrest.once⟩
  exact fun reqId p hp => (hnone reqId p hp).elim

end Answering

/-- An executor that says hello keeps the id of its connection, and takes over that of another
one only when no command is pending for it. The counter of command ids does not come round to
a command that is pending. -/
def Undisturbed (b : Broker) : BrokerEvent → Prop
  | .message conn (.hello frame) reloadToken =>
      FreshId b ∧ (Accepts b frame reloadToken → frame.role ≠ some .agent →
        SameId b conn (b.executorIdFor frame.id).2 ∧
          ∀ prior ∈ b.executorById.get (b.executorIdFor frame.id).2, prior.conn = conn ∨
            ∀ e ∈ b.pending.entries, e.2.executorId ≠ (b.executorIdFor frame.id).2)
  | _ => FreshId b

namespace Answering

variable {b b' : Broker}

theorem handleHello (hb : Answering b) (opts : BrokerOptions) {conn : ℕ}
    (hopen : conn ∈ b.opened) {frame : HelloFrame} {reloadToken : Option String}
    (h : Undisturbed b (.message conn (.hello frame) reloadToken)) :
  Answering (b.handleHello opts conn frame reloadToken)
  := by
  obtain ⟨token, hb', haccepts⟩ := b.checkToken frame reloadToken
  simp only [Broker.handleHello, hb']
  have hanswering : Answering { b with token } :=
    hb.same ⟨rfl, rfl, rfl, rfl, rfl, rfl, rfl, rfl⟩
  split
  · next heq =>
      split
      · apply Answering.clears _ (Broker.settles_safeSend _ _ _).toClears
        exact hanswering.same ⟨rfl, rfl, rfl, rfl, rfl, rfl, rfl, rfl⟩
      · next hrole =>
          obtain ⟨hfresh, h⟩ := h
          obtain ⟨hid, hprior⟩ := h (haccepts heq) hrole
          apply hanswering.acceptExecutor hfresh opts _ hopen
          · rw [b.executorIdFor_token token]
            intro prior hprior'
            apply (hprior prior hprior').imp_right
            exact fun hnone reqId p hp => hnone (reqId, p) (JsMap.mem_entries_of_get hp)
          · rw [b.executorIdFor_token token]
            apply hid
  · apply Answering.clears _ (Broker.settles_closeConnection _ _).toClears
    apply hanswering.clears (Broker.settles_safeSend _ _ _).toClears

theorem onMessage (hb : Answering b) (opts : BrokerOptions) {conn : ℕ} {frame : ClientFrame}
    {reloadToken : Option String} (hopen : conn ∈ b.opened)
    (h : Undisturbed b (.message conn frame reloadToken)) :
  Answering (b.onMessage opts conn frame reloadToken)
  := by
  have hother : FreshId b → Answering (b.handleFrame opts conn frame) := by
    intro hfresh
    unfold Broker.handleFrame
    split
    · cases frame with
      | result id ok data error => apply hb.clears (b.clears_handleResult id ok data error)
      | event frame => apply hb.clears (b.settles_routeEvent frame).toClears
      | ping => apply hb.clears (b.settles_safeSend _ _).toClears
      | _ => apply hb
    · split
      · next agent hagent =>
          cases frame with
          | command id cmd =>
              apply Answering.works _ _ (Broker.works_route _ _ _ _ _ _)
              · exact hb.same ⟨rfl, rfl, rfl, rfl, rfl, rfl, rfl, rfl⟩
              · apply hfresh
          | ping => apply hb.clears (b.settles_safeSend _ _).toClears
          | _ => apply hb
      · apply hb
  cases frame with
  | hello frame => apply hb.handleHello opts hopen h
  | _ => apply hother h

/-- Every event that is undisturbed keeps the commands answered. -/
theorem handle (hb : Answering b) (opts : BrokerOptions) {e : BrokerEvent}
    (henabled : b.enabled e) (h : Undisturbed b e) :
  Answering (b.handle opts e)
  := by
  cases e with
  | opened =>
      exact ⟨hb.toInverse.of_same rfl rfl fun _ h => List.mem_cons_of_mem _ h, hb.live,
        hb.answered, hb.fresh, hb.once⟩
  | message conn frame reloadToken => apply hb.onMessage opts henabled h
  | closed conn => apply hb.closed
  | stop => apply hb.stop
  | createLocalAgent => exact hb.same ⟨rfl, rfl, rfl, rfl, rfl, rfl, rfl, rfl⟩
  | send agentId cmd signal =>
      apply Answering.works _ _ (Broker.works_route _ _ _ _ _ _)
      · exact hb.same ⟨rfl, rfl, rfl, rfl, rfl, rfl, rfl, rfl⟩
      · apply h
  | release agentId => apply hb.works h (b.works_releaseForAgent agentId)
  | abort signal => apply hb.clears (b.settles_abort signal).toClears
  | timeout timer => apply hb.clears (b.settles_fireTimer timer).toClears
  | job => apply hb.works h (b.works_runJob opts)
  | sendThrows conn error => exact hb.same ⟨rfl, rfl, rfl, rfl, rfl, rfl, rfl, rfl⟩

theorem initial (token : String) :
  Answering (Broker.initial token)
  := ⟨(Agrees.initial token).registered.toInverse, nofun, nofun, nofun, nofun⟩

end Answering

/-! ### Runs -/

/-- Every command that is pending was dispatched on the live connection of its executor, and
every command that was dispatched on a connection has settled or is pending there. -/
structure NoneForsaken (b : Broker) : Prop where
  live : ∀ reqId p, b.pending.get reqId = some p →
    ∃ conn, (p.promise, conn) ∈ b.dispatched ∧ LiveOn b p conn
  settled : ∀ promise conn, (promise, conn) ∈ b.dispatched → promise ∉ b.settled →
    ∃ reqId p, b.pending.get reqId = some p ∧ p.promise = promise ∧ LiveOn b p conn

theorem Answering.noneForsaken {b : Broker} (hb : Answering b) :
  NoneForsaken b
  := by
  have hlive : ∀ reqId p, b.pending.get reqId = some p →
      ∃ conn, (p.promise, conn) ∈ b.dispatched ∧ LiveOn b p conn := by
    intro reqId p hp
    obtain ⟨info, hinfo, hmem⟩ := hb.live reqId p hp
    have hconn := (hb.byId _ info hinfo).2
    use info.conn, hmem, info, hinfo, rfl, hconn
    apply hb.opened _ info hconn
  use hlive
  intro promise conn hdispatched hunsettled
  obtain ⟨reqId, p, hp, hpromise⟩ := (hb.answered _ hdispatched).resolve_left hunsettled
  obtain ⟨conn', hdispatched', hlive'⟩ := hlive reqId p hp
  obtain heq := hb.once _ hdispatched _ hdispatched' hpromise.symm
  obtain rfl := (Prod.mk.inj heq).2
  use reqId, p

/-- When executors keep their id, and take over that of another connection only while no
command is pending for it, no command is forsaken in any state that is reached. -/
theorem none_forsaken_of_undisturbed (opts : BrokerOptions) (token : String) (b : Broker)
    (hrun : ((Broker.system opts).restrict Undisturbed).Reaches (.initial token) b) :
  NoneForsaken b
  := by
  apply Answering.noneForsaken
  apply hrun.preserves (I := Answering) _ (Answering.initial token)
  exact fun b e hb he => hb.handle opts he.1 he.2

instance (b : Broker) (e : BrokerEvent) :
  Decidable (Undisturbed b e)
  :=
  match e with
  | .message conn (.hello frame) reloadToken =>
      inferInstanceAs (Decidable
        (FreshId b ∧ (Accepts b frame reloadToken → frame.role ≠ some .agent →
          SameId b conn (b.executorIdFor frame.id).2 ∧
            ∀ prior ∈ b.executorById.get (b.executorIdFor frame.id).2, prior.conn = conn ∨
              ∀ e ∈ b.pending.entries, e.2.executorId ≠ (b.executorIdFor frame.id).2)))
  | .message _ (.command _ _) _ => inferInstanceAs (Decidable (FreshId b))
  | .message _ (.result _ _ _ _) _ => inferInstanceAs (Decidable (FreshId b))
  | .message _ (.event _) _ => inferInstanceAs (Decidable (FreshId b))
  | .message _ .ping _ => inferInstanceAs (Decidable (FreshId b))
  | .message _ .ignored _ => inferInstanceAs (Decidable (FreshId b))
  | .opened => inferInstanceAs (Decidable (FreshId b))
  | .closed _ => inferInstanceAs (Decidable (FreshId b))
  | .stop => inferInstanceAs (Decidable (FreshId b))
  | .createLocalAgent => inferInstanceAs (Decidable (FreshId b))
  | .send _ _ _ => inferInstanceAs (Decidable (FreshId b))
  | .release _ => inferInstanceAs (Decidable (FreshId b))
  | .abort _ => inferInstanceAs (Decidable (FreshId b))
  | .timeout _ => inferInstanceAs (Decidable (FreshId b))
  | .job => inferInstanceAs (Decidable (FreshId b))
  | .sendThrows _ _ => inferInstanceAs (Decidable (FreshId b))

/-- An executor leaves, and comes back under the same id: its commands have settled. -/
theorem none_forsaken_of_undisturbed_once :
  ∃ b, ((Broker.system sampleOptions).restrict Undisturbed).Reaches (.initial "token") b ∧
    b.dispatched = [(1, 1), (0, 0)] ∧ b.settled = [0] ∧ NoneForsaken b
  := by
  obtain ⟨b, hrun, hb⟩ := EventSystem.exists_reaches_of_play
    ((Broker.system sampleOptions).restrict Undisturbed)
    [.opened, .message 0 (sampleHello .extension "chrome") none, .closed 0, .opened,
      .message 1 (sampleHello .extension "chrome") none]
    (.initial "token")
    (fun b => b.dispatched = [(1, 1), (0, 0)] ∧ b.settled = [0])
    (by decide)
  obtain ⟨hdispatched, hsettled⟩ := of_decide_eq_true hb
  use b, hrun, hdispatched, hsettled
  apply none_forsaken_of_undisturbed sampleOptions "token" b hrun

/-- An executor comes back under the same id before its first connection has closed: the
command of the first connection stays pending when that has closed. -/
theorem some_forsaken :
  ¬ ∀ b, (Broker.system sampleOptions).Reaches (.initial "token") b → NoneForsaken b
  := by
  intro h
  obtain ⟨b, hrun, hb⟩ := EventSystem.exists_reaches_of_play (Broker.system sampleOptions)
    [.opened, .message 0 (sampleHello .extension "chrome") none, .opened,
      .message 1 (sampleHello .extension "chrome") none, .closed 0]
    (.initial "token")
    (fun b => (0, 0) ∈ b.dispatched ∧ 0 ∉ b.settled ∧ b.opened = [1])
    (by decide)
  obtain ⟨hdispatched, hunsettled, hopened⟩ := of_decide_eq_true hb
  obtain ⟨reqId, p, -, -, info, -, -, -, hopen⟩ := (h b hrun).settled 0 0 hdispatched hunsettled
  rw [hopened] at hopen
  cases List.mem_singleton.mp hopen

end Browser
