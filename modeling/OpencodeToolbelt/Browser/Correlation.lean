import OpencodeToolbelt.Browser.Calls
import OpencodeToolbelt.Browser.Agreement

/-!
# Results are correlated with commands

A result frame answers a command frame that has been received on the same connection, with
the outcome of the command that was dispatched for it.
-/

namespace Browser

/-! ### Outcomes -/

/-- The groups that the executors asked on behalf of a requester have reported. -/
inductive Gathered (steps : List (Broker × BrokerEvent)) (requester : Requester) :
    List (TabGroup × String) → Prop where
  | none : Gathered steps requester []
  | part {step : Broker × BrokerEvent} {promise position : ℕ} {executor : ExecutorInfo}
      {groups : List (TabGroup × String)} {outcome : Outcome} : Gathered steps requester groups →
      step ∈ steps →
      Decides step promise (.aggregate executor position groups requester) outcome →
      Gathered steps requester
        (groups ++ (Broker.reportedGroups outcome).map fun g => (g, executor.id))

/-- The outcome of a command that has been asked for: the one it had at once, the one that the
promise dispatched for it has settled with, or the groups of all executors. -/
inductive Ends (steps : List (Broker × BrokerEvent)) (asked : Broker × BrokerEvent) (a : Ask) :
    Outcome → Prop where
  | atOnce {outcome : Outcome} : AtOnce asked.1 a outcome → Ends steps asked a outcome
  | settled {step : Broker × BrokerEvent} {outcome : Outcome} : a.cmd.Routed → step ∈ steps →
      Decides step asked.1.promiseSeq (.request a.requester) outcome →
      Ends steps asked a outcome
  | tabs {groups : List (TabGroup × String)} : a.cmd.action = .tabs → a.cmd.group = "" →
      Gathered steps a.requester groups → Ends steps asked a (.ok (.tabs groups))

/-- A step in which the call of a command that has been asked for ends. -/
def Answers (asked step : Broker × BrokerEvent) : Prop :=
  ∃ a outcome jobs, asked.1.asks asked.2 = some a ∧ step.2 = .job ∧
    step.1.jobs = ⟨.request a.requester, outcome⟩ :: jobs

/-! ### Where commands and jobs come from -/

/-- Where the command of a promise comes from. -/
inductive Sought (steps : List (Broker × BrokerEvent)) (promise : ℕ) : Waiter → Prop where
  | request {asked : Broker × BrokerEvent} {a : Ask} : asked ∈ steps →
      asked.1.asks asked.2 = some a → a.cmd.Routed → asked.1.promiseSeq = promise →
      Sought steps promise (.request a.requester)
  | rebuild {executor : ExecutorInfo} : Sought steps promise (.rebuild executor)
  | aggregate {asked : Broker × BrokerEvent} {a : Ask} {executor : ExecutorInfo} {position : ℕ}
      {groups : List (TabGroup × String)} : asked ∈ steps → asked.1.asks asked.2 = some a →
      a.cmd.action = .tabs → a.cmd.group = "" → Gathered steps a.requester groups →
      Sought steps promise (.aggregate executor position groups a.requester)

/-- Where a job comes from. -/
inductive Due (steps : List (Broker × BrokerEvent)) : Job → Prop where
  | request {asked : Broker × BrokerEvent} {a : Ask} {outcome : Outcome} : asked ∈ steps →
      asked.1.asks asked.2 = some a → Ends steps asked a outcome →
      Due steps ⟨.request a.requester, outcome⟩
  | rebuild {executor : ExecutorInfo} {outcome : Outcome} : Due steps ⟨.rebuild executor, outcome⟩
  | aggregate {asked step : Broker × BrokerEvent} {a : Ask} {executor : ExecutorInfo}
      {promise position : ℕ} {groups : List (TabGroup × String)} {outcome : Outcome} :
      asked ∈ steps → asked.1.asks asked.2 = some a →
      a.cmd.action = .tabs → a.cmd.group = "" → Gathered steps a.requester groups →
      step ∈ steps →
      Decides step promise (.aggregate executor position groups a.requester) outcome →
      Due steps ⟨.aggregate executor position groups a.requester, outcome⟩

/-- All that waits in a broker comes from the steps before. -/
structure Traced (steps : List (Broker × BrokerEvent)) (b : Broker) : Prop where
  pending : ∀ reqId p, b.pending.get reqId = some p → Sought steps p.promise p.waiter
  jobs : ∀ job ∈ b.jobs, Due steps job

section Later

variable {steps steps' : List (Broker × BrokerEvent)}

theorem Gathered.later (hsteps : steps ⊆ steps') {requester : Requester}
    {groups : List (TabGroup × String)} (h : Gathered steps requester groups) :
  Gathered steps' requester groups
  := by
  induction h with
  | none => apply Gathered.none
  | part _ hmem hdecides ih => apply Gathered.part ih (hsteps hmem) hdecides

theorem Ends.later (hsteps : steps ⊆ steps') {asked : Broker × BrokerEvent} {a : Ask}
    {outcome : Outcome} (h : Ends steps asked a outcome) :
  Ends steps' asked a outcome
  := by
  cases h with
  | atOnce h => apply Ends.atOnce h
  | settled hrouted hmem hdecides => apply Ends.settled hrouted (hsteps hmem) hdecides
  | tabs haction hgroup hgathered => apply Ends.tabs haction hgroup (hgathered.later hsteps)

theorem Sought.later (hsteps : steps ⊆ steps') {promise : ℕ} {waiter : Waiter}
    (h : Sought steps promise waiter) :
  Sought steps' promise waiter
  := by
  cases h with
  | request hmem hasks hrouted hpromise =>
      apply Sought.request (hsteps hmem) hasks hrouted hpromise
  | rebuild => apply Sought.rebuild
  | aggregate hmem hasks haction hgroup hgathered =>
      apply Sought.aggregate (hsteps hmem) hasks haction hgroup (hgathered.later hsteps)

theorem Due.later (hsteps : steps ⊆ steps') {job : Job} (h : Due steps job) :
  Due steps' job
  := by
  cases h with
  | request hmem hasks hends => apply Due.request (hsteps hmem) hasks (hends.later hsteps)
  | rebuild => apply Due.rebuild
  | aggregate hmem hasks haction hgroup hgathered hstep hdecides =>
      apply Due.aggregate (hsteps hmem) hasks haction hgroup (hgathered.later hsteps)
        (hsteps hstep) hdecides

theorem Traced.later (hsteps : steps ⊆ steps') {b : Broker} (h : Traced steps b) :
  Traced steps' b
  := by
  constructor
  · exact fun reqId p hp => (h.pending reqId p hp).later hsteps
  · exact fun job hjob => (h.jobs job hjob).later hsteps

end Later

/-- What waits for a command is due when its promise has settled. -/
theorem Sought.due {steps : List (Broker × BrokerEvent)} {step : Broker × BrokerEvent}
    {promise : ℕ} {waiter : Waiter} {outcome : Outcome} (h : Sought steps promise waiter)
    (hstep : step ∈ steps) (hdecides : Decides step promise waiter outcome) :
  Due steps ⟨waiter, outcome⟩
  := by
  cases h with
  | request hmem hasks hrouted hpromise =>
      apply Due.request hmem hasks
      apply Ends.settled hrouted hstep
      rw [hpromise]
      apply hdecides
  | rebuild => apply Due.rebuild
  | aggregate hmem hasks haction hgroup hgathered =>
      apply Due.aggregate hmem hasks haction hgroup hgathered hstep hdecides

/-! ### The handling of an event -/

section Handling

variable {before : List (Broker × BrokerEvent)} {b b' : Broker} {e : BrokerEvent}

/-- The groups that the loop of `aggregateTabs` has so far were gathered for a command. -/
theorem Gathers.traced (hb : Traced before b) {groups : List (TabGroup × String)}
    {requester : Requester} (h : Gathers b e groups requester) :
  ∃ asked ∈ before ++ [(b, e)], ∃ a, asked.1.asks asked.2 = some a ∧ a.requester = requester ∧
    a.cmd.action = .tabs ∧ a.cmd.group = "" ∧ Gathered (before ++ [(b, e)]) requester groups
  := by
  cases h with
  | @asked a hasks haction hgroup =>
      use (b, e), List.mem_append_right _ List.mem_cons_self, a, hasks, rfl, haction, hgroup
      apply Gathered.none
  | gathered _ hjobs =>
      have hsub : before ⊆ before ++ [(b, e)] := List.subset_append_left _ _
      have hdue := hb.jobs _ (hjobs ▸ List.mem_cons_self)
      cases hdue with
      | @aggregate asked step a _ _ _ _ _ hmem hasks haction hgroup hgathered hstep hdecides =>
          use asked, hsub hmem, a, hasks, rfl, haction, hgroup
          apply Gathered.part (hgathered.later hsub) (hsub hstep) hdecides

/-- A command that an event dispatches comes from that event or from those before. -/
theorem Origin.sought (hb : Traced before b) {executor : ExecutorInfo} {agentId : String}
    {cmd : Command} {signal : Option ℕ} {waiter : Waiter}
    (h : Origin b e b' executor agentId cmd signal waiter) :
  Sought (before ++ [(b, e)]) b.promiseSeq waiter
  := by
  cases h with
  | rebuild => apply Sought.rebuild
  | tabs _ hgathers =>
      obtain ⟨asked, hmem, a, hasks, rfl, haction, hgroup, hgathered⟩ := hgathers.traced hb
      apply Sought.aggregate hmem hasks haction hgroup hgathered
  | routed hasks hrouted _ _ =>
      apply Sought.request (List.mem_append_right _ List.mem_cons_self) hasks hrouted rfl

/-- What a promise settles with is due to what waits for it. -/
theorem Decides.due (hb : Traced before b) {promise : ℕ} {waiter : Waiter} {outcome : Outcome}
    (h : Decides (b, e) promise waiter outcome) :
  Due (before ++ [(b, e)]) ⟨waiter, outcome⟩
  := by
  have hmem : (b, e) ∈ before ++ [(b, e)] := List.mem_append_right _ List.mem_cons_self
  have hold : ∀ reqId p, b.pending.get reqId = some p → p.promise = promise → p.waiter = waiter →
      Due (before ++ [(b, e)]) ⟨waiter, outcome⟩ := by
    rintro reqId p hp rfl rfl
    have hsought := (hb.pending reqId p hp).later (List.subset_append_left before [(b, e)])
    apply hsought.due hmem h
  cases h with
  | concluded hp hpromise hwaiter _ => apply hold _ _ hp hpromise hwaiter
  | givenUp hp hpromise hwaiter _ => apply hold _ _ hp hpromise hwaiter
  | undelivered hpromise horigin hmessage =>
      subst hpromise
      apply (horigin.sought hb).due hmem
      apply Decides.undelivered rfl horigin hmessage

/-- What waits after an event comes from that event or from those before. -/
theorem Traced.handle (hb : Traced before b) (opts : BrokerOptions) (e : BrokerEvent) :
  Traced (before ++ [(b, e)]) (b.handle opts e)
  := by
  have haccounted := accounted opts b e
  have hlater := hb.later (List.subset_append_left before [(b, e)])
  constructor
  · intro reqId p hp
    obtain hold | ⟨b', executor, agentId, cmd, signal, horigin, hpromise, -⟩ :=
      haccounted.pending reqId p hp
    · apply hlater.pending reqId p hold
    · rw [hpromise]
      apply horigin.sought hb
  · intro job hjob
    obtain hold | harises := haccounted.jobs job hjob
    · apply hlater.jobs job hold
    · cases harises with
      | atOnce hasks hatOnce =>
          apply Due.request (List.mem_append_right _ List.mem_cons_self) hasks (.atOnce hatOnce)
      | gathered hgathers =>
          obtain ⟨asked, hasked, a, hasks, rfl, haction, hgroup, hgathered⟩ := hgathers.traced hb
          apply Due.request hasked hasks (.tabs haction hgroup hgathered)
      | decided hdecides => apply hdecides.due hb

end Handling

/-! ### Result frames -/

/-- The job of a command of a guest sends its result. -/
theorem sends_job {opts : BrokerOptions} {b : Broker} {call conn : ℕ} {id : String}
    {outcome : Outcome} {jobs : List Job}
    (h : b.jobs = ⟨.request (.agent call conn id), outcome⟩ :: jobs) :
  b.sends opts .job = if b.broken.has conn then [] else [(conn, .result id (reported outcome))]
  := by
  have hsent := b.sent_handle opts .job
  have hresume : (b.handle opts .job).sent =
      (if b.broken.has conn then [] else [(conn, .result id (reported outcome))]) ++ b.sent := by
    rw [b.handle_job h]
    apply Eq.trans _ (({ b with jobs } : Broker).sent_safeSend _ _)
    cases outcome <;> rfl
  rw [hresume] at hsent
  apply (List.append_cancel_right hsent).symm

/-- A result frame is the only one of its step, which ends the call of a command. -/
theorem job_of_result {opts : BrokerOptions} {b : Broker} {e : BrokerEvent} {conn : ℕ}
    {id : String} {reply : Except ResultError Reply}
    (h : (conn, .result id reply) ∈ b.sends opts e) :
  e = .job ∧ b.sends opts e = [(conn, .result id reply)] ∧
    ∃ call outcome jobs, b.jobs = ⟨.request (.agent call conn id), outcome⟩ :: jobs ∧
      reply = reported outcome
  := by
  obtain ⟨b', c, hallowed, hsends, -⟩ := b.mem_sends h
  cases c with
  | frame conn' f =>
      obtain ⟨-, rfl⟩ := hsends
      cases hallowed
  | reply conn' frameId outcome =>
      obtain ⟨rfl, heq⟩ := hsends
      obtain ⟨rfl, rfl⟩ := ServerFrame.result.inj heq
      obtain ⟨rfl, call, jobs, hjobs, -⟩ := hallowed
      refine ⟨rfl, ?_, call, outcome, jobs, hjobs, rfl⟩
      rw [sends_job hjobs] at h ⊢
      split
      · next hbroken =>
          rw [if_pos hbroken] at h
          cases h
      · rfl
  | dispatch => cases hsends.2
  | giveUp => cases hsends.1
  | _ => cases hsends

/-- Who is told the outcome of a command of a guest, and under which id. -/
theorem asks_agent {b : Broker} {e : BrokerEvent} {a : Ask} (h : b.asks e = some a) {call conn : ℕ}
    {id : String} (hrequester : a.requester = .agent call conn id) :
  ∃ reloadToken, e = .message conn (.command id a.cmd) reloadToken
  := by
  unfold Broker.asks at h
  split at h
  · obtain rfl := Option.some.inj h
    cases hrequester
  · next reloadToken =>
      split at h
      · cases h
      · obtain ⟨agent, -, rfl⟩ := Option.map_eq_some_iff.mp h
        obtain ⟨-, rfl, rfl⟩ := Requester.agent.inj hrequester
        use reloadToken
  · cases h

/-- Every result frame of a run answers a command frame received before on its connection,
with what the command has led to, and no command is answered twice. -/
structure Correlated (opts : BrokerOptions) (steps : List (Broker × BrokerEvent)) : Prop where
  answers : ∀ before step after, steps = before ++ step :: after →
    ∀ conn id reply, (conn, .result id reply) ∈ step.1.sends opts step.2 →
      step.1.sends opts step.2 = [(conn, .result id reply)] ∧
        ∃ asked ∈ before, ∃ a call reloadToken outcome,
          asked.2 = .message conn (.command id a.cmd) reloadToken ∧
            asked.1.asks asked.2 = some a ∧ a.requester = .agent call conn id ∧
              Answers asked step ∧ Ends before asked a outcome ∧ reply = reported outcome
  once : steps.Pairwise fun step step' => ∀ asked, Answers asked step → ¬ Answers asked step'

theorem traced_of_run {opts : BrokerOptions} {token : String}
    {steps : List (Broker × BrokerEvent)} {b : Broker}
    (h : (Broker.system opts).Run (.initial token) steps b) :
  Traced steps b
  := by
  have hinitial : Traced [] (.initial token) := by
    constructor
    · nofun
    · nofun
  apply h.preserves_history (I := Traced) _ hinitial
  exact fun before b e hb _ => hb.handle opts e

/-- A call that is spent does not end again. -/
theorem not_answers_of_spent {asked step : Broker × BrokerEvent} {a : Ask}
    (hasks : asked.1.asks asked.2 = some a) (h : Spent a.requester.call step.1) :
  ¬ Answers asked step
  := by
  rintro ⟨a', outcome, jobs, hasks', -, hjobs⟩
  rw [hasks] at hasks'
  obtain rfl := Option.some.inj hasks'
  have hnone := (Broker.not_awaits h.2).2 _ (hjobs ▸ List.mem_cons_self)
  simp [Waiter.awaits, Waiter.requester] at hnone

theorem correlated (opts : BrokerOptions) (token : String)
    (steps : List (Broker × BrokerEvent)) (b : Broker)
    (h : (Broker.system opts).Run (.initial token) steps b) :
  Correlated opts steps
  := by
  constructor
  · rintro before ⟨t, e⟩ after rfl conn id reply hmem
    obtain ⟨hbefore, -, -⟩ := h.split
    have htraced := traced_of_run hbefore
    obtain ⟨rfl, hsends, call, outcome, jobs, hjobs, rfl⟩ := job_of_result hmem
    use hsends
    have hdue := htraced.jobs _ (hjobs ▸ List.mem_cons_self)
    generalize hrequester : Requester.agent call conn id = requester at hdue
    cases hdue with
    | @request asked a _ hasked hasks hends =>
        obtain ⟨reloadToken, hmessage⟩ := asks_agent hasks hrequester.symm
        refine ⟨asked, hasked, a, call, reloadToken, outcome, hmessage, hasks, hrequester.symm, ?_,
          hends, rfl⟩
        refine ⟨a, outcome, jobs, hasks, rfl, ?_⟩
        rw [← hrequester]
        apply hjobs
  · apply h.pairwise (I := CallsApart)
    · exact fun b e hb _ => hb.handle opts e
    · rintro b e steps s' hb - hrun step hstep asked ⟨a, outcome, jobs, hasks, rfl, hjobs⟩
      have hspent := hb.spent opts hjobs
      have hlater := hrun.preserves_steps (I := Spent a.requester.call)
        (fun b e hb _ => hb.handle opts e) hspent step hstep
      apply not_answers_of_spent hasks hlater.1
    · apply callsApart_initial

/-- The id of the command that a frame is the result of. -/
def ServerFrame.resultId : ServerFrame → Option String
  | .result id _ => some id
  | _ => none

/-- Two guests use the same id, and the command of the second one is done first. -/
theorem correlated_same_id :
  ∃ steps b, (Broker.system sampleOptions).Run (.initial "token") steps b ∧
    (b.sent.filterMap fun f => f.2.resultId.map fun id => (f.1, id)) = [(1, "id"), (2, "id")] ∧
      Correlated sampleOptions steps
  := by
  obtain ⟨steps, b, hrun, hb⟩ := EventSystem.exists_run_of_play (Broker.system sampleOptions)
    [.opened, .message 0 (sampleHello .extension "chrome") none,
      .opened, .message 1 (sampleHello .agent "") none,
      .opened, .message 2 (sampleHello .agent "") none,
      .message 1 (.command "id" sampleOpen) none,
      .message 2 (.command "id" { sampleOpen with group := "play" }) none,
      .message 0 (.result "c3" true none none) none,
      .message 0 (.result "c2" false none none) none, .job, .job]
    (.initial "token")
    (fun b => (b.sent.filterMap fun f => f.2.resultId.map fun id => (f.1, id)) =
      [(1, "id"), (2, "id")])
    (by decide)
  use steps, b, hrun, of_decide_eq_true hb
  apply correlated sampleOptions "token" steps b hrun

end Browser
