import OpencodeToolbelt.Browser.Owners

/-!
# Calls

Every command that is asked for is a call. What waits for its outcome is handed on, from the
command that is pending to the job that runs when it has settled, and is never copied.
-/

namespace Browser

/-- The call that somebody waits for. -/
def Requester.call : Requester → ℕ
  | .caller call => call
  | .agent call _ _ => call

/-- Who waits for the outcome, if it is not the broker alone. -/
def Waiter.requester : Waiter → Option Requester
  | .request requester => some requester
  | .rebuild _ => none
  | .aggregate _ _ _ requester => some requester

def Waiter.awaits (waiter : Waiter) (call : ℕ) : Bool := waiter.requester.any (·.call = call)

namespace Broker

variable (b : Broker)

/-- How many commands and jobs there are that a call waits for. -/
def awaiting (call : ℕ) : ℕ :=
  b.pending.countValues (fun p => p.waiter.awaits call) +
    b.jobs.countP fun job => job.waiter.awaits call

theorem asks_call {e : BrokerEvent} {a : Ask} (h : b.asks e = some a) :
  a.requester.call = b.callSeq
  := by
  unfold asks at h
  split at h
  · obtain rfl := Option.some.inj h
    rfl
  · split at h
    · cases h
    · obtain ⟨agent, -, rfl⟩ := Option.map_eq_some_iff.mp h
      rfl
  · cases h

theorem awaiting_of_same {b b' : Broker} (hpending : b'.pending = b.pending)
    (hjobs : b'.jobs = b.jobs) (call : ℕ) :
  b'.awaiting call = b.awaiting call
  := by
  rw [awaiting, awaiting, hpending, hjobs]

/-- What waited for a command waits as a job when the command has settled. -/
theorem awaiting_settle {reqId : String} {p : Pending} (hp : b.pending.get reqId = some p)
    (outcome : Outcome) (call : ℕ) :
  ((b.clearPending reqId).settle p outcome).awaiting call = b.awaiting call
  := by
  have hdelete := b.pending.countValues_delete reqId fun p => p.waiter.awaits call
  rw [hp, Option.any_some] at hdelete
  simp only [awaiting, b.settle_eq hp, List.countP_append, List.countP_singleton]
  omega

theorem awaiting_settleReject (reqId : String) (err : BrokerError) (call : ℕ) :
  (b.settleReject reqId err).awaiting call = b.awaiting call
  := by
  unfold settleReject
  split
  · rfl
  · next p hp => apply b.awaiting_settle hp

theorem awaiting_safeSend (conn : ℕ) (frame : ServerFrame) (call : ℕ) :
  (b.safeSend conn frame).awaiting call = b.awaiting call
  := by
  unfold safeSend
  split <;> rfl

theorem callSeq_safeSend (conn : ℕ) (frame : ServerFrame) :
  (b.safeSend conn frame).callSeq = b.callSeq
  := by
  unfold safeSend
  split <;> rfl

theorem callSeq_settleReject (reqId : String) (err : BrokerError) :
  (b.settleReject reqId err).callSeq = b.callSeq
  := by
  unfold settleReject
  split
  · rfl
  · next p hp => rw [b.settle_eq hp]

theorem callSeq_abandon (reqId : String) (err : BrokerError) :
  (b.abandon reqId err).callSeq = b.callSeq
  := by
  unfold abandon
  split
  · rfl
  · split
    · apply callSeq_settleReject
    · rw [callSeq_settleReject, callSeq_safeSend]

theorem callSeq_dispatch (opts : BrokerOptions) (executor : ExecutorInfo) (agentId : String)
    (cmd : Command) (signal : Option ℕ) (waiter : Waiter) :
  (b.dispatch opts executor agentId cmd signal waiter).callSeq = b.callSeq
  := by
  obtain ⟨timers, timerSeq, timer, listeners, listenerSeq, detachAbort, heq, -⟩ := b.enter_eq
    opts executor agentId cmd signal waiter (correlationId (nextIdCounter b.idCounter))
  simp only [dispatch]
  split
  · rw [callSeq_settleReject, heq]
  · rw [heq]

theorem awaiting_abandon (reqId : String) (err : BrokerError) (call : ℕ) :
  (b.abandon reqId err).awaiting call = b.awaiting call
  := by
  unfold abandon
  split
  · rfl
  · split
    · apply awaiting_settleReject
    · rw [awaiting_settleReject, awaiting_safeSend]

/-- A command that is dispatched brings what waits for it. -/
theorem awaiting_dispatch (opts : BrokerOptions) (executor : ExecutorInfo) (agentId : String)
    (cmd : Command) (signal : Option ℕ) (waiter : Waiter) (call : ℕ) :
  (b.dispatch opts executor agentId cmd signal waiter).awaiting call ≤
    b.awaiting call + if waiter.awaits call then 1 else 0
  := by
  have henter : (b.enter opts executor agentId cmd signal waiter
      (correlationId (nextIdCounter b.idCounter))).awaiting call ≤
        b.awaiting call + if waiter.awaits call then 1 else 0 := by
    obtain ⟨timers, timerSeq, timer, listeners, listenerSeq, detachAbort, heq, -⟩ := b.enter_eq
      opts executor agentId cmd signal waiter (correlationId (nextIdCounter b.idCounter))
    have hset := b.pending.countValues_set (correlationId (nextIdCounter b.idCounter))
      ⟨b.promiseSeq, waiter, timer, detachAbort, agentId, executor.id⟩
      fun p => p.waiter.awaits call
    simp only [awaiting, heq]
    change _ = _ + (if waiter.awaits call then 1 else 0) at hset
    omega
  simp only [dispatch]
  split
  · rwa [awaiting_settleReject]
  · apply henter

theorem awaiting_started (e : BrokerEvent) (call : ℕ) :
  (b.started e).awaiting call ≤ b.awaiting call
  := by
  cases e with
  | job =>
      simp only [awaiting, started]
      apply Nat.add_le_add_left
      apply (List.tail_sublist b.jobs).countP_le
  | _ => apply Nat.le_refl

/-- How many commands and jobs a call may wait for after an event. -/
def mayAwait (e : BrokerEvent) (call : ℕ) : ℕ :=
  b.awaiting call + if (b.asks e).any fun a => a.requester.call = call then 1 else 0

/-- What `aggregateTabs` hands on has been taken from the jobs, or has just been asked for. -/
theorem awaiting_of_gathers {e : BrokerEvent} {groups : List (TabGroup × String)}
    {requester : Requester} (h : Gathers b e groups requester) (call : ℕ) :
  (b.started e).awaiting call + (if requester.call = call then 1 else 0) ≤ b.mayAwait e call
  := by
  unfold mayAwait
  cases h with
  | asked hasks _ _ =>
      rw [b.started_of_asks hasks, hasks, Option.any_some]
      simp
  | gathered he hjobs =>
      subst he
      simp only [awaiting, started, hjobs, List.tail_cons, List.countP_cons]
      simp [Waiter.awaits, Waiter.requester]
      omega

theorem awaiting_of_ready {e : BrokerEvent} {b' : Broker} (h : Ready (b.started e) b')
    (call : ℕ) :
  b'.awaiting call = (b.started e).awaiting call
  := awaiting_of_same h.pending h.jobs call

/-- Waiters that are handed on are not copied by a change. -/
theorem awaiting_change {opts : BrokerOptions} {e : BrokerEvent} {b' b'' : Broker} {c : Change}
    {call : ℕ} (hb : b'.awaiting call ≤ b.mayAwait e call) (hallowed : Allowed b e b' c)
    (hc : c.Does opts b' b'') :
  b''.awaiting call ≤ b.mayAwait e call
  := by
  have hsame : ∀ b'' : Broker, b''.pending = b'.pending → b''.jobs = b'.jobs →
      b''.awaiting call ≤ b.mayAwait e call := by
    intro b'' hpending hjobs
    rwa [awaiting_of_same hpending hjobs]
  cases c with
  | idle => apply hsame _ (Idle.pending hc) (Idle.jobs hc)
  | takeJob =>
      obtain ⟨job, jobs, hjobs, rfl⟩ := hc
      apply Nat.le_trans _ hb
      simp only [awaiting, hjobs, List.countP_cons]
      omega
  | frame conn f =>
      obtain rfl := hc
      rwa [awaiting_safeSend]
  | reply conn frameId outcome =>
      obtain rfl := hc
      rwa [awaiting_safeSend]
  | addJob requester outcome =>
      obtain rfl := hc
      obtain ⟨hready, hfrom⟩ := hallowed
      have hadded : (b'.addJob (.request requester) outcome).awaiting call =
          (b.started e).awaiting call + if requester.call = call then 1 else 0 := by
        rw [← b.awaiting_of_ready hready]
        simp [awaiting, addJob, Waiter.awaits, Waiter.requester]
        omega
      rw [hadded]
      obtain ⟨a, hasks, rfl, -⟩ | ⟨groups, hgathers, -⟩ := hfrom
      · rw [b.started_of_asks hasks, mayAwait, hasks]
        simp
      · apply b.awaiting_of_gathers hgathers
  | dispatch executor agentId cmd signal waiter =>
      obtain rfl := hc
      obtain ⟨hready, horigin⟩ := hallowed
      apply Nat.le_trans (b'.awaiting_dispatch opts executor agentId cmd signal waiter call)
      rw [b.awaiting_of_ready hready]
      cases horigin with
      | rebuild he _ _ =>
          apply Nat.le_trans (b.awaiting_started e call)
          apply Nat.le_add_right
      | tabs _ hgathers =>
          have h := b.awaiting_of_gathers hgathers call
          simpa [Waiter.awaits, Waiter.requester] using h
      | routed hasks _ _ _ =>
          rw [b.started_of_asks hasks, mayAwait, hasks]
          simp [Waiter.awaits, Waiter.requester]
  | settle reqId outcome =>
      obtain ⟨p, hp, rfl⟩ := hc
      rwa [b'.awaiting_settle hp]
  | giveUp reqId err =>
      obtain rfl := hc
      rwa [awaiting_abandon]
  | _ =>
      obtain rfl := hc
      apply hsame _ rfl rfl

theorem awaiting_handle (opts : BrokerOptions) (e : BrokerEvent) (call : ℕ) :
  (b.handle opts e).awaiting call ≤ b.mayAwait e call
  := by
  apply (handles opts b e).preserves (I := fun b' => b'.awaiting call ≤ b.mayAwait e call)
  · exact fun b' c b'' hb' hallowed hc => b.awaiting_change hb' hallowed hc
  · apply Nat.le_add_right

/-! ### Calls are numbered -/

theorem callSeq_change {opts : BrokerOptions} {b' : Broker} {c : Change}
    (h : c.Does opts b b') :
  b.callSeq ≤ b'.callSeq
  := by
  cases c with
  | idle => apply Idle.callSeq h
  | frame conn f =>
      obtain rfl := h
      rw [callSeq_safeSend]
  | takeJob =>
      obtain ⟨job, jobs, -, rfl⟩ := h
      apply Nat.le_refl
  | reply conn frameId outcome =>
      obtain rfl := h
      rw [callSeq_safeSend]
  | dispatch executor agentId cmd signal waiter =>
      obtain rfl := h
      rw [callSeq_dispatch]
  | settle reqId outcome =>
      obtain ⟨p, hp, rfl⟩ := h
      rw [b.settle_eq hp]
  | giveUp reqId err =>
      obtain rfl := h
      rw [callSeq_abandon]
  | _ =>
      obtain rfl := h
      apply Nat.le_refl

theorem callSeq_handles {opts : BrokerOptions} {P : Broker → Change → Prop} {b' : Broker}
    (h : Work opts P b b') :
  b.callSeq ≤ b'.callSeq
  := by
  apply h.preserves (I := fun b' => b.callSeq ≤ b'.callSeq)
  · exact fun b' c b'' hb' _ hc => Nat.le_trans hb' (b'.callSeq_change hc)
  · apply Nat.le_refl

/-- Every call has a number of its own. -/
theorem callSeq_handle (opts : BrokerOptions) (e : BrokerEvent) :
  b.callSeq + (if (b.asks e).isSome then 1 else 0) ≤ (b.handle opts e).callSeq
  := by
  cases h : b.asks e with
  | none => apply b.callSeq_handles (handles opts b e)
  | some a =>
      rw [b.handle_asks opts h]
      apply b.called.callSeq_handles (Handles.route h)

end Broker

/-- At most one command or job is awaited by a call, and none by a call to come. -/
def CallsApart (b : Broker) : Prop :=
  ∀ call, b.awaiting call ≤ if call < b.callSeq then 1 else 0

/-- A call has been made and what waited for it is gone. -/
def Spent (call : ℕ) (b : Broker) : Prop := call < b.callSeq ∧ b.awaiting call = 0

theorem callsApart_initial (token : String) :
  CallsApart (.initial token)
  := by
  intro call
  apply Nat.zero_le

theorem CallsApart.handle {b : Broker} (hb : CallsApart b) (opts : BrokerOptions)
    (e : BrokerEvent) :
  CallsApart (b.handle opts e)
  := by
  intro call
  have hawaiting := b.awaiting_handle opts e call
  have hseq := b.callSeq_handle opts e
  have hold := hb call
  unfold Broker.mayAwait at hawaiting
  cases h : b.asks e with
  | none =>
      rw [h] at hawaiting hseq
      simp only [Option.any_none, Option.isSome_none, Bool.false_eq_true, if_false] at hawaiting hseq
      grind
  | some a =>
      rw [h] at hawaiting hseq
      simp only [Option.any_some, b.asks_call h, Option.isSome_some, if_true,
        decide_eq_true_eq] at hawaiting hseq
      grind

theorem Spent.handle {b : Broker} {call : ℕ} (hb : Spent call b) (opts : BrokerOptions)
    (e : BrokerEvent) :
  Spent call (b.handle opts e)
  := by
  obtain ⟨hcall, hnone⟩ := hb
  have hawaiting := b.awaiting_handle opts e call
  have hseq := b.callSeq_handle opts e
  unfold Broker.mayAwait at hawaiting
  constructor
  · omega
  · cases h : b.asks e with
    | none =>
        rw [h, hnone] at hawaiting
        apply Nat.le_zero.mp hawaiting
    | some a =>
        rw [h, hnone] at hawaiting
        simp only [Option.any_some, b.asks_call h, decide_eq_true_eq] at hawaiting
        grind

namespace Broker

variable (b : Broker)

/-- A job that a call waits for ends the call. -/
theorem handle_job {opts : BrokerOptions} {requester : Requester} {outcome : Outcome}
    {jobs : List Job} (h : b.jobs = ⟨.request requester, outcome⟩ :: jobs) :
  b.handle opts .job = { b with jobs }.resume opts outcome (.request requester)
  := by
  simp only [handle, runJob, h]

theorem ready_resume (opts : BrokerOptions) (outcome : Outcome) (requester : Requester) :
  Ready b (b.resume opts outcome (.request requester))
  := by
  cases requester with
  | caller call => exact ⟨rfl, rfl, rfl, rfl, rfl, rfl, rfl, rfl, rfl⟩
  | agent call conn frameId => apply Ready.safeSend

end Broker

theorem CallsApart.spent {b : Broker} (hb : CallsApart b) (opts : BrokerOptions)
    {requester : Requester} {outcome : Outcome} {jobs : List Job}
    (h : b.jobs = ⟨.request requester, outcome⟩ :: jobs) :
  Spent requester.call (b.handle opts .job)
  := by
  have hold := hb requester.call
  have hhead : b.awaiting requester.call =
      ({ b with jobs } : Broker).awaiting requester.call + 1 := by
    simp [Broker.awaiting, h, Waiter.awaits, Waiter.requester]
    omega
  have hready := ({ b with jobs } : Broker).ready_resume opts outcome requester
  have hseq := b.callSeq_handle opts .job
  constructor
  · grind
  · rw [b.handle_job h, Broker.awaiting_of_same hready.pending hready.jobs]
    grind

/-- Nothing that a call waits for is pending, or due. -/
theorem Broker.not_awaits {b : Broker} {call : ℕ} (h : b.awaiting call = 0) :
  (∀ reqId p, b.pending.get reqId = some p → p.waiter.awaits call = false) ∧
    ∀ job ∈ b.jobs, job.waiter.awaits call = false
  := by
  obtain ⟨hpending, hjobs⟩ := Nat.add_eq_zero_iff.mp h
  constructor
  · intro reqId p hp
    rw [← Bool.not_eq_true]
    apply List.countP_eq_zero.mp hpending
    apply List.mem_map_of_mem (JsMap.get_eq_some.mp hp)
  · intro job hjob
    rw [← Bool.not_eq_true]
    apply List.countP_eq_zero.mp hjobs job hjob

theorem CallsApart.not_awaits {b : Broker} (hb : CallsApart b) :
  (∀ reqId p, b.pending.get reqId = some p → p.waiter.awaits b.callSeq = false) ∧
    ∀ job ∈ b.jobs, job.waiter.awaits b.callSeq = false
  := by
  apply Broker.not_awaits
  have hnone := hb b.callSeq
  rw [if_neg (Nat.lt_irrefl _)] at hnone
  apply Nat.le_zero.mp hnone

/-! ### What waits after an event -/

/-- What the promise of a command settles with at a step, and why. -/
inductive Decides (step : Broker × BrokerEvent) (promise : ℕ) (waiter : Waiter) :
    Outcome → Prop where
  | concluded {reqId : String} {p : Pending} {outcome : Outcome} :
      step.1.pending.get reqId = some p → p.promise = promise → p.waiter = waiter →
      Concludes step.1 step.2 reqId p outcome → Decides step promise waiter outcome
  | givenUp {reqId : String} {p : Pending} {err : BrokerError} :
      step.1.pending.get reqId = some p → p.promise = promise → p.waiter = waiter →
      GivesUp step.1 step.2 reqId p err → Decides step promise waiter (.error err)
  | undelivered {b : Broker} {executor : ExecutorInfo} {agentId : String} {cmd : Command}
      {signal : Option ℕ} {message : String} : step.1.promiseSeq = promise →
      Origin step.1 step.2 b executor agentId cmd signal waiter →
      step.1.broken.get executor.conn = some message →
      Decides step promise waiter
        (.error ⟨s!"failed to deliver '{cmd.action.name}': {message}", some "send_failed"⟩)

/-- A command that an event dispatches. -/
def Enters (b : Broker) (e : BrokerEvent) (p : Pending) : Prop :=
  ∃ b' executor agentId cmd signal, Origin b e b' executor agentId cmd signal p.waiter ∧
    p.promise = b.promiseSeq ∧ p.executorId = executor.id

/-- A job that an event adds. -/
inductive Arises (b : Broker) (e : BrokerEvent) : Job → Prop where
  | atOnce {a : Ask} {outcome : Outcome} : b.asks e = some a → AtOnce b a outcome →
      Arises b e ⟨.request a.requester, outcome⟩
  | gathered {groups : List (TabGroup × String)} {requester : Requester} :
      Gathers b e groups requester → Arises b e ⟨.request requester, .ok (.tabs groups)⟩
  | decided {promise : ℕ} {waiter : Waiter} {outcome : Outcome} :
      Decides (b, e) promise waiter outcome → Arises b e ⟨waiter, outcome⟩

/-- All that waits in a broker did so before an event, or the event accounts for it. -/
structure Accounted (b : Broker) (e : BrokerEvent) (b' : Broker) : Prop where
  pending : ∀ reqId p, b'.pending.get reqId = some p →
    b.pending.get reqId = some p ∨ Enters b e p
  jobs : ∀ job ∈ b'.jobs, job ∈ b.jobs ∨ Arises b e job

theorem promiseSeq_started (b : Broker) (e : BrokerEvent) :
  (b.started e).promiseSeq = b.promiseSeq
  := by
  cases e <;> rfl

theorem broken_started (b : Broker) (e : BrokerEvent) :
  (b.started e).broken = b.broken
  := by
  cases e <;> rfl

namespace Accounted

variable {b b' b'' : Broker} {e : BrokerEvent}

theorem refl (b : Broker) (e : BrokerEvent) :
  Accounted b e b
  := ⟨fun _ _ hp => .inl hp, fun _ hjob => .inl hjob⟩

theorem same (h : Accounted b e b') (hpending : b''.pending = b'.pending)
    (hjobs : ∀ job ∈ b''.jobs, job ∈ b'.jobs) :
  Accounted b e b''
  := by
  constructor
  · rw [hpending]
    apply h.pending
  · exact fun job hjob => h.jobs job (hjobs job hjob)

theorem ready (h : Accounted b e b') (hready : Ready b' b'') :
  Accounted b e b''
  := by
  apply h.same hready.pending
  rw [hready.jobs]
  exact fun job hjob => hjob

theorem addJob (h : Accounted b e b') {waiter : Waiter} {outcome : Outcome}
    (harises : Arises b e ⟨waiter, outcome⟩) :
  Accounted b e (b'.addJob waiter outcome)
  := by
  use h.pending
  intro job hjob
  obtain hjob | hjob := List.mem_append.mp hjob
  · apply h.jobs job hjob
  · obtain rfl := List.mem_singleton.mp hjob
    apply Or.inr harises

theorem settle (h : Accounted b e b') {reqId : String} {p : Pending}
    (hp : b'.pending.get reqId = some p) {outcome : Outcome}
    (hdecides : Decides (b, e) p.promise p.waiter outcome) :
  Accounted b e ((b'.clearPending reqId).settle p outcome)
  := by
  rw [b'.settle_eq hp]
  constructor
  · exact fun id q hq => h.pending id q (JsMap.get_of_get_delete hq)
  · apply (h.addJob (.decided hdecides)).jobs

theorem settleReject (h : Accounted b e b') (reqId : String) (err : BrokerError)
    (hdecides : ∀ p, b'.pending.get reqId = some p →
      Decides (b, e) p.promise p.waiter (.error err)) :
  Accounted b e (b'.settleReject reqId err)
  := by
  unfold Broker.settleReject
  split
  · apply h
  · next p hp => apply h.settle hp (hdecides p hp)

theorem abandon (h : Accounted b e b') (reqId : String) (err : BrokerError)
    (hdecides : ∀ p, b'.pending.get reqId = some p →
      Decides (b, e) p.promise p.waiter (.error err)) :
  Accounted b e (b'.abandon reqId err)
  := by
  unfold Broker.abandon
  split
  · apply h
  · split
    · apply h.settleReject reqId err hdecides
    · next exec _ =>
        have hready := Ready.safeSend b' exec.conn (.cancel reqId)
        apply (h.ready hready).settleReject reqId err
        rw [hready.pending]
        apply hdecides

theorem dispatch (h : Accounted b e b') (hready : Ready (b.started e) b') (opts : BrokerOptions)
    {executor : ExecutorInfo} {agentId : String} {cmd : Command} {signal : Option ℕ}
    {waiter : Waiter} (horigin : Origin b e b' executor agentId cmd signal waiter) :
  Accounted b e (b'.dispatch opts executor agentId cmd signal waiter)
  := by
  have hpromise : b'.promiseSeq = b.promiseSeq := by
    rw [hready.promiseSeq, promiseSeq_started]
  obtain ⟨timers, timerSeq, timer, listeners, listenerSeq, detachAbort, heq, -⟩ := b'.enter_eq
    opts executor agentId cmd signal waiter (correlationId (nextIdCounter b'.idCounter))
  have henter : Accounted b e (b'.enter opts executor agentId cmd signal waiter
      (correlationId (nextIdCounter b'.idCounter))) := by
    rw [heq]
    use fun id p hp => ?_, h.jobs
    rw [JsMap.get_set] at hp
    split at hp
    · obtain rfl := Option.some.inj hp
      exact .inr ⟨b', executor, agentId, cmd, signal, horigin, hpromise, rfl⟩
    · apply h.pending id p hp
  simp only [Broker.dispatch]
  split
  · next message hmessage =>
      apply henter.settleReject
      intro p hp
      rw [heq, JsMap.get_set_self] at hp
      obtain rfl := Option.some.inj hp
      rw [hready.broken, broken_started] at hmessage
      apply Decides.undelivered hpromise.symm horigin hmessage
  · apply henter.same
    · rfl
    · exact fun job hjob => hjob

/-- What a change makes wait is accounted for. -/
theorem change (h : Accounted b e b') {opts : BrokerOptions} {c : Change}
    (hallowed : Allowed b e b' c) (hc : c.Does opts b' b'') :
  Accounted b e b''
  := by
  cases c with
  | idle => apply h.same (Idle.pending hc) ((Idle.jobs hc) ▸ fun job hjob => hjob)
  | frame conn f =>
      obtain rfl := hc
      apply h.ready (Ready.safeSend _ _ _)
  | takeJob =>
      obtain ⟨job, jobs, hjobs, rfl⟩ := hc
      apply h.same
      · rfl
      · intro job' hjob'
        rw [hjobs]
        apply List.mem_cons_of_mem job hjob'
  | reply conn frameId outcome =>
      obtain rfl := hc
      apply h.ready (Ready.safeSend _ _ _)
  | addJob requester outcome =>
      obtain rfl := hc
      apply h.addJob
      obtain ⟨-, ⟨a, hasks, rfl, hatOnce⟩ | ⟨groups, hgathers, rfl⟩⟩ := hallowed
      · apply Arises.atOnce hasks hatOnce
      · apply Arises.gathered hgathers
  | dispatch executor agentId cmd signal waiter =>
      obtain rfl := hc
      apply h.dispatch hallowed.1 opts hallowed.2
  | settle reqId outcome =>
      obtain ⟨p, hp, rfl⟩ := hc
      obtain ⟨q, hold, hq, hconcludes⟩ := hallowed
      rw [hp] at hq
      obtain rfl := Option.some.inj hq
      apply h.settle hp
      apply Decides.concluded hold rfl rfl hconcludes
  | giveUp reqId err =>
      obtain rfl := hc
      apply h.abandon reqId err
      intro p hp
      apply Decides.givenUp (hallowed.1.pending reqId p hp) rfl rfl (hallowed.2 p hp)
  | _ =>
      obtain rfl := hc
      apply h.same
      · rfl
      · exact fun job hjob => hjob

end Accounted

theorem accounted (opts : BrokerOptions) (b : Broker) (e : BrokerEvent) :
  Accounted b e (b.handle opts e)
  := by
  apply (handles opts b e).preserves (I := Accounted b e)
  · exact fun b' c b'' h hallowed hc => h.change hallowed hc
  · apply Accounted.refl

end Browser
