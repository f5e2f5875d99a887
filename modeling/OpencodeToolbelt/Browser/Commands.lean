import OpencodeToolbelt.Browser.Broker

/-!
# What handling a command can do

The handlers of the broker change its registry, the maps of who is connected and who owns
what, at a few places. Everything else they do is to settle commands that are pending, and to
dispatch at most one.
-/

namespace Browser

/-- Two brokers with the same registry. -/
structure SameRegistry (b b' : Broker) : Prop where
  executors : b'.executors = b.executors
  executorById : b'.executorById = b.executorById
  agents : b'.agents = b.agents
  groupOwner : b'.groupOwner = b.groupOwner
  primaryExecutorId : b'.primaryExecutorId = b.primaryExecutorId
  localAgents : b'.localAgents = b.localAgents
  opened : b'.opened = b.opened

/-- A change of the broker that at most takes commands out of `pending`, and settles them. -/
structure Clears (b b' : Broker) : Prop extends SameRegistry b b' where
  pending : ∀ reqId p, b'.pending.get reqId = some p → b.pending.get reqId = some p
  removed : ∀ reqId p, b.pending.get reqId = some p →
    b'.pending.get reqId = some p ∨ p.promise ∈ b'.settled
  settled : ∀ promise ∈ b.settled, promise ∈ b'.settled
  dispatched : b'.dispatched = b.dispatched
  promiseSeq : b'.promiseSeq = b.promiseSeq
  idCounter : b'.idCounter = b.idCounter

/-- A change of the broker after which no more groups are reported. -/
structure Settles (b b' : Broker) : Prop extends Clears b b' where
  jobs : ∀ job ∈ b'.jobs, job ∈ b.jobs ∨ Broker.reportedGroups job.outcome = []

/-- A change of the broker that leaves all commands alone. -/
structure KeepsCommands (b b' : Broker) : Prop where
  pending : b'.pending = b.pending
  jobs : b'.jobs = b.jobs
  settled : b'.settled = b.settled
  dispatched : b'.dispatched = b.dispatched
  promiseSeq : b'.promiseSeq = b.promiseSeq
  idCounter : b'.idCounter = b.idCounter

theorem KeepsCommands.trans {b b' b'' : Broker} (h : KeepsCommands b b')
    (h' : KeepsCommands b' b'') :
  KeepsCommands b b''
  := by
  constructor
  · rw [h'.pending, h.pending]
  · rw [h'.jobs, h.jobs]
  · rw [h'.settled, h.settled]
  · rw [h'.dispatched, h.dispatched]
  · rw [h'.promiseSeq, h.promiseSeq]
  · rw [h'.idCounter, h.idCounter]

namespace SameRegistry

theorem refl (b : Broker) :
  SameRegistry b b
  := ⟨rfl, rfl, rfl, rfl, rfl, rfl, rfl⟩

theorem trans {b b' b'' : Broker} (h : SameRegistry b b') (h' : SameRegistry b' b'') :
  SameRegistry b b''
  := by
  constructor
  · rw [h'.executors, h.executors]
  · rw [h'.executorById, h.executorById]
  · rw [h'.agents, h.agents]
  · rw [h'.groupOwner, h.groupOwner]
  · rw [h'.primaryExecutorId, h.primaryExecutorId]
  · rw [h'.localAgents, h.localAgents]
  · rw [h'.opened, h.opened]

end SameRegistry

theorem Clears.trans {b b' b'' : Broker} (h : Clears b b') (h' : Clears b' b'') :
  Clears b b''
  := by
  refine ⟨h.toSameRegistry.trans h'.toSameRegistry, ?_, ?_, ?_, ?_, ?_, ?_⟩
  · intro reqId p hp
    apply h.pending reqId p (h'.pending reqId p hp)
  · intro reqId p hp
    obtain hp | hp := h.removed reqId p hp
    · apply h'.removed reqId p hp
    · right
      apply h'.settled _ hp
  · intro promise hn
    apply h'.settled promise (h.settled promise hn)
  · rw [h'.dispatched, h.dispatched]
  · rw [h'.promiseSeq, h.promiseSeq]
  · rw [h'.idCounter, h.idCounter]

namespace Settles

/-- A change that leaves the commands alone. -/
theorem of_same {b b' : Broker} (h : SameRegistry b b') (hpending : b'.pending = b.pending)
    (hsettled : b'.settled = b.settled) (hdispatched : b'.dispatched = b.dispatched)
    (hpromise : b'.promiseSeq = b.promiseSeq) (hid : b'.idCounter = b.idCounter)
    (hjobs : ∀ job ∈ b'.jobs, job ∈ b.jobs ∨ Broker.reportedGroups job.outcome = []) :
  Settles b b'
  := by
  refine ⟨⟨h, ?_, ?_, ?_, hdispatched, hpromise, hid⟩, hjobs⟩
  · rw [hpending]
    exact fun _ _ hp => hp
  · rw [hpending]
    exact fun _ _ hp => .inl hp
  · rw [hsettled]
    exact fun _ hn => hn

theorem refl (b : Broker) :
  Settles b b
  := of_same (.refl b) rfl rfl rfl rfl rfl fun _ h => .inl h

theorem trans {b b' b'' : Broker} (h : Settles b b') (h' : Settles b' b'') :
  Settles b b''
  := by
  use h.toClears.trans h'.toClears
  intro job hjob
  obtain hjob | hjob := h'.jobs job hjob
  · apply h.jobs job hjob
  · exact .inr hjob

theorem foldl {α : Type} {act : Broker → α → Broker} (hact : ∀ b a, Settles b (act b a))
    (l : List α) (b : Broker) :
  Settles b (l.foldl act b)
  := by
  induction l generalizing b with
  | nil => apply refl
  | cons a l ih => apply (hact b a).trans (ih _)

end Settles

namespace Broker

variable (b : Broker)

/-! ### Sending and settling -/

theorem settles_safeSend (conn : ℕ) (frame : ServerFrame) :
  Settles b (b.safeSend conn frame)
  := by
  unfold safeSend
  split
  · apply Settles.refl
  · exact .of_same ⟨rfl, rfl, rfl, rfl, rfl, rfl, rfl⟩ rfl rfl rfl rfl rfl fun _ h => .inl h

theorem settles_closeConnection (conn : ℕ) :
  Settles b (b.closeConnection conn)
  := .of_same ⟨rfl, rfl, rfl, rfl, rfl, rfl, rfl⟩ rfl rfl rfl rfl rfl fun _ h => .inl h

theorem settles_addJob (waiter : Waiter) {outcome : Outcome} (h : reportedGroups outcome = []) :
  Settles b (b.addJob waiter outcome)
  := by
  refine .of_same ⟨rfl, rfl, rfl, rfl, rfl, rfl, rfl⟩ rfl rfl rfl rfl rfl fun job hjob => ?_
  obtain hjob | hjob := List.mem_append.mp hjob
  · exact .inl hjob
  · obtain rfl := List.mem_singleton.mp hjob
    exact .inr h

theorem pending_clearPending (reqId : String) :
  (b.clearPending reqId).pending = b.pending.delete reqId ∨
    b.pending.get reqId = none ∧ b.clearPending reqId = b
  := by
  unfold clearPending
  split
  · next h => exact .inr ⟨h, rfl⟩
  · exact .inl rfl

/-- A command is taken out of `pending`, and its promise settles. -/
theorem clears_settle {reqId : String} {p : Pending} (hp : b.pending.get reqId = some p)
    (outcome : Outcome) :
  Clears b ((b.clearPending reqId).settle p outcome)
  := by
  have hclear : b.clearPending reqId =
      { b.disarm p with pending := b.pending.delete reqId } := by
    simp only [clearPending, hp, disarm]
  rw [hclear]
  refine ⟨⟨rfl, rfl, rfl, rfl, rfl, rfl, rfl⟩, ?_, ?_, ?_, rfl, rfl, rfl⟩
  · intro reqId' q hq
    change (b.pending.delete reqId).get reqId' = some q at hq
    rw [JsMap.get_delete] at hq
    split at hq
    · cases hq
    · apply hq
  · intro reqId' q hq
    by_cases heq : reqId' = reqId
    · subst heq
      rw [hp] at hq
      obtain rfl := Option.some.inj hq
      right
      apply List.mem_cons_self
    · left
      change (b.pending.delete reqId).get reqId' = some q
      rwa [JsMap.get_delete_of_ne _ heq]
  · exact fun promise hn => List.mem_cons_of_mem _ hn

/-- The job of a command that settles is added to the jobs. -/
theorem jobs_settle (reqId : String) (p : Pending) (outcome : Outcome) :
  ((b.clearPending reqId).settle p outcome).jobs = b.jobs ++ [⟨p.waiter, outcome⟩]
  := by
  unfold clearPending
  split <;> rfl

theorem settles_settleReject (reqId : String) (err : BrokerError) :
  Settles b (b.settleReject reqId err)
  := by
  unfold settleReject
  split
  · apply Settles.refl
  · next p hp =>
      use b.clears_settle hp _
      intro job hjob
      rw [jobs_settle] at hjob
      obtain hjob | hjob := List.mem_append.mp hjob
      · exact .inl hjob
      · obtain rfl := List.mem_singleton.mp hjob
        exact .inr rfl

theorem settles_abandon (reqId : String) (err : BrokerError) :
  Settles b (b.abandon reqId err)
  := by
  unfold abandon
  split
  · apply Settles.refl
  · split
    · apply settles_settleReject
    · apply (b.settles_safeSend _ _).trans
      apply settles_settleReject

theorem settles_settleAll (p : Pending → Bool) {act : Broker → String → Broker}
    (hact : ∀ b reqId, Settles b (act b reqId)) :
  Settles b (b.settleAll p act)
  := by
  apply Settles.foldl
  intro b e
  split
  · apply hact
  · apply Settles.refl

/-- A result settles the command it is for. -/
theorem clears_handleResult (id : String) (ok : Bool) (data : Option ResultData)
    (error : Option ResultError) :
  Clears b (b.handleResult id ok data error)
  := by
  unfold handleResult
  split
  · exact (Settles.refl b).toClears
  · next p hp => apply b.clears_settle hp

/-- What waits for a command that was pending is all that a result lets run. -/
theorem jobs_handleResult (id : String) (ok : Bool) (data : Option ResultData)
    (error : Option ResultError) :
  ∀ job ∈ (b.handleResult id ok data error).jobs, job ∈ b.jobs ∨
    ∃ reqId p, b.pending.get reqId = some p ∧ p.waiter = job.waiter
  := by
  intro job hjob
  unfold handleResult at hjob
  split at hjob
  · exact .inl hjob
  · next p hp =>
      rw [jobs_settle] at hjob
      obtain hjob | hjob := List.mem_append.mp hjob
      · exact .inl hjob
      · obtain rfl := List.mem_singleton.mp hjob
        right
        use id, p, hp

theorem settles_routeEvent (frame : EventFrame) :
  Settles b (b.routeEvent frame)
  := by
  apply Settles.foldl
  intro b agent
  split
  · apply settles_safeSend
  · apply Settles.refl

/-! ### Timers and signals -/

theorem settles_fireTimer (timer : ℕ) :
  Settles b (b.fireTimer timer)
  := by
  unfold fireTimer
  split
  · apply Settles.refl
  · apply Settles.trans _ (settles_abandon _ _ _)
    exact .of_same ⟨rfl, rfl, rfl, rfl, rfl, rfl, rfl⟩ rfl rfl rfl rfl rfl fun _ h => .inl h

theorem settles_fireListener (listener : ℕ) :
  Settles b (b.fireListener listener)
  := by
  unfold fireListener
  split
  · apply Settles.refl
  · apply Settles.trans _ (settles_abandon _ _ _)
    exact .of_same ⟨rfl, rfl, rfl, rfl, rfl, rfl, rfl⟩ rfl rfl rfl rfl rfl fun _ h => .inl h

theorem settles_abort (signal : ℕ) :
  Settles b (b.abort signal)
  := by
  apply Settles.trans _ (Settles.foldl settles_fireListener _ _)
  exact .of_same ⟨rfl, rfl, rfl, rfl, rfl, rfl, rfl⟩ rfl rfl rfl rfl rfl fun _ h => .inl h

/-- What a frame other than a hello does. -/
def handleFrame (opts : BrokerOptions) (conn : ℕ) (frame : ClientFrame) : Broker :=
  match b.executors.get conn with
  | some _ => b.handleExecutorFrame conn frame
  | none =>
      match b.agents.get conn with
      | some agent => b.handleAgentFrame opts agent conn frame
      | none => b

/-! ### Settling all commands with a property -/

theorem get_settleReject_self (reqId : String) (err : BrokerError) :
  (b.settleReject reqId err).pending.get reqId = none
  := by
  unfold settleReject
  split
  · assumption
  · next p hp =>
      have hdelete := (b.pending_clearPending reqId).resolve_right (by simp [hp])
      change (b.clearPending reqId).pending.get reqId = none
      rw [hdelete, JsMap.get_delete_self]

theorem get_abandon_self (reqId : String) (err : BrokerError) :
  (b.abandon reqId err).pending.get reqId = none
  := by
  unfold abandon
  split
  · assumption
  · split <;> apply get_settleReject_self

/-- No command with the property is left. -/
theorem get_settleAll {p : Pending → Bool} {act : Broker → String → Broker}
    (hact : ∀ b reqId, Settles b (act b reqId))
    (hself : ∀ b reqId, (act b reqId).pending.get reqId = none) {reqId : String} {q : Pending}
    (hq : (b.settleAll p act).pending.get reqId = some q) :
  p q = false
  := by
  have hsettles : ∀ (b : Broker) (e : String × Pending),
      Settles b (if p e.2 then act b e.1 else b) := by
    intro b e
    split
    · apply hact
    · apply Settles.refl
  have hfold : ∀ (l : List (String × Pending)) (b : Broker), (reqId, q) ∈ l →
      (l.foldl (fun b e => if p e.2 then act b e.1 else b) b).pending.get reqId = some q →
      p q = false := by
    intro l
    induction l with
    | nil => exact fun _ h => (List.not_mem_nil h).elim
    | cons e l ih =>
        intro b hmem hget
        obtain rfl | hmem := List.mem_cons.mp hmem
        · by_contra hp
          have hkept := (Settles.foldl hsettles l _).pending reqId q hget
          simp only [Bool.of_not_eq_false hp, if_true, hself] at hkept
          cases hkept
        · apply ih _ hmem hget
  apply hfold b.pending.entries b _ hq
  apply JsMap.mem_entries_of_get
  apply (settles_settleAll b p hact).pending reqId q hq

/-! ### Dispatching -/

theorem enter_pending (opts : BrokerOptions) (executor : ExecutorInfo) (agentId : String)
    (cmd : Command) (signal : Option ℕ) (waiter : Waiter) (reqId : String) :
  ∃ p : Pending, (b.enter opts executor agentId cmd signal waiter reqId).pending =
      b.pending.set reqId p ∧
    p.promise = b.promiseSeq ∧ p.executorId = executor.id ∧ p.waiter = waiter
  := ⟨_, rfl, rfl, rfl, rfl⟩

theorem setTimer_same (opts : BrokerOptions) (cmd : Command) (reqId : String) :
  SameRegistry b (b.setTimer opts cmd reqId).1 ∧ (b.setTimer opts cmd reqId).1.jobs = b.jobs ∧
    (b.setTimer opts cmd reqId).1.settled = b.settled
  := by
  by_cases h : 0 < timeoutFor opts cmd.timeoutMs
  · rw [setTimer, if_pos h]
    exact ⟨⟨rfl, rfl, rfl, rfl, rfl, rfl, rfl⟩, rfl, rfl⟩
  · rw [setTimer, if_neg h]
    exact ⟨.refl b, rfl, rfl⟩

theorem addListener_same (signal : Option ℕ) (reqId : String) :
  SameRegistry b (b.addListener signal reqId).1 ∧
    (b.addListener signal reqId).1.jobs = b.jobs ∧
    (b.addListener signal reqId).1.settled = b.settled
  := by
  cases signal with
  | none => exact ⟨.refl b, rfl, rfl⟩
  | some signal => exact ⟨⟨rfl, rfl, rfl, rfl, rfl, rfl, rfl⟩, rfl, rfl⟩

theorem enter_same (opts : BrokerOptions) (executor : ExecutorInfo) (agentId : String)
    (cmd : Command) (signal : Option ℕ) (waiter : Waiter) (reqId : String) :
  SameRegistry b (b.enter opts executor agentId cmd signal waiter reqId) ∧
    (b.enter opts executor agentId cmd signal waiter reqId).jobs = b.jobs ∧
    (b.enter opts executor agentId cmd signal waiter reqId).settled = b.settled
  := by
  obtain ⟨htimed, hjobs, hsettled⟩ :=
    { b with idCounter := nextIdCounter b.idCounter }.setTimer_same opts cmd reqId
  obtain ⟨hlistening, hjobs', hsettled'⟩ := ({ b with
    idCounter := nextIdCounter b.idCounter }.setTimer opts cmd reqId).1.addListener_same signal reqId
  have hsame := htimed.trans hlistening
  exact ⟨⟨hsame.1, hsame.2, hsame.3, hsame.4, hsame.5, hsame.6, hsame.7⟩,
    hjobs'.trans hjobs, hsettled'.trans hsettled⟩

end Broker

/-- A change of the broker by which at most one command is dispatched, to an executor. The id
of the command may be that of another one, once the counter has come round. -/
structure Sends (executor : ExecutorInfo) (waiter : Waiter) (b b' : Broker) : Prop
    extends SameRegistry b b' where
  pending : ∀ reqId p, b'.pending.get reqId = some p → b.pending.get reqId = some p ∨
    p.executorId = executor.id ∧ p.waiter = waiter ∧ (p.promise, executor.conn) ∈ b'.dispatched
  removed : ∀ reqId p, b.pending.get reqId = some p → b'.pending.get reqId = some p ∨
    p.promise ∈ b'.settled ∨ reqId = correlationId (nextIdCounter b.idCounter)
  settled : ∀ promise ∈ b.settled, promise ∈ b'.settled
  kept : ∀ d ∈ b.dispatched, d ∈ b'.dispatched
  dispatched : ∀ d ∈ b'.dispatched, d ∈ b.dispatched ∨
    d = (b.promiseSeq, executor.conn) ∧ b.promiseSeq < b'.promiseSeq ∧
      (d.1 ∈ b'.settled ∨ ∃ reqId p, b'.pending.get reqId = some p ∧ p.promise = d.1 ∧
        p.executorId = executor.id)
  promiseSeq : b.promiseSeq ≤ b'.promiseSeq
  jobs : ∀ job ∈ b'.jobs, job ∈ b.jobs ∨ Broker.reportedGroups job.outcome = []

/-- A change that settles commands dispatches none. -/
theorem Settles.sends {b b' : Broker} (h : Settles b b') (executor : ExecutorInfo)
    (waiter : Waiter) :
  Sends executor waiter b b'
  := by
  refine ⟨h.toSameRegistry, ?_, ?_, h.settled, ?_, ?_, ?_, h.jobs⟩
  · exact fun reqId p hp => .inl (h.pending reqId p hp)
  · exact fun reqId p hp => (h.removed reqId p hp).imp_right .inl
  · rw [h.dispatched]
    exact fun _ hd => hd
  · rw [h.dispatched]
    exact fun _ hd => .inl hd
  · rw [h.promiseSeq]

/-- A command that is dispatched may settle at once. -/
theorem Sends.settles {executor : ExecutorInfo} {waiter : Waiter} {b b' b'' : Broker}
    (h : Sends executor waiter b b') (h' : Settles b' b'') :
  Sends executor waiter b b''
  := by
  refine ⟨h.toSameRegistry.trans h'.toSameRegistry, ?_, ?_, ?_, ?_, ?_, ?_, ?_⟩
  · rw [h'.dispatched]
    exact fun reqId p hp => h.pending reqId p (h'.pending reqId p hp)
  · intro reqId p hp
    obtain hp | hp | hp := h.removed reqId p hp
    · apply (h'.removed reqId p hp).imp_right .inl
    · right; left
      apply h'.settled _ hp
    · right; right
      apply hp
  · exact fun promise hn => h'.settled promise (h.settled promise hn)
  · rw [h'.dispatched]
    apply h.kept
  · intro d hd
    rw [h'.dispatched] at hd
    obtain hd | ⟨heq, hlt, hd⟩ := h.dispatched d hd
    · exact .inl hd
    · rw [h'.promiseSeq]
      refine .inr ⟨heq, hlt, ?_⟩
      obtain hd | ⟨reqId, p, hp, hpromise, hexecutor⟩ := hd
      · left
        apply h'.settled _ hd
      · obtain hp | hp := h'.removed reqId p hp
        · right
          use reqId, p, hp, hpromise, hexecutor
        · left
          rwa [hpromise] at hp
  · rw [h'.promiseSeq]
    apply h.promiseSeq
  · intro job hjob
    obtain hjob | hjob := h'.jobs job hjob
    · apply h.jobs job hjob
    · exact .inr hjob

namespace Broker

variable (b : Broker)

theorem sends_enter (opts : BrokerOptions) (executor : ExecutorInfo) (agentId : String)
    (cmd : Command) (signal : Option ℕ) (waiter : Waiter) :
  Sends executor waiter b (b.enter opts executor agentId cmd signal waiter
    (correlationId (nextIdCounter b.idCounter)))
  := by
  obtain ⟨p, hset, hpromise, hexecutor, hwaiter⟩ := b.enter_pending opts executor agentId cmd
    signal waiter (correlationId (nextIdCounter b.idCounter))
  obtain ⟨hsame, hjobs, hsettled⟩ := b.enter_same opts executor agentId cmd
    signal waiter (correlationId (nextIdCounter b.idCounter))
  refine ⟨hsame, ?_, ?_, ?_, ?_, ?_, ?_, ?_⟩
  · intro reqId q hq
    rw [hset, JsMap.get_set] at hq
    split at hq
    · obtain rfl := Option.some.inj hq
      right
      use hexecutor, hwaiter
      rw [hpromise]
      apply List.mem_cons_self
    · exact .inl hq
  · intro reqId q hq
    by_cases heq : reqId = correlationId (nextIdCounter b.idCounter)
    · exact .inr (.inr heq)
    · left
      rwa [hset, JsMap.get_set_of_ne _ heq]
  · rw [hsettled]
    exact fun _ hn => hn
  · exact fun d hd => List.mem_cons_of_mem _ hd
  · intro d hd
    obtain rfl | hd := List.mem_cons.mp hd
    · refine .inr ⟨rfl, Nat.lt_succ_self _, .inr ?_⟩
      use correlationId (nextIdCounter b.idCounter), p
      rw [hset, JsMap.get_set_self]
      exact ⟨rfl, hpromise, hexecutor⟩
    · exact .inl hd
  · apply Nat.le_succ
  · rw [hjobs]
    exact fun _ hjob => .inl hjob

/-- A command is dispatched, or settles at once. -/
theorem sends_sendToExecutor (opts : BrokerOptions) (executor : ExecutorInfo) (agentId : String)
    (cmd : Command) (signal : Option ℕ) (waiter : Waiter) :
  Sends executor waiter b (b.sendToExecutor opts executor agentId cmd signal waiter)
  := by
  unfold sendToExecutor
  split
  · exact (b.settles_addJob waiter rfl).sends executor waiter
  · have henter := b.sends_enter opts executor agentId cmd signal waiter
    simp only [dispatch]
    split
    · apply henter.settles (settles_settleReject _ _ _)
    · apply henter.settles
      exact .of_same ⟨rfl, rfl, rfl, rfl, rfl, rfl, rfl⟩ rfl rfl rfl rfl rfl fun _ h => .inl h

end Broker

end Browser
