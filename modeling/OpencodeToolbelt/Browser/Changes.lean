import OpencodeToolbelt.Browser.Registry

/-!
# What an event makes the broker do

The handling of an event is a sequence of changes of a few kinds: something that no command
takes part in, a frame, a command that is dispatched, settled or given up, a job. Which
changes an event allows is said once, for all events.
-/

namespace Browser

/-! ### Changes -/

/-- A change that no command takes part in. -/
structure Idle (b b' : Broker) : Prop where
  pending : b'.pending = b.pending
  idCounter : b'.idCounter = b.idCounter
  timers : b'.timers = b.timers
  timerSeq : b'.timerSeq = b.timerSeq
  listeners : b'.listeners = b.listeners
  listenerSeq : b'.listenerSeq = b.listenerSeq
  jobs : b'.jobs = b.jobs
  sent : b'.sent = b.sent
  returned : b'.returned = b.returned
  promiseSeq : b'.promiseSeq = b.promiseSeq
  dispatched : b'.dispatched = b.dispatched
  minted : b'.minted = b.minted
  settled : b'.settled = b.settled
  outcomes : b'.outcomes = b.outcomes
  callSeq : b.callSeq ≤ b'.callSeq

/-- A frame that is no command, no cancellation and no result. -/
def ServerFrame.Plain : ServerFrame → Prop
  | .command _ _ _ _ => False
  | .result _ _ => False
  | .cancel _ => False
  | _ => True

/-- The outcome of a command as its result reports it. -/
def reported : Outcome → Except ResultError Reply
  | .ok reply => .ok reply
  | .error err => .error ⟨err.message, err.code⟩

/-- The outcome of a command that an executor's result settles. -/
def resultOutcome (ok : Bool) (data : Option ResultData) (error : Option ResultError) : Outcome :=
  if ok then .ok (.data data)
  else
    .error
      { message := (error.map ResultError.message).getD "executor error"
        code := error.bind ResultError.code }

inductive Change where
  | idle
  | frame (conn : ℕ) (frame : ServerFrame)
  | takeJob
  | reply (conn : ℕ) (frameId : String) (outcome : Outcome)
  | return (call : ℕ) (outcome : Outcome)
  | addJob (requester : Requester) (outcome : Outcome)
  | dispatch (executor : ExecutorInfo) (agentId : String) (cmd : Command) (signal : Option ℕ)
      (waiter : Waiter)
  | settle (reqId : String) (outcome : Outcome)
  | giveUp (reqId : String) (err : BrokerError)
  | expire (timer : ℕ)
  | deafen (listener : ℕ)

/-- What a change does. -/
def Change.Does (opts : BrokerOptions) (b b' : Broker) : Change → Prop
  | .idle => Idle b b'
  | .frame conn f => b' = b.safeSend conn f
  | .takeJob => ∃ job jobs, b.jobs = job :: jobs ∧ b' = { b with jobs }
  | .reply conn frameId outcome => b' = b.safeSend conn (.result frameId (reported outcome))
  | .return call outcome => b' = { b with returned := (call, outcome) :: b.returned }
  | .addJob requester outcome => b' = b.addJob (.request requester) outcome
  | .dispatch executor agentId cmd signal waiter =>
      b' = b.dispatch opts executor agentId cmd signal waiter
  | .settle reqId outcome =>
      ∃ p, b.pending.get reqId = some p ∧ b' = (b.clearPending reqId).settle p outcome
  | .giveUp reqId err => b' = b.abandon reqId err
  | .expire timer => b' = { b with timers := b.timers.delete timer }
  | .deafen listener => b' = { b with listeners := b.listeners.delete listener }

/-- The frame that a change sends, if that does not throw. -/
def Change.Sends (b : Broker) (conn : ℕ) (frame : ServerFrame) : Change → Prop
  | .frame conn' f => conn' = conn ∧ f = frame
  | .reply conn' frameId outcome => conn' = conn ∧ .result frameId (reported outcome) = frame
  | .dispatch executor _ cmd _ _ =>
      executor.conn = conn ∧
        .command (correlationId (nextIdCounter b.idCounter)) cmd.action cmd.group cmd.params = frame
  | .giveUp reqId _ =>
      .cancel reqId = frame ∧ ∃ p exec, b.pending.get reqId = some p ∧
        b.executorById.get p.executorId = some exec ∧ exec.conn = conn
  | _ => False

/-- Changes one after the other, each of which is permitted in the state it changes. -/
inductive Work (opts : BrokerOptions) (P : Broker → Change → Prop) : Broker → Broker → Prop where
  | refl (b : Broker) : Work opts P b b
  | change {b b' b'' : Broker} (c : Change) :
      P b c → c.Does opts b b' → Work opts P b' b'' → Work opts P b b''

namespace Work

variable {opts : BrokerOptions} {P : Broker → Change → Prop} {b b' b'' : Broker}

theorem one (c : Change) (h : P b c) (hc : c.Does opts b b') :
  Work opts P b b'
  := .change c h hc (.refl b')

theorem trans {m : Broker} (h : Work opts P b m) (h' : Work opts P m b') :
  Work opts P b b'
  := by
  induction h with
  | refl => apply h'
  | change c hP hc _ ih => apply Work.change c hP hc (ih h')

/-- What every change preserves holds after all of them. -/
theorem preserves {I : Broker → Prop}
    (hchange : ∀ b c b', I b → P b c → c.Does opts b b' → I b') (h : Work opts P b b') (hb : I b) :
  I b'
  := by
  induction h with
  | refl => apply hb
  | change c hP hc _ ih => apply ih (hchange _ c _ hb hP hc)

/-- A loop whose body works does. -/
theorem foldl {α : Type} {J : Broker → Prop} {act : Broker → α → Broker} {l : List α}
    (hact : ∀ b, J b → ∀ a ∈ l, Work opts P b (act b a) ∧ J (act b a)) (hb : J b) :
  Work opts P b (l.foldl act b)
  := by
  induction l generalizing b with
  | nil => apply Work.refl
  | cons a l ih =>
      obtain ⟨hwork, hJ⟩ := hact b hb a List.mem_cons_self
      apply hwork.trans
      apply ih _ hJ
      exact fun b hb a ha => hact b hb a (List.mem_cons_of_mem _ ha)

end Work

/-! ### What an event asks for -/

/-- A command that an agent asks for, and who waits for its outcome. -/
structure Ask where
  agentId : String
  cmd : Command
  signal : Option ℕ
  requester : Requester

namespace Broker

variable (b : Broker)

/-- The broker once it has been asked for a command. -/
def called : Broker := { b with callSeq := b.callSeq + 1 }

/-- The broker once it has taken the job that an event runs, if it runs one. -/
def started : BrokerEvent → Broker
  | .job => { b with jobs := b.jobs.tail }
  | _ => b

/-- The command that an event asks for, on behalf of a local agent or of one behind a
connection. -/
def asks : BrokerEvent → Option Ask
  | .send agentId cmd signal => some ⟨agentId, cmd, signal, .caller b.callSeq⟩
  | .message conn (.command id cmd) _ =>
      match b.executors.get conn with
      | some _ => none
      | none =>
          (b.agents.get conn).map fun agent =>
            ⟨agent.id, cmd, none, .agent b.callSeq conn id⟩
  | _ => none

theorem started_of_asks {e : BrokerEvent} {a : Ask} (h : b.asks e = some a) :
  b.started e = b
  := by
  cases e with
  | job => cases h
  | _ => rfl

end Broker

/-- A command that is routed to one executor. -/
def Command.Routed (cmd : Command) : Prop :=
  cmd.action ≠ .targets ∧ cmd.action ≠ .release ∧ ¬ (cmd.action = .tabs ∧ cmd.group = "")

/-- What a command leads to without being dispatched. -/
inductive AtOnce (b : Broker) (a : Ask) : Outcome → Prop where
  | targets : a.cmd.action = .targets → AtOnce b a (.ok (.targets b.listTargets))
  | released : a.cmd.action = .release → AtOnce b a (.ok .released)
  | refused {err : BrokerError} : a.cmd.Routed →
      (b.called.executorFor a.agentId a.cmd).2 = .error err → AtOnce b a (.error err)
  | aborted {signal : ℕ} {executor : ExecutorInfo} : a.cmd.Routed →
      (b.called.executorFor a.agentId a.cmd).2 = .ok executor → a.signal = some signal →
      signal ∈ b.aborted → AtOnce b a (.error Broker.abortError)

/-- The groups that the loop of `aggregateTabs` has so far, when it goes on. -/
inductive Gathers (b : Broker) (e : BrokerEvent) : List (TabGroup × String) → Requester → Prop where
  | asked {a : Ask} : b.asks e = some a → a.cmd.action = .tabs → a.cmd.group = "" →
      Gathers b e [] a.requester
  | gathered {executor : ExecutorInfo} {position : ℕ} {groups : List (TabGroup × String)}
      {requester : Requester} {outcome : Outcome} {jobs : List Job} : e = .job →
      b.jobs = ⟨.aggregate executor position groups requester, outcome⟩ :: jobs →
      Gathers b e (groups ++ (Broker.reportedGroups outcome).map fun g => (g, executor.id))
        requester

/-- Why a command is given up. -/
inductive GivesUp (b : Broker) : BrokerEvent → String → Pending → BrokerError → Prop where
  | timeout {timer : ℕ} {t : Timer} {p : Pending} : b.timers.get timer = some t →
      GivesUp b (.timeout timer) t.reqId p t.error
  | abort {signal listener : ℕ} {l : Listener} {p : Pending} :
      b.listeners.get listener = some l → l.signal = signal →
      GivesUp b (.abort signal) l.reqId p Broker.abortError
  | agentGone {conn : ℕ} {agent : AgentInfo} {reqId : String} {p : Pending} :
      b.executors.get conn = none → b.agents.get conn = some agent → p.agentId = agent.id →
      GivesUp b (.closed conn) reqId p Broker.agentGoneError

/-- Why a command is settled otherwise, after it has been sent. -/
inductive Concludes (b : Broker) : BrokerEvent → String → Pending → Outcome → Prop where
  | result {conn : ℕ} {reqId : String} {ok : Bool} {data : Option ResultData}
      {error : Option ResultError} {reloadToken : Option String} {p : Pending} :
      b.executors.has conn = true →
      Concludes b (.message conn (.result reqId ok data error) reloadToken) reqId p
        (resultOutcome ok data error)
  | executorGone {conn : ℕ} {executor info : ExecutorInfo} {reqId : String} {p : Pending} :
      b.executors.get conn = some executor → b.executorById.get executor.id = some info →
      info.conn = conn → p.executorId = executor.id →
      Concludes b (.closed conn) reqId p (.error Broker.disconnectError)
  | stopped {reqId : String} {p : Pending} :
      Concludes b .stop reqId p (.error ⟨"broker stopped", none⟩)

/-- A broker in which commands have at most been settled. -/
structure Steady (b b' : Broker) : Prop where
  executorById : b'.executorById = b.executorById
  broken : b'.broken = b.broken
  pending : ∀ reqId p, b'.pending.get reqId = some p → b.pending.get reqId = some p
  listeners : ∀ listener l, b'.listeners.get listener = some l → b.listeners.get listener = some l

/-- A broker that has settled and dispatched nothing since. -/
structure Ready (b b' : Broker) : Prop where
  jobs : b'.jobs = b.jobs
  broken : b'.broken = b.broken
  aborted : b'.aborted = b.aborted
  pending : b'.pending = b.pending
  idCounter : b'.idCounter = b.idCounter
  promiseSeq : b'.promiseSeq = b.promiseSeq
  minted : b'.minted = b.minted
  settled : b'.settled = b.settled
  outcomes : b'.outcomes = b.outcomes

theorem Idle.refl (b : Broker) :
  Idle b b
  := ⟨rfl, rfl, rfl, rfl, rfl, rfl, rfl, rfl, rfl, rfl, rfl, rfl, rfl, rfl, Nat.le_refl _⟩

theorem Idle.trans {b b' b'' : Broker} (h : Idle b b') (h' : Idle b' b'') :
  Idle b b''
  := by
  constructor
  · rw [h'.pending, h.pending]
  · rw [h'.idCounter, h.idCounter]
  · rw [h'.timers, h.timers]
  · rw [h'.timerSeq, h.timerSeq]
  · rw [h'.listeners, h.listeners]
  · rw [h'.listenerSeq, h.listenerSeq]
  · rw [h'.jobs, h.jobs]
  · rw [h'.sent, h.sent]
  · rw [h'.returned, h.returned]
  · rw [h'.promiseSeq, h.promiseSeq]
  · rw [h'.dispatched, h.dispatched]
  · rw [h'.minted, h.minted]
  · rw [h'.settled, h.settled]
  · rw [h'.outcomes, h.outcomes]
  · apply Nat.le_trans h.callSeq h'.callSeq

namespace Ready

theorem refl (b : Broker) :
  Ready b b
  := ⟨rfl, rfl, rfl, rfl, rfl, rfl, rfl, rfl, rfl⟩

theorem trans {b b' b'' : Broker} (h : Ready b b') (h' : Ready b' b'') :
  Ready b b''
  := by
  constructor
  · rw [h'.jobs, h.jobs]
  · rw [h'.broken, h.broken]
  · rw [h'.aborted, h.aborted]
  · rw [h'.pending, h.pending]
  · rw [h'.idCounter, h.idCounter]
  · rw [h'.promiseSeq, h.promiseSeq]
  · rw [h'.minted, h.minted]
  · rw [h'.settled, h.settled]
  · rw [h'.outcomes, h.outcomes]

theorem safeSend (b : Broker) (conn : ℕ) (frame : ServerFrame) :
  Ready b (b.safeSend conn frame)
  := by
  unfold Broker.safeSend
  split
  · apply refl
  · exact ⟨rfl, rfl, rfl, rfl, rfl, rfl, rfl, rfl, rfl⟩

end Ready

/-- Where a command that is dispatched comes from. -/
inductive Origin (b : Broker) (e : BrokerEvent) (b' : Broker) :
    ExecutorInfo → String → Command → Option ℕ → Waiter → Prop where
  | rebuild {conn : ℕ} {frame : HelloFrame} {reloadToken : Option String}
      {executor : ExecutorInfo} : e = .message conn (.hello frame) reloadToken →
      executor.conn = conn → b'.executorById.get executor.id = some executor →
      Origin b e b' executor "broker" Broker.tabsCommand none (.rebuild executor)
  | tabs {executor : ExecutorInfo} {position : ℕ} {groups : List (TabGroup × String)}
      {requester : Requester} : (∃ id, b.executorById.get id = some executor) →
      Gathers b e groups requester →
      Origin b e b' executor "broker" Broker.tabsCommand none
        (.aggregate executor position groups requester)
  | routed {a : Ask} {executor : ExecutorInfo} : b.asks e = some a → a.cmd.Routed →
      b.called.executorFor a.agentId a.cmd = (b', .ok executor) →
      (∀ signal, a.signal = some signal → signal ∉ b.aborted) →
      Origin b e b' executor a.agentId a.cmd a.signal (.request a.requester)

/-- The changes that an event allows, in a state that its handling has reached. -/
def Allowed (b : Broker) (e : BrokerEvent) (b' : Broker) : Change → Prop
  | .idle => True
  | .frame _ frame => frame.Plain
  | .takeJob => e = .job ∧ b'.jobs = b.jobs
  | .reply conn frameId outcome =>
      e = .job ∧ ∃ call jobs, b.jobs = ⟨.request (.agent call conn frameId), outcome⟩ :: jobs ∧
        b'.jobs = jobs
  | .return call outcome =>
      e = .job ∧ ∃ jobs, b.jobs = ⟨.request (.caller call), outcome⟩ :: jobs
  | .addJob requester outcome =>
      Ready (b.started e) b' ∧
        ((∃ a, b.asks e = some a ∧ a.requester = requester ∧ AtOnce b a outcome) ∨
          ∃ groups, Gathers b e groups requester ∧ outcome = .ok (.tabs groups))
  | .dispatch executor agentId cmd signal waiter =>
      Ready (b.started e) b' ∧ Origin b e b' executor agentId cmd signal waiter
  | .settle reqId outcome =>
      ∃ p, b.pending.get reqId = some p ∧ b'.pending.get reqId = some p ∧
        Concludes b e reqId p outcome
  | .giveUp reqId err =>
      Steady b b' ∧ ∀ p, b'.pending.get reqId = some p → GivesUp b e reqId p err
  | .expire timer => e = .timeout timer
  | .deafen listener =>
      ∃ signal l, e = .abort signal ∧ b.listeners.get listener = some l ∧ l.signal = signal

namespace Steady

theorem refl (b : Broker) :
  Steady b b
  := ⟨rfl, rfl, fun _ _ h => h, fun _ _ h => h⟩

theorem trans {b b' b'' : Broker} (h : Steady b b') (h' : Steady b' b'') :
  Steady b b''
  := by
  constructor
  · rw [h'.executorById, h.executorById]
  · rw [h'.broken, h.broken]
  · exact fun reqId p hp => h.pending reqId p (h'.pending reqId p hp)
  · exact fun listener l hl => h.listeners listener l (h'.listeners listener l hl)

end Steady

/-! ### Commands that are settled and given up -/

namespace Broker

variable (b : Broker)

theorem steady_safeSend (conn : ℕ) (frame : ServerFrame) :
  Steady b (b.safeSend conn frame)
  := by
  unfold safeSend
  split
  · apply Steady.refl
  · exact ⟨rfl, rfl, fun _ _ h => h, fun _ _ h => h⟩

theorem steady_settle (reqId : String) (p : Pending) (outcome : Outcome) :
  Steady b ((b.clearPending reqId).settle p outcome)
  := by
  unfold clearPending
  split
  · exact ⟨rfl, rfl, fun _ _ h => h, fun _ _ h => h⟩
  · next q hq =>
      refine ⟨rfl, rfl, fun _ _ h => JsMap.get_of_get_delete h, ?_⟩
      intro listener l hl
      change (q.detachAbort.elim b.listeners b.listeners.delete).get listener = some l at hl
      cases hdetach : q.detachAbort with
      | none =>
          rw [hdetach] at hl
          apply hl
      | some k =>
          rw [hdetach] at hl
          apply JsMap.get_of_get_delete hl

theorem steady_settleReject (reqId : String) (err : BrokerError) :
  Steady b (b.settleReject reqId err)
  := by
  unfold settleReject
  split
  · apply Steady.refl
  · apply steady_settle

theorem steady_abandon (reqId : String) (err : BrokerError) :
  Steady b (b.abandon reqId err)
  := by
  unfold abandon
  split
  · apply Steady.refl
  · split
    · apply steady_settleReject
    · apply (b.steady_safeSend _ _).trans (steady_settleReject _ _ _)

end Broker

/-- A loop that at most sends frames. -/
theorem Ready.foldl {α : Type} {act : Broker → α → Broker} (hact : ∀ b a, Ready b (act b a))
    (l : List α) (b : Broker) :
  Ready b (l.foldl act b)
  := by
  induction l generalizing b with
  | nil => apply Ready.refl
  | cons a l ih => apply (hact b a).trans (ih _)

theorem Ready.releaseForAgent (b : Broker) (agentId : String) :
  Ready b (b.releaseForAgent agentId)
  := by
  have howners : Ready b (b.withoutOwner agentId) := ⟨rfl, rfl, rfl, rfl, rfl, rfl, rfl, rfl, rfl⟩
  apply howners.trans
  apply Ready.foldl
  intro b id
  split
  · apply Ready.refl
  · apply Ready.safeSend

theorem Steady.foldl {α : Type} {act : Broker → α → Broker} (hact : ∀ b a, Steady b (act b a))
    (l : List α) (b : Broker) :
  Steady b (l.foldl act b)
  := by
  induction l generalizing b with
  | nil => apply Steady.refl
  | cons a l ih => apply (hact b a).trans (ih _)

theorem Broker.steady_releaseForAgent (b : Broker) (agentId : String) :
  Steady b (b.releaseForAgent agentId)
  := by
  have howners : Steady b (b.withoutOwner agentId) :=
    ⟨rfl, rfl, fun _ _ h => h, fun _ _ h => h⟩
  apply howners.trans
  apply Steady.foldl
  intro b id
  split
  · apply Steady.refl
  · apply steady_safeSend

/-- The handling of an event. -/
abbrev Handles (opts : BrokerOptions) (b : Broker) (e : BrokerEvent) : Broker → Broker → Prop :=
  Work opts (Allowed b e)

namespace Handles

variable {opts : BrokerOptions} {b₀ b b' : Broker} {e : BrokerEvent}

theorem idle (h : Idle b b') :
  Handles opts b₀ e b b'
  := .one .idle trivial h

theorem frame (conn : ℕ) (frame : ServerFrame) (h : frame.Plain) :
  Handles opts b₀ e b (b.safeSend conn frame)
  := .one (.frame conn frame) h rfl

theorem settleReject (reqId : String) (err : BrokerError)
    (h : ∀ p, b.pending.get reqId = some p → b₀.pending.get reqId = some p ∧
      Concludes b₀ e reqId p (.error err)) :
  Handles opts b₀ e b (b.settleReject reqId err)
  := by
  unfold Broker.settleReject
  split
  · apply Work.refl
  · next p hp =>
      obtain ⟨hold, hconcludes⟩ := h p hp
      exact .one (.settle reqId (.error err)) ⟨p, hold, hp, hconcludes⟩ ⟨p, hp, rfl⟩

theorem abandon (reqId : String) (err : BrokerError) (hsteady : Steady b₀ b)
    (h : ∀ p, b.pending.get reqId = some p → GivesUp b₀ e reqId p err) :
  Handles opts b₀ e b (b.abandon reqId err)
  := .one (.giveUp reqId err) ⟨hsteady, h⟩ rfl

/-- All commands with a property are settled alike. -/
theorem settleAll (p : Pending → Bool) (act : Broker → String → Broker)
    (hsteady : ∀ b reqId, Steady b (act b reqId))
    (hact : ∀ b' reqId q, Steady b b' → b.pending.get reqId = some q → p q = true →
      Handles opts b₀ e b' (act b' reqId)) :
  Handles opts b₀ e b (b.settleAll p act)
  := by
  apply Work.foldl _ (Steady.refl b)
  rintro b' hb' ⟨reqId, q⟩ hmem
  split
  · next hp =>
      use hact b' reqId q hb' (JsMap.get_eq_some.mpr hmem) hp
      apply hb'.trans (hsteady b' reqId)
  · use .refl b'

/-! ### Commands -/

theorem releaseForAgent (agentId : String) :
  Handles opts b₀ e b (b.releaseForAgent agentId)
  := by
  have hidle : Idle b (b.withoutOwner agentId) :=
    ⟨rfl, rfl, rfl, rfl, rfl, rfl, rfl, rfl, rfl, rfl, rfl, rfl, rfl, rfl, Nat.le_refl _⟩
  apply (Handles.idle hidle).trans
  apply Work.foldl (J := fun _ => True) _ trivial
  intro b' _ id _
  constructor
  · split
    · apply Work.refl
    · next exec _ => apply Handles.frame exec.conn .release trivial
  · trivial

/-- A command of the broker itself is dispatched. -/
theorem dispatchOwn {executor : ExecutorInfo} {waiter : Waiter} (hready : Ready (b₀.started e) b)
    (h : Origin b₀ e b executor "broker" Broker.tabsCommand none waiter) :
  Handles opts b₀ e b
    (b.sendToExecutor opts executor "broker" Broker.tabsCommand none waiter)
  := .one (.dispatch executor "broker" Broker.tabsCommand none waiter) ⟨hready, h⟩ rfl

theorem aggregateTabs (position : ℕ) {groups : List (TabGroup × String)} {requester : Requester}
    (hready : Ready (b₀.started e) b) (hexecutors : b.executorById = b₀.executorById)
    (h : Gathers b₀ e groups requester) :
  Handles opts b₀ e b (b.aggregateTabs opts position groups requester)
  := by
  unfold Broker.aggregateTabs
  split
  · exact .one (.addJob requester (.ok (.tabs groups))) ⟨hready, .inr ⟨groups, h, rfl⟩⟩ rfl
  · next position' id executor hnext =>
      apply dispatchOwn hready
      apply Origin.tabs _ h
      use id
      rw [← hexecutors]
      apply JsMap.get_eq_some.mpr (JsMap.mem_entries_of_next hnext)

theorem ready_called {a : Ask} (h : b.asks e = some a) :
  Ready (b.started e) b.called
  := by
  rw [b.started_of_asks h]
  exact ⟨rfl, rfl, rfl, rfl, rfl, rfl, rfl, rfl, rfl⟩

/-- A command that an agent asks for is routed. -/
theorem route {a : Ask} (h : b.asks e = some a) :
  Handles opts b e b.called (b.called.route opts a.agentId a.cmd a.signal a.requester)
  := by
  have hcalled := ready_called h
  unfold Broker.route
  split
  · next htargets =>
      exact .one (.addJob a.requester (.ok (.targets b.listTargets)))
        ⟨hcalled, .inl ⟨a, h, rfl, .targets htargets⟩⟩ rfl
  · next htargets =>
      split
      · next hrelease =>
          apply (Handles.releaseForAgent a.agentId).trans
          exact .one (.addJob a.requester (.ok .released))
            ⟨hcalled.trans (Ready.releaseForAgent _ _), .inl ⟨a, h, rfl, .released hrelease⟩⟩ rfl
      · next hrelease =>
          split
          · next htabs =>
              apply Handles.aggregateTabs 0 hcalled rfl (.asked h htabs.1 htabs.2)
          · next htabs =>
              have hrouted : a.cmd.Routed := ⟨htargets, hrelease, htabs⟩
              obtain ⟨hclaims, -⟩ := b.called.claims_executorFor a.agentId a.cmd
              have hidle : Idle b.called (b.called.executorFor a.agentId a.cmd).1 := by
                rw [hclaims.rest]
                exact ⟨rfl, rfl, rfl, rfl, rfl, rfl, rfl, rfl, rfl, rfl, rfl, rfl, rfl, rfl,
                  Nat.le_refl _⟩
              have hready : Ready (b.started e) (b.called.executorFor a.agentId a.cmd).1 := by
                apply hcalled.trans
                rw [hclaims.rest]
                exact ⟨rfl, rfl, rfl, rfl, rfl, rfl, rfl, rfl, rfl⟩
              apply (Handles.idle hidle).trans
              split
              · next b' err heq =>
                  rw [heq] at hready ⊢
                  apply Work.one (.addJob a.requester (.error err)) _ rfl
                  use hready
                  left
                  use a, h, rfl
                  apply AtOnce.refused hrouted
                  rw [heq]
              · next b' executor heq =>
                  rw [heq] at hready ⊢
                  have haborts : b'.aborted = b.aborted := by
                    rw [hready.aborted, b.started_of_asks h]
                  unfold Broker.sendToExecutor
                  split
                  · next haborted =>
                      obtain ⟨signal, hsignal, hmem⟩ := (Option.any_eq_true _ _).mp haborted
                      apply Work.one (.addJob a.requester (.error Broker.abortError)) _ rfl
                      use hready
                      left
                      use a, h, rfl
                      have hpicked : (b.called.executorFor a.agentId a.cmd).2 = .ok executor := by
                        rw [heq]
                      apply AtOnce.aborted hrouted hpicked hsignal
                      rw [← haborts]
                      apply of_decide_eq_true hmem
                  · next haborted =>
                      apply Work.one (.dispatch executor a.agentId a.cmd a.signal
                        (.request a.requester)) _ rfl
                      use hready
                      apply Origin.routed h hrouted heq
                      intro signal hsignal hmem
                      apply haborted
                      rw [hsignal, haborts]
                      apply decide_eq_true hmem

/-! ### Connections -/

theorem routeEvent (frame : EventFrame) :
  Handles opts b₀ e b (b.routeEvent frame)
  := by
  apply Work.foldl (J := fun _ => True) _ trivial
  intro b' _ agent _
  constructor
  · split
    · apply Handles.frame agent.conn (.event frame) trivial
    · apply Work.refl
  · trivial

theorem handleFrame {conn : ℕ} {frame : ClientFrame} {reloadToken : Option String}
    (hhello : ∀ hello, frame ≠ .hello hello) :
  Handles opts b (.message conn frame reloadToken) b (b.onMessage opts conn frame reloadToken)
  := by
  unfold Broker.onMessage
  split
  · next hello => exact (hhello hello rfl).elim
  · split
    · next executor hexecutor =>
        have hhas := JsMap.has_of_get hexecutor
        unfold Broker.handleExecutorFrame
        split
        · next id ok data error _ =>
            unfold Broker.handleResult
            split
            · apply Work.refl
            · next p hp =>
                exact .one (.settle id (resultOutcome ok data error))
                  ⟨p, hp, hp, .result hhas⟩ ⟨p, hp, rfl⟩
        · apply Handles.routeEvent
        · apply Handles.frame conn .pong trivial
        · apply Work.refl
    · next hexecutor =>
        split
        · next agent hagent =>
            unfold Broker.handleAgentFrame
            split
            · next id cmd _ =>
                have hasks : b.asks (.message conn (.command id cmd) reloadToken) =
                    some ⟨agent.id, cmd, none, .agent b.callSeq conn id⟩ := by
                  simp [Broker.asks, hexecutor, hagent]
                have hcalled : Idle b b.called :=
                  ⟨rfl, rfl, rfl, rfl, rfl, rfl, rfl, rfl, rfl, rfl, rfl, rfl, rfl, rfl,
                    Nat.le_succ _⟩
                apply (Handles.idle hcalled).trans (Handles.route hasks)
            · apply Handles.frame conn .pong trivial
            · apply Work.refl
        · apply Work.refl

/-- An executor is entered into the maps. -/
theorem idle_join (b : Broker) (conn : ℕ) (id : Option String) (info : ExecutorInfo) :
  Idle b ((((b.executorIdFor id).1.replaceStale conn info.id)).register info) ∧
    Ready b ((((b.executorIdFor id).1.replaceStale conn info.id)).register info)
  := by
  have hnamed : Idle b (b.executorIdFor id).1 ∧ Ready b (b.executorIdFor id).1 := by
    unfold Broker.executorIdFor
    split <;>
      exact ⟨⟨rfl, rfl, rfl, rfl, rfl, rfl, rfl, rfl, rfl, rfl, rfl, rfl, rfl, rfl, Nat.le_refl _⟩,
        ⟨rfl, rfl, rfl, rfl, rfl, rfl, rfl, rfl, rfl⟩⟩
  have hstale : ∀ b : Broker, Idle b (b.replaceStale conn info.id) ∧
      Ready b (b.replaceStale conn info.id) := by
    intro b
    unfold Broker.replaceStale
    split
    · exact ⟨.refl b, .refl b⟩
    · split
      · exact ⟨.refl b, .refl b⟩
      · exact ⟨⟨rfl, rfl, rfl, rfl, rfl, rfl, rfl, rfl, rfl, rfl, rfl, rfl, rfl, rfl,
          Nat.le_refl _⟩, ⟨rfl, rfl, rfl, rfl, rfl, rfl, rfl, rfl, rfl⟩⟩
  have hregister : ∀ b : Broker, Idle b (b.register info) ∧ Ready b (b.register info) := by
    intro b
    simp only [Broker.register]
    split <;>
      exact ⟨⟨rfl, rfl, rfl, rfl, rfl, rfl, rfl, rfl, rfl, rfl, rfl, rfl, rfl, rfl, Nat.le_refl _⟩,
        ⟨rfl, rfl, rfl, rfl, rfl, rfl, rfl, rfl, rfl⟩⟩
  constructor
  · apply (hnamed.1.trans (hstale _).1).trans (hregister _).1
  · apply (hnamed.2.trans (hstale _).2).trans (hregister _).2

theorem handleHello {conn : ℕ} {frame : HelloFrame} {reloadToken : Option String} :
  Handles opts b (.message conn (.hello frame) reloadToken) b
    (b.handleHello opts conn frame reloadToken)
  := by
  obtain ⟨token, hb', -⟩ := b.checkToken frame reloadToken
  simp only [Broker.handleHello, hb']
  have htoken : Idle b { b with token } :=
    ⟨rfl, rfl, rfl, rfl, rfl, rfl, rfl, rfl, rfl, rfl, rfl, rfl, rfl, rfl, Nat.le_refl _⟩
  apply (Handles.idle htoken).trans
  split
  · split
    · unfold Broker.acceptAgent
      apply Work.trans (m := { b with
        token
        agentSeq := b.agentSeq + 1
        agents := b.agents.set conn ⟨conn, s!"agent:{b.agentSeq + 1}"⟩ })
      · apply Handles.idle
        exact ⟨rfl, rfl, rfl, rfl, rfl, rfl, rfl, rfl, rfl, rfl, rfl, rfl, rfl, rfl, Nat.le_refl _⟩
      · apply Handles.frame conn (.ready _ _ _) trivial
    · simp only [Broker.acceptExecutor]
      obtain ⟨hidle, hready⟩ := idle_join { b with token } conn frame.id
        ⟨conn, ({ b with token }.executorIdFor frame.id).2,
          (nonEmpty frame.label).getD ({ b with token }.executorIdFor frame.id).2,
          (nonEmpty frame.browser).getD "unknown"⟩
      apply (Handles.idle hidle).trans
      apply (Handles.frame conn (.ready _ _ _) trivial).trans
      apply dispatchOwn
      · have hstart : Ready b { b with token } := ⟨rfl, rfl, rfl, rfl, rfl, rfl, rfl, rfl, rfl⟩
        apply (hstart.trans hready).trans
        apply Ready.safeSend
      · have hhello : (BrokerEvent.message conn (.hello frame) reloadToken) =
            .message conn (.hello frame) reloadToken := rfl
        apply Origin.rebuild hhello rfl
        rw [(Broker.settles_safeSend _ _ _).executorById, (Broker.register_executors _ _).2,
          JsMap.get_set_self]
  · apply (Handles.frame conn (.rejected _) trivial).trans
    apply Handles.idle
    exact ⟨rfl, rfl, rfl, rfl, rfl, rfl, rfl, rfl, rfl, rfl, rfl, rfl, rfl, rfl, Nat.le_refl _⟩

theorem onMessage {conn : ℕ} {frame : ClientFrame} {reloadToken : Option String} :
  Handles opts b (.message conn frame reloadToken) b (b.onMessage opts conn frame reloadToken)
  := by
  cases frame with
  | hello frame => apply handleHello
  | _ =>
      apply handleFrame
      rintro hello ⟨⟩

/-- The commands of an executor that is gone are settled. -/
theorem closeExecutor {conn : ℕ} {executor : ExecutorInfo}
    (h : b₀.executors.get conn = some executor) (hexecutors : b.executorById = b₀.executorById)
    (hpending : b.pending = b₀.pending) :
  Handles opts b₀ (.closed conn) b (b.closeExecutor conn executor)
  := by
  have hdeleted : Idle b { b with executors := b.executors.delete conn } :=
    ⟨rfl, rfl, rfl, rfl, rfl, rfl, rfl, rfl, rfl, rfl, rfl, rfl, rfl, rfl, Nat.le_refl _⟩
  simp only [Broker.closeExecutor]
  apply (Handles.idle hdeleted).trans
  generalize hb' : (if (b.executorById.get executor.id).any (fun e => e.conn = conn) = true then
    ({ b with executors := b.executors.delete conn } : Broker).forgetExecutor executor.id
    else { b with executors := b.executors.delete conn }) = b'
  have hforget : Handles opts b₀ (.closed conn)
      { b with executors := b.executors.delete conn } b' := by
    rw [← hb']
    split
    · next hany =>
        obtain ⟨info, hinfo, hconn⟩ := (Option.any_eq_true _ _).mp hany
        unfold Broker.forgetExecutor
        apply Work.trans (m := { b with
          executors := b.executors.delete conn
          executorById := b.executorById.delete executor.id
          groupOwner := b.groupOwner.filter fun _ owner => owner.executorId ≠ executor.id })
        · apply Handles.idle
          exact ⟨rfl, rfl, rfl, rfl, rfl, rfl, rfl, rfl, rfl, rfl, rfl, rfl, rfl, rfl, Nat.le_refl _⟩
        · apply Handles.settleAll _ _ fun b reqId => b.steady_settleReject reqId _
          intro b' reqId q hb' hq hid
          apply Handles.settleReject
          intro p hp
          have hold := hb'.pending reqId p hp
          rw [hq] at hold
          obtain rfl := Option.some.inj hold
          rw [← hpending]
          use hq
          apply Concludes.executorGone h _ (of_decide_eq_true hconn) (of_decide_eq_true hid)
          rw [← hexecutors]
          apply hinfo
    · apply Work.refl
  apply hforget.trans
  split
  · apply Handles.idle
    exact ⟨rfl, rfl, rfl, rfl, rfl, rfl, rfl, rfl, rfl, rfl, rfl, rfl, rfl, rfl, Nat.le_refl _⟩
  · apply Work.refl

/-- The commands of an agent that is gone are given up. -/
theorem closeAgent {conn : ℕ} {agent : AgentInfo} (hnone : b₀.executors.get conn = none)
    (h : b₀.agents.get conn = some agent) (hsteady : Steady b₀ b) :
  Handles opts b₀ (.closed conn) b (b.closeAgent conn agent)
  := by
  have hdeleted : Idle b { b with agents := b.agents.delete conn } :=
    ⟨rfl, rfl, rfl, rfl, rfl, rfl, rfl, rfl, rfl, rfl, rfl, rfl, rfl, rfl, Nat.le_refl _⟩
  unfold Broker.closeAgent
  apply (Handles.idle hdeleted).trans
  apply (Handles.releaseForAgent agent.id).trans
  have hreleased : Steady b₀
      (({ b with agents := b.agents.delete conn } : Broker).releaseForAgent agent.id) := by
    have hgone : Steady b { b with agents := b.agents.delete conn } :=
      ⟨rfl, rfl, fun _ _ h => h, fun _ _ h => h⟩
    apply (hsteady.trans hgone).trans (Broker.steady_releaseForAgent _ _)
  apply Handles.settleAll _ _ fun b reqId => b.steady_abandon reqId _
  intro b' reqId q hb' hq hid
  apply Handles.abandon _ _ (hreleased.trans hb')
  intro p hp
  have hold := hb'.pending reqId p hp
  rw [hq] at hold
  obtain rfl := Option.some.inj hold
  apply GivesUp.agentGone hnone h (of_decide_eq_true hid)

theorem closed {conn : ℕ} :
  Handles opts b (.closed conn) b
    ({ b with opened := b.opened.filter (· ≠ conn) }.onClose conn)
  := by
  have hclosed : Idle b { b with opened := b.opened.filter (· ≠ conn) } :=
    ⟨rfl, rfl, rfl, rfl, rfl, rfl, rfl, rfl, rfl, rfl, rfl, rfl, rfl, rfl, Nat.le_refl _⟩
  apply (Handles.idle hclosed).trans
  unfold Broker.onClose
  split
  · next executor hexecutor =>
      change b.executors.get conn = some executor at hexecutor
      apply closeExecutor hexecutor
      · rfl
      · rfl
  · next hexecutor =>
      change b.executors.get conn = none at hexecutor
      split
      · next agent hagent =>
          change b.agents.get conn = some agent at hagent
          apply closeAgent hexecutor hagent
          exact ⟨rfl, rfl, fun _ _ h => h, fun _ _ h => h⟩
      · apply Work.refl

theorem stop :
  Handles opts b .stop b b.stop
  := by
  apply Work.trans (m := b.rejectAllPending ⟨"broker stopped", none⟩)
  · apply Handles.settleAll _ _ fun b reqId => b.steady_settleReject reqId _
    intro b' reqId q hb' hq _
    apply Handles.settleReject
    intro p hp
    use hb'.pending reqId p hp, .stopped
  · apply Handles.idle
    exact ⟨rfl, rfl, rfl, rfl, rfl, rfl, rfl, rfl, rfl, rfl, rfl, rfl, rfl, rfl, Nat.le_refl _⟩

/-! ### Jobs, timers and signals -/

theorem rebuild (executorId : String) (groups : List TabGroup) :
  Handles opts b₀ e b (groups.foldl (fun b g => b.rebuildGroup executorId g) b)
  := by
  apply Work.foldl (J := fun _ => True) _ trivial
  intro b' _ g _
  constructor
  · apply Handles.idle
    unfold Broker.rebuildGroup
    split
    · apply Idle.refl
    · split
      · apply Idle.refl
      · exact ⟨rfl, rfl, rfl, rfl, rfl, rfl, rfl, rfl, rfl, rfl, rfl, rfl, rfl, rfl, Nat.le_refl _⟩
  · trivial

theorem runJob :
  Handles opts b .job b (b.runJob opts)
  := by
  unfold Broker.runJob
  split
  · apply Work.refl
  · next job jobs hjobs =>
      have htake : Handles opts b .job b { b with jobs } :=
        .one .takeJob ⟨rfl, rfl⟩ ⟨job, jobs, hjobs, rfl⟩
      apply htake.trans
      obtain ⟨waiter, outcome⟩ := job
      cases waiter with
      | request requester =>
          cases requester with
          | caller call => exact .one (.return call outcome) ⟨rfl, jobs, hjobs⟩ rfl
          | agent call conn frameId =>
              apply Work.one (.reply conn frameId outcome) ⟨rfl, call, jobs, hjobs, rfl⟩
              cases outcome <;> rfl
      | rebuild executor => apply rebuild
      | aggregate executor position groups requester =>
          apply aggregateTabs
          · refine ⟨?_, rfl, rfl, rfl, rfl, rfl, rfl, rfl, rfl⟩
            simp only [Broker.started, hjobs, List.tail_cons]
          · rfl
          · apply Gathers.gathered rfl hjobs

theorem fireTimer {timer : ℕ} :
  Handles opts b (.timeout timer) b (b.fireTimer timer)
  := by
  unfold Broker.fireTimer
  split
  · apply Work.refl
  · next t ht =>
      apply (Work.one (.expire timer) rfl rfl).trans
      apply Handles.abandon
      · exact ⟨rfl, rfl, fun _ _ h => h, fun _ _ h => h⟩
      · exact fun p _ => .timeout ht

theorem abort {signal : ℕ} :
  Handles opts b (.abort signal) b (b.abort signal)
  := by
  have haborted : Idle b { b with aborted := signal :: b.aborted } :=
    ⟨rfl, rfl, rfl, rfl, rfl, rfl, rfl, rfl, rfl, rfl, rfl, rfl, rfl, rfl, Nat.le_refl _⟩
  apply (Handles.idle haborted).trans
  apply Work.foldl (J := Steady b)
  · intro b' hb' listener hmem
    obtain ⟨⟨k, l⟩, hentry, rfl⟩ := List.mem_map.mp hmem
    obtain ⟨hentry, hsignal⟩ := List.mem_filter.mp hentry
    have hl : b.listeners.get k = some l := JsMap.get_eq_some.mpr hentry
    unfold Broker.fireListener
    split
    · use .refl b'
    · next l' hl' =>
        have heq := hb'.listeners _ _ hl'
        rw [hl] at heq
        obtain rfl := Option.some.inj heq
        have hdeaf : Steady b' { b' with listeners := b'.listeners.delete k } :=
          ⟨rfl, rfl, fun _ _ h => h, fun _ _ h => JsMap.get_of_get_delete h⟩
        constructor
        · apply (Work.one (.deafen k) ⟨signal, l, rfl, hl, of_decide_eq_true hsignal⟩ rfl).trans
          apply Handles.abandon _ _ (hb'.trans hdeaf)
          exact fun p _ => .abort hl (of_decide_eq_true hsignal)
        · apply (hb'.trans hdeaf).trans
          apply Broker.steady_abandon
  · exact ⟨rfl, rfl, fun _ _ h => h, fun _ _ h => h⟩

end Handles

/-- The handling of an event is made of changes that the event allows. -/
theorem handles (opts : BrokerOptions) (b : Broker) (e : BrokerEvent) :
  Handles opts b e b (b.handle opts e)
  := by
  have hidle : ∀ b', Idle b b' → Handles opts b e b b' := fun b' h => .idle h
  cases e with
  | opened =>
      apply hidle
      exact ⟨rfl, rfl, rfl, rfl, rfl, rfl, rfl, rfl, rfl, rfl, rfl, rfl, rfl, rfl, Nat.le_refl _⟩
  | message conn frame reloadToken => apply Handles.onMessage
  | closed conn => apply Handles.closed
  | stop => apply Handles.stop
  | createLocalAgent =>
      apply hidle
      exact ⟨rfl, rfl, rfl, rfl, rfl, rfl, rfl, rfl, rfl, rfl, rfl, rfl, rfl, rfl, Nat.le_refl _⟩
  | send agentId cmd signal =>
      have hcalled : Idle b b.called :=
        ⟨rfl, rfl, rfl, rfl, rfl, rfl, rfl, rfl, rfl, rfl, rfl, rfl, rfl, rfl, Nat.le_succ _⟩
      have hasks : b.asks (.send agentId cmd signal) =
          some ⟨agentId, cmd, signal, .caller b.callSeq⟩ := rfl
      apply (Handles.idle hcalled).trans (Handles.route hasks)
  | release agentId => apply Handles.releaseForAgent
  | abort signal => apply Handles.abort
  | timeout timer => apply Handles.fireTimer
  | job => apply Handles.runJob
  | sendThrows conn error =>
      apply hidle
      exact ⟨rfl, rfl, rfl, rfl, rfl, rfl, rfl, rfl, rfl, rfl, rfl, rfl, rfl, rfl, Nat.le_refl _⟩

/-! ### Frames -/

/-- What entering a command adds to a map of timers or of listeners, if it adds anything. -/
def Adds {V : Type} (m m' : JsMap ℕ V) (seq seq' : ℕ) (v : V) (added : Option ℕ) : Prop :=
  m' = m ∧ seq' = seq ∧ added = none ∨ m' = m.set seq v ∧ seq' = seq + 1 ∧ added = some seq

namespace Broker

variable (b : Broker)

theorem setTimer_eq (opts : BrokerOptions) (cmd : Command) (reqId : String) :
  ∃ timers timerSeq timer error, b.setTimer opts cmd reqId = ({ b with timers, timerSeq }, timer) ∧
    Adds b.timers timers b.timerSeq timerSeq ⟨reqId, error⟩ timer
  := by
  by_cases h : 0 < timeoutFor opts cmd.timeoutMs
  · rw [setTimer, if_pos h]
    exact ⟨_, _, _, _, rfl, .inr ⟨rfl, rfl, rfl⟩⟩
  · rw [setTimer, if_neg h]
    exact ⟨_, _, _, abortError, rfl, .inl ⟨rfl, rfl, rfl⟩⟩

theorem addListener_eq (signal : Option ℕ) (reqId : String) :
  ∃ listeners listenerSeq listener aborts,
    b.addListener signal reqId = ({ b with listeners, listenerSeq }, listener) ∧
      Adds b.listeners listeners b.listenerSeq listenerSeq ⟨aborts, reqId⟩ listener
  := by
  cases signal with
  | none => exact ⟨_, _, _, 0, rfl, .inl ⟨rfl, rfl, rfl⟩⟩
  | some signal => exact ⟨_, _, _, _, rfl, .inr ⟨rfl, rfl, rfl⟩⟩

/-- The broker after a command has been entered. -/
theorem enter_eq (opts : BrokerOptions) (executor : ExecutorInfo) (agentId : String)
    (cmd : Command) (signal : Option ℕ) (waiter : Waiter) (reqId : String) :
  ∃ timers timerSeq timer listeners listenerSeq detachAbort,
    b.enter opts executor agentId cmd signal waiter reqId =
      { b with
        idCounter := nextIdCounter b.idCounter
        timers
        timerSeq
        listeners
        listenerSeq
        promiseSeq := b.promiseSeq + 1
        dispatched := (b.promiseSeq, executor.conn) :: b.dispatched
        minted := (b.promiseSeq, waiter) :: b.minted
        pending := b.pending.set reqId
          ⟨b.promiseSeq, waiter, timer, detachAbort, agentId, executor.id⟩ } ∧
      (∃ error, Adds b.timers timers b.timerSeq timerSeq ⟨reqId, error⟩ timer) ∧
      ∃ aborts, Adds b.listeners listeners b.listenerSeq listenerSeq ⟨aborts, reqId⟩ detachAbort
  := by
  obtain ⟨timers, timerSeq, timer, error, htimer, htimers⟩ :=
    { b with idCounter := nextIdCounter b.idCounter }.setTimer_eq opts cmd reqId
  obtain ⟨listeners, listenerSeq, listener, aborts, hlistener, hlisteners⟩ :=
    { b with idCounter := nextIdCounter b.idCounter, timers, timerSeq }.addListener_eq signal reqId
  use timers, timerSeq, timer, listeners, listenerSeq, listener
  constructor
  · simp only [enter, htimer, hlistener]
  · use ⟨error, htimers⟩, aborts

/-- The broker after a command that was pending has been settled. -/
theorem settle_eq {reqId : String} {p : Pending} (hp : b.pending.get reqId = some p)
    (outcome : Outcome) :
  (b.clearPending reqId).settle p outcome =
    { b with
      timers := p.timer.elim b.timers b.timers.delete
      listeners := p.detachAbort.elim b.listeners b.listeners.delete
      pending := b.pending.delete reqId
      jobs := b.jobs ++ [⟨p.waiter, outcome⟩]
      settled := p.promise :: b.settled
      outcomes := (p.promise, outcome) :: b.outcomes }
  := by
  simp only [clearPending, hp]
  rfl

/-- The frames that the handling of an event sends, the latest first. -/
def sends (opts : BrokerOptions) (e : BrokerEvent) : List (ℕ × ServerFrame) :=
  (b.handle opts e).sent.take ((b.handle opts e).sent.length - b.sent.length)

theorem sent_safeSend (conn : ℕ) (frame : ServerFrame) :
  (b.safeSend conn frame).sent = (if b.broken.has conn then [] else [(conn, frame)]) ++ b.sent
  := by
  unfold safeSend
  split <;> rfl

@[simp]
theorem sent_clearPending (reqId : String) :
  (b.clearPending reqId).sent = b.sent
  := by
  unfold clearPending
  split <;> rfl

@[simp]
theorem sent_settleReject (reqId : String) (err : BrokerError) :
  (b.settleReject reqId err).sent = b.sent
  := by
  unfold settleReject
  split
  · rfl
  · apply sent_clearPending

end Broker

/-- A change sends one frame at most. -/
theorem Change.Does.sent {opts : BrokerOptions} {b b' : Broker} {c : Change}
    (h : c.Does opts b b') :
  b'.sent = b.sent ∨
    ∃ conn frame, b'.sent = (conn, frame) :: b.sent ∧ c.Sends b conn frame ∧
      b.broken.has conn = false
  := by
  have hsafe : ∀ conn frame, (b.safeSend conn frame).sent = b.sent ∨
      (b.safeSend conn frame).sent = (conn, frame) :: b.sent ∧ b.broken.has conn = false := by
    intro conn frame
    rw [b.sent_safeSend]
    cases hbroken : b.broken.has conn with
    | true => exact .inl rfl
    | false => exact .inr ⟨rfl, rfl⟩
  cases c with
  | idle => exact .inl (Idle.sent h)
  | frame conn f =>
      obtain rfl := h
      apply (hsafe conn f).imp_right
      intro hsent
      use conn, f, hsent.1, ⟨rfl, rfl⟩, hsent.2
  | reply conn frameId outcome =>
      obtain rfl := h
      apply (hsafe conn _).imp_right
      intro hsent
      exact ⟨conn, _, hsent.1, ⟨rfl, rfl⟩, hsent.2⟩
  | takeJob =>
      obtain ⟨job, jobs, -, rfl⟩ := h
      exact .inl rfl
  | dispatch executor agentId cmd signal waiter =>
      obtain rfl := h
      simp only [Broker.dispatch]
      split
      · left
        rw [Broker.sent_settleReject]
        obtain ⟨_, _, _, _, _, _, heq, -⟩ := b.enter_eq opts executor agentId cmd signal waiter
          (correlationId (nextIdCounter b.idCounter))
        rw [heq]
      · next hbroken =>
          right
          refine ⟨executor.conn, _, rfl, ⟨rfl, rfl⟩, ?_⟩
          rw [JsMap.has, hbroken, Option.isSome_none]
  | settle reqId outcome =>
      obtain ⟨p, -, rfl⟩ := h
      left
      apply Broker.sent_clearPending
  | giveUp reqId err =>
      obtain rfl := h
      unfold Broker.abandon
      split
      · exact .inl rfl
      · next p hp =>
          split
          · left
            apply Broker.sent_settleReject
          · next exec hexec =>
              rw [Broker.sent_settleReject]
              apply (hsafe exec.conn (.cancel reqId)).imp_right
              intro hsent
              exact ⟨exec.conn, _, hsent.1, ⟨rfl, p, exec, hp, hexec, rfl⟩, hsent.2⟩
  | _ =>
      obtain rfl := h
      exact .inl rfl

/-- Every frame is sent by a change. -/
theorem Work.sent {opts : BrokerOptions} {P : Broker → Change → Prop} {b b' : Broker}
    (h : Work opts P b b') :
  ∃ frames, b'.sent = frames ++ b.sent ∧
    ∀ f ∈ frames, ∃ b₁ c, P b₁ c ∧ c.Sends b₁ f.1 f.2 ∧ b₁.broken.has f.1 = false
  := by
  induction h with
  | refl => exact ⟨[], rfl, fun _ h => (List.not_mem_nil h).elim⟩
  | @change b b' b'' c hP hc _ ih =>
      obtain ⟨frames, hframes, hall⟩ := ih
      obtain hsent | ⟨conn, frame, hsent, hsends, hbroken⟩ := hc.sent
      · use frames
        rw [hframes, hsent]
        use rfl
      · use frames ++ [(conn, frame)]
        rw [hframes, hsent]
        constructor
        · simp
        · intro f hf
          obtain hf | hf := List.mem_append.mp hf
          · apply hall f hf
          · obtain rfl := List.mem_singleton.mp hf
            use b, c

namespace Broker

variable (b : Broker)

theorem sent_handle (opts : BrokerOptions) (e : BrokerEvent) :
  (b.handle opts e).sent = b.sends opts e ++ b.sent
  := by
  obtain ⟨frames, hframes, -⟩ := (handles opts b e).sent
  unfold sends
  rw [hframes]
  simp

theorem mem_sends {opts : BrokerOptions} {e : BrokerEvent} {conn : ℕ} {frame : ServerFrame}
    (h : (conn, frame) ∈ b.sends opts e) :
  ∃ b' c, Allowed b e b' c ∧ c.Sends b' conn frame ∧ b'.broken.has conn = false
  := by
  obtain ⟨frames, hframes, hall⟩ := (handles opts b e).sent
  rw [sent_handle] at hframes
  rw [List.append_cancel_right hframes] at h
  apply hall _ h

end Broker

end Browser
