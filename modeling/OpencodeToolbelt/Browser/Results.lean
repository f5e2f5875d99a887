import OpencodeToolbelt.Browser.Cancellation

/-!
# Results settle the commands they are for

A result is matched by its id alone. As long as executors send results only for commands that
were dispatched to them, no frame settles or changes a command that is pending for another
executor.
-/

namespace Browser

/-- A connection is registered under the id of an executor. -/
def RegisteredUnder (b : Broker) (conn : ℕ) (executorId : String) : Prop :=
  ∃ info ∈ b.executorById.get executorId, info.conn = conn

instance (b : Broker) (conn : ℕ) (executorId : String) :
  Decidable (RegisteredUnder b conn executorId)
  := inferInstanceAs (Decidable (∃ info ∈ b.executorById.get executorId, info.conn = conn))

/-- A command is pending as it was, with its timer and its listener. -/
structure Untouched (reqId : String) (p : Pending) (b b' : Broker) : Prop where
  pending : b'.pending.get reqId = some p
  unsettled : p.promise ∉ b'.settled
  timer : ∀ timer, p.timer = some timer → b'.timers.get timer = b.timers.get timer
  listener : ∀ listener, p.detachAbort = some listener →
    b'.listeners.get listener = b.listeners.get listener

namespace Untouched

variable {reqId : String} {p : Pending} {b₀ b b' : Broker}

theorem of_same (h : Untouched reqId p b₀ b) (hpending : b'.pending = b.pending)
    (hsettled : b'.settled = b.settled) (htimers : b'.timers = b.timers)
    (hlisteners : b'.listeners = b.listeners) :
  Untouched reqId p b₀ b'
  := by
  constructor
  · rw [hpending]
    apply h.pending
  · rw [hsettled]
    apply h.unsettled
  · rw [htimers]
    apply h.timer
  · rw [hlisteners]
    apply h.listener

theorem safeSend (h : Untouched reqId p b₀ b) (conn : ℕ) (frame : ServerFrame) :
  Untouched reqId p b₀ (b.safeSend conn frame)
  := by
  unfold Broker.safeSend
  split
  · apply h
  · exact h.of_same rfl rfl rfl rfl

/-- Deleting an entry leaves the entries of other commands alone. -/
theorem get_elim_delete {V : Type} {m : JsMap ℕ V} {k : ℕ} {o : Option ℕ} (h : o ≠ some k) :
  (o.elim m m.delete).get k = m.get k
  := by
  cases o with
  | none => rfl
  | some k' =>
      apply JsMap.get_delete_of_ne
      rintro rfl
      exact h rfl

/-- Another command settles. -/
theorem settle (h : Untouched reqId p b₀ b) (hb : Lifecycle b) {reqId' : String} {q : Pending}
    (hq : b.pending.get reqId' = some q) (hne : reqId ≠ reqId') (outcome : Outcome) :
  Untouched reqId p b₀ ((b.clearPending reqId').settle q outcome)
  := by
  rw [b.settle_eq hq]
  constructor
  · rw [JsMap.get_delete_of_ne _ hne]
    apply h.pending
  · intro hmem
    obtain heq | hmem := List.mem_cons.mp hmem
    · exact hne (hb.distinct reqId p reqId' q h.pending hq heq)
    · exact h.unsettled hmem
  · intro timer htimer
    rw [← h.timer timer htimer]
    apply get_elim_delete
    intro hq'
    exact hne (hb.timers.distinct reqId p reqId' q timer h.pending hq htimer hq')
  · intro listener hlistener
    rw [← h.listener listener hlistener]
    apply get_elim_delete
    intro hq'
    exact hne (hb.listeners.distinct reqId p reqId' q listener h.pending hq hlistener hq')

/-- What is added to a map of timers or listeners leaves the entries of other commands alone. -/
theorem get_adds {V : Type} {pending : JsMap String Pending} {m m' : JsMap ℕ V} {seq seq' : ℕ}
    {field : Pending → Option ℕ} {reqIdOf : V → String} {v : V} {added : Option ℕ}
    (harms : Arms pending m seq field reqIdOf) (hadds : Adds m m' seq seq' v added)
    (hp : pending.get reqId = some p) {k : ℕ} (hk : field p = some k) :
  m'.get k = m.get k
  := by
  obtain ⟨rfl, -, -⟩ | ⟨rfl, -, -⟩ := hadds
  · rfl
  · rw [JsMap.get_set_of_ne]
    rintro rfl
    exact Nat.lt_irrefl _ (harms.below reqId p k hp hk)

/-- Another command is dispatched, under a fresh id. -/
theorem dispatch (h : Untouched reqId p b₀ b) (hb : Lifecycle b) (hfresh : FreshId b)
    (opts : BrokerOptions) (executor : ExecutorInfo) (agentId : String) (cmd : Command)
    (signal : Option ℕ) (waiter : Waiter) :
  Untouched reqId p b₀ (b.dispatch opts executor agentId cmd signal waiter)
  := by
  have hne : reqId ≠ correlationId (nextIdCounter b.idCounter) := by
    rintro rfl
    have hp := h.pending
    rw [hfresh] at hp
    cases hp
  have hentered := hb.enter opts executor agentId cmd signal waiter hfresh
  have huntouched : Untouched reqId p b₀ (b.enter opts executor agentId cmd signal waiter
      (correlationId (nextIdCounter b.idCounter))) := by
    obtain ⟨timers, timerSeq, timer, listeners, listenerSeq, detachAbort, heq, ⟨error, htimers⟩,
      aborts, hlisteners⟩ := b.enter_eq opts executor agentId cmd signal waiter
        (correlationId (nextIdCounter b.idCounter))
    rw [heq]
    constructor
    · rw [JsMap.get_set_of_ne _ hne]
      apply h.pending
    · apply h.unsettled
    · intro timer' htimer
      rw [← h.timer timer' htimer]
      apply get_adds hb.timers htimers h.pending htimer
    · intro listener hlistener
      rw [← h.listener listener hlistener]
      apply get_adds hb.listeners hlisteners h.pending hlistener
  simp only [Broker.dispatch]
  split
  · unfold Broker.settleReject
    split
    · apply huntouched
    · next q hq => apply huntouched.settle hentered hq hne
  · exact huntouched.of_same rfl rfl rfl rfl

/-- A frame that is not a result for a command leaves it alone. -/
theorem change (h : Untouched reqId p b₀ b) (hb : Lifecycle b) (hfresh : FreshId b₀)
    {opts : BrokerOptions} {conn : ℕ} {frame : ClientFrame} {reloadToken : Option String}
    (hother : ∀ ok data error, frame = .result reqId ok data error → b₀.executors.has conn = false)
    {c : Change} (hallowed : Allowed b₀ (.message conn frame reloadToken) b c)
    (hc : c.Does opts b b') :
  Untouched reqId p b₀ b'
  := by
  cases c with
  | idle => apply h.of_same (Idle.pending hc) (Idle.settled hc) (Idle.timers hc) (Idle.listeners hc)
  | frame conn f =>
      obtain rfl := hc
      apply h.safeSend
  | reply conn frameId outcome =>
      obtain rfl := hc
      apply h.safeSend
  | takeJob =>
      obtain ⟨job, jobs, -, rfl⟩ := hc
      exact h.of_same rfl rfl rfl rfl
  | dispatch executor agentId cmd signal waiter =>
      obtain rfl := hc
      apply h.dispatch hb (hallowed.1.freshId hfresh)
  | settle reqId' outcome =>
      obtain ⟨q, hq, rfl⟩ := hc
      apply h.settle hb hq
      rintro rfl
      obtain ⟨q', -, -, hconcludes⟩ := hallowed
      cases hconcludes with
      | result hhas =>
          rw [hother _ _ _ rfl] at hhas
          cases hhas
  | giveUp reqId' err =>
      obtain rfl := hc
      unfold Broker.abandon
      split
      · apply h
      · next q hq => cases hallowed.2 q hq
  | expire timer => cases hallowed
  | deafen listener =>
      obtain ⟨signal, l, he, -⟩ := hallowed
      cases he
  | _ =>
      obtain rfl := hc
      exact h.of_same rfl rfl rfl rfl

end Untouched

/-- A frame settles a command only if it is a result for it, from a connection that is
registered under the id of its executor. From another connection, it leaves the command alone. -/
def Protects (opts : BrokerOptions) (b : Broker) : BrokerEvent → Prop
  | .message conn frame reloadToken => ∀ reqId p, b.pending.get reqId = some p →
      (p.promise ∈ (b.handle opts (.message conn frame reloadToken)).settled →
        (∃ ok data error, frame = .result reqId ok data error) ∧
          RegisteredUnder b conn p.executorId) ∧
      (¬ RegisteredUnder b conn p.executorId →
        Untouched reqId p b (b.handle opts (.message conn frame reloadToken)))
  | _ => True

/-- An executor sends results only for commands that are not pending, or are pending for an id
under which its connection is registered. -/
def Genuine (b : Broker) : BrokerEvent → Prop
  | .message conn (.result reqId _ _ _) _ => b.executors.has conn = true →
      ∀ p ∈ b.pending.get reqId, RegisteredUnder b conn p.executorId
  | _ => True

instance (b : Broker) (e : BrokerEvent) :
  Decidable (Genuine b e)
  :=
  match e with
  | .message conn (.result reqId _ _ _) _ =>
      inferInstanceAs (Decidable (b.executors.has conn = true →
        ∀ p ∈ b.pending.get reqId, RegisteredUnder b conn p.executorId))
  | .message _ (.hello _) _ => .isTrue trivial
  | .message _ (.command _ _) _ => .isTrue trivial
  | .message _ (.event _) _ => .isTrue trivial
  | .message _ .ping _ => .isTrue trivial
  | .message _ .ignored _ => .isTrue trivial
  | .opened => .isTrue trivial
  | .closed _ => .isTrue trivial
  | .stop => .isTrue trivial
  | .createLocalAgent => .isTrue trivial
  | .send _ _ _ => .isTrue trivial
  | .release _ => .isTrue trivial
  | .abort _ => .isTrue trivial
  | .timeout _ => .isTrue trivial
  | .job => .isTrue trivial
  | .sendThrows _ _ => .isTrue trivial

/-- The result of an executor settles the command it is for. -/
theorem settled_handle_result {b : Broker} (opts : BrokerOptions) {conn : ℕ}
    {reloadToken : Option String} {reqId : String} {p : Pending} {ok : Bool} {data : Option ResultData} {error : Option ResultError}
    (hhas : b.executors.has conn = true) (hp : b.pending.get reqId = some p) :
  p.promise ∈ (b.handle opts (.message conn (.result reqId ok data error) reloadToken)).settled
  := by
  obtain ⟨info, hinfo⟩ := Option.isSome_iff_exists.mp hhas
  simp only [Broker.handle, Broker.onMessage, hinfo, Broker.handleExecutorFrame,
    Broker.handleResult, hp]
  apply List.mem_cons_self

namespace Lifecycle

variable {b : Broker} (opts : BrokerOptions) {conn : ℕ} {frame : ClientFrame}
  {reloadToken : Option String} {reqId : String} {p : Pending}

theorem untouched (h : Lifecycle b) (hp : b.pending.get reqId = some p) :
  Untouched reqId p b b
  := ⟨hp, (h.unsettled reqId p hp).1, fun _ _ => rfl, fun _ _ => rfl⟩

/-- A frame that is not a result for a command leaves it alone. -/
theorem untouched_message (h : Lifecycle b) (hfresh : FreshId b) (hp : b.pending.get reqId = some p)
    (hother : ∀ ok data error, frame = .result reqId ok data error → b.executors.has conn = false) :
  Untouched reqId p b (b.handle opts (.message conn frame reloadToken))
  := by
  have hboth := (handles opts b (.message conn frame reloadToken)).preserves
    (I := fun b' => Lifecycle b' ∧ Untouched reqId p b b')
    (fun b₁ c b₂ h hallowed hc => ⟨h.1.change hfresh hallowed hc,
      h.2.change h.1 hfresh hother hallowed hc⟩) ⟨h, h.untouched hp⟩
  apply hboth.2

/-- The commands are protected against a frame if and only if it is genuine. -/
theorem protects_iff (h : Lifecycle b) (hfresh : FreshId b) (e : BrokerEvent) :
  Protects opts b e ↔ Genuine b e
  := by
  cases e with
  | message conn frame reloadToken =>
      constructor
      · intro hprotects
        cases frame with
        | result reqId ok data error =>
            intro hhas p hp
            apply ((hprotects reqId p hp).1 (settled_handle_result opts hhas hp)).2
        | _ => trivial
      · intro hgenuine reqId p hp
        by_cases hresult : b.executors.has conn = true ∧
            ∃ ok data error, frame = .result reqId ok data error
        · obtain ⟨hhas, ok, data, error, rfl⟩ := hresult
          have hregistered := hgenuine hhas p hp
          exact ⟨fun _ => ⟨⟨ok, data, error, rfl⟩, hregistered⟩, fun hnot => (hnot hregistered).elim⟩
        · have huntouched : Untouched reqId p b
              (b.handle opts (.message conn frame reloadToken)) := by
            apply h.untouched_message opts hfresh hp
            intro ok data error heq
            apply Bool.eq_false_iff.mpr
            intro hhas
            apply hresult
            use hhas, ok, data, error
          exact ⟨fun hsettled => (huntouched.unsettled hsettled).elim, fun _ => huntouched⟩
  | _ => exact ⟨fun _ => trivial, fun _ => trivial⟩

end Lifecycle

/-! ### Runs -/

/-- As long as the ids of commands that are pending are not taken again, commands are protected
against all frames of a run if and only if these are genuine. -/
theorem protected_iff_genuine (opts : BrokerOptions) (token : String)
    (steps : List (Broker × BrokerEvent)) (b : Broker)
    (hrun : ((Broker.system opts).restrict fun b _ => FreshId b).Run (.initial token) steps b) :
  (∀ step ∈ steps, Protects opts step.1 step.2) ↔ ∀ step ∈ steps, Genuine step.1 step.2
  := by
  have hnext : ∀ b e, Lifecycle b →
      ((Broker.system opts).restrict fun b _ => FreshId b).enabled b e →
        Lifecycle (b.handle opts e) :=
    fun b e hb he => hb.handle opts e he.2
  have hsteps := hrun.preserves_steps hnext (Lifecycle.initial token)
  constructor
  · intro hprotects step hmem
    obtain ⟨hlife, he⟩ := hsteps step hmem
    apply (hlife.protects_iff opts he.2 step.2).mp (hprotects step hmem)
  · intro hgenuine step hmem
    obtain ⟨hlife, he⟩ := hsteps step hmem
    apply (hlife.protects_iff opts he.2 step.2).mpr (hgenuine step hmem)

/-- Two browsers are connected, and a local agent opens a tab in the first one. -/
def sampleTwoBrowsers : List BrokerEvent :=
  [.opened, .message 0 (sampleHello .extension "chrome") none, .opened,
    .message 1 (sampleHello .extension "firefox") none, .createLocalAgent,
    .send "local:1" sampleOpen none]

/-- The first browser answers, and the commands are protected. -/
theorem protected_of_genuine_once :
  ∃ steps b, ((Broker.system sampleOptions).restrict fun b _ => FreshId b).Run
      (.initial "token") steps b ∧
    b.settled = [2] ∧ ∀ step ∈ steps, Protects sampleOptions step.1 step.2
  := by
  have hplay : (((Broker.system sampleOptions).restrict fun b _ => FreshId b).play
      (sampleTwoBrowsers ++ [.message 0 (.result "c3" true none none) none])
      (.initial "token")).any (fun b => b.settled = [2]) = true := by
    decide
  obtain ⟨b, hb, hsettled⟩ := (Option.any_eq_true _ _).mp hplay
  have hrun := ((Broker.system sampleOptions).restrict fun b _ => FreshId b).run_of_play hb
  refine ⟨_, b, hrun, of_decide_eq_true hsettled, ?_⟩
  apply (protected_iff_genuine sampleOptions "token" _ b hrun).mpr
  decide

/-- The other browser sends a result with the id of the command, and settles it. -/
theorem settled_by_other :
  ¬ ∀ steps b, (Broker.system sampleOptions).Run (.initial "token") steps b →
    ∀ step ∈ steps, Protects sampleOptions step.1 step.2
  := by
  intro h
  have hplay : ((Broker.system sampleOptions).play
      (sampleTwoBrowsers ++ [.message 1 (.result "c3" true none none) none])
      (.initial "token")).isSome = true := by
    decide
  obtain ⟨b, hb⟩ := Option.isSome_iff_exists.mp hplay
  have hprotects := h _ b ((Broker.system sampleOptions).run_of_play hb) _
    (List.mem_of_getElem? (i := 6) rfl) "c3" _ rfl
  have hregistered := (hprotects.1 (by decide)).2
  revert hregistered
  decide

end Browser
