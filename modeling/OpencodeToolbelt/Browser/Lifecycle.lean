import OpencodeToolbelt.Browser.Unanswered
import OpencodeToolbelt.Browser.Changes

/-!
# The life of a command

A command is pending from its dispatch until its promise settles, which happens once, and
takes its timer and its listener with it. A command that is given up is cancelled at its
executor.
-/

namespace Browser

/-! ### Timers and listeners -/

/-- The entries of a map, timers or listeners, are those of the commands that are pending. -/
structure Arms {V : Type} (pending : JsMap String Pending) (m : JsMap ℕ V) (seq : ℕ)
    (field : Pending → Option ℕ) (reqIdOf : V → String) : Prop where
  live : ∀ k v, m.get k = some v → ∃ p, pending.get (reqIdOf v) = some p ∧ field p = some k
  below : ∀ reqId p k, pending.get reqId = some p → field p = some k → k < seq
  distinct : ∀ reqId p reqId' p' k, pending.get reqId = some p → pending.get reqId' = some p' →
    field p = some k → field p' = some k → reqId = reqId'

namespace Arms

variable {V : Type} {pending : JsMap String Pending} {m m' : JsMap ℕ V} {seq seq' : ℕ}
  {field : Pending → Option ℕ} {reqIdOf : V → String} {reqId : String} {p : Pending}

theorem empty (seq : ℕ) (field : Pending → Option ℕ) (reqIdOf : V → String) :
  Arms .empty .empty seq field reqIdOf
  := by
  constructor
  · intro k v hv
    rw [JsMap.get_empty] at hv
    cases hv
  · intro reqId p k hp
    rw [JsMap.get_empty] at hp
    cases hp
  · intro reqId p reqId' p' k hp
    rw [JsMap.get_empty] at hp
    cases hp

/-- An entry belongs to the command whose it is. -/
theorem own (h : Arms pending m seq field reqIdOf) (hp : pending.get reqId = some p) {k : ℕ}
    (hk : field p = some k) {v : V} (hv : m.get k = some v) :
  reqIdOf v = reqId
  := by
  obtain ⟨p', hp', hk'⟩ := h.live k v hv
  apply h.distinct _ p' reqId p k hp' hp hk' hk

theorem shrink (h : Arms pending m seq field reqIdOf)
    (hsub : ∀ k v, m'.get k = some v → m.get k = some v) :
  Arms pending m' seq field reqIdOf
  := ⟨fun k v hv => h.live k v (hsub k v hv), h.below, h.distinct⟩

/-- A command that is no longer pending takes its entry with it. -/
theorem delete (h : Arms pending m seq field reqIdOf) (hp : pending.get reqId = some p) :
  Arms (pending.delete reqId) ((field p).elim m m.delete) seq field reqIdOf
  := by
  have hsub : ∀ k v, ((field p).elim m m.delete).get k = some v →
      m.get k = some v ∧ field p ≠ some k := by
    intro k v hv
    cases hfield : field p with
    | none =>
        rw [hfield] at hv
        exact ⟨hv, nofun⟩
    | some k' =>
        rw [hfield] at hv
        use JsMap.get_of_get_delete hv
        rintro ⟨⟩
        simp at hv
  constructor
  · intro k v hv
    obtain ⟨hold, hne⟩ := hsub k v hv
    obtain ⟨p', hp', hk⟩ := h.live k v hold
    use p'
    rw [JsMap.get_delete_of_ne]
    · exact ⟨hp', hk⟩
    · rintro rfl
      rw [hp] at hp'
      obtain rfl := Option.some.inj hp'
      exact hne hk
  · exact fun reqId' p' k hp' hk => h.below reqId' p' k (JsMap.get_of_get_delete hp') hk
  · intro reqId₁ p₁ reqId₂ p₂ k hp₁ hp₂ hk₁ hk₂
    apply h.distinct reqId₁ p₁ reqId₂ p₂ k (JsMap.get_of_get_delete hp₁)
      (JsMap.get_of_get_delete hp₂) hk₁ hk₂

/-- A command that is entered brings its entry with it. -/
theorem set (h : Arms pending m seq field reqIdOf) (hfresh : pending.get reqId = none) {v : V}
    (hadds : Adds m m' seq seq' v (field p)) (hv : reqIdOf v = reqId) :
  Arms (pending.set reqId p) m' seq' field reqIdOf
  := by
  have hother : ∀ reqId' q, pending.get reqId' = some q → reqId' ≠ reqId := by
    rintro reqId' q hq rfl
    rw [hfresh] at hq
    cases hq
  have hseq : seq ≤ seq' ∧ ∀ k, field p = some k → k = seq ∧ k < seq' := by
    obtain ⟨-, rfl, hnone⟩ | ⟨-, rfl, hsome⟩ := hadds
    · use Nat.le_refl _
      intro k hk
      rw [hnone] at hk
      cases hk
    · use Nat.le_succ _
      intro k hk
      rw [hsome] at hk
      obtain rfl := Option.some.inj hk
      exact ⟨rfl, Nat.lt_succ_self _⟩
  constructor
  · have hold : ∀ k w, m.get k = some w →
        ∃ q, (pending.set reqId p).get (reqIdOf w) = some q ∧ field q = some k := by
      intro k w hw
      obtain ⟨q, hq, hk⟩ := h.live k w hw
      use q
      rw [JsMap.get_set_of_ne _ (hother _ q hq)]
      exact ⟨hq, hk⟩
    intro k w hw
    obtain ⟨rfl, -, -⟩ | ⟨rfl, -, hsome⟩ := hadds
    · apply hold k w hw
    · rw [JsMap.get_set] at hw
      split at hw
      · next heq =>
          obtain rfl := Option.some.inj hw
          use p
          rw [hv, JsMap.get_set_self, heq]
          exact ⟨rfl, hsome⟩
      · apply hold k w hw
  · intro reqId' q k hq hk
    rw [JsMap.get_set] at hq
    split at hq
    · obtain rfl := Option.some.inj hq
      exact (hseq.2 k hk).2
    · apply Nat.lt_of_lt_of_le (h.below reqId' q k hq hk) hseq.1
  · intro reqId₁ p₁ reqId₂ p₂ k hp₁ hp₂ hk₁ hk₂
    rw [JsMap.get_set] at hp₁ hp₂
    split at hp₁
    · next heq₁ =>
        split at hp₂
        · next heq₂ => rw [heq₁, heq₂]
        · obtain rfl := Option.some.inj hp₁
          have hlt := h.below reqId₂ p₂ k hp₂ hk₂
          rw [(hseq.2 k hk₁).1] at hlt
          exact (Nat.lt_irrefl _ hlt).elim
    · split at hp₂
      · obtain rfl := Option.some.inj hp₂
        have hlt := h.below reqId₁ p₁ k hp₁ hk₁
        rw [(hseq.2 k hk₂).1] at hlt
        exact (Nat.lt_irrefl _ hlt).elim
      · apply h.distinct reqId₁ p₁ reqId₂ p₂ k hp₁ hp₂ hk₁ hk₂

end Arms

/-! ### The invariant -/

/-- Every promise settles once at most, and its command is pending until then. -/
structure Lifecycle (b : Broker) : Prop where
  settled : b.settled.Nodup
  unsettled : ∀ reqId p, b.pending.get reqId = some p →
    p.promise ∉ b.settled ∧ ∃ conn, (p.promise, conn) ∈ b.dispatched
  pending : ∀ d ∈ b.dispatched, d.1 ∉ b.settled → ∃ reqId p, b.pending.get reqId = some p ∧
    p.promise = d.1
  distinct : ∀ reqId p reqId' p', b.pending.get reqId = some p → b.pending.get reqId' = some p' →
    p.promise = p'.promise → reqId = reqId'
  dispatched : ∀ d ∈ b.dispatched, d.1 < b.promiseSeq
  known : ∀ promise ∈ b.settled, promise < b.promiseSeq
  timers : Arms b.pending b.timers b.timerSeq Pending.timer Timer.reqId
  listeners : Arms b.pending b.listeners b.listenerSeq Pending.detachAbort Listener.reqId

namespace Lifecycle

variable {b b' : Broker}

theorem of_same (h : Lifecycle b) (hpending : b'.pending = b.pending)
    (hsettled : b'.settled = b.settled) (hdispatched : b'.dispatched = b.dispatched)
    (hpromise : b'.promiseSeq = b.promiseSeq)
    (htimers : ∀ k v, b'.timers.get k = some v → b.timers.get k = some v)
    (htimerSeq : b'.timerSeq = b.timerSeq)
    (hlisteners : ∀ k v, b'.listeners.get k = some v → b.listeners.get k = some v)
    (hlistenerSeq : b'.listenerSeq = b.listenerSeq) :
  Lifecycle b'
  := by
  constructor
  · rw [hsettled]
    apply h.settled
  · rw [hpending, hsettled, hdispatched]
    apply h.unsettled
  · rw [hpending, hsettled, hdispatched]
    apply h.pending
  · rw [hpending]
    apply h.distinct
  · rw [hdispatched, hpromise]
    apply h.dispatched
  · rw [hsettled, hpromise]
    apply h.known
  · rw [hpending, htimerSeq]
    apply h.timers.shrink htimers
  · rw [hpending, hlistenerSeq]
    apply h.listeners.shrink hlisteners

theorem idle (h : Lifecycle b) (hidle : Idle b b') :
  Lifecycle b'
  := by
  apply h.of_same hidle.pending hidle.settled hidle.dispatched hidle.promiseSeq _ hidle.timerSeq _
    hidle.listenerSeq
  · rw [hidle.timers]
    exact fun _ _ h => h
  · rw [hidle.listeners]
    exact fun _ _ h => h

theorem safeSend (h : Lifecycle b) (conn : ℕ) (frame : ServerFrame) :
  Lifecycle (b.safeSend conn frame)
  := by
  unfold Broker.safeSend
  split
  · apply h
  · exact h.of_same rfl rfl rfl rfl (fun _ _ h => h) rfl (fun _ _ h => h) rfl

/-- A command that settles is no longer pending. -/
theorem settle (h : Lifecycle b) {reqId : String} {p : Pending}
    (hp : b.pending.get reqId = some p) (outcome : Outcome) :
  Lifecycle ((b.clearPending reqId).settle p outcome)
  := by
  obtain ⟨hunsettled, conn, hdispatched⟩ := h.unsettled reqId p hp
  rw [b.settle_eq hp]
  constructor
  · exact List.nodup_cons.mpr ⟨hunsettled, h.settled⟩
  · intro reqId' q hq
    have hold := JsMap.get_of_get_delete hq
    obtain ⟨hq', hmem⟩ := h.unsettled reqId' q hold
    refine ⟨?_, hmem⟩
    intro hsettled
    obtain heq | hsettled := List.mem_cons.mp hsettled
    · obtain rfl := h.distinct reqId' q reqId p hold hp heq
      simp at hq
    · exact hq' hsettled
  · intro d hd hd'
    obtain ⟨reqId', q, hq, hpromise⟩ := h.pending d hd fun hmem => hd' (List.mem_cons_of_mem _ hmem)
    use reqId', q
    change (b.pending.delete reqId).get reqId' = some q ∧ _
    rw [JsMap.get_delete_of_ne]
    · exact ⟨hq, hpromise⟩
    · rintro rfl
      rw [hp] at hq
      obtain rfl := Option.some.inj hq
      apply hd'
      rw [hpromise]
      apply List.mem_cons_self
  · exact fun reqId₁ p₁ reqId₂ p₂ hp₁ hp₂ =>
      h.distinct reqId₁ p₁ reqId₂ p₂ (JsMap.get_of_get_delete hp₁) (JsMap.get_of_get_delete hp₂)
  · apply h.dispatched
  · intro promise hmem
    obtain rfl | hmem := List.mem_cons.mp hmem
    · apply h.dispatched _ hdispatched
    · apply h.known promise hmem
  · apply h.timers.delete hp
  · apply h.listeners.delete hp

theorem settleReject (h : Lifecycle b) (reqId : String) (err : BrokerError) :
  Lifecycle (b.settleReject reqId err)
  := by
  unfold Broker.settleReject
  split
  · apply h
  · next p hp => apply h.settle hp

theorem abandon (h : Lifecycle b) (reqId : String) (err : BrokerError) :
  Lifecycle (b.abandon reqId err)
  := by
  unfold Broker.abandon
  split
  · apply h
  · split
    · apply h.settleReject
    · apply (h.safeSend _ _).settleReject

/-- A command that is entered under a fresh id is pending. -/
theorem enter (h : Lifecycle b) (opts : BrokerOptions) (executor : ExecutorInfo) (agentId : String)
    (cmd : Command) (signal : Option ℕ) (waiter : Waiter) {reqId : String}
    (hfresh : b.pending.get reqId = none) :
  Lifecycle (b.enter opts executor agentId cmd signal waiter reqId)
  := by
  obtain ⟨timers, timerSeq, timer, listeners, listenerSeq, detachAbort, heq, ⟨error, htimers⟩,
    aborts, hlisteners⟩ := b.enter_eq opts executor agentId cmd signal waiter reqId
  rw [heq]
  have hnew : b.promiseSeq ∉ b.settled := fun hmem => Nat.lt_irrefl _ (h.known _ hmem)
  have hnone : ∀ reqId' q, b.pending.get reqId' = some q → q.promise ≠ b.promiseSeq := by
    intro reqId' q hq heq
    obtain ⟨-, conn, hmem⟩ := h.unsettled reqId' q hq
    apply Nat.lt_irrefl b.promiseSeq
    rw [heq] at hmem
    apply h.dispatched _ hmem
  constructor
  · apply h.settled
  · intro reqId' q hq
    change (b.pending.set reqId _).get reqId' = some q at hq
    rw [JsMap.get_set] at hq
    split at hq
    · obtain rfl := Option.some.inj hq
      use hnew, executor.conn
      apply List.mem_cons_self
    · obtain ⟨hq', conn, hmem⟩ := h.unsettled reqId' q hq
      use hq', conn
      apply List.mem_cons_of_mem _ hmem
  · intro d hd hd'
    obtain rfl | hd := List.mem_cons.mp hd
    · exact ⟨reqId, _, JsMap.get_set_self _ _ _, rfl⟩
    · obtain ⟨reqId', q, hq, hpromise⟩ := h.pending d hd hd'
      use reqId', q
      change (b.pending.set reqId _).get reqId' = some q ∧ _
      rw [JsMap.get_set_of_ne]
      · exact ⟨hq, hpromise⟩
      · rintro rfl
        rw [hfresh] at hq
        cases hq
  · intro reqId₁ p₁ reqId₂ p₂ hp₁ hp₂ hpromise
    change (b.pending.set reqId _).get _ = _ at hp₁ hp₂
    rw [JsMap.get_set] at hp₁ hp₂
    split at hp₁
    · next heq₁ =>
        split at hp₂
        · next heq₂ => rw [heq₁, heq₂]
        · obtain rfl := Option.some.inj hp₁
          exact (hnone reqId₂ p₂ hp₂ hpromise.symm).elim
    · split at hp₂
      · obtain rfl := Option.some.inj hp₂
        exact (hnone reqId₁ p₁ hp₁ hpromise).elim
      · apply h.distinct reqId₁ p₁ reqId₂ p₂ hp₁ hp₂ hpromise
  · intro d hd
    obtain rfl | hd := List.mem_cons.mp hd
    · apply Nat.lt_succ_self
    · apply Nat.lt_succ_of_lt (h.dispatched d hd)
  · exact fun promise hmem => Nat.lt_succ_of_lt (h.known promise hmem)
  · apply h.timers.set hfresh htimers rfl
  · apply h.listeners.set hfresh hlisteners rfl

theorem dispatch (h : Lifecycle b) (hfresh : FreshId b) (opts : BrokerOptions)
    (executor : ExecutorInfo) (agentId : String) (cmd : Command) (signal : Option ℕ)
    (waiter : Waiter) :
  Lifecycle (b.dispatch opts executor agentId cmd signal waiter)
  := by
  have hentered := h.enter opts executor agentId cmd signal waiter hfresh
  simp only [Broker.dispatch]
  split
  · apply hentered.settleReject
  · exact hentered.of_same rfl rfl rfl rfl (fun _ _ h => h) rfl (fun _ _ h => h) rfl

end Lifecycle

/-- The job that an event runs is no command. -/
theorem Ready.freshId {b b' : Broker} {e : BrokerEvent} (h : Ready (b.started e) b')
    (hfresh : FreshId b) :
  FreshId b'
  := by
  have hstarted : (b.started e).pending = b.pending ∧ (b.started e).idCounter = b.idCounter := by
    cases e <;> exact ⟨rfl, rfl⟩
  unfold FreshId
  rw [h.pending, h.idCounter, hstarted.1, hstarted.2]
  apply hfresh

namespace Lifecycle

variable {b b' : Broker}

/-- Every change that an event allows preserves the invariant. -/
theorem change (h : Lifecycle b) {opts : BrokerOptions} {b₀ : Broker} {e : BrokerEvent}
    (hfresh : FreshId b₀) {c : Change} (hallowed : Allowed b₀ e b c) (hc : c.Does opts b b') :
  Lifecycle b'
  := by
  cases c with
  | idle => apply h.idle hc
  | frame conn f =>
      obtain rfl := hc
      apply h.safeSend
  | reply conn frameId outcome =>
      obtain rfl := hc
      apply h.safeSend
  | takeJob =>
      obtain ⟨job, jobs, -, rfl⟩ := hc
      exact h.of_same rfl rfl rfl rfl (fun _ _ h => h) rfl (fun _ _ h => h) rfl
  | dispatch executor agentId cmd signal waiter =>
      obtain rfl := hc
      apply h.dispatch (hallowed.1.freshId hfresh)
  | settle reqId outcome =>
      obtain ⟨p, hp, rfl⟩ := hc
      apply h.settle hp
  | giveUp reqId err =>
      obtain rfl := hc
      apply h.abandon
  | expire timer =>
      obtain rfl := hc
      exact h.of_same rfl rfl rfl rfl (fun _ _ h => JsMap.get_of_get_delete h) rfl
        (fun _ _ h => h) rfl
  | deafen listener =>
      obtain rfl := hc
      exact h.of_same rfl rfl rfl rfl (fun _ _ h => h) rfl
        (fun _ _ h => JsMap.get_of_get_delete h) rfl
  | _ =>
      obtain rfl := hc
      exact h.of_same rfl rfl rfl rfl (fun _ _ h => h) rfl (fun _ _ h => h) rfl

theorem handle (h : Lifecycle b) (opts : BrokerOptions) (e : BrokerEvent) (hfresh : FreshId b) :
  Lifecycle (b.handle opts e)
  := by
  apply (handles opts b e).preserves (I := Lifecycle) _ h
  exact fun b' c b'' h hallowed hc => h.change hfresh hallowed hc

theorem initial (token : String) :
  Lifecycle (.initial token)
  := by
  have hnone : ∀ reqId p, (Broker.initial token).pending.get reqId ≠ some p := nofun
  constructor
  · apply List.nodup_nil
  · exact fun reqId p hp => (hnone reqId p hp).elim
  · exact fun d hd => (List.not_mem_nil hd).elim
  · exact fun reqId p _ _ hp => (hnone reqId p hp).elim
  · exact fun d hd => (List.not_mem_nil hd).elim
  · exact fun promise hmem => (List.not_mem_nil hmem).elim
  · apply Arms.empty
  · apply Arms.empty

end Lifecycle

/-! ### A command stays pending until it settles -/

theorem Broker.get_enter (b : Broker) (opts : BrokerOptions) (executor : ExecutorInfo)
    (agentId : String) (cmd : Command) (signal : Option ℕ) (waiter : Waiter) {reqId reqId' : String}
    (hne : reqId' ≠ reqId) :
  (b.enter opts executor agentId cmd signal waiter reqId).pending.get reqId' =
    b.pending.get reqId'
  := by
  obtain ⟨p, hp, -⟩ := b.enter_pending opts executor agentId cmd signal waiter reqId
  rw [hp, JsMap.get_set_of_ne _ hne]

theorem Broker.get_settleReject (b : Broker) (reqId : String) (err : BrokerError) (reqId' : String) :
  (b.settleReject reqId err).pending.get reqId' =
    if reqId' = reqId then none else b.pending.get reqId'
  := by
  unfold settleReject
  split
  · next hnone =>
      split
      · next heq => rw [heq, hnone]
      · rfl
  · next p hp =>
      rw [b.settle_eq hp]
      apply JsMap.get_delete

theorem Broker.get_safeSend (b : Broker) (conn : ℕ) (frame : ServerFrame) :
  (b.safeSend conn frame).pending = b.pending
  := by
  unfold safeSend
  split <;> rfl

theorem Broker.get_abandon (b : Broker) (reqId : String) (err : BrokerError) (reqId' : String) :
  (b.abandon reqId err).pending.get reqId' =
    if reqId' = reqId then none else b.pending.get reqId'
  := by
  unfold abandon
  split
  · next hnone =>
      split
      · next heq => rw [heq, hnone]
      · rfl
  · split
    · apply get_settleReject
    · rw [get_settleReject, get_safeSend]

theorem Broker.get_dispatch (b : Broker) (opts : BrokerOptions) (executor : ExecutorInfo)
    (agentId : String) (cmd : Command) (signal : Option ℕ) (waiter : Waiter) {reqId : String}
    (hne : reqId ≠ correlationId (nextIdCounter b.idCounter)) :
  (b.dispatch opts executor agentId cmd signal waiter).pending.get reqId = b.pending.get reqId
  := by
  simp only [dispatch]
  split
  · rw [get_settleReject, if_neg hne, get_enter _ _ _ _ _ _ _ hne]
  · apply get_enter _ _ _ _ _ _ _ hne

end Browser
