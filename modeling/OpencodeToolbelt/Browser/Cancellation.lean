import OpencodeToolbelt.Browser.Lifecycle

/-!
# Commands that are given up

The commands that are given up while their executor is connected are those for which the
executor is sent a cancellation, each of them once.
-/

namespace Browser

/-! ### What stays pending -/

/-- A command that is pending stays so or settles. -/
def Stays (reqId : String) (p : Pending) (b : Broker) : Prop :=
  b.pending.get reqId = some p ∨ p.promise ∈ b.settled

/-- What has settled stays settled. -/
theorem Change.Does.settled {opts : BrokerOptions} {b b' : Broker} {c : Change}
    (h : c.Does opts b b') :
  ∀ promise ∈ b.settled, promise ∈ b'.settled
  := by
  have hreject : ∀ (b : Broker) reqId err, ∀ promise ∈ b.settled,
      promise ∈ (b.settleReject reqId err).settled :=
    fun b reqId err => (b.settles_settleReject reqId err).settled
  cases c with
  | idle =>
      rw [Idle.settled h]
      exact fun _ h => h
  | frame conn f =>
      obtain rfl := h
      apply (b.settles_safeSend _ _).settled
  | reply conn frameId outcome =>
      obtain rfl := h
      apply (b.settles_safeSend _ _).settled
  | takeJob =>
      obtain ⟨job, jobs, -, rfl⟩ := h
      exact fun _ h => h
  | dispatch executor agentId cmd signal waiter =>
      obtain rfl := h
      have henter := (b.enter_same opts executor agentId cmd signal waiter
        (correlationId (nextIdCounter b.idCounter))).2.2
      intro promise hmem
      simp only [Broker.dispatch]
      split
      · apply hreject
        rwa [henter]
      · rw [← henter] at hmem
        apply hmem
  | settle reqId outcome =>
      obtain ⟨p, hp, rfl⟩ := h
      apply (b.clears_settle hp outcome).settled
  | giveUp reqId err =>
      obtain rfl := h
      apply (b.settles_abandon _ _).settled
  | _ =>
      obtain rfl := h
      exact fun _ h => h

/-- A change leaves a command pending, or settles it. -/
theorem Change.Does.stays {opts : BrokerOptions} {b b' : Broker} {c : Change} {reqId : String}
    {p : Pending} (h : c.Does opts b b') (hp : b.pending.get reqId = some p)
    (hfresh : ∀ executor agentId cmd signal waiter,
      c = .dispatch executor agentId cmd signal waiter → FreshId b) :
  Stays reqId p b'
  := by
  cases c with
  | idle =>
      left
      rw [Idle.pending h, hp]
  | frame conn f =>
      obtain rfl := h
      apply (b.settles_safeSend _ _).removed reqId p hp
  | reply conn frameId outcome =>
      obtain rfl := h
      apply (b.settles_safeSend _ _).removed reqId p hp
  | takeJob =>
      obtain ⟨job, jobs, -, rfl⟩ := h
      exact .inl hp
  | dispatch executor agentId cmd signal waiter =>
      obtain rfl := h
      left
      rw [b.get_dispatch, hp]
      rintro rfl
      rw [hfresh executor agentId cmd signal waiter rfl] at hp
      cases hp
  | settle reqId outcome =>
      obtain ⟨q, hq, rfl⟩ := h
      apply (b.clears_settle hq outcome).removed _ p hp
  | giveUp reqId err =>
      obtain rfl := h
      apply (b.settles_abandon _ _).removed _ p hp
  | _ =>
      obtain rfl := h
      exact .inl hp

theorem stays_handle (opts : BrokerOptions) (e : BrokerEvent) {b : Broker} {reqId : String}
    {p : Pending} (hfresh : FreshId b) (h : Stays reqId p b) :
  Stays reqId p (b.handle opts e)
  := by
  apply (handles opts b e).preserves (I := Stays reqId p) _ h
  intro b' c b'' h hallowed hc
  obtain hp | hsettled := h
  · apply hc.stays hp
    rintro executor agentId cmd signal waiter rfl
    apply hallowed.1.freshId hfresh
  · right
    apply hc.settled _ hsettled

theorem settled_handle (opts : BrokerOptions) (b : Broker) (e : BrokerEvent) :
  ∀ promise ∈ b.settled, promise ∈ (b.handle opts e).settled
  := by
  intro promise hmem
  apply (handles opts b e).preserves (I := fun b => promise ∈ b.settled) _ hmem
  exact fun b' c b'' h _ hc => hc.settled promise h

/-! ### Cancellations -/

/-- The id of a command that a frame cancels. -/
def cancelId : ℕ × ServerFrame → Option String
  | (_, .cancel reqId) => some reqId
  | _ => none

/-- An event gives up a command while its executor is connected and accepts frames. -/
def Cancels (b : Broker) (e : BrokerEvent) (reqId : String) (conn : ℕ) : Prop :=
  ∃ p err exec, b.pending.get reqId = some p ∧ GivesUp b e reqId p err ∧
    b.executorById.get p.executorId = some exec ∧ exec.conn = conn ∧ b.broken.has conn = false

/-- An event that gives commands up dispatches none. -/
theorem Origin.not_givesUp {b b' : Broker} {e : BrokerEvent} {executor : ExecutorInfo}
    {agentId : String} {cmd : Command} {signal : Option ℕ} {waiter : Waiter}
    (h : Origin b e b' executor agentId cmd signal waiter) {reqId : String} {p : Pending}
    {err : BrokerError} :
  ¬ GivesUp b e reqId p err
  := by
  intro hgives
  cases h with
  | rebuild he _ _ =>
      subst he
      cases hgives
  | tabs _ hgathers =>
      cases hgathers with
      | asked hasks _ _ => cases hgives <;> cases hasks
      | gathered he _ =>
          subst he
          cases hgives
  | routed hasks _ _ _ => cases hgives <;> cases hasks

/-- An event that gives commands up settles no other. -/
theorem Concludes.not_givesUp {b : Broker} {e : BrokerEvent} {reqId reqId' : String}
    {p p' : Pending} {outcome : Outcome} (h : Concludes b e reqId p outcome) {err : BrokerError} :
  ¬ GivesUp b e reqId' p' err
  := by
  intro hgives
  cases h with
  | result _ => cases hgives
  | executorGone hexecutor _ _ _ =>
      cases hgives with
      | agentGone hnone _ _ =>
          rw [hnone] at hexecutor
          cases hexecutor
  | stopped => cases hgives

/-- The frames that have been sent since an event began, and the commands they cancel. -/
structure Cancelled (b : Broker) (e : BrokerEvent) (frames : List (ℕ × ServerFrame)) (b' : Broker) :
    Prop where
  sent : b'.sent = frames ++ b.sent
  nodup : (frames.filterMap cancelId).Nodup
  gone : ∀ reqId ∈ frames.filterMap cancelId, b'.pending.get reqId = none
  sound : ∀ conn reqId, (conn, .cancel reqId) ∈ frames → Cancels b e reqId conn
  complete : ∀ reqId conn, Cancels b e reqId conn →
    b'.pending.get reqId ≠ none ∨ (conn, .cancel reqId) ∈ frames

namespace Cancelled

variable {b b' b'' : Broker} {e : BrokerEvent} {frames : List (ℕ × ServerFrame)}

/-- No frame is sent, and no command is given up. -/
theorem quiet (h : Cancelled b e frames b') (hsent : b''.sent = b'.sent)
    (hpending : ∀ reqId, b'.pending.get reqId = none → b''.pending.get reqId = none)
    (hkept : ∀ reqId conn, Cancels b e reqId conn → b'.pending.get reqId ≠ none →
      b''.pending.get reqId ≠ none) :
  Cancelled b e frames b''
  := by
  refine ⟨hsent.trans h.sent, h.nodup, ?_, h.sound, ?_⟩
  · exact fun reqId hmem => hpending reqId (h.gone reqId hmem)
  · exact fun reqId conn hcancels => (h.complete reqId conn hcancels).imp_left
      (hkept reqId conn hcancels)

/-- A frame is sent that cancels nothing. -/
theorem send (h : Cancelled b e frames b') {f : ℕ × ServerFrame} (hf : cancelId f = none)
    (hsent : b''.sent = f :: b'.sent) (hpending : b''.pending = b'.pending) :
  Cancelled b e (f :: frames) b''
  := by
  have hnone : (f :: frames).filterMap cancelId = frames.filterMap cancelId := by
    rw [List.filterMap_cons, hf]
  constructor
  · rw [hsent, h.sent, List.cons_append]
  · rw [hnone]
    apply h.nodup
  · rw [hnone, hpending]
    apply h.gone
  · intro conn reqId hmem
    obtain rfl | hmem := List.mem_cons.mp hmem
    · cases hf
    · apply h.sound conn reqId hmem
  · rw [hpending]
    exact fun reqId conn hcancels =>
      (h.complete reqId conn hcancels).imp_right (List.mem_cons_of_mem _)

theorem safeSend (h : Cancelled b e frames b') (conn : ℕ) {frame : ServerFrame}
    (hf : cancelId (conn, frame) = none) :
  ∃ frames', Cancelled b e frames' (b'.safeSend conn frame)
  := by
  unfold Broker.safeSend
  split
  · use frames
  · exact ⟨_, h.send hf rfl rfl⟩

/-- A command is given up, and its executor told so. -/
theorem abandon (h : Cancelled b e frames b') {reqId : String} {err : BrokerError}
    (hsteady : Steady b b')
    (hgives : ∀ p, b'.pending.get reqId = some p → GivesUp b e reqId p err) :
  ∃ frames', Cancelled b e frames' (b'.abandon reqId err)
  := by
  have hgone : ∀ reqId', b'.pending.get reqId' = none →
      (b'.abandon reqId err).pending.get reqId' = none := by
    intro reqId' hnone
    rw [Broker.get_abandon, hnone]
    split <;> rfl
  have hother : ∀ reqId', reqId' ≠ reqId → b'.pending.get reqId' ≠ none →
      (b'.abandon reqId err).pending.get reqId' ≠ none := by
    intro reqId' hne hsome
    rwa [Broker.get_abandon, if_neg hne]
  cases hp : b'.pending.get reqId with
  | none =>
      use frames
      apply h.quiet _ hgone
      · intro reqId' conn _ hsome
        apply hother reqId' _ hsome
        rintro rfl
        exact hsome hp
      · simp [Broker.abandon, hp]
  | some p =>
      have hold := hsteady.pending reqId p hp
      -- The command is cancelled if and only if its executor accepts frames.
      have hcancels : ∀ conn, Cancels b e reqId conn ↔
          ∃ exec, b'.executorById.get p.executorId = some exec ∧ exec.conn = conn ∧
            b'.broken.has conn = false := by
        intro conn
        rw [hsteady.executorById, hsteady.broken]
        constructor
        · rintro ⟨p', err', exec, hp', -, hexec, hconn, hbroken⟩
          rw [hold] at hp'
          obtain rfl := Option.some.inj hp'
          use exec
        · rintro ⟨exec, hexec, hconn, hbroken⟩
          use p, err, exec, hold, hgives p hp
      have hquiet : (b'.abandon reqId err).sent = b'.sent → (∀ conn, ¬ Cancels b e reqId conn) →
          Cancelled b e frames (b'.abandon reqId err) := by
        intro hsent hnever
        apply h.quiet hsent hgone
        intro reqId' conn hcancels' hsome
        apply hother reqId' _ hsome
        rintro rfl
        apply hnever conn hcancels'
      cases hexec : b'.executorById.get p.executorId with
      | none =>
          use frames
          apply hquiet
          · simp [Broker.abandon, hp, hexec]
          · intro conn hcancels'
            obtain ⟨exec, hexec', -⟩ := (hcancels conn).mp hcancels'
            rw [hexec] at hexec'
            cases hexec'
      | some exec =>
          have hsent : (b'.abandon reqId err).sent =
              (if b'.broken.has exec.conn then [] else [(exec.conn, .cancel reqId)]) ++
                b'.sent := by
            simp only [Broker.abandon, hp, hexec, Broker.sent_settleReject, Broker.sent_safeSend]
          cases hbroken : b'.broken.has exec.conn with
          | true =>
              use frames
              apply hquiet
              · rw [hsent, hbroken]
                rfl
              · intro conn hcancels'
                obtain ⟨exec', hexec', rfl, hbroken'⟩ := (hcancels conn).mp hcancels'
                rw [hexec] at hexec'
                obtain rfl := Option.some.inj hexec'
                rw [hbroken] at hbroken'
                cases hbroken'
          | false =>
              rw [hbroken] at hsent
              use (exec.conn, .cancel reqId) :: frames
              have hids : ((exec.conn, ServerFrame.cancel reqId) :: frames).filterMap cancelId =
                  reqId :: frames.filterMap cancelId := rfl
              constructor
              · rw [hsent, h.sent]
                rfl
              · rw [hids, List.nodup_cons]
                refine ⟨?_, h.nodup⟩
                intro hmem
                rw [h.gone reqId hmem] at hp
                cases hp
              · intro reqId' hmem
                rw [hids] at hmem
                rw [Broker.get_abandon]
                obtain rfl | hmem := List.mem_cons.mp hmem
                · apply if_pos rfl
                · rw [h.gone reqId' hmem]
                  split <;> rfl
              · intro conn reqId' hmem
                obtain heq | hmem := List.mem_cons.mp hmem
                · obtain ⟨rfl, hframe⟩ := Prod.mk.inj heq
                  obtain rfl := ServerFrame.cancel.inj hframe
                  apply (hcancels exec.conn).mpr
                  use exec
                · apply h.sound conn reqId' hmem
              · intro reqId' conn hcancels'
                by_cases heq : reqId' = reqId
                · subst heq
                  obtain ⟨exec', hexec', rfl, -⟩ := (hcancels conn).mp hcancels'
                  rw [hexec] at hexec'
                  obtain rfl := Option.some.inj hexec'
                  right
                  apply List.mem_cons_self
                · obtain hsome | hmem := h.complete reqId' conn hcancels'
                  · left
                    apply hother reqId' heq hsome
                  · right
                    apply List.mem_cons_of_mem _ hmem

/-- An event that gives up no command cancels none. -/
theorem never (h : Cancelled b e frames b') (hnever : ∀ reqId conn, ¬ Cancels b e reqId conn)
    (new : List (ℕ × ServerFrame)) (hnew : ∀ f ∈ new, cancelId f = none)
    (hsent : b''.sent = new ++ b'.sent) :
  Cancelled b e (new ++ frames) b''
  := by
  have hold : ∀ conn reqId, (conn, ServerFrame.cancel reqId) ∉ new ++ frames := by
    intro conn reqId hmem
    obtain hmem | hmem := List.mem_append.mp hmem
    · cases hnew _ hmem
    · apply hnever reqId conn (h.sound conn reqId hmem)
  have hnone : (new ++ frames).filterMap cancelId = [] := by
    rw [List.filterMap_eq_nil_iff]
    rintro ⟨conn, frame⟩ hmem
    cases frame with
    | cancel reqId => exact (hold conn reqId hmem).elim
    | _ => rfl
  constructor
  · rw [hsent, h.sent, List.append_assoc]
  · rw [hnone]
    apply List.nodup_nil
  · rw [hnone]
    exact fun _ hmem => (List.not_mem_nil hmem).elim
  · exact fun conn reqId hmem => (hold conn reqId hmem).elim
  · exact fun reqId conn hcancels => (hnever reqId conn hcancels).elim

/-- Every change that an event allows sends the cancellations of what it gives up. -/
theorem change (h : Cancelled b e frames b') {opts : BrokerOptions} {c : Change}
    (hallowed : Allowed b e b' c) (hc : c.Does opts b' b'') :
  ∃ frames', Cancelled b e frames' b''
  := by
  cases c with
  | idle =>
      use frames
      apply h.quiet (Idle.sent hc)
      · rw [Idle.pending hc]
        exact fun _ h => h
      · rw [Idle.pending hc]
        exact fun _ _ _ h => h
  | frame conn f =>
      obtain rfl := hc
      apply h.safeSend
      cases f with
      | cancel reqId => cases hallowed
      | _ => rfl
  | reply conn frameId outcome =>
      obtain rfl := hc
      apply h.safeSend
      rfl
  | takeJob =>
      obtain ⟨job, jobs, -, rfl⟩ := hc
      exact ⟨frames, h.quiet rfl (fun _ h => h) fun _ _ _ h => h⟩
  | dispatch executor agentId cmd signal waiter =>
      have hnever : ∀ reqId conn, ¬ Cancels b e reqId conn := by
        rintro reqId conn ⟨p, err, exec, -, hgives, -⟩
        apply hallowed.2.not_givesUp hgives
      obtain hsent | ⟨conn, frame, hsent, ⟨-, rfl⟩, -⟩ := hc.sent
      · exact ⟨_, h.never hnever [] (fun _ hmem => (List.not_mem_nil hmem).elim) hsent⟩
      · refine ⟨_, h.never hnever [_] ?_ hsent⟩
        intro f hf
        obtain rfl := List.mem_singleton.mp hf
        rfl
  | settle reqId outcome =>
      obtain ⟨q, -, -, hconcludes⟩ := hallowed
      have hnever : ∀ reqId conn, ¬ Cancels b e reqId conn := by
        rintro reqId conn ⟨p, err, exec, -, hgives, -⟩
        apply hconcludes.not_givesUp hgives
      obtain ⟨p, hp, rfl⟩ := hc
      exact ⟨_, h.never hnever [] (fun _ hmem => (List.not_mem_nil hmem).elim)
        (Broker.sent_clearPending _ _)⟩
  | giveUp reqId err =>
      obtain rfl := hc
      apply h.abandon hallowed.1 hallowed.2
  | _ =>
      obtain rfl := hc
      exact ⟨frames, h.quiet rfl (fun _ h => h) fun _ _ _ h => h⟩

theorem handle (opts : BrokerOptions) (b : Broker) (e : BrokerEvent) :
  Cancelled b e (b.sends opts e) (b.handle opts e)
  := by
  have hstart : ∃ frames, Cancelled b e frames b := by
    use []
    constructor
    · rfl
    · apply List.nodup_nil
    · exact fun _ hmem => (List.not_mem_nil hmem).elim
    · exact fun _ _ hmem => (List.not_mem_nil hmem).elim
    · rintro reqId conn ⟨p, err, exec, hp, -⟩
      left
      rw [hp]
      exact Option.some_ne_none p
  obtain ⟨frames, hframes⟩ := (handles opts b e).preserves (I := fun b' => ∃ frames,
    Cancelled b e frames b') (fun _ _ _ ⟨_, h⟩ hallowed hc => h.change hallowed hc) hstart
  have hsent := hframes.sent
  rw [b.sent_handle] at hsent
  rw [List.append_cancel_right hsent]
  apply hframes

end Cancelled

/-! ### Commands that are given up are settled -/

theorem listeners_settleReject (b : Broker) {reqId : String} {p : Pending}
    (hp : b.pending.get reqId = some p) (err : BrokerError) :
  (b.settleReject reqId err).listeners = p.detachAbort.elim b.listeners b.listeners.delete
  := by
  simp only [Broker.settleReject, hp, b.settle_eq hp]

theorem listeners_abandon (b : Broker) {reqId : String} {p : Pending}
    (hp : b.pending.get reqId = some p) (err : BrokerError) :
  (b.abandon reqId err).listeners = p.detachAbort.elim b.listeners b.listeners.delete
  := by
  simp only [Broker.abandon, hp]
  split
  · apply listeners_settleReject b hp
  · rw [listeners_settleReject _ (p := p)]
    · unfold Broker.safeSend
      split <;> rfl
    · rw [Broker.get_safeSend, hp]

namespace Lifecycle

variable {b : Broker} {listener : ℕ} {l : Listener}

theorem fireListener (h : Lifecycle b) (k : ℕ) :
  Lifecycle (b.fireListener k)
  := by
  unfold Broker.fireListener
  split
  · apply h
  · apply Lifecycle.abandon
    exact h.of_same rfl rfl rfl rfl (fun _ _ h => h) rfl (fun _ _ h => JsMap.get_of_get_delete h) rfl

/-- A listener whose command stays pending stays when another one runs. -/
theorem listener_kept (h : Lifecycle b) (hl : b.listeners.get listener = some l) {k : ℕ}
    (hne : listener ≠ k) (hpending : (b.fireListener k).pending.get l.reqId ≠ none) :
  (b.fireListener k).listeners.get listener = some l
  := by
  unfold Broker.fireListener at hpending ⊢
  split at hpending
  · apply hl
  · next l' hl' =>
      rw [Broker.get_abandon] at hpending
      split at hpending
      · exact (hpending rfl).elim
      · next hreq =>
          have hdeleted : (b.listeners.delete k).get listener = some l := by
            rwa [JsMap.get_delete_of_ne _ hne]
          cases hq : b.pending.get l'.reqId with
          | none => simpa [Broker.abandon, hq] using hdeleted
          | some q =>
              have hq' : ({ b with listeners := b.listeners.delete k } : Broker).pending.get
                  l'.reqId = some q := hq
              rw [listeners_abandon _ hq']
              cases hdetach : q.detachAbort with
              | none => apply hdeleted
              | some k' =>
                  change ((b.listeners.delete k).delete k').get listener = some l
                  rwa [JsMap.get_delete_of_ne]
                  rintro rfl
                  exact hreq (h.listeners.own hq hdetach hl)

/-- A command whose listener is among those that run is no longer pending. -/
theorem get_fireListeners (h : Lifecycle b)
    (hlive : b.pending.get l.reqId ≠ none → b.listeners.get listener = some l) {ks : List ℕ}
    (hmem : listener ∈ ks) :
  (ks.foldl Broker.fireListener b).pending.get l.reqId = none
  := by
  have hfired : ∀ (b : Broker) k, b.pending.get l.reqId = none →
      (b.fireListener k).pending.get l.reqId = none := by
    intro b k hnone
    rw [Option.eq_none_iff_forall_ne_some]
    intro p hp
    rw [(b.settles_fireListener k).pending _ p hp] at hnone
    cases hnone
  induction ks generalizing b with
  | nil => cases hmem
  | cons k ks ih =>
      rw [List.foldl_cons]
      by_cases hk : listener = k
      · have hnone : (b.fireListener k).pending.get l.reqId = none := by
          by_cases hp : b.pending.get l.reqId = none
          · apply hfired b k hp
          · subst hk
            simp only [Broker.fireListener, hlive hp]
            apply Broker.get_abandon_self
        have hrest : ∀ (ks : List ℕ) (b : Broker), b.pending.get l.reqId = none →
            (ks.foldl Broker.fireListener b).pending.get l.reqId = none := by
          intro ks
          induction ks with
          | nil => exact fun _ h => h
          | cons k' ks ih => exact fun b h => ih _ (hfired b k' h)
        apply hrest ks _ hnone
      · obtain hmem := (List.mem_cons.mp hmem).resolve_left hk
        apply ih (h.fireListener k) _ hmem
        intro hp
        apply h.listener_kept (hlive _) hk hp
        intro hnone
        exact hp (hfired b k hnone)

/-- A command that is given up is no longer pending. -/
theorem gone_of_givesUp (h : Lifecycle b) (opts : BrokerOptions) {e : BrokerEvent} {reqId : String}
    {p : Pending} {err : BrokerError} (hp : b.pending.get reqId = some p)
    (hgives : GivesUp b e reqId p err) :
  (b.handle opts e).pending.get reqId = none
  := by
  cases hgives with
  | timeout htimer =>
      simp only [Broker.handle, Broker.fireTimer, htimer, Broker.get_abandon_self]
  | @abort signal listener l _ hl hsignal =>
      have haborted : Lifecycle { b with aborted := signal :: b.aborted } :=
        h.of_same rfl rfl rfl rfl (fun _ _ h => h) rfl (fun _ _ h => h) rfl
      have hlive : ({ b with aborted := signal :: b.aborted } : Broker).listeners.get listener =
          some l := hl
      apply haborted.get_fireListeners fun _ => hlive
      apply List.mem_map.mpr
      use (listener, l)
      rw [List.mem_filter]
      exact ⟨⟨JsMap.mem_entries_of_get hl, decide_eq_true hsignal⟩, rfl⟩
  | @agentGone conn agent _ _ hexecutor hagent hid =>
      simp only [Broker.handle, Broker.onClose, hexecutor, hagent]
      rw [Option.eq_none_iff_forall_ne_some]
      intro q hq
      have hold := (Broker.settles_closeAgent _ _ _).pending reqId q hq
      change b.pending.get reqId = some q at hold
      rw [hp] at hold
      obtain rfl := Option.some.inj hold
      have hfalse := Broker.get_settleAll _ (fun b reqId => b.settles_abandon reqId _)
        (fun b reqId => b.get_abandon_self reqId _) hq
      simp [hid] at hfalse

end Lifecycle

/-! ### Runs -/

/-- The commands that a step cancels at their executors, by their promises. -/
def cancelledIn (opts : BrokerOptions) (step : Broker × BrokerEvent) : List ℕ :=
  ((step.1.sends opts step.2).filterMap cancelId).filterMap fun reqId =>
    (step.1.pending.get reqId).map Pending.promise

/-- An event gives up the command of a promise while its executor is connected, by a
connection. -/
def GivesUpConnected (b : Broker) (e : BrokerEvent) (promise conn : ℕ) : Prop :=
  ∃ reqId p err exec, b.pending.get reqId = some p ∧ p.promise = promise ∧
    GivesUp b e reqId p err ∧ b.executorById.get p.executorId = some exec ∧ exec.conn = conn

/-- Every promise settles once at most. A command is pending from its dispatch until then, and
no longer has a timer or a listener after it. Those that are given up while their executor is
connected and accepts frames are cancelled there, once each. -/
structure CommandsSettle (opts : BrokerOptions) (steps : List (Broker × BrokerEvent)) (b : Broker) :
    Prop where
  once : b.settled.Nodup
  unsettled : ∀ reqId p, b.pending.get reqId = some p →
    p.promise ∉ b.settled ∧ ∃ conn, (p.promise, conn) ∈ b.dispatched
  pending : ∀ promise conn, (promise, conn) ∈ b.dispatched → promise ∉ b.settled →
    ∃ reqId p, b.pending.get reqId = some p ∧ p.promise = promise
  stays : ∀ step ∈ steps, ∀ reqId p, step.1.pending.get reqId = some p → Stays reqId p b
  timers : ∀ timer t, b.timers.get timer = some t →
    ∃ p, b.pending.get t.reqId = some p ∧ p.timer = some timer
  listeners : ∀ listener l, b.listeners.get listener = some l →
    ∃ p, b.pending.get l.reqId = some p ∧ p.detachAbort = some listener
  givenUp : ∀ step ∈ steps, ∀ reqId p err, step.1.pending.get reqId = some p →
    GivesUp step.1 step.2 reqId p err → p.promise ∈ b.settled
  cancelledOnce : (steps.flatMap (cancelledIn opts)).Nodup
  cancelled : ∀ promise, promise ∈ steps.flatMap (cancelledIn opts) ↔
    ∃ step ∈ steps, ∃ conn, GivesUpConnected step.1 step.2 promise conn ∧
      step.1.broken.has conn = false
  addressed : ∀ step ∈ steps, ∀ conn reqId, (conn, .cancel reqId) ∈ step.1.sends opts step.2 →
    ∃ p exec, step.1.pending.get reqId = some p ∧
      step.1.executorById.get p.executorId = some exec ∧ exec.conn = conn

theorem Lifecycle.mem_cancelledIn {b : Broker} (h : Lifecycle b) {opts : BrokerOptions}
    {e : BrokerEvent} {promise : ℕ} :
  promise ∈ cancelledIn opts (b, e) ↔
    ∃ conn, GivesUpConnected b e promise conn ∧ b.broken.has conn = false
  := by
  have hcancelled := Cancelled.handle opts b e
  simp only [cancelledIn, List.mem_filterMap]
  constructor
  · rintro ⟨reqId, ⟨⟨conn, frame⟩, hmem, hid⟩, hpromise⟩
    obtain ⟨p, hp, rfl⟩ := Option.map_eq_some_iff.mp hpromise
    cases frame with
    | cancel reqId' =>
        obtain rfl := Option.some.inj hid
        obtain ⟨p', err, exec, hp', hgives, hexec, hconn, hbroken⟩ := hcancelled.sound _ _ hmem
        rw [hp] at hp'
        obtain rfl := Option.some.inj hp'
        use conn, ⟨reqId', p, err, exec, hp, rfl, hgives, hexec, hconn⟩
    | _ => cases hid
  · rintro ⟨conn, ⟨reqId, p, err, exec, hp, rfl, hgives, hexec, hconn⟩, hbroken⟩
    have hcancels : Cancels b e reqId conn := ⟨p, err, exec, hp, hgives, hexec, hconn, hbroken⟩
    have hsent := (hcancelled.complete reqId conn hcancels).resolve_left
      fun hsome => hsome (h.gone_of_givesUp opts hp hgives)
    use reqId, ⟨(conn, .cancel reqId), hsent, rfl⟩
    rw [hp, Option.map_some]

/-- No command is cancelled twice in a step. -/
theorem Lifecycle.nodup_cancelledIn {b : Broker} (h : Lifecycle b) (opts : BrokerOptions)
    (e : BrokerEvent) :
  (cancelledIn opts (b, e)).Nodup
  := by
  apply (Cancelled.handle opts b e).nodup.filterMap
  intro reqId reqId' promise hpromise hpromise'
  obtain ⟨p, hp, rfl⟩ := Option.map_eq_some_iff.mp hpromise
  obtain ⟨p', hp', heq⟩ := Option.map_eq_some_iff.mp hpromise'
  apply h.distinct reqId p reqId' p' hp hp' heq.symm

/-- A command that is given up settles. -/
theorem Lifecycle.settled_of_givesUp {b : Broker} (h : Lifecycle b) (opts : BrokerOptions)
    {e : BrokerEvent} (hfresh : FreshId b) {reqId : String} {p : Pending} {err : BrokerError}
    (hp : b.pending.get reqId = some p) (hgives : GivesUp b e reqId p err) :
  p.promise ∈ (b.handle opts e).settled
  := by
  obtain hsome | hsettled := stays_handle opts e hfresh (.inl hp)
  · rw [h.gone_of_givesUp opts hp hgives] at hsome
    cases hsome
  · apply hsettled

/-- As long as the ids of commands that are pending are not taken again, every command settles
once at most, and those that are given up are cancelled. -/
theorem commands_settle (opts : BrokerOptions) (token : String)
    (steps : List (Broker × BrokerEvent)) (b : Broker)
    (hrun : ((Broker.system opts).restrict fun b _ => FreshId b).Run (.initial token) steps b) :
  CommandsSettle opts steps b
  := by
  have hinitial := Lifecycle.initial token
  have hnext : ∀ b e, Lifecycle b →
      ((Broker.system opts).restrict fun b _ => FreshId b).enabled b e →
        Lifecycle (b.handle opts e) :=
    fun b e hb he => hb.handle opts e he.2
  have hb := hrun.preserves hnext hinitial
  have hsteps := hrun.preserves_steps hnext hinitial
  have hstays : ∀ step ∈ steps, ∀ reqId p, step.1.pending.get reqId = some p → Stays reqId p b := by
    intro step hmem reqId p hp
    obtain ⟨rest, he, hrest⟩ := hrun.after hmem
    apply hrest.preserves (I := Stays reqId p)
    · exact fun b e h he => stays_handle opts e he.2 h
    · apply stays_handle opts step.2 he.2 (.inl hp)
  have hsettled : ∀ promise b rest b',
      ((Broker.system opts).restrict fun b _ => FreshId b).Run b rest b' →
        promise ∈ b.settled → promise ∈ b'.settled := by
    intro promise b rest b' hrest hmem
    apply hrest.preserves (I := fun b => promise ∈ b.settled) _ hmem
    exact fun b e h _ => settled_handle opts b e promise h
  refine ⟨hb.settled, hb.unsettled, ?_, hstays, hb.timers.live, hb.listeners.live, ?_, ?_, ?_, ?_⟩
  · exact fun promise conn hmem => hb.pending (promise, conn) hmem
  · intro step hmem reqId p err hp hgives
    obtain ⟨hlife, he⟩ := hsteps step hmem
    obtain ⟨rest, -, hrest⟩ := hrun.after hmem
    apply hsettled _ _ _ _ hrest
    apply hlife.settled_of_givesUp opts he.2 hp hgives
  · rw [List.nodup_flatMap]
    constructor
    · rintro ⟨b, e⟩ hmem
      apply (hsteps _ hmem).1.nodup_cancelledIn
    · apply hrun.pairwise hnext _ hinitial
      -- What has been cancelled has settled, and what is cancelled is pending.
      intro b e rest b' hb he hrest step hmem promise hfirst hsecond
      obtain ⟨conn, ⟨reqId, p, err, exec, hp, rfl, hgives, -⟩, -⟩ := hb.mem_cancelledIn.mp hfirst
      have hafter := hb.settled_of_givesUp opts he.2 hp hgives
      have hkept := hrest.preserves_steps
        (I := fun b => Lifecycle b ∧ p.promise ∈ b.settled)
        (fun b e h he => ⟨hnext b e h.1 he, settled_handle opts b e _ h.2⟩)
        ⟨hnext b e hb he, hafter⟩ step hmem
      obtain ⟨⟨hlife, hmem'⟩, -⟩ := hkept
      obtain ⟨conn', ⟨reqId', p', err', exec', hp', heq, -⟩, -⟩ :=
        hlife.mem_cancelledIn.mp hsecond
      apply (hlife.unsettled reqId' p' hp').1
      rwa [heq]
  · intro promise
    rw [List.mem_flatMap]
    constructor
    · rintro ⟨⟨b, e⟩, hmem, hcancelled⟩
      use (b, e), hmem
      apply (hsteps _ hmem).1.mem_cancelledIn.mp hcancelled
    · rintro ⟨⟨b, e⟩, hmem, hgiven⟩
      use (b, e), hmem
      apply (hsteps _ hmem).1.mem_cancelledIn.mpr hgiven
  · intro step hmem conn reqId hsent
    obtain ⟨p, err, exec, hp, -, hexec, hconn, -⟩ :=
      (Cancelled.handle opts step.1 step.2).sound conn reqId hsent
    use p, exec

/-- A local agent opens a tab, and gives that up: the browser is told so. -/
theorem commands_settle_abort :
  ∃ steps b, ((Broker.system sampleOptions).restrict fun b _ => FreshId b).Run
      (.initial "token") steps b ∧
    b.settled = [1] ∧ CommandsSettle sampleOptions steps b
  := by
  obtain ⟨steps, b, hrun, hb⟩ := EventSystem.exists_run_of_play
    ((Broker.system sampleOptions).restrict fun b _ => FreshId b)
    [.opened, .message 0 (sampleHello .extension "chrome") none, .createLocalAgent,
      .send "local:1" sampleOpen (some 0), .abort 0]
    (.initial "token")
    (fun b => b.settled = [1])
    (by decide)
  use steps, b, hrun, of_decide_eq_true hb
  apply commands_settle sampleOptions "token" steps b hrun

/-- A local agent gives up a command whose executor no longer accepts frames. -/
def sampleGiveUp : List BrokerEvent :=
  [.opened, .message 0 (sampleHello .extension "chrome") none, .createLocalAgent,
    .send "local:1" sampleOpen (some 0), .sendThrows 0 (some "closed"), .abort 0]

/-- Nothing is sent to a connection that throws, although the command is given up. -/
theorem given_up_not_cancelled :
  ¬ ∀ steps b, (Broker.system sampleOptions).Run (.initial "token") steps b →
    ∀ promise, promise ∈ steps.flatMap (cancelledIn sampleOptions) ↔
      ∃ step ∈ steps, ∃ conn, GivesUpConnected step.1 step.2 promise conn
  := by
  intro h
  have hplay : ((Broker.system sampleOptions).play sampleGiveUp (.initial "token")).isSome = true := by
    decide
  obtain ⟨b, hb⟩ := Option.isSome_iff_exists.mp hplay
  have hnone : 1 ∉ ((Broker.system sampleOptions).steps sampleGiveUp (.initial "token")).flatMap
      (cancelledIn sampleOptions) := by
    decide
  apply hnone
  apply (h _ b ((Broker.system sampleOptions).run_of_play hb) 1).mpr
  refine ⟨_, List.mem_of_getElem? (i := 5) rfl, 0, "c2",
    ⟨1, .request (.caller 0), none, some 0, "local:1", "chrome"⟩, Broker.abortError,
    ⟨0, "chrome", "chrome", "unknown"⟩, rfl, rfl, ?_, rfl, rfl⟩
  exact @GivesUp.abort _ 0 0 ⟨0, "c2"⟩ _ rfl rfl

end Browser
