import OpencodeToolbelt.Browser.Agreement
import OpencodeToolbelt.Browser.Calls

/-!
# Groups that fail to open

A group gets an owner as soon as it is to be opened, before the executor has been told. Nothing
takes the owner away again when that fails, unless it fails because the executor is gone.
-/

namespace Browser

/-! ### Opening a group -/

/-- A step in which an agent opens a group that has no owner, in an executor. -/
structure Opening (step : Broker × BrokerEvent) (a : Ask) (executor : ExecutorInfo) : Prop where
  asks : step.1.asks step.2 = some a
  action : a.cmd.action = .open
  unowned : step.1.groupOwner.get a.cmd.group = none
  picked : step.1.pickExecutor a.cmd.target = .ok executor

/-- A step in which the promise of a call is rejected. -/
def Fails (opts : BrokerOptions) (step : Broker × BrokerEvent) (requester : Requester) : Prop :=
  ∃ err, ⟨.request requester, .error err⟩ ∈ (step.1.handle opts step.2).jobs ∧
    ∀ job ∈ step.1.jobs, job.waiter ≠ .request requester

/-- A group that has an owner after each of some steps. -/
def Lasts (opts : BrokerOptions) (group : String) (steps : List (Broker × BrokerEvent)) : Prop :=
  ∀ step ∈ steps, (step.1.handle opts step.2).groupOwner.has group = true

/-- A failed `open` leaves no owner behind, and changes no owner otherwise: what an event makes
of the owners does not depend on the commands that are pending. -/
structure LeavesNothing (opts : BrokerOptions) (steps : List (Broker × BrokerEvent)) : Prop where
  refused : ∀ step ∈ steps, ∀ a err, step.1.asks step.2 = some a → a.cmd.action = .open →
    step.1.groupOwner.get a.cmd.group = none → step.1.pickExecutor a.cmd.target = .error err →
      (step.1.handle opts step.2).groupOwner = step.1.groupOwner
  undone : ∀ before opening rest after, steps = before ++ opening :: (rest ++ after) →
    ∀ a executor, Opening opening a executor → ∀ failing,
      (opening :: rest).getLast? = some failing → Fails opts failing a.requester →
        ¬ Lasts opts a.cmd.group (opening :: rest)
  others : ∀ step ∈ steps, ∀ pending,
    ({ step.1 with pending }.handle opts step.2).groupOwner =
      (step.1.handle opts step.2).groupOwner

/-- A pending command is answered with an error, or given up. -/
inductive Falls (b : Broker) : BrokerEvent → String → Pending → Prop where
  | result {conn : ℕ} {reqId : String} {data : Option ResultData} {error : Option ResultError}
      {reloadToken : Option String} {p : Pending} : b.executors.has conn = true →
      Falls b (.message conn (.result reqId false data error) reloadToken) reqId p
  | givenUp {e : BrokerEvent} {reqId : String} {p : Pending} {err : BrokerError} :
      GivesUp b e reqId p err → Falls b e reqId p

/-- No group fails to open, unless because its executor disconnects or the broker stops. -/
structure Unfailing (steps : List (Broker × BrokerEvent)) : Prop where
  delivered : ∀ opening ∈ steps, ∀ a executor, Opening opening a executor →
    opening.1.broken.has executor.conn = false ∧
      ∀ signal, a.signal = some signal → signal ∉ opening.1.aborted
  answered : ∀ opening ∈ steps, ∀ a executor, Opening opening a executor →
    ∀ step ∈ steps, ∀ reqId p, step.1.pending.get reqId = some p →
      p.waiter = .request a.requester → ¬ Falls step.1 step.2 reqId p

namespace Opening

variable {step : Broker × BrokerEvent} {a : Ask} {executor : ExecutorInfo}

theorem routed (h : Opening step a executor) :
  a.cmd.Routed
  := by
  simp [Command.Routed, h.action]

/-- The executor is the one that is picked, and becomes the executor of the group. -/
theorem executorFor (h : Opening step a executor) :
  step.1.called.executorFor a.agentId a.cmd =
    ({ step.1.called with
        groupOwner := step.1.groupOwner.set a.cmd.group
          { executorId := executor.id
            agentId := some a.agentId } }, .ok executor)
  := by
  have hglobal : a.cmd.action ∉ GLOBAL_ACTIONS := by
    rw [h.action]
    decide
  have hunowned : step.1.called.groupOwner.get a.cmd.group = none := h.unowned
  have hpicked : step.1.called.pickExecutor a.cmd.target = .ok executor := h.picked
  rw [Broker.executorFor, if_neg hglobal, Broker.resolveExecutor, hunowned]
  simp only [Broker.resolveUnowned, h.action, ne_eq, not_true_eq_false, if_false, hpicked]
  rfl

theorem groupOwner (h : Opening step a executor) (opts : BrokerOptions) :
  (step.1.handle opts step.2).groupOwner.get a.cmd.group = some ⟨executor.id, some a.agentId⟩
  := by
  have hrelease : a.cmd.action ≠ .release := by
    rw [h.action]
    decide
  rw [Broker.groupOwner_handle, Broker.ownersAfter, h.asks]
  simp only [Broker.ownersAfterAsk]
  rw [if_neg hrelease, if_pos h.routed, h.executorFor, JsMap.get_set_self]

end Opening

/-! ### Owners do not depend on commands -/

namespace Broker

variable (b : Broker)

theorem groupOwner_executorFor_pending (pending : JsMap String Pending) (agentId : String)
    (cmd : Command) :
  ({ b with pending }.executorFor agentId cmd).1.groupOwner =
    (b.executorFor agentId cmd).1.groupOwner
  := by
  unfold executorFor
  split
  · rfl
  · simp only [resolveExecutor]
    cases b.groupOwner.get cmd.group with
    | some owner =>
        simp only [resolveOwned]
        split
        · rfl
        · cases b.executorById.get owner.executorId <;> rfl
    | none =>
        have hpicked : ({ b with pending } : Broker).pickExecutor cmd.target =
            b.pickExecutor cmd.target := rfl
        simp only [resolveUnowned, hpicked]
        split
        · rfl
        · cases b.pickExecutor cmd.target <;> rfl

theorem groupOwner_handle_pending (opts : BrokerOptions) (e : BrokerEvent)
    (pending : JsMap String Pending) :
  ({ b with pending }.handle opts e).groupOwner = (b.handle opts e).groupOwner
  := by
  rw [groupOwner_handle, groupOwner_handle]
  have hasks : ({ b with pending } : Broker).asks e = b.asks e := rfl
  unfold ownersAfter
  rw [hasks]
  split
  · next a _ =>
      unfold ownersAfterAsk
      split
      · rfl
      · split
        · apply b.called.groupOwner_executorFor_pending
        · rfl
  · rfl

/-- An executor that is gone has no groups. -/
theorem get_of_drops (opts : BrokerOptions) {e : BrokerEvent} {group : String}
    {owner : GroupOwner} (h : b.groupOwner.get group = some owner)
    (hdrops : Drops b owner.executorId e) :
  (b.handle opts e).groupOwner.get group = none
  := by
  rw [groupOwner_handle]
  cases hdrops with
  | stopped => apply JsMap.get_clear
  | @disconnected conn executor info hexecutor hinfo hconn hid =>
      have hany : (b.executorById.get executor.id).any (·.conn = conn) = true := by
        rw [hinfo, Option.any_some, decide_eq_true hconn]
      change (b.ownersAfterClose conn).get group = none
      simp only [ownersAfterClose, hexecutor]
      rw [if_pos hany, JsMap.get_filter, h]
      simp [hid]

end Broker

/-! ### The command that opens a group -/

/-- The command by which a call opens a group is sent to the executor that has been picked. -/
structure Bound (a : Ask) (executor : ExecutorInfo) (b : Broker) : Prop where
  called : a.requester.call < b.callSeq
  executorId : ∀ reqId p, b.pending.get reqId = some p → p.waiter = .request a.requester →
    p.executorId = executor.id

/-- What is routed is routed for the call that asks for it. -/
theorem Origin.asks {b b' : Broker} {e : BrokerEvent} {executor : ExecutorInfo} {agentId : String}
    {cmd : Command} {signal : Option ℕ} {waiter : Waiter} {requester : Requester}
    (h : Origin b e b' executor agentId cmd signal waiter) (hwaiter : waiter = .request requester) :
  ∃ a, b.asks e = some a ∧ a.requester = requester ∧
    b.called.executorFor a.agentId a.cmd = (b', .ok executor)
  := by
  cases h with
  | rebuild => cases hwaiter
  | tabs => cases hwaiter
  | @routed a _ hasks _ hexecutor _ => use a, hasks, Waiter.request.inj hwaiter, hexecutor

/-- A call that has been made is not made again. -/
theorem Bound.not_asks {a a' : Ask} {executor : ExecutorInfo} {b : Broker} {e : BrokerEvent}
    (h : Bound a executor b) (hasks : b.asks e = some a') :
  a'.requester ≠ a.requester
  := by
  intro heq
  have hcalled := h.called
  rw [← heq, b.asks_call hasks] at hcalled
  apply Nat.lt_irrefl _ hcalled

theorem Bound.handle {a : Ask} {executor : ExecutorInfo} {b : Broker} (h : Bound a executor b)
    (opts : BrokerOptions) (e : BrokerEvent) :
  Bound a executor (b.handle opts e)
  := by
  constructor
  · have hseq := b.callSeq_handle opts e
    have hcalled := h.called
    omega
  · intro reqId p hp hwaiter
    obtain hold | ⟨b', _, _, _, _, horigin, -⟩ := (accounted opts b e).pending reqId p hp
    · apply h.executorId reqId p hold hwaiter
    · obtain ⟨a', hasks, heq, -⟩ := horigin.asks hwaiter
      apply (h.not_asks hasks heq).elim

/-- A promise that is rejected after the call was made has been rejected because the executor is
gone. -/
theorem Bound.drops {a : Ask} {executor : ExecutorInfo} {b : Broker} {e : BrokerEvent}
    (h : Bound a executor b) {opts : BrokerOptions} (hfails : Fails opts (b, e) a.requester)
    (hanswered : ∀ reqId p, b.pending.get reqId = some p → p.waiter = .request a.requester →
      ¬ Falls b e reqId p) :
  Drops b executor.id e
  := by
  obtain ⟨err, hjob, hnew⟩ := hfails
  obtain hold | harises := (accounted opts b e).jobs _ hjob
  · apply (hnew _ hold rfl).elim
  · generalize hwaiter : Waiter.request a.requester = waiter at harises
    generalize houtcome : (Except.error err : Outcome) = outcome at harises
    cases harises with
    | atOnce hasks _ => apply (h.not_asks hasks (Waiter.request.inj hwaiter).symm).elim
    | gathered => cases houtcome
    | decided hdecides =>
        cases hdecides with
        | concluded hp _ heq hconcludes =>
            have hp' := hanswered _ _ hp (heq.trans hwaiter.symm)
            have hid := h.executorId _ _ hp (heq.trans hwaiter.symm)
            cases hconcludes with
            | @result conn reqId ok data error reloadToken p hconn =>
                cases ok with
                | true => cases houtcome
                | false => apply (hp' (.result hconn)).elim
            | executorGone hexecutor hinfo hconn hgone =>
                apply Drops.disconnected hexecutor hinfo hconn (hgone.symm.trans hid)
            | stopped => apply Drops.stopped
        | givenUp hp _ heq hgives =>
            apply (hanswered _ _ hp (heq.trans hwaiter.symm) (.givenUp hgives)).elim
        | undelivered _ horigin _ =>
            obtain ⟨a', hasks, heq, -⟩ := horigin.asks hwaiter.symm
            apply (h.not_asks hasks heq).elim

namespace Opening

variable {step : Broker × BrokerEvent} {a : Ask} {executor : ExecutorInfo}

/-- Nothing waits for the call before it is made. -/
theorem not_pending (h : Opening step a executor) (hapart : CallsApart step.1) {reqId : String}
    {p : Pending} (hp : step.1.pending.get reqId = some p) :
  p.waiter ≠ .request a.requester
  := by
  intro hwaiter
  have hawaits := hapart.not_awaits.1 reqId p hp
  rw [hwaiter] at hawaits
  simp [Waiter.awaits, Waiter.requester, step.1.asks_call h.asks] at hawaits

theorem bound (h : Opening step a executor) (hapart : CallsApart step.1) (opts : BrokerOptions) :
  Bound a executor (step.1.handle opts step.2)
  := by
  constructor
  · have hseq := step.1.callSeq_handle opts step.2
    rw [h.asks, Option.isSome_some, if_pos rfl] at hseq
    rw [step.1.asks_call h.asks]
    apply hseq
  · intro reqId p hp hwaiter
    obtain hold | ⟨b', executor', _, _, _, horigin, -, hid⟩ :=
      (accounted opts step.1 step.2).pending reqId p hp
    · apply (h.not_pending hapart hold hwaiter).elim
    · obtain ⟨a', hasks, -, hexecutor⟩ := horigin.asks hwaiter
      rw [h.asks] at hasks
      obtain rfl := Option.some.inj hasks
      rw [h.executorFor] at hexecutor
      obtain ⟨-, heq⟩ := Prod.mk.inj hexecutor
      rw [hid, Except.ok.inj heq]

/-- A command that is delivered does not fail at once. -/
theorem not_fails (h : Opening step a executor) (hapart : CallsApart step.1)
    (hbroken : step.1.broken.has executor.conn = false)
    (hsignal : ∀ signal, a.signal = some signal → signal ∉ step.1.aborted)
    (opts : BrokerOptions) :
  ¬ Fails opts step a.requester
  := by
  rintro ⟨err, hjob, hnew⟩
  obtain hold | harises := (accounted opts step.1 step.2).jobs _ hjob
  · apply (hnew _ hold rfl).elim
  · generalize hwaiter : Waiter.request a.requester = waiter at harises
    generalize houtcome : (Except.error err : Outcome) = outcome at harises
    cases harises with
    | atOnce hasks hatOnce =>
        rw [h.asks] at hasks
        obtain rfl := Option.some.inj hasks
        cases hatOnce with
        | targets => cases houtcome
        | released => cases houtcome
        | refused _ hrefused =>
            rw [h.executorFor] at hrefused
            cases hrefused
        | aborted _ _ hsome hmem => apply hsignal _ hsome hmem
    | gathered => cases houtcome
    | decided hdecides =>
        cases hdecides with
        | concluded hp _ heq _ => apply h.not_pending hapart hp (heq.trans hwaiter.symm)
        | givenUp hp _ heq _ => apply h.not_pending hapart hp (heq.trans hwaiter.symm)
        | undelivered _ horigin hmessage =>
            obtain ⟨a', hasks, -, hexecutor⟩ := horigin.asks hwaiter.symm
            rw [h.asks] at hasks
            obtain rfl := Option.some.inj hasks
            rw [h.executorFor] at hexecutor
            obtain ⟨-, heq⟩ := Prod.mk.inj hexecutor
            obtain rfl := Except.ok.inj heq
            rw [JsMap.has_of_get hmessage] at hbroken
            cases hbroken

end Opening

/-! ### Runs -/

/-- A group that lasts keeps its executor. -/
theorem held_of_lasts {opts : BrokerOptions} {group executorId : String}
    {steps : List (Broker × BrokerEvent)} {b b' : Broker}
    (hrun : (Broker.system opts).Run b steps b') (hlasts : Lasts opts group steps)
    (hb : ∃ owner, b.groupOwner.get group = some owner ∧ owner.executorId = executorId) :
  ∃ owner, b'.groupOwner.get group = some owner ∧ owner.executorId = executorId
  := by
  induction hrun with
  | nil => apply hb
  | @cons b e steps b' _ _ ih =>
      obtain ⟨owner, howner, rfl⟩ := hb
      have hhas := hlasts (b, e) List.mem_cons_self
      have hkept : ¬ Drops b owner.executorId e := by
        intro hdrops
        rw [JsMap.has, b.get_of_drops opts howner hdrops] at hhas
        cases hhas
      obtain ⟨owner', howner', hexecutor, -⟩ := b.keeps_handle opts howner hkept
      apply ih
      · exact fun step hstep => hlasts step (List.mem_cons_of_mem _ hstep)
      · use owner', howner', hexecutor

/-- In a run in which no group fails to open otherwise, a failed `open` leaves nothing. -/
theorem leavesNothing_of_unfailing (opts : BrokerOptions) (token : String)
    (steps : List (Broker × BrokerEvent)) (b : Broker)
    (hrun : (Broker.system opts).Run (.initial token) steps b) (hunfailing : Unfailing steps) :
  LeavesNothing opts steps
  := by
  constructor
  · intro step _ a err hasks haction hunowned hrefused
    have hrouted : a.cmd.Routed := by
      simp [Command.Routed, haction]
    rw [Broker.groupOwner_handle, Broker.ownersAfter, hasks]
    simp only [Broker.ownersAfterAsk, haction, reduceCtorEq, if_false, if_pos hrouted]
    have hrefused' : step.1.called.pickExecutor a.cmd.target = .error err := hrefused
    have hunowned' : step.1.called.groupOwner.get a.cmd.group = none := hunowned
    have hglobal : BrowserAction.open ∉ GLOBAL_ACTIONS := by
      decide
    simp only [Broker.executorFor, haction, if_neg hglobal, Broker.resolveExecutor, hunowned',
      Broker.resolveUnowned, ne_eq, not_true_eq_false, if_false, hrefused']
    rfl
  · rintro before opening rest after rfl a executor hopening failing hfailing hfails hlasts
    obtain ⟨hbefore, hopens, hrest⟩ := hrun.split
    have hapart : CallsApart opening.1 :=
      hbefore.preserves (I := CallsApart) (fun b e hb _ => hb.handle opts e)
        (callsApart_initial token)
    have hmem : opening ∈ before ++ opening :: (rest ++ after) := by
      simp
    obtain rfl | ⟨between, last, rfl⟩ := rest.eq_nil_or_concat'
    · obtain rfl := Option.some.inj hfailing
      obtain ⟨hbroken, hsignal⟩ := hunfailing.delivered opening hmem a executor hopening
      apply hopening.not_fails hapart hbroken hsignal opts hfails
    · have hlast : failing = last := by
        rw [← List.cons_append, List.getLast?_append, List.getLast?_singleton] at hfailing
        exact (Option.some.inj hfailing).symm
      subst hlast
      rw [List.append_assoc, List.singleton_append] at hrest
      obtain ⟨hbetween, -, -⟩ := hrest.split
      have hbound : Bound a executor failing.1 :=
        hbetween.preserves (I := Bound a executor) (fun b e hb _ => hb.handle opts e)
          (hopening.bound hapart opts)
      have hfailingMem : failing ∈ before ++ opening :: (between ++ [failing] ++ after) := by
        simp
      have hdrops : Drops failing.1 executor.id failing.2 := by
        apply hbound.drops hfails
        apply hunfailing.answered opening hmem a executor hopening failing hfailingMem
      obtain ⟨owner, howner, hexecutor⟩ := held_of_lasts hbetween
        (fun step hstep => hlasts step (by simp [hstep]))
        ⟨_, hopening.groupOwner opts, rfl⟩
      have hhas := hlasts failing (by simp)
      have hsame : executor.id = owner.executorId := hexecutor.symm
      rw [hsame] at hdrops
      rw [JsMap.has, failing.1.get_of_drops opts howner hdrops] at hhas
      cases hhas
  · exact fun step _ pending => step.1.groupOwner_handle_pending opts step.2 pending

/-- An agent opens the group `work`, and the executor answers. -/
def sampleAnswer (ok : Bool) : List BrokerEvent :=
  [.opened, .message 0 (sampleHello .extension "chrome") none, .createLocalAgent,
    .send "local:1" sampleOpen none, .message 0 (.result "c2" ok none none) none]

theorem unfailing_opened :
  Unfailing ((Broker.system sampleOptions).steps (sampleAnswer true) (.initial "token"))
  := by
  have hnever : ∀ e ∈ sampleAnswer true, ∀ b reqId p, ¬ Falls b e reqId p := by
    simp only [sampleAnswer, List.forall_mem_cons]
    refine ⟨?_, ?_, ?_, ?_, ?_, fun _ h => (List.not_mem_nil h).elim⟩
    all_goals
      rintro b reqId p (_ | hgives)
      cases hgives
  have hsignals : ∀ e ∈ sampleAnswer true, ∀ b : Broker, ∀ a, b.asks e = some a →
      a.signal = none := by
    simp only [sampleAnswer, List.forall_mem_cons]
    refine ⟨?_, ?_, ?_, ?_, ?_, fun _ h => (List.not_mem_nil h).elim⟩
    all_goals
      intro b a hasks
      cases hasks
      try rfl
  have hbroken : ∀ step ∈ (Broker.system sampleOptions).steps (sampleAnswer true)
      (.initial "token"), step.1.broken.entries = [] := by
    decide
  constructor
  · intro opening hmem a executor hopening
    constructor
    · rw [← Bool.not_eq_true, JsMap.has_eq_true, JsMap.keys, hbroken opening hmem]
      apply List.not_mem_nil
    · intro signal hsignal
      have hevent := (Broker.system sampleOptions).event_mem_of_mem_steps hmem
      rw [hsignals _ hevent _ a hopening.asks] at hsignal
      cases hsignal
  · intro _ _ _ _ _ step hstep reqId p _ _
    apply hnever _ ((Broker.system sampleOptions).event_mem_of_mem_steps hstep)

/-- The group is opened. -/
theorem leavesNothing_of_unfailing_opened :
  ∃ steps b, (Broker.system sampleOptions).Run (.initial "token") steps b ∧
    b.groupOwner.get "work" = some ⟨"chrome", some "local:1"⟩ ∧ Unfailing steps ∧
      LeavesNothing sampleOptions steps
  := by
  have hplay : ((Broker.system sampleOptions).play (sampleAnswer true) (.initial "token")).any
      (fun b => b.groupOwner.get "work" = some ⟨"chrome", some "local:1"⟩) = true := by
    decide
  obtain ⟨b, hb, howner⟩ := (Option.any_eq_true _ _).mp hplay
  have hrun := (Broker.system sampleOptions).run_of_play hb
  refine ⟨_, b, hrun, of_decide_eq_true howner, unfailing_opened, ?_⟩
  apply leavesNothing_of_unfailing sampleOptions "token" _ b hrun unfailing_opened

/-- The executor answers with an error, and the group keeps its owner. -/
theorem refused_open_lasts :
  ¬ ∀ steps b, (Broker.system sampleOptions).Run (.initial "token") steps b →
    LeavesNothing sampleOptions steps
  := by
  intro h
  have hplay : ((Broker.system sampleOptions).play (sampleAnswer false) (.initial "token")).isSome =
      true := by
    decide
  obtain ⟨b, hb⟩ := Option.isSome_iff_exists.mp hplay
  have hundone := (h _ b ((Broker.system sampleOptions).run_of_play hb)).undone
    (((Broker.system sampleOptions).steps (sampleAnswer false) (.initial "token")).take 3) _ [_] []
    rfl ⟨"local:1", sampleOpen, none, .caller 0⟩ ⟨0, "chrome", "chrome", "unknown"⟩
  apply hundone _ _ rfl _ _
  · constructor
    · rfl
    · rfl
    · rfl
    · rfl
  · use ⟨"executor error", none⟩
    constructor
    · apply List.mem_of_getElem? (i := 0)
      rfl
    · decide
  · unfold Lasts
    decide

end Browser
