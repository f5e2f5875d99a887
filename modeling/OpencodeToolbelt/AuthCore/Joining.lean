import OpencodeToolbelt.Async.RelyGuarantee
import OpencodeToolbelt.AuthCore.Permission

/-!
# Joining a refresh or an exchange in flight

A call that finds a promise in the slot of its runtime waits for it, whatever its options
are. When the call that started it has the same option `interactive`, the result is what
the call would have obtained itself; when it has not, a call that permits no login waits for
one, or a call that permits one is refused it.
-/

/-- What the calls have done. -/
structure FlightHistory where
  /-- The call that started a promise. -/
  ledBy : ℕ → Option ℕ
  /-- The calls that found a promise, and which. -/
  joined : List (ℕ × ℕ)
  /-- The calls that have started an interactive login. -/
  prompted : List ℕ

namespace FlightHistory

def empty : FlightHistory := ⟨fun _ => none, [], []⟩

/-- The history after an operation. -/
def after (g : FlightHistory) (i : ℕ) (_ : World) : (o : Op) → Ans o → FlightHistory
  | .claimFlight _, .lead flight => { g with ledBy := Function.update g.ledBy flight (some i) }
  | .claimFlight _, .join flight => { g with joined := (i, flight) :: g.joined }
  | .promptLogin _, _ => { g with prompted := i :: g.prompted }
  | _, _ => g

/-- A call waits for what another one has started. -/
def WaitsFor (g : FlightHistory) (i j : ℕ) : Prop :=
  ∃ flight, (i, flight) ∈ g.joined ∧ g.ledBy flight = some j

end FlightHistory

/-- The host with the history of its promises. -/
@[reducible]
def flightHost : Machine Op Ans (World × FlightHistory) ℕ :=
  host.instrument FlightHistory.after

/-- A call of `ensure` on a token runtime, of `getProjectToken` on a lightbridge runtime, or
of `resolveToken` on a repo-auth plugin. -/
inductive TokenCall where
  | ensure (r : TokenRuntime) (hr : r.Store)
  | project (l : LightbridgeRuntime)
  | repoProject (p : RepoAuthPlugin)

/-- The program of a call with an option `interactive`. -/
def TokenCall.run (interactive : Option Bool) : TokenCall → Auth TokenSet
  | .ensure r _ => r.ensure interactive
  | .project l => l.getProjectToken interactive
  | .repoProject p => p.resolveToken interactive

/-! ### The invariant -/

/-- The promises that are waited for were started by calls like those that wait, and have
settled as these permit. -/
structure FlightInv (options : ℕ → Option Bool) (w : World × FlightHistory) : Prop where
  led : ∀ flight j, w.2.ledBy flight = some j → flight < w.1.nextFlight
  slots : ∀ slot flight, w.1.slots slot = some flight → ∃ j, w.2.ledBy flight = some j
  published : ∀ flight result, w.1.flights flight = some result →
    ∃ j, w.2.ledBy flight = some j ∧ Refusal (options j) result
  joined : ∀ i flight, (i, flight) ∈ w.2.joined →
    ∃ j, w.2.ledBy flight = some j ∧ Alike (options i) (options j)
  prompted : ∀ i ∈ w.2.prompted, options i ≠ some false

/-- A call joins only promises that a call like it has started. -/
def JoinsAlike (options : ℕ → Option Bool) (i : ℕ) (w : World × FlightHistory) :
    (o : Op) → Ans o → Prop
  | .claimFlight _, .join flight =>
      ∀ j ∈ w.2.ledBy flight, Alike (options i) (options j)
  | _, _ => True

instance (options : ℕ → Option Bool) (i : ℕ) (w : World × FlightHistory) (o : Op) (a : Ans o) :
  Decidable (JoinsAlike options i w o a)
  :=
  match o, a with
  | .claimFlight _, .join flight =>
      inferInstanceAs (Decidable (∀ j ∈ w.2.ledBy flight, Alike (options i) (options j)))
  | .claimFlight _, .lead _ => .isTrue trivial
  | .now, _ => .isTrue trivial
  | .sleepUntil _, _ => .isTrue trivial
  | .load _, _ => .isTrue trivial
  | .save _ _, _ => .isTrue trivial
  | .remove _, _ => .isTrue trivial
  | .listKeys _ _, _ => .isTrue trivial
  | .mkdirLocks _, _ => .isTrue trivial
  | .openLock _, _ => .isTrue trivial
  | .writeLock _ _ _, _ => .isTrue trivial
  | .closeLock _, _ => .isTrue trivial
  | .readLock _, _ => .isTrue trivial
  | .statLock _, _ => .isTrue trivial
  | .unlinkLock _ _, _ => .isTrue trivial
  | .proceedUnlocked _, _ => .isTrue trivial
  | .postToken _ _, _ => .isTrue trivial
  | .resolveSubjectToken _, _ => .isTrue trivial
  | .promptLogin _, _ => .isTrue trivial
  | .awaitLogin _, _ => .isTrue trivial
  | .fetchModels _ _, _ => .isTrue trivial
  | .joinFlight _, _ => .isTrue trivial
  | .publishFlight _ _, _ => .isTrue trivial
  | .clearSlot _ _, _ => .isTrue trivial
  | .peekState _, _ => .isTrue trivial
  | .adoptState _ _, _ => .isTrue trivial
  | .assignState _ _, _ => .isTrue trivial
  | .claimMigration _, _ => .isTrue trivial
  | .awaitMigration _, _ => .isTrue trivial
  | .endMigration _, _ => .isTrue trivial
  | .spin, a => a.elim

/-- Runs in which calls join only promises of calls like them. -/
@[reducible]
def alikeFlights (options : ℕ → Option Bool) : Machine Op Ans (World × FlightHistory) ℕ :=
  flightHost.restrict (JoinsAlike options) (fun _ _ => True)

/-- Other calls leave alone who has started a promise. -/
def flightDiscipline (options : ℕ → Option Bool) : Discipline (World × FlightHistory) where
  Inv := FlightInv options
  Rely _ w w' := ∀ flight j, w.2.ledBy flight = some j → w'.2.ledBy flight = some j
  refl _ _ _ _ h := h
  trans h h' flight j hj := h' flight j (h flight j hj)

namespace Joining

section Calls

variable {options : ℕ → Option Bool} {i : ℕ} {α β : Type}

open Discipline

/-- Who has started a promise, and whether it is like the call that waits for it. -/
def LedAlike (options : ℕ → Option Bool) (i flight : ℕ) (w : World × FlightHistory) : Prop :=
  ∃ j, w.2.ledBy flight = some j ∧ Alike (options i) (options j)

/-- The call has started a promise. -/
def Leads (i flight : ℕ) (w : World × FlightHistory) : Prop := w.2.ledBy flight = some i

theorem stable_ledAlike {flight : ℕ} :
  (flightDiscipline options).Stable i (LedAlike options i flight)
  := by
  rintro w w' - - hr ⟨j, hj, halike⟩
  use j, hr flight j hj

theorem stable_leads {flight : ℕ} :
  (flightDiscipline options).Stable i (Leads i flight)
  := fun _ _ _ _ hr h => hr flight i h

/-- The operations of a refresh leave the promises alone. -/
theorem host_flights {interactive : Option Bool} {o : Op} (ho : RefreshOp interactive o)
    (w : World) (a : Ans o) :
  (host.post i w o a).slots = w.slots ∧ (host.post i w o a).flights = w.flights ∧
    (host.post i w o a).nextFlight = w.nextFlight
  := by
  cases o with
  | save loc entry => cases a <;> exact ⟨rfl, rfl, rfl⟩
  | remove loc => cases a <;> exact ⟨rfl, rfl, rfl⟩
  | openLock path => cases a <;> exact ⟨rfl, rfl, rfl⟩
  | writeLock path inode acquiredAt =>
      cases a with
      | true =>
          simp only [host, hostPost, World.writeLock]
          split
          · exact ⟨rfl, rfl, rfl⟩
          · split <;> exact ⟨rfl, rfl, rfl⟩
      | false => exact ⟨rfl, rfl, rfl⟩
  | unlinkLock path reason => cases a <;> exact ⟨rfl, rfl, rfl⟩
  | claimMigration runtime => cases a <;> exact ⟨rfl, rfl, rfl⟩
  | claimFlight slot => cases ho
  | joinFlight flight => cases ho
  | publishFlight flight result => cases ho
  | clearSlot slot flight => cases ho
  | _ => exact ⟨rfl, rfl, rfl⟩

/-- An operation of a refresh keeps the promises and who has started them. -/
theorem keeps_refreshOp {o : Op} (ho : RefreshOp (options i) o) {w : World × FlightHistory}
    (a : Ans o) (hw : FlightInv options w) :
  (flightDiscipline options).Keeps i w ((alikeFlights options).post i w o a) ∧
    (flightDiscipline options).Rely i w ((alikeFlights options).post i w o a)
  := by
  obtain ⟨hslots, hflights, hnext⟩ := host_flights (i := i) ho w.1 a
  have hsame : (FlightHistory.after w.2 i w.1 o a).ledBy = w.2.ledBy ∧
      (FlightHistory.after w.2 i w.1 o a).joined = w.2.joined ∧
      ∀ j ∈ (FlightHistory.after w.2 i w.1 o a).prompted, options j ≠ some false := by
    cases o with
    | claimFlight slot => cases ho
    | promptLogin server =>
        refine ⟨rfl, rfl, fun j hj => ?_⟩
        obtain rfl | hj := List.mem_cons.mp hj
        · apply ho
        · apply hw.prompted j hj
    | _ => exact ⟨rfl, rfl, hw.prompted⟩
  obtain ⟨hled, hjoined, hprompted⟩ := hsame
  have hrely : ∀ j, (flightDiscipline options).Rely j w ((alikeFlights options).post i w o a) := by
    intro j flight k hk
    simpa [Machine.restrict, Machine.instrument, hled] using hk
  refine ⟨⟨?_, fun j _ => hrely j⟩, hrely i⟩
  constructor
  · simpa [Machine.restrict, Machine.instrument, hled, hnext] using hw.led
  · simpa [Machine.restrict, Machine.instrument, hled, hslots] using hw.slots
  · simpa [Machine.restrict, Machine.instrument, hled, hflights] using hw.published
  · simpa [Machine.restrict, Machine.instrument, hled, hjoined] using hw.joined
  · exact hprompted

/-- A part of a call that waits for no other call. -/
theorem triple_alone {P : World × FlightHistory → Prop} {R : Except AuthError α → Prop}
    {p : Auth α} (hP : (flightDiscipline options).Stable i P)
    (hp : p.Within (RefreshOp (options i)) R) :
  (flightDiscipline options).Triple (alikeFlights options) i P p (fun r w => R r ∧ P w)
  := by
  induction p with
  | done a => exact fun _ _ h => ⟨hp, h⟩
  | fail e => exact fun _ _ h => ⟨hp, h⟩
  | call o k ih =>
      apply Triple.call hP (R := fun _ => P)
      · intro w a hw hPw _
        obtain ⟨hkeeps, hrely⟩ := keeps_refreshOp hp.1 a hw
        use hkeeps
        apply hP w _ hw hkeeps.inv hrely hPw
      · exact fun a => ih a (hp.2 a)

/-! ### Joining and starting a promise -/

/-- A call settles as its option permits. -/
def Permitted (options : ℕ → Option Bool) (i : ℕ) (r : Except AuthError TokenSet)
    (_ : World × FlightHistory) : Prop :=
  Refusal (options i) r

theorem refusal_of_alike {interactive interactive' : Option Bool}
    (h : Alike interactive interactive') {r : Except AuthError α} (hr : Refusal interactive' r) :
  Refusal interactive r
  := fun s hs => h.mpr (hr s hs)

theorem triple_joinFlight (flight : ℕ) :
  (flightDiscipline options).Triple (alikeFlights options) i (LedAlike options i flight)
    (Auth.joinFlight flight) (Permitted options i)
  := by
  apply Triple.perform_bind (o := Op.joinFlight flight) stable_ledAlike
    (R := fun result w => Permitted options i result w)
  · rintro w result hw ⟨j, hj, halike⟩ ⟨hresult, -⟩
    constructor
    · exact ⟨hw, fun _ _ _ _ h => h⟩
    · obtain ⟨j', hj', hrefusal⟩ := hw.published flight result hresult
      obtain rfl := Option.some.inj (hj.symm.trans hj')
      apply refusal_of_alike halike hrefusal
  · intro result
    apply Triple.settle (Q := Permitted options i)

/-- What is known of the promise that a call has found, or started. -/
def Claimed (options : ℕ → Option Bool) (i : ℕ) : Claim → World × FlightHistory → Prop
  | .join flight => LedAlike options i flight
  | .lead flight => Leads i flight

/-- What a call finds in a slot: a promise of a call like it, or the place for its own. -/
theorem triple_claimFlight (slot : Slot) {f : Claim → Auth α}
    {Q : Except AuthError α → World × FlightHistory → Prop}
    (hjoin : ∀ flight, (flightDiscipline options).Triple (alikeFlights options) i
      (LedAlike options i flight) (f (.join flight)) Q)
    (hlead : ∀ flight, (flightDiscipline options).Triple (alikeFlights options) i
      (Leads i flight) (f (.lead flight)) Q) :
  (flightDiscipline options).Triple (alikeFlights options) i (fun _ => True)
    ((Auth.claimFlight slot).bind f) Q
  := by
  apply Triple.perform_bind (o := Op.claimFlight slot) (Stable.const True)
    (R := Claimed options i)
  · rintro w claim hw - ⟨hclaim, halike⟩
    cases claim with
    | join flight =>
        obtain ⟨j, hj⟩ := hw.slots slot flight hclaim
        have hled : LedAlike options i flight w := ⟨j, hj, halike j hj⟩
        refine ⟨⟨?_, fun _ _ _ _ h => h⟩, hled⟩
        refine ⟨hw.led, hw.slots, hw.published, ?_, hw.prompted⟩
        intro i' flight' hmem
        obtain heq | hmem := List.mem_cons.mp hmem
        · obtain ⟨rfl, rfl⟩ := Prod.mk.inj heq
          apply hled
        · apply hw.joined i' flight' hmem
    | lead flight =>
        obtain ⟨-, rfl⟩ := hclaim
        -- The new promise is none of those that are known.
        have hkept : ∀ flight' j, w.2.ledBy flight' = some j →
            Function.update w.2.ledBy w.1.nextFlight (some i) flight' = some j := by
          intro flight' j hj
          have hlt := hw.led flight' j hj
          rwa [Function.update_of_ne (by omega)]
        have hnew : Function.update w.2.ledBy w.1.nextFlight (some i) w.1.nextFlight = some i :=
          Function.update_self _ _ _
        refine ⟨⟨⟨?_, ?_, ?_, ?_, hw.prompted⟩, fun _ _ => hkept⟩, hnew⟩
        · intro flight' j hj
          change flight' < w.1.nextFlight + 1
          by_cases heq : flight' = w.1.nextFlight
          · omega
          · have hold : Function.update w.2.ledBy w.1.nextFlight (some i) flight' = some j := hj
            rw [Function.update_of_ne heq] at hold
            have hlt := hw.led flight' j hold
            omega
        · intro slot' flight' hslot
          change Function.update w.1.slots slot (some w.1.nextFlight) slot' = some flight' at hslot
          by_cases heq : slot' = slot
          · subst heq
            rw [Function.update_self] at hslot
            obtain rfl := Option.some.inj hslot
            use i, hnew
          · rw [Function.update_of_ne heq] at hslot
            obtain ⟨j, hj⟩ := hw.slots slot' flight' hslot
            use j, hkept flight' j hj
        · intro flight' result hresult
          obtain ⟨j, hj, hrefusal⟩ := hw.published flight' result hresult
          use j, hkept flight' j hj
        · intro i' flight' hmem
          obtain ⟨j, hj, halike'⟩ := hw.joined i' flight' hmem
          use j, hkept flight' j hj
  · intro claim
    cases claim with
    | join flight => apply hjoin
    | lead flight => apply hlead

theorem triple_publishFlight {flight : ℕ} {result : Except AuthError TokenSet}
    (hresult : Refusal (options i) result) {p : Auth α}
    {Q : Except AuthError α → World × FlightHistory → Prop}
    (hp : (flightDiscipline options).Triple (alikeFlights options) i (fun _ => True) p Q) :
  (flightDiscipline options).Triple (alikeFlights options) i (Leads i flight)
    ((Auth.publishFlight flight result).bind fun _ => p) Q
  := by
  apply Triple.perform_bind (o := Op.publishFlight flight result) stable_leads
    (R := fun _ _ => True)
  · rintro w a hw hleads -
    refine ⟨⟨⟨hw.led, hw.slots, ?_, hw.joined, hw.prompted⟩, fun _ _ _ _ h => h⟩, trivial⟩
    intro flight' result' hr
    change Function.update w.1.flights flight (some result) flight' = some result' at hr
    by_cases heq : flight' = flight
    · subst heq
      rw [Function.update_self] at hr
      obtain rfl := Option.some.inj hr
      use i, hleads
    · rw [Function.update_of_ne heq] at hr
      apply hw.published flight' result' hr
  · exact fun _ => hp

theorem triple_clearSlot (slot : Slot) (flight : ℕ) {P : World × FlightHistory → Prop}
    (hP : (flightDiscipline options).Stable i P) {p : Auth α}
    {Q : Except AuthError α → World × FlightHistory → Prop}
    (hp : (flightDiscipline options).Triple (alikeFlights options) i P p Q) :
  (flightDiscipline options).Triple (alikeFlights options) i P
    ((Auth.clearSlot slot flight).bind fun _ => p) Q
  := by
  apply Triple.perform_bind (o := Op.clearSlot slot flight) hP (R := fun _ => P)
  · rintro w a hw hPw -
    have hinv : FlightInv options ((alikeFlights options).post i w (.clearSlot slot flight) a) := by
      change FlightInv options (hostPost i w.1 (.clearSlot slot flight) a, w.2)
      simp only [hostPost]
      split
      · refine ⟨hw.led, ?_, hw.published, hw.joined, hw.prompted⟩
        intro slot' flight' hslot
        change Function.update w.1.slots slot none slot' = some flight' at hslot
        by_cases heq : slot' = slot
        · subst heq
          rw [Function.update_self] at hslot
          cases hslot
        · rw [Function.update_of_ne heq] at hslot
          apply hw.slots slot' flight' hslot
      · apply hw
    exact ⟨⟨hinv, fun _ _ _ _ h => h⟩, hP w _ hw hinv (fun _ _ h => h) hPw⟩
  · exact fun _ => hp

/-- A call goes on leading the promise it has started. -/
theorem leads_step {flight : ℕ} (w : World × FlightHistory) (o : Op) (a : Ans o)
    (hw : FlightInv options w) (h : Leads i flight w) :
  Leads i flight ((alikeFlights options).post i w o a)
  := by
  have hlt := hw.led flight i h
  cases o with
  | claimFlight slot =>
      cases a with
      | join flight' => apply h
      | lead flight' =>
          change Function.update w.2.ledBy flight' (some i) flight = some i
          by_cases heq : flight = flight'
          · rw [heq, Function.update_self]
          · rwa [Function.update_of_ne heq]
  | _ => apply h

/-! ### The calls -/

/-- The part of a call before it claims a slot. -/
theorem triple_prelude {β : Type} {p : Auth α} {f : α → Auth β}
    {Q : Except AuthError β → World × FlightHistory → Prop}
    (hp : p.Within (RefreshOp (options i)) Auth.Settled)
    (hf : ∀ a, (flightDiscipline options).Triple (alikeFlights options) i (fun _ => True)
      (f a) Q) :
  (flightDiscipline options).Triple (alikeFlights options) i (fun _ => True) (p.bind f) Q
  := by
  apply Triple.bind (triple_alone (Stable.const True) hp)
  · intro a
    apply (hf a).weaken
    exact fun _ _ _ => trivial
  · exact fun _ _ _ h => h.1.elim

theorem triple_permitted {p : Auth TokenSet}
    (hp : p.Within (RefreshOp (options i)) (Refusal (options i))) :
  (flightDiscipline options).Triple (alikeFlights options) i (fun _ => True) p
    (Permitted options i)
  := by
  apply (triple_alone (Stable.const True) hp).strengthen
  exact fun _ _ _ h => h.1

theorem validToken_settled (client : OAuthClient) (token : Option TokenSet) :
  (client.validToken token).Within (RefreshOp (options i)) Auth.Settled
  := ⟨trivial, fun _ => trivial⟩

theorem triple_ensure {r : TokenRuntime} (hr : r.Store) :
  (flightDiscipline options).Triple (alikeFlights options) i (fun _ => True)
    (r.ensure (options i)) (Permitted options i)
  := by
  apply triple_prelude
    (hr.getCached_within.mono (fun _ ho => TokenRuntime.refreshOp_of_read ho) fun _ h => h)
  intro cached
  apply triple_prelude (validToken_settled r.client cached)
  intro valid
  cases valid with
  | some token => exact Triple.done fun _ _ _ => refusal_ok token
  | none =>
      apply triple_claimFlight (.refresh r.instanceId)
      · exact fun flight => triple_joinFlight flight
      · intro flight
        apply Triple.attempt_bind
          (triple_alone stable_leads (hr.acquireCoordinated_permission cached))
        intro result
        apply Triple.assume
        intro hresult
        apply triple_clearSlot _ _ stable_leads
        apply triple_publishFlight hresult
        apply (Triple.settle (Q := Permitted options i) result).weaken
        exact fun _ _ _ => hresult

theorem triple_resolveProjectToken (slot : Slot) (skewMs : ℚ) {cached : Auth (Option TokenSet)}
    {performExchange : Auth TokenSet}
    (hcached : cached.Within (RefreshOp (options i)) Auth.Settled)
    (hexchange : (flightDiscipline options).Triple (alikeFlights options) i (fun _ => True)
      performExchange (Permitted options i)) :
  (flightDiscipline options).Triple (alikeFlights options) i (fun _ => True)
    (resolveProjectToken slot skewMs cached performExchange) (Permitted options i)
  := by
  apply triple_prelude hcached
  intro token
  apply triple_prelude (p := Auth.now) ⟨trivial, fun _ => trivial⟩
  intro now
  cases token.filter (isProjectTokenUsable skewMs now) with
  | some token => exact Triple.done fun _ _ _ => refusal_ok token
  | none =>
      apply triple_claimFlight slot
      · exact fun flight => triple_joinFlight flight
      · intro flight
        have hleads := hexchange.frame (F := Leads i flight) stable_leads
          fun w o a hw h _ => leads_step w o a hw h
        apply Triple.attempt_bind (hleads.weaken fun _ _ h => ⟨trivial, h⟩)
        intro result
        apply Triple.assume
        intro hresult
        apply triple_publishFlight hresult
        apply triple_clearSlot _ _ (Stable.const True)
        apply (Triple.settle (Q := Permitted options i) result).weaken
        exact fun _ _ _ => hresult

/-- An exchange of the token that a runtime ensures. -/
theorem triple_exchangeTo {r : TokenRuntime} (hr : r.Store) (exchange : TokenRuntime)
    (key : String) (extraParams : List (String × String)) :
  (flightDiscipline options).Triple (alikeFlights options) i (fun _ => True)
    ((r.ensure (options i)).bind fun human =>
      exchange.exchangeTo key human.accessToken extraParams) (Permitted options i)
  := by
  apply Triple.bind (triple_ensure hr)
  · intro human
    apply (triple_permitted _).weaken
    · exact fun _ _ _ => trivial
    · apply (exchange.client.postGrant_permission _).bind
      · intro token _
        refine ⟨trivial, fun saved => ?_⟩
        cases saved with
        | true => apply refusal_ok
        | false => exact refusal_error fun _ h => nomatch h
      · exact fun _ h => h
  · exact fun e w _ h => refusal_of_error h

theorem triple_call (call : TokenCall) :
  (flightDiscipline options).Triple (alikeFlights options) i (fun _ => True)
    (call.run (options i)) (Permitted options i)
  := by
  cases call with
  | ensure r hr => apply triple_ensure hr
  | project l =>
      apply triple_prelude l.ensureMigrated_permission
      intro _
      cases hexchange : l.exchange with
      | true =>
          apply triple_resolveProjectToken
          · exact ⟨trivial, fun _ => trivial⟩
          · apply triple_exchangeTo (.lightbridge l)
      | false => apply triple_ensure (.lightbridge l)
  | repoProject p =>
      apply triple_resolveProjectToken
      · exact ⟨trivial, fun _ => trivial⟩
      · apply triple_exchangeTo (.file rfl rfl)

end Calls

end Joining

/-! ### Runs -/

theorem flightInv_start (options : ℕ → Option Bool) {w : World} (hslots : ∀ slot, w.slots slot = none)
    (hflights : ∀ flight, w.flights flight = none) :
  FlightInv options (w, .empty)
  := by
  constructor
  · rintro flight j ⟨⟩
  · intro slot flight h
    rw [hslots] at h
    cases h
  · intro flight result h
    rw [hflights] at h
    cases h
  · exact fun _ _ h => (List.not_mem_nil h).elim
  · exact fun _ h => (List.not_mem_nil h).elim

/-- A call waits only for calls like it. -/
theorem FlightInv.alike {options : ℕ → Option Bool} {w : World × FlightHistory}
    (hw : FlightInv options w) {i j : ℕ} (h : w.2.WaitsFor i j) :
  Alike (options i) (options j)
  := by
  obtain ⟨flight, hjoined, hled⟩ := h
  obtain ⟨j', hled', halike⟩ := hw.joined i flight hjoined
  rw [hled] at hled'
  obtain rfl := Option.some.inj hled'
  apply halike

/-- A call that permits no login waits for none. -/
theorem FlightInv.not_prompted {options : ℕ → Option Bool} {w : World × FlightHistory}
    (hw : FlightInv options w) {i j : ℕ} (hi : options i = some false)
    (h : Relation.ReflTransGen w.2.WaitsFor i j) :
  j ∉ w.2.prompted
  := by
  have hj : options j = some false := by
    induction h with
    | refl => apply hi
    | tail _ hstep ih => apply (hw.alike hstep).mp ih
  intro hprompted
  apply hw.prompted j hprompted hj

/-- When no call joins a promise of a call with the other option, a call that permits no login
waits for none, no call that permits one is refused it, and each call shares what it would
have started itself. -/
theorem joined_calls_alike (options : ℕ → Option Bool) (calls : ℕ → TokenCall)
    (c c' : Config Op Ans AuthError TokenSet (World × FlightHistory))
    (hpool : ∀ i, c.pool i = (calls i).run (options i)) (hstart : c.world.2 = .empty)
    (hslots : ∀ slot, c.world.1.slots slot = none)
    (hflights : ∀ flight, c.world.1.flights flight = none)
    (hrun : (alikeFlights options).Run c c') :
  (∀ i j, options i = some false → Relation.ReflTransGen c'.world.2.WaitsFor i j →
      j ∉ c'.world.2.prompted) ∧
    (∀ i serverId, options i ≠ some false → c'.pool i ≠ .fail (.interactiveRequired serverId)) ∧
    ∀ i j, c'.world.2.WaitsFor i j →
      (∀ (r : TokenRuntime) snapshot,
        r.acquireCoordinated snapshot (options j) = r.acquireCoordinated snapshot (options i)) ∧
      ∀ l : LightbridgeRuntime, l.performExchange (options j) = l.performExchange (options i)
  := by
  have htriple : ∀ i, (flightDiscipline options).Triple (alikeFlights options) i
      (fun _ => True) (c.pool i) (Joining.Permitted options i) := by
    intro i
    rw [hpool i]
    apply Joining.triple_call
  have hinv : FlightInv options c.world := by
    obtain ⟨⟨w, g⟩, pool⟩ := c
    obtain rfl : g = .empty := hstart
    apply flightInv_start options hslots hflights
  obtain ⟨hinv', hsettled⟩ := Discipline.settled_of_run htriple (fun _ _ _ _ _ _ _ h => h)
    (fun w _ hw _ => ⟨⟨hw.led, hw.slots, hw.published, hw.joined, hw.prompted⟩,
      fun _ _ _ h => h⟩) hinv (fun _ => trivial) hrun
  refine ⟨fun i j => hinv'.not_prompted, ?_, ?_⟩
  · intro i serverId hi hfail
    apply hi
    apply hsettled i (.error (.interactiveRequired serverId)) hfail serverId rfl
  · intro i j h
    have halike : Alike (options j) (options i) := (hinv'.alike h).symm
    exact ⟨fun r snapshot => halike.acquireCoordinated r snapshot, halike.performExchange⟩

/-- Calls of `ensure` on one token runtime, which has no token. -/
def sharedCalls (options : ℕ → Option Bool) :
    Config Op Ans AuthError TokenSet (World × FlightHistory) where
  world := (.blank 0, .empty)
  pool i := (sampleRuntime 0).ensure (options i)

/-- A call that permits no login shares the refresh of another one. -/
theorem joined_calls_alike_once :
  ∃ c', (alikeFlights fun _ => some false).Run (sharedCalls fun _ => some false) c' ∧
    c'.world.2.WaitsFor 1 0 ∧ 0 ∉ c'.world.2.prompted
  := by
  obtain ⟨c', hrun, hc'⟩ := Machine.exists_run_of_play (alikeFlights fun _ => some false)
    (proceed 0 3 ++ proceed 1 3) (sharedCalls fun _ => some false)
    (fun c' => c'.world.2.joined = [(1, 0)] ∧ c'.world.2.ledBy 0 = some 0) (by decide)
  obtain ⟨hjoined, hled⟩ := of_decide_eq_true hc'
  have hwaits : c'.world.2.WaitsFor 1 0 := ⟨0, by simp [hjoined], hled⟩
  obtain ⟨hquiet, -, -⟩ := joined_calls_alike (fun _ => some false)
    (fun _ => .ensure (sampleRuntime 0) (.file rfl rfl)) (sharedCalls fun _ => some false) c'
    (fun _ => rfl) rfl (fun _ => rfl) (fun _ => rfl) hrun
  use c', hrun, hwaits
  apply hquiet 1 0 rfl (Relation.ReflTransGen.single hwaits)

/-- The first call permits a login, the others do not. -/
def mixedOptions (i : ℕ) : Option Bool := some (i = 0)

/-- A call that permits no login waits for that of the first call, or the first call is
refused a login because it has joined one of the others. -/
theorem joined_calls_mixed :
  (¬ ∀ c', flightHost.Run (sharedCalls mixedOptions) c' →
    ∀ i j, mixedOptions i = some false → Relation.ReflTransGen c'.world.2.WaitsFor i j →
      j ∉ c'.world.2.prompted) ∧
  ¬ ∀ c', flightHost.Run (sharedCalls mixedOptions) c' →
    ∀ i serverId, mixedOptions i ≠ some false → c'.pool i ≠ .fail (.interactiveRequired serverId)
  := by
  constructor
  · intro h
    obtain ⟨c', hrun, hc'⟩ := Machine.exists_run_of_play flightHost
      (proceed 0 13 ++ proceed 1 3) (sharedCalls mixedOptions)
      (fun c' => c'.world.2.joined = [(1, 0)] ∧ c'.world.2.ledBy 0 = some 0 ∧
        c'.world.2.prompted = [0]) (by decide)
    obtain ⟨hjoined, hled, hprompted⟩ := of_decide_eq_true hc'
    have hwaits : c'.world.2.WaitsFor 1 0 := ⟨0, by simp [hjoined], hled⟩
    apply h c' hrun 1 0 rfl (Relation.ReflTransGen.single hwaits)
    simp [hprompted]
  · intro h
    obtain ⟨c', hrun, hc'⟩ := Machine.exists_run_of_play flightHost
      (proceed 1 3 ++ proceed 0 3 ++ proceed 1 12 ++ proceed 0 1) (sharedCalls mixedOptions)
      (fun c' => (c'.pool 0).result = some (.error (.interactiveRequired "idp"))) (by decide)
    apply h c' hrun 0 "idp" (by decide)
    apply Program.eq_settle_of_result (of_decide_eq_true hc')
