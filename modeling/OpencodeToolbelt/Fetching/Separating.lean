import OpencodeToolbelt.Fetching.Limiting

/-!
# Models apart

Buckets of different models have different keys. What happens to the requests for one model does
not depend on what happens to the others, although all buckets are in one store.
-/

open RateLimit

namespace Fetch

/-- The bucket of a model is no other model's, nor the one of the provider. -/
theorem bucketKey_injective (providerId : String) :
  Function.Injective (bucketKey providerId)
  := by
  intro model model' h
  cases model with
  | none =>
      cases model' with
      | none => rfl
      | some model' =>
          have hnil := List.append_right_eq_self.mp h.symm
          cases hnil
  | some model =>
      cases model' with
      | none =>
          have hnil := List.append_right_eq_self.mp h
          cases hnil
      | some model' =>
          have htail := List.append_cancel_left h
          rw [(List.cons.inj htail).2]

namespace Limited

/-- What some of the buckets see of a state: their gates and their requests. -/
structure Seen where
  gates : JsUnits → Option Gate
  flights : RequestId → Option Flight

section Parts

variable (providerId : String) (P : JsUnits → Bool)

/-- What the buckets with keys of a kind see. -/
def seen (l : Limited) : Seen where
  gates key := if P key then l.store.get key else none
  flights id := if P (bucketKey providerId id.model) then l.requests.get id else none

variable {providerId P} {l l' : Limited} {model : Option JsUnits} {id : RequestId}

theorem gate_congr (h : seen providerId P l = seen providerId P l')
    (hP : P (bucketKey providerId model) = true) (now : ℚ) :
  l.gate providerId model now = l'.gate providerId model now
  := by
  have hstore := congr_fun (congr_arg Seen.gates h) (bucketKey providerId model)
  simp only [seen, if_pos hP] at hstore
  simp only [gate, hstore]

theorem flight_congr (h : seen providerId P l = seen providerId P l')
    (hP : P (bucketKey providerId id.model) = true) :
  l.requests.get id = l'.requests.get id
  := by
  have hrequests := congr_fun (congr_arg Seen.flights h) id
  simp only [seen, if_pos hP] at hrequests
  apply hrequests

theorem seen_setGate (hP : P (bucketKey providerId model) = false) (g : Gate) :
  seen providerId P (l.setGate providerId model g) = seen providerId P l
  := by
  simp only [seen, setGate, Seen.mk.injEq, and_true]
  funext key
  rw [JsMap.get_set]
  by_cases hkey : key = bucketKey providerId model
  · rw [hkey, hP]
    rfl
  · rw [if_neg hkey]

theorem seen_setFlight (hP : P (bucketKey providerId id.model) = false) (flight : Flight) :
  seen providerId P (l.setFlight id flight) = seen providerId P l
  := by
  simp only [seen, setFlight, Seen.mk.injEq, true_and]
  funext id'
  rw [JsMap.get_set]
  by_cases hid : id' = id
  · rw [hid, hP]
    rfl
  · rw [if_neg hid]

theorem seen_setGate_congr (h : seen providerId P l = seen providerId P l') (g : Gate) :
  seen providerId P (l.setGate providerId model g) =
    seen providerId P (l'.setGate providerId model g)
  := by
  simp only [seen, setGate, Seen.mk.injEq] at h ⊢
  constructor
  · funext key
    have hsame := congr_fun h.1 key
    simp only [JsMap.get_set]
    by_cases hkey : key = bucketKey providerId model
    · rw [if_pos hkey, if_pos hkey]
    · rw [if_neg hkey, if_neg hkey, hsame]
  · apply h.2

theorem seen_setFlight_congr (h : seen providerId P l = seen providerId P l') (flight : Flight) :
  seen providerId P (l.setFlight id flight) = seen providerId P (l'.setFlight id flight)
  := by
  simp only [seen, setFlight, Seen.mk.injEq] at h ⊢
  constructor
  · apply h.1
  · funext id'
    have hsame := congr_fun h.2 id'
    simp only [JsMap.get_set]
    by_cases hid : id' = id
    · rw [if_pos hid, if_pos hid]
    · rw [if_neg hid, if_neg hid, hsame]

end Parts

variable (N : Type) [JsNumber N] {Context : Type} (platform : FetchPlatform Context)
  (limiter : RateLimiter) (P : JsUnits → Bool) (l : Limited)

theorem seen_waitGate {id : RequestId}
    (hP : P (bucketKey limiter.providerId id.model) = false) (flight : Flight) (g : Gate)
    (maxWaitMs : ℚ) :
  seen limiter.providerId P (l.waitGate limiter.providerId id flight g maxWaitMs) =
    seen limiter.providerId P l
  := by
  rw [waitGate, seen_setFlight hP, seen_setGate hP]

/-- An event of another bucket is not seen. -/
theorem seen_handle (now : ℚ) (e : LimiterEvent)
    (hP : P (bucketKey limiter.providerId e.model) = false) :
  seen limiter.providerId P (l.handle platform limiter now e) = seen limiter.providerId P l
  := by
  have helim : ∀ {α : Type} (o : Option α) (f : α → Limited),
      (∀ a, seen limiter.providerId P (f a) = seen limiter.providerId P l) →
      seen limiter.providerId P (o.elim l f) = seen limiter.providerId P l := by
    intro α o f hf
    cases o with
    | none => rfl
    | some a => apply hf
  cases e with
  | call id input init worked =>
      simp only [handle, throttle]
      split
      · apply seen_waitGate _ _ _ hP
      · apply (seen_setFlight hP _).trans (seen_setGate hP _)
  | respond id response =>
      apply helim
      intro flight
      unfold respond
      cases verdict platform limiter flight.attempt response now with
      | surface cooldown =>
          simp only [Verdict.proceed, surface]
          apply (seen_setFlight hP _).trans (seen_setGate hP _)
      | retry tier snapshot => apply seen_waitGate _ _ _ hP
  | fail id =>
      apply helim
      intro flight
      apply seen_setFlight hP
  | resume id =>
      apply helim
      intro flight
      apply seen_setFlight hP
  | wake id =>
      apply helim
      intro i
      apply seen_setGate hP
  | abort id =>
      apply helim
      intro flight
      dsimp only
      apply (seen_setFlight hP _).trans (seen_setGate hP _)
  | fire model p => apply seen_setGate hP
  | settle model p => apply seen_setGate hP

section Congruence

variable {P} {l l' : Limited} (h : seen limiter.providerId P l = seen limiter.providerId P l')

include h

theorem seen_waitGate_congr (id : RequestId) (flight : Flight) (g : Gate) (maxWaitMs : ℚ) :
  seen limiter.providerId P (l.waitGate limiter.providerId id flight g maxWaitMs) =
    seen limiter.providerId P (l'.waitGate limiter.providerId id flight g maxWaitMs)
  := by
  apply seen_setFlight_congr
  apply seen_setGate_congr h

/-- What is seen of an event of one's own depends on what has been seen. -/
theorem seen_handle_congr (now : ℚ) (e : LimiterEvent)
    (hP : P (bucketKey limiter.providerId e.model) = true) :
  seen limiter.providerId P (l.handle platform limiter now e) =
    seen limiter.providerId P (l'.handle platform limiter now e)
  := by
  have helim : ∀ {α : Type} {o o' : Option α} (f f' : α → Limited), o = o' →
      (∀ a, seen limiter.providerId P (f a) = seen limiter.providerId P (f' a)) →
      seen limiter.providerId P (o.elim l f) = seen limiter.providerId P (o'.elim l' f') := by
    rintro α o _ f f' rfl hf
    cases o with
    | none => apply h
    | some a => apply hf
  have hgate : ∀ model, e.model = model →
      l.gate limiter.providerId model now = l'.gate limiter.providerId model now := by
    rintro _ rfl
    apply gate_congr h hP
  cases e with
  | call id input init worked =>
      simp only [handle, throttle]
      rw [hgate id.model rfl]
      split
      · apply seen_waitGate_congr _ h
      · apply seen_setFlight_congr
        apply seen_setGate_congr h
  | respond id response =>
      apply helim _ _ (flight_congr h hP)
      intro flight
      unfold respond
      cases verdict platform limiter flight.attempt response now with
      | surface cooldown =>
          simp only [Verdict.proceed, surface]
          rw [hgate id.model rfl]
          apply seen_setFlight_congr
          apply seen_setGate_congr h
      | retry tier snapshot =>
          simp only [Verdict.proceed, backoff]
          rw [hgate id.model rfl]
          apply seen_waitGate_congr _ h
  | fail id =>
      apply helim _ _ (flight_congr h hP)
      intro flight
      apply seen_setFlight_congr h
  | resume id =>
      apply helim _ _ (flight_congr h hP)
      intro flight
      apply seen_setFlight_congr h
  | wake id =>
      have hwait : l.lastWait id = l'.lastWait id :=
        congr_arg (fun o : Option Flight => o.bind fun flight => flight.waits.head?)
          (flight_congr h hP)
      apply helim _ _ hwait
      intro i
      rw [hgate id.model rfl]
      apply seen_setGate_congr h
  | abort id =>
      apply helim _ _ (flight_congr h hP)
      intro flight
      dsimp only
      rw [hgate id.model rfl]
      apply seen_setFlight_congr
      apply seen_setGate_congr h
  | fire model p =>
      simp only [handle]
      rw [hgate model rfl]
      apply seen_setGate_congr h
  | settle model p =>
      simp only [handle]
      rw [hgate model rfl]
      apply seen_setGate_congr h

/-- Whether an event of one's own may occur depends on what has been seen. -/
theorem enabled_congr (now : ℚ) (e : LimiterEvent)
    (hP : P (bucketKey limiter.providerId e.model) = true) :
  l.enabled N limiter now e = l'.enabled N limiter now e
  := by
  have hgate : ∀ model, e.model = model →
      l.gate limiter.providerId model now = l'.gate limiter.providerId model now := by
    rintro _ rfl
    apply gate_congr h hP
  have hwaiter : ∀ id : RequestId, id.model = e.model →
      l.waiter limiter.providerId id now = l'.waiter limiter.providerId id now := by
    intro id hid
    have hflight : l.requests.get id = l'.requests.get id := flight_congr h (hid ▸ hP)
    rw [waiter, waiter, lastWait, lastWait, hflight, hgate id.model hid.symm]
  cases e with
  | call id input init worked => simp only [enabled, flight_congr h hP]
  | respond id response => simp only [enabled, flight_congr h hP]
  | fail id => simp only [enabled, flight_congr h hP]
  | resume id => simp only [enabled, flight_congr h hP, hwaiter id rfl]
  | wake id => simp only [enabled, flight_congr h hP, hwaiter id rfl, hgate id.model rfl]
  | abort id => simp only [enabled, flight_congr h hP, hwaiter id rfl]
  | fire model p => simp only [enabled, hgate model rfl]
  | settle model p => simp only [enabled, hgate model rfl]

end Congruence

/-- The buckets with keys of a kind are a part of the system. -/
theorem isPart :
  (system N platform limiter).IsPart (fun e => P (bucketKey limiter.providerId e.model))
    (seen limiter.providerId P)
  where
  frame l now e hP := seen_handle platform limiter P l now e hP
  enabled now e hP h henabled := (enabled_congr N limiter h now e hP).symm.trans henabled
  next now e hP h := seen_handle_congr platform limiter h now e hP

/-! ### One model and the others -/

/-- What becomes of a request: its attempts, its waits and how it ends. -/
structure Outcome where
  attempt : ℕ
  phase : FlightPhase
  waits : List (Option Waiter)

/-- The outcome of a request, as far as it is known. -/
def outcome (providerId : String) (l : Limited) (id : RequestId) : Option Outcome :=
  (l.requests.get id).map fun flight =>
    { attempt := flight.attempt
      phase := flight.phase
      waits := flight.waits.map fun i =>
        (l.store.get (bucketKey providerId id.model)).bind fun gate => gate.waiters.get i }

/-- Whether an event is about the requests for a model. -/
def isFor (model : JsUnits) (e : LimiterEvent) : Bool := e.model = some model

/-- The key of the bucket of a model. -/
def ownKey (providerId : String) (model key : JsUnits) : Bool :=
  key = bucketKey providerId (some model)

/-- Let the requests for other models fare in any way that they could without those for a model:
the events of that model may still occur, and its requests wait, are sent again and return as
before. -/
theorem undisturbed {now : ℚ} (model : JsUnits) {es es' : List (ℚ × LimiterEvent)}
    (hes : (system N platform limiter).Runs now initial es)
    (hsame : TimedSystem.only (isFor model) es' =
      TimedSystem.only (isFor model) es)
    (hothers : (system N platform limiter).Runs now initial
      (TimedSystem.only (fun e => !isFor model e) es'))
    (hordered : TimedSystem.Ordered now es') :
  (system N platform limiter).Runs now initial es' ∧
    ∀ id : RequestId, id.model = some model →
      outcome limiter.providerId ((system N platform limiter).after initial es') id =
        outcome limiter.providerId ((system N platform limiter).after initial es) id
  := by
  have hfor : isFor model = fun e => ownKey limiter.providerId model
      (bucketKey limiter.providerId e.model) := by
    funext e
    simp only [isFor, ownKey, (bucketKey_injective limiter.providerId).eq_iff]
  have hpart := isPart N platform limiter (ownKey limiter.providerId model)
  have hothersPart := isPart N platform limiter fun key => !ownKey limiter.providerId model key
  rw [hfor] at hsame hothers
  have hown := hpart.runs_only rfl hes
  rw [← hsame] at hown
  constructor
  · apply hpart.runs_of_only hothersPart rfl rfl hordered hown hothers
  · intro id hid
    let own := ownKey limiter.providerId model
    have hview : seen limiter.providerId own ((system N platform limiter).after initial es') =
        seen limiter.providerId own ((system N platform limiter).after initial es) := by
      rw [hpart.view_after rfl es', hsame]
      apply (hpart.view_after rfl es).symm
    have hP : own (bucketKey limiter.providerId id.model) = true := by
      rw [hid]
      apply decide_eq_true rfl
    have hstore := congr_fun (congr_arg Seen.gates hview) (bucketKey limiter.providerId id.model)
    rw [seen, seen] at hstore
    dsimp only at hstore
    rw [if_pos hP, if_pos hP] at hstore
    rw [outcome, outcome, flight_congr hview hP, hstore]

/-- A request for a model. -/
def callFor (model : String) : LimiterEvent :=
  .call ⟨some (unitsOfString model), 0⟩ (.text "u")
    (some { Init.empty with body := some (.text ("\x7b\"model\":\"" ++ model ++ "\"\x7d")) }) true

/-- A response with a reset. -/
def responseOf (status : ℕ) (reset : String) : Response where
  status
  statusText := ""
  headers := Headers.empty.set "x-ratelimit-reset" reset
  body := none

/-- A request for a model is sent twice, while one for another model gets a response. -/
def sampleRun (other : Response) : List (ℚ × LimiterEvent) :=
  let id : RequestId := ⟨some (unitsOfString "a"), 0⟩
  [(0, callFor "a"), (0, callFor "b"), (5, .respond ⟨some (unitsOfString "b"), 0⟩ other),
    (10, .respond id (responseOf 429 "2")), (2010, .fire id.model 0), (2010, .settle id.model 0),
    (2010, .wake id), (2010, .resume id), (2020, .respond id (responseOf 200 "60"))]

theorem undisturbed_limited :
  let system := system ℕ samplePlatform (sampleLimiter .model)
  system.Runs 0 initial (sampleRun (responseOf 429 "30")) ∧
    outcome "p" (system.after initial (sampleRun (responseOf 429 "30")))
        ⟨some (unitsOfString "a"), 0⟩ =
      outcome "p" (system.after initial (sampleRun (responseOf 200 "30")))
        ⟨some (unitsOfString "a"), 0⟩
  := by
  have hruns : (system ℕ samplePlatform (sampleLimiter .model)).Runs 0 initial
      (sampleRun (responseOf 200 "30")) := by
    decide +kernel
  have hne : unitsOfString "b" ≠ unitsOfString "a" := by decide +kernel
  have hsame : TimedSystem.only (isFor (unitsOfString "a")) (sampleRun (responseOf 429 "30")) =
      TimedSystem.only (isFor (unitsOfString "a")) (sampleRun (responseOf 200 "30")) := by
    simp [TimedSystem.only, sampleRun, isFor, LimiterEvent.model, callFor, hne]
  have hordered : TimedSystem.Ordered 0 (sampleRun (responseOf 429 "30")) := by
    norm_num [TimedSystem.Ordered, sampleRun]
  have hothers : (system ℕ samplePlatform (sampleLimiter .model)).Runs 0 initial
      (TimedSystem.only (fun e => !isFor (unitsOfString "a") e)
        (sampleRun (responseOf 429 "30"))) := by
    decide +kernel
  obtain ⟨hruns', houtcome⟩ := undisturbed ℕ samplePlatform (sampleLimiter .model)
    (unitsOfString "a") hruns hsame hothers hordered
  use hruns'
  apply houtcome _ rfl

end Limited

end Fetch
