import OpencodeToolbelt.Async.TimedSystem
import OpencodeToolbelt.Fetching.Wrappers
import OpencodeToolbelt.RateLimit.Config
import OpencodeToolbelt.RateLimit.Gate

/-!
# Requests of a rate limiter

The requests that go through the rate limiter of a provider at the same time. Each belongs to a
bucket, at whose gate it may wait before its first attempt and before another one. The buckets are
kept in one store.
-/

open RateLimit

namespace Fetch

/-- A request, named by the model that has been read from it and by a number. -/
structure RequestId where
  model : Option JsUnits
  number : ℕ
deriving DecidableEq

/-- Where a request is. -/
inductive FlightPhase where
  /-- It is in the last of its calls of `waitGate`. -/
  | waiting
  /-- An attempt has been sent. -/
  | sent
  | returned (response : Response)
  /-- The wait has been aborted, or an attempt has failed. -/
  | failed

structure Flight where
  /-- The attempt that has been sent last, or that comes after the wait. -/
  attempt : ℕ
  /-- The calls of `waitGate`, the last one first. -/
  waits : List ℕ
  phase : FlightPhase

namespace Flight

def initial : Flight := ⟨0, [], .sent⟩

def isWaiting (flight : Flight) : Bool :=
  match flight.phase with
  | .waiting => true
  | _ => false

def isSent (flight : Flight) : Bool :=
  match flight.phase with
  | .sent => true
  | _ => false

end Flight

/-- Whether a call of `waitGate` has returned. -/
def hasReturned (w : Waiter) : Bool :=
  match w.phase with
  | .returned _ _ => true
  | .pending _ _ => false

/-- The buckets of a provider, each with the calls that wait at its gate, and the requests. -/
structure Limited where
  store : JsMap JsUnits Gate
  requests : JsMap RequestId Flight

/-- What happens to the requests of a provider. -/
inductive LimiterEvent where
  /-- The wrapper is called, and has read the model; `worked` tells whether the body of a `Request`
  could be read. -/
  | call (id : RequestId) (input : Input) (init : Option Init) (worked : Bool)
  /-- The fetch below answers an attempt. -/
  | respond (id : RequestId) (response : Response)
  /-- The fetch below fails. -/
  | fail (id : RequestId)
  /-- The call of `waitGate` has returned, and the request goes on. -/
  | resume (id : RequestId)
  /-- The sleep that the request awaits has settled, and `waitGate` goes on. -/
  | wake (id : RequestId)
  /-- The signal of a waiting request aborts. -/
  | abort (id : RequestId)
  /-- The timer of a sleep fires. -/
  | fire (model : Option JsUnits) (sleep : ℕ)
  /-- The `finally` of a sleep runs. -/
  | settle (model : Option JsUnits) (sleep : ℕ)

/-- The model whose request or whose bucket an event is about. -/
def LimiterEvent.model : LimiterEvent → Option JsUnits
  | .call id _ _ _ => id.model
  | .respond id _ => id.model
  | .fail id => id.model
  | .resume id => id.model
  | .wake id => id.model
  | .abort id => id.model
  | .fire model _ => model
  | .settle model _ => model

/-! ### Models -/

section Models

variable (N : Type) [JsNumber N] (limiter : RateLimiter)

/-- The model of a request, as far as it matters and can be read. -/
def modelOf (input : Input) (init : Option Init) (worked : Bool) : Option JsUnits :=
  if limiter.opts.scope = .model then
    (modelFromBody N (init.bind Init.body)).or <|
      (input.request?.bind Request.body).bind fun body =>
        if worked then modelFromText N (textOf body.content) else none
  else none

/-- The wrapper reads the model from the text in the call, or else from that of a `Request`. -/
theorem modelFromRequest_eq {Context Error : Type} (hscope : limiter.opts.scope = .model)
    (input : Input) (init : Option Init) :
  let reading : Program Op (Ans Context Error) Error (Option JsUnits) :=
    modelFromRequest N input init
  (∀ worked, reading = .done (modelOf N limiter input init worked)) ∨
    ∃ body, reading = .call (.read body) fun (worked : Bool) =>
      .done (modelOf N limiter input init worked)
  := by
  simp only [modelFromRequest, modelOf, if_pos hscope]
  cases modelFromBody N (init.bind Init.body) with
  | some model =>
      left
      intro worked
      rfl
  | none =>
      cases input with
      | request request =>
          obtain ⟨url, method, headers, body⟩ := request
          cases body with
          | none =>
              left
              intro worked
              rfl
          | some body =>
              right
              use { body with clones := readNumber :: body.clones }
              rfl
      | text url =>
          left
          intro worked
          rfl
      | url href =>
          left
          intro worked
          rfl

end Models

namespace Limited

def initial : Limited := ⟨.empty, .empty⟩

section Buckets

variable (providerId : String) (l : Limited)

/-- The bucket of a model with its gate, at a time. -/
def gate (model : Option JsUnits) (now : ℚ) : Gate :=
  { (l.store.get (bucketKey providerId model)).getD (.initial now) with now }

def setGate (model : Option JsUnits) (gate : Gate) : Limited :=
  { l with store := l.store.set (bucketKey providerId model) gate }

def setFlight (id : RequestId) (flight : Flight) : Limited :=
  { l with requests := l.requests.set id flight }

/-- The last call of `waitGate` that a request has made. -/
def lastWait (id : RequestId) : Option ℕ :=
  (l.requests.get id).bind fun flight => flight.waits.head?

def waiter (id : RequestId) (now : ℚ) : Option Waiter :=
  (l.lastWait id).bind (l.gate providerId id.model now).waiters.get

/-- A request calls `waitGate`. -/
def waitGate (id : RequestId) (flight : Flight) (gate : Gate) (maxWaitMs : ℚ) :
    Limited :=
  (l.setGate providerId id.model (gate.handle (.waitGate maxWaitMs))).setFlight id
    { flight with waits := gate.waiterSeq :: flight.waits, phase := .waiting }

end Buckets

variable (N : Type) [JsNumber N] {Context : Type} (platform : FetchPlatform Context)
  (limiter : RateLimiter) (l : Limited)

/-- The gate before the first attempt. -/
def throttle (now : ℚ) (id : RequestId) : Limited :=
  let gate := l.gate limiter.providerId id.model now
  let { cooldownUntilMs, cooldownMaxWaitMs, .. } := gate.bucket
  if now < cooldownUntilMs ∧ 0 < clampWait (cooldownUntilMs - now) cooldownMaxWaitMs then
    l.waitGate limiter.providerId id .initial gate cooldownMaxWaitMs
  else (l.setGate limiter.providerId id.model gate).setFlight id .initial

/-- A response is surfaced, after the cooldown has been set. -/
def surface (now : ℚ) (id : RequestId) (flight : Flight) (response : Response)
    (cooldown : Option (ℚ × ℚ)) : Limited :=
  let gate := l.gate limiter.providerId id.model now
  (l.setGate limiter.providerId id.model
    (cooldown.elim gate fun c => gate.handle (.cooldown c.1 c.2))).setFlight id
      { flight with phase := .returned response }

/-- The wait before another attempt. -/
def backoff (now : ℚ) (id : RequestId) (flight : Flight) (tier : RateLimitTier)
    (snapshot : RateLimitSnapshot) : Limited :=
  let waitMs := clampWait (computeBackoff snapshot now) tier.maxWaitMs
  l.waitGate limiter.providerId id { flight with attempt := flight.attempt + 1 }
    ((l.gate limiter.providerId id.model now).handle (.cooldown (now + waitMs) tier.maxWaitMs))
    tier.maxWaitMs

/-- What the wrapper makes of a response. -/
def respond (now : ℚ) (id : RequestId) (response : Response) (flight : Flight) : Limited :=
  (verdict platform limiter flight.attempt response now).proceed
    (l.surface limiter now id flight response) (l.backoff limiter now id flight)

/-- The state after an event at a time. -/
def handle (now : ℚ) : LimiterEvent → Limited
  | .call id _ _ _ => l.throttle limiter now id
  | .respond id response =>
      (l.requests.get id).elim l (l.respond platform limiter now id response)
  | .fail id =>
      (l.requests.get id).elim l fun flight => l.setFlight id { flight with phase := .failed }
  | .resume id =>
      (l.requests.get id).elim l fun flight => l.setFlight id { flight with phase := .sent }
  | .wake id =>
      (l.lastWait id).elim l fun i =>
        l.setGate limiter.providerId id.model
          ((l.gate limiter.providerId id.model now).handle (.wake i))
  | .abort id =>
      (l.requests.get id).elim l fun flight =>
        let gate := l.gate limiter.providerId id.model now
        (l.setGate limiter.providerId id.model
          { gate with waiters := flight.waits.head?.elim gate.waiters gate.waiters.delete }).setFlight
            id { flight with phase := .failed }
  | .fire model p =>
      l.setGate limiter.providerId model
        ((l.gate limiter.providerId model now).handle (.fire p))
  | .settle model p =>
      l.setGate limiter.providerId model
        ((l.gate limiter.providerId model now).handle (.settle p))

/-- Which events may occur at a time. A timer does not fire before it is due. -/
def enabled (now : ℚ) : LimiterEvent → Bool
  | .call id input init worked =>
      (l.requests.get id).isNone && id.model = modelOf N limiter input init worked
  | .respond id _ => (l.requests.get id).any Flight.isSent
  | .fail id => (l.requests.get id).any Flight.isSent
  | .resume id =>
      (l.requests.get id).any Flight.isWaiting &&
        (l.waiter limiter.providerId id now).any hasReturned
  | .wake id =>
      (l.requests.get id).any Flight.isWaiting &&
        (l.waiter limiter.providerId id now).any
          (l.gate limiter.providerId id.model now).wakeable
  | .abort id =>
      (l.requests.get id).any Flight.isWaiting &&
        (l.waiter limiter.providerId id now).any fun w => !hasReturned w
  | .fire model p =>
      ((l.gate limiter.providerId model now).sleeps.get p).any fun sleep =>
        !sleep.fired && sleep.due ≤ now
  | .settle model p =>
      ((l.gate limiter.providerId model now).sleeps.get p).any Sleep.fired

/-- The requests of a provider, with its store. -/
def system : TimedSystem Limited LimiterEvent ℚ where
  enabled l now e := l.enabled N limiter now e = true
  next l now e := l.handle platform limiter now e

instance (l : Limited) (now : ℚ) (e : LimiterEvent) :
  Decidable ((system N platform limiter).enabled l now e)
  := inferInstanceAs (Decidable (l.enabled N limiter now e = true))

/-- A platform without a propagator, on which there are no dates. -/
def samplePlatform : FetchPlatform Unit := ⟨fun _ => none, fun _ => none⟩

/-- A limiter with the tier that there is by default. -/
def sampleLimiter (scope : RateLimitScope) : RateLimiter where
  providerId := "p"
  opts :=
    { scope
      headerPrefix := DEFAULT_HEADER_PREFIX
      tiers := [flatTier []]
      tiers_ne_nil := List.cons_ne_nil _ _ }

end Limited

end Fetch
