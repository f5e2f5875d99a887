import OpencodeToolbelt.Async.Program
import OpencodeToolbelt.RateLimit.Policy
import OpencodeToolbelt.ResponsesRepair.Streaming

/-!
# The wrappers of fetch

Three wrappers of `fetch`: one adds a trace context to requests, one waits out the rate limits of
a provider and sends requests again, and one repairs the streams of the Responses API. Each is
given the `fetch` that it delegates to, so that they stack.
-/

open RateLimit ResponsesRepair

/-! ### The platform -/

/-- What a propagator writes for a context. -/
structure Carrier where
  traceparent : String
  tracestate : Option String

/-- The packages that the wrappers use. -/
structure FetchPlatform (Context : Type) where
  /-- `propagator.inject`, with `none` for an empty carrier. -/
  inject : Context → Option Carrier
  /-- `Date.parse` -/
  parseDate : String → Option ℚ

/-- A rate limiter of a provider. -/
structure RateLimiter where
  providerId : String
  opts : RateLimitOptions

namespace Fetch

/-- What a wrapper awaits, asks for or changes. -/
inductive Op where
  | getContext
  /-- The text of a body is read, from a clone of its own. -/
  | read (body : Readable)
  /-- The gate of a bucket before a request, and the wait for another attempt. -/
  | throttle (limiter : RateLimiter) (bucket : JsUnits)
  | backoff (limiter : RateLimiter) (bucket : JsUnits) (maxWaitMs : ℕ)
  | now
  /-- The cooldown of a bucket is set. -/
  | cooldown (limiter : RateLimiter) (bucket : JsUnits) (untilMs maxWaitMs : ℚ)
  /-- The base fetch is called. -/
  | send (input : Input) (init : Option Init)

/-- A read tells whether it has worked out. -/
def Ans (Context Error : Type) : Op → Type
  | .getContext => Option Context
  | .read _ => Bool
  | .throttle _ _ => Except Error Unit
  | .backoff _ _ _ => Except Error Unit
  | .now => ℚ
  | .cooldown _ _ _ _ => Unit
  | .send _ _ => Except Error Response

variable {Context Error : Type}

/-- A `fetch` function. -/
abbrev Fetcher (Context Error : Type) :=
  Input → Option Init → Program Op (Ans Context Error) Error Response

/-- The `fetch` below all wrappers. -/
def base : Fetcher Context Error :=
  fun input init => .call (.send input init) Program.settle

/-! ### Trace contexts -/

/-- The headers of a carrier, where there are none of their names. -/
def addCarrier (carrier : Carrier) (headers : Headers) : Headers :=
  let headers := headers.setMissing "traceparent" carrier.traceparent
  carrier.tracestate.elim headers fun tracestate => headers.setMissing "tracestate" tracestate

def withCarrier (carrier : Carrier) (init : Option Init) : Init :=
  { init.getD .empty with
    headers := some (addCarrier carrier ((init.bind Init.headers).getD .empty)) }

def tracePropagation (platform : FetchPlatform Context) (delegate : Fetcher Context Error) :
    Fetcher Context Error :=
  fun input init => .call .getContext fun context =>
    (context.bind platform.inject).elim (delegate input init) fun carrier =>
      delegate input (some (withCarrier carrier init))

/-! ### Rate limits -/

section RateLimits

variable (N : Type) [JsNumber N]

/-- The `model` in a JSON text. -/
def modelFromText (text : List Char) : Option JsUnits :=
  match Json.parse (N := N) text with
  | some (.object members) => (Json.getString members (unitsOfString "model")).filter (· ≠ [])
  | _ => none

def modelFromBody : Option BodyInit → Option JsUnits
  | some (.text s) => modelFromText N s.toList
  | _ => none

/-- `await request.text()` -/
def textOf (bytes : List UInt8) : List Char :=
  let (decoder, text) := TextDecoder.initial.decode bytes
  text ++ decoder.finish

/-- The clone of a request that its text is read from. -/
def readNumber : ℕ := 0

def modelFromRequest (input : Input) (init : Option Init) :
    Program Op (Ans Context Error) Error (Option JsUnits) :=
  match modelFromBody N (init.bind Init.body) with
  | some model => .done (some model)
  | none =>
      match (input.clone readNumber).request?.bind Request.body with
      | none => .done none
      | some body => .call (.read body) fun (worked : Bool) =>
          .done (if worked then modelFromText N (textOf body.content) else none)

/-- The bucket of a provider, or of one of its models. -/
def bucketKey (providerId : String) : Option JsUnits → JsUnits
  | none => unitsOfString providerId
  | some model => unitsOfString providerId ++ 0 :: model

variable (platform : FetchPlatform Context)

/-- What becomes of a response. -/
inductive Verdict where
  /-- The caller gets it, and the cooldown may be set before. -/
  | surface (cooldown : Option (ℚ × ℚ))
  /-- There is another attempt under the policy of a tier. -/
  | retry (tier : RateLimitTier) (snapshot : RateLimitSnapshot)

def Verdict.proceed {α : Sort*} (verdict : Verdict) (surface : Option (ℚ × ℚ) → α)
    (retry : RateLimitTier → RateLimitSnapshot → α) : α :=
  match verdict with
  | .surface cooldown => surface cooldown
  | .retry tier snapshot => retry tier snapshot

def readSnapshot (limiter : RateLimiter) (response : Response) (nowMs : ℚ) : RateLimitSnapshot :=
  parseRateLimit platform.parseDate response.headers limiter.opts.headerPrefix nowMs

/-- The cooldown of an exhausted window, which is for the next callers to wait out. -/
def exhaustedCooldown (tier : RateLimitTier) (snapshot : RateLimitSnapshot) : Option (ℚ × ℚ) :=
  match snapshot.remaining, snapshot.resetAtMs with
  | some remaining, some resetAtMs =>
      if 0 < remaining then none
      else if tier.action = .wait then some (resetAtMs, tier.maxWaitMs)
      else some (0, 0)
  | _, _ => none

def verdict (limiter : RateLimiter) (attempt : ℕ) (response : Response) (nowMs : ℚ) : Verdict :=
  let snapshot := readSnapshot platform limiter response nowMs
  let tier := limiter.opts.tierOf snapshot
  if response.status ≠ 429 then .surface (exhaustedCooldown tier snapshot)
  else if tier.action = .error then .surface (some (0, 0))
  else if tier.maxRetries ≤ attempt then .surface none
  else .retry tier snapshot

/-- There is another attempt where a wait tier allows for one. -/
theorem verdict_eq_retry_iff {limiter : RateLimiter} {attempt : ℕ} {response : Response}
    {nowMs : ℚ} {tier : RateLimitTier} {snapshot : RateLimitSnapshot} :
  verdict platform limiter attempt response nowMs = .retry tier snapshot ↔
    (response.status = 429 ∧ tier.action = .wait ∧ attempt < tier.maxRetries) ∧
      snapshot = readSnapshot platform limiter response nowMs ∧
      tier = limiter.opts.tierOf snapshot
  := by
  simp only [verdict]
  split_ifs with hstatus haction hleft
  · grind
  · grind
  · grind
  · constructor
    · rintro ⟨⟩
      exact ⟨⟨not_not.mp hstatus, eq_wait haction, not_le.mp hleft⟩, rfl, rfl⟩
    · rintro ⟨-, rfl, rfl⟩
      rfl

/-- Each attempt leaves fewer of them. -/
theorem verdict_left {limiter : RateLimiter} {attempt : ℕ} {response : Response} {nowMs : ℚ}
    {tier : RateLimitTier} {snapshot : RateLimitSnapshot}
    (h : verdict platform limiter attempt response nowMs = .retry tier snapshot) :
  limiter.opts.mostRetries - (attempt + 1) < limiter.opts.mostRetries - attempt
  := by
  obtain ⟨⟨-, -, hlt⟩, -, rfl⟩ := (verdict_eq_retry_iff platform).mp h
  have hle := limiter.opts.maxRetries_le (limiter.opts.tierOf_mem snapshot)
  apply Nat.sub_succ_lt_self
  apply Nat.lt_of_lt_of_le hlt hle

section Attempts

variable (limiter : RateLimiter) (bucket : JsUnits)

/-- The caller gets a response, after the cooldown has been set. -/
def surface (response : Response) :
    Option (ℚ × ℚ) → Program Op (Ans Context Error) Error Response
  | none => .done response
  | some (untilMs, maxWaitMs) =>
      .call (.cooldown limiter bucket untilMs maxWaitMs) fun _ => .done response

/-- The wait before another attempt. -/
def retryAfter (tier : RateLimitTier) (snapshot : RateLimitSnapshot)
    (again : Program Op (Ans Context Error) Error Response) :
    Program Op (Ans Context Error) Error Response :=
  .call .now fun (nowMs : ℚ) =>
  let waitMs := clampWait (computeBackoff snapshot nowMs) tier.maxWaitMs
  .call .now fun (nowMs : ℚ) =>
  .call (.cooldown limiter bucket (nowMs + waitMs) tier.maxWaitMs) fun _ =>
  .call (.backoff limiter bucket tier.maxWaitMs) fun waited =>
  (Program.settle waited).bind fun _ => again

variable (delegate : Fetcher Context Error) (input : Input) (init : Option Init)

/-- The attempts of a call, from one on. Each sends a clone of its own. -/
def attempts (attempt : ℕ) : Program Op (Ans Context Error) Error Response :=
  (delegate (input.clone (attempt + 1)) init).bind fun response =>
  .call .now fun nowMs =>
  match _h : verdict platform limiter attempt response nowMs with
  | .surface cooldown => surface limiter bucket response cooldown
  | .retry tier snapshot => retryAfter limiter bucket tier snapshot (attempts (attempt + 1))
termination_by limiter.opts.mostRetries - attempt
decreasing_by apply verdict_left platform _h

theorem attempts_eq (attempt : ℕ) :
  attempts platform limiter bucket delegate input init attempt =
    (delegate (input.clone (attempt + 1)) init).bind fun response => .call .now fun nowMs =>
      (verdict platform limiter attempt response nowMs).proceed
        (surface limiter bucket response) fun tier snapshot =>
          retryAfter limiter bucket tier snapshot
            (attempts platform limiter bucket delegate input init (attempt + 1))
  := by
  rw [attempts]
  congr 1
  funext response
  congr 1
  funext nowMs
  split
  · next h => rw [h, Verdict.proceed]
  · next h => rw [h, Verdict.proceed]

end Attempts

def rateLimit (limiter : RateLimiter) (delegate : Fetcher Context Error) :
    Fetcher Context Error :=
  fun input init =>
  (if limiter.opts.scope = .model then modelFromRequest N input init else .done none).bind
    fun model =>
  let bucket := bucketKey limiter.providerId model
  .call (.throttle limiter bucket) fun waited =>
  (Program.settle waited).bind fun _ =>
    attempts platform limiter bucket delegate input init 0

end RateLimits

/-! ### Repairs -/

section Repairs

variable (N : Type) [JsNumber N]

/-- The chunk that a stream enqueues. -/
def enqueued (bytes : List UInt8) : List (List UInt8) := if bytes = [] then [] else [bytes]

/-- The chunks that a repair stream enqueues for some chunks. -/
def repairChunks (s : RepairStream) : List (List UInt8) → List (List UInt8)
  | [] => enqueued (s.flush N)
  | chunk :: chunks =>
      enqueued (s.transform N chunk).1 ++ repairChunks (s.transform N chunk).2 chunks

theorem flatten_enqueued (bytes : List UInt8) :
  (enqueued bytes).flatten = bytes
  := by
  unfold enqueued
  split
  · next h => rw [h, List.flatten_nil]
  · apply List.flatten_singleton

/-- The chunks make up what the stream writes. -/
theorem flatten_repairChunks (s : RepairStream) (chunks : List (List UInt8)) :
  (repairChunks N s chunks).flatten = s.run N chunks
  := by
  induction chunks generalizing s with
  | nil => apply flatten_enqueued
  | cons chunk chunks ih =>
      rw [repairChunks, List.flatten_append, flatten_enqueued, ih]
      rfl

/-- `body.pipeThrough(makeResponsesRepairStream())` -/
def repairBody (chunks : List (List UInt8)) : List (List UInt8) := repairChunks N .initial chunks

/-- Whether a response is an event stream that answers a call to the Responses API. -/
def isRepairable (url : String) (response : Response) : Bool :=
  "/responses".toList <:+: url.toList &&
    "text/event-stream".toList <:+: toLowerCase ((response.headers "content-type").getD "").toList

def repairResponse (url : String) (response : Response) : Response :=
  if isRepairable url response then
    { response with body := response.body.map (repairBody N) }
  else response

def responsesRepair (delegate : Fetcher Context Error) : Fetcher Context Error :=
  fun input init =>
  (delegate input init).bind fun response => .done (repairResponse N input.urlOf response)

end Repairs

/-! ### Stacks -/

inductive Wrapper where
  | tracePropagation
  | rateLimit (limiter : RateLimiter)
  | responsesRepair

variable (N : Type) [JsNumber N] (platform : FetchPlatform Context)

def Wrapper.wrap : Wrapper → Fetcher Context Error → Fetcher Context Error
  | .tracePropagation => Fetch.tracePropagation platform
  | .rateLimit limiter => Fetch.rateLimit N platform limiter
  | .responsesRepair => Fetch.responsesRepair N

/-- The base fetch in its wrappers, the outermost one first. -/
def stacked (stack : List Wrapper) : Fetcher Context Error :=
  stack.foldr (Wrapper.wrap N platform) base

end Fetch
