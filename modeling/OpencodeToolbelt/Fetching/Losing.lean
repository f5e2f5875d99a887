import OpencodeToolbelt.Fetching.Stacking

/-!
# What stacks of wrappers lose

Calls whose requests do not reach the base fetch as they are: the headers of a `Request` may give
way to those of a trace context, and a stream may be sent again after it has been read.
-/

open RateLimit ResponsesRepair

namespace Fetch

variable {Context Error : Type} (N : Type) [JsNumber N] (platform : FetchPlatform Context)

/-! ### Reaching the base fetch -/

/-- A program may go on to call a fetch with the headers of an input and an `init`. -/
def Reaches (delegate : Fetcher Context Error) (headers : Headers) (init : Option Init)
    (p : Program Op (Ans Context Error) Error Response) : Prop :=
  ∃ τ input f, p.Performs τ ((delegate input init).bind f) ∧ input.headers = headers

/-- A program may return a response of the same status and headers. -/
def Returns (response : Response) (p : Program Op (Ans Context Error) Error Response) : Prop :=
  ∃ τ response', p.Performs τ (.done response') ∧ response'.status = response.status ∧
    response'.headers = response.headers

theorem Reaches.call {delegate : Fetcher Context Error} {headers : Headers}
    {init : Option Init} {o : Op} {k : Ans Context Error o → _} (a : Ans Context Error o)
    (h : Reaches delegate headers init (k a)) :
  Reaches delegate headers init (.call o k)
  := by
  obtain ⟨τ, input, f, hτ, hheaders⟩ := h
  exact ⟨_, input, f, .call hτ, hheaders⟩

theorem Returns.call {response : Response} {o : Op} {k : Ans Context Error o → _}
    (a : Ans Context Error o) (h : Returns response (k a)) :
  Returns response (.call o k)
  := by
  obtain ⟨τ, response', hτ, hsame⟩ := h
  exact ⟨_, response', .call hτ, hsame⟩

theorem modelFromRequest_performs (input : Input) (init : Option Init) :
  ∃ τ model, (modelFromRequest N input init : Program Op (Ans Context Error) Error _).Performs τ
    (.done model)
  := by
  unfold modelFromRequest
  cases modelFromBody N (init.bind Init.body) with
  | some model => exact ⟨[], _, .refl _⟩
  | none =>
      cases (input.clone readNumber).request?.bind Request.body with
      | none => exact ⟨[], _, .refl _⟩
      | some body => exact ⟨[⟨.read body, false⟩], _, .call (.refl _)⟩

theorem surface_returns (limiter : RateLimiter) (bucket : JsUnits) (response : Response)
    (cooldown : Option (ℚ × ℚ)) :
  Returns response
    (surface limiter bucket response cooldown : Program Op (Ans Context Error) Error _)
  := by
  cases cooldown with
  | none => exact ⟨[], response, .refl _, rfl, rfl⟩
  | some cooldown =>
      exact ⟨[⟨.cooldown limiter bucket _ _, ()⟩], response, .call (.refl _), rfl, rfl⟩

theorem retryAfter_performs (limiter : RateLimiter) (bucket : JsUnits) (tier : RateLimitTier)
    (snapshot : RateLimitSnapshot) (again : Program Op (Ans Context Error) Error Response) :
  ∃ τ, (retryAfter limiter bucket tier snapshot again).Performs τ again
  := by
  have hwaited : ((Program.settle (.ok () : Except Error Unit)).bind fun _ => again).Performs
      ([] : Trace Op (Ans Context Error)) again := .refl again
  exact ⟨_, .call (a := (0 : ℚ)) (.call (a := (0 : ℚ)) (.call (a := ()) (.call hwaited)))⟩

theorem attempts_reaches (limiter : RateLimiter) (bucket : JsUnits)
    (delegate : Fetcher Context Error) (input : Input) (init : Option Init) (attempt : ℕ) :
  Reaches delegate input.headers init
    (attempts platform limiter bucket delegate input init attempt)
  := by
  rw [attempts_eq]
  exact ⟨[], _, _, .refl _, Input.headers_clone ..⟩

/-- A limiter that makes another attempt passes the call on again. -/
theorem retryAfter_reaches (limiter : RateLimiter) (bucket : JsUnits)
    (delegate : Fetcher Context Error) (input : Input) (init : Option Init) (attempt : ℕ)
    (tier : RateLimitTier) (snapshot : RateLimitSnapshot) :
  Reaches delegate input.headers init
    (retryAfter limiter bucket tier snapshot
      (attempts platform limiter bucket delegate input init attempt))
  := by
  obtain ⟨τ, hτ⟩ := retryAfter_performs limiter bucket tier snapshot
    (attempts platform limiter bucket delegate input init attempt)
  obtain ⟨τ', input', f, hτ', hheaders⟩ := attempts_reaches platform limiter
    bucket delegate input init attempt
  exact ⟨τ ++ τ', input', f, hτ.trans hτ', hheaders⟩

/-- A response for which a limiter makes another attempt. -/
def RetriedBy (limiter : RateLimiter) (response : Response) : Prop :=
  ∃ nowMs tier snapshot, verdict platform limiter 0 response nowMs = .retry tier snapshot

variable {platform} in
theorem exists_retriedBy {limiter : RateLimiter} (h : ¬ limiter.NeverRetries platform) :
  ∃ response, RetriedBy platform limiter response
  := by
  simp only [RateLimiter.NeverRetries, not_forall, not_or] at h
  obtain ⟨headers, nowMs, haction, hretries⟩ := h
  let snapshot := parseRateLimit platform.parseDate headers limiter.opts.headerPrefix nowMs
  use ⟨429, "Too Many Requests", headers, none⟩, nowMs, limiter.opts.tierOf snapshot, snapshot
  apply (verdict_eq_retry_iff platform).mpr
  exact ⟨⟨rfl, eq_wait haction, Nat.pos_of_ne_zero hretries⟩, rfl, rfl⟩

/-- Only the status and the headers count. -/
theorem RetriedBy.of_same {limiter : RateLimiter} {response response' : Response}
    (h : RetriedBy platform limiter response) (hstatus : response'.status = response.status)
    (hheaders : response'.headers = response.headers) :
  RetriedBy platform limiter response'
  := by
  obtain ⟨nowMs, tier, snapshot, hverdict⟩ := h
  use nowMs, tier, snapshot
  rw [verdict_eq_retry_iff, readSnapshot] at hverdict ⊢
  rw [hstatus, hheaders]
  apply hverdict

/-- A limiter passes a call on, and passes it on again where it makes another attempt. -/
theorem rateLimit_reaches (limiter : RateLimiter) (delegate : Fetcher Context Error)
    (input : Input) (init : Option Init) :
  ∃ τ g, (rateLimit N platform limiter delegate input init).Performs τ
      ((delegate (input.clone 1) init).bind g) ∧
    (∀ response, Returns response (g response) ∨ Reaches delegate input.headers init (g response)) ∧
    ∀ response, RetriedBy platform limiter response →
      Reaches delegate input.headers init (g response)
  := by
  have hmodel : ∃ τ model, (if limiter.opts.scope = .model then modelFromRequest N input init
      else .done none : Program Op (Ans Context Error) Error _).Performs τ (.done model) := by
    split
    · apply modelFromRequest_performs
    · exact ⟨[], none, .refl _⟩
  obtain ⟨τ, model, hτ⟩ := hmodel
  let bucket := bucketKey limiter.providerId model
  refine ⟨τ ++ [⟨.throttle limiter bucket, .ok ()⟩], fun response => .call .now fun nowMs =>
    (verdict platform limiter 0 response nowMs).proceed (surface limiter bucket response)
      fun tier snapshot => retryAfter limiter bucket tier snapshot
        (attempts platform limiter bucket delegate input init 1), ?_, ?_, ?_⟩
  · apply (hτ.bind _).trans
    apply Program.Performs.call
    have heq := attempts_eq platform limiter bucket delegate input init 0
    rw [Nat.zero_add] at heq
    rw [← heq]
    apply Program.Performs.refl
  · intro response
    cases hverdict : verdict platform limiter 0 response 0 with
    | surface cooldown =>
        left
        apply Returns.call (o := .now) (0 : ℚ)
        rw [hverdict]
        apply surface_returns
    | retry tier snapshot =>
        right
        apply Reaches.call (o := .now) (0 : ℚ)
        rw [hverdict]
        apply retryAfter_reaches
  · rintro response ⟨nowMs, tier, snapshot, hverdict⟩
    apply Reaches.call (o := .now) nowMs
    rw [hverdict]
    apply retryAfter_reaches

/-- A wrapper may pass a call on, and then a response, unless it passes the call on again. -/
theorem wrap_reaches (wrapper : Wrapper) (delegate : Fetcher Context Error) (input : Input)
    (init : Option Init) :
  ∃ τ input' f,
    (wrapper.wrap N platform delegate input init).Performs τ ((delegate input' init).bind f) ∧
    input'.headers = input.headers ∧
    ∀ response, Returns response (f response) ∨
      Reaches delegate input.headers init (f response)
  := by
  cases wrapper with
  | tracePropagation =>
      use [⟨.getContext, none⟩], input, .done
      rw [Program.bind_done]
      refine ⟨.call (.refl _), rfl, ?_⟩
      intro response
      exact Or.inl ⟨[], response, .refl _, rfl, rfl⟩
  | responsesRepair =>
      use [], input, fun response => .done (repairResponse N input.urlOf response)
      refine ⟨.refl _, rfl, ?_⟩
      intro response
      refine Or.inl ⟨[], _, .refl _, ?_⟩
      unfold repairResponse
      split <;> exact ⟨rfl, rfl⟩
  | rateLimit limiter =>
      obtain ⟨τ, g, hτ, hg, -⟩ := rateLimit_reaches N platform limiter delegate input init
      exact ⟨τ, _, g, hτ, Input.headers_clone .., hg⟩

/-! ### Reaching through a stack -/

theorem Reaches.bind {delegate : Fetcher Context Error} {headers : Headers} {init : Option Init}
    {p : Program Op (Ans Context Error) Error Response} (h : Reaches delegate headers init p)
    (f : Response → Program Op (Ans Context Error) Error Response) :
  Reaches delegate headers init (p.bind f)
  := by
  obtain ⟨τ, input, g, hτ, hheaders⟩ := h
  refine ⟨τ, input, fun response => (g response).bind f, ?_, hheaders⟩
  rw [← Program.bind_assoc]
  apply hτ.bind f

theorem Reaches.of_performs {delegate : Fetcher Context Error} {headers : Headers}
    {init : Option Init} {p q : Program Op (Ans Context Error) Error Response}
    {τ : Trace Op (Ans Context Error)} (hτ : p.Performs τ q) (h : Reaches delegate headers init q) :
  Reaches delegate headers init p
  := by
  obtain ⟨τ', input, f, hτ', hheaders⟩ := h
  exact ⟨τ ++ τ', input, f, hτ.trans hτ', hheaders⟩

/-- What a fetch reaches is reached by all that reaches the fetch. -/
theorem Reaches.trans {delegate delegate' : Fetcher Context Error} {headers : Headers}
    {init init' : Option Init} {p : Program Op (Ans Context Error) Error Response}
    (h : Reaches delegate headers init p)
    (h' : ∀ input, Reaches delegate' input.headers init' (delegate input init)) :
  Reaches delegate' headers init' p
  := by
  obtain ⟨τ, input, f, hτ, rfl⟩ := h
  apply Reaches.of_performs hτ
  apply (h' input).bind

theorem stacked_reaches (stack : List Wrapper) (input : Input) (init : Option Init) :
  Reaches base input.headers init
    (stacked N platform stack input init : Program Op (Ans Context Error) Error Response)
  := by
  induction stack generalizing input with
  | nil => exact ⟨[], input, .done, by rw [Program.bind_done]; apply Program.Performs.refl, rfl⟩
  | cons wrapper stack ih =>
      obtain ⟨τ, input', f, hτ, hheaders, -⟩ :=
        wrap_reaches N platform wrapper (stacked N platform stack) input init
      apply Reaches.of_performs hτ
      rw [← hheaders]
      apply (ih input').bind

/-- A response of the base fetch may be passed on, unless the base fetch is called again. -/
theorem stacked_answers (stack : List Wrapper) (input : Input) (init : Option Init) :
  ∃ τ input' f,
    (stacked N platform stack input init).Performs τ
      ((base input' init).bind f : Program Op (Ans Context Error) Error Response) ∧
    ∀ response, Returns response (f response) ∨ Reaches base input.headers init (f response)
  := by
  induction stack generalizing input with
  | nil =>
      refine ⟨[], input, .done, ?_, ?_⟩
      · rw [Program.bind_done]
        apply Program.Performs.refl
      · intro response
        exact Or.inl ⟨[], response, .refl _, rfl, rfl⟩
  | cons wrapper stack ih =>
      obtain ⟨τ, input₁, g, hτ, hheaders, hg⟩ :=
        wrap_reaches N platform wrapper (stacked N platform stack) input init
      obtain ⟨τ', input₂, f, hτ', hf⟩ := ih input₁
      refine ⟨τ ++ τ', input₂, fun response => (f response).bind g, ?_, ?_⟩
      · rw [← Program.bind_assoc]
        apply hτ.trans (hτ'.bind g)
      · intro response
        rcases hf response with ⟨τ'', response', hτ'', hstatus, hsame⟩ | hagain
        · rcases hg response' with ⟨τ₃, response₃, hτ₃, hstatus₃, hsame₃⟩ | hagain
          · left
            exact ⟨_, response₃, (hτ''.bind g).trans hτ₃, hstatus₃.trans hstatus,
              hsame₃.trans hsame⟩
          · right
            apply Reaches.of_performs (hτ''.bind g)
            apply hagain.trans
            intro input
            apply stacked_reaches
        · right
          rw [← hheaders]
          apply hagain.bind

variable (Error) in
/-- With a limiter that makes other attempts, the base fetch may be called again. -/
theorem stacked_resends {stack : List Wrapper} {limiter : RateLimiter}
    (hmem : .rateLimit limiter ∈ stack) {response : Response}
    (hretried : RetriedBy platform limiter response) (input : Input) (init : Option Init) :
  ∃ τ input' f,
    (stacked N platform stack input init).Performs τ
      ((base input' init).bind f : Program Op (Ans Context Error) Error Response) ∧
    Reaches base input.headers init (f response)
  := by
  induction stack generalizing input with
  | nil => cases hmem
  | cons wrapper stack ih =>
      rcases List.mem_cons.mp hmem with rfl | hmem
      · obtain ⟨τ, g, hτ, -, hg⟩ := rateLimit_reaches N platform limiter
          (stacked N platform stack : Fetcher Context Error) input init
        obtain ⟨τ', input', f, hτ', hf⟩ := stacked_answers N platform stack (input.clone 1) init
        refine ⟨τ ++ τ', input', fun response => (f response).bind g, ?_, ?_⟩
        · rw [← Program.bind_assoc]
          apply hτ.trans (hτ'.bind g)
        · rcases hf response with ⟨τ'', response', hτ'', hstatus, hsame⟩ | hagain
          · apply Reaches.of_performs (hτ''.bind g)
            apply (hg response' (hretried.of_same platform hstatus hsame)).trans
            intro input
            apply stacked_reaches
          · rw [Input.headers_clone] at hagain
            apply hagain.bind
      · obtain ⟨τ, input₁, g, hτ, hheaders, -⟩ :=
          wrap_reaches N platform wrapper (stacked N platform stack) input init
        obtain ⟨τ', input₂, f, hτ', hf⟩ := ih hmem input₁
        refine ⟨τ ++ τ', input₂, fun response => (f response).bind g, ?_, ?_⟩
        · rw [← Program.bind_assoc]
          apply hτ.trans (hτ'.bind g)
        · rw [← hheaders]
          apply hf.bind

variable (Error) in
/-- With a wrapper that adds a trace context, the base fetch may be called with one. -/
theorem stacked_carries {stack : List Wrapper} (hmem : .tracePropagation ∈ stack)
    {context : Context} {carrier : Carrier} (hcontext : platform.inject context = some carrier)
    (input : Input) (init : Option Init) :
  Reaches base input.headers (some (withCarrier carrier init))
    (stacked N platform stack input init : Program Op (Ans Context Error) Error Response)
  := by
  induction stack generalizing input with
  | nil => cases hmem
  | cons wrapper stack ih =>
      rcases List.mem_cons.mp hmem with rfl | hmem
      · apply Reaches.call (o := .getContext) (some context)
        rw [Option.bind_some, hcontext]
        apply stacked_reaches
      · obtain ⟨τ, input', f, hτ, hheaders, -⟩ :=
          wrap_reaches N platform wrapper (stacked N platform stack) input init
        apply Reaches.of_performs hτ
        rw [← hheaders]
        apply (ih hmem input').bind

/-! ### Calls that are passed on -/

variable (Error) in
/-- Every request of a call is that of the caller, and so is the response, whatever happens. -/
def PassesOn (stack : List Wrapper) (input : Input) (init : Option Init) : Prop :=
  ∀ τ q, (stacked N platform stack input init : Program Op (Ans Context Error) Error _).Performs
    τ q → Log.Faithful N stack input init (Program.follow Log.record .initial τ) q

variable {N platform}

theorem passesOn_of_keeps {stack : List Wrapper} {input : Input} {init : Option Init}
    (hheaders : KeepsHeaders platform stack input init) (hbody : KeepsBody platform stack init) :
  PassesOn Error N platform stack input init
  := by
  have hgood : Log.Good (outgoing input (init.getD .empty)) (Log.initial : Log Error) := by
    rintro attempt ⟨⟩
  have hready : (Log.initial : Log Error).Ready input init := by
    constructor
    · rintro _ _ ⟨⟩
    · rintro _ _ _ ⟨⟩
  have hserves := stacked_faithful (N := N) stack _ input init Log.initial (.refl _) hgood hheaders
    hbody hready
  intro τ q hτ
  constructor
  · apply hserves.follow hgood hτ
  · intro r hr
    apply ((hserves.performs hτ).result hr).1

/-- The log after a call of the base fetch that comes after a trace. -/
theorem follow_send (log : Log Error) (τ : Trace Op (Ans Context Error)) (input : Input)
    (init : Option Init) (answer : Except Error Response) :
  Program.follow Log.record log (τ ++ [⟨.send input init, answer⟩]) =
    @Log.record Context Error (Program.follow Log.record log τ) (.send input init) answer
  := by
  unfold Program.follow
  rw [List.foldl_append]
  rfl

/-- The requests of a call, where a trace leads to a call of the base fetch. -/
theorem PassesOn.attempt {stack : List Wrapper} {input input' : Input} {init init' : Option Init}
    (h : PassesOn Error N platform stack input init) {τ : Trace Op (Ans Context Error)}
    {f : Response → Program Op (Ans Context Error) Error Response}
    (hτ : (stacked N platform stack input init).Performs τ ((base input' init').bind f)) :
  (outgoing input (init.getD .empty)).Matches (outgoing input' (init'.getD .empty)) ∧
    ∀ source ∈ (outgoing input' (init'.getD .empty)).source,
      source ∉ (Program.follow Log.record Log.initial τ).used
  := by
  let answer : Except Error Response := .ok ⟨200, "OK", .empty, none⟩
  have hsend : ((base input' init').bind f).Performs [⟨.send input' init', answer⟩]
      ((Program.settle answer).bind f) := .call (.refl _)
  have hlog := h _ _ (hτ.trans hsend)
  rw [follow_send] at hlog
  obtain ⟨hmatches, hunread⟩ :=
    hlog.requests _ (List.mem_append_right _ (List.mem_singleton_self _))
  use hmatches
  intro source hsource
  apply of_decide_eq_true (Option.all_eq_true _ _ |>.mp hunread source hsource)

theorem mem_used_record (log : Log Error) {source : Source} (h : source ∈ log.used) (o : Op)
    (answer : Ans Context Error o) :
  source ∈ (log.record o answer).used
  := by
  cases o with
  | read body => apply List.mem_cons_of_mem _ h
  | throttle limiter bucket => cases answer <;> apply h
  | backoff limiter bucket maxWaitMs => cases answer <;> apply h
  | send input init => apply List.mem_append_right _ h
  | getContext => apply h
  | now => apply h
  | cooldown limiter bucket untilMs maxWaitMs => apply h

/-- What has been read stays read. -/
theorem mem_used_follow (log : Log Error) {source : Source} (h : source ∈ log.used)
    (τ : Trace Op (Ans Context Error)) :
  source ∈ (Program.follow Log.record log τ).used
  := by
  induction τ generalizing log with
  | nil => apply h
  | cons e τ ih => apply ih _ (mem_used_record log h e.1 e.2)

/-- The headers of a `Request` that a trace context is added to come back. -/
theorem PassesOn.keepsHeaders {stack : List Wrapper} {input : Input} {init : Option Init}
    (h : PassesOn Error N platform stack input init) :
  KeepsHeaders platform stack input init
  := by
  intro hmem hnone context carrier hinject name value hname
  obtain ⟨τ, input', f, hτ, -⟩ := stacked_carries Error N platform hmem hinject input init
  have hsome : (outgoing input (init.getD .empty)).headers name = some value := by
    rw [outgoing_headers, withType_apply, hnone, Option.getD_none, hname, Option.some_or]
  have hsent := (h.attempt hτ).1.headers.of_some hsome
  have hheaders : (outgoing input' (withCarrier carrier init)).headers =
      withType (init.getD .empty).body (addCarrier carrier .empty) := by
    rw [outgoing, withCarrier, hnone]
    rfl
  rw [Option.getD_some, hheaders, withType_apply, Option.or_eq_some_iff] at hsent
  rcases hsent with hcarrier | ⟨-, htype⟩
  · apply Or.inl hcarrier
  · right
    split at htype
    · next hcontent => exact ⟨hcontent, htype⟩
    · cases htype

/-- A stream is not sent again. -/
theorem PassesOn.keepsBody {stack : List Wrapper} {input : Input} {init : Option Init}
    (h : PassesOn Error N platform stack input init) :
  KeepsBody platform stack init
  := by
  intro content hcontent limiter hmem
  by_contra hnever
  obtain ⟨response, hretried⟩ := exists_retriedBy hnever
  obtain ⟨τ, input', f, hτ, τ', input'', g, hτ', -⟩ :=
    stacked_resends Error N platform hmem hretried input init
  have hsend : ((base input' init).bind f).Performs [⟨.send input' init, .ok response⟩]
      (f response) := .call (.refl _)
  have hsource : ∀ input : Input, .init ∈ (outgoing input (init.getD .empty)).source := by
    intro input
    rw [outgoing_source, hcontent]
    rfl
  apply (h.attempt ((hτ.trans hsend).trans hτ')).2 .init (hsource input'')
  rw [Program.follow, List.foldl_append, ← Program.follow, ← Program.follow, follow_send]
  apply mem_used_follow
  apply List.mem_append_left _ (Option.mem_toList.mpr (hsource input'))

/-- A platform with one context. -/
def tracedPlatform : FetchPlatform Unit where
  inject _ := some ⟨"00-0af7651916cd43dd8448eb211c80319c-b7ad6b7169203331-01", none⟩
  parseDate _ := none

/-- A `Request` with an `Authorization` header. -/
def authorizedRequest : Request where
  url := "https://api.example.com/v1/responses"
  method := "POST"
  headers := Headers.empty.set "authorization" "Bearer token"
  body := none

end Fetch
