import OpencodeToolbelt.Async.Traces
import OpencodeToolbelt.Fetching.Wrappers
import OpencodeToolbelt.RateLimit.Config

/-!
# The attempts of a rate limited call

How often a rate limiter calls the fetch below it, which responses it answers with another
attempt, and which one its caller gets.
-/

open RateLimit

namespace RateLimit.RateLimitOptions

/-- No tier that waits allows for more retries. -/
def mostWaitRetries (opts : RateLimitOptions) : ℕ :=
  ((opts.tiers.filter fun tier => tier.action = .wait).map RateLimitTier.maxRetries).foldr max 0

theorem le_mostWaitRetries {opts : RateLimitOptions} {tier : RateLimitTier}
    (hmem : tier ∈ opts.tiers) (hwait : tier.action = .wait) :
  tier.maxRetries ≤ opts.mostWaitRetries
  := by
  have hfilter : tier ∈ opts.tiers.filter fun tier => tier.action = .wait := by
    rw [List.mem_filter, decide_eq_true_eq]
    exact ⟨hmem, hwait⟩
  unfold mostWaitRetries
  apply le_foldr_max (List.mem_map_of_mem hfilter)

end RateLimit.RateLimitOptions

namespace Fetch

variable {Context Error : Type}

/-! ### What has been tried -/

/-- A call of the fetch below, with the time at which its response has been looked at. -/
structure Try (Error : Type) where
  answer : Except Error Response
  lookedAt : Option ℚ

/-- What has happened during a call. -/
structure Tries (Error : Type) where
  tries : List (Try Error)
  /-- The bucket at whose gate the call has waited. -/
  bucket : Option JsUnits
  /-- The cooldown that has been set since the last response. -/
  cooldown : Option (JsUnits × ℚ × ℚ)

namespace Tries

def initial : Tries Error := ⟨[], none, none⟩

/-- The last response is looked at, unless it has been before. -/
def look (nowMs : ℚ) (tries : List (Try Error)) : List (Try Error) :=
  match tries.getLast? with
  | some ⟨answer, none⟩ => tries.dropLast ++ [⟨answer, some nowMs⟩]
  | _ => tries

def record (log : Tries Error) : (o : Op) → Ans Context Error o → Tries Error
  | .throttle _ bucket, _ => { log with bucket := some bucket }
  | .send _ _, answer => { log with tries := log.tries ++ [⟨answer, none⟩], cooldown := none }
  | .now, nowMs => { log with tries := look nowMs log.tries }
  | .cooldown _ bucket untilMs maxWaitMs, _ =>
      { log with cooldown := some (bucket, untilMs, maxWaitMs) }
  | _, _ => log

end Tries

variable (platform : FetchPlatform Context)

/-- The tier that a response falls under at a time. -/
def tierAt (limiter : RateLimiter) (response : Response) (nowMs : ℚ) : RateLimitTier :=
  limiter.opts.tierOf (readSnapshot platform limiter response nowMs)

/-- A tier that waits has had a retry left after a number of attempts. -/
def Retried (limiter : RateLimiter) (attempt : ℕ) : Try Error → Prop
  | ⟨.ok response, some nowMs⟩ =>
      response.status = 429 ∧ (tierAt platform limiter response nowMs).action = .wait ∧
        attempt < (tierAt platform limiter response nowMs).maxRetries
  | _ => False

/-- What is left of a call is to return a response, with the cooldown of its bucket cleared. -/
def ReturnsCleared (limiter : RateLimiter) (response : Response) (log : Tries Error)
    (q : Program Op (Ans Context Error) Error Response) : Prop :=
  ∃ bucket, log.bucket = some bucket ∧
    (q = .call (.cooldown limiter bucket 0 0) (fun _ => .done response) ∨
      (q = .done response ∧ log.cooldown = some (bucket, 0, 0)))

/-- A call keeps to the policy of its rate limiter. -/
structure KeepsPolicy (limiter : RateLimiter)
    (q : Program Op (Ans Context Error) Error Response) (log : Tries Error) : Prop where
  count : log.tries.length ≤ 1 + limiter.opts.mostWaitRetries
  earlier : ∀ i (h : i + 1 < log.tries.length),
    Retried platform limiter i (log.tries.get ⟨i, Nat.lt_of_succ_lt h⟩)
  returned : ∀ response, q = .done response →
    log.tries.getLast?.map Try.answer = some (.ok response)
  failFast : ∀ response nowMs, log.tries.getLast? = some ⟨.ok response, some nowMs⟩ →
    response.status = 429 → (tierAt platform limiter response nowMs).action = .error →
    ReturnsCleared limiter response log q

/-! ### Keeping to the policy -/

/-- Each of some tries has led to another one. -/
def AllRetried (limiter : RateLimiter) (tries : List (Try Error)) : Prop :=
  ∀ i (h : i < tries.length), Retried platform limiter i (tries.get ⟨i, h⟩)

variable {platform} {limiter : RateLimiter} {log : Tries Error}
  {q : Program Op (Ans Context Error) Error Response}

theorem AllRetried.append {tries : List (Try Error)} (h : AllRetried platform limiter tries)
    {last : Try Error} (hlast : Retried platform limiter tries.length last) :
  AllRetried platform limiter (tries ++ [last])
  := by
  intro i hi
  rcases Nat.lt_or_ge i tries.length with hlt | hge
  · rw [List.get_eq_getElem, List.getElem_append_left hlt]
    apply h i hlt
  · have heq : i = tries.length := by
      rw [List.length_append, List.length_singleton] at hi
      omega
    subst heq
    rw [List.get_eq_getElem, List.getElem_concat_length rfl]
    apply hlast

theorem AllRetried.last {tries : List (Try Error)} {last : Try Error}
    (h : AllRetried platform limiter (tries ++ [last])) :
  Retried platform limiter tries.length last
  := by
  have hlt : tries.length < (tries ++ [last]).length := by
    rw [List.length_append, List.length_singleton]
    apply Nat.lt_succ_self
  have hretried := h tries.length hlt
  rw [List.get_eq_getElem, List.getElem_concat_length rfl] at hretried
  apply hretried

/-- The last try is another matter than those before it. -/
theorem KeepsPolicy.of_last {tries : List (Try Error)} {last : Try Error}
    (hlog : log.tries = tries ++ [last]) (htries : AllRetried platform limiter tries)
    (hlength : tries.length ≤ limiter.opts.mostWaitRetries)
    (hreturned : ∀ response, q = .done response → last.answer = .ok response)
    (hfailFast : ∀ response nowMs, last = ⟨.ok response, some nowMs⟩ → response.status = 429 →
      (tierAt platform limiter response nowMs).action = .error →
      ReturnsCleared limiter response log q) :
  KeepsPolicy platform limiter q log
  where
  count := by
    rw [hlog, List.length_append, List.length_singleton]
    omega
  earlier i hi := by
    have hlt : i < tries.length := by
      rw [hlog, List.length_append, List.length_singleton] at hi
      omega
    simp only [hlog, List.get_eq_getElem, List.getElem_append_left hlt]
    apply htries i hlt
  returned response hq := by
    rw [hlog, List.getLast?_concat, Option.map_some, hreturned response hq]
  failFast response nowMs hlast := by
    rw [hlog, List.getLast?_concat] at hlast
    apply hfailFast response nowMs (Option.some.inj hlast)

/-- While another try is on its way, each of them has led to another one. -/
theorem KeepsPolicy.of_allRetried (h : AllRetried platform limiter log.tries)
    (hlength : log.tries.length ≤ limiter.opts.mostWaitRetries)
    (hq : ∀ response, q ≠ .done response) :
  KeepsPolicy platform limiter q log
  where
  count := by omega
  earlier i hi := by apply h i
  returned response hdone := by cases hq response hdone
  failFast response nowMs hlast _ herror := by
    obtain ⟨tries, htries⟩ := List.getLast?_eq_some_iff.mp hlast
    rw [htries] at h
    have := herror.symm.trans h.last.2.1
    cases this

theorem Tries.look_concat (nowMs : ℚ) (tries : List (Try Error))
    (answer : Except Error Response) :
  Tries.look nowMs (tries ++ [⟨answer, none⟩]) = tries ++ [⟨answer, some nowMs⟩]
  := by
  rw [Tries.look, List.getLast?_concat]
  simp only [List.dropLast_concat]

theorem Tries.look_of_allRetried (nowMs : ℚ) {tries : List (Try Error)}
    (h : AllRetried platform limiter tries) :
  Tries.look nowMs tries = tries
  := by
  rcases List.eq_nil_or_concat' tries with rfl | ⟨tries, ⟨answer, lookedAt⟩, rfl⟩
  · rfl
  · cases lookedAt with
    | none =>
        cases answer with
        | ok response => cases h.last
        | error e => cases h.last
    | some time =>
        rw [Tries.look, List.getLast?_concat]

/-! ### The run of a call -/

/-- The wait for another attempt. -/
theorem retryAfter_throughout {bucket : JsUnits} {tier : RateLimitTier}
    {snapshot : RateLimitSnapshot} {again : Program Op (Ans Context Error) Error Response}
    (h : AllRetried platform limiter log.tries)
    (hlength : log.tries.length ≤ limiter.opts.mostWaitRetries)
    (hagain : ∀ log' : Tries Error, log'.tries = log.tries → log'.bucket = log.bucket →
      again.Throughout Tries.record (KeepsPolicy platform limiter) log') :
  (retryAfter limiter bucket tier snapshot again).Throughout Tries.record
    (KeepsPolicy platform limiter) log
  := by
  have hwaiting : ∀ (log' : Tries Error) (p : Program Op (Ans Context Error) Error Response),
      log'.tries = log.tries → (∀ response, p ≠ .done response) →
      KeepsPolicy platform limiter p log' := by
    intro log' p heq hp
    rw [← heq] at h hlength
    apply KeepsPolicy.of_allRetried h hlength hp
  have hlook := fun nowMs => Tries.look_of_allRetried nowMs h
  refine ⟨hwaiting _ _ rfl (by rintro _ ⟨⟩), fun nowMs => ?_⟩
  refine ⟨hwaiting _ _ (hlook nowMs) (by rintro _ ⟨⟩), fun nowMs' => ?_⟩
  have htries : Tries.look nowMs' (Tries.look nowMs log.tries) = log.tries := by
    rw [hlook nowMs, hlook nowMs']
  refine ⟨hwaiting _ _ htries (by rintro _ ⟨⟩), fun _ => ?_⟩
  refine ⟨hwaiting _ _ htries (by rintro _ ⟨⟩), fun waited => ?_⟩
  cases waited with
  | ok _ =>
      apply hagain
      · apply htries
      · rfl
  | error e => apply hwaiting _ _ htries (by rintro _ ⟨⟩)

/-- An error tier fails fast. -/
theorem verdict_of_error {attempt : ℕ} {response : Response} {nowMs : ℚ}
    (hstatus : response.status = 429)
    (herror : (tierAt platform limiter response nowMs).action = .error) :
  verdict platform limiter attempt response nowMs = .surface (some (0, 0))
  := by
  rw [tierAt] at herror
  simp only [verdict, hstatus, ne_eq, not_true_eq_false, if_false, herror, if_true]

theorem attempts_throughout (bucket : JsUnits) (input : Input) (init : Option Init)
    (attempt : ℕ) (h : AllRetried platform limiter log.tries) (hattempt : log.tries.length = attempt)
    (hlength : attempt ≤ limiter.opts.mostWaitRetries) (hbucket : log.bucket = some bucket) :
  (attempts platform limiter bucket base input init attempt).Throughout Tries.record
    (KeepsPolicy platform limiter) log
  := by
  induction hleft : limiter.opts.mostRetries - attempt using Nat.strong_induction_on
    generalizing attempt log with
  | _ left ih =>
  rw [attempts_eq]
  refine ⟨.of_allRetried h (hattempt ▸ hlength) (by rintro _ ⟨⟩), ?_⟩
  intro answer
  have hfirst : log.tries.length ≤ limiter.opts.mostWaitRetries := hattempt ▸ hlength
  cases answer with
  | error e =>
      apply KeepsPolicy.of_last rfl h hfirst
      · rintro _ ⟨⟩
      · rintro _ _ ⟨⟩
  | ok response =>
      refine ⟨KeepsPolicy.of_last rfl h hfirst (by rintro _ ⟨⟩) (by rintro _ _ ⟨⟩), fun nowMs => ?_⟩
      have hlook := Tries.look_concat nowMs log.tries (.ok response)
      dsimp only
      cases hverdict : verdict platform limiter attempt response nowMs with
      | surface cooldown =>
          have hcleared : response.status = 429 →
              (tierAt platform limiter response nowMs).action = .error → cooldown = some (0, 0) := by
            intro hstatus herror
            rw [verdict_of_error hstatus herror] at hverdict
            apply (Verdict.surface.inj hverdict).symm
          cases cooldown with
          | none =>
              apply KeepsPolicy.of_last hlook h hfirst
              · rintro _ ⟨⟩
                rfl
              · rintro _ _ ⟨⟩ hstatus herror
                cases hcleared hstatus herror
          | some cooldown =>
              constructor
              · apply KeepsPolicy.of_last hlook h hfirst
                · rintro _ ⟨⟩
                · rintro _ _ ⟨⟩ hstatus herror
                  obtain rfl := Option.some.inj (hcleared hstatus herror)
                  exact ⟨bucket, hbucket, Or.inl rfl⟩
              · intro _
                apply KeepsPolicy.of_last hlook h hfirst
                · rintro _ ⟨⟩
                  rfl
                · rintro _ _ ⟨⟩ hstatus herror
                  obtain rfl := Option.some.inj (hcleared hstatus herror)
                  exact ⟨bucket, hbucket, Or.inr ⟨rfl, rfl⟩⟩
      | retry tier snapshot =>
          obtain ⟨⟨hstatus, hwait, hlt⟩, rfl, rfl⟩ := (verdict_eq_retry_iff platform).mp hverdict
          have hretried : AllRetried platform limiter
              (Tries.look nowMs (log.tries ++ [⟨.ok response, none⟩])) := by
            rw [hlook]
            apply h.append
            rw [hattempt]
            exact ⟨hstatus, hwait, hlt⟩
          have hmost := Nat.lt_of_lt_of_le hlt
            (RateLimitOptions.le_mostWaitRetries (limiter.opts.tierOf_mem _) hwait)
          have htries : (Tries.look nowMs (log.tries ++ [⟨.ok response, none⟩])).length =
              attempt + 1 := by
            rw [hlook, List.length_append, List.length_singleton, hattempt]
          apply retryAfter_throughout hretried (htries.trans_le hmost)
          intro log' heq hbucket'
          apply ih _ (hleft ▸ verdict_left platform hverdict) (attempt + 1)
          · rw [heq]
            apply hretried
          · rw [heq]
            apply htries
          · apply hmost
          · rw [hbucket']
            apply hbucket
          · rfl

variable (N : Type) [JsNumber N]

theorem rateLimit_throughout (input : Input) (init : Option Init) :
  (rateLimit N platform limiter base input init).Throughout Tries.record
    (KeepsPolicy platform limiter) (Tries.initial : Tries Error)
  := by
  have hnone : ∀ (log : Tries Error) (p : Program Op (Ans Context Error) Error Response),
      log.tries = [] → (∀ response, p ≠ .done response) → KeepsPolicy platform limiter p log := by
    intro log p hlog hp
    apply KeepsPolicy.of_allRetried
    · rw [hlog]
      rintro i ⟨⟩
    · rw [hlog]
      apply Nat.zero_le
    · apply hp
  have hgate : ∀ bucket : JsUnits,
      (.call (.throttle limiter bucket) fun waited => (Program.settle waited).bind fun _ =>
        attempts platform limiter bucket base input init 0 :
          Program Op (Ans Context Error) Error Response).Throughout Tries.record
        (KeepsPolicy platform limiter) Tries.initial := by
    intro bucket
    refine ⟨hnone _ _ rfl (by rintro _ ⟨⟩), fun waited => ?_⟩
    cases waited with
    | ok _ =>
        apply attempts_throughout bucket input init 0
        · rintro i ⟨⟩
        · rfl
        · apply Nat.zero_le
        · rfl
    | error e => apply hnone _ _ rfl (by rintro _ ⟨⟩)
  unfold rateLimit
  split
  · unfold modelFromRequest
    cases modelFromBody N (init.bind Init.body) with
    | some model => apply hgate
    | none =>
        cases (input.clone readNumber).request?.bind Request.body with
        | none => apply hgate
        | some body => exact ⟨hnone _ _ rfl (by rintro _ ⟨⟩), fun _ => hgate _⟩
  · apply hgate

/-- A limiter that never waits. -/
def failingLimiter : RateLimiter where
  providerId := "gateway"
  opts :=
    { scope := .provider
      headerPrefix := DEFAULT_HEADER_PREFIX
      tiers := [⟨none, .error, 0, 5⟩]
      tiers_ne_nil := List.cons_ne_nil _ _ }

/-- A platform that knows neither contexts nor dates. -/
def plainPlatform : FetchPlatform Unit := ⟨fun _ => none, fun _ => none⟩

def limitedResponse : Response := ⟨429, "Too Many Requests", .empty, none⟩

/-- The failing limiter passes a call on and looks at a response that says the limit is hit. -/
def limitedTrace : Trace Op (Ans Unit String) :=
  [⟨.throttle failingLimiter (unitsOfString "gateway"), .ok ()⟩,
    ⟨.send (.text "https://api.example.com/v1/responses") none, .ok limitedResponse⟩,
    ⟨.now, (0 : ℚ)⟩]

theorem performs_limitedTrace :
  (rateLimit ℕ plainPlatform failingLimiter base
    (.text "https://api.example.com/v1/responses") none).Performs limitedTrace
    (.call (.cooldown failingLimiter (unitsOfString "gateway") 0 0)
      fun _ => .done limitedResponse)
  := by
  have hattempts := attempts_eq plainPlatform failingLimiter (unitsOfString "gateway")
    (base : Fetcher Unit String) (.text "https://api.example.com/v1/responses") none 0
  have hverdict : verdict plainPlatform failingLimiter 0 limitedResponse 0 =
      .surface (some (0, 0)) := verdict_of_error rfl rfl
  apply Program.Performs.call
  apply Eq.mp (congrArg (fun p => Program.Performs p _ _) hattempts.symm)
  apply Program.Performs.call
  apply Program.Performs.call
  rw [hverdict]
  apply Program.Performs.refl

end Fetch
