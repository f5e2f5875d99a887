import OpencodeToolbelt.Async.Traces
import OpencodeToolbelt.Fetching.Wrappers

/-!
# Stacks of wrappers

Which calls a stack of wrappers passes on faithfully: every request that the base fetch gets is
the one that the caller has made, but for a trace context that has been added, and the caller gets
the last response of the base fetch.
-/

open RateLimit ResponsesRepair

namespace Fetch

variable {Context Error : Type}

/-! ### Runs -/

/-- A request that the base fetch has got. -/
structure Attempt where
  request : Outgoing
  /-- Its body has not been read before. -/
  unread : Bool

/-- What has happened during a call. -/
structure Log (Error : Type) where
  attempts : List Attempt
  used : List Source
  /-- How the last attempt has ended. -/
  last : Option (Except Error Response)
  /-- What a wait has been rejected with. -/
  rejected : Option Error

namespace Log

def initial : Log Error := ⟨[], [], none, none⟩

def record (log : Log Error) : (o : Op) → Ans Context Error o → Log Error
  | .read body, _ => { log with used := .request body.clones :: log.used }
  | .throttle _ _, .error e => { log with rejected := some e }
  | .backoff _ _ _, .error e => { log with rejected := some e }
  | .send input init, answer =>
      let request := outgoing input (init.getD .empty)
      { log with
        attempts := log.attempts ++ [⟨request, request.source.all (· ∉ log.used)⟩]
        used := request.source.toList ++ log.used
        last := some answer }
  | _, _ => log

end Log

/-- The names of the headers that a carrier sets. -/
def traceHeaders : List String := ["traceparent", "tracestate"]

/-- The headers are the same, but for a trace context where there has been none. -/
def Headers.Matches (caller sent : Headers) : Prop :=
  ∀ name, sent name = caller name ∨ (caller name = none ∧ name ∈ traceHeaders)

/-- The requests are the same, but for a trace context where there has been none. -/
structure Outgoing.Matches (caller sent : Outgoing) : Prop where
  url : sent.url = caller.url
  method : sent.method = caller.method
  body : sent.body = caller.body
  headers : caller.headers.Matches sent.headers

def Wrapper.isRepair : Wrapper → Bool
  | .responsesRepair => true
  | _ => false

/-- The response that a caller gets for one of the base fetch, after some repairs. -/
def repaired (N : Type) [JsNumber N] (repairs : ℕ) (url : String) (answer : Response) :
    Response :=
  if isRepairable url answer then
    { answer with body := answer.body.map (repairBody N)^[repairs] }
  else answer

/-- A call ends with the last answer of the base fetch, or because a wait has been rejected. -/
def Received (N : Type) [JsNumber N] (repairs : ℕ) (url : String) (log : Log Error) :
    Except Error Response → Prop
  | .ok response => ∃ answer, log.last = some (.ok answer) ∧ response = repaired N repairs url answer
  | .error e => log.last = some (.error e) ∨ log.rejected = some e

variable (N : Type) [JsNumber N] (platform : FetchPlatform Context)

/-- The requests of a call are those of the caller, and so is what the caller gets. -/
structure Log.Faithful (stack : List Wrapper) (input : Input) (init : Option Init)
    (log : Log Error) (q : Program Op (Ans Context Error) Error Response) : Prop where
  requests : ∀ attempt ∈ log.attempts,
    (outgoing input (init.getD .empty)).Matches attempt.request ∧ attempt.unread = true
  response : ∀ r, q.result = some r →
    Received N (stack.countP Wrapper.isRepair) input.urlOf log r

/-! ### The condition -/

/-- A carrier, or the content type of a body, gives a header again. -/
def Restores (carrier : Carrier) (init : Init) (name value : String) : Prop :=
  addCarrier carrier .empty name = some value ∨
    (name = "content-type" ∧ init.body.bind BodyInit.type = some value)

/-- The headers of a call are not those of a `Request` that a wrapper adds a trace context to,
unless they come back. -/
def KeepsHeaders (stack : List Wrapper) (input : Input) (init : Option Init) : Prop :=
  Wrapper.tracePropagation ∈ stack → init.bind Init.headers = none →
    ∀ context carrier, platform.inject context = some carrier →
      ∀ name value, input.headers name = some value →
        Restores carrier (init.getD .empty) name value

end Fetch

/-- A rate limiter makes no second attempt at any request. -/
def RateLimiter.NeverRetries {Context : Type} (platform : FetchPlatform Context)
    (limiter : RateLimiter) : Prop :=
  ∀ headers nowMs,
    let tier := limiter.opts.tierOf
      (parseRateLimit platform.parseDate headers limiter.opts.headerPrefix nowMs)
    tier.action = .error ∨ tier.maxRetries = 0

namespace Fetch

variable {Context Error : Type} (N : Type) [JsNumber N] (platform : FetchPlatform Context)

/-- A stream in an `init` is not sent again. -/
def KeepsBody (stack : List Wrapper) (init : Option Init) : Prop :=
  ∀ content, init.bind Init.body = some (.stream content) →
    ∀ limiter, .rateLimit limiter ∈ stack → limiter.NeverRetries platform

/-! ### Headers -/

theorem content_type_notMem :
  "content-type" ∉ traceHeaders
  := by
  simp [traceHeaders]

/-- A carrier sets no other headers. -/
theorem addCarrier_of_notMem (carrier : Carrier) (headers : Headers) {name : String}
    (h : name ∉ traceHeaders) :
  addCarrier carrier headers name = headers name
  := by
  have hne : ∀ other ∈ traceHeaders, name ≠ other := by
    rintro other hother rfl
    apply h hother
  have htraceparent :=
    headers.setMissing_of_ne carrier.traceparent (hne "traceparent" (List.mem_cons_self ..))
  unfold addCarrier
  cases carrier.tracestate with
  | none => apply htraceparent
  | some tracestate =>
      rw [← htraceparent]
      apply Headers.setMissing_of_ne
      apply hne "tracestate" (List.mem_cons_of_mem _ (List.mem_cons_self ..))

namespace Headers.Matches

variable {a b c : Headers}

theorem refl (a : Headers) :
  a.Matches a
  := fun _ => Or.inl rfl

theorem trans (hab : a.Matches b) (hbc : b.Matches c) :
  a.Matches c
  := by
  intro name
  rcases hab name with heq | hnew
  · rw [← heq]
    apply hbc name
  · apply Or.inr hnew

theorem of_some (h : a.Matches b) {name value : String} (hname : a name = some value) :
  b name = some value
  := by
  rcases h name with heq | ⟨hnone, -⟩
  · rw [heq, hname]
  · rw [hname] at hnone
    cases hnone

/-- A header of a trace context may be added. -/
theorem setMissing (a : Headers) {name : String} (value : String) (h : name ∈ traceHeaders) :
  a.Matches (a.setMissing name value)
  := by
  intro other
  by_cases hother : other = name
  · rw [hother, setMissing_self]
    cases hname : a name with
    | none => apply Or.inr ⟨rfl, h⟩
    | some v => apply Or.inl rfl
  · apply Or.inl (setMissing_of_ne a value hother)

theorem addCarrier (carrier : Carrier) (a : Headers) :
  a.Matches (addCarrier carrier a)
  := by
  have htraceparent := setMissing a carrier.traceparent (List.mem_cons_self ..)
  unfold Fetch.addCarrier
  cases carrier.tracestate with
  | none => apply htraceparent
  | some tracestate =>
      apply htraceparent.trans
      apply setMissing
      apply List.mem_cons_of_mem _ (List.mem_cons_self ..)

/-- The content type that a body brings along is the same, and a header may come back with
it. -/
theorem withType (body : Option BodyInit)
    (hsome : ∀ name v, a name = some v →
      b name = some v ∨
        (b name = none ∧ name = "content-type" ∧ body.bind BodyInit.type = some v))
    (hnone : ∀ name, a name = none → b name = none ∨ name ∈ traceHeaders) :
  (withType body a).Matches (withType body b)
  := by
  intro name
  rw [withType_apply, withType_apply]
  cases hname : a name with
  | none =>
      rcases hnone name hname with hb | hmem
      · apply Or.inl
        rw [hb]
      · have hne : name ≠ "content-type" := fun h => content_type_notMem (h ▸ hmem)
        rw [if_neg hne]
        apply Or.inr ⟨rfl, hmem⟩
  | some v =>
      left
      rcases hsome name v hname with hb | ⟨hb, hcontent, htype⟩
      · rw [hb]
      · rw [hb, if_pos hcontent, htype]
        rfl

end Headers.Matches

namespace Outgoing.Matches

theorem refl (a : Outgoing) :
  a.Matches a
  := ⟨rfl, rfl, rfl, .refl _⟩

theorem trans {a b c : Outgoing} (hab : a.Matches b) (hbc : b.Matches c) :
  a.Matches c
  where
  url := hbc.url.trans hab.url
  method := hbc.method.trans hab.method
  body := hbc.body.trans hab.body
  headers := hab.headers.trans hbc.headers

theorem clone (input : Input) (init : Init) (number : ℕ) :
  (outgoing input init).Matches (outgoing (input.clone number) init)
  := by
  rw [outgoing_clone]
  exact ⟨rfl, rfl, rfl, .refl _⟩

end Outgoing.Matches

theorem Input.headers_clone (input : Input) (number : ℕ) :
  (input.clone number).headers = input.headers
  := by
  cases input <;> rfl

theorem outgoing_headers (input : Input) (init : Option Init) :
  (outgoing input (init.getD .empty)).headers =
    withType (init.getD .empty).body ((init.bind Init.headers).getD input.headers)
  := by
  cases init <;> rfl

/-- A trace context that is added to a call whose headers are kept. -/
theorem matches_withCarrier {platform : FetchPlatform Context} {stack : List Wrapper}
    {input : Input} {init : Option Init} {context : Context} {carrier : Carrier}
    (hkept : KeepsHeaders platform stack input init) (hmem : .tracePropagation ∈ stack)
    (hcontext : platform.inject context = some carrier) :
  (outgoing input (init.getD .empty)).Matches (outgoing input (withCarrier carrier init))
  := by
  refine ⟨rfl, rfl, rfl, ?_⟩
  rw [outgoing_headers]
  change Headers.Matches _ (withType (init.getD .empty).body
    (addCarrier carrier ((init.bind Init.headers).getD .empty)))
  cases hheaders : init.bind Init.headers with
  | some headers =>
      have hadd := Headers.Matches.addCarrier carrier headers
      apply Headers.Matches.withType
      · intro name v hname
        apply Or.inl (hadd.of_some hname)
      · intro name hname
        apply (hadd name).imp _ And.right
        intro heq
        apply heq.trans hname
  | none =>
      apply Headers.Matches.withType
      · intro name v hname
        apply (hkept hmem hheaders context carrier hcontext name v hname).imp id
        rintro ⟨rfl, htype⟩
        exact ⟨addCarrier_of_notMem carrier .empty content_type_notMem, rfl, htype⟩
      · intro name _
        by_cases hname : name ∈ traceHeaders
        · apply Or.inr hname
        · left
          apply addCarrier_of_notMem carrier .empty hname

/-! ### A log -/

namespace Log

/-- What has been found out about the requests that have been sent for a caller's one. -/
def Good (caller : Outgoing) (log : Log Error) : Prop :=
  ∀ attempt ∈ log.attempts, caller.Matches attempt.request ∧ attempt.unread = true

/-- No clone of a clone has been used. -/
def Apart (log : Log Error) (clones : List ℕ) : Prop :=
  ∀ used, .request used ∈ log.used → ¬ clones <:+ used

/-- The bodies of a call have not been read. -/
structure Ready (log : Log Error) (input : Input) (init : Option Init) : Prop where
  init : ∀ content, init.bind Init.body = some (.stream content) → .init ∉ log.used
  request : ∀ clones, input.clones? = some clones → log.Apart clones

/-- Nothing has been read but the bodies of a call and clones of them. -/
def Grows (input : Input) (log log' : Log Error) : Prop :=
  ∀ source ∈ log'.used, source ∈ log.used ∨ source = .init ∨
    ∃ clones used, input.clones? = some clones ∧ source = .request used ∧ clones <:+ used

theorem Grows.refl (input : Input) (log : Log Error) :
  log.Grows input log
  := fun _ h => Or.inl h

theorem Grows.trans {input : Input} {log log' log'' : Log Error} (h : Grows input log log')
    (h' : Grows input log' log'') :
  Grows input log log''
  := by
  intro source hsource
  rcases h' source hsource with hmem | hnew
  · apply h source hmem
  · apply Or.inr hnew

end Log

theorem Input.urlOf_clone (input : Input) (number : ℕ) :
  (input.clone number).urlOf = input.urlOf
  := by
  cases input <;> rfl

theorem Input.clones?_clone (input : Input) (number : ℕ) :
  (input.clone number).clones? = input.clones?.map (number :: ·)
  := by
  cases input with
  | text u => rfl
  | url href => rfl
  | request r =>
      obtain ⟨url, method, headers, body⟩ := r
      cases body <;> rfl

namespace Log

/-- What a clone adds has been added by the request that it is a clone of. -/
theorem Grows.of_clone {input : Input} {number : ℕ} {log log' : Log Error}
    (h : Grows (input.clone number) log log') :
  Grows input log log'
  := by
  intro source hsource
  apply (h source hsource).imp_right
  apply Or.imp_right
  rintro ⟨clones, used, hclones, rfl, hused⟩
  rw [Input.clones?_clone] at hclones
  obtain ⟨clones, hinput, rfl⟩ := Option.map_eq_some_iff.mp hclones
  exact ⟨clones, used, hinput, rfl, (List.suffix_cons ..).trans hused⟩

/-- The clones of a request are apart. -/
theorem Apart.of_grows {input : Input} {clones : List ℕ} {number other : ℕ}
    {log log' : Log Error} (hclones : input.clones? = some clones)
    (hapart : log.Apart (other :: clones)) (hne : other ≠ number)
    (h : Grows (input.clone number) log log') :
  log'.Apart (other :: clones)
  := by
  intro used hused hsuffix
  rcases h _ hused with hmem | hinit | ⟨found, used', hfound, hused', hfrom⟩
  · apply hapart used hmem hsuffix
  · cases hinit
  · obtain rfl := Source.request.inj hused'
    rw [Input.clones?_clone, hclones] at hfound
    obtain rfl := Option.some.inj hfound
    have hcons := List.suffix_of_suffix_length_le hsuffix hfrom (Nat.le_refl _)
    apply hne (List.cons.inj (hcons.eq_of_length rfl)).1

end Log

theorem outgoing_source (input : Input) (init : Option Init) :
  (outgoing input (init.getD .empty)).source =
    (init.bind Init.body).elim (input.clones?.map Source.request) BodyInit.source
  := by
  cases init <;> rfl

/-- The base fetch gets a body that has not been read. -/
theorem unread_of_ready {log : Log Error} {input : Input} {init : Option Init}
    (h : log.Ready input init) :
  ∀ source ∈ (outgoing input (init.getD .empty)).source, source ∉ log.used
  := by
  rw [outgoing_source]
  cases hbody : init.bind Init.body with
  | none =>
      intro source hmem hused
      obtain ⟨clones, hclones, rfl⟩ := Option.map_eq_some_iff.mp hmem
      apply h.request clones hclones clones hused List.suffix_rfl
  | some body =>
      cases body with
      | text s => rintro source ⟨⟩
      | value bytes t => rintro source ⟨⟩
      | stream bytes =>
          rintro source ⟨⟩
          apply h.init bytes hbody

/-- A call of the base fetch has read nothing but the bodies of the call. -/
theorem grows_source (input : Input) (init : Option Init) :
  ∀ source ∈ (outgoing input (init.getD .empty)).source,
    source = .init ∨
      ∃ clones used, input.clones? = some clones ∧ source = .request used ∧ clones <:+ used
  := by
  rw [outgoing_source]
  intro source hmem
  cases hbody : init.bind Init.body with
  | none =>
      rw [hbody] at hmem
      obtain ⟨clones, hclones, rfl⟩ := Option.map_eq_some_iff.mp hmem
      exact Or.inr ⟨clones, clones, hclones, rfl, List.suffix_rfl⟩
  | some body =>
      rw [hbody] at hmem
      left
      cases body with
      | text s => cases hmem
      | value bytes t => cases hmem
      | stream bytes => apply (Option.some.inj hmem).symm

/-! ### Faithful wrappers -/

section Faithful

variable (platform : FetchPlatform Context)

/-- From a log on, a program keeps to the requests of a call and ends with what the caller is to
get. -/
def Serves (caller : Outgoing) (repairs : ℕ) (input : Input) (log : Log Error)
    (p : Program Op (Ans Context Error) Error Response) : Prop :=
  p.Follows Log.record (Log.Good caller)
    (fun r log' => Received N repairs input.urlOf log' r ∧ Log.Grows input log log') log

/-- Every call that fits the caller's one is served. -/
def IsFaithful (stack : List Wrapper) (repairs : ℕ) (delegate : Fetcher Context Error) : Prop :=
  ∀ (caller : Outgoing) (input : Input) (init : Option Init) (log : Log Error),
    caller.Matches (outgoing input (init.getD .empty)) → log.Good caller →
    KeepsHeaders platform stack input init → KeepsBody platform stack init →
    log.Ready input init → Serves N caller repairs input log (delegate input init)

variable {N} {platform}

theorem KeepsHeaders.of_cons {wrapper : Wrapper} {stack : List Wrapper} {input : Input}
    {init : Option Init} (h : KeepsHeaders platform (wrapper :: stack) input init) :
  KeepsHeaders platform stack input init
  := by
  intro hmem
  apply h (List.mem_cons_of_mem _ hmem)

theorem KeepsBody.of_cons {wrapper : Wrapper} {stack : List Wrapper} {init : Option Init}
    (h : KeepsBody platform (wrapper :: stack) init) :
  KeepsBody platform stack init
  := by
  intro content hbody limiter hmem
  apply h content hbody limiter (List.mem_cons_of_mem _ hmem)

/-! ### The base fetch -/

theorem repaired_zero (url : String) (answer : Response) :
  repaired N 0 url answer = answer
  := by
  unfold repaired
  split
  · rw [Function.iterate_zero, Option.map_id]
    rfl
  · rfl

theorem base_faithful :
  IsFaithful N platform [] 0 (base : Fetcher Context Error)
  := by
  intro caller input init log hcaller hgood _ _ hready answer
  constructor
  · intro attempt hattempt
    rcases List.mem_append.mp hattempt with hold | hnew
    · apply hgood attempt hold
    · obtain rfl := List.mem_singleton.mp hnew
      use hcaller
      rw [Option.all_eq_true]
      intro source hsource
      rw [decide_eq_true_eq]
      apply unread_of_ready hready source hsource
  · apply Program.Follows.settle
    constructor
    · cases answer with
      | ok response => exact ⟨response, rfl, (repaired_zero _ _).symm⟩
      | error e => exact Or.inl rfl
    · intro source hsource
      rcases List.mem_append.mp hsource with hnew | hold
      · right
        apply grows_source input init source (Option.mem_toList.mp hnew)
      · apply Or.inl hold

/-! ### Trace contexts -/

theorem tracePropagation_faithful {stack : List Wrapper} {repairs : ℕ}
    {delegate : Fetcher Context Error} (h : IsFaithful N platform stack repairs delegate) :
  IsFaithful N platform (.tracePropagation :: stack) repairs
    (tracePropagation platform delegate)
  := by
  intro caller input init log hcaller hgood hheaders hbody hready context
  use hgood
  dsimp only
  cases hcontext : Option.bind context platform.inject with
  | none => apply h caller input init log hcaller hgood hheaders.of_cons hbody.of_cons hready
  | some carrier =>
      obtain ⟨context, -, hinject⟩ := Option.bind_eq_some_iff.mp hcontext
      have hbodies : (some (withCarrier carrier init)).bind Init.body = init.bind Init.body := by
        cases init <;> rfl
      apply h caller input (some (withCarrier carrier init)) log _ hgood
      · intro _ hnone
        cases hnone
      · unfold KeepsBody
        rw [hbodies]
        apply hbody.of_cons
      · refine ⟨?_, hready.request⟩
        rw [hbodies]
        apply hready.init
      · apply hcaller.trans
        apply matches_withCarrier hheaders (List.mem_cons_self ..) hinject

/-! ### Repairs -/

theorem repairResponse_repaired (repairs : ℕ) (url : String) (answer : Response) :
  repairResponse N url (repaired N repairs url answer) = repaired N (repairs + 1) url answer
  := by
  unfold repaired
  split
  · next h =>
      have hrepairable : isRepairable url
          { answer with body := answer.body.map (repairBody N)^[repairs] } = true := h
      rw [repairResponse, if_pos hrepairable, Function.iterate_succ', ← Option.map_map]
  · next h => rw [repairResponse, if_neg h]

theorem responsesRepair_faithful {stack : List Wrapper} {repairs : ℕ}
    {delegate : Fetcher Context Error}
    (h : IsFaithful N platform stack repairs delegate) :
  IsFaithful N platform (.responsesRepair :: stack) (repairs + 1)
    (responsesRepair N delegate)
  := by
  intro caller input init log hcaller hgood hheaders hbody hready
  apply Program.Follows.bind
    (h caller input init log hcaller hgood hheaders.of_cons hbody.of_cons hready)
  · rintro _ log' ⟨⟨answer, hlast, rfl⟩, hgrows⟩
    refine ⟨⟨answer, hlast, ?_⟩, hgrows⟩
    apply repairResponse_repaired
  · rintro e log' hpost
    apply hpost

/-! ### Rate limits -/

/-- The bodies of the attempts of a call, from one on, have not been read. -/
structure Log.ReadyFrom (log : Log Error) (input : Input) (init : Option Init) (attempt : ℕ) :
    Prop where
  init : ∀ content, init.bind Init.body = some (.stream content) → .init ∉ log.used
  request : ∀ clones, input.clones? = some clones →
    ∀ number, attempt < number → log.Apart (number :: clones)

theorem Log.Apart.cons {log : Log Error} {clones : List ℕ} (h : log.Apart clones) (number : ℕ) :
  log.Apart (number :: clones)
  := by
  intro used hused hsuffix
  apply h used hused ((List.suffix_cons ..).trans hsuffix)

theorem Log.ReadyFrom.clone {log : Log Error} {input : Input} {init : Option Init} {attempt : ℕ}
    (h : log.ReadyFrom input init attempt) :
  log.Ready (input.clone (attempt + 1)) init
  := by
  use h.init
  intro clones hclones
  rw [Input.clones?_clone] at hclones
  obtain ⟨clones, hinput, rfl⟩ := Option.map_eq_some_iff.mp hclones
  apply h.request clones hinput (attempt + 1) (Nat.lt_succ_self _)

theorem Log.Ready.from {log : Log Error} {input : Input} {init : Option Init}
    (h : log.Ready input init) :
  log.ReadyFrom input init 0
  := by
  use h.init
  intro clones hclones number _
  apply (h.request clones hclones).cons

/-- The text of a request is read from a clone of its own. -/
theorem modelFromRequest_follows {caller : Outgoing} {input : Input} {init : Option Init}
    {log : Log Error} (hgood : log.Good caller) (hready : log.Ready input init) :
  (modelFromRequest N input init : Program Op (Ans Context Error) Error _).Follows Log.record
    (Log.Good caller)
    (fun r log' => (∃ model, r = .ok model) ∧ log'.Good caller ∧ log'.ReadyFrom input init 0 ∧
      Log.Grows input log log') log
  := by
  unfold modelFromRequest
  cases modelFromBody N (init.bind Init.body) with
  | some model => exact ⟨⟨_, rfl⟩, hgood, hready.from, .refl _ _⟩
  | none =>
      cases hbody : (input.clone readNumber).request?.bind Request.body with
      | none => exact ⟨⟨_, rfl⟩, hgood, hready.from, .refl _ _⟩
      | some body =>
          intro worked
          have hclones : (input.clone readNumber).clones? = some body.clones := by
            rw [Input.clones?, hbody]
            rfl
          have hgrows : Log.Grows (input.clone readNumber) log
              (log.record (.read body) worked) := by
            intro source hsource
            rcases List.mem_cons.mp hsource with rfl | hold
            · exact Or.inr (Or.inr ⟨_, _, hclones, rfl, List.suffix_rfl⟩)
            · apply Or.inl hold
          refine ⟨hgood, ⟨_, rfl⟩, hgood, ⟨?_, ?_⟩, hgrows.of_clone⟩
          · intro content hcontent hused
            rcases List.mem_cons.mp hused with hread | hold
            · cases hread
            · apply hready.init content hcontent hold
          · intro clones hinput number hnumber
            apply Log.Apart.of_grows hinput ((hready.request clones hinput).cons number) _ hgrows
            apply Nat.ne_of_gt hnumber

theorem surface_follows (limiter : RateLimiter) (bucket : JsUnits) {caller : Outgoing}
    {Q : Except Error Response → Log Error → Prop} {log : Log Error} (hgood : log.Good caller)
    {response : Response} (hQ : Q (.ok response) log) (cooldown : Option (ℚ × ℚ)) :
  (surface limiter bucket response cooldown : Program Op (Ans Context Error) Error _).Follows
    Log.record (Log.Good caller) Q log
  := by
  cases cooldown with
  | none => apply hQ
  | some cooldown => exact fun _ => ⟨hgood, hQ⟩

theorem retryAfter_follows (limiter : RateLimiter) (bucket : JsUnits) {caller : Outgoing}
    {Q : Except Error Response → Log Error → Prop} {log : Log Error} (hgood : log.Good caller)
    (tier : RateLimitTier) (snapshot : RateLimitSnapshot)
    {again : Program Op (Ans Context Error) Error Response}
    (hagain : again.Follows Log.record (Log.Good caller) Q log)
    (hrejected : ∀ e, Q (.error e) { log with rejected := some e }) :
  (retryAfter limiter bucket tier snapshot again).Follows Log.record (Log.Good caller) Q log
  := by
  intro _
  use hgood
  intro _
  use hgood
  intro _
  use hgood
  intro waited
  cases waited with
  | ok _ => exact ⟨hgood, hagain⟩
  | error e => exact ⟨hgood, hrejected e⟩

/-- A limiter that makes another attempt sometimes does. -/
theorem not_neverRetries {limiter : RateLimiter} {attempt : ℕ} {response : Response} {nowMs : ℚ}
    {tier : RateLimitTier} {snapshot : RateLimitSnapshot}
    (h : verdict platform limiter attempt response nowMs = .retry tier snapshot) :
  ¬ limiter.NeverRetries platform
  := by
  obtain ⟨⟨-, hwait, hlt⟩, rfl, rfl⟩ := (verdict_eq_retry_iff platform).mp h
  intro hnever
  rcases hnever response.headers nowMs with herror | hnone
  · have := herror.symm.trans hwait
    cases this
  · apply Nat.not_lt_zero attempt
    rw [← hnone]
    apply hlt

theorem attempts_follows {stack : List Wrapper} {repairs : ℕ} {delegate : Fetcher Context Error}
    (h : IsFaithful N platform stack repairs delegate) (limiter : RateLimiter) (bucket : JsUnits)
    {caller : Outgoing} {input : Input} {init : Option Init}
    (hcaller : caller.Matches (outgoing input (init.getD .empty)))
    (hheaders : KeepsHeaders platform stack input init)
    (hbody : KeepsBody platform (.rateLimit limiter :: stack) init) (attempt : ℕ)
    {log : Log Error} (hgood : log.Good caller) (hready : log.ReadyFrom input init attempt) :
  Serves N caller repairs input log
    (attempts platform limiter bucket delegate input init attempt)
  := by
  induction hleft : limiter.opts.mostRetries - attempt using Nat.strong_induction_on
    generalizing attempt log with
  | _ left ih =>
  rw [attempts_eq]
  have hdelegate := h caller (input.clone (attempt + 1)) init log
    (hcaller.trans (.clone ..)) hgood
    (by rw [KeepsHeaders, Input.headers_clone]; apply hheaders) hbody.of_cons hready.clone
  have hserved : (delegate (input.clone (attempt + 1)) init).Follows Log.record (Log.Good caller)
      (fun r log' => log'.Good caller ∧ Received N repairs input.urlOf log' r ∧
        Log.Grows (input.clone (attempt + 1)) log log') log := by
    apply (hdelegate.and_invariant hgood).mono
    intro r log' hpost
    rw [Input.urlOf_clone] at hpost
    apply hpost
  apply hserved.bind
  · rintro response log' ⟨hgood', hreceived, hgrows⟩ nowMs
    use hgood'
    dsimp only
    cases hverdict : verdict platform limiter attempt response nowMs with
    | surface cooldown =>
        apply surface_follows limiter bucket hgood'
        exact ⟨hreceived, hgrows.of_clone⟩
    | retry tier snapshot =>
        have hretries := not_neverRetries hverdict
        have hready' : log'.ReadyFrom input init (attempt + 1) := by
          constructor
          · intro content hcontent
            apply (hretries (hbody content hcontent limiter (List.mem_cons_self ..))).elim
          · intro clones hclones number hnumber
            apply Log.Apart.of_grows hclones _ (Nat.ne_of_gt hnumber) hgrows
            apply hready.request clones hclones number (Nat.lt_of_succ_lt hnumber)
        have hagain := ih _ (hleft ▸ verdict_left platform hverdict) (attempt + 1) hgood' hready' rfl
        apply retryAfter_follows limiter bucket hgood'
        · apply hagain.mono
          rintro r log'' ⟨hreceived', hgrows'⟩
          exact ⟨hreceived', hgrows.of_clone.trans hgrows'⟩
        · intro e
          exact ⟨Or.inr rfl, hgrows.of_clone⟩
  · rintro e log' ⟨hgood', hreceived, hgrows⟩
    exact ⟨hreceived, hgrows.of_clone⟩

theorem rateLimit_faithful {stack : List Wrapper} {repairs : ℕ}
    {delegate : Fetcher Context Error} (h : IsFaithful N platform stack repairs delegate)
    (limiter : RateLimiter) :
  IsFaithful N platform (.rateLimit limiter :: stack) repairs
    (rateLimit N platform limiter delegate)
  := by
  intro caller input init log hcaller hgood hheaders hbody hready
  have hmodel : (if limiter.opts.scope = .model then modelFromRequest N input init
      else .done none : Program Op (Ans Context Error) Error _).Follows Log.record
      (Log.Good caller)
      (fun r log' => (∃ model, r = .ok model) ∧ log'.Good caller ∧
        log'.ReadyFrom input init 0 ∧ Log.Grows input log log') log := by
    split
    · apply modelFromRequest_follows hgood hready
    · exact ⟨⟨_, rfl⟩, hgood, hready.from, .refl _ _⟩
  apply hmodel.bind
  · rintro model log' ⟨-, hgood', hready', hgrows⟩ waited
    cases waited with
    | error e => exact ⟨hgood', Or.inr rfl, hgrows⟩
    | ok _ =>
        use hgood'
        apply Program.Follows.mono _ (attempts_follows h limiter _ hcaller hheaders.of_cons
          hbody 0 hgood' hready')
        rintro r log'' ⟨hreceived, hgrows'⟩
        exact ⟨hreceived, hgrows.trans hgrows'⟩
  · rintro e log' ⟨⟨_, ⟨⟩⟩, -⟩

theorem stacked_faithful (stack : List Wrapper) :
  IsFaithful N platform stack (stack.countP Wrapper.isRepair)
    (stacked N platform stack : Fetcher Context Error)
  := by
  induction stack with
  | nil => apply base_faithful
  | cons wrapper stack ih =>
      cases wrapper with
      | tracePropagation => apply tracePropagation_faithful ih
      | rateLimit limiter => apply rateLimit_faithful ih
      | responsesRepair =>
          rw [List.countP_cons_of_pos rfl]
          apply responsesRepair_faithful ih

end Faithful

end Fetch
