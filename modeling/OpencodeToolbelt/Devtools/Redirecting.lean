import OpencodeToolbelt.Devtools.Reaching
import Mathlib.Data.List.Infix

/-!
# Redirects of the HTTP tools

What the tools send along the redirects that they follow: the credentials of the caller, the
method and the body.
-/

namespace HttpTools

variable {hosts : HostParser} {N : Type}

/-! ### Following redirects -/

/-- A redirect that is followed: the status of its response, and where it leads. -/
structure Step where
  status : ℕ
  next : Url

variable (redirects : Redirects hosts) (options : HttpOptions)
  (responses : ℕ → Except String Response)

/-- The redirect that is followed at a hop, if there is one. -/
def step (hop : ℕ) (url : Url) : Option Step :=
  match responses hop with
  | .error _ => none
  | .ok res => res.redirect.bind fun location =>
      if maxRedirects ≤ hop then none
      else (redirects.resolve location url).bind fun next =>
        match assertAllowed hosts options next.href with
        | .error _ => none
        | .ok _ => some ⟨res.status, next⟩

/-- The redirects that are followed from a hop on. -/
def followed (hop : ℕ) (url : Url) : List Step :=
  if _h : hop < maxRedirects then
    match step redirects options responses hop url with
    | none => []
    | some s => s :: followed (hop + 1) s.next
  else []
termination_by maxRedirects - hop

/-- The method and the body of a request after a redirect. -/
def redirected (status : ℕ) (init : Init N) : Init N :=
  if status = 303 ∨ ((status = 301 ∨ status = 302) ∧
      init.method ≠ "GET" ∧ init.method ≠ "HEAD") then
    { init with method := "GET", body := none }
  else init

/-- The requests along some redirects. -/
def requestsAlong (url : Url) (init : Init N) : List Step → List (Request N)
  | [] => [{ init with url }]
  | s :: steps => { init with url } :: requestsAlong s.next (redirected s.status init) steps

theorem step_eq_none_of_le {hop : ℕ} (h : maxRedirects ≤ hop) (url : Url) :
  step redirects options responses hop url = none
  := by
  unfold step
  cases responses hop with
  | error message => rfl
  | ok res =>
      dsimp only
      cases res.redirect with
      | none => rw [Option.bind_none]
      | some location => rw [Option.bind_some, if_pos h]

theorem followed_eq (hop : ℕ) (url : Url) :
  followed redirects options responses hop url =
    (step redirects options responses hop url).elim []
      fun s => s :: followed redirects options responses (hop + 1) s.next
  := by
  rw [followed]
  split
  · cases step redirects options responses hop url <;> rfl
  · next h => rw [step_eq_none_of_le _ _ _ (Nat.le_of_not_lt h), Option.elim]

/-- The first request of a chain, and those that come after a redirect. -/
theorem fetchFrom_requests_eq (hop : ℕ) (url : Url) (init : Init N) :
  (fetchFrom redirects options responses hop url init).requests =
    { init with url } :: (step redirects options responses hop url).elim []
      fun s => (fetchFrom redirects options responses (hop + 1) s.next
        (redirected s.status init)).requests
  := by
  rw [fetchFrom, step]
  cases responses hop with
  | error message => rfl
  | ok res =>
      dsimp only
      cases res.redirect with
      | none => rfl
      | some location =>
          rw [Option.bind_some]
          dsimp only
          by_cases hhop : maxRedirects ≤ hop
          · rw [if_pos hhop, if_pos hhop]
            rfl
          · rw [if_neg hhop, if_neg hhop]
            cases redirects.resolve location url with
            | none => rfl
            | some next =>
                rw [Option.bind_some]
                dsimp only
                cases assertAllowed hosts options next.href with
                | error message => rfl
                | ok _ => rfl

theorem requestsAlong_eq_cons (url : Url) (init : Init N) (steps : List Step) :
  ∃ rest, requestsAlong url init steps = { init with url } :: rest
  := by
  cases steps with
  | nil => exact ⟨[], rfl⟩
  | cons s steps => exact ⟨_, rfl⟩

theorem fetchFrom_requests_eq_along (hop : ℕ) (url : Url) (init : Init N) :
  (fetchFrom redirects options responses hop url init).requests =
    requestsAlong url init (followed redirects options responses hop url)
  := by
  induction hleft : maxRedirects - hop using Nat.strong_induction_on
    generalizing hop url init with
  | _ left ih =>
  rw [fetchFrom_requests_eq, followed_eq]
  cases hstep : step redirects options responses hop url with
  | none => rfl
  | some s =>
      have hlt : hop < maxRedirects := by
        by_contra hle
        rw [step_eq_none_of_le _ _ _ (Nat.le_of_not_lt hle)] at hstep
        cases hstep
      rw [Option.elim, Option.elim, requestsAlong]
      rw [ih (maxRedirects - (hop + 1)) (by omega) (hop + 1) s.next _ rfl]

theorem length_followed (hop : ℕ) (url : Url) :
  (followed redirects options responses hop url).length ≤ maxRedirects - hop
  := by
  induction hleft : maxRedirects - hop using Nat.strong_induction_on generalizing hop url with
  | _ left ih =>
  rw [followed]
  split
  · next hlt =>
      cases step redirects options responses hop url with
      | none => apply Nat.zero_le
      | some s =>
          have := ih (maxRedirects - (hop + 1)) (by omega) (hop + 1) s.next rfl
          rw [List.length_cons]
          omega
  · apply Nat.zero_le

theorem length_requestsAlong (url : Url) (init : Init N) (steps : List Step) :
  (requestsAlong url init steps).length = steps.length + 1
  := by
  induction steps generalizing url init with
  | nil => rfl
  | cons s steps ih => rw [requestsAlong, List.length_cons, ih, List.length_cons]

/-! ### What is asked of a chain -/

/-- A name in lower case. -/
def lowerName (name : JsUnits) : JsUnits :=
  name.map fun u => if 65 ≤ u ∧ u ≤ 90 then u + 32 else u

/-- The headers that carry credentials, in any letter case. -/
def isCredential (name : JsUnits) : Bool :=
  lowerName name ∈
    ["authorization", "cookie", "proxy-authorization"].map unitsOfString

def Init.HasCredentials (init : Init N) : Prop :=
  ∃ header ∈ init.headers, isCredential header.1 = true

/-- The URLs are of one origin. -/
def SameOrigin (a b : Url) : Prop := a.scheme = b.scheme ∧ a.host = b.host ∧ a.port = b.port

/-- What the Fetch standard makes of a request after a redirect. -/
def standardRedirected (status : ℕ) (init : Init N) : Init N :=
  if ((status = 301 ∨ status = 302) ∧ init.method = "POST") ∨
      (status = 303 ∧ init.method ≠ "GET" ∧ init.method ≠ "HEAD") then
    { init with method := "GET", body := none }
  else init

/-- Each request has the method and the body that the standard makes of those before it. -/
def FollowsStandard : ℕ → List (Request N) → Prop
  | hop, request :: later :: requests =>
      (∃ res, responses hop = .ok res ∧
        later.method = (standardRedirected res.status request.toInit).method ∧
        later.body = (standardRedirected res.status request.toInit).body) ∧
      FollowsStandard (hop + 1) (later :: requests)
  | _, _ => True

/-- The requests of a call are what they should be. -/
structure Redirected (start : Url) (init : Init N) (requests : List (Request N)) : Prop where
  first : requests.head? = some { init with url := start }
  count : requests.length ≤ maxRedirects + 1
  credentials : ∀ request ∈ requests, request.HasCredentials → SameOrigin start request.url
  standard : FollowsStandard responses 0 requests

/-! ### The condition -/

/-- The redirects that are followed keep credentials at their origin, and the method and the body
as the standard does. -/
structure Harmless (start : Url) (init : Init N) (steps : List Step) : Prop where
  credentials : init.HasCredentials → ∀ s ∈ steps, SameOrigin start s.next
  head : init.method = "HEAD" → ∀ s ∈ steps, s.status ≠ 303
  others : init.method ≠ "GET" → init.method ≠ "HEAD" → init.method ≠ "POST" →
    ∀ s ∈ steps.takeWhile (·.status ≠ 303), s.status ≠ 301 ∧ s.status ≠ 302

/-! ### Methods and bodies -/

/-- A redirect has the effect that the standard gives it. -/
def Agrees (status : ℕ) (init : Init N) : Prop :=
  (redirected status init).method = (standardRedirected status init).method ∧
    (redirected status init).body = (standardRedirected status init).body

/-- All redirects have the effects that the standard gives them. -/
def AllAgree : Init N → List Step → Prop
  | _, [] => True
  | init, s :: steps => Agrees s.status init ∧ AllAgree (redirected s.status init) steps

/-- A request without a body, where there may be none. -/
def Init.Bodiless (init : Init N) : Prop :=
  init.method = "GET" ∨ init.method = "HEAD" → init.body = none

variable {init : Init N}

theorem Init.Bodiless.redirected (h : init.Bodiless) (status : ℕ) :
  (redirected status init).Bodiless
  := by
  unfold HttpTools.redirected
  split
  · exact fun _ => rfl
  · apply h

/-- Where the tools send a request as it was, the standard does. -/
theorem redirected_eq_self {status : ℕ}
    (h : ¬ (status = 303 ∨ ((status = 301 ∨ status = 302) ∧
      init.method ≠ "GET" ∧ init.method ≠ "HEAD"))) :
  redirected status init = init ∧ standardRedirected status init = init
  := by
  rw [redirected, standardRedirected, if_neg h, if_neg]
  · exact ⟨rfl, rfl⟩
  · rintro (⟨hstatus, hpost⟩ | ⟨hstatus, -⟩)
    · apply h
      rw [hpost]
      exact Or.inr ⟨hstatus, by decide, by decide⟩
    · apply h (Or.inl hstatus)

/-- The tools differ from the standard in two cases. -/
theorem agrees_iff (status : ℕ) (hbody : init.Bodiless) :
  Agrees status init ↔
    ¬ (status = 303 ∧ init.method = "HEAD") ∧
    ¬ ((status = 301 ∨ status = 302) ∧ init.method ≠ "GET" ∧ init.method ≠ "HEAD" ∧
      init.method ≠ "POST")
  := by
  have hnames : "HEAD" ≠ "GET" ∧ "POST" ≠ "GET" ∧ "POST" ≠ "HEAD" := by decide
  by_cases hchanged : status = 303 ∨ ((status = 301 ∨ status = 302) ∧
      init.method ≠ "GET" ∧ init.method ≠ "HEAD")
  · by_cases hstandard : ((status = 301 ∨ status = 302) ∧ init.method = "POST") ∨
        (status = 303 ∧ init.method ≠ "GET" ∧ init.method ≠ "HEAD")
    · have hagrees : Agrees status init := by
        rw [Agrees, redirected, standardRedirected, if_pos hchanged, if_pos hstandard]
        exact ⟨rfl, rfl⟩
      have hneither : ¬ (status = 303 ∧ init.method = "HEAD") ∧
          ¬ ((status = 301 ∨ status = 302) ∧ init.method ≠ "GET" ∧ init.method ≠ "HEAD" ∧
            init.method ≠ "POST") := by
        grind
      exact ⟨fun _ => hneither, fun _ => hagrees⟩
    · rw [Agrees, redirected, standardRedirected, if_pos hchanged, if_neg hstandard]
      by_cases hget : init.method = "GET"
      · constructor
        · grind
        · intro _
          exact ⟨hget.symm, (hbody (Or.inl hget)).symm⟩
      · constructor
        · rintro ⟨hmethod, -⟩
          apply absurd hmethod.symm hget
        · grind
  · obtain ⟨hself, hstandard⟩ := redirected_eq_self hchanged
    rw [Agrees, hself, hstandard]
    grind

theorem allAgree_of_get (h : init.method = "GET") (hbody : init.Bodiless) (steps : List Step) :
  AllAgree init steps
  := by
  induction steps generalizing init with
  | nil => trivial
  | cons s steps ih =>
      constructor
      · rw [agrees_iff s.status hbody, h]
        simp
      · apply ih _ (hbody.redirected s.status)
        unfold redirected
        split
        · rfl
        · apply h

/-- From a request with another method on, the standard is kept until a redirect turns it into
`GET`, and from then on. -/
theorem redirected_cases (status : ℕ) (init : Init N) :
  redirected status init = init ∨ (redirected status init).method = "GET"
  := by
  unfold redirected
  split
  · apply Or.inr rfl
  · apply Or.inl rfl

theorem allAgree_cons_iff (hbody : init.Bodiless) (s : Step) (steps : List Step) :
  AllAgree init (s :: steps) ↔
    Agrees s.status init ∧ (redirected s.status init = init → AllAgree init steps)
  := by
  rw [AllAgree]
  apply and_congr_right
  intro _
  rcases redirected_cases s.status init with heq | hget
  · rw [heq]
    simp
  · constructor
    · intro h heq
      rw [← heq]
      apply h
    · intro _
      apply allAgree_of_get hget (hbody.redirected s.status)

theorem allAgree_head_iff (h : init.method = "HEAD") (hbody : init.Bodiless) (steps : List Step) :
  AllAgree init steps ↔ ∀ s ∈ steps, s.status ≠ 303
  := by
  induction steps with
  | nil => simp [AllAgree]
  | cons s steps ih =>
      have hkeeps : s.status ≠ 303 → redirected s.status init = init := by
        intro hstatus
        apply (redirected_eq_self _).1
        grind
      rw [allAgree_cons_iff hbody, agrees_iff s.status hbody, List.forall_mem_cons, ih, h]
      grind

theorem allAgree_of_post (h : init.method = "POST") (hbody : init.Bodiless) (steps : List Step) :
  AllAgree init steps
  := by
  induction steps with
  | nil => trivial
  | cons s steps ih =>
      rw [allAgree_cons_iff hbody, agrees_iff s.status hbody, h]
      exact ⟨by simp, fun _ => ih⟩

theorem allAgree_other_iff (hget : init.method ≠ "GET") (hhead : init.method ≠ "HEAD")
    (hpost : init.method ≠ "POST") (hbody : init.Bodiless) (steps : List Step) :
  AllAgree init steps ↔
    ∀ s ∈ steps.takeWhile (·.status ≠ 303), s.status ≠ 301 ∧ s.status ≠ 302
  := by
  induction steps with
  | nil => simp [AllAgree]
  | cons s steps ih =>
      rw [allAgree_cons_iff hbody, agrees_iff s.status hbody, List.takeWhile_cons]
      by_cases h303 : s.status = 303
      · have hchanged : redirected s.status init ≠ init := by
          intro heq
          rw [redirected, if_pos (Or.inl h303)] at heq
          apply hget
          rw [← heq]
        simp [h303, hhead, h303 ▸ hchanged]
      · have hkeeps : s.status ≠ 301 ∧ s.status ≠ 302 → redirected s.status init = init := by
          intro hstatus
          apply (redirected_eq_self _).1
          grind
        rw [if_pos (by simp [h303]), List.forall_mem_cons, ih]
        grind

/-! ### The requests of a chain -/

theorem responses_of_step {hop : ℕ} {url : Url} {s : Step}
    (h : step redirects options responses hop url = some s) :
  ∃ res, responses hop = .ok res ∧ res.status = s.status
  := by
  unfold step at h
  cases hres : responses hop with
  | error message =>
      rw [hres] at h
      cases h
  | ok res =>
      use res, rfl
      rw [hres] at h
      dsimp only at h
      obtain ⟨location, -, h⟩ := Option.bind_eq_some_iff.mp h
      split at h
      · cases h
      · obtain ⟨next, -, h⟩ := Option.bind_eq_some_iff.mp h
        split at h
        · cases h
        · rw [← Option.some.inj h]

/-- The standard is kept along a chain if its redirects keep it. -/
theorem followsStandard_iff (hop : ℕ) (url : Url) (init : Init N) :
  FollowsStandard responses hop
      (requestsAlong url init (followed redirects options responses hop url)) ↔
    AllAgree init (followed redirects options responses hop url)
  := by
  induction hleft : maxRedirects - hop using Nat.strong_induction_on
    generalizing hop url init with
  | _ left ih =>
  rw [followed_eq]
  cases hstep : step redirects options responses hop url with
  | none => exact ⟨fun _ => trivial, fun _ => trivial⟩
  | some s =>
      obtain ⟨res, hres, hstatus⟩ := responses_of_step redirects options responses hstep
      have hlt : hop < maxRedirects := by
        by_contra hle
        rw [step_eq_none_of_le _ _ _ (Nat.le_of_not_lt hle)] at hstep
        cases hstep
      have hlater := ih (maxRedirects - (hop + 1)) (by omega) (hop + 1) s.next
        (redirected s.status init) rfl
      rw [Option.elim, requestsAlong, AllAgree, ← hlater]
      obtain ⟨rest, hrest⟩ := requestsAlong_eq_cons s.next (redirected s.status init)
        (followed redirects options responses (hop + 1) s.next)
      rw [hrest, FollowsStandard]
      apply and_congr_left
      intro _
      constructor
      · rintro ⟨res', hres', hsame⟩
        obtain rfl := Except.ok.inj (hres.symm.trans hres')
        rw [hstatus] at hsame
        apply hsame
      · intro hagrees
        rw [← hstatus] at hagrees
        use res, hres
        rw [← hstatus]
        apply hagrees

theorem headers_redirected (status : ℕ) (init : Init N) :
  (redirected status init).headers = init.headers
  := by
  unfold redirected
  split <;> rfl

/-- All requests have the headers of the first one. -/
theorem headers_requestsAlong (url : Url) (init : Init N) (steps : List Step) :
  ∀ request ∈ requestsAlong url init steps, request.headers = init.headers
  := by
  induction steps generalizing url init with
  | nil => simp [requestsAlong]
  | cons s steps ih =>
      rw [requestsAlong, List.forall_mem_cons]
      use rfl
      intro request hrequest
      rw [ih _ _ request hrequest, headers_redirected]

theorem urls_requestsAlong (url : Url) (init : Init N) (steps : List Step) :
  (requestsAlong url init steps).map Request.url = url :: steps.map Step.next
  := by
  induction steps generalizing url init with
  | nil => rfl
  | cons s steps ih => rw [requestsAlong, List.map_cons, ih, List.map_cons]

/-- Credentials stay at their origin along a chain if its redirects do. -/
theorem credentials_iff (start : Url) (init : Init N) (steps : List Step) :
  (∀ request ∈ requestsAlong start init steps, request.HasCredentials →
      SameOrigin start request.url) ↔
    (init.HasCredentials → ∀ s ∈ steps, SameOrigin start s.next)
  := by
  have hheaders := headers_requestsAlong start init steps
  have hurls := urls_requestsAlong start init steps
  constructor
  · intro h hcredentials s hs
    have hmem : s.next ∈ (requestsAlong start init steps).map Request.url := by
      rw [hurls]
      apply List.mem_cons_of_mem _ (List.mem_map_of_mem hs)
    obtain ⟨request, hrequest, hurl⟩ := List.mem_map.mp hmem
    rw [← hurl]
    apply h request hrequest
    rw [Init.HasCredentials, hheaders request hrequest]
    apply hcredentials
  · intro h request hrequest hcredentials
    rw [Init.HasCredentials, hheaders request hrequest] at hcredentials
    have hmem := List.mem_map_of_mem (f := Request.url) hrequest
    rw [hurls] at hmem
    rcases List.mem_cons.mp hmem with heq | hlater
    · rw [heq]
      exact ⟨rfl, rfl, rfl⟩
    · obtain ⟨s, hs, heq⟩ := List.mem_map.mp hlater
      rw [← heq]
      apply h hcredentials s hs

/-- The methods and bodies along a chain are those of the standard in all but two cases. -/
theorem allAgree_iff (hbody : init.Bodiless) (steps : List Step) :
  AllAgree init steps ↔
    (init.method = "HEAD" → ∀ s ∈ steps, s.status ≠ 303) ∧
    (init.method ≠ "GET" → init.method ≠ "HEAD" → init.method ≠ "POST" →
      ∀ s ∈ steps.takeWhile (·.status ≠ 303), s.status ≠ 301 ∧ s.status ≠ 302)
  := by
  have hnames : "HEAD" ≠ "GET" ∧ "POST" ≠ "GET" ∧ "POST" ≠ "HEAD" := by decide
  by_cases hget : init.method = "GET"
  · have hagree := allAgree_of_get hget hbody steps
    grind
  · by_cases hhead : init.method = "HEAD"
    · rw [allAgree_head_iff hhead hbody]
      grind
    · by_cases hpost : init.method = "POST"
      · have hagree := allAgree_of_post hpost hbody steps
        grind
      · rw [allAgree_other_iff hget hhead hpost hbody]
        grind

theorem fetchGuarded_redirected_iff (start : Url) (hbody : init.Bodiless) :
  Redirected responses start init
      (fetchGuarded redirects options responses start init).requests ↔
    Harmless start init (followed redirects options responses 0 start)
  := by
  rw [fetchGuarded, fetchFrom_requests_eq_along]
  have hcredentials := credentials_iff start init (followed redirects options responses 0 start)
  have hstandard := followsStandard_iff redirects options responses 0 start init
  rw [allAgree_iff hbody] at hstandard
  constructor
  · intro h
    obtain ⟨hhead, hothers⟩ := hstandard.mp h.standard
    exact ⟨hcredentials.mp h.credentials, hhead, hothers⟩
  · intro h
    obtain ⟨rest, hrest⟩ := requestsAlong_eq_cons start init
      (followed redirects options responses 0 start)
    refine ⟨?_, ?_, hcredentials.mpr h.credentials, hstandard.mpr ⟨h.head, h.others⟩⟩
    · rw [hrest]
      rfl
    · rw [length_requestsAlong]
      apply Nat.succ_le_succ (length_followed redirects options responses 0 start)

/-! ### The tools -/

variable [JsNumber N] (text : Json N → JsUnits)

theorem bodiless_of_prepare {call : Call N} {start : Url} {init : Init N}
    (h : call.prepare text options hosts = .ok (start, init)) :
  init.Bodiless
  := by
  cases call with
  | httpRequest args =>
      obtain ⟨raw, -, h⟩ := ok_of_bind h
      obtain ⟨url, -, h⟩ := ok_of_bind h
      obtain ⟨headers, -, h⟩ := ok_of_bind h
      cases h
      intro hmethod
      apply if_pos hmethod
  | httpGraphql args =>
      obtain ⟨raw, -, h⟩ := ok_of_bind h
      obtain ⟨url, -, h⟩ := ok_of_bind h
      obtain ⟨query, -, h⟩ := ok_of_bind h
      obtain ⟨headers, -, h⟩ := ok_of_bind h
      cases h
      rintro (hget | hhead)
      · apply absurd hget (show "POST" ≠ "GET" by decide)
      · apply absurd hhead (show "POST" ≠ "HEAD" by decide)

/-- The requests of a call are what they should be. -/
def Call.IsRedirected (call : Call N) : Prop :=
  ∀ start init, call.prepare text options hosts = .ok (start, init) →
    Redirected responses start init (call.run text options redirects responses).requests

/-- Along its redirects, a call keeps credentials at their origin and does what the standard asks
for if and only if the redirects that it follows are harmless. -/
theorem isRedirected_iff (call : Call N) :
  call.IsRedirected redirects options responses text ↔
    ∀ start init, call.prepare text options hosts = .ok (start, init) →
      Harmless start init (followed redirects options responses 0 start)
  := by
  apply forall₃_congr
  intro start init hprepare
  rw [Call.run, hprepare]
  apply fetchGuarded_redirected_iff redirects options responses start
  apply bodiless_of_prepare options text hprepare

/-! ### A redirect to another origin -/

def apiText : List Char := "https://api.example/".toList

def otherText : List Char := "https://other.example/".toList

/-- The name of the host of a URL. -/
def isNamed (name : String) (url : Url) : Bool :=
  match url.host with
  | some (.domain d) => d.name = name.toList
  | _ => false

theorem isNamed_congr {a b : Url} (name : String) (h : a.host = b.host) :
  isNamed name a = isNamed name b
  := by
  rw [isNamed, h, isNamed]

theorem eq_of_isNamed {url : Url} {name other : String} (h : isNamed name url = true)
    (h' : isNamed other url = true) :
  name = other
  := by
  unfold isNamed at h h'
  split at h
  · next d hhost =>
      rw [hhost] at h'
      apply String.toList_injective
      rw [← of_decide_eq_true h, ← of_decide_eq_true h']
  · cases h

theorem href_other :
  (Url.parse nameHosts otherText).all (fun url => url.href = otherText) = true
  := by
  decide +kernel

/-- The redirects lead to the other origin. -/
def otherRedirects : Redirects nameHosts where
  resolve _ _ := Url.parse nameHosts otherText
  parse_href := by
    intro _ _ next h
    have hhref := (Option.all_eq_true _ _).mp href_other next h
    rw [of_decide_eq_true hhref, h]

/-- Every response is a redirect. -/
def redirectsAlways : ℕ → Except String Response := fun _ => .ok ⟨302, some otherText⟩

/-- A call of `http_request` with an `Authorization` header. -/
def authorizedCall : Call ℕ :=
  .httpRequest
    { url := some apiText
      method := some "PUT"
      headers := some (.object
        [(unitsOfString "Authorization", .string (unitsOfString "Bearer token"))])
      body := some "text".toList }

/-- The token is sent to the other origin. -/
theorem authorization_leaks :
  ¬ authorizedCall.IsRedirected otherRedirects guarded redirectsAlways (fun _ => [])
  := by
  have hapi : (Url.parse nameHosts apiText).any
      (fun url => accepts url && isNamed "api.example" url) = true := by decide +kernel
  have hother : (Url.parse nameHosts otherText).any
      (fun url => accepts url && isNamed "other.example" url) = true := by decide +kernel
  obtain ⟨start, hstart, haccepts⟩ := (Option.any_eq_true _ _).mp hapi
  obtain ⟨next, hnext, haccepts'⟩ := (Option.any_eq_true _ _).mp hother
  rw [Bool.and_eq_true] at haccepts haccepts'
  let init : Init ℕ :=
    ⟨"PUT", [(unitsOfString "Authorization", .string (unitsOfString "Bearer token"))],
      some "text".toList⟩
  have hprepare : authorizedCall.prepare (fun _ => []) guarded nameHosts = .ok (start, init) := by
    have hallowed := assertAllowed_of_accepts hstart haccepts.1
    have hmethod : "PUT".toUpper = "PUT" := by decide +kernel
    simp only [authorizedCall, Call.prepare, httpRequest, reqString, bind, Except.bind, hallowed,
      Option.map_some, Option.getD_some, hmethod]
    rfl
  have hstep : step otherRedirects guarded redirectsAlways 0 start = some ⟨302, next⟩ := by
    have hallowed := assertAllowed_of_accepts
      (otherRedirects.parse_href otherText start next hnext) haccepts'.1
    have hresolve : otherRedirects.resolve otherText start = some next := hnext
    have hlocation : Response.redirect ⟨302, some otherText⟩ = some otherText := by decide +kernel
    have hhop : ¬ maxRedirects ≤ 0 := by decide
    simp only [step, redirectsAlways, hlocation, Option.bind_some, if_neg hhop, hresolve, hallowed]
  intro h
  have hredirected := h start init hprepare
  rw [Call.run, hprepare] at hredirected
  have hharmless := (fetchGuarded_redirected_iff otherRedirects guarded redirectsAlways start
    (bodiless_of_prepare guarded _ hprepare)).mp hredirected
  have hcredentials : init.HasCredentials := ⟨_, List.mem_singleton_self _, by decide⟩
  have hmem : ⟨302, next⟩ ∈ followed otherRedirects guarded redirectsAlways 0 start := by
    rw [followed_eq, hstep]
    apply List.mem_cons_self
  obtain ⟨-, hhost, -⟩ := hharmless.credentials hcredentials _ hmem
  have hnamed := haccepts'.2
  rw [← isNamed_congr _ hhost] at hnamed
  apply absurd (eq_of_isNamed haccepts.2 hnamed)
  decide

end HttpTools
