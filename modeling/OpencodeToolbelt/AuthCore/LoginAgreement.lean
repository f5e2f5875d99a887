import OpencodeToolbelt.AuthCore.BrowserLogin

/-!
# Whom a login logs in

A login that succeeds got its tokens for what its own user has allowed at its own URL: only the
browser of that user is sent back with the state that the login has drawn. A code that was asked
for with a challenge serves the login that knows the verifier, and nobody else.
-/

namespace BrowserLogin

variable {sha256 : List UInt8 → List UInt8} {User : Type} {supportsPkce : Bool}

/-! ### What a login sends -/

namespace Login

theorem authorizeUrl_state (login : Login sha256 User) :
  login.authorizeUrl.get "state" = some login.state
  := by apply SearchParams.get_set

theorem authorizeUrl_challenge {login : Login sha256 User} {pkce : PkcePair sha256}
    (h : login.pkce = some pkce) :
  login.authorizeUrl.get "code_challenge" = some pkce.challenge ∧
    login.authorizeUrl.get "code_challenge_method" = some "S256"
  := by
  rw [authorizeUrl, h]
  constructor
  · rw [SearchParams.get_set_of_ne (by decide)]
    simp only [SearchParams.setAll, List.foldl]
    rw [SearchParams.get_set_of_ne (by decide), SearchParams.get_set]
  · rw [SearchParams.get_set_of_ne (by decide)]
    simp only [SearchParams.setAll, List.foldl]
    rw [SearchParams.get_set]

theorem tokenBody_verifier (login : Login sha256 User) (code : String) :
  (login.tokenBody code).get "code_verifier" = login.pkce.map PkcePair.verifier
  := by
  rw [tokenBody]
  cases nonEmpty login.config.clientSecret with
  | none =>
      cases login.pkce with
      | none => rfl
      | some pkce => apply SearchParams.get_set
  | some clientSecret =>
      apply (SearchParams.get_set_of_ne (by decide) _ _).trans
      cases login.pkce with
      | none => rfl
      | some pkce => apply SearchParams.get_set

/-- The login is the same one, further on. -/
structure Continues (login login' : Login sha256 User) : Prop where
  owner : login'.owner = login.owner
  pkce : login'.pkce = login.pkce
  state : login'.state = login.state
  authorizeUrl : login'.authorizeUrl = login.authorizeUrl

theorem continues_finish (login : Login sha256 User) (phase : LoginPhase) :
  login.Continues (login.finish phase)
  := ⟨rfl, rfl, rfl, rfl⟩

theorem continues_opened (login : Login sha256 User) (ok : Bool) :
  login.Continues (login.opened ok)
  := by
  cases ok with
  | true => exact ⟨rfl, rfl, rfl, rfl⟩
  | false => apply login.continues_finish

theorem onRequest_redirectUri (server : LocalCallbackServer) (request : CallbackRequest) :
  (server.onRequest request).2.redirectUri = server.redirectUri
  := by
  rw [LocalCallbackServer.onRequest]
  split
  · rfl
  · split <;> rfl

theorem continues_onRequest (login : Login sha256 User) (request : CallbackRequest) :
  login.Continues (login.onRequest request)
  := by
  refine ⟨rfl, rfl, rfl, ?_⟩
  simp only [authorizeUrl, onRequest, onRequest_redirectUri]

theorem continues_resume (login : Login sha256 User) :
  login.Continues login.resume
  := by
  rw [resume]
  split
  · exact ⟨rfl, rfl, rfl, rfl⟩
  · apply login.continues_finish
  · split
    · apply login.continues_finish
    · exact ⟨rfl, rfl, rfl, rfl⟩

theorem continues_exchanged (login : Login sha256 User) (response : TokenResponse) (now : ℕ) :
  login.Continues (login.exchanged response now)
  := by
  unfold exchanged
  split
  · apply login.continues_finish
  · apply login.continues_finish
  · split <;> apply login.continues_finish

end Login

/-! ### The invariant -/

/-- The grant of the code was asked for with the state of the login. -/
def Asked (grants : String → Option (Grant User)) (login : Login sha256 User) (code : String) :
    Prop :=
  ∃ grant, grants code = some grant ∧ grant.url.get "state" = some login.state

/-- The token was issued to the login, for a grant that was asked for with its state. -/
def Earned (grants : String → Option (Grant User)) (n : ℕ) (login : Login sha256 User)
    (token : TokenSet) : Prop :=
  ∃ code grant payload now, grants code = some grant ∧
    grant.url.get "state" = some login.state ∧ (Presenter.login n, payload) ∈ grant.redemptions ∧
      toTokenSet payload none true now = .ok token

/-- What a login has been called back with, and what it has come to. -/
structure Login.Sound (grants : String → Option (Grant User)) (n : ℕ)
    (login : Login sha256 User) : Prop where
  callback : ∀ callback, login.callbackServer.promise = .resolved callback →
    callback.state = login.state → Asked grants login callback.code
  exchanging : ∀ code, login.phase = .exchanging code → Asked grants login code
  done : ∀ token, login.phase = .done token → Earned grants n login token

structure World.Sound (supportsPkce : Bool) (s : World sha256 User) : Prop where
  states : ∀ n m login login', s.logins n = some login → s.logins m = some login' →
    login.state = login'.state → n = m
  challenges : ∀ n m login login', s.logins n = some login → s.logins m = some login' →
    ∀ pkce ∈ login.pkce, ∀ pkce' ∈ login'.pkce, pkce.challenge = pkce'.challenge → n = m
  /-- Only its own user allows what asks with the state of a login. -/
  asked : ∀ code grant n login, s.grants code = some grant → s.logins n = some login →
    grant.url.get "state" = some login.state →
      grant.url = login.authorizeUrl ∧ grant.user = login.owner
  logins : ∀ n login, s.logins n = some login → login.Sound s.grants n
  exclusive : supportsPkce = true → ∀ code grant n login, s.grants code = some grant →
    s.logins n = some login → login.pkce.isSome → grant.url = login.authorizeUrl →
      ∀ redemption ∈ grant.redemptions, redemption.1 = .login n

theorem sound_initial : (World.initial : World sha256 User).Sound supportsPkce where
  states _ _ _ _ h := by cases h
  challenges _ _ _ _ h := by cases h
  asked _ _ _ _ h := by cases h
  logins _ _ h := by cases h
  exclusive _ _ _ _ _ h := by cases h

/-! ### Grants only get more redemptions -/

/-- Each grant is still there, with the redemptions it had. -/
def Extends (grants grants' : String → Option (Grant User)) : Prop :=
  ∀ code grant, grants code = some grant →
    ∃ grant', grants' code = some grant' ∧ grant'.url = grant.url ∧
      ∀ redemption ∈ grant.redemptions, redemption ∈ grant'.redemptions

theorem Asked.mono {grants grants' : String → Option (Grant User)} (h : Extends grants grants')
    {login : Login sha256 User} {code : String} (hasked : Asked grants login code) :
  Asked grants' login code
  := by
  obtain ⟨grant, hgrant, hstate⟩ := hasked
  obtain ⟨grant', hgrant', hurl, -⟩ := h code grant hgrant
  use grant', hgrant'
  rw [hurl, hstate]

theorem Earned.mono {grants grants' : String → Option (Grant User)} (h : Extends grants grants')
    {n : ℕ} {login : Login sha256 User} {token : TokenSet} (hearned : Earned grants n login token) :
  Earned grants' n login token
  := by
  obtain ⟨code, grant, payload, now, hgrant, hstate, hmem, htoken⟩ := hearned
  obtain ⟨grant', hgrant', hurl, hsub⟩ := h code grant hgrant
  use code, grant', payload, now, hgrant', hurl ▸ hstate, hsub _ hmem

theorem Login.Sound.mono {grants grants' : String → Option (Grant User)}
    (h : Extends grants grants') {n : ℕ} {login : Login sha256 User}
    (hsound : login.Sound grants n) :
  login.Sound grants' n
  where
  callback callback hcallback hstate := (hsound.callback callback hcallback hstate).mono h
  exchanging code hphase := (hsound.exchanging code hphase).mono h
  done token hphase := (hsound.done token hphase).mono h

theorem extends_setGrant_new {s : World sha256 User} {code : String} (hnew : s.grants code = none)
    (grant : Grant User) :
  Extends s.grants (s.setGrant code grant).grants
  := by
  intro code' grant' hgrant'
  use grant'
  have hne : code' ≠ code := by
    rintro rfl
    rw [hnew] at hgrant'
    cases hgrant'
  exact ⟨(s.setGrant_of_ne hne grant).trans hgrant', rfl, fun _ h => h⟩

theorem extends_issue (s : World sha256 User) (code : String) (presenter : Presenter)
    (payload : TokenPayload) :
  Extends s.grants (s.issue code presenter payload).grants
  := by
  intro code' grant' hgrant'
  rw [World.issue]
  split
  · use grant', hgrant', rfl
    exact fun _ h => h
  · next grant hgrant =>
      by_cases hcode : code' = code
      · subst hcode
        obtain rfl := Option.some.inj (hgrant.symm.trans hgrant')
        refine ⟨_, s.setGrant_self _ _, rfl, ?_⟩
        intro redemption hmem
        apply List.mem_cons_of_mem _ hmem
      · exact ⟨grant', (s.setGrant_of_ne hcode _).trans hgrant', rfl, fun _ h => h⟩

/-! ### Steps of the logins -/

variable {s : World sha256 User}

theorem logins_setLogin {n m : ℕ} {login login' : Login sha256 User}
    (h : (s.setLogin n login).logins m = some login') :
  m = n ∧ login' = login ∨ m ≠ n ∧ s.logins m = some login'
  := by
  by_cases hm : m = n
  · subst hm
    rw [s.setLogin_self] at h
    exact .inl ⟨rfl, (Option.some.inj h).symm⟩
  · rw [s.setLogin_of_ne hm] at h
    exact .inr ⟨hm, h⟩

/-- A login that has gone on is as it was, but for the server and the phase. -/
theorem sound_setLogin (hs : s.Sound supportsPkce) {n : ℕ} {login login' : Login sha256 User}
    (hlogin : s.logins n = some login) (hsame : login.Continues login')
    (hsound : login'.Sound s.grants n) :
  (s.setLogin n login').Sound supportsPkce
  := by
  have hbefore : ∀ m l', (s.setLogin n login').logins m = some l' →
      ∃ l : Login sha256 User, s.logins m = some l ∧ l.Continues l' := by
    intro m l' h
    obtain ⟨rfl, rfl⟩ | ⟨-, h⟩ := logins_setLogin h
    · use login, hlogin
    · use l', h
      exact ⟨rfl, rfl, rfl, rfl⟩
  constructor
  · intro n' m' l₁ l₂ h₁ h₂ heq
    obtain ⟨l₁', h₁, hc₁⟩ := hbefore n' l₁ h₁
    obtain ⟨l₂', h₂, hc₂⟩ := hbefore m' l₂ h₂
    apply hs.states n' m' l₁' l₂' h₁ h₂
    rw [← hc₁.state, ← hc₂.state, heq]
  · intro n' m' l₁ l₂ h₁ h₂ pkce hpkce pkce' hpkce'
    obtain ⟨l₁', h₁, hc₁⟩ := hbefore n' l₁ h₁
    obtain ⟨l₂', h₂, hc₂⟩ := hbefore m' l₂ h₂
    apply hs.challenges n' m' l₁' l₂' h₁ h₂ pkce (hc₁.pkce ▸ hpkce) pkce' (hc₂.pkce ▸ hpkce')
  · intro code grant m l' hgrant h hstate
    obtain ⟨l, h, hc⟩ := hbefore m l' h
    rw [hc.authorizeUrl, hc.owner]
    apply hs.asked code grant m l hgrant h
    rw [← hc.state, hstate]
  · intro m l' h
    obtain ⟨rfl, rfl⟩ | ⟨-, h⟩ := logins_setLogin h
    · apply hsound
    · apply hs.logins m l' h
  · intro hsupports code grant m l' hgrant h hpkce hurl
    obtain ⟨l, h, hc⟩ := hbefore m l' h
    apply hs.exclusive hsupports code grant m l hgrant h (hc.pkce ▸ hpkce)
    rw [hurl, hc.authorizeUrl]

theorem sound_onLogin (hs : s.Sound supportsPkce) {n : ℕ}
    {f : Login sha256 User → Login sha256 User} (hsame : ∀ login : Login sha256 User, login.Continues (f login))
    (hsound : ∀ login, s.logins n = some login → (f login).Sound s.grants n) :
  (s.onLogin n f).Sound supportsPkce
  := by
  rw [World.onLogin]
  split
  · apply hs
  · next login hlogin => apply sound_setLogin hs hlogin (hsame login) (hsound login hlogin)

/-- A login that has just begun has nothing to answer for. -/
theorem sound_start (hs : s.Sound supportsPkce) {n : ℕ} {login : Login sha256 User}
    (hphase : login.phase = .opening) (hpromise : login.callbackServer.promise = .pending)
    (hfresh : s.Fresh login) :
  (s.setLogin n login).Sound supportsPkce
  := by
  obtain ⟨hdrawn, hguessed⟩ := hfresh
  constructor
  · intro n' m' l₁ l₂ h₁ h₂ heq
    obtain ⟨rfl, rfl⟩ | ⟨-, hold₁⟩ := logins_setLogin h₁ <;>
      obtain ⟨rfl, rfl⟩ | ⟨-, hold₂⟩ := logins_setLogin h₂
    · rfl
    · exact absurd heq.symm (hdrawn m' l₂ hold₂).1
    · exact absurd heq (hdrawn n' l₁ hold₁).1
    · apply hs.states n' m' l₁ l₂ hold₁ hold₂ heq
  · intro n' m' l₁ l₂ h₁ h₂ pkce hpkce pkce' hpkce' heq
    obtain ⟨rfl, rfl⟩ | ⟨-, hold₁⟩ := logins_setLogin h₁ <;>
      obtain ⟨rfl, rfl⟩ | ⟨-, hold₂⟩ := logins_setLogin h₂
    · rfl
    · exact absurd heq.symm ((hdrawn m' l₂ hold₂).2 pkce' hpkce' pkce hpkce)
    · exact absurd heq ((hdrawn n' l₁ hold₁).2 pkce hpkce pkce' hpkce')
    · apply hs.challenges n' m' l₁ l₂ hold₁ hold₂ pkce hpkce pkce' hpkce' heq
  · intro code grant m l hgrant h hstate
    obtain ⟨rfl, rfl⟩ | ⟨-, h⟩ := logins_setLogin h
    · exact absurd hstate (hguessed code grant hgrant)
    · apply hs.asked code grant m l hgrant h hstate
  · intro m l h
    obtain ⟨rfl, rfl⟩ | ⟨-, h⟩ := logins_setLogin h
    · constructor
      · intro callback hcallback
        rw [hpromise] at hcallback
        cases hcallback
      · intro code hexchanging
        rw [hphase] at hexchanging
        cases hexchanging
      · intro token hdone
        rw [hphase] at hdone
        cases hdone
    · apply hs.logins m l h
  · intro hsupports code grant m l hgrant h hpkce hurl
    obtain ⟨rfl, rfl⟩ | ⟨-, h⟩ := logins_setLogin h
    · apply absurd _ (hguessed code grant hgrant)
      rw [hurl, Login.authorizeUrl_state]
    · apply hs.exclusive hsupports code grant m l hgrant h hpkce hurl

/-! ### Steps of the provider -/

/-- Whoever opens a URL with the state of a login is its user, and the URL is that of the login. -/
theorem opens_state (hs : s.Sound supportsPkce) {user : User} {url : SearchParams}
    (hopens : s.Opens user url) {n : ℕ} {login : Login sha256 User}
    (hlogin : s.logins n = some login) (hstate : url.get "state" = some login.state) :
  url = login.authorizeUrl ∧ user = login.owner
  := by
  obtain hsayable | ⟨m, login', hlogin', howner, rfl⟩ := hopens
  · apply absurd _ (hsayable _ (SearchParams.mem_of_get hstate))
    use n, login, hlogin
    exact .inl rfl
  · rw [Login.authorizeUrl_state] at hstate
    obtain rfl := hs.states m n login' login hlogin' hlogin (Option.some.inj hstate)
    obtain rfl := Option.some.inj (hlogin'.symm.trans hlogin)
    exact ⟨rfl, howner.symm⟩

theorem grants_setGrant {code code' : String} {grant grant' : Grant User}
    (h : (s.setGrant code grant).grants code' = some grant') :
  code' = code ∧ grant' = grant ∨ s.grants code' = some grant'
  := by
  by_cases hcode : code' = code
  · subst hcode
    rw [s.setGrant_self] at h
    exact .inl ⟨rfl, (Option.some.inj h).symm⟩
  · rw [s.setGrant_of_ne hcode] at h
    exact .inr h

theorem sound_authorize (hs : s.Sound supportsPkce) {user : User} {url : SearchParams}
    {code : String} (hnew : s.grants code = none) (hopens : s.Opens user url) :
  (s.setGrant code ⟨user, url, []⟩).Sound supportsPkce
  where
  states := hs.states
  challenges := hs.challenges
  asked code' grant n login hgrant hlogin hstate := by
    obtain ⟨-, rfl⟩ | hgrant := grants_setGrant hgrant
    · apply opens_state hs hopens hlogin hstate
    · apply hs.asked code' grant n login hgrant hlogin hstate
  logins n login hlogin := (hs.logins n login hlogin).mono (extends_setGrant_new hnew _)
  exclusive hsupports code' grant n login hgrant hlogin hpkce hurl redemption hmem := by
    obtain ⟨-, rfl⟩ | hgrant := grants_setGrant hgrant
    · cases hmem
    · apply hs.exclusive hsupports code' grant n login hgrant hlogin hpkce hurl redemption hmem

theorem logins_issue (code : String) (presenter : Presenter) (payload : TokenPayload) :
  (s.issue code presenter payload).logins = s.logins
  := by
  rw [World.issue]
  split <;> rfl

/-- The provider hands out tokens for a code, which one who is not a login with the challenge of
the grant does not get. -/
theorem sound_issue (hs : s.Sound supportsPkce) {code : String} {presenter : Presenter}
    (payload : TokenPayload)
    (hpresenter : supportsPkce = true → ∀ grant n login, s.grants code = some grant →
      s.logins n = some login → login.pkce.isSome → grant.url = login.authorizeUrl →
        presenter = .login n) :
  (s.issue code presenter payload).Sound supportsPkce
  := by
  have hextends := extends_issue s code presenter payload
  have hlogins := logins_issue (s := s) code presenter payload
  have hbefore : ∀ code' grant', (s.issue code presenter payload).grants code' = some grant' →
      ∃ grant, s.grants code' = some grant ∧ grant'.user = grant.user ∧ grant'.url = grant.url ∧
        (grant' = grant ∨
          code' = code ∧ grant'.redemptions = (presenter, payload) :: grant.redemptions) := by
    intro code' grant' h
    rw [World.issue] at h
    split at h
    · use grant', h, rfl, rfl
      exact .inl rfl
    · next grant hgrant =>
        obtain ⟨rfl, rfl⟩ | h := grants_setGrant h
        · use grant, hgrant, rfl, rfl
          exact .inr ⟨rfl, rfl⟩
        · use grant', h, rfl, rfl
          exact .inl rfl
  constructor
  · rw [hlogins]
    apply hs.states
  · rw [hlogins]
    apply hs.challenges
  · intro code' grant' n login hgrant' hlogin hstate
    rw [hlogins] at hlogin
    obtain ⟨grant, hgrant, huser, hurl, -⟩ := hbefore code' grant' hgrant'
    rw [hurl] at hstate ⊢
    rw [huser]
    apply hs.asked code' grant n login hgrant hlogin hstate
  · intro n login hlogin
    rw [hlogins] at hlogin
    apply (hs.logins n login hlogin).mono hextends
  · intro hsupports code' grant' n login hgrant' hlogin hpkce hown redemption hmem
    rw [hlogins] at hlogin
    obtain ⟨grant, hgrant, -, hurl, rfl | ⟨rfl, hredemptions⟩⟩ := hbefore code' grant' hgrant'
    · apply hs.exclusive hsupports code' _ n login hgrant hlogin hpkce hown redemption hmem
    · rw [hurl] at hown
      rw [hredemptions] at hmem
      obtain rfl | hmem := List.mem_cons.mp hmem
      · apply hpresenter hsupports grant n login hgrant hlogin hpkce hown
      · apply hs.exclusive hsupports code' grant n login hgrant hlogin hpkce hown redemption hmem

/-- What verifies a grant that a login has asked for has the challenge of the login. -/
theorem verified_challenge {grant : Grant User} {body : SearchParams}
    (h : Verified sha256 true grant body) {login : Login sha256 User} {pkce : PkcePair sha256}
    (hpkce : login.pkce = some pkce) (hurl : grant.url = login.authorizeUrl) :
  ∃ verifier, body.get "code_verifier" = some verifier ∧
    challengeOf sha256 verifier = pkce.challenge
  := by
  obtain ⟨hchallenge, hmethod⟩ := Login.authorizeUrl_challenge hpkce
  rw [← hurl] at hchallenge hmethod
  apply h rfl hmethod _ hchallenge

/-- A login is given tokens for a code. -/
theorem sound_issue_login (hs : s.Sound supportsPkce) {code : String} {n : ℕ}
    {login : Login sha256 User} (hlogin : s.logins n = some login) (payload : TokenPayload)
    {grant : Grant User} (hgrant : s.grants code = some grant)
    (hverified : Verified sha256 supportsPkce grant (login.tokenBody code)) :
  (s.issue code (.login n) payload).Sound supportsPkce
  := by
  apply sound_issue hs payload
  intro hsupports grant' m login' hgrant' hlogin' hpkce' hown
  obtain rfl := Option.some.inj (hgrant.symm.trans hgrant')
  obtain ⟨pkce', hpkce'⟩ := Option.isSome_iff_exists.mp hpkce'
  rw [hsupports] at hverified
  obtain ⟨verifier, hverifier, hchallenge⟩ := verified_challenge hverified hpkce' hown
  rw [Login.tokenBody_verifier] at hverifier
  obtain ⟨pkce, hpkce, rfl⟩ := Option.map_eq_some_iff.mp hverifier
  rw [← pkce.challenge_eq] at hchallenge
  rw [hs.challenges n m login login' hlogin hlogin' pkce hpkce pkce' hpkce' hchallenge]

/-- The intruder is given tokens for a code. -/
theorem sound_redeem (hs : s.Sound supportsPkce) {code : String} {body : SearchParams}
    (payload : TokenPayload) (hsayable : s.Sayable body)
    (hcollision : ∀ verifier ∈ body.get "code_verifier", s.NoCollision verifier)
    {grant : Grant User} (hgrant : s.grants code = some grant)
    (hverified : Verified sha256 supportsPkce grant body) :
  (s.issue code .intruder payload).Sound supportsPkce
  := by
  apply sound_issue hs payload
  intro hsupports grant' m login' hgrant' hlogin' hpkce' hown
  obtain rfl := Option.some.inj (hgrant.symm.trans hgrant')
  obtain ⟨pkce', hpkce'⟩ := Option.isSome_iff_exists.mp hpkce'
  rw [hsupports] at hverified
  obtain ⟨verifier, hverifier, hchallenge⟩ := verified_challenge hverified hpkce' hown
  have heq := hcollision verifier hverifier m login' hlogin' pkce' hpkce' hchallenge
  apply absurd _ (hsayable _ (SearchParams.mem_of_get hverifier))
  use m, login', hlogin'
  exact .inr ⟨pkce', hpkce', heq.symm⟩

/-! ### Whole runs -/

theorem sound_finish {grants : String → Option (Grant User)} {n : ℕ} {login : Login sha256 User}
    (hsound : login.Sound grants n) {phase : LoginPhase}
    (hexchanging : ∀ code, phase ≠ .exchanging code)
    (hdone : ∀ token, phase = .done token → Earned grants n login token) :
  (login.finish phase).Sound grants n
  where
  callback := hsound.callback
  exchanging code hphase := absurd hphase (hexchanging code)
  done := hdone

/-- A promise resolves with what it is settled with, or had resolved before. -/
theorem CallbackPromise.settle_eq {promise settled : CallbackPromise}
    {result : OAuthCallbackResult} (h : promise.settle settled = .resolved result) :
  settled = .resolved result ∨ promise = .resolved result
  := by
  cases promise with
  | pending => exact .inl h
  | resolved result' => exact .inr h
  | rejected => cases h

/-- A request that carries the state of a login was sent by the provider. -/
theorem sound_onRequest {n : ℕ} {login : Login sha256 User} (hlogin : s.logins n = some login)
    (hsound : login.Sound s.grants n) {request : CallbackRequest} (hsends : s.Sends request) :
  (login.onRequest request).Sound s.grants n
  := by
  refine ⟨?_, hsound.exchanging, hsound.done⟩
  intro callback hcallback hstate
  simp only [Login.onRequest, LocalCallbackServer.onRequest] at hcallback
  split at hcallback
  · apply hsound.callback callback hcallback hstate
  · split at hcallback
    · obtain h | h := CallbackPromise.settle_eq hcallback
      · cases h
      · apply hsound.callback callback h hstate
    · next payload hpayload =>
        obtain h | h := CallbackPromise.settle_eq hcallback
        · injection h with h
          subst h
          obtain hpublic | ⟨grant, hgrant, hasked⟩ := hsends _ hpayload
          · apply absurd _ hpublic
            use n, login, hlogin
            exact .inl hstate.symm
          · use grant, hgrant
            rw [hasked, hstate]
        · apply hsound.callback callback h hstate

theorem sound_resume {grants : String → Option (Grant User)} {n : ℕ} {login : Login sha256 User}
    (hsound : login.Sound grants n) :
  login.resume.Sound grants n
  := by
  rw [Login.resume]
  split
  · apply hsound
  · apply sound_finish hsound <;> simp
  · next callback hcallback =>
      split
      · apply sound_finish hsound <;> simp
      · next hstate =>
          refine ⟨hsound.callback, ?_, by simp⟩
          intro code hphase
          injection hphase with hphase
          subst hphase
          apply hsound.callback callback hcallback (of_not_not hstate)

/-- A response with tokens was noted by the provider. -/
theorem sound_exchanged {grants : String → Option (Grant User)} {n : ℕ}
    {login : Login sha256 User} (hsound : login.Sound grants n) {response : TokenResponse}
    (now : ℕ) {code : String} {grant : Grant User} (hasked : Asked grants login code)
    (hgrant : grants code = some grant)
    (hnoted : ∀ payload, response = .ok payload → (Presenter.login n, payload) ∈ grant.redemptions) :
  (login.exchanged response now).Sound grants n
  := by
  unfold Login.exchanged
  split
  · apply sound_finish hsound <;> simp
  · apply sound_finish hsound <;> simp
  · next payload =>
      split
      · next token htoken =>
          apply sound_finish hsound (by simp)
          intro token' hdone
          injection hdone with hdone
          subst hdone
          obtain ⟨grant', hgrant', hstate⟩ := hasked
          obtain rfl := Option.some.inj (hgrant.symm.trans hgrant')
          use code, grant, payload, now, hgrant, hstate, hnoted payload rfl
      · apply sound_finish hsound <;> simp

theorem answering_eq {n : ℕ} {login : Login sha256 User} {code : String}
    (hlogin : s.logins n = some login) (hphase : login.phase = .exchanging code)
    (issued : Option TokenPayload) :
  s.answering n issued = issued.elim s fun payload => s.issue code (.login n) payload
  := by
  simp only [World.answering, hlogin, Option.map_some, hphase]
  cases issued <;> rfl

/-- A login whose code was asked for with its state goes on with the answer. -/
theorem sound_answer (hs : s.Sound supportsPkce) {n : ℕ} {issued : Option TokenPayload}
    {response : TokenResponse} (now : ℕ)
    (he : s.Enabled supportsPkce (.answer n issued response now)) :
  (s.next (.answer n issued response now)).Sound supportsPkce
  := by
  obtain ⟨hissued, login, code, hlogin, hphase, hverified⟩ := he
  obtain ⟨grant, hgrant, hstate⟩ := (hs.logins n login hlogin).exchanging code hphase
  have hanswering := answering_eq hlogin hphase issued
  have hlogins : (s.answering n issued).logins n = some login := by
    rw [hanswering]
    cases issued with
    | none => apply hlogin
    | some payload => exact (congrFun (logins_issue ..) n).trans hlogin
  have hsound : (s.answering n issued).Sound supportsPkce := by
    rw [hanswering]
    cases issued with
    | none => apply hs
    | some payload =>
        obtain ⟨grant', hgrant', hverified⟩ := hverified payload rfl
        apply sound_issue_login hs hlogin payload hgrant' hverified
  have hnoted : ∃ grant, (s.answering n issued).grants code = some grant ∧
      ∀ payload, response = .ok payload → (Presenter.login n, payload) ∈ grant.redemptions := by
    rw [hanswering]
    cases issued with
    | none =>
        use grant, hgrant
        intro payload hresponse
        cases hissued payload hresponse
    | some payload' =>
        rw [Option.elim_some, World.issue, hgrant]
        refine ⟨_, s.setGrant_self _ _, ?_⟩
        intro payload hresponse
        obtain rfl := Option.some.inj (hissued payload hresponse)
        apply List.mem_cons_self
  obtain ⟨grant', hgrant', hnoted⟩ := hnoted
  apply sound_onLogin hsound fun login => login.continues_exchanged response now
  intro login' hlogin'
  obtain rfl : login = login' := Option.some.inj (hlogins.symm.trans hlogin')
  have hlogin' := hsound.logins n login hlogin'
  apply sound_exchanged hlogin' now (hlogin'.exchanging code hphase) hgrant' hnoted

theorem sound_next (hs : s.Sound supportsPkce) {e : LoginEvent User}
    (he : s.Enabled supportsPkce e) :
  (s.next e).Sound supportsPkce
  := by
  cases e with
  | start n config owner allocated verifierBytes stateBytes =>
      apply sound_start hs rfl rfl he.2.2.2.2
  | opened n ok =>
      apply sound_onLogin hs fun login => login.continues_opened ok
      intro login hlogin
      have hsound := hs.logins n login hlogin
      cases ok with
      | true => exact ⟨hsound.callback, by simp [Login.opened], by simp [Login.opened]⟩
      | false => apply sound_finish hsound <;> simp
  | authorize user url code => apply sound_authorize hs he.1 he.2
  | request n request =>
      apply sound_onLogin hs fun login => login.continues_onRequest request
      intro login hlogin
      apply sound_onRequest hlogin (hs.logins n login hlogin) he.2
  | timeout n =>
      apply sound_onLogin hs fun login => login.continues_finish _
      intro login hlogin
      apply sound_finish (hs.logins n login hlogin) <;> simp
  | resume n =>
      apply sound_onLogin hs Login.continues_resume
      intro login hlogin
      apply sound_resume (hs.logins n login hlogin)
  | answer n issued response now => apply sound_answer hs now he
  | redeem code body payload =>
      obtain ⟨hsayable, hcollision, grant, hgrant, hverified⟩ := he
      apply sound_redeem hs payload hsayable hcollision hgrant hverified

theorem step_of_enabled {e : LoginEvent User} (he : s.Enabled supportsPkce e) :
  (system sha256 User supportsPkce).Step s (s.next e)
  := ⟨e, he, rfl⟩

/-- Whatever links the users open, whatever requests reach the local servers and whichever codes
the intruder presents, a login that succeeds has the tokens of a grant that its own user gave at
its own URL; and if the provider supports challenges, the codes of grants that were given at the
URL of a login that uses one get nobody else tokens. -/
theorem login_agreement (h : (system sha256 User supportsPkce).Reaches .initial s) {n : ℕ}
    {login : Login sha256 User} (hlogin : s.logins n = some login) :
  (∀ token, login.phase = .done token →
      ∃ code grant payload now, s.grants code = some grant ∧ grant.user = login.owner ∧
        grant.url = login.authorizeUrl ∧ (.login n, payload) ∈ grant.redemptions ∧
          toTokenSet payload none true now = .ok token) ∧
    (supportsPkce = true → login.pkce.isSome → ∀ code grant, s.grants code = some grant →
      grant.url = login.authorizeUrl →
        ∀ redemption ∈ grant.redemptions, redemption.1 = .login n)
  := by
  have hs : s.Sound supportsPkce :=
    h.preserves (I := World.Sound supportsPkce) (fun s e hs he => sound_next hs he) sound_initial
  constructor
  · intro token hdone
    obtain ⟨code, grant, payload, now, hgrant, hstate, hmem, htoken⟩ :=
      (hs.logins n login hlogin).done token hdone
    obtain ⟨hurl, huser⟩ := hs.asked code grant n login hgrant hlogin hstate
    use code, grant, payload, now, hgrant, huser, hurl, hmem, htoken
  · intro hsupports hpkce code grant hgrant hurl
    apply hs.exclusive hsupports code grant n login hgrant hlogin hpkce hurl

/-! ### A login with a challenge -/

/-- The bytes of a verifier. -/
def sampleRandom : List UInt8 :=
  [116, 24, 223, 180, 151, 153, 224, 37, 79, 250, 96, 125, 216, 173, 187, 186, 22, 212, 37, 77,
    105, 214, 191, 240, 91, 88, 5, 88, 83, 132, 141, 121]

/-- SHA-256 on that verifier, and on nothing else. -/
def sampleSha256 (bytes : List UInt8) : List UInt8 :=
  if bytes = utf8Encode "dBjftJeZ4CVP-mB92K27uhbUJU1p1r_wW1gFWFOEjXk".toList then
    [19, 211, 30, 150, 26, 26, 216, 236, 47, 22, 177, 12, 76, 152, 46, 8, 118, 168, 120, 173, 109,
      241, 68, 86, 110, 225, 137, 74, 203, 112, 249, 195]
  else []

/-- The challenge of that verifier. -/
example : (generatePkcePair sampleSha256 sampleRandom).challenge =
    "E9Melhoa2OwvFrEMTJguCHaoeK1t8URWbuGJSstw-cM" := by decide +kernel

def sampleConfig : LoginConfig where
  clientId := "cli"
  clientSecret := none
  scopes := ["openid", "offline_access"]
  pkce := none
  redirectPort := none
  endpointParams := ⟨[]⟩

def samplePayload : TokenPayload := ⟨some "access", none, some 60, some "refresh", none⟩

/-- The login at its beginning. -/
def sampleLogin : Login sampleSha256 ℕ :=
  .start sampleConfig 1 8931 sampleRandom (List.replicate 24 0)

def sampleCallback : CallbackRequest :=
  ⟨"/oauth2/callback", ⟨[("code", "code"), ("state", sampleLogin.state)]⟩⟩

/-- The login until its end. -/
def sampleEvents : List (LoginEvent ℕ) :=
  [.start 0 sampleConfig 1 8931 sampleRandom (List.replicate 24 0), .opened 0 true,
    .authorize 1 sampleLogin.authorizeUrl "code", .request 0 sampleCallback, .resume 0,
    .answer 0 (some samplePayload) (.ok samplePayload) 5]

/-- The world after some of its events. -/
def sampleWorld (n : ℕ) : World sampleSha256 ℕ :=
  (sampleEvents.take n).foldl World.next .initial

/-- The provider accepts the verifier of the login that has asked. -/
theorem verified_tokenBody {login : Login sha256 User} {grant : Grant User}
    (hurl : grant.url = login.authorizeUrl) (hpkce : login.pkce.isSome) (code : String) :
  Verified sha256 supportsPkce grant (login.tokenBody code)
  := by
  intro _ _ challenge hchallenge
  obtain ⟨pkce, hpkce⟩ := Option.isSome_iff_exists.mp hpkce
  rw [hurl, (Login.authorizeUrl_challenge hpkce).1] at hchallenge
  use pkce.verifier
  rw [Login.tokenBody_verifier, hpkce, ← Option.some.inj hchallenge]
  exact ⟨rfl, pkce.challenge_eq.symm⟩

theorem reaches_sampleWorld :
  (system sampleSha256 ℕ true).Reaches .initial (sampleWorld 6)
  := by
  have hfresh : World.initial.Fresh sampleLogin := by
    constructor
    · intro n login h
      cases h
    · intro code grant h
      cases h
  have hstart : (sampleWorld 0).Enabled true
      (.start 0 sampleConfig 1 8931 sampleRandom (List.replicate 24 0)) :=
    ⟨rfl, rfl, rfl, fun h => absurd rfl h, hfresh⟩
  have hopened : (sampleWorld 1).Enabled true (.opened 0 true) := ⟨_, rfl, rfl⟩
  have hauthorize : (sampleWorld 2).Enabled true
      (.authorize 1 sampleLogin.authorizeUrl "code") :=
    ⟨rfl, .inr ⟨0, _, rfl, rfl, rfl⟩⟩
  have hsends : (sampleWorld 3).Sends sampleCallback := by
    intro payload h
    obtain rfl := Option.some.inj h
    exact .inr ⟨⟨1, sampleLogin.authorizeUrl, []⟩, rfl, sampleLogin.authorizeUrl_state⟩
  have hrequest : (sampleWorld 3).Enabled true (.request 0 sampleCallback) :=
    ⟨⟨_, rfl, rfl⟩, hsends⟩
  have hresume : (sampleWorld 4).Enabled true (.resume 0) := ⟨_, rfl, rfl, by intro h; cases h⟩
  have hanswer : (sampleWorld 5).Enabled true
      (.answer 0 (some samplePayload) (.ok samplePayload) 5) :=
    ⟨fun _ h => congrArg some (TokenResponse.ok.inj h), _, "code", rfl, rfl, fun _ _ =>
      ⟨⟨1, sampleLogin.authorizeUrl, []⟩, rfl, verified_tokenBody rfl rfl _⟩⟩
  apply Relation.ReflTransGen.tail _ (step_of_enabled hanswer)
  apply Relation.ReflTransGen.tail _ (step_of_enabled hresume)
  apply Relation.ReflTransGen.tail _ (step_of_enabled hrequest)
  apply Relation.ReflTransGen.tail _ (step_of_enabled hauthorize)
  apply Relation.ReflTransGen.tail _ (step_of_enabled hopened)
  apply Relation.ReflTransGen.single (step_of_enabled hstart)

theorem login_agreement_sample :
  ∃ login token, (sampleWorld 6).logins 0 = some login ∧ login.phase = .done token ∧
    ∃ code grant payload now, (sampleWorld 6).grants code = some grant ∧
      grant.user = login.owner ∧ grant.url = login.authorizeUrl ∧
        (.login 0, payload) ∈ grant.redemptions ∧ toTokenSet payload none true now = .ok token
  := ⟨_, _, rfl, rfl, (login_agreement reaches_sampleWorld rfl).1 _ rfl⟩

end BrowserLogin
