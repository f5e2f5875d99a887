import OpencodeToolbelt.AuthCore.Types
import OpencodeToolbelt.Async.EventSystem
import OpencodeToolbelt.Data.Base64

/-!
# Logins in a browser

A login opens the authorization endpoint in the browser of its user, waits for the browser to call
its local server back and exchanges the code it is called back with. The browsers, the identity
provider and an intruder are the environment: the intruder knows every code, makes links that
browsers open and requests that reach the local servers, and presents codes itself, but it cannot
say what a login has drawn.
-/

/-- The query of a URL, or the fields of a form: `URLSearchParams` -/
structure SearchParams where
  entries : List (String × String)
  deriving DecidableEq

namespace SearchParams

def get (params : SearchParams) (name : String) : Option String := params.entries.lookup name

/-- The first parameter of the name gets the value, and the others of the name are dropped. -/
def setEntry (name value : String) : List (String × String) → List (String × String)
  | [] => [(name, value)]
  | entry :: entries =>
      if entry.1 = name then (name, value) :: entries.filter (·.1 ≠ name)
      else entry :: setEntry name value entries

def set (params : SearchParams) (name value : String) : SearchParams :=
  ⟨setEntry name value params.entries⟩

/-- Parameters that are set one after the other. -/
def setAll (params : SearchParams) (entries : List (String × String)) : SearchParams :=
  entries.foldl (fun params entry => params.set entry.1 entry.2) params

theorem lookup_cons_of_ne {name : String} {entry : String × String} (hne : name ≠ entry.1)
    (entries : List (String × String)) :
  (entry :: entries).lookup name = entries.lookup name
  := by rw [List.lookup_cons, beq_false_of_ne hne]

theorem lookup_setEntry (name value : String) (entries : List (String × String)) :
  (setEntry name value entries).lookup name = some value
  := by
  induction entries with
  | nil => apply List.lookup_cons_self
  | cons entry entries ih =>
      rw [setEntry]
      split
      · apply List.lookup_cons_self
      · next hne => rw [lookup_cons_of_ne (Ne.symm hne), ih]

theorem lookup_filter {name name' : String} (hne : name' ≠ name)
    (entries : List (String × String)) :
  (entries.filter (·.1 ≠ name)).lookup name' = entries.lookup name'
  := by
  induction entries with
  | nil => rfl
  | cons entry entries ih =>
      by_cases hname : entry.1 = name
      · rw [List.filter_cons_of_neg (by simpa using hname), ih,
          lookup_cons_of_ne (by simpa [hname] using hne)]
      · rw [List.filter_cons_of_pos (by simpa using hname), List.lookup_cons, List.lookup_cons, ih]

theorem lookup_setEntry_of_ne {name name' : String} (hne : name' ≠ name) (value : String)
    (entries : List (String × String)) :
  (setEntry name value entries).lookup name' = entries.lookup name'
  := by
  induction entries with
  | nil => apply lookup_cons_of_ne hne
  | cons entry entries ih =>
      rw [setEntry]
      split
      · next hname =>
          rw [lookup_cons_of_ne hne, lookup_filter hne, lookup_cons_of_ne (hname ▸ hne)]
      · rw [List.lookup_cons, List.lookup_cons, ih]

@[simp] theorem get_set (params : SearchParams) (name value : String) :
  (params.set name value).get name = some value
  := lookup_setEntry name value params.entries

theorem get_set_of_ne {name name' : String} (hne : name' ≠ name) (params : SearchParams)
    (value : String) :
  (params.set name value).get name' = params.get name'
  := lookup_setEntry_of_ne hne value params.entries

theorem mem_of_get {params : SearchParams} {name value : String}
    (h : params.get name = some value) :
  (name, value) ∈ params.entries
  := by
  obtain ⟨before, after, heq, -⟩ := List.lookup_eq_some_iff.mp h
  simp [heq]

end SearchParams

namespace BrowserLogin

/-! ### The local server -/

/-- A request to the local server, its URL parsed. -/
structure CallbackRequest where
  pathname : String
  searchParams : SearchParams

structure OAuthCallbackResult where
  code : String
  state : String
  deriving DecidableEq

def parseCallback (request : CallbackRequest) : Option OAuthCallbackResult := do
  let code ← nonEmpty (request.searchParams.get "code")
  let state ← nonEmpty (request.searchParams.get "state")
  pure { code, state }

inductive CallbackPromise where
  | pending
  | resolved (result : OAuthCallbackResult)
  | rejected
  deriving DecidableEq

/-- A promise settles once. -/
def CallbackPromise.settle (promise : CallbackPromise) (settled : CallbackPromise) :
    CallbackPromise :=
  match promise with
  | .pending => settled
  | promise => promise

structure LocalCallbackServer where
  callbackPath : String
  port : ℕ
  promise : CallbackPromise
  closed : Bool

def listenPort (port : Option ℤ) : ℕ :=
  match port with
  | some port => if 0 ≤ port then port.toNat else 0
  | none => 0

/-- The server when it listens, at the port that it has been given. -/
def startLocalCallbackServer (callbackPath : String) (allocated : ℕ) : LocalCallbackServer where
  callbackPath
  port := allocated
  promise := .pending
  closed := false

namespace LocalCallbackServer

def redirectUri (server : LocalCallbackServer) : String :=
  "http://127.0.0.1:" ++ toString server.port ++ server.callbackPath

/-- The status of the response to a request, and the server afterwards. -/
def onRequest (server : LocalCallbackServer) (request : CallbackRequest) :
    ℕ × LocalCallbackServer :=
  if request.pathname ≠ server.callbackPath then (404, server)
  else
    match parseCallback request with
    | none => (400, { server with promise := server.promise.settle .rejected })
    | some payload => (200, { server with promise := server.promise.settle (.resolved payload) })

def close (server : LocalCallbackServer) : LocalCallbackServer := { server with closed := true }

end LocalCallbackServer

/-! ### The nonces -/

/-- What comes before the padding, in the alphabet of URLs. -/
def toBase64Url (buffer : List UInt8) : String :=
  let text := (Base64.encode false buffer).map fun c =>
    if c = '+' then '-' else if c = '/' then '_' else c
  .ofList (text.reverse.dropWhile (· = '=')).reverse

/-- The challenge of a verifier, with the hash function as a parameter. -/
def challengeOf (sha256 : List UInt8 → List UInt8) (verifier : String) : String :=
  toBase64Url (sha256 (utf8Encode verifier.toList))

structure PkcePair (sha256 : List UInt8 → List UInt8) where
  verifier : String
  challenge : String
  challenge_eq : challenge = challengeOf sha256 verifier

variable {sha256 : List UInt8 → List UInt8} {User : Type}

def generatePkcePair (sha256 : List UInt8 → List UInt8) (random : List UInt8) :
    PkcePair sha256 where
  verifier := toBase64Url random
  challenge := challengeOf sha256 (toBase64Url random)
  challenge_eq := rfl

def generateStateToken (random : List UInt8) : String := toBase64Url random

/-! ### The login -/

/-- What a login reads of the configuration of its server. -/
structure LoginConfig where
  clientId : String
  clientSecret : Option String
  scopes : List String
  pkce : Option Bool
  redirectPort : Option ℤ
  /-- The query that the authorization endpoint has by itself. -/
  endpointParams : SearchParams

inductive LoginError where
  | openFailed
  | invalidCallback
  | timedOut
  | stateMismatch
  | exchangeFailed (status : ℕ)
  | token (e : AuthError)

/-- How far `loginInteractive` has come. -/
inductive LoginPhase where
  /-- The browser is being opened. -/
  | opening
  /-- It awaits `waitForCode`. -/
  | waiting
  /-- It awaits the response of the token endpoint. -/
  | exchanging (code : String)
  | done (token : TokenSet)
  | failed (e : LoginError)

structure Login (sha256 : List UInt8 → List UInt8) (User : Type) where
  config : LoginConfig
  /-- Whose browser is opened. -/
  owner : User
  callbackServer : LocalCallbackServer
  pkce : Option (PkcePair sha256)
  state : String
  phase : LoginPhase

namespace Login

/-- The beginning of `loginInteractive`, with the port and the random bytes it is given. -/
def start (config : LoginConfig) (owner : User) (allocated : ℕ)
    (verifierBytes stateBytes : List UInt8) : Login sha256 User where
  config
  owner
  callbackServer := startLocalCallbackServer "/oauth2/callback" allocated
  pkce := if config.pkce ≠ some false then some (generatePkcePair sha256 verifierBytes) else none
  state := generateStateToken stateBytes
  phase := .opening

variable (login : Login sha256 User)

/-- The query of the URL that the browser is opened at. -/
def authorizeUrl : SearchParams :=
  let params := login.config.endpointParams.setAll
    [("response_type", "code"), ("client_id", login.config.clientId),
      ("redirect_uri", login.callbackServer.redirectUri),
      ("scope", " ".intercalate login.config.scopes)]
  let params :=
    match login.pkce with
    | none => params
    | some pkce =>
        params.setAll
          [("code_challenge", pkce.challenge), ("code_challenge_method", "S256")]
  params.set "state" login.state

/-- The form that is sent to the token endpoint. -/
def tokenBody (code : String) : SearchParams :=
  let body : SearchParams :=
    ⟨[("grant_type", "authorization_code"), ("code", code), ("client_id", login.config.clientId),
      ("redirect_uri", login.callbackServer.redirectUri)]⟩
  let body :=
    match login.pkce with
    | none => body
    | some pkce => body.set "code_verifier" pkce.verifier
  match nonEmpty login.config.clientSecret with
  | none => body
  | some clientSecret => body.set "client_secret" clientSecret

/-- The login ends, and its server is closed. -/
def finish (phase : LoginPhase) : Login sha256 User :=
  { login with
    phase
    callbackServer := login.callbackServer.close }

/-- The browser has been opened, or the URL shown, unless `onAuthorizationUrl` has thrown. -/
def opened (ok : Bool) : Login sha256 User :=
  if ok then { login with phase := .waiting } else login.finish (.failed .openFailed)

def onRequest (request : CallbackRequest) : Login sha256 User :=
  { login with callbackServer := (login.callbackServer.onRequest request).2 }

/-- The login goes on when the callback has arrived. -/
def resume : Login sha256 User :=
  match login.callbackServer.promise with
  | .pending => login
  | .rejected => login.finish (.failed .invalidCallback)
  | .resolved callback =>
      if callback.state ≠ login.state then login.finish (.failed .stateMismatch)
      else { login with phase := .exchanging callback.code }

/-- The login goes on with the response of the token endpoint. -/
def exchanged (response : TokenResponse) (now : ℕ) : Login sha256 User :=
  match response with
  | .failed => login.finish (.failed (.token .transport))
  | .status status => login.finish (.failed (.exchangeFailed status))
  | .ok payload =>
      match toTokenSet payload none true now with
      | .ok token => login.finish (.done token)
      | .error e => login.finish (.failed (.token e))

end Login

/-! ### The users, the identity provider and the intruder -/

/-- Who presents a code. -/
inductive Presenter where
  | login (n : ℕ)
  | intruder
  deriving DecidableEq

/-- What a user has allowed at the identity provider. -/
structure Grant (User : Type) where
  user : User
  /-- The query of the authorization endpoint at that time. -/
  url : SearchParams
  /-- Who got which tokens for its code. -/
  redemptions : List (Presenter × TokenPayload)

structure World (sha256 : List UInt8 → List UInt8) (User : Type) where
  logins : ℕ → Option (Login sha256 User)
  /-- The grants by their codes. -/
  grants : String → Option (Grant User)

inductive LoginEvent (User : Type) where
  | start (n : ℕ) (config : LoginConfig) (owner : User) (allocated : ℕ)
      (verifierBytes stateBytes : List UInt8)
  | opened (n : ℕ) (ok : Bool)
  /-- A user allows what the opened URL asks for, and a code is issued. -/
  | authorize (user : User) (url : SearchParams) (code : String)
  /-- A request reaches the local server of a login. -/
  | request (n : ℕ) (request : CallbackRequest)
  | timeout (n : ℕ)
  | resume (n : ℕ)
  /-- The token endpoint answers the request of a login. What it has issued may be lost. -/
  | answer (n : ℕ) (issued : Option TokenPayload) (response : TokenResponse) (now : ℕ)
  /-- The intruder presents a code, and gets tokens. -/
  | redeem (code : String) (body : SearchParams) (payload : TokenPayload)

/-- The verifier of a code that was asked for with its challenge is presented, if the provider
supports it. -/
def Verified (sha256 : List UInt8 → List UInt8) (supportsPkce : Bool) (grant : Grant User)
    (body : SearchParams) : Prop :=
  supportsPkce = true → grant.url.get "code_challenge_method" = some "S256" →
    ∀ challenge ∈ grant.url.get "code_challenge",
      ∃ verifier, body.get "code_verifier" = some verifier ∧
        challengeOf sha256 verifier = challenge

namespace World

variable (s : World sha256 User)

def initial : World sha256 User where
  logins _ := none
  grants _ := none

/-- A string that a login has drawn and tells nobody but its browser and the provider. -/
def Secret (v : String) : Prop :=
  ∃ n login, s.logins n = some login ∧
    (login.state = v ∨ ∃ pkce ∈ login.pkce, pkce.verifier = v)

/-- What a login draws differs from what has been drawn, and nobody has guessed its state. -/
def Fresh (login : Login sha256 User) : Prop :=
  (∀ n login', s.logins n = some login' →
    login'.state ≠ login.state ∧
      ∀ pkce' ∈ login'.pkce, ∀ pkce ∈ login.pkce, pkce'.challenge ≠ pkce.challenge) ∧
    ∀ code grant, s.grants code = some grant → grant.url.get "state" ≠ some login.state

/-- The intruder can make the parameters. -/
def Sayable (params : SearchParams) : Prop := ∀ entry ∈ params.entries, ¬ s.Secret entry.2

/-- A user opens a link that the intruder has made, or the browser is opened by a login. -/
def Opens (user : User) (url : SearchParams) : Prop :=
  s.Sayable url ∨
    ∃ n login, s.logins n = some login ∧ login.owner = user ∧ url = login.authorizeUrl

/-- A request that carries a code and a state is one of the intruder, or the provider has sent a
browser back with them. -/
def Sends (request : CallbackRequest) : Prop :=
  ∀ payload ∈ parseCallback request,
    ¬ s.Secret payload.state ∨
      ∃ grant, s.grants payload.code = some grant ∧ grant.url.get "state" = some payload.state

/-- No other verifier that the intruder finds has the challenge of a login. -/
def NoCollision (verifier : String) : Prop :=
  ∀ n login, s.logins n = some login → ∀ pkce ∈ login.pkce,
    challengeOf sha256 verifier = pkce.challenge → verifier = pkce.verifier

def setLogin (n : ℕ) (login : Login sha256 User) : World sha256 User :=
  { s with logins := Function.update s.logins n (some login) }

def setGrant (code : String) (grant : Grant User) : World sha256 User :=
  { s with grants := Function.update s.grants code (some grant) }

@[simp] theorem setLogin_self (n : ℕ) (login : Login sha256 User) :
  (s.setLogin n login).logins n = some login
  := Function.update_self _ _ _

theorem setLogin_of_ne {n m : ℕ} (hne : m ≠ n) (login : Login sha256 User) :
  (s.setLogin n login).logins m = s.logins m
  := Function.update_of_ne hne _ _

@[simp] theorem setGrant_self (code : String) (grant : Grant User) :
  (s.setGrant code grant).grants code = some grant
  := Function.update_self _ _ _

theorem setGrant_of_ne {code code' : String} (hne : code' ≠ code) (grant : Grant User) :
  (s.setGrant code grant).grants code' = s.grants code'
  := Function.update_of_ne hne _ _

/-- A login takes a step. -/
def onLogin (n : ℕ) (f : Login sha256 User → Login sha256 User) : World sha256 User :=
  match s.logins n with
  | none => s
  | some login => s.setLogin n (f login)

/-- The provider hands out tokens for a code. -/
def issue (code : String) (presenter : Presenter) (payload : TokenPayload) :
    World sha256 User :=
  match s.grants code with
  | none => s
  | some grant =>
      s.setGrant code { grant with redemptions := (presenter, payload) :: grant.redemptions }

/-- What the provider notes when it answers a login. -/
def answering (n : ℕ) (issued : Option TokenPayload) : World sha256 User :=
  match (s.logins n).map Login.phase, issued with
  | some (.exchanging code), some payload => s.issue code (.login n) payload
  | _, _ => s

def next : LoginEvent User → World sha256 User
  | .start n config owner allocated verifierBytes stateBytes =>
      s.setLogin n (.start config owner allocated verifierBytes stateBytes)
  | .opened n ok => s.onLogin n fun login => login.opened ok
  | .authorize user url code => s.setGrant code ⟨user, url, []⟩
  | .request n request => s.onLogin n fun login => login.onRequest request
  | .timeout n => s.onLogin n fun login => login.finish (.failed .timedOut)
  | .resume n => s.onLogin n Login.resume
  | .answer n issued response now =>
      (s.answering n issued).onLogin n fun login => login.exchanged response now
  | .redeem code _ payload => s.issue code .intruder payload

/-- Which events may occur. -/
def Enabled (supportsPkce : Bool) : LoginEvent User → Prop
  | .start n config owner allocated verifierBytes stateBytes =>
      s.logins n = none ∧ verifierBytes.length = 32 ∧ stateBytes.length = 24 ∧
        (listenPort config.redirectPort ≠ 0 → allocated = listenPort config.redirectPort) ∧
        s.Fresh (.start config owner allocated verifierBytes stateBytes)
  | .opened n _ => ∃ login, s.logins n = some login ∧ login.phase = .opening
  | .authorize user url code => s.grants code = none ∧ s.Opens user url
  | .request n request =>
      (∃ login, s.logins n = some login ∧ login.callbackServer.closed = false) ∧
        s.Sends request
  | .timeout n => ∃ login, s.logins n = some login ∧ login.phase = .waiting
  | .resume n =>
      ∃ login, s.logins n = some login ∧ login.phase = .waiting ∧
        login.callbackServer.promise ≠ .pending
  | .answer n issued response _ =>
      (∀ payload, response = .ok payload → issued = some payload) ∧
        ∃ login code, s.logins n = some login ∧ login.phase = .exchanging code ∧
          ∀ payload ∈ issued, ∃ grant, s.grants code = some grant ∧
            Verified sha256 supportsPkce grant (login.tokenBody code)
  | .redeem code body _ =>
      s.Sayable body ∧ (∀ verifier ∈ body.get "code_verifier", s.NoCollision verifier) ∧
        ∃ grant, s.grants code = some grant ∧ Verified sha256 supportsPkce grant body

end World

/-- Logins at one identity provider. -/
def system (sha256 : List UInt8 → List UInt8) (User : Type) (supportsPkce : Bool) :
    EventSystem (World sha256 User) (LoginEvent User) where
  enabled s e := s.Enabled supportsPkce e
  next s e := s.next e

end BrowserLogin
