import OpencodeToolbelt.AuthCore.Types
import OpencodeToolbelt.Data.JsValue
import Mathlib.Algebra.Order.Floor.Semiring
import Mathlib.Data.Rat.Floor

/-!
# The device code flow

The token endpoint is polled until the user has authorized the device or the device code expires.
The interval between the polls starts as the authorization response says and changes with the
answers.
-/

def DEFAULT_POLL_INTERVAL_SECONDS : ℕ := 5

def SLOW_DOWN_INCREMENT_SECONDS : ℕ := 5

def MAX_POLL_INTERVAL_SECONDS : ℕ := 60

structure DeviceAuthorizationResponse where
  deviceCode : String
  userCode : String
  verificationUri : String
  verificationUriComplete : Option String
  /-- In seconds. -/
  expiresIn : ℚ
  interval : Option ℕ
  expiresIn_pos : 0 < expiresIn
  interval_pos : ∀ seconds ∈ interval, 0 < seconds

inductive DeviceCodeError where
  | notAnObject
  | missing (field : String)
  | deviceCodeExpired
  | expiredToken
  | accessDenied
  | pollFailed (status : ℕ) (errorCode : JsValue)
  | token (e : AuthError)
  /-- What `fetch` or reading the body has thrown. -/
  | thrown

/-- A text that is there and not empty. -/
def requiredText (record : JsObject) (field : String) : Except DeviceCodeError String :=
  match record.get field with
  | .string s => if s = "" then .error (.missing field) else .ok s
  | _ => .error (.missing field)

def optionalText (record : JsObject) (field : String) : Option String :=
  match record.get field with
  | .string s => nonEmpty (some s)
  | _ => none

/-- The interval of an authorization response, rounded up to whole seconds. -/
def pollInterval (record : JsObject) : Option ℕ :=
  match record.get "interval" with
  | .number n => if 0 < n then some ⌈n⌉₊ else none
  | _ => none

theorem pollInterval_pos (record : JsObject) :
  ∀ seconds ∈ pollInterval record, 0 < seconds
  := by
  intro seconds h
  rw [pollInterval] at h
  split at h
  · next n _ =>
      split at h
      · next hn =>
          rw [← Option.some.inj h]
          apply Nat.ceil_pos.mpr hn
      · cases h
  · cases h

def parseDeviceAuthorizationResponse (payload : JsValue) :
    Except DeviceCodeError DeviceAuthorizationResponse :=
  let parse (record : JsObject) : Except DeviceCodeError DeviceAuthorizationResponse := do
    let deviceCode ← requiredText record "device_code"
    let userCode ← requiredText record "user_code"
    let verificationUri ← requiredText record "verification_uri"
    match record.get "expires_in" with
    | .number expiresIn =>
        if h : 0 < expiresIn then
          pure {
            deviceCode
            userCode
            verificationUri
            verificationUriComplete := optionalText record "verification_uri_complete"
            expiresIn
            interval := pollInterval record
            expiresIn_pos := h
            interval_pos := pollInterval_pos record }
        else .error (.missing "expires_in")
    | _ => .error (.missing "expires_in")
  match payload with
  | .object record => parse record
  | .array _ => parse []
  | _ => .error .notAnObject

namespace DeviceCode

/-! ### Polling -/

/-- What becomes of the request of a poll. The body of a successful response is none when it is
not the text of a JSON value with fields, that of an error response when it is not JSON. -/
inductive PollAnswer where
  /-- `fetch` throws a `TypeError`. -/
  | typeError
  /-- The network fails or the request times out. -/
  | transport
  | success (payload : Option TokenPayload) (receivedAt : ℕ)
  | refused (status : ℕ) (body : Option JsValue)

/-- A poll: by how much the sleep before it is too long, what becomes of the request and how long
that takes. -/
structure Poll where
  late : ℚ
  answer : PollAnswer
  duration : ℚ
  late_nonneg : 0 ≤ late
  duration_nonneg : 0 ≤ duration

structure PollState where
  now : ℚ
  intervalSeconds : ℕ
  consecutiveTransientFailures : ℕ

/-- How the loop goes on after a poll. -/
inductive PollStep where
  | again (intervalSeconds consecutiveTransientFailures : ℕ)
  | finish (result : Except DeviceCodeError TokenSet)

/-- The value of `errorPayload.error`, unless reading it throws. -/
def errorCode (body : Option JsValue) : Except DeviceCodeError JsValue :=
  match body with
  | some .null | some .undefined => .error .thrown
  | some (.object record) => .ok (JsObject.get record "error")
  | _ => .ok .undefined

/-- What the loop does with the answer of a poll. -/
def react (s : PollState) : PollAnswer → PollStep
  | .typeError => .finish (.error .thrown)
  | .transport =>
      .again (min (s.intervalSeconds + SLOW_DOWN_INCREMENT_SECONDS) MAX_POLL_INTERVAL_SECONDS)
        (s.consecutiveTransientFailures + 1)
  | .success none _ => .finish (.error .thrown)
  | .success (some payload) receivedAt =>
      .finish ((toTokenSet payload none true receivedAt).mapError .token)
  | .refused status body =>
      if 400 ≤ status ∧ status < 500 then
        match errorCode body with
        | .error e => .finish (.error e)
        | .ok (.string "authorization_pending") => .again s.intervalSeconds 0
        | .ok (.string "slow_down") =>
            .again (s.intervalSeconds + SLOW_DOWN_INCREMENT_SECONDS) 0
        | .ok (.string "expired_token") => .finish (.error .expiredToken)
        | .ok (.string "access_denied") => .finish (.error .accessDenied)
        | .ok code => .finish (.error (.pollFailed status code))
      else .finish (.error (.pollFailed status .undefined))

section Loop

variable (auth : DeviceAuthorizationResponse) (start : ℚ) (polls : ℕ → Poll)

/-- The interval before the first poll. -/
def initialInterval : ℕ := auth.interval.getD DEFAULT_POLL_INTERVAL_SECONDS

def deadlineMs : ℚ := start + auth.expiresIn * 1000

def remainingMs (s : PollState) : ℚ := deadlineMs auth start - s.now

/-- The sleep before a poll. -/
def waitMs (s : PollState) : ℚ := min (s.intervalSeconds * 1000) (remainingMs auth start s)

/-- The time at which a poll has been answered. -/
def answeredAt (s : PollState) (poll : Poll) : ℚ :=
  s.now + waitMs auth start s + poll.late + poll.duration

/-- How the loop ends: its result, when, and after how many polls. -/
structure Finish where
  result : Except DeviceCodeError TokenSet
  time : ℚ
  polls : ℕ

/-- The state in which the loop starts over, or how it ends, after as many polls as given. -/
def round (made : ℕ) (s : PollState) : PollState ⊕ Finish :=
  if remainingMs auth start s ≤ 0 then .inr ⟨.error .deviceCodeExpired, s.now, made⟩
  else
    let poll := polls made
    let time := answeredAt auth start s poll
    match react s poll.answer with
    | .again intervalSeconds failures => .inl ⟨time, intervalSeconds, failures⟩
    | .finish result => .inr ⟨result, time, made + 1⟩

/-- The state in which the loop starts over after some polls, unless it has ended. -/
def stateAt : ℕ → Option PollState
  | 0 => some ⟨start, initialInterval auth, 0⟩
  | made + 1 => (stateAt made).bind fun s => (round auth start polls made s).getLeft?

/-- How the loop ends when it starts over after some polls for the last time. -/
def finishAt (made : ℕ) : Option Finish :=
  (stateAt auth start polls made).bind fun s => (round auth start polls made s).getRight?

/-- The wait before the poll that comes after as many others. -/
def waitAt (made : ℕ) : Option ℚ :=
  (stateAt auth start polls made).bind fun s =>
    if remainingMs auth start s ≤ 0 then none else some (waitMs auth start s)

end Loop

end DeviceCode
