import OpencodeToolbelt.Data.JsMap
import OpencodeToolbelt.Data.JsString
import Mathlib.Algebra.Order.Ring.Unbundled.Rat

/-!
# The token source

A credential helper prints an access token, which is kept until shortly before it expires.
Calls of `headers` that find no token wait for one run of the helper, which they share.
-/

namespace Telemetry

def EXPIRY_SKEW_MS : ℚ := 30000

def DEFAULT_REFRESH_MS : ℚ := 240000

/-- The options of a token source. -/
structure TokenSourceOptions where
  header : String := "Authorization"
  tokenPrefix : String := "Bearer "
  refreshMs : ℚ := DEFAULT_REFRESH_MS
  /-- The `exp` of a token, if it has a readable one, in milliseconds. -/
  readJwtExpiry : String → Option ℚ

/-- What becomes of a run of the helper. -/
inductive RunOutcome where
  | result (code : ℤ) (stdout : String)
  | rejected
  deriving DecidableEq

/-- The header that carries a token, by name and value. -/
abbrev TokenHeader := String × String

/-- How far a call of `headers` has got. -/
inductive HeadersCall where
  | awaiting (refresh : ℕ)
  | resolved (headers : Option TokenHeader)
  deriving DecidableEq

/-- The state of a token source. -/
structure TokenSource where
  token : Option String
  validUntil : ℚ
  inFlight : Option ℕ
  /-- The refreshes that have not settled, each with whether its helper is running. -/
  refreshes : JsMap ℕ Bool
  refreshSeq : ℕ

def createTokenSource : TokenSource where
  token := none
  validUntil := 0
  inFlight := none
  refreshes := .empty
  refreshSeq := 0

namespace TokenSource

variable (source : TokenSource)

/-- A token is held and has not aged out. -/
def usable (now : ℚ) : Bool := source.token.isSome && decide (now < source.validUntil)

/-- A run of the helper begins. -/
def refresh : TokenSource :=
  { source with
    inFlight := some source.refreshSeq
    refreshes := source.refreshes.set source.refreshSeq true
    refreshSeq := source.refreshSeq + 1 }

/-- The part of `headers` after its wait. -/
def present (options : TokenSourceOptions) (now : ℚ) : TokenSource × Option TokenHeader :=
  match source.token with
  | none => (source, none)
  | some token =>
      if source.validUntil ≤ now then ({ source with token := none }, none)
      else (source, some (options.header, options.tokenPrefix ++ token))

/-- A call of `headers`, up to its wait if there is one. -/
def headers (options : TokenSourceOptions) (now : ℚ) : TokenSource × HeadersCall :=
  if source.usable now then
    let (source, headers) := source.present options now
    (source, .resolved headers)
  else
    match source.inFlight with
    | some r => (source, .awaiting r)
    | none => (source.refresh, .awaiting source.refreshSeq)

/-- The token a run of the helper has printed, if it has succeeded. -/
def printed : RunOutcome → Option String
  | .rejected => none
  | .result code stdout =>
      let value := trim stdout
      if code ≠ 0 ∨ value = "" then none else some value

/-- The helper of a refresh ends, and the body of `refresh` with it. -/
def ran (options : TokenSourceOptions) (now : ℚ) (r : ℕ) (outcome : RunOutcome) : TokenSource :=
  let source := { source with refreshes := source.refreshes.set r false }
  match printed outcome with
  | none => source
  | some value =>
      let expiry := (options.readJwtExpiry value).filter (· ≠ 0)
      { source with
        token := some value
        validUntil := expiry.elim (now + options.refreshMs) (· - EXPIRY_SKEW_MS) }

/-- A refresh settles, its `finally` having run. -/
def settle (r : ℕ) : TokenSource :=
  { source with
    inFlight := none
    refreshes := source.refreshes.delete r }

def invalidate : TokenSource :=
  { source with
    token := none
    validUntil := 0 }

variable (options : TokenSourceOptions)

theorem token_of_present {now : ℚ} {token : String}
    (h : (source.present options now).1.token = some token) :
  source.token = some token
  := by
  unfold present at h
  split at h
  · apply h
  · split at h
    · cases h
    · apply h

theorem token_of_headers {now : ℚ} {token : String}
    (h : (source.headers options now).1.token = some token) :
  source.token = some token
  := by
  unfold headers at h
  split at h
  · apply source.token_of_present options h
  · split at h <;> apply h

/-- What a call presents carries the token that is held. -/
theorem eq_of_present {now : ℚ} {header : TokenHeader}
    (h : (source.present options now).2 = some header) :
  ∃ token, source.token = some token ∧ header = (options.header, options.tokenPrefix ++ token)
  := by
  unfold present at h
  split at h
  · cases h
  · next token htoken =>
      split at h
      · cases h
      · use token, htoken
        apply (Option.some.inj h).symm

/-- A usable token is presented. -/
theorem isSome_present {now : ℚ} (h : source.usable now = true) :
  (source.present options now).2.isSome
  := by
  obtain ⟨hsome, hlt⟩ := Bool.and_eq_true_iff.mp h
  obtain ⟨token, htoken⟩ := Option.isSome_iff_exists.mp hsome
  simp only [present, htoken]
  rw [if_neg (not_le.mpr (of_decide_eq_true hlt))]
  rfl

/-- Nothing is presented when there is no usable token. -/
theorem present_of_not_usable {now : ℚ} (h : source.usable now = false) :
  (source.present options now).2 = none
  := by
  unfold present
  split
  · rfl
  · next token htoken =>
      rw [usable, htoken, Option.isSome_some, Bool.true_and, decide_eq_false_iff_not, not_lt] at h
      rw [if_pos h]

/-- A call that does not wait has found a usable token. -/
theorem isSome_of_headers {now : ℚ} {headers : Option TokenHeader}
    (h : (source.headers options now).2 = .resolved headers) :
  ∃ header token, headers = some header ∧ source.token = some token ∧
    header = (options.header, options.tokenPrefix ++ token)
  := by
  unfold TokenSource.headers at h
  split at h
  · next husable =>
      obtain ⟨header, hheader⟩ :=
        Option.isSome_iff_exists.mp (source.isSome_present options husable)
      obtain ⟨token, htoken, heq⟩ := source.eq_of_present options hheader
      use header, token
      constructor
      · rw [← hheader]
        apply (HeadersCall.resolved.inj h).symm
      · exact ⟨htoken, heq⟩
  · split at h <;> cases h

theorem token_of_ran {now : ℚ} {r : ℕ} {outcome : RunOutcome} {token : String}
    (h : (source.ran options now r outcome).token = some token) :
  source.token = some token ∨ printed outcome = some token
  := by
  unfold ran at h
  simp only at h
  split at h
  · exact .inl h
  · next value hvalue =>
      right
      rw [hvalue]
      apply h

end TokenSource

end Telemetry
