import OpencodeToolbelt.Data.Fetch
import OpencodeToolbelt.Data.Host
import OpencodeToolbelt.Data.JsString
import Mathlib.Algebra.Order.Ring.Unbundled.Rat
import Mathlib.Data.Rat.Floor

/-!
# The policy for rate limits

What a response says about the rate limit of its bucket, and which tier of the policy it falls
under. Times are in milliseconds unless their name says otherwise.
-/

namespace RateLimit

inductive RateLimitAction where
  | wait
  | error
deriving DecidableEq

theorem eq_wait {action : RateLimitAction} (h : action ≠ .error) :
  action = .wait
  := by
  cases action with
  | wait => rfl
  | error => cases h rfl

inductive RateLimitScope where
  | provider
  | model
deriving DecidableEq

structure RateLimitTier where
  /-- The resets that the tier covers; `none` for all of them. -/
  maxResetSeconds : Option ℕ
  action : RateLimitAction
  maxWaitMs : ℕ
  maxRetries : ℕ

structure RateLimitOptions where
  scope : RateLimitScope
  headerPrefix : String
  tiers : List RateLimitTier
  tiers_ne_nil : tiers ≠ []

/-- What a response tells about the current window. -/
structure RateLimitSnapshot where
  limit : Option ℤ
  remaining : Option ℤ
  resetSeconds : Option ℤ
  resetAtMs : Option ℚ
  retryAfterMs : Option ℚ

/-! ### Headers -/

/-- `/^\d+$/` -/
def isDigits (text : List Char) : Bool := text ≠ [] && text.all Json.isDigit

def parseInteger (raw : Option String) : Option ℤ :=
  raw.bind fun raw =>
    let trimmed := (trim raw).toList
    let digits := if trimmed.head? = some '-' then trimmed.tail else trimmed
    if !isDigits digits then none
    else if trimmed.head? = some '-' then some (-readDigits 10 digits)
    else some (readDigits 10 digits)

def parseLimit (raw : Option String) : Option ℤ :=
  parseInteger <| raw.map fun raw =>
    String.ofList ((raw.toList.takeWhile (· ≠ ',')).takeWhile (· ≠ ';'))

variable (parseDate : String → Option ℚ)

def parseRetryAfter (raw : Option String) (nowMs : ℚ) : Option ℚ :=
  raw.bind fun raw =>
    let trimmed := trim raw
    if trimmed = "" then none
    else if isDigits trimmed.toList then some (readDigits 10 trimmed.toList * 1000)
    else (parseDate trimmed).map fun dateMs => max 0 (dateMs - nowMs)

def parseRateLimit (headers : Fetch.Headers) (headerPrefix : String) (nowMs : ℚ) :
    RateLimitSnapshot :=
  let resetSeconds := parseInteger (headers (headerPrefix ++ "-reset"))
  { limit := parseLimit (headers (headerPrefix ++ "-limit"))
    remaining := parseInteger (headers (headerPrefix ++ "-remaining"))
    resetSeconds
    resetAtMs := resetSeconds.map fun seconds => nowMs + seconds * 1000
    retryAfterMs := parseRetryAfter parseDate (headers "retry-after") nowMs }

/-! ### Tiers -/

/-- How far away the reset is, in seconds. -/
def effectiveResetSeconds (snapshot : RateLimitSnapshot) : Option ℤ :=
  snapshot.resetSeconds.or (snapshot.retryAfterMs.map fun ms => ⌈ms / 1000⌉)

namespace RateLimitTier

/-- The tier is for a reset. -/
def covers (tier : RateLimitTier) (reset : ℤ) : Bool :=
  tier.maxResetSeconds.all fun bound => reset ≤ bound

end RateLimitTier

theorem le_foldr_max {numbers : List ℕ} {n : ℕ} (h : n ∈ numbers) :
  n ≤ numbers.foldr max 0
  := by
  induction numbers with
  | nil => cases h
  | cons m numbers ih =>
      rw [List.foldr_cons]
      obtain rfl | h := List.mem_cons.mp h
      · apply le_max_left
      · apply (ih h).trans (le_max_right _ _)

namespace RateLimitOptions

variable (opts : RateLimitOptions)

def selectTier (resetSeconds : Option ℤ) : RateLimitTier :=
  (opts.tiers.find? fun tier => tier.covers (resetSeconds.getD 0)).getD
    (opts.tiers.getLast opts.tiers_ne_nil)

theorem selectTier_mem (resetSeconds : Option ℤ) :
  opts.selectTier resetSeconds ∈ opts.tiers
  := by
  unfold selectTier
  cases h : opts.tiers.find? fun tier => tier.covers (resetSeconds.getD 0) with
  | none => apply List.getLast_mem
  | some tier => apply List.mem_of_find?_eq_some h

/-- The tier that a response falls under. -/
def tierOf (snapshot : RateLimitSnapshot) : RateLimitTier :=
  opts.selectTier (effectiveResetSeconds snapshot)

theorem tierOf_mem (snapshot : RateLimitSnapshot) :
  opts.tierOf snapshot ∈ opts.tiers
  := by
  apply selectTier_mem

/-- No tier allows for more retries. -/
def mostRetries : ℕ := (opts.tiers.map RateLimitTier.maxRetries).foldr max 0

theorem maxRetries_le {tier : RateLimitTier} (h : tier ∈ opts.tiers) :
  tier.maxRetries ≤ opts.mostRetries
  := by
  unfold mostRetries
  apply le_foldr_max (List.mem_map_of_mem h)

end RateLimitOptions

/-! ### Waits -/

def DEFAULT_BACKOFF_MS : ℚ := 1000

def computeBackoff (snapshot : RateLimitSnapshot) (nowMs : ℚ) : ℚ :=
  match snapshot.resetAtMs, snapshot.retryAfterMs with
  | some resetAtMs, _ => max 0 (resetAtMs - nowMs)
  | none, some retryAfterMs => retryAfterMs
  | none, none => DEFAULT_BACKOFF_MS

def clampWait (ms maxWaitMs : ℚ) : ℚ :=
  if 0 < maxWaitMs then min (max 0 ms) maxWaitMs else max 0 ms

end RateLimit
