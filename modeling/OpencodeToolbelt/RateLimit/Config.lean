import OpencodeToolbelt.Data.JsValue
import OpencodeToolbelt.RateLimit.Policy
import Mathlib.Data.Rat.Floor

/-!
# The configuration of rate limits

How the options of a rate limiter are read from the options of its provider.
-/

namespace RateLimit

def DEFAULT_MAX_WAIT_MS : ℕ := 0

def DEFAULT_MAX_RETRIES : ℕ := 5

def DEFAULT_HEADER_PREFIX : String := "x-ratelimit"

def DEFAULT_SCOPE : RateLimitScope := .model

def asBoolean (value : JsValue) (fallback : Bool) : Bool :=
  match value with
  | .bool b => b
  | _ => fallback

def asPositiveInt (value : JsValue) (fallback : ℕ) : ℕ :=
  match value with
  | .number n => if 0 < n then ⌊n⌋.toNat else fallback
  | _ => fallback

/-- Zero is accepted as well. -/
def asNonNegativeInt (value : JsValue) (fallback : ℕ) : ℕ :=
  match value with
  | .number n => if 0 ≤ n then ⌊n⌋.toNat else fallback
  | _ => fallback

def asScope (value : JsValue) : RateLimitScope :=
  match value with
  | .string s => if s = "provider" then .provider else if s = "model" then .model else DEFAULT_SCOPE
  | _ => DEFAULT_SCOPE

def asAction (value : JsValue) : RateLimitAction :=
  match value with
  | .string s => if s = "error" then .error else .wait
  | _ => .wait

/-- A bound, with `none` for the tier that takes every reset. -/
def asMaxResetSeconds (value : JsValue) : Option ℕ :=
  match value with
  | .number n => if 0 < n then some ⌊n⌋.toNat else none
  | _ => none

def parseTier (raw : JsObject) : RateLimitTier where
  maxResetSeconds := asMaxResetSeconds (raw.get "maxResetSeconds")
  action := asAction (raw.get "action")
  maxWaitMs := asNonNegativeInt (raw.get "maxWaitMs") DEFAULT_MAX_WAIT_MS
  maxRetries := asPositiveInt (raw.get "maxRetries") DEFAULT_MAX_RETRIES

/-- The order of tiers, the ones that take every reset last. -/
def tierBefore (a b : RateLimitTier) : Bool :=
  match a.maxResetSeconds, b.maxResetSeconds with
  | _, none => true
  | none, some _ => false
  | some m, some n => m ≤ n

/-- The tier for resets that no other tier takes. -/
def fallbackTier : RateLimitTier where
  maxResetSeconds := none
  action := .wait
  maxWaitMs := DEFAULT_MAX_WAIT_MS
  maxRetries := DEFAULT_MAX_RETRIES

def normalizeTiers (tiers : List RateLimitTier) : List RateLimitTier :=
  let sorted := tiers.mergeSort tierBefore
  if sorted.any fun tier => tier.maxResetSeconds.isNone then sorted else sorted ++ [fallbackTier]

theorem normalizeTiers_ne_nil (tiers : List RateLimitTier) :
  normalizeTiers tiers ≠ []
  := by
  simp only [normalizeTiers]
  split
  · next h =>
      intro hnil
      rw [hnil] at h
      cases h
  · apply List.append_ne_nil_of_right_ne_nil
    apply List.cons_ne_nil

/-- The tier of a configuration that lists none. -/
def flatTier (rateLimit : JsObject) : RateLimitTier where
  maxResetSeconds := none
  action := .wait
  maxWaitMs := asNonNegativeInt (rateLimit.get "maxWaitMs") DEFAULT_MAX_WAIT_MS
  maxRetries := asPositiveInt (rateLimit.get "maxRetries") DEFAULT_MAX_RETRIES

/-- The tiers of a configuration. -/
def readTiers (rateLimit : JsObject) : List RateLimitTier :=
  match rateLimit.get "tiers" with
  | .array (item :: items) =>
      normalizeTiers ((item :: items).map fun raw => parseTier ((asRecord raw).getD []))
  | _ => [flatTier rateLimit]

theorem readTiers_ne_nil (rateLimit : JsObject) :
  readTiers rateLimit ≠ []
  := by
  unfold readTiers
  split
  · apply normalizeTiers_ne_nil
  · apply List.cons_ne_nil

/-- The options of a provider that has opted in. -/
def parseRateLimitOptions (providerOptions : Option JsObject) : Option RateLimitOptions := do
  let options ← providerOptions
  let metadata ← asRecord (options.get "meta")
  let rateLimit ← asRecord (metadata.get "rateLimit")
  if asBoolean (rateLimit.get "enabled") true then
    some
      { scope := asScope (rateLimit.get "scope")
        headerPrefix := String.ofList (toLowerCase
          ((asString (rateLimit.get "headerPrefix")).getD DEFAULT_HEADER_PREFIX).toList)
        tiers := readTiers rateLimit
        tiers_ne_nil := readTiers_ne_nil rateLimit }
  else none

end RateLimit
