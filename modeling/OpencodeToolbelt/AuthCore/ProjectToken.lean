import OpencodeToolbelt.AuthCore.TokenRuntime

/-!
# Project tokens

The plugins that exchange the root token for the token of a project share the exchange
between concurrent calls.
-/

/-- Whether a cached project token is usable: it cannot be refreshed, so one without an
expiry is not. -/
def isProjectTokenUsable (skewMs : ℚ) (now : ℕ) (token : TokenSet) : Bool :=
  if token.accessToken = "" then false
  else
    match token.expiresAt with
    | none => false
    | some expiresAt => now + skewMs < expiresAt

/-- A cached project token that is usable, or else the outcome of the exchange, which the
calls of a runtime share. -/
def resolveProjectToken (slot : Slot) (skewMs : ℚ) (cached : Auth (Option TokenSet))
    (performExchange : Auth TokenSet) : Auth TokenSet := do
  let token ← cached
  let now ← Auth.now
  match token.filter (isProjectTokenUsable skewMs now) with
  | some token => pure token
  | none =>
      match ← Auth.claimFlight slot with
      | .join flight => Auth.joinFlight flight
      | .lead flight => do
          let result ← performExchange.attempt
          Auth.publishFlight flight result
          Auth.clearSlot slot flight
          .settle result
