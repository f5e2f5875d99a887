import OpencodeToolbelt.TokenStores

/-!
# Logins need permission

A refresh starts an interactive login only when its call permits it, and refuses to only
when its call does not. Its options matter in no other way.
-/

/-- The operations of a refresh with the option `interactive`: a login only when it is
permitted, and no promise of another call. -/
def RefreshOp (interactive : Option Bool) : Op → Prop
  | .promptLogin _ => interactive ≠ some false
  | .awaitLogin _ => interactive ≠ some false
  | .claimFlight _ => False
  | .joinFlight _ => False
  | .publishFlight _ _ => False
  | .clearSlot _ _ => False
  | _ => True

/-- A call throws that a login is required only when it does not permit one. -/
def Refusal (interactive : Option Bool) {α : Type} (r : Except AuthError α) : Prop :=
  ∀ serverId, r = .error (.interactiveRequired serverId) → interactive = some false

variable {interactive : Option Bool}

theorem refusal_ok {α : Type} (a : α) :
  Refusal interactive (.ok a)
  := by
  rintro serverId ⟨⟩

theorem refusal_error {α : Type} {e : AuthError} (h : ∀ s, e ≠ .interactiveRequired s) :
  Refusal interactive (.error e : Except AuthError α)
  := by
  rintro serverId ⟨⟩
  exact (h serverId rfl).elim

theorem refusal_of_error {α β : Type} {e : AuthError}
    (h : Refusal interactive (.error e : Except AuthError α)) :
  Refusal interactive (.error e : Except AuthError β)
  := by
  rintro serverId ⟨⟩
  apply h serverId rfl

namespace OAuthClient

variable (client : OAuthClient)

theorem readTokenResponse_permission (response : TokenResponse) (fallback : Option String)
    (require : Bool) {rejected : ℕ → AuthError}
    (hrejected : ∀ status s, rejected status ≠ .interactiveRequired s) :
  (readTokenResponse response fallback require rejected).Within (RefreshOp interactive)
    (Refusal interactive)
  := by
  cases response with
  | failed => exact refusal_error fun _ h => nomatch h
  | status status => exact refusal_error (hrejected status)
  | ok payload =>
      refine ⟨trivial, fun now => Program.Within.settle ?_⟩
      unfold toTokenSet
      split
      · exact refusal_error fun _ h => nomatch h
      · simp only
        split
        · exact refusal_error fun _ h => nomatch h
        · apply refusal_ok

theorem refreshToken_permission (refreshToken : String) :
  (client.refreshToken refreshToken).Within (RefreshOp interactive) (Refusal interactive)
  := ⟨trivial, fun response =>
    readTokenResponse_permission response _ _ fun _ _ h => nomatch h⟩

theorem postGrant_permission (request : TokenRequest) :
  (client.postGrant request).Within (RefreshOp interactive) (Refusal interactive)
  := ⟨trivial, fun response =>
    readTokenResponse_permission response _ _ fun _ _ h => nomatch h⟩

theorem postFederatedGrant_permission (request : String → TokenRequest) :
  (client.postFederatedGrant request).Within (RefreshOp interactive) (Refusal interactive)
  := by
  unfold postFederatedGrant
  cases client.server.subjectTokenSource with
  | none => exact refusal_error fun _ h => nomatch h
  | some source =>
      refine ⟨trivial, fun subjectToken => ?_⟩
      cases subjectToken with
      | none => exact refusal_error fun _ h => nomatch h
      | some subjectToken => apply client.postGrant_permission

theorem tryRefreshToken_permission (current : Option TokenSet) :
  (client.tryRefreshToken current).Within (RefreshOp interactive) Auth.Settled
  := by
  unfold tryRefreshToken
  cases nonEmpty (current.bind TokenSet.refreshToken) with
  | none => trivial
  | some refreshToken =>
      apply ((client.refreshToken_permission refreshToken).mono (fun _ h => h)
        (fun _ _ => trivial)).attempt.bind (S := Auth.Settled) (R := Auth.Settled)
      · intro result _
        cases result <;> trivial
      · exact fun _ h => h.elim

theorem ensureUserToken_permission (current : Option TokenSet) :
  (client.ensureUserToken current interactive).Within (RefreshOp interactive)
    (Refusal interactive)
  := by
  apply (client.tryRefreshToken_permission current).bind
  · intro refreshed _
    cases refreshed with
    | some token => apply refusal_ok
    | none =>
        simp only
        split
        · next h => exact fun _ _ => h
        · next h =>
            exact ⟨h, fun _ => ⟨h, fun response =>
              readTokenResponse_permission response _ _ fun _ _ h' => nomatch h'⟩⟩
  · exact fun _ h => h.elim

theorem ensureToken_permission (current : Option TokenSet) :
  (client.ensureToken current interactive).Within (RefreshOp interactive)
    (Refusal interactive)
  := by
  apply validToken_within (C := RefreshOp interactive) trivial current
  intro valid
  cases valid with
  | some token => apply refusal_ok
  | none =>
      cases client.server.authFlow with
      | clientCredentials =>
          simp only [loginClientCredentials]
          cases nonEmpty client.server.clientSecret with
          | none => exact refusal_error (by simp)
          | some clientSecret => apply client.postGrant_permission
      | jwtBearer => apply client.postFederatedGrant_permission
      | tokenExchange => apply client.postFederatedGrant_permission
      | authorizationCode => apply client.ensureUserToken_permission
      | deviceCode => apply client.ensureUserToken_permission

end OAuthClient

namespace TokenRuntime

variable {r : TokenRuntime}

theorem refreshOp_of_read {o : Op} (ho : ReadOp o) :
  RefreshOp interactive o
  := by
  cases o with
  | load loc => trivial
  | adoptState engine persisted => trivial
  | _ => cases ho

theorem refreshOp_of_write {o : Op} (ho : WriteOp o) :
  RefreshOp interactive o
  := by
  cases o with
  | load loc => trivial
  | now => trivial
  | save loc entry => trivial
  | peekState engine => trivial
  | assignState engine state => trivial
  | _ => cases ho

theorem refreshOp_of_lock {path : Loc} {o : Op} (ho : RefreshLockOp path o) :
  RefreshOp interactive o
  := by
  obtain ho | ⟨reason, rfl⟩ := ho
  · cases o with
    | promptLogin server => cases ho
    | awaitLogin server => cases ho
    | claimFlight slot => cases ho
    | joinFlight flight => cases ho
    | publishFlight flight result => cases ho
    | clearSlot slot flight => cases ho
    | _ => trivial
  · trivial

theorem Store.persisted_permission (hr : r.Store) (token : TokenSet) :
  (r.persisted token).Within (RefreshOp interactive) (Refusal interactive)
  := by
  apply ((hr.persist_within token).mono (fun _ ho => refreshOp_of_write ho)
    (fun _ h => h)).bind
  · exact fun _ _ => refusal_ok token
  · intro e he
    rw [he e rfl]
    exact refusal_error fun _ h => nomatch h

theorem Store.refreshPersisted_permission (hr : r.Store) (refreshToken : String) :
  (r.refreshPersisted refreshToken).Within (RefreshOp interactive) (Refusal interactive)
  := by
  apply (r.client.refreshToken_permission refreshToken).bind
  · exact fun token _ => hr.persisted_permission token
  · exact fun _ h => h

theorem Store.recoverFromRejectedRefresh_permission (hr : r.Store) (base : TokenSet) :
  (r.recoverFromRejectedRefresh base).Within (RefreshOp interactive) Auth.Settled
  := by
  apply (hr.getCached_within.mono (fun _ ho => refreshOp_of_read ho) (fun _ h => h)).bind
  · intro newer _
    apply OAuthClient.validToken_within (C := RefreshOp interactive) trivial
    intro valid
    cases valid with
    | some token => trivial
    | none =>
        cases nonEmpty (newer.bind TokenSet.refreshToken) with
        | none => trivial
        | some refreshToken =>
            simp only
            split
            · trivial
            · apply ((hr.refreshPersisted_permission refreshToken).mono (fun _ h => h)
                (fun _ _ => trivial)).attempt.bind (S := Auth.Settled) (R := Auth.Settled)
              · intro result _
                cases result <;> trivial
              · exact fun _ h => h.elim
  · exact fun _ h => h.elim

theorem Store.login_permission (hr : r.Store) (base : Option TokenSet) (attempted : Bool) :
  (r.login base attempted interactive).Within (RefreshOp interactive) (Refusal interactive)
  := by
  apply (r.client.ensureToken_permission _).bind
  · intro token _
    split
    · apply hr.persisted_permission
    · apply refusal_ok
  · exact fun _ h => h

theorem Store.refreshOrLogin_permission (hr : r.Store) (base : Option TokenSet) :
  (r.refreshOrLogin base interactive).Within (RefreshOp interactive) (Refusal interactive)
  := by
  unfold refreshOrLogin
  split
  · apply hr.login_permission
  · next token =>
      split
      · apply hr.login_permission
      · next refreshToken _ =>
          split
          · apply ((hr.refreshPersisted_permission refreshToken).mono (fun _ h => h)
              (fun _ _ => trivial)).attempt.bind (R := Auth.Settled)
            · intro result _
              cases result with
              | ok refreshed => apply refusal_ok
              | error e =>
                  simp only
                  split
                  · apply (hr.recoverFromRejectedRefresh_permission token).bind
                    · intro recovered _
                      cases recovered with
                      | some found => apply refusal_ok
                      | none => apply hr.login_permission
                    · exact fun _ h => h.elim
                  · apply hr.login_permission
            · exact fun _ h => h.elim
          · apply hr.login_permission

theorem Store.acquireCoordinated_permission (hr : r.Store) (snapshot : Option TokenSet) :
  (r.acquireCoordinated snapshot interactive).Within (RefreshOp interactive)
    (Refusal interactive)
  := by
  apply (r.acquireRefreshLock_within.mono (fun _ ho => refreshOp_of_lock ho)
    (fun _ h => h)).bind
  · intro lock hlock
    apply Program.Within.tryFinally (R := Refusal interactive)
    · apply (hr.getCached_within.mono (fun _ ho => refreshOp_of_read ho) (fun _ h => h)).bind
      · intro reread _
        apply OAuthClient.validToken_within (C := RefreshOp interactive) trivial
        intro valid
        cases valid with
        | some token => apply refusal_ok
        | none => apply hr.refreshOrLogin_permission
      · exact fun _ h => h.elim
    · apply (Auth.release_within hlock).mono
      · exact fun _ ho => refreshOp_of_lock (.inl ho)
      · intro s hs
        cases s with
        | ok a => rfl
        | error e => exact hs.elim
  · exact fun _ h => h.elim

end TokenRuntime

namespace LightbridgeRuntime

theorem migrateRootTokenIfNeeded_permission (l : LightbridgeRuntime) :
  l.migrateRootTokenIfNeeded.Within (RefreshOp interactive) fun _ => True
  := by
  refine ⟨trivial, fun entry => ?_⟩
  simp only [Program.bind, Program.pure_eq]
  cases entry.bind (Entry.toServerState l.serverId) with
  | some state => trivial
  | none =>
      refine ⟨trivial, fun legacy => ?_⟩
      simp only [Program.bind]
      cases (legacy.map Entry.toTokenSet).filter hasUsableTokenShape with
      | none => trivial
      | some legacyToken =>
          refine ⟨trivial, fun now => ⟨trivial, fun saved => ?_⟩⟩
          cases saved <;> trivial

theorem ensureMigrated_permission (l : LightbridgeRuntime) :
  l.ensureMigrated.Within (RefreshOp interactive) Auth.Settled
  := by
  refine ⟨trivial, fun first => ?_⟩
  cases first with
  | true =>
      apply (Program.Within.attempt (S := Auth.Settled) _).bind
      · exact fun _ _ => ⟨trivial, fun _ => trivial⟩
      · exact fun _ h => h
      · apply l.migrateRootTokenIfNeeded_permission.mono
        · exact fun _ h => h
        · exact fun _ _ => trivial
  | false => exact ⟨trivial, fun _ => trivial⟩

end LightbridgeRuntime

/-! ### What the options change -/

/-- Two calls that both permit a login, or both do not. -/
def Alike (interactive interactive' : Option Bool) : Prop :=
  interactive = some false ↔ interactive' = some false

instance (interactive interactive' : Option Bool) : Decidable (Alike interactive interactive')
  := inferInstanceAs (Decidable (_ ↔ _))

namespace Alike

variable {interactive' : Option Bool} (h : Alike interactive interactive')

include h

theorem ensureUserToken (client : OAuthClient) (current : Option TokenSet) :
  client.ensureUserToken current interactive = client.ensureUserToken current interactive'
  := by
  have heq : (interactive = some false) = (interactive' = some false) := propext h
  simp only [OAuthClient.ensureUserToken, heq]

theorem ensureToken (client : OAuthClient) (current : Option TokenSet) :
  client.ensureToken current interactive = client.ensureToken current interactive'
  := by
  simp only [OAuthClient.ensureToken, h.ensureUserToken]

theorem refreshOrLogin (r : TokenRuntime) (base : Option TokenSet) :
  r.refreshOrLogin base interactive = r.refreshOrLogin base interactive'
  := by
  simp only [TokenRuntime.refreshOrLogin, TokenRuntime.login, h.ensureToken]

/-- The refresh that a call shares is the one that every call like it would start. -/
theorem acquireCoordinated (r : TokenRuntime) (snapshot : Option TokenSet) :
  r.acquireCoordinated snapshot interactive = r.acquireCoordinated snapshot interactive'
  := by
  simp only [TokenRuntime.acquireCoordinated, h.refreshOrLogin]

theorem ensure (r : TokenRuntime) :
  r.ensure interactive = r.ensure interactive'
  := by
  simp only [TokenRuntime.ensure, h.acquireCoordinated]

/-- The exchange that a call shares is the one that every call like it would start. -/
theorem performExchange (l : LightbridgeRuntime) :
  l.performExchange interactive = l.performExchange interactive'
  := by
  simp only [LightbridgeRuntime.performExchange, h.ensure]

end Alike
