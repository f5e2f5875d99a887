import OpencodeToolbelt.AuthCore.Watch
import OpencodeToolbelt.TokenStores

/-!
# What becomes of an accepted refresh

One call of `ensure` is watched. A refresh that the token endpoint accepts is returned when
its response carries an access token and it can be written; when it cannot, the call treats
the refresh as a failed one, although its refresh token is spent.
-/

/-- What a call has done so far. -/
structure RefreshHistory where
  /-- The responses to the refreshes that were accepted. -/
  accepted : List TokenPayload
  /-- Every accepted refresh carried an access token, and no write has failed after it. -/
  kept : Bool
  /-- An interactive login was started. -/
  prompted : Bool
  deriving DecidableEq

namespace RefreshHistory

def empty : RefreshHistory := ⟨[], true, false⟩

/-- The history after an operation. -/
def after (h : RefreshHistory) (_ : World) : (o : Op) → Ans o → RefreshHistory
  | .postToken _ (.refresh _), .ok payload =>
      { h with
        accepted := payload :: h.accepted
        kept := h.kept && (nonEmpty payload.accessToken).isSome }
  | .save _ _, false => { h with kept := h.kept && h.accepted.isEmpty }
  | .promptLogin _, _ => { h with prompted := true }
  | _, _ => h

/-- No refresh has been accepted. -/
def Unspent (h : RefreshHistory) : Prop := h.accepted = []

/-- No refresh has been accepted, and no login was started. -/
def Clean (h : RefreshHistory) : Prop := h = empty

/-- A refresh was accepted and can still be kept. -/
def Kept (payload : TokenPayload) (h : RefreshHistory) : Prop :=
  h = ⟨[payload], true, false⟩ ∧ (nonEmpty payload.accessToken).isSome

/-- A refresh was accepted and is lost. -/
def Lost (h : RefreshHistory) : Prop := ∃ payload, h = ⟨[payload], false, false⟩

/-- A refresh was accepted and is lost, and a login was started. -/
def Prompted (h : RefreshHistory) : Prop := ∃ payload, h = ⟨[payload], false, true⟩

/-- A refresh that is kept starts no login. -/
def Quiet (h : RefreshHistory) : Prop := h.accepted ≠ [] → h.kept = true → h.prompted = false

end RefreshHistory

open RefreshHistory Discipline

/-- The operations that leave the history alone. -/
def RefreshNeutral (o : Op) : Prop := ∀ h w a, RefreshHistory.after h w o a = h

theorem refreshNeutral_read {o : Op} (ho : TokenRuntime.ReadOp o) :
  RefreshNeutral o
  := by
  intro h w a
  cases o with
  | load loc => rfl
  | adoptState engine persisted => rfl
  | _ => cases ho

theorem refreshNeutral_lock {path : Loc} {o : Op} (ho : TokenRuntime.RefreshLockOp path o) :
  RefreshNeutral o
  := by
  intro h w a
  obtain ho | ⟨reason, rfl⟩ := ho
  · cases o with
    | save loc entry => cases ho
    | postToken server request => cases ho
    | promptLogin server => cases ho
    | _ => rfl
  · rfl

section Calls

variable {i : ℕ} {α : Type}

/-- What holds of the watched call at one of its points. -/
abbrev RefreshTriple (i : ℕ) (φ : ℕ → RefreshHistory → Prop) (p : Auth α)
    (ψ : Except AuthError α → ℕ → RefreshHistory → Prop) : Prop :=
  (watchDiscipline i Quiet).Triple (watch i RefreshHistory.after) i (Known φ) p (Outcome ψ)

theorem lasting_const (P : RefreshHistory → Prop) :
  Lasting (fun _ => P)
  := fun _ _ _ _ h => h

/-! ### Writing a token -/

/-- What a write leaves: a token that could not be written is lost. -/
def Written (h₀ : RefreshHistory) : Except AuthError Unit → ℕ → RefreshHistory → Prop
  | .ok _, _, h => h = h₀
  | .error e, _, h =>
      h = { h₀ with kept := h₀.kept && h₀.accepted.isEmpty } ∧ e = .storage

theorem triple_save (loc : Loc) (entry : Entry) {h₀ : RefreshHistory} (hq : Quiet h₀) :
  RefreshTriple i (fun _ h => h = h₀) (Auth.save loc entry) (Written h₀)
  := by
  apply triple_watched (o := .save loc entry) (lasting_const _)
    (ρ := fun (saved : Bool) _ h =>
      h = if saved then h₀ else { h₀ with kept := h₀.kept && h₀.accepted.isEmpty })
  · rintro w h saved - rfl -
    cases saved with
    | true => exact ⟨hq, rfl⟩
    | false =>
        refine ⟨fun hne hkept => ?_, rfl⟩
        simp only [RefreshHistory.after, Bool.and_eq_true, List.isEmpty_iff] at hne hkept
        exact (hne hkept.2).elim
  · intro saved
    cases saved with
    | true => exact Triple.done fun _ _ h => h
    | false => exact Triple.fail fun _ _ h => ⟨h, rfl⟩

theorem triple_saveServerState (directory : String) (state : CachedServerState)
    {h₀ : RefreshHistory} (hq : Quiet h₀) :
  RefreshTriple i (fun _ h => h = h₀) (saveServerState directory state) (Written h₀)
  := triple_save _ _ hq

/-- An operation that leaves the history alone. -/
theorem triple_neutral {o : Op} (ho : RefreshNeutral o) {f : Ans o → Auth α}
    {φ : ℕ → RefreshHistory → Prop} (hφ : Lasting φ)
    {ψ : Except AuthError α → ℕ → RefreshHistory → Prop}
    (hf : ∀ a, RefreshTriple i φ (f a) ψ) :
  RefreshTriple i φ ((Auth.perform o).bind f) ψ
  := by
  apply triple_watched hφ _ hf
  intro w h a hJ hφw _
  rw [ho h w a]
  exact ⟨hJ, hφ _ _ _ (host_now_le i w o a) hφw⟩

theorem triple_persist {r : TokenRuntime} (hr : r.Store) (token : TokenSet)
    {h₀ : RefreshHistory} (hq : Quiet h₀) :
  RefreshTriple i (fun _ h => h = h₀) (r.persist token) (Written h₀)
  := by
  cases hr with
  | file hget hset =>
      rw [TokenRuntime.persist, hset]
      apply triple_save _ _ hq
  | engine e =>
      apply triple_neutral (o := .peekState e.engine) (fun _ _ _ => rfl) (lasting_const _)
      rintro ⟨state, now⟩
      apply Triple.bind (triple_saveServerState _ _ hq)
      · intro _
        apply triple_neutral (o := .assignState e.engine _) (fun _ _ _ => rfl)
          (lasting_const (· = h₀))
        intro _
        exact Triple.done fun _ _ h => h
      · exact fun _ _ _ h => h
  | lightbridge l =>
      apply triple_neutral (o := .load _) (fun _ _ _ => rfl) (lasting_const _)
      intro entry
      apply triple_neutral (o := .now) (fun _ _ _ => rfl) (lasting_const _)
      intro now
      apply triple_saveServerState _ _ hq

/-! ### Refreshing -/

/-- An accepted refresh is returned and can be kept, or it is lost for a reason that is not
a rejection. -/
def Refreshed : Except AuthError TokenSet → ℕ → RefreshHistory → Prop
  | .ok token, _, h => ∃ payload, Kept payload h ∧ some token.accessToken = payload.accessToken
  | .error e, _, h => Clean h ∨ Lost h ∧ TokenRuntime.isRejection e = false

theorem toTokenSet_eq (payload : TokenPayload) (now : ℕ) {refreshToken : String}
    (hne : nonEmpty (some refreshToken) = some refreshToken) :
  (∃ token, toTokenSet payload (some refreshToken) true now = .ok token ∧
      nonEmpty payload.accessToken = some token.accessToken) ∨
    toTokenSet payload (some refreshToken) true now = .error .missingAccessToken ∧
      nonEmpty payload.accessToken = none
  := by
  unfold toTokenSet
  cases haccess : nonEmpty payload.accessToken with
  | none => exact .inr ⟨rfl, rfl⟩
  | some accessToken =>
      left
      have hrefresh : nonEmpty ((nonEmpty payload.refreshToken).or (some refreshToken)) ≠ none := by
        cases hp : nonEmpty payload.refreshToken with
        | none => simp [hne]
        | some s =>
            obtain ⟨-, hs⟩ := Option.filter_eq_some_iff.mp hp
            simpa [nonEmpty] using hs
      exact ⟨_, if_neg (fun h => hrefresh h.2), rfl⟩

theorem nonEmpty_eq_some {s : Option String} {v : String} (h : nonEmpty s = some v) :
  s = some v
  := (Option.filter_eq_some_iff.mp h).1

/-- What is known once a refresh has been answered. -/
def Answered : TokenResponse → RefreshHistory → Prop
  | .ok payload, h => h = ⟨[payload], (nonEmpty payload.accessToken).isSome, false⟩
  | _, h => Clean h

theorem triple_refreshToken (client : OAuthClient) {refreshToken : String}
    (hne : nonEmpty (some refreshToken) = some refreshToken) :
  RefreshTriple i (fun _ => Clean) (client.refreshToken refreshToken) Refreshed
  := by
  apply triple_watched (o := .postToken client.server (.refresh refreshToken)) (lasting_const _)
    (ρ := fun (response : TokenResponse) _ => Answered response)
  · rintro w h response hJ rfl -
    cases response with
    | failed => exact ⟨hJ, rfl⟩
    | status status => exact ⟨hJ, rfl⟩
    | ok payload => exact ⟨fun _ _ => rfl, rfl⟩
  · intro response
    cases response with
    | failed => exact Triple.fail fun _ _ h => .inl h
    | status status => exact Triple.fail fun _ _ h => .inl h
    | ok payload =>
        apply triple_neutral (o := .now) (fun _ _ _ => rfl)
          (lasting_const (· = ⟨[payload], (nonEmpty payload.accessToken).isSome, false⟩))
        intro now
        obtain ⟨token, htoken, haccess⟩ | ⟨herror, haccess⟩ :=
          toTokenSet_eq payload now hne
        · rw [htoken]
          apply Triple.done
          intro w _ hw
          use payload
          simp only [Known, haccess, Option.isSome_some] at hw
          exact ⟨⟨hw, by rw [haccess]; rfl⟩, (nonEmpty_eq_some haccess).symm⟩
        · rw [herror]
          apply Triple.fail
          intro w _ hw
          simp only [Known, haccess, Option.isSome_none] at hw
          right
          exact ⟨⟨payload, hw⟩, rfl⟩

theorem quiet_of_kept (payload : TokenPayload) :
  Quiet ⟨[payload], true, false⟩
  := fun _ _ => rfl

theorem triple_refreshPersisted {r : TokenRuntime} (hr : r.Store) {refreshToken : String}
    (hne : nonEmpty (some refreshToken) = some refreshToken) :
  RefreshTriple i (fun _ => Clean) (r.refreshPersisted refreshToken) Refreshed
  := by
  apply Triple.bind (triple_refreshToken r.client hne)
  · rintro token w hw ⟨payload, ⟨hkept, haccess⟩, htoken⟩
    have hwrite := triple_persist (i := i) hr token (quiet_of_kept payload)
    apply (Triple.bind (Q := Outcome Refreshed) hwrite ?_ ?_) w hw hkept
    · intro _
      apply Triple.done
      intro w' _ hw'
      exact ⟨payload, ⟨hw', haccess⟩, htoken⟩
    · rintro e w' - ⟨hw', rfl⟩
      right
      exact ⟨⟨payload, hw'⟩, rfl⟩
  · exact fun _ _ _ h => h

/-! ### Falling back -/

/-- What the re-reading after a rejection finds, or the retry it makes. -/
def Recovered : Except AuthError (Option TokenSet) → ℕ → RefreshHistory → Prop
  | .ok (some token), _, h =>
      Clean h ∨ ∃ payload, Kept payload h ∧ some token.accessToken = payload.accessToken
  | .ok none, _, h => Clean h ∨ Lost h
  | .error _, _, _ => False

theorem triple_recoverFromRejectedRefresh {r : TokenRuntime} (hr : r.Store) (base : TokenSet) :
  RefreshTriple i (fun _ => Clean) (r.recoverFromRejectedRefresh base) Recovered
  := by
  apply triple_within_bind (lasting_const _) hr.getCached_within
    (preserves_of_neutral fun _ ho => refreshNeutral_read ho)
  · intro newer _
    apply triple_validToken (lasting_const _) (fun _ _ _ => rfl)
    · intro token _
      exact Triple.done fun _ _ h => .inl h.1
    · have hclean : ∀ w : World × RefreshHistory,
          Known (fun t h => Clean h ∧ ∀ tk, newer = some tk → r.client.isTokenValid t tk = false)
            w → Clean w.2 := fun _ h => h.1
      cases hrefresh : nonEmpty (newer.bind TokenSet.refreshToken) with
      | none => exact Triple.done fun w _ h => .inl (hclean w h)
      | some refreshToken =>
          have hne : nonEmpty (some refreshToken) = some refreshToken := by
            rw [← nonEmpty_eq_some hrefresh, hrefresh, nonEmpty_eq_some hrefresh]
          simp only
          split
          · exact Triple.done fun w _ h => .inl (hclean w h)
          · apply Triple.attempt_bind
              ((triple_refreshPersisted hr hne).weaken fun w _ h => hclean w h)
            intro result
            cases result with
            | ok token => exact Triple.done fun _ _ h => .inr h
            | error e => exact Triple.done fun _ _ h => h.imp_right And.left
  · exact fun _ _ h => h.elim

/-- How a call settles: it returns an accepted refresh, without a login, if and only if the
refresh could be kept. -/
def Settles (r : Except AuthError TokenSet) (_ : ℕ) (h : RefreshHistory) : Prop :=
  ∀ payload ∈ h.accepted,
    ((∃ token, r = .ok token ∧ some token.accessToken = payload.accessToken) ∧
      h.prompted = false) ↔ h.kept = true

theorem settles_of_unspent {r : Except AuthError TokenSet} {t : ℕ} {h : RefreshHistory}
    (hh : Unspent h) :
  Settles r t h
  := by
  intro payload hp
  rw [hh] at hp
  cases hp

theorem settles_of_kept {token : TokenSet} {payload : TokenPayload} {t : ℕ}
    {h : RefreshHistory} (hh : Kept payload h)
    (htoken : some token.accessToken = payload.accessToken) :
  Settles (.ok token) t h
  := by
  obtain ⟨rfl, -⟩ := hh
  intro payload' hp
  obtain rfl := List.mem_singleton.mp hp
  exact iff_of_true ⟨⟨token, rfl, htoken⟩, rfl⟩ rfl

theorem settles_of_lost {e : AuthError} {t : ℕ} {h : RefreshHistory} (hh : Lost h) :
  Settles (.error e) t h
  := by
  obtain ⟨payload, rfl⟩ := hh
  intro payload' _
  apply iff_of_false
  · rintro ⟨⟨token, ⟨⟩, -⟩, -⟩
  · rintro ⟨⟩

theorem settles_of_prompted {r : Except AuthError TokenSet} {t : ℕ} {h : RefreshHistory}
    (hh : Prompted h) :
  Settles r t h
  := by
  obtain ⟨payload, rfl⟩ := hh
  intro payload' _
  apply iff_of_false
  · rintro ⟨-, ⟨⟩⟩
  · rintro ⟨⟩

theorem preserves_unspent :
  Preserves RefreshHistory.after Quiet (fun _ => Unspent) OAuthClient.NonRefresh
  := by
  intro o ho t h w a _ hh
  have hunspent : Unspent (h.after w o a) := by
    cases o with
    | save loc entry => cases a <;> exact hh
    | postToken server request =>
        cases request with
        | refresh refreshToken => exact ho.elim
        | _ => exact hh
    | _ => exact hh
  exact ⟨fun hne => (hne hunspent).elim, hunspent⟩

theorem preserves_prompted :
  Preserves RefreshHistory.after Quiet (fun _ => Prompted) OAuthClient.NonRefresh
  := by
  intro o ho t h w a hJ hh
  obtain ⟨payload, rfl⟩ := hh
  have hsame : RefreshHistory.after ⟨[payload], false, true⟩ w o a = ⟨[payload], false, true⟩ := by
    cases o with
    | save loc entry => cases a <;> rfl
    | postToken server request =>
        cases request with
        | refresh refreshToken => exact ho.elim
        | _ => rfl
    | _ => rfl
  rw [hsame]
  exact ⟨hJ, payload, rfl⟩

/-- The end of a login: the token is written unless it is the one there was. -/
theorem triple_persistNew {r : TokenRuntime} (hr : r.Store) (base : Option TokenSet)
    (token : TokenSet) {P : RefreshHistory → Prop}
    (hP : Preserves RefreshHistory.after Quiet (fun _ => P) OAuthClient.NonRefresh)
    (hsettles : ∀ r t h, P h → Settles r t h) :
  RefreshTriple i (fun _ => P)
    (if some token.accessToken ≠ base.map TokenSet.accessToken then r.persisted token
      else pure token) Settles
  := by
  have hdone : RefreshTriple i (fun _ => P) (Program.done token) Settles :=
    Triple.done fun _ _ h => hsettles _ _ _ h
  split
  · apply triple_within_bind (lasting_const _) (hr.persist_within token)
      fun o ho => hP o (TokenRuntime.nonRefresh_of_write ho)
    · exact fun _ _ => hdone
    · exact fun _ _ _ _ h => hsettles _ _ _ h
  · apply hdone

/-- A login of a call in which no refresh was accepted. -/
theorem triple_login_unspent {r : TokenRuntime} (hr : r.Store) {base : Option TokenSet}
    {attempted : Bool} (interactive : Option Bool)
    (hno : attempted = true ∨ r.client.NoRefresh base) :
  RefreshTriple i (fun _ => Unspent) (r.login base attempted interactive) Settles
  := by
  have hfallback : r.client.NoRefresh
      (if attempted then base.map fun token => { token with refreshToken := none }
        else base) := by
    cases attempted with
    | false => exact hno.resolve_left Bool.false_ne_true
    | true =>
        left
        cases base <;> rfl
  apply triple_within_bind (lasting_const _)
    (OAuthClient.ensureToken_within hfallback interactive) preserves_unspent
  · intro token _
    apply triple_persistNew hr base token preserves_unspent
    exact fun _ _ _ h => settles_of_unspent h
  · exact fun _ _ _ _ h => settles_of_unspent h

/-- A login after an accepted refresh was lost: it starts, or the call throws. -/
theorem triple_login_lost {r : TokenRuntime} (hr : r.Store)
    (huses : r.client.usesRefreshToken = true) (base : TokenSet) (interactive : Option Bool) :
  RefreshTriple i
    (fun t h => Lost h ∧ r.client.isTokenValid t { base with refreshToken := none } = false)
    (r.login (some base) true interactive) Settles
  := by
  have hlasting : Lasting fun t h =>
      Lost h ∧ r.client.isTokenValid t { base with refreshToken := none } = false := by
    rintro t t' h hle ⟨hlost, hinvalid⟩
    refine ⟨hlost, ?_⟩
    by_contra hvalid
    have hearlier := OAuthClient.isTokenValid_of_le hle (Bool.of_not_eq_false hvalid)
    rw [hinvalid] at hearlier
    cases hearlier
  have huser : ∀ current : TokenSet, current.refreshToken = none →
      RefreshTriple i (fun _ => Lost) (r.client.ensureUserToken (some current) interactive)
        (fun result _ h => Prompted h ∨ Lost h ∧ ∃ e, result = .error e) := by
    intro current hnone
    simp only [OAuthClient.ensureUserToken, OAuthClient.tryRefreshToken, Option.bind_some, hnone, nonEmpty,
      Option.filter_none, Program.pure_eq, Program.bind_eq, Program.bind]
    split
    · exact Triple.fail fun _ _ h => .inr ⟨h, _, rfl⟩
    · apply triple_watched (o := .promptLogin r.client.server) (lasting_const _)
        (ρ := fun _ _ => Prompted)
      · rintro w h a - ⟨payload, rfl⟩ -
        constructor
        · rintro - ⟨⟩
        · use payload
          rfl
      · intro _
        apply (triple_within (R := fun _ => True) (lasting_const Prompted) _
          preserves_prompted).strengthen
        · exact fun _ _ _ h => .inl h.2
        · exact ⟨trivial, fun response =>
            OAuthClient.readTokenResponse_within trivial response _ _ _⟩
  have hensure : RefreshTriple i
      (fun t h => Lost h ∧ r.client.isTokenValid t { base with refreshToken := none } = false)
      (r.client.ensureToken (some { base with refreshToken := none }) interactive)
      (fun result _ h => Prompted h ∨ Lost h ∧ ∃ e, result = .error e) := by
    apply triple_validToken hlasting (fun _ _ _ => rfl)
    · rintro token ⟨⟩
      apply Triple.absurd
      rintro w - ⟨-, t, ⟨-, hinvalid⟩, hvalid⟩
      rw [hinvalid] at hvalid
      cases hvalid
    · cases hflow : r.client.server.authFlow with
      | authorizationCode => exact (huser _ rfl).weaken fun _ _ h => h.1.1
      | deviceCode => exact (huser _ rfl).weaken fun _ _ h => h.1.1
      | _ => simp [OAuthClient.usesRefreshToken, hflow, MACHINE_FLOWS] at huses
  apply Triple.bind hensure
  · intro token
    have hnew := triple_persistNew (i := i) hr (some base) token preserves_prompted
      fun _ _ _ h => settles_of_prompted h
    apply hnew.weaken
    rintro w - (hprompted | ⟨-, e, ⟨⟩⟩)
    apply hprompted
  · rintro e w - (hprompted | ⟨hlost, -⟩)
    · apply settles_of_prompted hprompted
    · apply settles_of_lost hlost

/-! ### The call -/

theorem unspent_of_clean {h : RefreshHistory} (hh : Clean h) :
  Unspent h
  := by
  rw [hh]
  rfl

/-- The token is expired from some time on. -/
theorem lasting_expired (client : OAuthClient) (token : TokenSet) (t t' : ℕ) (hle : t ≤ t')
    (h : client.isTokenValid t token = false) :
  client.isTokenValid t' token = false
  := by
  by_contra hvalid
  have hearlier := OAuthClient.isTokenValid_of_le hle (Bool.of_not_eq_false hvalid)
  rw [h] at hearlier
  cases hearlier

theorem isTokenValid_stripped (client : OAuthClient) (t : ℕ) (token : TokenSet) :
  client.isTokenValid t { token with refreshToken := none } = client.isTokenValid t token
  := rfl

theorem triple_refreshOrLogin {r : TokenRuntime} (hr : r.Store) (base : Option TokenSet)
    (interactive : Option Bool) :
  RefreshTriple i
    (fun t h => Clean h ∧ ∀ token, base = some token → r.client.isTokenValid t token = false)
    (r.refreshOrLogin base interactive) Settles
  := by
  have hlogin : ∀ attempted, (attempted = true ∨ r.client.NoRefresh base) →
      RefreshTriple i (fun _ => Unspent) (r.login base attempted interactive) Settles :=
    fun _ hno => triple_login_unspent hr interactive hno
  unfold TokenRuntime.refreshOrLogin
  split
  · exact (hlogin false (.inr (.inl rfl))).weaken fun _ _ h => unspent_of_clean h.1
  · next token =>
      split
      · next hnone =>
          exact (hlogin false (.inr (.inl hnone))).weaken fun _ _ h => unspent_of_clean h.1
      · next refreshToken hrefresh =>
          have hne : nonEmpty (some refreshToken) = some refreshToken := by
            rw [← nonEmpty_eq_some hrefresh, hrefresh, nonEmpty_eq_some hrefresh]
          split
          · next huses =>
              -- The expiry of the base is carried through the refresh.
              have hattempt := triple_since (lasting_expired r.client token)
                (triple_refreshPersisted (i := i) hr hne)
              have hlost := triple_login_lost (i := i) hr huses token interactive
              apply (Triple.attempt_bind hattempt ?_).weaken
              · exact fun w _ h => ⟨h.1, h.2 token rfl⟩
              · intro result
                cases result with
                | ok refreshed =>
                    apply Triple.done
                    rintro w - ⟨⟨payload, hkept, htoken⟩, -⟩
                    apply settles_of_kept hkept htoken
                | error e =>
                    simp only
                    split
                    · next hrejected =>
                        have hrecover := triple_since (lasting_expired r.client token)
                          (triple_recoverFromRejectedRefresh (i := i) hr token)
                        apply (Triple.bind hrecover ?_ ?_).weaken
                        · rintro w - ⟨hclean | ⟨-, hnot⟩, hexpired⟩
                          · exact ⟨hclean, hexpired⟩
                          · rw [hrejected] at hnot
                            cases hnot
                        · intro recovered
                          cases recovered with
                          | some found =>
                              apply Triple.done
                              rintro w - ⟨hclean | ⟨payload, hkept, htoken⟩, -⟩
                              · apply settles_of_unspent (unspent_of_clean hclean)
                              · apply settles_of_kept hkept htoken
                          | none =>
                              rintro w hw ⟨hclean | hl, hexpired⟩
                              · exact hlogin true (.inl rfl) w hw (unspent_of_clean hclean)
                              · exact hlost w hw ⟨hl, hexpired⟩
                        · rintro e' w - ⟨⟨⟩, -⟩
                    · rintro w hw ⟨hclean | ⟨hl, -⟩, hexpired⟩
                      · exact hlogin true (.inl rfl) w hw (unspent_of_clean hclean)
                      · exact hlost w hw ⟨hl, hexpired⟩
          · next huses =>
              have hno : r.client.NoRefresh (some token) :=
                .inr (Bool.eq_false_iff.mpr huses)
              exact (hlogin false (.inr hno)).weaken fun _ _ h => unspent_of_clean h.1

theorem triple_acquireCoordinated {r : TokenRuntime} (hr : r.Store)
    (snapshot : Option TokenSet) (interactive : Option Bool) :
  RefreshTriple i
    (fun t h => Clean h ∧
      ∀ token, snapshot = some token → r.client.isTokenValid t token = false)
    (r.acquireCoordinated snapshot interactive) Settles
  := by
  have hlasting : Lasting fun t h => Clean h ∧
      ∀ token, snapshot = some token → r.client.isTokenValid t token = false :=
    fun t t' _ hle h => ⟨h.1, fun token ht => lasting_expired _ _ t t' hle (h.2 token ht)⟩
  apply triple_within_bind hlasting r.acquireRefreshLock_within
    (preserves_of_neutral fun _ ho => refreshNeutral_lock ho)
  · intro lock hlock
    apply Triple.tryFinally (R := Outcome Settles)
    · apply triple_within_bind hlasting hr.getCached_within
        (preserves_of_neutral fun _ ho => refreshNeutral_read ho)
      · intro reread _
        apply triple_validToken hlasting (fun _ _ _ => rfl)
        · intro token _
          exact Triple.done fun _ _ h => settles_of_unspent (unspent_of_clean h.1.1)
        · apply (triple_refreshOrLogin hr _ interactive).weaken
          rintro w - ⟨⟨hclean, hsnapshot⟩, hreread⟩
          refine ⟨hclean, fun token htoken => ?_⟩
          cases reread with
          | none => exact hsnapshot token htoken
          | some found => exact hreread token htoken
      · exact fun _ _ h => h.elim
    · intro result
      apply (triple_within (lasting_const fun h => Settles result 0 h)
        ((Auth.release_within hlock).mono (fun _ h => .inl h) (fun _ h => h))
        (preserves_of_neutral fun _ ho => refreshNeutral_lock ho)).strengthen
      rintro s w - ⟨hs, hsettles⟩
      cases s with
      | ok a => exact ⟨rfl, hsettles⟩
      | error e => exact hs.elim
  · exact fun _ _ h => h.elim

/-- The operations around the flight of a call. -/
theorem refreshNeutral_clearSlot (slot : Slot) (flight : ℕ) :
  RefreshNeutral (.clearSlot slot flight)
  := fun _ _ _ => rfl

theorem triple_ensure {r : TokenRuntime} (hr : r.Store) (interactive : Option Bool) :
  RefreshTriple i (fun _ => Clean) (r.ensure interactive) Settles
  := by
  apply triple_within_bind (lasting_const _) hr.getCached_within
    (preserves_of_neutral fun _ ho => refreshNeutral_read ho)
  · intro cached _
    apply triple_validToken (lasting_const _) (fun _ _ _ => rfl)
    · intro token _
      exact Triple.done fun _ _ h => settles_of_unspent (unspent_of_clean h.1)
    · have hlasting : Lasting fun t h => Clean h ∧
          ∀ token, cached = some token → r.client.isTokenValid t token = false :=
        fun t t' _ hle h => ⟨h.1, fun token ht => lasting_expired _ _ t t' hle (h.2 token ht)⟩
      apply triple_neutral (o := .claimFlight (.refresh r.instanceId)) (fun _ _ _ => rfl) hlasting
      intro claim
      cases claim with
      | join flight =>
          apply triple_neutral (o := .joinFlight flight) (fun _ _ _ => rfl) hlasting
          intro result
          apply (Triple.settle (Q := Outcome Settles) result).weaken
          exact fun _ _ h => settles_of_unspent (unspent_of_clean h.1)
      | lead flight =>
          apply Triple.attempt_bind (triple_acquireCoordinated hr cached interactive)
          intro result
          apply triple_neutral (o := .clearSlot (.refresh r.instanceId) flight) (fun _ _ _ => rfl)
            (lasting_const fun h => Settles result 0 h)
          intro _
          apply triple_neutral (o := .publishFlight flight result) (fun _ _ _ => rfl)
            (lasting_const fun h => Settles result 0 h)
          intro _
          apply Triple.settle (Q := Outcome Settles) result
  · exact fun _ _ h => h.elim

end Calls

/-- A call of `ensure` returns the access token of a refresh that was accepted, and starts no
login, if and only if the response carried an access token and no write failed after it. -/
theorem accepted_refresh_kept_iff (r : TokenRuntime) (hr : r.Store) (interactive : Option Bool)
    (i : ℕ) (c c' : Config Op Ans AuthError TokenSet (World × RefreshHistory))
    (hcall : c.pool i = r.ensure interactive) (hstart : c.world.2 = .empty)
    (hrun : (watch i RefreshHistory.after).Run c c') (result : Except AuthError TokenSet)
    (hresult : c'.pool i = .settle result) (payload : TokenPayload)
    (haccepted : payload ∈ c'.world.2.accepted) :
  ((∃ token, result = .ok token ∧ some token.accessToken = payload.accessToken) ∧
    c'.world.2.prompted = false) ↔ c'.world.2.kept = true
  := by
  have hensure := triple_ensure (i := i) hr interactive
  rw [← hcall] at hensure
  have hquiet : Quiet c.world.2 := by
    intro hne
    rw [hstart] at hne
    exact (hne rfl).elim
  obtain ⟨-, hsettled⟩ := watched_of_run (fun _ => lasting_const _) hensure hquiet hstart hrun
  apply hsettled result hresult payload haccepted

/-- A call whose cached token has expired, and which may not log in. -/
def expiredCall : Config Op Ans AuthError TokenSet (World × RefreshHistory) where
  world := (expiredCache, .empty)
  pool _ := (sampleRuntime 0).ensure (some false)

/-- The refresh of an expired token is accepted and returned. -/
theorem accepted_refresh_kept_once :
  ∃ c' result, (watch 0 RefreshHistory.after).Run expiredCall c' ∧
    c'.pool 0 = .settle result ∧
    (∃ token, result = .ok token ∧ some token.accessToken = some "access-2") ∧
    c'.world.2.prompted = false
  := by
  obtain ⟨c', hrun, hc'⟩ := Machine.exists_run_of_play (watch 0 RefreshHistory.after)
    (proceed 0 11 ++ proceedWith 0 (respond (.ok (samplePayload "access-2" "refresh-2"))) ++
      proceed 0 5)
    expiredCall
    (fun c' => c'.world.2 = ⟨[samplePayload "access-2" "refresh-2"], true, false⟩ ∧
      (c'.pool 0).result = some (.ok (sampleToken "access-2" "refresh-2" 4600000)))
    (by decide +kernel)
  obtain ⟨hhistory, hresult⟩ := of_decide_eq_true hc'
  have hpool := Program.eq_settle_of_result hresult
  have hiff := accepted_refresh_kept_iff (sampleRuntime 0) (.file rfl rfl) (some false) 0
    expiredCall c' rfl rfl hrun _ hpool (samplePayload "access-2" "refresh-2")
    (by simp [hhistory])
  exact ⟨c', _, hrun, hpool, hiff.mpr (by simp [hhistory])⟩

/-- A refresh is accepted, but cannot be written, and the call throws. -/
theorem accepted_refresh_thrown_away :
  ¬ ∀ c', (watch 0 RefreshHistory.after).Run expiredCall c' →
    ∀ result, c'.pool 0 = .settle result → ∀ payload ∈ c'.world.2.accepted,
      (∃ token, result = .ok token ∧ some token.accessToken = payload.accessToken) ∧
        c'.world.2.prompted = false
  := by
  intro h
  obtain ⟨c', hrun, hc'⟩ := Machine.exists_run_of_play (watch 0 RefreshHistory.after)
    (proceed 0 11 ++ proceedWith 0 (respond (.ok (samplePayload "access-2" "refresh-2"))) ++
      proceed 0 1 ++ proceedWith 0 diskFull ++ proceed 0 4)
    expiredCall
    (fun c' => c'.world.2.accepted = [samplePayload "access-2" "refresh-2"] ∧
      (c'.pool 0).result = some (.error (.interactiveRequired "idp")))
    (by decide +kernel)
  obtain ⟨haccepted, hresult⟩ := of_decide_eq_true hc'
  obtain ⟨⟨token, ⟨⟩, -⟩, -⟩ := h c' hrun _ (Program.eq_settle_of_result hresult)
    (samplePayload "access-2" "refresh-2") (by simp [haccepted])
