import OpencodeToolbelt.Async.Traces
import OpencodeToolbelt.TokenStores

/-!
# The refresh tokens that a call presents

One call of `ensure`, alone, with whatever answers it gets: of the token endpoint, of the cache
and of all the rest. It presents at most two refresh tokens, which are different.
-/

/-- The refresh token that an operation presents to the token endpoint. -/
def presentedBy : Op → Option String
  | .postToken _ (.refresh refreshToken) => some refreshToken
  | _ => none

/-- The refresh tokens presented in a trace, one for each request. -/
def presentedTokens (τ : Trace Op Ans) : List String :=
  τ.filterMap fun e => presentedBy e.1

namespace Presented

/-- The refresh tokens presented so far, after an operation. -/
def after (presented : List String) (o : Op) (_ : Ans o) : List String :=
  presented ++ (presentedBy o).toList

/-- No refresh token twice, and at most two. -/
def AtMostTwo (presented : List String) : Prop := presented.Nodup ∧ presented.length ≤ 2

theorem follow_eq (presented : List String) (τ : Trace Op Ans) :
  Program.follow after presented τ = presented ++ presentedTokens τ
  := by
  induction τ generalizing presented with
  | nil => simp [Program.follow, presentedTokens]
  | cons e τ ih =>
      have hrest := ih (after presented e.1 e.2)
      rw [Program.follow] at hrest ⊢
      rw [List.foldl_cons, hrest, after, presentedTokens, presentedTokens, List.filterMap_cons,
        List.append_assoc]
      cases presentedBy e.1 with
      | none => rfl
      | some refreshToken => rfl

theorem after_of_nonRefresh {o : Op} (ho : OAuthClient.NonRefresh o) (presented : List String)
    (a : Ans o) :
  after presented o a = presented
  := by
  have hnone : presentedBy o = none := by
    cases o with
    | postToken server request =>
        cases request with
        | refresh refreshToken => apply ho.elim
        | _ => rfl
    | _ => rfl
  rw [after, hnone, Option.toList_none, List.append_nil]

end Presented

open Presented

namespace TokenRuntime

/-- The store of a token runtime, which presents no refresh token of its own accord. -/
structure QuietStore (r : TokenRuntime) : Prop where
  getCached : r.getCached.Within OAuthClient.NonRefresh fun _ => True
  persist : ∀ token, (r.persist token).Within OAuthClient.NonRefresh fun _ => True

/-- The stores of the suite are quiet. -/
theorem Store.quiet {r : TokenRuntime} (h : r.Store) :
  r.QuietStore
  := by
  constructor
  · apply h.getCached_within.mono
    · apply nonRefresh_of_read
    · intro _ _
      trivial
  · intro token
    apply (h.persist_within token).mono
    · apply nonRefresh_of_write
    · intro _ _
      trivial

variable {r : TokenRuntime} {presented : List String}

/-- The parts of a call, from the refresh tokens that have been presented before them. -/
abbrev Presents {α : Type} (Q : Except AuthError α → List String → Prop) (p : Auth α)
    (presented : List String) : Prop :=
  p.Follows Presented.after AtMostTwo Q presented

/-- A refresh presents its token. -/
theorem presents_refreshPersisted (hr : r.QuietStore) {refreshToken : String}
    (hmost : AtMostTwo (presented ++ [refreshToken])) :
  Presents (fun _ after => after = presented ++ [refreshToken])
    (r.refreshPersisted refreshToken) presented
  := by
  apply Program.Follows.bind (Q := fun _ after => after = presented ++ [refreshToken])
  · intro response
    use hmost
    apply (Program.Follows.of_within (fun _ ho _ _ => after_of_nonRefresh ho _ _)
      (OAuthClient.readTokenResponse_within trivial response _ _ _) hmost).mono
    rintro _ _ ⟨-, hafter⟩
    apply hafter
  · rintro token _ rfl
    apply Program.Follows.within_bind (fun _ ho _ _ => after_of_nonRefresh ho _ _)
      (hr.persist token) hmost
    · intro _ _
      rfl
    · intro _ _
      rfl
  · rintro _ _ hafter
    apply hafter

/-- What presents no refresh token. -/
theorem presents_of_within {α : Type} {R : Except AuthError α → Prop} {p : Auth α}
    (hp : p.Within OAuthClient.NonRefresh R) (hmost : AtMostTwo presented) :
  Presents (fun _ => AtMostTwo) p presented
  := by
  apply (Program.Follows.of_within (fun _ ho _ _ => after_of_nonRefresh ho _ _) hp hmost).mono
  rintro _ _ ⟨-, rfl⟩
  apply hmost

/-- What presents no refresh token, and what follows it. -/
theorem presents_bind {α β : Type} {R : Except AuthError α → Prop} {p : Auth α}
    {f : α → Auth β} (hp : p.Within OAuthClient.NonRefresh R) (hmost : AtMostTwo presented)
    (hf : ∀ a, Presents (fun _ => AtMostTwo) (f a) presented) :
  Presents (fun _ => AtMostTwo) (p.bind f) presented
  := by
  apply Program.Follows.within_bind (fun _ ho _ _ => after_of_nonRefresh ho _ _) hp hmost
  · intro a _
    apply hf
  · intro _ _
    apply hmost

theorem atMostTwo_nil :
  AtMostTwo []
  := by simp [AtMostTwo]

theorem atMostTwo_one (refreshToken : String) :
  AtMostTwo [refreshToken]
  := by simp [AtMostTwo]

theorem validToken_nonRefresh (token : Option TokenSet) :
  (r.client.validToken token).Within OAuthClient.NonRefresh fun _ => True
  := ⟨trivial, fun _ => trivial⟩

theorem claimFlight_nonRefresh (slot : Slot) :
  (Auth.claimFlight slot).Within OAuthClient.NonRefresh fun _ => True
  := ⟨trivial, fun _ => trivial⟩

/-- The second attempt, if there is one, presents another token than the first. -/
theorem presents_recoverFromRejectedRefresh (hr : r.QuietStore) {base : TokenSet}
    {refreshToken : String} (hbase : base.refreshToken = some refreshToken) :
  Presents (fun _ => AtMostTwo) (r.recoverFromRejectedRefresh base) [refreshToken]
  := by
  apply presents_bind hr.getCached (atMostTwo_one _)
  intro newer
  apply presents_bind (validToken_nonRefresh newer) (atMostTwo_one _)
  intro valid
  cases valid with
  | some token => apply atMostTwo_one
  | none =>
      cases nonEmpty (newer.bind TokenSet.refreshToken) with
      | none => apply atMostTwo_one
      | some newerToken =>
          simp only [hbase, Option.some.injEq]
          split
          · apply atMostTwo_one
          · next hne =>
              have hmost : AtMostTwo ([refreshToken] ++ [newerToken]) := by
                simp [AtMostTwo, Ne.symm hne]
              apply (presents_refreshPersisted hr hmost).attempt_bind
              rintro result _ rfl
              cases result with
              | ok token => apply hmost
              | error e => apply hmost

/-- A login presents nothing once a refresh was attempted, or where there is nothing to
refresh with. -/
theorem login_within (hr : r.QuietStore) {base : Option TokenSet} {attempted : Bool}
    (interactive : Option Bool) (hno : attempted = true ∨ r.client.NoRefresh base) :
  (r.login base attempted interactive).Within OAuthClient.NonRefresh fun _ => True
  := by
  have hfallback : r.client.NoRefresh
      (if attempted then base.map fun token => { token with refreshToken := none }
        else base) := by
    cases attempted with
    | false => apply hno.resolve_left Bool.false_ne_true
    | true =>
        left
        cases base <;> rfl
  apply (OAuthClient.ensureToken_within hfallback interactive).bind
  · intro token _
    split
    · apply (hr.persist token).bind
      · intro _ _
        trivial
      · intro _ _
        trivial
    · trivial
  · intro _ _
    trivial

theorem presents_refreshOrLogin (hr : r.QuietStore) (base : Option TokenSet)
    (interactive : Option Bool) :
  Presents (fun _ => AtMostTwo) (r.refreshOrLogin base interactive) []
  := by
  cases base with
  | none => apply presents_of_within (login_within hr interactive (.inr (.inl rfl))) atMostTwo_nil
  | some token =>
      rw [refreshOrLogin]
      cases hrefresh : nonEmpty token.refreshToken with
      | none =>
          have hno : r.client.NoRefresh (some token) := .inl hrefresh
          apply presents_of_within (login_within hr interactive (.inr hno)) atMostTwo_nil
      | some refreshToken =>
          obtain ⟨hbase, -⟩ := Option.filter_eq_some_iff.mp hrefresh
          dsimp only
          split
          · have hmost : AtMostTwo ([] ++ [refreshToken]) := atMostTwo_one refreshToken
            apply (presents_refreshPersisted hr hmost).attempt_bind
            rintro result _ rfl
            have hlogin : Presents (fun _ => AtMostTwo)
                (r.login (some token) true interactive) [refreshToken] :=
              presents_of_within (login_within hr interactive (.inl rfl)) (atMostTwo_one _)
            cases result with
            | ok refreshed => apply atMostTwo_one
            | error e =>
                dsimp only
                split
                · apply (presents_recoverFromRejectedRefresh hr hbase).bind
                  · intro recovered after hafter
                    cases recovered with
                    | some found => apply hafter
                    | none =>
                        apply presents_of_within (login_within hr interactive (.inl rfl)) hafter
                  · intro _ _ hafter
                    apply hafter
                · apply hlogin
          · next huses =>
              have hno : r.client.NoRefresh (some token) := .inr (Bool.eq_false_iff.mpr huses)
              apply presents_of_within (login_within hr interactive (.inr hno)) atMostTwo_nil

theorem presents_acquireCoordinated (hr : r.QuietStore) (snapshot : Option TokenSet)
    (interactive : Option Bool) :
  Presents (fun _ => AtMostTwo) (r.acquireCoordinated snapshot interactive) []
  := by
  have hlock := r.acquireRefreshLock_within.mono (fun _ ho => nonRefresh_of_lock ho)
    (fun _ hlock => hlock)
  apply Program.Follows.within_bind (fun _ ho _ _ => after_of_nonRefresh ho _ _) hlock
    atMostTwo_nil
  · intro lock hacquired
    apply Program.Follows.tryFinally (Q := fun _ => AtMostTwo) (C := OAuthClient.NonRefresh)
    rotate_left
    · intro _ _ hafter
      apply hafter
    · intro _ ho _ _
      apply after_of_nonRefresh ho
    · apply (Auth.release_within hacquired).mono
      · intro _ ho
        apply nonRefresh_of_lock (.inl ho)
      · intro result hresult
        cases result with
        | ok released => rfl
        | error e => apply hresult.elim
    · apply presents_bind hr.getCached atMostTwo_nil
      intro reread
      apply presents_bind (validToken_nonRefresh reread) atMostTwo_nil
      intro valid
      cases valid with
      | some token => apply atMostTwo_nil
      | none => apply presents_refreshOrLogin hr
  · intro _ _
    apply atMostTwo_nil

theorem presents_ensure (hr : r.QuietStore) (interactive : Option Bool) :
  Presents (fun _ => AtMostTwo) (r.ensure interactive) []
  := by
  apply presents_bind hr.getCached atMostTwo_nil
  intro cached
  apply presents_bind (validToken_nonRefresh cached) atMostTwo_nil
  intro valid
  cases valid with
  | some token => apply atMostTwo_nil
  | none =>
      apply presents_bind (claimFlight_nonRefresh _) atMostTwo_nil
      intro claim
      cases claim with
      | join flight =>
          apply presents_of_within (R := fun _ => True) _ atMostTwo_nil
          exact ⟨trivial, fun _ => Program.Within.settle trivial⟩
      | lead flight =>
          apply (presents_acquireCoordinated hr cached interactive).attempt_bind
          intro result after hafter
          apply presents_of_within (R := fun _ => True) _ hafter
          exact ⟨trivial, fun _ => ⟨trivial, fun _ => Program.Within.settle trivial⟩⟩

/-- A call of `ensure` presents no refresh token twice, and makes at most two refresh requests. -/
theorem ensure_presents_once (r : TokenRuntime) (hr : r.QuietStore) (interactive : Option Bool)
    (τ : Trace Op Ans) (rest : Auth TokenSet) (hτ : (r.ensure interactive).Performs τ rest) :
  (presentedTokens τ).Nodup ∧ (presentedTokens τ).length ≤ 2
  := by
  have hmost := (presents_ensure hr interactive).follow atMostTwo_nil hτ
  rw [Presented.follow_eq, List.nil_append] at hmost
  apply hmost

deriving instance DecidableEq for Op

/-- A call whose refresh is refused twice: of the token it finds, and of the one that another
process has put in its place. It may not log in. -/
def refusedTwice : Trace Op Ans :=
  let cache := (sampleRuntime 0).cacheLoc
  let lock := (sampleRuntime 0).lockPath
  let first := Entry.ofToken (sampleToken "access-1" "refresh-1" 1)
  let second := Entry.ofToken (sampleToken "access-2" "refresh-2" 2)
  [⟨.load cache, some first⟩, ⟨.now, (1000000 : ℕ)⟩,
    ⟨.claimFlight (.refresh 0), Claim.lead 0⟩, ⟨.now, (1000000 : ℕ)⟩, ⟨.mkdirLocks lock, false⟩,
    ⟨.proceedUnlocked .unwritable, ()⟩, ⟨.load cache, some first⟩, ⟨.now, (1000000 : ℕ)⟩,
    ⟨.postToken sampleServer (.refresh "refresh-1"), TokenResponse.status 400⟩,
    ⟨.load cache, some second⟩, ⟨.now, (1000000 : ℕ)⟩,
    ⟨.postToken sampleServer (.refresh "refresh-2"), TokenResponse.status 400⟩,
    ⟨.now, (1000000 : ℕ)⟩, ⟨.clearSlot (.refresh 0) 0, ()⟩,
    ⟨.publishFlight 0 (.error (.interactiveRequired "idp")), ()⟩]

theorem refusedTwice_performs :
  ((sampleRuntime 0).ensure (some false)).Performs refusedTwice
    (.fail (.interactiveRequired "idp"))
  := by
  have hresult : (((sampleRuntime 0).ensure (some false)).replay refusedTwice).bind
      Program.result = some (Except.error (.interactiveRequired "idp")) := by decide +kernel
  obtain ⟨rest, hreplay, hrest⟩ := Option.bind_eq_some_iff.mp hresult
  have hperforms := Program.performs_of_replay hreplay
  rw [Program.eq_settle_of_result hrest] at hperforms
  apply hperforms

theorem ensure_presents_two :
  presentedTokens refusedTwice = ["refresh-1", "refresh-2"] ∧
    (presentedTokens refusedTwice).Nodup ∧ (presentedTokens refusedTwice).length ≤ 2
  := by
  constructor
  · rfl
  · apply ensure_presents_once (sampleRuntime 0) (Store.file rfl rfl).quiet (some false) _ _
      refusedTwice_performs

end TokenRuntime
