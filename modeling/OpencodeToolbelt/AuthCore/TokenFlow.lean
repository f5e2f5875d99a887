import OpencodeToolbelt.Async.RelyGuarantee
import OpencodeToolbelt.AuthCore.Host
import OpencodeToolbelt.AuthCore.ProjectToken
import OpencodeToolbelt.AuthCore.Watch

/-!
# The flow of tokens through a call

A call of `ensure` gets the tokens it presents, stores and returns from the store, from
responses of the token endpoint, and from the calls it joins. A token flow is a property
which all the tokens in hand have: given that it holds of what each operation obtains, it
holds of what the call presents, stores and returns.
-/

open Discipline

/-- The operations of a refresh that neither obtain nor store a token. -/
def QuietOp (path : Loc) : Op → Prop
  | .promptLogin _ => True
  | .claimFlight _ => True
  | .clearSlot _ _ => True
  | o => TokenRuntime.RefreshLockOp path o

theorem quietOp_of_lock {path : Loc} {o : Op} (ho : TokenRuntime.RefreshLockOp path o) :
  QuietOp path o
  := by
  cases o with
  | promptLogin server => trivial
  | claimFlight slot => trivial
  | clearSlot slot flight => trivial
  | _ => exact ho

section Predicates

variable {W : Type}

/-- A token set without a token, which is what the state of a server is read as. -/
def Blank (token : TokenSet) : Prop :=
  token.accessToken = "" ∧ nonEmpty token.refreshToken = none

/-- Which token is in hand, if one is. -/
def InHand (Held : TokenSet → W → Prop) (token : Option TokenSet) (w : W) : Prop :=
  ∀ t, token = some t → ¬ Blank t → Held t w

/-- A response from which only tokens with the property are read. -/
def Yields (Obtained : TokenSet → W → Prop) (fallback : Option String) (require : Bool)
    (response : TokenResponse) (w : W) : Prop :=
  ∀ payload now token, response = .ok payload →
    toTokenSet payload fallback require now = .ok token → Obtained token w

/-- A call that returns a token with the property, if it does not throw. -/
def Returns (Held : TokenSet → W → Prop) (result : Except AuthError TokenSet) (w : W) : Prop :=
  ∀ token, result = .ok token → Held token w

end Predicates

theorem returns_error {W : Type} {Held : TokenSet → W → Prop} (e : AuthError) (w : W) :
  Returns Held (.error e) w
  := by
  rintro token ⟨⟩

/-- What the quiet operations of a call, and the other threads, preserve. -/
structure Calm {G : Type} (D : Discipline (World × G)) (M : Machine Op Ans (World × G) ℕ)
    (i : ℕ) (path : Loc) (P : World × G → Prop) : Prop where
  stable : D.Stable i P
  quiet : ∀ o, QuietOp path o → ∀ w a, D.Inv w → M.allows i w o a → P w → P (M.post i w o a)

/-- The promises in a slot, of whose tokens a property holds. -/
structure Sharing {G : Type} (D : Discipline (World × G)) (M : Machine Op Ans (World × G) ℕ)
    (i : ℕ) (slot : Slot) (Held : TokenSet → World × G → Prop) where
  /-- A promise that has been in the slot. -/
  Promised : ℕ → World × G → Prop
  stable : ∀ flight, D.Stable i (Promised flight)
  kept : ∀ flight w o a, D.Inv w → Promised flight w → M.allows i w o a →
    Promised flight (M.post i w o a)
  claimed : ∀ w claim, D.Inv w → M.allows i w (.claimFlight slot) claim →
    D.Keeps i w (M.post i w (.claimFlight slot) claim) ∧
      ∀ flight, claim = .join flight ∨ claim = .lead flight →
        Promised flight (M.post i w (.claimFlight slot) claim)
  joined : ∀ flight w result, D.Inv w → Promised flight w →
    M.allows i w (.joinFlight flight) result →
      D.Keeps i w (M.post i w (.joinFlight flight) result) ∧
        Returns Held result (M.post i w (.joinFlight flight) result)
  published : ∀ flight result w, D.Inv w → Promised flight w → Returns Held result w →
    D.Keeps i w (M.post i w (.publishFlight flight result) ()) ∧
      Returns Held result (M.post i w (.publishFlight flight result) ())
  cleared : ∀ flight result w, D.Inv w → Returns Held result w →
    D.Keeps i w (M.post i w (.clearSlot slot flight) ()) ∧
      Returns Held result (M.post i w (.clearSlot slot flight) ())

/-- The property of the tokens that a call has in hand, and how its operations bear on it. -/
structure TokenFlow {G : Type} (D : Discipline (World × G)) (M : Machine Op Ans (World × G) ℕ)
    (i : ℕ) (r : TokenRuntime) where
  /-- What is known of a token that has been read or stored. -/
  Held : TokenSet → World × G → Prop
  /-- What is known of a token that has been received. -/
  Obtained : TokenSet → World × G → Prop
  /-- What is known of the identity token of the platform. -/
  Subject : String → World × G → Prop
  clock : ∀ w w', D.Rely i w w' → w.1.now ≤ w'.1.now
  tick : ∀ w o a, w.1.now ≤ (M.post i w o a).1.now
  reads : ∀ w now, M.allows i w .now now → now = w.1.now
  keeps : ∀ o, QuietOp r.lockPath o → ∀ w a, D.Inv w → M.allows i w o a →
    D.Keeps i w (M.post i w o a)
  held : ∀ token, Calm D M i r.lockPath (Held token)
  obtained : ∀ token, Calm D M i r.lockPath (Obtained token)
  subject : ∀ s, D.Stable i (Subject s)
  held_of_obtained : ∀ token w, Obtained token w → Held token w
  read : ∀ base, D.Triple M i (InHand Held base) r.getCached
    fun result w => ∃ token, result = .ok token ∧ InHand Held (token <|> base) w
  write : ∀ token, D.Triple M i (Obtained token) (r.persist token)
    fun result w => result = .ok () → Held token w
  refresh : ∀ base refreshToken w response, nonEmpty base.refreshToken = some refreshToken →
    D.Inv w → Held base w → M.allows i w (.postToken r.client.server (.refresh refreshToken)) response →
      D.Keeps i w (M.post i w (.postToken r.client.server (.refresh refreshToken)) response) ∧
        Yields Obtained (some refreshToken) true response
          (M.post i w (.postToken r.client.server (.refresh refreshToken)) response)
  secret : ∀ clientSecret w response, nonEmpty r.client.server.clientSecret = some clientSecret →
    D.Inv w → M.allows i w (.postToken r.client.server (.clientCredentials clientSecret)) response →
      D.Keeps i w (M.post i w (.postToken r.client.server (.clientCredentials clientSecret)) response) ∧
        Yields Obtained none false response
          (M.post i w (.postToken r.client.server (.clientCredentials clientSecret)) response)
  grant : ∀ s request w response, (request = .jwtBearer s ∨ ∃ params, request = .tokenExchange s params) →
    D.Inv w → Subject s w → M.allows i w (.postToken r.client.server request) response →
      D.Keeps i w (M.post i w (.postToken r.client.server request) response) ∧
        Yields Obtained none false response (M.post i w (.postToken r.client.server request) response)
  resolve : ∀ source w answer, r.client.server.subjectTokenSource = some source → D.Inv w →
    M.allows i w (.resolveSubjectToken source) answer →
    D.Keeps i w (M.post i w (.resolveSubjectToken source) answer) ∧
      ∀ s, answer = some s → Subject s (M.post i w (.resolveSubjectToken source) answer)
  login : ∀ w response, D.Inv w → M.allows i w (.awaitLogin r.client.server) response →
    D.Keeps i w (M.post i w (.awaitLogin r.client.server) response) ∧
      Yields Obtained none true response (M.post i w (.awaitLogin r.client.server) response)
  sharing : Sharing D M i (.refresh r.instanceId) Held

/-! ### Promises -/

namespace Sharing

variable {G : Type} {D : Discipline (World × G)} {M : Machine Op Ans (World × G) ℕ} {i : ℕ}
  {slot : Slot} {Held : TokenSet → World × G → Prop} (S : Sharing D M i slot Held) {α : Type}
  {Q : Except AuthError α → World × G → Prop}

theorem triple_claimFlight {P : World × G → Prop} {f : Claim → Auth α} (hP : D.Stable i P)
    (hstep : ∀ w claim, D.Inv w → M.allows i w (.claimFlight slot) claim → P w →
      P (M.post i w (.claimFlight slot) claim))
    (hjoin : ∀ flight, D.Triple M i (S.Promised flight) (f (.join flight)) Q)
    (hlead : ∀ flight, D.Triple M i (fun w => P w ∧ S.Promised flight w) (f (.lead flight)) Q) :
  D.Triple M i P ((Auth.claimFlight slot).bind f) Q
  := by
  apply Triple.perform_bind (o := Op.claimFlight slot) hP
    (R := fun (claim : Claim) w =>
      P w ∧ ∀ flight, claim = .join flight ∨ claim = .lead flight → S.Promised flight w)
  · intro w claim hw hPw ha
    obtain ⟨hkeeps, hpromised⟩ := S.claimed w claim hw ha
    exact ⟨hkeeps, hstep w claim hw ha hPw, hpromised⟩
  · intro claim
    cases claim with
    | join flight =>
        apply (hjoin flight).weaken
        exact fun w _ h => h.2 flight (.inl rfl)
    | lead flight =>
        apply (hlead flight).weaken
        exact fun w _ h => ⟨h.1, h.2 flight (.inr rfl)⟩

theorem triple_joinFlight (flight : ℕ) :
  D.Triple M i (S.Promised flight) (Auth.joinFlight flight) (Returns Held)
  := by
  apply Triple.perform_bind (o := Op.joinFlight flight) (S.stable flight)
    (R := fun (result : Except AuthError TokenSet) => Returns Held result)
  · exact fun w result hw hpromised ha => S.joined flight w result hw hpromised ha
  · exact fun result => Triple.settle (Q := Returns Held) result

/-- The shared part of a call, during which its promise remains one of the slot. -/
theorem triple_attempt {P : World × G → Prop} {p : Auth TokenSet} (flight : ℕ)
    {f : Except AuthError TokenSet → Auth α} (hp : D.Triple M i P p (Returns Held))
    (hf : ∀ result, D.Triple M i (fun w => Returns Held result w ∧ S.Promised flight w)
      (f result) Q) :
  D.Triple M i (fun w => P w ∧ S.Promised flight w) (p.attempt.bind f) Q
  := by
  apply Triple.attempt_bind
    (hp.frame (S.stable flight) fun w o a hw h ha => S.kept flight w o a hw h ha)
  exact hf

theorem stable_returns (hheld : ∀ token, D.Stable i (Held token))
    (result : Except AuthError TokenSet) :
  D.Stable i (Returns Held result)
  := fun w w' hw hw' hr h token ht => hheld token w w' hw hw' hr (h token ht)

include S

theorem triple_publishFlight (hheld : ∀ token, D.Stable i (Held token)) (flight : ℕ)
    (result : Except AuthError TokenSet) {p : Auth α}
    (hp : D.Triple M i (Returns Held result) p Q) :
  D.Triple M i (fun w => Returns Held result w ∧ S.Promised flight w)
    ((Auth.publishFlight flight result).bind fun _ => p) Q
  := by
  apply Triple.perform_bind (o := Op.publishFlight flight result)
    ((stable_returns hheld result).and (S.stable flight)) (R := fun _ => Returns Held result)
  · exact fun w _ hw h _ => S.published flight result w hw h.2 h.1
  · exact fun _ => hp

theorem triple_clearSlot (hheld : ∀ token, D.Stable i (Held token)) (flight : ℕ)
    (result : Except AuthError TokenSet) {P : World × G → Prop} (hP : D.Stable i P)
    (hstep : ∀ w o a, D.Inv w → P w → M.allows i w o a → P (M.post i w o a)) {p : Auth α}
    (hp : D.Triple M i (fun w => Returns Held result w ∧ P w) p Q) :
  D.Triple M i (fun w => Returns Held result w ∧ P w)
    ((Auth.clearSlot slot flight).bind fun _ => p) Q
  := by
  apply Triple.perform_bind (o := Op.clearSlot slot flight)
    ((stable_returns hheld result).and hP) (R := fun _ w => Returns Held result w ∧ P w)
  · intro w a hw h ha
    obtain ⟨hkeeps, hreturns⟩ := S.cleared flight result w hw h.1
    exact ⟨hkeeps, hreturns, hstep w _ _ hw h.2 ha⟩
  · exact fun _ => hp

/-- A cached token that is usable, or the outcome of an exchange which the calls share. -/
theorem triple_resolveProjectToken (hheld : ∀ token, D.Stable i (Held token)) (skewMs : ℚ)
    {cached : Auth (Option TokenSet)} {performExchange : Auth TokenSet}
    (hnow : ∀ w now, D.Inv w → M.allows i w .now now → D.Keeps i w (M.post i w .now now) ∧
      ∀ token, Held token w → Held token (M.post i w .now now))
    (hcached : D.Triple M i (fun _ => True) cached
      fun result w => ∃ token, result = .ok token ∧ InHand Held token w)
    (hexchange : D.Triple M i (fun _ => True) performExchange (Returns Held)) :
  D.Triple M i (fun _ => True) (resolveProjectToken slot skewMs cached performExchange)
    (Returns Held)
  := by
  apply Triple.bind hcached
  · intro token
    have hstable : D.Stable i (InHand Held token) :=
      fun w w' hw hw' hr h t ht hne => hheld t w w' hw hw' hr (h t ht hne)
    apply Triple.weaken (P := InHand Held token)
    · apply Triple.perform_bind (o := Op.now) hstable (R := fun _ => InHand Held token)
      · intro w now hw hhand ha
        obtain ⟨hkeeps, hkept⟩ := hnow w now hw ha
        exact ⟨hkeeps, fun t ht hne => hkept t (hhand t ht hne)⟩
      · intro now
        cases husable : token.filter (isProjectTokenUsable skewMs now) with
        | some t =>
            obtain ⟨htoken, hvalid⟩ := Option.filter_eq_some_iff.mp husable
            apply Triple.done
            rintro w - hhand t' ⟨⟩
            apply hhand t htoken
            rintro ⟨hblank, -⟩
            simp [isProjectTokenUsable, hblank] at hvalid
        | none =>
            apply Triple.weaken (P := fun _ => True) _ (fun _ _ _ => trivial)
            apply S.triple_claimFlight (Stable.const True) (fun _ _ _ _ _ => trivial)
            · exact fun flight => S.triple_joinFlight flight
            · intro flight
              apply S.triple_attempt flight hexchange
              intro result
              apply S.triple_publishFlight hheld flight result
              have hsettle : D.Triple M i (fun w => Returns Held result w ∧ True)
                  (Program.settle result : Auth TokenSet) (Returns Held) :=
                (Triple.settle result).weaken fun _ _ h => h.1
              apply (S.triple_clearSlot hheld flight result (Stable.const True)
                (fun _ _ _ _ _ _ => trivial) hsettle).weaken
              exact fun _ _ h => ⟨h, trivial⟩
    · rintro w - ⟨t, ⟨⟩, hhand⟩
      apply hhand
  · rintro e w - ⟨t, ⟨⟩, -⟩

end Sharing

namespace TokenFlow

variable {G : Type} {D : Discipline (World × G)} {M : Machine Op Ans (World × G) ℕ} {i : ℕ}
  {r : TokenRuntime} (F : TokenFlow D M i r) {α β : Type}

/-- A token that is in hand has expired. -/
def Expired (client : OAuthClient) (token : Option TokenSet) (w : World × G) : Prop :=
  ∀ t, token = some t → client.isTokenValid w.1.now t = false

theorem expired_of_le {client : OAuthClient} {token : Option TokenSet} {w w' : World × G}
    (hle : w.1.now ≤ w'.1.now) (h : Expired client token w) :
  Expired client token w'
  := by
  intro t ht
  by_contra hvalid
  have hearlier := OAuthClient.isTokenValid_of_le hle (Bool.of_not_eq_false hvalid)
  rw [h t ht] at hearlier
  cases hearlier

/-- A token that can be presented is not blank. -/
theorem not_blank_of_valid {client : OAuthClient} {now : ℕ} {token : TokenSet}
    (h : client.isTokenValid now token = true) :
  ¬ Blank token
  := by
  rintro ⟨hblank, -⟩
  simp [OAuthClient.isTokenValid, hblank] at h

theorem not_blank_of_refresh {token : TokenSet} {refreshToken : String}
    (h : nonEmpty token.refreshToken = some refreshToken) :
  ¬ Blank token
  := by
  rintro ⟨-, hblank⟩
  rw [h] at hblank
  cases hblank

theorem calm_const (p : Prop) :
  Calm D M i r.lockPath (fun _ => p)
  := ⟨Stable.const p, fun _ _ _ _ _ _ h => h⟩

theorem calm_and {P Q : World × G → Prop} (hP : Calm D M i r.lockPath P)
    (hQ : Calm D M i r.lockPath Q) :
  Calm D M i r.lockPath (fun w => P w ∧ Q w)
  := ⟨hP.stable.and hQ.stable,
    fun o ho w a hw ha h => ⟨hP.quiet o ho w a hw ha h.1, hQ.quiet o ho w a hw ha h.2⟩⟩

theorem calm_forall {ι : Type} {P : ι → World × G → Prop}
    (hP : ∀ x, Calm D M i r.lockPath (P x)) :
  Calm D M i r.lockPath (fun w => ∀ x, P x w)
  := ⟨fun w w' hw hw' hr h x => (hP x).stable w w' hw hw' hr (h x),
    fun o ho w a hw ha h x => (hP x).quiet o ho w a hw ha (h x)⟩

theorem calm_imp {p : Prop} {P : World × G → Prop} (hP : Calm D M i r.lockPath P) :
  Calm D M i r.lockPath (fun w => p → P w)
  := ⟨hP.stable.imp, fun o ho w a hw ha h hp => hP.quiet o ho w a hw ha (h hp)⟩

theorem calm_inHand (token : Option TokenSet) :
  Calm D M i r.lockPath (InHand F.Held token)
  := calm_forall fun t => calm_imp (calm_imp (F.held t))

theorem calm_yields (fallback : Option String) (require : Bool) (response : TokenResponse) :
  Calm D M i r.lockPath (Yields F.Obtained fallback require response)
  := calm_forall fun _ => calm_forall fun _ => calm_forall fun token =>
    calm_imp (calm_imp (F.obtained token))

theorem calm_returns (result : Except AuthError TokenSet) :
  Calm D M i r.lockPath (Returns F.Held result)
  := calm_forall fun token => calm_imp (F.held token)

include F

theorem expired_stable (client : OAuthClient) (token : Option TokenSet) :
  D.Stable i (Expired client token)
  := fun w w' _ _ hr => expired_of_le (F.clock w w' hr)

theorem expired_step (client : OAuthClient) (token : Option TokenSet) (w : World × G) (o : Op)
    (a : Ans o) (h : Expired client token w) :
  Expired client token (M.post i w o a)
  := expired_of_le (F.tick w o a) h

theorem calm_expired (client : OAuthClient) (token : Option TokenSet) :
  Calm D M i r.lockPath (Expired client token)
  := ⟨F.expired_stable client token, fun o _ w a _ _ => F.expired_step client token w o a⟩

/-! ### Quiet parts of the call -/

theorem triple_quiet {P : World × G → Prop} {R : Except AuthError α → Prop} {p : Auth α}
    (hP : Calm D M i r.lockPath P) (hp : p.Within (QuietOp r.lockPath) R) :
  D.Triple M i P p (fun result w => R result ∧ P w)
  := by
  induction p with
  | done a => exact fun _ _ h => ⟨hp, h⟩
  | fail e => exact fun _ _ h => ⟨hp, h⟩
  | call o k ih =>
      apply Triple.call hP.stable (R := fun _ => P)
      · intro w a hw hPw ha
        exact ⟨F.keeps o hp.1 w a hw ha, hP.quiet o hp.1 w a hw ha hPw⟩
      · exact fun a => ih a (hp.2 a)

theorem triple_quiet_bind {P : World × G → Prop} {R : Except AuthError α → Prop} {p : Auth α}
    {f : α → Auth β} {Q : Except AuthError β → World × G → Prop} (hP : Calm D M i r.lockPath P)
    (hp : p.Within (QuietOp r.lockPath) R)
    (hf : ∀ a, R (.ok a) → D.Triple M i P (f a) Q) (he : ∀ e, ¬ R (.error e)) :
  D.Triple M i P (p.bind f) Q
  := by
  apply Triple.bind (F.triple_quiet hP hp)
  · exact fun a => Triple.assume (hf a)
  · exact fun e _ _ h => (he e h.1).elim

/-- The call reads the clock to tell whether a token is valid: one that is not has expired. -/
theorem triple_validToken {P : World × G → Prop} {token : Option TokenSet}
    {f : Option TokenSet → Auth β} {Q : Except AuthError β → World × G → Prop}
    (hP : Calm D M i r.lockPath P)
    (hsome : ∀ t, token = some t → ¬ Blank t → D.Triple M i P (f (some t)) Q)
    (hnone : D.Triple M i (fun w => P w ∧ Expired r.client token w) (f none) Q) :
  D.Triple M i P ((r.client.validToken token).bind f) Q
  := by
  apply Triple.perform_bind (o := Op.now) hP.stable
    (R := fun (now : ℕ) w => P w ∧ now ≤ w.1.now)
  · intro w now hw hPw ha
    obtain rfl := F.reads w now ha
    exact ⟨F.keeps .now (.inl trivial) w _ hw ha,
      hP.quiet .now (.inl trivial) w _ hw ha hPw, F.tick w .now _⟩
  · intro now
    cases hvalid : token.filter (r.client.isTokenValid now) with
    | some t =>
        obtain ⟨htoken, ht⟩ := Option.filter_eq_some_iff.mp hvalid
        apply (hsome t htoken (not_blank_of_valid ht)).weaken
        exact fun w _ h => h.1
    | none =>
        apply hnone.weaken
        rintro w - ⟨hPw, hle⟩
        use hPw
        rintro t rfl
        by_contra hne
        have hearlier := OAuthClient.isTokenValid_of_le hle (Bool.of_not_eq_false hne)
        simp [Option.filter, hearlier] at hvalid

/-! ### Requests -/

theorem triple_readTokenResponse (response : TokenResponse) (fallback : Option String)
    (require : Bool) (rejected : ℕ → AuthError) :
  D.Triple M i (Yields F.Obtained fallback require response)
    (OAuthClient.readTokenResponse response fallback require rejected) (Returns F.Obtained)
  := by
  cases response with
  | failed => exact Triple.fail fun _ _ _ => returns_error _ _
  | status status => exact Triple.fail fun _ _ _ => returns_error _ _
  | ok payload =>
      apply F.triple_quiet_bind (F.calm_yields fallback require (.ok payload))
        (R := Auth.Settled) (p := Auth.now) ⟨.inl trivial, fun _ => trivial⟩
      · intro now _
        apply (Triple.settle _).weaken
        exact fun w _ h token ht => h payload now token rfl ht
      · exact fun _ h => h

theorem triple_refreshToken {base : TokenSet} {refreshToken : String}
    (h : nonEmpty base.refreshToken = some refreshToken) :
  D.Triple M i (F.Held base) (r.client.refreshToken refreshToken) (Returns F.Obtained)
  := by
  apply Triple.perform_bind (o := Op.postToken r.client.server (.refresh refreshToken))
    (F.held base).stable
  · exact fun w response hw hheld ha => F.refresh base refreshToken w response h hw hheld ha
  · exact fun response => F.triple_readTokenResponse response _ _ _

theorem triple_loginClientCredentials :
  D.Triple M i (fun _ => True) r.client.loginClientCredentials (Returns F.Obtained)
  := by
  unfold OAuthClient.loginClientCredentials
  cases hsecret : nonEmpty r.client.server.clientSecret with
  | none => exact Triple.fail fun _ _ _ => returns_error _ _
  | some clientSecret =>
      apply Triple.perform_bind (o := Op.postToken r.client.server (.clientCredentials clientSecret))
        (Stable.const True)
      · exact fun w response hw _ ha => F.secret clientSecret w response hsecret hw ha
      · exact fun response => F.triple_readTokenResponse response _ _ _

theorem triple_postFederatedGrant {request : String → TokenRequest}
    (h : ∀ s, request s = .jwtBearer s ∨ ∃ params, request s = .tokenExchange s params) :
  D.Triple M i (fun _ => True) (r.client.postFederatedGrant request) (Returns F.Obtained)
  := by
  unfold OAuthClient.postFederatedGrant
  cases hsource : r.client.server.subjectTokenSource with
  | none => exact Triple.fail fun _ _ _ => returns_error _ _
  | some source =>
      apply Triple.perform_bind (o := Op.resolveSubjectToken source) (Stable.const True)
        (R := fun (answer : Option String) w => ∀ s, answer = some s → F.Subject s w)
      · exact fun w answer hw _ ha => F.resolve source w answer hsource hw ha
      · intro answer
        cases answer with
        | none => exact Triple.fail fun _ _ _ => returns_error _ _
        | some s =>
            apply Triple.perform_bind (P := fun w => ∀ s', some s = some s' → F.Subject s' w)
              (o := Op.postToken r.client.server (request s))
            · intro w w' hw hw' hr hs s' hs'
              apply F.subject s' w w' hw hw' hr (hs s' hs')
            · exact fun w response hw hs ha => F.grant s (request s) w response (h s) hw (hs s rfl) ha
            · exact fun response => F.triple_readTokenResponse response _ _ _

theorem triple_loginInteractive :
  D.Triple M i (fun _ => True) r.client.loginInteractive (Returns F.Obtained)
  := by
  apply F.triple_quiet_bind (calm_const True) (R := Auth.Settled)
    (p := Auth.perform (.promptLogin r.client.server)) ⟨trivial, fun _ => trivial⟩
  · intro _ _
    apply Triple.perform_bind (o := Op.awaitLogin r.client.server) (Stable.const True)
    · exact fun w response hw _ ha => F.login w response hw ha
    · exact fun response => F.triple_readTokenResponse response _ _ _
  · exact fun _ h => h

/-- Without a valid token, and without a refresh token to present, a token is obtained by a
login. -/
theorem triple_ensureToken {current : Option TokenSet} (h : r.client.NoRefresh current)
    (interactive : Option Bool) :
  D.Triple M i (Expired r.client current) (r.client.ensureToken current interactive)
    (Returns F.Obtained)
  := by
  apply Triple.perform_bind (o := Op.now) (F.expired_stable r.client current)
    (R := fun (now : ℕ) _ => current.filter (r.client.isTokenValid now) = none)
  · intro w now hw hexpired ha
    obtain rfl := F.reads w now ha
    use F.keeps .now (.inl trivial) w _ hw ha
    cases current with
    | none => rfl
    | some t => simp [Option.filter, hexpired t rfl]
  · intro now
    cases hvalid : current.filter (r.client.isTokenValid now) with
    | some t =>
        apply Triple.absurd
        simp
    | none =>
        have huser : r.client.usesRefreshToken = true →
            D.Triple M i (fun _ => True) (r.client.ensureUserToken current interactive)
              (Returns F.Obtained) := by
          intro huses
          have hnone := h.resolve_right (by simp [huses])
          simp only [OAuthClient.ensureUserToken, OAuthClient.tryRefreshToken, hnone,
            Program.pure_eq, Program.bind_eq, Program.bind]
          split
          · exact Triple.fail fun _ _ _ => returns_error _ _
          · apply F.triple_loginInteractive
        apply Triple.weaken (P := fun _ => True) _ (fun _ _ _ => trivial)
        cases hflow : r.client.server.authFlow with
        | clientCredentials => apply F.triple_loginClientCredentials
        | jwtBearer => exact F.triple_postFederatedGrant fun _ => .inl rfl
        | tokenExchange => exact F.triple_postFederatedGrant fun _ => .inr ⟨_, rfl⟩
        | authorizationCode => apply huser (by simp [OAuthClient.usesRefreshToken, hflow, MACHINE_FLOWS])
        | deviceCode => apply huser (by simp [OAuthClient.usesRefreshToken, hflow, MACHINE_FLOWS])

/-! ### The call -/

theorem triple_persisted (token : TokenSet) :
  D.Triple M i (F.Obtained token) (r.persisted token) (Returns F.Held)
  := by
  apply Triple.bind (F.write token)
  · intro _
    apply Triple.done
    rintro w - hheld t ⟨⟩
    apply hheld rfl
  · exact fun _ _ _ _ => nofun

omit F in
/-- A token that a part of the call returned, if it did, is in hand. -/
theorem triple_returned {p : Auth TokenSet} {P : World × G → Prop}
    {Held : TokenSet → World × G → Prop} {f : TokenSet → Auth α}
    {Q : Except AuthError α → World × G → Prop} (hp : D.Triple M i P p (Returns Held))
    (hf : ∀ token, D.Triple M i (Held token) (f token) Q)
    (he : ∀ e w, Q (.error e) w) :
  D.Triple M i P (p.bind f) Q
  := by
  apply Triple.bind hp
  · intro token
    apply (hf token).weaken
    exact fun w _ h => h token rfl
  · exact fun e w _ _ => he e w

theorem triple_refreshPersisted {base : TokenSet} {refreshToken : String}
    (h : nonEmpty base.refreshToken = some refreshToken) :
  D.Triple M i (F.Held base) (r.refreshPersisted refreshToken) (Returns F.Held)
  := by
  apply triple_returned (F.triple_refreshToken h)
  · exact fun token => F.triple_persisted token
  · exact fun _ _ => returns_error _ _

/-- What follows a refresh: a token, or the end of it, at which what had expired still has. -/
theorem triple_attempted (base : TokenSet) {refreshToken : String} {P : World × G → Prop}
    (hP : D.Stable i P)
    (hstep : ∀ w o a, D.Inv w → P w → M.allows i w o a → P (M.post i w o a))
    (h : nonEmpty base.refreshToken = some refreshToken)
    {f : Except AuthError TokenSet → Auth α} {Q : Except AuthError α → World × G → Prop}
    (hok : ∀ token, D.Triple M i (F.Held token) (f (.ok token)) Q)
    (herror : ∀ e, D.Triple M i P (f (.error e)) Q) :
  D.Triple M i (fun w => F.Held base w ∧ P w)
    ((r.refreshPersisted refreshToken).attempt.bind f) Q
  := by
  apply Triple.attempt_bind ((F.triple_refreshPersisted h).frame hP hstep)
  intro result
  cases result with
  | ok token =>
      apply (hok token).weaken
      exact fun w _ hw => hw.1 token rfl
  | error e =>
      apply (herror e).weaken
      exact fun w _ hw => hw.2

/-- The token read, if one is, is in hand. -/
theorem triple_getCached (base : Option TokenSet) {P : World × G → Prop} (hP : D.Stable i P)
    (hstep : ∀ w o a, D.Inv w → P w → M.allows i w o a → P (M.post i w o a))
    {f : Option TokenSet → Auth α} {Q : Except AuthError α → World × G → Prop}
    (hf : ∀ token, D.Triple M i (fun w => InHand F.Held (token <|> base) w ∧ P w) (f token) Q) :
  D.Triple M i (fun w => InHand F.Held base w ∧ P w) (r.getCached.bind f) Q
  := by
  apply Triple.bind ((F.read base).frame hP hstep)
  · intro token
    apply (hf token).weaken
    rintro w - ⟨⟨t, ⟨⟩, hhand⟩, hPw⟩
    exact ⟨hhand, hPw⟩
  · rintro e w - ⟨⟨t, ⟨⟩, -⟩, -⟩

theorem triple_recoverFromRejectedRefresh (base : TokenSet) {P : World × G → Prop}
    (hP : Calm D M i r.lockPath P)
    (hstep : ∀ w o a, D.Inv w → P w → M.allows i w o a → P (M.post i w o a))
    {f : Option TokenSet → Auth α} {Q : Except AuthError α → World × G → Prop}
    (hsome : ∀ token, D.Triple M i (F.Held token) (f (some token)) Q)
    (hnone : D.Triple M i P (f none) Q) :
  D.Triple M i P ((r.recoverFromRejectedRefresh base).bind f) Q
  := by
  have hend : ∀ p : Auth (Option TokenSet), D.Triple M i P (Program.bind (.done none) f) Q :=
    fun _ => hnone
  rw [TokenRuntime.recoverFromRejectedRefresh, Program.bind_eq, Program.bind_assoc]
  apply Triple.weaken (F.triple_getCached none hP.stable hstep (Q := Q) _)
    fun w _ h => ⟨nofun, h⟩
  intro newer
  rw [Program.bind_eq, Program.bind_assoc]
  apply F.triple_validToken (calm_and (F.calm_inHand _) hP)
  · intro t ht hblank
    apply (hsome t).weaken
    exact fun w _ h => h.1 t (by rw [ht]; rfl) hblank
  · cases hrefresh : nonEmpty (newer.bind TokenSet.refreshToken) with
    | none =>
        apply hnone.weaken
        exact fun w _ h => h.1.2
    | some refreshToken =>
        obtain ⟨t, rfl⟩ : ∃ t, newer = some t := by
          cases newer with
          | none => cases hrefresh
          | some t => exact ⟨t, rfl⟩
        simp only
        split
        · apply hnone.weaken
          exact fun w _ h => h.1.2
        · rw [Program.bind_eq, Program.bind_assoc]
          apply Triple.weaken (F.triple_attempted t hP.stable hstep hrefresh
            (fun token => hsome token) (fun _ => hnone))
          exact fun w _ h => ⟨h.1.1 t rfl (not_blank_of_refresh hrefresh), h.1.2⟩

theorem triple_login {base : Option TokenSet} {attempted : Bool} (interactive : Option Bool)
    (h : attempted = true ∨ r.client.NoRefresh base) :
  D.Triple M i (Expired r.client base) (r.login base attempted interactive) (Returns F.Held)
  := by
  have hfallback : r.client.NoRefresh
      (if attempted then base.map fun token => { token with refreshToken := none }
        else base) := by
    cases attempted with
    | false => exact h.resolve_left Bool.false_ne_true
    | true =>
        left
        cases base <;> rfl
  apply triple_returned ((F.triple_ensureToken hfallback interactive).weaken _)
  · intro token
    split
    · apply F.triple_persisted token
    · apply Triple.done
      rintro w - hobtained t ⟨⟩
      apply F.held_of_obtained token w hobtained
  · exact fun _ _ => returns_error _ _
  · rintro w - hexpired t ht
    cases attempted with
    | false => exact hexpired t ht
    | true =>
        obtain ⟨t', rfl, rfl⟩ := Option.map_eq_some_iff.mp ht
        apply hexpired t' rfl

theorem triple_refreshOrLogin (base : Option TokenSet) (interactive : Option Bool) :
  D.Triple M i (fun w => InHand F.Held base w ∧ Expired r.client base w)
    (r.refreshOrLogin base interactive) (Returns F.Held)
  := by
  have hlogin : ∀ attempted, (attempted = true ∨ r.client.NoRefresh base) →
      D.Triple M i (Expired r.client base) (r.login base attempted interactive)
        (Returns F.Held) :=
    fun _ hno => F.triple_login interactive hno
  unfold TokenRuntime.refreshOrLogin
  split
  · exact (hlogin false (.inr (.inl rfl))).weaken fun _ _ h => h.2
  · next token =>
      split
      · next hnone => exact (hlogin false (.inr (.inl hnone))).weaken fun _ _ h => h.2
      · next refreshToken hrefresh =>
          have hstep : ∀ w o a, D.Inv w → Expired r.client (some token) w → M.allows i w o a →
              Expired r.client (some token) (M.post i w o a) :=
            fun w o a _ h _ => F.expired_step r.client (some token) w o a h
          have hdone : ∀ t : TokenSet,
              D.Triple M i (F.Held t) (Program.done t : Auth TokenSet) (Returns F.Held) := by
            intro t
            apply Triple.done
            rintro w - hheld t' ⟨⟩
            apply hheld
          split
          · apply Triple.weaken (F.triple_attempted token
              (F.expired_stable r.client (some token)) hstep hrefresh hdone _)
            · exact fun w _ h => ⟨h.1 token rfl (not_blank_of_refresh hrefresh), h.2⟩
            · intro error
              simp only
              split
              · apply F.triple_recoverFromRejectedRefresh token
                  (F.calm_expired r.client (some token)) hstep hdone
                apply hlogin true (.inl rfl)
              · apply hlogin true (.inl rfl)
          · next huses =>
              have hno : r.client.NoRefresh (some token) := .inr (Bool.eq_false_iff.mpr huses)
              exact (hlogin false (.inr hno)).weaken fun _ _ h => h.2

theorem triple_acquireCoordinated (snapshot : Option TokenSet) (interactive : Option Bool) :
  D.Triple M i (fun w => InHand F.Held snapshot w ∧ Expired r.client snapshot w)
    (r.acquireCoordinated snapshot interactive) (Returns F.Held)
  := by
  have hstep : ∀ w o a, D.Inv w → Expired r.client snapshot w → M.allows i w o a →
      Expired r.client snapshot (M.post i w o a) :=
    fun w o a _ h _ => F.expired_step r.client snapshot w o a h
  apply F.triple_quiet_bind (calm_and (F.calm_inHand snapshot) (F.calm_expired r.client snapshot))
    (r.acquireRefreshLock_within.mono (fun o ho => quietOp_of_lock ho) (fun _ h => h))
  · intro lock hlock
    apply Triple.tryFinally (R := Returns F.Held)
    · apply F.triple_getCached snapshot (F.expired_stable r.client snapshot) hstep
      intro reread
      apply F.triple_validToken (calm_and (F.calm_inHand _) (F.calm_expired r.client snapshot))
      · intro t ht hblank
        apply Triple.done
        rintro w - ⟨hhand, -⟩ t' ⟨⟩
        apply hhand t (by rw [ht]; rfl) hblank
      · apply (F.triple_refreshOrLogin _ interactive).weaken
        rintro w - ⟨⟨hhand, hsnapshot⟩, hreread⟩
        use hhand
        intro t ht
        cases reread with
        | none => exact hsnapshot t ht
        | some found => exact hreread t ht
    · intro result
      have hrelease := F.triple_quiet (F.calm_returns result)
        ((Auth.release_within hlock).mono (fun o ho => quietOp_of_lock (.inl ho)) (fun _ h => h))
      apply hrelease.strengthen
      rintro s w - ⟨hs, hreturns⟩
      cases s with
      | ok a => exact ⟨rfl, hreturns⟩
      | error e => exact hs.elim
  · exact fun _ h => h

/-- A call of `ensure` returns a token with the property, if it does not throw. -/
theorem triple_ensure (interactive : Option Bool) :
  D.Triple M i (fun _ => True) (r.ensure interactive) (Returns F.Held)
  := by
  have hheld : ∀ token, D.Stable i (F.Held token) := fun token => (F.held token).stable
  apply Triple.weaken (F.triple_getCached none (Stable.const True) (fun _ _ _ _ _ _ => trivial) _)
    fun w _ _ => ⟨nofun, trivial⟩
  intro cached
  have hcalm := calm_and (F.calm_inHand (cached <|> none)) (calm_const (D := D) (M := M) True)
  apply F.triple_validToken hcalm
  · intro t ht hblank
    apply Triple.done
    rintro w - ⟨hhand, -⟩ t' ⟨⟩
    apply hhand t (by rw [ht]; rfl) hblank
  · have hclaim := calm_and hcalm (F.calm_expired r.client cached)
    apply F.sharing.triple_claimFlight hclaim.stable
    · exact fun w claim hw ha h => hclaim.quiet (.claimFlight _) trivial w claim hw ha h
    · exact fun flight => F.sharing.triple_joinFlight flight
    · intro flight
      have hlead : D.Triple M i
          (fun w => (InHand F.Held (cached <|> none) w ∧ True) ∧ Expired r.client cached w)
          (r.acquireCoordinated cached interactive) (Returns F.Held) := by
        apply (F.triple_acquireCoordinated cached interactive).weaken
        exact fun w _ h => ⟨by simpa using h.1.1, h.2⟩
      apply F.sharing.triple_attempt flight hlead
      intro result
      apply F.sharing.triple_clearSlot hheld flight result (F.sharing.stable flight)
        fun w o a hw h ha => F.sharing.kept flight w o a hw h ha
      apply F.sharing.triple_publishFlight hheld flight result
      apply Triple.settle (Q := Returns F.Held) result

end TokenFlow
