import OpencodeToolbelt.AuthCore.Provenance

/-!
# Tracing the calls of the runtimes

The calls of the token runtimes, of the lightbridge runtimes, of the repo-auth plugins and of
the sync engines, in any number and in any interleaving, while files, requests and logins may
fail. Each of them keeps what the places it uses are for.
-/

open TokenEvent Discipline

namespace Tracing

section Triples

variable {uses : Place → Purpose → Prop} {i : ℕ} {α β : Type}

/-! ### What lasts -/

/-- A predicate that holds on as the history goes on. -/
def Lasts (P : World × TokenHistory → Prop) : Prop := ∀ w w', w.2.Later w'.2 → P w → P w'

theorem Lasts.and {P P' : World × TokenHistory → Prop} (h : Lasts P) (h' : Lasts P') :
  Lasts (fun w => P w ∧ P' w)
  := fun w w' hle hw => ⟨h w w' hle hw.1, h' w w' hle hw.2⟩

theorem lasts_const (p : Prop) :
  Lasts (fun _ => p)
  := fun _ _ _ h => h

theorem Lasts.stable {P : World × TokenHistory → Prop} (h : Lasts P) :
  (traceDiscipline uses).Stable i P
  := fun w w' _ _ hr hP => h w w' hr.2 hP

theorem Lasts.post {P : World × TokenHistory → Prop} (h : Lasts P) {w : World × TokenHistory}
    (hP : P w) (o : Op) (a : Ans o) :
  P (tokenHost.post i w o a)
  := h w _ (w.2.later_after i w.1 o a) hP

theorem Lasts.calm {P : World × TokenHistory → Prop} (h : Lasts P) (path : Loc) :
  Calm (traceDiscipline uses) tokenHost i path P
  := ⟨h.stable, fun o _ _ a _ _ hP => h.post hP o a⟩

/-- A token serves a purpose. -/
def Held (purpose : Purpose) (token : TokenSet) (w : World × TokenHistory) : Prop :=
  purpose.Serves token w.2.events

/-- What a file was read as is what a purpose demands. -/
def Read (purpose : Purpose) (entry : Option Entry) (w : World × TokenHistory) : Prop :=
  ∀ found, entry = some found → purpose.Keeps w.2.events found

theorem lasts_held (purpose : Purpose) (token : TokenSet) :
  Lasts (Held purpose token)
  := fun _ _ hle h => Purpose.Serves.later hle.events h

theorem lasts_inHand (purpose : Purpose) (token : Option TokenSet) :
  Lasts (InHand (Held purpose) token)
  := fun w w' hle h t ht hne => lasts_held purpose t w w' hle (h t ht hne)

theorem lasts_read (purpose : Purpose) (entry : Option Entry) :
  Lasts (Read purpose entry)
  := fun _ _ hle h found hfound => (h found hfound).later hle.events

/-- What is read as a token serves the purpose of its file. -/
theorem inHand_of_read {purpose : Purpose} {entry : Option Entry} {w : World × TokenHistory}
    (h : Read purpose entry w) :
  InHand (Held purpose) (entry.map Entry.toTokenSet) w
  := by
  rintro token htoken hblank
  obtain ⟨found, rfl, rfl⟩ := Option.map_eq_some_iff.mp htoken
  have hkeeps := h found rfl
  cases found with
  | ofToken token => apply hkeeps
  | ofState state => cases hblank ⟨rfl, rfl⟩

/-- What is read as the state of a server carries a token that serves the purpose of its
file. -/
theorem held_of_read {purpose : Purpose} {entry : Option Entry} {w : World × TokenHistory}
    (h : Read purpose entry w) {serverId : String} {state : CachedServerState}
    (hstate : entry.bind (Entry.toServerState serverId) = some state) :
  state.serverId = serverId ∧ ∀ token, state.token = some token → Held purpose token w
  := by
  obtain ⟨found, rfl, hfound⟩ := Option.bind_eq_some_iff.mp hstate
  have hkeeps := h found rfl
  cases found with
  | ofToken token => cases hfound
  | ofState persisted =>
      rw [Entry.toServerState] at hfound
      split at hfound
      · next hserver =>
          obtain rfl := Option.some.inj hfound
          use hserver
          intro token htoken
          apply hkeeps token (Option.filter_eq_some_iff.mp htoken).1
      · cases hfound

/-! ### Operations -/

/-- An operation that keeps the invariant, after which what was known still is. -/
theorem triple_op {P : World × TokenHistory → Prop} (hP : Lasts P) {o : Op}
    {f : Ans o → Auth β} {R : Ans o → World × TokenHistory → Prop}
    {Q : Except AuthError β → World × TokenHistory → Prop}
    (hstep : ∀ w a, Traced uses w → P w → tokenHost.allows i w o a →
      Traced uses (tokenHost.post i w o a) ∧ R a (tokenHost.post i w o a))
    (hf : ∀ a, (traceDiscipline uses).Triple tokenHost i (fun w => P w ∧ R a w) (f a) Q) :
  (traceDiscipline uses).Triple tokenHost i P ((Auth.perform o).bind f) Q
  := by
  apply Triple.perform_bind hP.stable (R := fun a w => P w ∧ R a w) _ hf
  intro w a hw hPw ha
  obtain ⟨htraced, hR⟩ := hstep w a hw hPw ha
  exact ⟨keeps_of_traced htraced, hP.post hPw o a, hR⟩

theorem triple_inert {P : World × TokenHistory → Prop} (hP : Lasts P) {o : Op} (ho : Inert o)
    {f : Ans o → Auth β} {Q : Except AuthError β → World × TokenHistory → Prop}
    (hf : ∀ a, (traceDiscipline uses).Triple tokenHost i P (f a) Q) :
  (traceDiscipline uses).Triple tokenHost i P ((Auth.perform o).bind f) Q
  := by
  apply triple_op hP (R := fun _ _ => True)
  · exact fun w a hw _ _ => ⟨traced_inert hw ho a, trivial⟩
  · exact fun a => (hf a).weaken fun _ _ h => h.1

theorem triple_load {P : World × TokenHistory → Prop} (hP : Lasts P) {loc : Loc}
    {purpose : Purpose} (huses : uses (.file loc) purpose) {f : Option Entry → Auth β}
    {Q : Except AuthError β → World × TokenHistory → Prop}
    (hf : ∀ entry, (traceDiscipline uses).Triple tokenHost i
      (fun w => P w ∧ Read purpose entry w) (f entry) Q) :
  (traceDiscipline uses).Triple tokenHost i P ((Auth.load loc).bind f) Q
  := by
  apply triple_op (o := Op.load loc) hP (R := fun (entry : Option Entry) => Read purpose entry) _ hf
  intro w entry hw _ ha
  have hinert : Inert (.load loc) := trivial
  use traced_inert hw hinert entry
  rintro found rfl
  obtain hget | ⟨⟨⟩⟩ := ha
  apply hw.files loc purpose found huses hget.symm

/-- A token is written where it serves. -/
theorem triple_save (hsep : Separate uses) {P : World × TokenHistory → Prop} (hP : Lasts P)
    {loc : Loc} {entry : Entry} {purpose : Purpose} (huses : uses (.file loc) purpose)
    (h : ∀ w, P w → purpose.Keeps w.2.events entry) :
  (traceDiscipline uses).Triple tokenHost i P (Auth.save loc entry) (fun _ => P)
  := by
  apply triple_op (o := Op.save loc entry) hP (R := fun _ _ => True)
  · intro w saved hw hPw _
    refine ⟨traced_save hw ?_ saved, trivial⟩
    intro purpose' huses'
    obtain rfl := hsep _ purpose purpose' huses huses'
    apply h w hPw
  · intro saved
    cases saved with
    | true => exact Triple.done fun _ _ h => h.1
    | false => exact Triple.fail fun _ _ h => h.1

theorem triple_remove {P : World × TokenHistory → Prop} (hP : Lasts P) (loc : Loc)
    {f : Unit → Auth β} {Q : Except AuthError β → World × TokenHistory → Prop}
    (hf : (traceDiscipline uses).Triple tokenHost i P (f ()) Q) :
  (traceDiscipline uses).Triple tokenHost i P ((Auth.remove loc).bind f) Q
  := by
  apply triple_op (o := Op.remove loc) hP (R := fun _ _ => True)
  · exact fun w removed hw _ _ => ⟨traced_remove hw loc removed, trivial⟩
  · exact fun _ => hf.weaken fun _ _ h => h.1

/-! ### Promises -/

/-- The calls that share the promises of a slot share tokens that serve its purpose. -/
def sharing (hsep : Separate uses) {slot : Slot} {purpose : Purpose}
    (huses : uses (.slot slot) purpose) :
    Sharing (traceDiscipline uses) tokenHost i slot (Held purpose) where
  Promised flight w := (flight, slot) ∈ w.2.promised
  stable _ _ _ _ _ hr h := hr.2.promised.subset h
  kept _ w o a _ h _ := (w.2.later_after i w.1 o a).promised.subset h
  claimed w claim hw ha := by
    obtain ⟨hclaim, hpromised⟩ := traced_claimFlight hw ha
    exact ⟨keeps_of_traced hclaim, hpromised⟩
  joined flight w result hw hpromised ha := by
    have hinert : Inert (.joinFlight flight) := trivial
    use keeps_of_traced (traced_inert hw hinert result)
    intro token htoken
    apply (lasts_held purpose token).post
    apply hw.published flight slot purpose result hpromised huses ha token htoken
  published flight result w hw hpromised hreturns := by
    use keeps_of_traced (traced_publishFlight hsep hw huses hpromised hreturns)
    exact fun token htoken => (lasts_held purpose token).post (hreturns token htoken) _ _
  cleared flight result w hw hreturns := by
    use keeps_of_traced (traced_clearSlot hw slot flight)
    exact fun token htoken => (lasts_held purpose token).post (hreturns token htoken) _ _

/-! ### Requests -/

/-- The token set of a response has been issued by the server that gave it. -/
theorem yields_answered {idp : Idp} {fallback : Option String} {require : Bool}
    {response : TokenResponse} {w : World × TokenHistory} {e : TokenEvent} (he : e ∈ w.2.events)
    (hanswers : ∀ payload, response = .ok payload → e.Answers idp payload)
    (hfallback : ∀ s, nonEmpty fallback = some s → HasRefresh idp s w.2.events) :
  Yields (Held (.root idp)) fallback require response w
  := by
  intro payload now token hresponse htoken
  have hanswer := hanswers payload hresponse
  unfold toTokenSet at htoken
  split at htoken
  · cases htoken
  · next accessToken haccess =>
      dsimp only at htoken
      split at htoken
      · cases htoken
      · cases htoken
        constructor
        · use e, he, payload, hanswer
          apply (Option.filter_eq_some_iff.mp haccess).1
        · intro refreshToken hrefresh
          cases hpayload : nonEmpty payload.refreshToken with
          | none =>
              rw [hpayload, Option.none_or] at hrefresh
              apply hfallback refreshToken hrefresh
          | some s =>
              rw [hpayload, Option.some_or] at hrefresh
              obtain ⟨⟨⟩, -⟩ := Option.filter_eq_some_iff.mp hrefresh
              use e, he, payload, hanswer
              apply (Option.filter_eq_some_iff.mp hpayload).1

/-- A request that presents what its server has issued, and the token that is read from its
response. -/
theorem asked_postToken {server : AuthServerConfig} {request : TokenRequest}
    {w : World × TokenHistory} (hw : Traced uses w)
    (h : Presentable server w.2.events request) {fallback : Option String} {require : Bool}
    (hfallback : ∀ s, nonEmpty fallback = some s → HasRefresh server.idp s w.2.events)
    (response : TokenResponse) :
  (traceDiscipline uses).Keeps i w (tokenHost.post i w (.postToken server request) response) ∧
    Yields (Held (.root server.idp)) fallback require response
      (tokenHost.post i w (.postToken server request) response)
  := by
  use keeps_of_traced (traced_postToken hw h response)
  apply yields_answered (e := .posted server request response) List.mem_cons_self
  · rintro payload rfl
    exact ⟨rfl, rfl⟩
  · exact fun s hs => (hfallback s hs).later (List.suffix_cons _ _)

/-- The operations of the lock of a refresh touch no tokens. -/
theorem inert_of_lock {path : Loc} {o : Op} (ho : TokenRuntime.RefreshLockOp path o) :
  Inert o
  := by
  obtain ho | ⟨reason, rfl⟩ := ho
  · cases o with
    | save loc entry => cases ho
    | remove loc => cases ho
    | postToken server request => cases ho
    | awaitLogin server => cases ho
    | resolveSubjectToken source => cases ho
    | claimFlight slot => cases ho
    | publishFlight flight result => cases ho
    | clearSlot slot flight => cases ho
    | adoptState engine persisted => cases ho
    | assignState engine state => cases ho
    | _ => trivial
  · trivial

theorem traced_quiet {path : Loc} {o : Op} (ho : QuietOp path o) {w : World × TokenHistory}
    (hw : Traced uses w) (a : Ans o) (ha : tokenHost.allows i w o a) :
  Traced uses (tokenHost.post i w o a)
  := by
  cases o with
  | promptLogin server =>
      have hinert : Inert (.promptLogin server) := trivial
      apply traced_inert hw hinert
  | claimFlight slot => apply (traced_claimFlight hw ha).1
  | clearSlot slot flight => apply traced_clearSlot hw
  | _ => apply traced_inert hw (inert_of_lock ho)

/-! ### The flow through a runtime -/

/-- A token runtime whose root token is one of its identity provider. -/
structure Rooted (uses : Place → Purpose → Prop) (i : ℕ) (r : TokenRuntime) : Prop where
  slot : uses (.slot (.refresh r.instanceId)) (.root r.client.server.idp)
  read : (traceDiscipline uses).Triple tokenHost i (fun _ => True) r.getCached
    fun result w => ∃ token, result = .ok token ∧
      InHand (Held (.root r.client.server.idp)) token w
  write : ∀ token, (traceDiscipline uses).Triple tokenHost i
    (Held (.root r.client.server.idp) token) (r.persist token)
      fun _ => Held (.root r.client.server.idp) token

/-- The flow of the tokens of its identity provider through a runtime. -/
def flow (hsep : Separate uses) {r : TokenRuntime} (hr : Rooted uses i r) :
    TokenFlow (traceDiscipline uses) tokenHost i r where
  Held := Held (.root r.client.server.idp)
  Obtained := Held (.root r.client.server.idp)
  Subject subject w := HasSubject r.client.server subject w.2.events
  clock _ _ hr := hr.1
  tick w o a := host_now_le i w.1 o a
  reads _ _ ha := ha
  keeps _ ho _ a hw ha := keeps_of_traced (traced_quiet ho hw a ha)
  held token := (lasts_held _ token).calm _
  obtained token := (lasts_held _ token).calm _
  subject _ _ _ _ _ hle h := h.later hle.2.events
  held_of_obtained _ _ h := h
  read base := by
    have hkept := lasts_inHand (.root r.client.server.idp) base
    apply ((hr.read.frame hkept.stable fun w o a _ h _ => hkept.post h o a).weaken _).strengthen
    · rintro result w - ⟨⟨token, rfl, htoken⟩, hbase⟩
      refine ⟨token, rfl, ?_⟩
      cases token with
      | none => exact hbase
      | some found => exact htoken
    · exact fun _ _ h => ⟨trivial, h⟩
  write token := (hr.write token).strengthen fun _ _ _ h _ => h
  refresh base refreshToken w response hbase hw hheld _ := by
    have hissued : Presentable r.client.server w.2.events (.refresh refreshToken) :=
      hheld.2 refreshToken hbase
    apply asked_postToken hw hissued
    intro s hs
    obtain ⟨⟨⟩, -⟩ := Option.filter_eq_some_iff.mp hs
    apply hissued
  secret clientSecret w response hsecret hw _ := by
    have hpresentable :
        Presentable r.client.server w.2.events (.clientCredentials clientSecret) := hsecret
    apply asked_postToken hw hpresentable
    intro _ hs
    cases hs
  grant subject request w response hrequest hw hsubject _ := by
    have hpresentable : Presentable r.client.server w.2.events request := by
      obtain rfl | ⟨params, rfl⟩ := hrequest
      · apply hsubject
      · apply Or.inr hsubject
    apply asked_postToken hw hpresentable
    intro _ hs
    cases hs
  resolve source w answer hsource hw _ := by
    use keeps_of_traced (traced_resolveSubjectToken hw source answer)
    rintro subject rfl
    exact ⟨source, hsource, List.mem_cons_self⟩
  login w response hw _ := by
    use keeps_of_traced (traced_awaitLogin hw r.client.server response)
    apply yields_answered (e := .loggedIn r.client.server response) List.mem_cons_self
    · rintro payload rfl
      exact ⟨rfl, rfl⟩
    · intro _ hs
      cases hs
  sharing := sharing hsep hr.slot

/-! ### The runtimes of the source -/

/-- What a `load` and the reading of a token set from it give. -/
theorem triple_loadToken {loc : Loc} {purpose : Purpose} (huses : uses (.file loc) purpose) :
  (traceDiscipline uses).Triple tokenHost i (fun _ => True)
    ((Auth.load loc).bind fun entry => pure (entry.map Entry.toTokenSet))
    fun result w => ∃ token, result = .ok token ∧ InHand (Held purpose) token w
  := by
  apply triple_load (lasts_const True) huses
  intro entry
  apply Triple.done
  rintro w - ⟨-, hread⟩
  exact ⟨_, rfl, inHand_of_read hread⟩

theorem rooted_file (hsep : Separate uses) {r : TokenRuntime} (hget : r.getCachedOverride = none)
    (hset : r.setCachedOverride = none)
    (hslot : uses (.slot (.refresh r.instanceId)) (.root r.client.server.idp))
    (hfile : uses (.file r.cacheLoc) (.root r.client.server.idp)) :
  Rooted uses i r
  := by
  refine ⟨hslot, ?_, ?_⟩
  · rw [TokenRuntime.getCached, hget]
    apply triple_loadToken hfile
  · intro token
    rw [TokenRuntime.persist, hset]
    apply triple_save hsep (lasts_held _ token) hfile
    exact fun _ h => h

/-- The state of a server in memory, as an operation finds it. -/
theorem triple_peekState {P : World × TokenHistory → Prop} (hP : Lasts P) {engine : ℕ} {idp : Idp}
    {serverId : String} (huses : uses (.memory engine) (.memory idp serverId))
    {f : CachedServerState × ℕ → Auth β} {Q : Except AuthError β → World × TokenHistory → Prop}
    (hf : ∀ state now, state.serverId = serverId →
      (traceDiscipline uses).Triple tokenHost i P (f (state, now)) Q) :
  (traceDiscipline uses).Triple tokenHost i P ((Auth.perform (.peekState engine)).bind f) Q
  := by
  apply triple_op hP (o := Op.peekState engine)
    (R := fun (answer : CachedServerState × ℕ) _ => answer.1.serverId = serverId)
  · rintro w _ hw - rfl
    have hinert : Inert (.peekState engine) := trivial
    use traced_inert hw hinert _
    apply (hw.memory engine idp serverId huses).1
  · rintro ⟨state, now⟩
    apply (Triple.assume (hf state now)).weaken
    exact fun w _ h => ⟨h.2, h.1⟩

/-- The end of `persist` and of `syncServer` in an engine: the state is written and kept. -/
theorem triple_assignState (hsep : Separate uses) {e : EngineServer} {idp : Idp}
    (hfile : uses (.file ⟨e.cacheDirPath, e.serverId⟩) (.root idp))
    (hmemory : uses (.memory e.engine) (.memory idp e.serverId)) {token : TokenSet}
    {state : CachedServerState} (hserver : state.serverId = e.serverId)
    (htoken : state.token = some token) (a : α) :
  (traceDiscipline uses).Triple tokenHost i (Held (.root idp) token)
    ((saveServerState e.cacheDirPath state).bind fun _ =>
      (Auth.perform (.assignState e.engine state)).bind fun _ => pure a)
    fun _ => Held (.root idp) token
  := by
  have hheld := lasts_held (.root idp) token
  apply Triple.bind (R := fun _ => Held (.root idp) token)
  · rw [← hserver] at hfile
    apply triple_save hsep hheld hfile
    rintro w hw t ht
    rw [htoken] at ht
    obtain rfl := Option.some.inj ht
    apply hw
  · intro _
    apply triple_op hheld (o := Op.assignState e.engine state) (R := fun _ _ => True)
    · intro w _ hw hhold _
      refine ⟨traced_setEngine hw ?_, trivial⟩
      intro idp' serverId huses
      obtain ⟨⟩ := hsep _ _ _ hmemory huses
      use hserver
      intro t ht
      rw [htoken] at ht
      obtain rfl := Option.some.inj ht
      apply hhold
    · intro _
      apply Triple.done
      exact fun _ _ h => h.1
  · exact fun _ _ _ h => h

theorem rooted_engine (hsep : Separate uses) {e : EngineServer}
    (hslot : uses (.slot (.refresh e.runtime)) (.root e.client.server.idp))
    (hfile : uses (.file ⟨e.cacheDirPath, e.serverId⟩) (.root e.client.server.idp))
    (hmemory : uses (.memory e.engine) (.memory e.client.server.idp e.serverId)) :
  Rooted uses i e.buildTokenRuntime
  := by
  refine ⟨hslot, ?_, ?_⟩
  · apply triple_load (lasts_const True) hfile
    intro entry
    apply Triple.weaken _ (fun w _ h => h.2)
    apply triple_op (lasts_read _ entry)
      (R := fun token w => InHand (Held (.root e.client.server.idp)) token w)
    · rintro w _ hw hread rfl
      have hmem := hw.memory e.engine _ _ hmemory
      have hadopted : ∀ state, CachedServerState.adopt (w.1.engines e.engine)
          (entry.bind (Entry.toServerState e.serverId)) = state →
          state.serverId = e.serverId ∧
            ∀ token, state.token = some token → Held (.root e.client.server.idp) token w := by
        rintro state rfl
        rw [CachedServerState.adopt]
        split
        · cases hstate : entry.bind (Entry.toServerState e.serverId) with
          | none => exact hmem
          | some state => apply held_of_read hread hstate
        · exact hmem
      obtain ⟨hserver, htokens⟩ := hadopted _ rfl
      constructor
      · apply traced_setEngine hw
        intro idp serverId huses
        obtain ⟨⟩ := hsep _ _ _ hmemory huses
        exact ⟨hserver, htokens⟩
      · exact fun token htoken _ => (lasts_held _ token).post (htokens token htoken) _ _
    · intro token
      apply Triple.done
      exact fun w _ h => ⟨token, rfl, h.2⟩
  · intro token
    apply triple_peekState (lasts_held _ token) hmemory
    intro state now hserver
    let next : CachedServerState := { state with updatedAt := now, token := some token }
    have hnext : next.serverId = e.serverId := hserver
    have htoken : next.token = some token := rfl
    exact triple_assignState hsep hfile hmemory hnext htoken ()

theorem rooted_lightbridge (hsep : Separate uses) {l : LightbridgeRuntime}
    (hslot : uses (.slot (.refresh l.rootInstance)) (.root l.client.server.idp))
    (hfile : uses (.file ⟨l.sharedDirectory, l.serverId⟩) (.root l.client.server.idp)) :
  Rooted uses i l.rootRuntime
  := by
  refine ⟨hslot, ?_, ?_⟩
  · apply triple_load (lasts_const True) hfile
    intro entry
    apply Triple.done
    rintro w - ⟨-, hread⟩
    refine ⟨_, rfl, ?_⟩
    rintro token htoken -
    obtain ⟨state, hstate, htoken⟩ := Option.bind_eq_some_iff.mp htoken
    apply (held_of_read hread hstate).2 token htoken
  · intro token
    apply triple_inert (lasts_held _ token) (o := Op.load _) trivial
    intro entry
    apply triple_inert (lasts_held _ token) (o := Op.now) trivial
    intro now
    apply triple_save hsep (lasts_held _ token) hfile
    rintro w hw t ⟨⟩
    apply hw

/-! ### Exchanges -/

/-- The exchange of a root token, and its persisting. -/
theorem triple_exchangeTo (hsep : Separate uses) {r : TokenRuntime} {key : String}
    {params : List (String × String)}
    (hfile : uses (.file (r.exchangeLoc key)) (.project r.client.server.idp params))
    (hparams : params.filter (fun p => p.1 ∉ RESERVED_EXCHANGE_PARAMS) = params)
    (human : TokenSet) :
  (traceDiscipline uses).Triple tokenHost i (Held (.root r.client.server.idp) human)
    (r.exchangeTo key human.accessToken params)
    (Returns (Held (.project r.client.server.idp params)))
  := by
  have hexchange : (traceDiscipline uses).Triple tokenHost i
      (Held (.root r.client.server.idp) human) (r.client.exchange human.accessToken params)
      (Returns (Held (.project r.client.server.idp params))) := by
    rw [OAuthClient.exchange, hparams]
    apply triple_op (lasts_held _ human)
      (o := Op.postToken r.client.server (.tokenExchange human.accessToken params))
      (R := fun (response : TokenResponse) w =>
        .posted r.client.server (.tokenExchange human.accessToken params) response ∈ w.2.events)
    · intro w response hw hheld _
      have hpresentable : Presentable r.client.server w.2.events
          (.tokenExchange human.accessToken params) := .inl hheld.1
      exact ⟨traced_postToken hw hpresentable response, List.mem_cons_self⟩
    · intro response
      cases response with
      | failed => exact Triple.fail fun _ _ _ => returns_error _ _
      | status status => exact Triple.fail fun _ _ _ => returns_error _ _
      | ok payload =>
          have hlasts : Lasts fun w : World × TokenHistory =>
              .posted r.client.server (.tokenExchange human.accessToken params) (.ok payload) ∈
                w.2.events :=
            fun w w' hle h => hle.events.subset h
          apply (triple_inert hlasts (o := Op.now) trivial _).weaken fun _ _ h => h.2
          intro now
          apply (Triple.settle _).weaken
          intro w _ hmem token htoken
          use r.client.server, human.accessToken, payload, hmem, rfl
          unfold toTokenSet at htoken
          split at htoken
          · cases htoken
          · next accessToken haccess =>
              dsimp only at htoken
              split at htoken
              · cases htoken
              · cases htoken
                apply (Option.filter_eq_some_iff.mp haccess).1
  apply TokenFlow.triple_returned hexchange
  · intro token
    have hheld := lasts_held (.project r.client.server.idp params) token
    apply Triple.bind (R := fun _ => Held (.project r.client.server.idp params) token)
    · apply triple_save hsep hheld hfile
      exact fun _ h => h
    · intro _
      apply Triple.done
      rintro w - hw t ⟨⟩
      apply hw
    · exact fun _ _ _ _ => returns_error _ _
  · exact fun _ _ => returns_error _ _

/-- A cached project token, or the outcome of an exchange of the root token. -/
theorem triple_resolve (hsep : Separate uses) {root exchange : TokenRuntime}
    (hroot : Rooted uses i root) (hidp : exchange.client.server.idp = root.client.server.idp)
    {key : String} {params : List (String × String)}
    (hfile : uses (.file (exchange.exchangeLoc key)) (.project root.client.server.idp params))
    (hparams : params.filter (fun p => p.1 ∉ RESERVED_EXCHANGE_PARAMS) = params) {slot : Slot}
    (hslot : uses (.slot slot) (.project root.client.server.idp params)) (skewMs : ℚ)
    (interactive : Option Bool) :
  (traceDiscipline uses).Triple tokenHost i (fun _ => True)
    (resolveProjectToken slot skewMs (exchange.getExchangedByKey key)
      ((root.ensure interactive).bind fun human => exchange.exchangeTo key human.accessToken params))
    (Returns (Held (.project root.client.server.idp params)))
  := by
  apply (sharing hsep hslot).triple_resolveProjectToken
  · exact fun token => (lasts_held _ token).stable
  · intro w now hw _
    have hinert : Inert .now := trivial
    use keeps_of_traced (traced_inert hw hinert now)
    exact fun token h => (lasts_held _ token).post h _ _
  · apply triple_loadToken hfile
  · apply TokenFlow.triple_returned ((flow hsep hroot).triple_ensure interactive)
    · intro human
      rw [← hidp] at hfile ⊢
      apply (triple_exchangeTo hsep hfile hparams human).weaken
      intro w _ h
      rw [hidp]
      apply h
    · exact fun _ _ => returns_error _ _

end Triples

end Tracing

/-! ### The calls -/

/-- A token runtime with a store of the suite. -/
inductive RootRuntime where
  | file (r : TokenRuntime) (hget : r.getCachedOverride = none) (hset : r.setCachedOverride = none)
  | engine (e : EngineServer)
  | lightbridge (l : LightbridgeRuntime)

namespace RootRuntime

def runtime : RootRuntime → TokenRuntime
  | .file r _ _ => r
  | .engine e => e.buildTokenRuntime
  | .lightbridge l => l.rootRuntime

def idp (root : RootRuntime) : Idp := root.runtime.client.server.idp

/-- Where the runtime keeps its root token, next to the slot of its refresh. -/
def stores : RootRuntime → List (Place × Purpose)
  | .file r _ _ => [(.file r.cacheLoc, .root r.client.server.idp)]
  | .engine e =>
      [(.file ⟨e.cacheDirPath, e.serverId⟩, .root e.client.server.idp),
        (.memory e.engine, .memory e.client.server.idp e.serverId)]
  | .lightbridge l => [(.file ⟨l.sharedDirectory, l.serverId⟩, .root l.client.server.idp)]

/-- The places that the runtime uses, and for what. -/
def places (root : RootRuntime) : List (Place × Purpose) :=
  (.slot (.refresh root.runtime.instanceId), .root root.idp) :: root.stores

theorem rooted {uses : Place → Purpose → Prop} (hsep : Separate uses) (root : RootRuntime)
    (h : ∀ p ∈ root.places, uses p.1 p.2) (i : ℕ) :
  Tracing.Rooted uses i root.runtime
  := by
  have hslot := h _ List.mem_cons_self
  have hstores := fun p hp => h p (List.mem_cons_of_mem _ hp)
  cases root with
  | file r hget hset =>
      apply Tracing.rooted_file hsep hget hset hslot
      apply hstores _ List.mem_cons_self
  | engine e =>
      apply Tracing.rooted_engine hsep hslot
      · apply hstores _ List.mem_cons_self
      · apply hstores _ (List.mem_cons_of_mem _ List.mem_cons_self)
  | lightbridge l =>
      apply Tracing.rooted_lightbridge hsep hslot
      apply hstores _ List.mem_cons_self

end RootRuntime

/-- The parameters with which a lightbridge runtime exchanges its root token. -/
def LightbridgeRuntime.exchangeParams (l : LightbridgeRuntime) : List (String × String) :=
  (nonEmpty l.projectId).toList.map fun projectId => ("project_id", projectId)

/-- The parameters with which a repo-auth plugin exchanges its root token. -/
def RepoAuthPlugin.exchangeParams (p : RepoAuthPlugin) : List (String × String) :=
  [("project_id", p.projectId)]

/-- A call of one of the runtimes. -/
inductive RuntimeCall where
  | ensure (root : RootRuntime) (interactive : Option Bool)
  | refresh (root : RootRuntime) (interactive : Option Bool)
  | project (l : LightbridgeRuntime) (interactive : Option Bool)
  | repoProject (p : RepoAuthPlugin) (interactive : Option Bool)
  | sync (e : EngineServer) (interactive : Option Bool)
  | reset (r : TokenRuntime)
  | resetLightbridge (l : LightbridgeRuntime)

namespace RuntimeCall

/-- The program of a call, with the token it returns, if it returns one. -/
def run : RuntimeCall → Auth (Option TokenSet)
  | .ensure root interactive => do
      let token ← root.runtime.ensure interactive
      pure (some token)
  | .refresh root interactive => do
      let token ← root.runtime.refresh interactive
      pure (some token)
  | .project l interactive => do
      let token ← l.getProjectToken interactive
      pure (some token)
  | .repoProject p interactive => do
      let token ← p.resolveToken interactive
      pure (some token)
  | .sync e interactive => do
      let _ ← e.syncServer interactive
      pure none
  | .reset r => do
      r.reset
      pure none
  | .resetLightbridge l => do
      l.reset
      pure none

/-- What the token of a call is for. -/
def purpose : RuntimeCall → Option Purpose
  | .ensure root _ => some (.root root.idp)
  | .refresh root _ => some (.root root.idp)
  | .project l _ =>
      if l.exchange then some (.project l.client.server.idp l.exchangeParams)
      else some (.root l.client.server.idp)
  | .repoProject p _ => some (.project p.client.server.idp p.exchangeParams)
  | .sync _ _ => none
  | .reset _ => none
  | .resetLightbridge _ => none

/-- The places that a call uses, and for what. -/
def places : RuntimeCall → List (Place × Purpose)
  | .ensure root _ => root.places
  | .refresh root _ => root.places
  | .project l _ =>
      (.file ⟨l.cacheRoot ++ "/" ++ OLD_ROOT_CACHE_NAMESPACE, OLD_ROOT_KEY⟩,
        .root l.client.server.idp) :: (RootRuntime.lightbridge l).places ++
      (if l.exchange then
        [(.file (l.exchangeRuntime.exchangeLoc l.projectKey),
            .project l.client.server.idp l.exchangeParams),
          (.slot (.exchange l.instanceId), .project l.client.server.idp l.exchangeParams)]
      else [])
  | .repoProject p _ =>
      (RootRuntime.file p.runtime rfl rfl).places ++
        [(.file (p.runtime.exchangeLoc p.projectId), .project p.client.server.idp p.exchangeParams),
          (.slot (.exchange p.instanceId), .project p.client.server.idp p.exchangeParams)]
  | .sync e _ => (RootRuntime.engine e).places
  | .reset _ => []
  | .resetLightbridge l => (RootRuntime.lightbridge l).places

/-- What the places are for, according to the calls that use them. -/
def Uses (calls : ℕ → RuntimeCall) (place : Place) (purpose : Purpose) : Prop :=
  ∃ i, (place, purpose) ∈ (calls i).places

/-- How a call settles: with a token that serves its purpose, if it returns one. -/
def Settles (call : RuntimeCall) (result : Except AuthError (Option TokenSet))
    (w : World × TokenHistory) : Prop :=
  ∀ token, result = .ok (some token) →
    ∃ purpose ∈ call.purpose, purpose.Serves token w.2.events

section Triples

open Tracing Discipline

variable {uses : Place → Purpose → Prop} {i : ℕ}

theorem lasts_settles (call : RuntimeCall) (result : Except AuthError (Option TokenSet)) :
  Lasts (call.Settles result)
  := by
  intro w w' hle h token htoken
  obtain ⟨purpose, hpurpose, hserves⟩ := h token htoken
  use purpose, hpurpose
  apply hserves.later hle.events

theorem settles_error (call : RuntimeCall) (e : AuthError) (w : World × TokenHistory) :
  call.Settles (.error e) w
  := by
  rintro token ⟨⟩

/-- A call that returns the token it has obtained. -/
theorem triple_some {call : RuntimeCall} {purpose : Purpose} (hpurpose : purpose ∈ call.purpose)
    {p : Auth TokenSet} {P : World × TokenHistory → Prop}
    (hp : (traceDiscipline uses).Triple tokenHost i P p (Returns (Held purpose))) :
  (traceDiscipline uses).Triple tokenHost i P (p.bind fun token => pure (some token)) call.Settles
  := by
  apply TokenFlow.triple_returned hp
  · intro token
    apply Triple.done
    rintro w - hheld t ⟨⟩
    use purpose, hpurpose
    apply hheld
  · exact fun e w => call.settles_error e w

/-- A call that returns no token. -/
theorem triple_none {call : RuntimeCall} {α : Type} {p : Auth α}
    (hp : (traceDiscipline uses).Triple tokenHost i (fun _ => True) p (fun _ _ => True)) :
  (traceDiscipline uses).Triple tokenHost i (fun _ => True) (p.bind fun _ => pure none)
    call.Settles
  := by
  apply Triple.bind hp
  · intro _
    apply Triple.done
    rintro w - - token ⟨⟩
  · exact fun e w _ _ => call.settles_error e w

theorem triple_refresh (hsep : Separate uses) {r : TokenRuntime} (hr : Rooted uses i r)
    (interactive : Option Bool) :
  (traceDiscipline uses).Triple tokenHost i (fun _ => True) (r.refresh interactive)
    (Returns (Held (.root r.client.server.idp)))
  := by
  have hno : r.client.NoRefresh none := .inl rfl
  apply Triple.weaken _ (P := TokenFlow.Expired r.client none) (fun _ _ _ _ => nofun)
  apply TokenFlow.triple_returned ((flow hsep hr).triple_ensureToken hno interactive)
  · exact fun token => (flow hsep hr).triple_persisted token
  · exact fun _ _ => returns_error _ _

/-- The migration of a root token keeps the purpose of its file. -/
theorem triple_ensureMigrated (hsep : Separate uses) {l : LightbridgeRuntime}
    (hold : uses (.file ⟨l.cacheRoot ++ "/" ++ OLD_ROOT_CACHE_NAMESPACE, OLD_ROOT_KEY⟩)
      (.root l.client.server.idp))
    (hfile : uses (.file ⟨l.sharedDirectory, l.serverId⟩) (.root l.client.server.idp)) :
  (traceDiscipline uses).Triple tokenHost i (fun _ => True) l.ensureMigrated (fun _ _ => True)
  := by
  have hdone : ∀ a : Unit, (traceDiscipline uses).Triple tokenHost i (fun _ => True)
      (Program.done a : Auth Unit) (fun _ _ => True) :=
    fun _ => Triple.done fun _ _ _ => trivial
  apply triple_inert (lasts_const True) (o := Op.claimMigration l.instanceId) trivial
  intro first
  cases first with
  | false => exact triple_inert (lasts_const True) (o := Op.awaitMigration l.instanceId) trivial hdone
  | true =>
      apply Triple.attempt_bind (R := fun _ _ => True)
      · apply triple_inert (lasts_const True) (o := Op.load _) trivial
        intro entry
        dsimp only [Program.bind]
        split
        · apply hdone
        · apply triple_load (lasts_const True) hold
          intro old
          split
          · exact Triple.done fun _ _ _ => trivial
          · next legacy hlegacy =>
              obtain ⟨hread, hshape⟩ := Option.filter_eq_some_iff.mp hlegacy
              have hheld := lasts_held (.root l.client.server.idp) legacy
              apply Triple.weaken (P := Held (.root l.client.server.idp) legacy)
              · apply triple_inert hheld (o := Op.now) trivial
                intro now
                apply (triple_save hsep hheld hfile _).strengthen fun _ _ _ _ => trivial
                rintro w hw token ⟨⟩
                apply hw
              · rintro w - ⟨-, hold⟩
                apply inHand_of_read hold legacy hread
                rintro ⟨hblank, -⟩
                simp [LightbridgeRuntime.hasUsableTokenShape, hblank] at hshape
      · intro _
        exact triple_inert (lasts_const True) (o := Op.endMigration l.instanceId) trivial hdone

theorem triple_removeKeys (r : TokenRuntime) (keys : List String) :
  (traceDiscipline uses).Triple tokenHost i (fun _ => True) (r.removeKeys keys) (fun _ _ => True)
  := by
  induction keys with
  | nil => exact Triple.done fun _ _ _ => trivial
  | cons key keys ih => apply triple_remove (lasts_const True) _ ih

theorem triple_reset (r : TokenRuntime) :
  (traceDiscipline uses).Triple tokenHost i (fun _ => True) r.reset (fun _ _ => True)
  := by
  apply triple_remove (lasts_const True)
  apply triple_inert (lasts_const True) (o := Op.listKeys r.directory (r.identity ++ "-")) trivial
  exact fun keys => triple_removeKeys r keys

theorem triple_resetLightbridge (hsep : Separate uses) {l : LightbridgeRuntime}
    (hfile : uses (.file ⟨l.sharedDirectory, l.serverId⟩) (.root l.client.server.idp)) :
  (traceDiscipline uses).Triple tokenHost i (fun _ => True) l.reset (fun _ _ => True)
  := by
  apply Triple.bind (triple_reset l.exchangeRuntime)
  · intro _
    apply triple_inert (lasts_const True) (o := Op.load _) trivial
    intro entry
    dsimp only [Program.bind]
    split
    · exact Triple.done fun _ _ _ => trivial
    · next state hstate =>
        split
        · apply triple_inert (lasts_const True) (o := Op.now) trivial
          intro now
          have hserver : state.serverId = l.serverId := by
            obtain ⟨found, -, hfound⟩ := Option.bind_eq_some_iff.mp hstate
            cases found with
            | ofToken token => cases hfound
            | ofState persisted =>
                rw [Entry.toServerState] at hfound
                split at hfound
                · next heq =>
                    obtain rfl := Option.some.inj hfound
                    apply heq
                · cases hfound
          rw [← hserver] at hfile
          apply (triple_save hsep (lasts_const True) hfile _).strengthen fun _ _ _ _ => trivial
          rintro w - token ⟨⟩
        · exact Triple.done fun _ _ _ => trivial
  · exact fun _ _ _ _ => trivial

theorem triple_syncServer (hsep : Separate uses) {e : EngineServer}
    (hroot : Rooted uses i e.buildTokenRuntime)
    (hfile : uses (.file ⟨e.cacheDirPath, e.serverId⟩) (.root e.client.server.idp))
    (hmemory : uses (.memory e.engine) (.memory e.client.server.idp e.serverId))
    (interactive : Option Bool) :
  (traceDiscipline uses).Triple tokenHost i (fun _ => True) (e.syncServer interactive)
    (fun _ _ => True)
  := by
  apply triple_inert (lasts_const True) (o := Op.peekState e.engine) trivial
  rintro ⟨previous, now⟩
  apply Triple.tryCatch (R := fun _ _ => True)
  · apply TokenFlow.triple_returned ((flow hsep hroot).triple_ensure interactive)
    · intro token
      have hheld := lasts_held (.root e.client.server.idp) token
      apply triple_inert hheld (o := Op.fetchModels e.serverId token) trivial
      intro fetched
      cases fetched with
      | none => exact Triple.fail fun _ _ _ => trivial
      | some rawModels =>
          apply triple_peekState hheld hmemory
          intro state now hserver
          let next : CachedServerState :=
            { state with
              updatedAt := now
              lastSyncAt := some now
              token := some token
              rawModels
              models := e.normalizeModelList rawModels }
          have hnext : next.serverId = e.serverId := hserver
          have htoken : next.token = some token := rfl
          apply (triple_assignState hsep hfile hmemory hnext htoken _).strengthen
          exact fun _ _ _ _ => trivial
    · exact fun _ _ => trivial
  · exact fun _ _ _ _ => trivial
  · exact fun _ => Triple.done fun _ _ _ => trivial

theorem triple_getProjectToken (hsep : Separate uses) {l : LightbridgeRuntime}
    {interactive : Option Bool} (h : ∀ p ∈ (project l interactive).places, uses p.1 p.2) :
  (traceDiscipline uses).Triple tokenHost i (fun _ => True)
    ((l.getProjectToken interactive).bind fun token => pure (some token))
    (project l interactive).Settles
  := by
  rw [places, List.cons_append] at h
  have hold := h _ List.mem_cons_self
  have hplaces := fun p hp => h p (List.mem_cons_of_mem _ (List.mem_append_left _ hp))
  have hexchange := fun p hp => h p (List.mem_cons_of_mem _ (List.mem_append_right _ hp))
  have hroot := (RootRuntime.lightbridge l).rooted hsep hplaces i
  have hfile := hplaces _ (List.mem_cons_of_mem _ List.mem_cons_self)
  rw [LightbridgeRuntime.getProjectToken, Program.bind_eq, Program.bind_assoc]
  apply Triple.bind (triple_ensureMigrated hsep hold hfile)
  · intro _
    cases hl : l.exchange with
    | true =>
        rw [hl, if_pos rfl] at hexchange
        have hpurpose : Purpose.project l.client.server.idp l.exchangeParams ∈
            (project l interactive).purpose := by
          rw [purpose, if_pos hl]
          rfl
        have hidp : l.exchangeRuntime.client.server.idp = l.rootRuntime.client.server.idp := rfl
        apply triple_some hpurpose
        rw [if_pos rfl]
        apply triple_resolve hsep hroot hidp
        · apply hexchange _ List.mem_cons_self
        · cases nonEmpty l.projectId <;> rfl
        · apply hexchange _ (List.mem_cons_of_mem _ List.mem_cons_self)
    | false =>
        have hpurpose : Purpose.root l.client.server.idp ∈ (project l interactive).purpose := by
          rw [purpose, if_neg (by simp [hl])]
          rfl
        apply triple_some hpurpose
        apply (flow hsep hroot).triple_ensure
  · exact fun e w _ _ => settles_error _ e w

theorem triple_resolveToken (hsep : Separate uses) {p : RepoAuthPlugin}
    {interactive : Option Bool} (h : ∀ q ∈ (repoProject p interactive).places, uses q.1 q.2) :
  (traceDiscipline uses).Triple tokenHost i (fun _ => True)
    ((p.resolveToken interactive).bind fun token => pure (some token))
    (repoProject p interactive).Settles
  := by
  have hplaces := fun q hq => h q (List.mem_append_left _ hq)
  have hexchange := fun q hq => h q (List.mem_append_right _ hq)
  have hroot := (RootRuntime.file p.runtime rfl rfl).rooted hsep hplaces i
  have hpurpose : Purpose.project p.client.server.idp p.exchangeParams ∈
      (repoProject p interactive).purpose := rfl
  have hidp : p.runtime.client.server.idp = p.runtime.client.server.idp := rfl
  apply triple_some hpurpose
  apply triple_resolve hsep hroot hidp
  · apply hexchange _ List.mem_cons_self
  · rfl
  · apply hexchange _ (List.mem_cons_of_mem _ List.mem_cons_self)

/-- Each call keeps the purposes of its places. -/
theorem triple_run (hsep : Separate uses) (call : RuntimeCall)
    (h : ∀ p ∈ call.places, uses p.1 p.2) :
  (traceDiscipline uses).Triple tokenHost i (fun _ => True) call.run call.Settles
  := by
  cases call with
  | ensure root interactive =>
      have hpurpose : Purpose.root root.idp ∈ (ensure root interactive).purpose := rfl
      apply triple_some hpurpose
      apply (flow hsep (root.rooted hsep h i)).triple_ensure
  | refresh root interactive =>
      have hpurpose : Purpose.root root.idp ∈ (refresh root interactive).purpose := rfl
      apply triple_some hpurpose
      apply triple_refresh hsep (root.rooted hsep h i)
  | project l interactive => apply triple_getProjectToken hsep h
  | repoProject p interactive => apply triple_resolveToken hsep h
  | sync e interactive =>
      have hroot := (RootRuntime.engine e).rooted hsep h i
      have hstores := fun p hp => h p (List.mem_cons_of_mem _ hp)
      apply triple_none
      apply triple_syncServer hsep hroot
      · apply hstores _ List.mem_cons_self
      · apply hstores _ (List.mem_cons_of_mem _ List.mem_cons_self)
  | reset r => apply triple_none (triple_reset r)
  | resetLightbridge l =>
      apply triple_none
      apply triple_resetLightbridge hsep
      apply h _ (List.mem_cons_of_mem _ List.mem_cons_self)

end Triples

end RuntimeCall

/-! ### Runs -/

/-- A machine on which no call has started a promise, and whose files and memory hold tokens
that the history accounts for. -/
structure Accounted (uses : Place → Purpose → Prop) (w : World × TokenHistory) : Prop where
  orderly : Orderly w.2.events
  files : ∀ loc purpose entry, uses (.file loc) purpose → w.1.entries.get loc = some entry →
    purpose.Keeps w.2.events entry
  memory : ∀ engine idp serverId, uses (.memory engine) (.memory idp serverId) →
    (w.1.engines engine).serverId = serverId ∧
      ∀ token, (w.1.engines engine).token = some token → Issued idp token w.2.events
  slots : ∀ slot, w.1.slots slot = none
  flights : ∀ flight, w.1.flights flight = none
  promised : w.2.promised = []

theorem Accounted.traced {uses : Place → Purpose → Prop} {w : World × TokenHistory}
    (h : Accounted uses w) :
  Traced uses w
  := by
  refine ⟨h.orderly, h.files, h.memory, ?_, ?_, ?_, ?_, ?_⟩
  · intro slot flight hslot
    rw [h.slots] at hslot
    cases hslot
  · intro flight slot hmem
    rw [h.promised] at hmem
    cases hmem
  · intro flight slot slot' hmem
    rw [h.promised] at hmem
    cases hmem
  · intro flight result hresult
    rw [h.flights] at hresult
    cases hresult
  · intro flight slot purpose result hmem
    rw [h.promised] at hmem
    cases hmem

/-- When no place serves two purposes, each request presents what had been obtained for its
server before, and each call returns a token of the identity provider, or of the project, that
it is configured with, in whatever order the calls take their steps and whatever fails. -/
theorem tokens_traced (calls : ℕ → RuntimeCall) (hsep : Separate (RuntimeCall.Uses calls))
    (c c' : Config Op Ans AuthError (Option TokenSet) (World × TokenHistory))
    (hpool : ∀ i, c.pool i = (calls i).run)
    (hstart : Accounted (RuntimeCall.Uses calls) c.world) (hrun : tokenHost.Run c c') :
  Orderly c'.world.2.events ∧ ∀ i token, c'.pool i = .done (some token) →
    ∃ purpose ∈ (calls i).purpose, purpose.Serves token c'.world.2.events
  := by
  have htriple : ∀ i, (traceDiscipline (RuntimeCall.Uses calls)).Triple tokenHost i
      (fun _ => True) (c.pool i) (calls i).Settles := by
    intro i
    rw [hpool i]
    apply RuntimeCall.triple_run hsep
    exact fun p hp => ⟨i, hp⟩
  have hstable : ∀ i result,
      (traceDiscipline (RuntimeCall.Uses calls)).Stable i ((calls i).Settles result) :=
    fun i result => ((calls i).lasts_settles result).stable
  have henv : ∀ w ms, Traced (RuntimeCall.Uses calls) w → tokenHost.envAllows w ms →
      Traced (RuntimeCall.Uses calls) (tokenHost.envPost w ms) ∧
        ∀ i, (traceDiscipline (RuntimeCall.Uses calls)).Rely i w (tokenHost.envPost w ms) := by
    intro w ms hw _
    constructor
    · apply hw.extend
      · exact ⟨rfl, rfl, rfl, rfl, rfl⟩
      · rfl
      · apply List.suffix_rfl
      · apply hw.orderly
    · exact fun i => ⟨Nat.le_add_right _ _, .refl w.2⟩
  obtain ⟨htraced, hsettled⟩ := Discipline.settled_of_run htriple hstable henv hstart.traced
    (fun _ => trivial) hrun
  use htraced.orderly
  intro i token hdone
  apply hsettled i (.ok (some token)) hdone token rfl

/-- A repo-auth plugin of a project. -/
def samplePlugin : RepoAuthPlugin where
  instanceId := 1
  runtimeInstance := 0
  client := { server := sampleServer, tokenExpirySkewMs := DEFAULT_TOKEN_EXPIRY_SKEW_MS }
  projectId := "demo"
  cacheDir := "tokens"
  hashCacheKey := fun value => value
  passes := 3

/-- Calls of one plugin, whose root token has been issued and has expired. -/
def pluginCalls : Config Op Ans AuthError (Option TokenSet) (World × TokenHistory) where
  world :=
    (expiredCache, ⟨[.loggedIn sampleServer (.ok (samplePayload "access-1" "refresh-1"))], []⟩)
  pool _ := (RuntimeCall.repoProject samplePlugin none).run

theorem separate_pluginCalls :
  Separate (RuntimeCall.Uses fun _ => .repoProject samplePlugin none)
  := by
  have hall : ∀ p ∈ (RuntimeCall.repoProject samplePlugin none).places,
      ∀ p' ∈ (RuntimeCall.repoProject samplePlugin none).places, p.1 = p'.1 → p.2 = p'.2 := by
    decide +kernel
  rintro place purpose purpose' ⟨_, h⟩ ⟨_, h'⟩
  apply hall _ h _ h' rfl

theorem accounted_pluginCalls :
  Accounted (RuntimeCall.Uses fun _ => .repoProject samplePlugin none) pluginCalls.world
  := by
  have hissued : Issued sampleServer.idp (sampleToken "access-1" "refresh-1" 1)
      pluginCalls.world.2.events := by
    constructor
    · exact ⟨_, List.mem_cons_self, _, ⟨rfl, rfl⟩, rfl⟩
    · rintro refreshToken hrefresh
      obtain ⟨⟨⟩, -⟩ := Option.filter_eq_some_iff.mp hrefresh
      exact ⟨_, List.mem_cons_self, _, ⟨rfl, rfl⟩, rfl⟩
  refine ⟨?_, ?_, ?_, fun _ => rfl, fun _ => rfl, rfl⟩
  · apply orderly_cons orderly_nil
    rintro _ _ _ ⟨⟩
  · intro loc purpose entry huses hentry
    have hroot : RuntimeCall.Uses (fun _ => .repoProject samplePlugin none)
        (.file ⟨"tokens", "human"⟩) (.root sampleServer.idp) :=
      ⟨0, List.mem_cons_of_mem _ List.mem_cons_self⟩
    change (JsMap.empty.set ⟨"tokens", "human"⟩ _).get loc = some entry at hentry
    by_cases heq : loc = ⟨"tokens", "human"⟩
    · subst heq
      rw [JsMap.get_set_self] at hentry
      obtain rfl := Option.some.inj hentry
      obtain rfl := separate_pluginCalls _ _ _ hroot huses
      apply hissued
    · rw [JsMap.get_set_of_ne _ heq, JsMap.get_empty] at hentry
      cases hentry
  · rintro engine idp serverId ⟨_, h⟩
    simp [RuntimeCall.places, RootRuntime.places, RootRuntime.stores] at h

/-- The root token is refreshed and exchanged. -/
theorem tokens_traced_once :
  ∃ c', tokenHost.Run pluginCalls c' ∧ Orderly c'.world.2.events ∧
    Exchanged sampleServer.idp [("project_id", "demo")] (sampleToken "project-1" "refresh-3" 4600000)
      c'.world.2.events
  := by
  obtain ⟨c', hrun, hc'⟩ := Machine.exists_run_of_play tokenHost
    (proceed 0 14 ++ proceedWith 0 (respond (.ok (samplePayload "access-2" "refresh-2"))) ++
      proceed 0 5 ++ proceedWith 0 (respond (.ok (samplePayload "project-1" "refresh-3"))) ++
      proceed 0 4)
    pluginCalls
    (fun c' => (c'.pool 0).result =
      some (.ok (some (sampleToken "project-1" "refresh-3" 4600000)))) (by decide +kernel)
  have hdone := Program.eq_settle_of_result (of_decide_eq_true hc')
  obtain ⟨horderly, htokens⟩ := tokens_traced (fun _ => .repoProject samplePlugin none)
    separate_pluginCalls pluginCalls c' (fun _ => rfl) accounted_pluginCalls hrun
  obtain ⟨purpose, ⟨⟩, hserves⟩ := htokens 0 _ hdone
  exact ⟨c', hrun, horderly, hserves⟩
