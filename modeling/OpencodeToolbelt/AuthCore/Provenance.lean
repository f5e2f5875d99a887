import OpencodeToolbelt.AuthCore.TokenFlow
import OpencodeToolbelt.TokenStores

/-!
# Where tokens come from

A history keeps what the token endpoints, the logins and the platform have answered. As long
as no file, slot or state in memory serves two purposes, each request presents what its
server has issued, and each call returns a token of the server, or of the project, that it is
configured with.
-/

/-- What distinguishes identity providers. -/
structure Idp where
  issuer : String
  clientId : String
  deriving DecidableEq

def AuthServerConfig.idp (server : AuthServerConfig) : Idp where
  issuer := server.issuer
  clientId := server.clientId

/-- What a runtime has asked, with the answer it got. -/
inductive TokenEvent where
  | posted (server : AuthServerConfig) (request : TokenRequest) (response : TokenResponse)
  | loggedIn (server : AuthServerConfig) (response : TokenResponse)
  | resolved (source : SubjectTokenSource) (subject : String)
  deriving DecidableEq

namespace TokenEvent

/-- An identity provider answers with a payload. -/
def Answers (idp : Idp) (payload : TokenPayload) : TokenEvent → Prop
  | .posted server _ (.ok answer) => server.idp = idp ∧ answer = payload
  | .loggedIn server (.ok answer) => server.idp = idp ∧ answer = payload
  | _ => False

/-- An identity provider has issued an access token. -/
def HasAccess (idp : Idp) (accessToken : String) (events : List TokenEvent) : Prop :=
  ∃ e ∈ events, ∃ payload, e.Answers idp payload ∧ payload.accessToken = some accessToken

/-- An identity provider has issued a refresh token. -/
def HasRefresh (idp : Idp) (refreshToken : String) (events : List TokenEvent) : Prop :=
  ∃ e ∈ events, ∃ payload, e.Answers idp payload ∧ payload.refreshToken = some refreshToken

/-- The platform has resolved a subject token for a server. -/
def HasSubject (server : AuthServerConfig) (subject : String) (events : List TokenEvent) : Prop :=
  ∃ source, server.subjectTokenSource = some source ∧ .resolved source subject ∈ events

/-- What a request presents has been obtained for its server. -/
def Presentable (server : AuthServerConfig) (events : List TokenEvent) : TokenRequest → Prop
  | .refresh refreshToken => HasRefresh server.idp refreshToken events
  | .clientCredentials clientSecret => nonEmpty server.clientSecret = some clientSecret
  | .jwtBearer assertion => HasSubject server assertion events
  | .tokenExchange subjectToken _ =>
      HasAccess server.idp subjectToken events ∨ HasSubject server subjectToken events

/-- Each request presents what had been obtained for its server before. -/
def Orderly (events : List TokenEvent) : Prop :=
  ∀ later server request response earlier,
    events = later ++ .posted server request response :: earlier →
      Presentable server earlier request

theorem orderly_nil :
  Orderly []
  := by
  intro later server request response earlier h
  cases List.append_ne_nil_of_right_ne_nil later (List.cons_ne_nil _ _) h.symm

theorem orderly_cons {e : TokenEvent} {events : List TokenEvent} (h : Orderly events)
    (he : ∀ server request response, e = .posted server request response →
      Presentable server events request) :
  Orderly (e :: events)
  := by
  rintro (_ | ⟨_, later⟩) server request response earlier heq
  · obtain ⟨rfl, rfl⟩ := List.cons.inj heq
    apply he server request response rfl
  · obtain ⟨-, rfl⟩ := List.cons.inj heq
    apply h later server request response earlier rfl

/-! ### Later histories -/

section Later

variable {idp : Idp} {earlier events : List TokenEvent} (hle : earlier <:+ events)

include hle

theorem HasAccess.later {accessToken : String} (h : HasAccess idp accessToken earlier) :
  HasAccess idp accessToken events
  := by
  obtain ⟨e, he, hanswers⟩ := h
  use e, hle.subset he

theorem HasRefresh.later {refreshToken : String} (h : HasRefresh idp refreshToken earlier) :
  HasRefresh idp refreshToken events
  := by
  obtain ⟨e, he, hanswers⟩ := h
  use e, hle.subset he

theorem HasSubject.later {server : AuthServerConfig} {subject : String}
    (h : HasSubject server subject earlier) :
  HasSubject server subject events
  := by
  obtain ⟨source, hsource, hresolved⟩ := h
  use source, hsource, hle.subset hresolved

end Later

end TokenEvent

open TokenEvent

/-! ### Purposes -/

/-- What a token is for: it is a root token of an identity provider, kept in a file or with
the state of a server in memory, or the token of a project. -/
inductive Purpose where
  | root (idp : Idp)
  | memory (idp : Idp) (serverId : String)
  | project (idp : Idp) (params : List (String × String))
  deriving DecidableEq

/-- An identity provider has issued a token. -/
def Issued (idp : Idp) (token : TokenSet) (events : List TokenEvent) : Prop :=
  HasAccess idp token.accessToken events ∧
    ∀ refreshToken, nonEmpty token.refreshToken = some refreshToken →
      HasRefresh idp refreshToken events

/-- An identity provider has issued a token in exchange for another one, with some
parameters. -/
def Exchanged (idp : Idp) (params : List (String × String)) (token : TokenSet)
    (events : List TokenEvent) : Prop :=
  ∃ server subjectToken payload,
    .posted server (.tokenExchange subjectToken params) (.ok payload) ∈ events ∧
      server.idp = idp ∧ payload.accessToken = some token.accessToken

namespace Purpose

/-- A token is what a purpose demands. -/
def Serves (token : TokenSet) (events : List TokenEvent) : Purpose → Prop
  | .root idp => Issued idp token events
  | .memory idp _ => Issued idp token events
  | .project idp params => Exchanged idp params token events

/-- The token of a file is what a purpose demands. -/
def Keeps (purpose : Purpose) (events : List TokenEvent) : Entry → Prop
  | .ofToken token => purpose.Serves token events
  | .ofState state => ∀ token, state.token = some token → purpose.Serves token events

theorem Serves.later {purpose : Purpose} {token : TokenSet} {earlier events : List TokenEvent}
    (hle : earlier <:+ events) (h : purpose.Serves token earlier) :
  purpose.Serves token events
  := by
  have hissued : ∀ idp, Issued idp token earlier → Issued idp token events :=
    fun idp hissued => ⟨hissued.1.later hle, fun s hs => (hissued.2 s hs).later hle⟩
  cases purpose with
  | root idp => apply hissued idp h
  | memory idp serverId => apply hissued idp h
  | project idp params =>
      obtain ⟨server, subjectToken, payload, hposted, hpayload⟩ := h
      use server, subjectToken, payload, hle.subset hposted

theorem Keeps.later {purpose : Purpose} {entry : Entry} {earlier events : List TokenEvent}
    (hle : earlier <:+ events) (h : purpose.Keeps earlier entry) :
  purpose.Keeps events entry
  := by
  cases entry with
  | ofToken token => exact Serves.later hle h
  | ofState state => exact fun token htoken => (h token htoken).later hle

end Purpose

/-- Where a token is kept or promised. -/
inductive Place where
  | file (loc : Loc)
  | slot (slot : Slot)
  | memory (engine : ℕ)
  deriving DecidableEq

/-! ### The machine -/

/-- What has been asked, the latest first, and the promises that have been put into slots. -/
structure TokenHistory where
  events : List TokenEvent
  promised : List (ℕ × Slot)

namespace TokenHistory

def empty : TokenHistory := ⟨[], []⟩

/-- The history after an operation. -/
def after (h : TokenHistory) (_ : ℕ) (_ : World) : (o : Op) → Ans o → TokenHistory
  | .postToken server request, response =>
      { h with events := .posted server request response :: h.events }
  | .awaitLogin server, response => { h with events := .loggedIn server response :: h.events }
  | .resolveSubjectToken source, some subject =>
      { h with events := .resolved source subject :: h.events }
  | .claimFlight slot, .lead flight => { h with promised := (flight, slot) :: h.promised }
  | _, _ => h

/-- A history goes on. -/
structure Later (h h' : TokenHistory) : Prop where
  events : h.events <:+ h'.events
  promised : h.promised <:+ h'.promised

theorem Later.refl (h : TokenHistory) :
  h.Later h
  := ⟨List.suffix_rfl, List.suffix_rfl⟩

theorem Later.trans {h h' h'' : TokenHistory} (hle : h.Later h') (hle' : h'.Later h'') :
  h.Later h''
  := ⟨hle.events.trans hle'.events, hle.promised.trans hle'.promised⟩

theorem later_after (h : TokenHistory) (i : ℕ) (w : World) (o : Op) (a : Ans o) :
  h.Later (h.after i w o a)
  := by
  cases o with
  | postToken server request => exact ⟨List.suffix_cons _ _, List.suffix_rfl⟩
  | awaitLogin server => exact ⟨List.suffix_cons _ _, List.suffix_rfl⟩
  | resolveSubjectToken source =>
      cases a with
      | none => apply Later.refl
      | some subject => exact ⟨List.suffix_cons _ _, List.suffix_rfl⟩
  | claimFlight slot =>
      cases a with
      | join flight => apply Later.refl
      | lead flight => exact ⟨List.suffix_rfl, List.suffix_cons _ _⟩
  | _ => apply Later.refl

end TokenHistory

/-- The host with the history of its tokens. -/
@[reducible]
def tokenHost : Machine Op Ans (World × TokenHistory) ℕ := host.instrument TokenHistory.after

/-! ### The invariant -/

/-- What is kept or promised anywhere is what the purpose of the place demands. -/
structure Traced (uses : Place → Purpose → Prop) (w : World × TokenHistory) : Prop where
  orderly : Orderly w.2.events
  files : ∀ loc purpose entry, uses (.file loc) purpose → w.1.entries.get loc = some entry →
    purpose.Keeps w.2.events entry
  memory : ∀ engine idp serverId, uses (.memory engine) (.memory idp serverId) →
    (w.1.engines engine).serverId = serverId ∧
      ∀ token, (w.1.engines engine).token = some token → Issued idp token w.2.events
  slots : ∀ slot flight, w.1.slots slot = some flight → (flight, slot) ∈ w.2.promised
  fresh : ∀ flight slot, (flight, slot) ∈ w.2.promised → flight < w.1.nextFlight
  once : ∀ flight slot slot', (flight, slot) ∈ w.2.promised → (flight, slot') ∈ w.2.promised →
    slot = slot'
  settled : ∀ flight result, w.1.flights flight = some result → flight < w.1.nextFlight
  published : ∀ flight slot purpose result, (flight, slot) ∈ w.2.promised →
    uses (.slot slot) purpose → w.1.flights flight = some result →
      ∀ token, result = .ok token → purpose.Serves token w.2.events

/-- The other threads rely on the history, which goes on as the clock does. -/
def traceDiscipline (uses : Place → Purpose → Prop) : Discipline (World × TokenHistory) where
  Inv := Traced uses
  Rely _ w w' := w.1.now ≤ w'.1.now ∧ w.2.Later w'.2
  refl _ w := ⟨Nat.le_refl _, .refl w.2⟩
  trans h h' := ⟨Nat.le_trans h.1 h'.1, h.2.trans h'.2⟩

section Steps

variable {uses : Place → Purpose → Prop} {i : ℕ} {w : World × TokenHistory}

/-- The operations that touch neither tokens nor promises. -/
def Inert : Op → Prop
  | .save _ _ => False
  | .remove _ => False
  | .postToken _ _ => False
  | .awaitLogin _ => False
  | .resolveSubjectToken _ => False
  | .claimFlight _ => False
  | .publishFlight _ _ => False
  | .clearSlot _ _ => False
  | .adoptState _ _ => False
  | .assignState _ _ => False
  | _ => True

/-- What the invariant depends on in the world. -/
structure SameTokens (w w' : World) : Prop where
  entries : w'.entries = w.entries
  engines : w'.engines = w.engines
  slots : w'.slots = w.slots
  flights : w'.flights = w.flights
  nextFlight : w'.nextFlight = w.nextFlight

theorem SameTokens.refl (w : World) :
  SameTokens w w
  := ⟨rfl, rfl, rfl, rfl, rfl⟩

theorem sameTokens_post {o : Op} (ho : Inert o) (w : World) (a : Ans o) :
  SameTokens w (host.post i w o a)
  := by
  cases o with
  | openLock path => cases a <;> exact ⟨rfl, rfl, rfl, rfl, rfl⟩
  | writeLock path inode acquiredAt =>
      cases a with
      | true =>
          simp only [host, hostPost, World.writeLock]
          split
          · apply SameTokens.refl
          · split <;> exact ⟨rfl, rfl, rfl, rfl, rfl⟩
      | false => apply SameTokens.refl
  | unlinkLock path reason => cases a <;> exact ⟨rfl, rfl, rfl, rfl, rfl⟩
  | claimMigration runtime => cases a <;> exact ⟨rfl, rfl, rfl, rfl, rfl⟩
  | endMigration runtime => exact ⟨rfl, rfl, rfl, rfl, rfl⟩
  | save loc entry => exact ho.elim
  | remove loc => exact ho.elim
  | postToken server request => exact ho.elim
  | awaitLogin server => exact ho.elim
  | resolveSubjectToken source => exact ho.elim
  | claimFlight slot => exact ho.elim
  | publishFlight flight result => exact ho.elim
  | clearSlot slot flight => exact ho.elim
  | adoptState engine persisted => exact ho.elim
  | assignState engine state => exact ho.elim
  | _ => apply SameTokens.refl

/-- The invariant lasts while only events are added that present what had been obtained. -/
theorem Traced.extend (hw : Traced uses w) {w' : World × TokenHistory}
    (hsame : SameTokens w.1 w'.1) (hpromised : w'.2.promised = w.2.promised)
    (hle : w.2.events <:+ w'.2.events) (horderly : Orderly w'.2.events) :
  Traced uses w'
  := by
  constructor
  · apply horderly
  · intro loc purpose entry huses hentry
    rw [hsame.entries] at hentry
    apply (hw.files loc purpose entry huses hentry).later hle
  · intro engine idp serverId huses
    obtain ⟨hserver, htokens⟩ := hw.memory engine idp serverId huses
    rw [hsame.engines]
    use hserver
    intro token htoken
    have hserves : (Purpose.root idp).Serves token w.2.events := htokens token htoken
    exact hserves.later hle
  · rw [hsame.slots, hpromised]
    apply hw.slots
  · rw [hsame.nextFlight, hpromised]
    apply hw.fresh
  · rw [hpromised]
    apply hw.once
  · rw [hsame.flights, hsame.nextFlight]
    apply hw.settled
  · intro flight slot purpose result hpromise huses hresult token htoken
    rw [hpromised] at hpromise
    rw [hsame.flights] at hresult
    apply (hw.published flight slot purpose result hpromise huses hresult token htoken).later hle

/-- Every operation moves the clock and the history on. -/
theorem rely_post (w : World × TokenHistory) (o : Op) (a : Ans o) (j : ℕ) :
  (traceDiscipline uses).Rely j w (tokenHost.post i w o a)
  := ⟨host_now_le i w.1 o a, w.2.later_after i w.1 o a⟩

/-- A step that keeps the invariant is what the other threads rely on. -/
theorem keeps_of_traced {o : Op} {a : Ans o} (h : Traced uses (tokenHost.post i w o a)) :
  (traceDiscipline uses).Keeps i w (tokenHost.post i w o a)
  := ⟨h, fun j _ => rely_post w o a j⟩

theorem traced_inert (hw : Traced uses w) {o : Op} (ho : Inert o) (a : Ans o) :
  Traced uses (tokenHost.post i w o a)
  := by
  have hhistory : w.2.after i w.1 o a = w.2 := by
    cases o with
    | postToken server request => exact ho.elim
    | awaitLogin server => exact ho.elim
    | resolveSubjectToken source => exact ho.elim
    | claimFlight slot => exact ho.elim
    | _ => rfl
  apply hw.extend (sameTokens_post ho w.1 a)
  · exact congrArg TokenHistory.promised hhistory
  · apply (w.2.later_after i w.1 o a).events
  · change Orderly (w.2.after i w.1 o a).events
    rw [hhistory]
    apply hw.orderly

/-! ### Events -/

/-- A request that presents what its server has issued. -/
theorem traced_postToken (hw : Traced uses w) {server : AuthServerConfig} {request : TokenRequest}
    (h : Presentable server w.2.events request) (response : TokenResponse) :
  Traced uses (tokenHost.post i w (.postToken server request) response)
  := by
  apply hw.extend
  · exact SameTokens.refl w.1
  · rfl
  · apply List.suffix_cons
  · apply orderly_cons hw.orderly
    rintro _ _ _ ⟨⟩
    apply h

theorem traced_awaitLogin (hw : Traced uses w) (server : AuthServerConfig)
    (response : TokenResponse) :
  Traced uses (tokenHost.post i w (.awaitLogin server) response)
  := by
  apply hw.extend
  · exact SameTokens.refl w.1
  · rfl
  · apply List.suffix_cons
  · apply orderly_cons hw.orderly
    rintro _ _ _ ⟨⟩

theorem traced_resolveSubjectToken (hw : Traced uses w) (source : SubjectTokenSource)
    (answer : Option String) :
  Traced uses (tokenHost.post i w (.resolveSubjectToken source) answer)
  := by
  cases answer with
  | none => exact hw
  | some subject =>
      apply hw.extend
      · exact SameTokens.refl w.1
      · rfl
      · apply List.suffix_cons
      · apply orderly_cons hw.orderly
        rintro _ _ _ ⟨⟩

/-! ### Files and memory -/

/-- A token is written where it serves. -/
theorem traced_save (hw : Traced uses w) {loc : Loc} {entry : Entry}
    (h : ∀ purpose, uses (.file loc) purpose → purpose.Keeps w.2.events entry) (saved : Bool) :
  Traced uses (tokenHost.post i w (.save loc entry) saved)
  := by
  cases saved with
  | false => exact hw
  | true =>
      refine ⟨hw.orderly, ?_, hw.memory, hw.slots, hw.fresh, hw.once, hw.settled, hw.published⟩
      intro loc' purpose entry' huses hentry
      change (w.1.entries.set loc entry).get loc' = some entry' at hentry
      by_cases heq : loc' = loc
      · subst heq
        rw [JsMap.get_set_self] at hentry
        obtain rfl := Option.some.inj hentry
        apply h purpose huses
      · rw [JsMap.get_set_of_ne _ heq] at hentry
        apply hw.files loc' purpose entry' huses hentry

theorem traced_remove (hw : Traced uses w) (loc : Loc) (removed : Bool) :
  Traced uses (tokenHost.post i w (.remove loc) removed)
  := by
  cases removed with
  | false => exact hw
  | true =>
      refine ⟨hw.orderly, ?_, hw.memory, hw.slots, hw.fresh, hw.once, hw.settled, hw.published⟩
      intro loc' purpose entry huses hentry
      apply hw.files loc' purpose entry huses
      apply JsMap.get_of_get_delete hentry

/-- A state in memory serves the purposes of an engine. -/
def Remembers (uses : Place → Purpose → Prop) (engine : ℕ) (events : List TokenEvent)
    (state : CachedServerState) : Prop :=
  ∀ idp serverId, uses (.memory engine) (.memory idp serverId) →
    state.serverId = serverId ∧ ∀ token, state.token = some token → Issued idp token events

theorem traced_setEngine (hw : Traced uses w) {engine : ℕ} {state : CachedServerState}
    (h : Remembers uses engine w.2.events state) :
  Traced uses (w.1.setEngine engine state, w.2)
  := by
  refine ⟨hw.orderly, hw.files, ?_, hw.slots, hw.fresh, hw.once, hw.settled, hw.published⟩
  intro engine' idp serverId huses
  change (Function.update w.1.engines engine state engine').serverId = serverId ∧
    ∀ token, (Function.update w.1.engines engine state engine').token = some token → _
  by_cases heq : engine' = engine
  · subst heq
    rw [Function.update_self]
    apply h idp serverId huses
  · rw [Function.update_of_ne heq]
    apply hw.memory engine' idp serverId huses

/-! ### Promises -/

theorem traced_claimFlight (hw : Traced uses w) {slot : Slot} {claim : Claim}
    (ha : tokenHost.allows i w (.claimFlight slot) claim) :
  Traced uses (tokenHost.post i w (.claimFlight slot) claim) ∧
    ∀ flight, claim = .join flight ∨ claim = .lead flight →
      (flight, slot) ∈ (tokenHost.post i w (.claimFlight slot) claim).2.promised
  := by
  cases claim with
  | join flight =>
      use hw
      rintro _ (⟨⟨⟩⟩ | ⟨⟨⟩⟩)
      apply hw.slots slot flight ha
  | lead flight =>
      obtain ⟨-, rfl⟩ := ha
      constructor
      · -- The new promise is none of those that have been put into slots.
        have hnew : ∀ slot', (w.1.nextFlight, slot') ∉ w.2.promised :=
          fun slot' hmem => Nat.lt_irrefl _ (hw.fresh _ slot' hmem)
        constructor
        · apply hw.orderly
        · apply hw.files
        · apply hw.memory
        · intro slot' flight hslot
          change Function.update w.1.slots slot (some w.1.nextFlight) slot' = some flight at hslot
          by_cases heq : slot' = slot
          · subst heq
            rw [Function.update_self] at hslot
            obtain rfl := Option.some.inj hslot
            apply List.mem_cons_self
          · rw [Function.update_of_ne heq] at hslot
            apply List.mem_cons_of_mem _ (hw.slots slot' flight hslot)
        · intro flight slot' hmem
          change flight < w.1.nextFlight + 1
          obtain ⟨⟨⟩⟩ | hmem := List.mem_cons.mp hmem
          · omega
          · have hlt := hw.fresh flight slot' hmem
            omega
        · intro flight slot' slot'' hmem hmem'
          obtain ⟨⟨⟩⟩ | hmem := List.mem_cons.mp hmem
          · obtain ⟨⟨⟩⟩ | hmem' := List.mem_cons.mp hmem'
            · rfl
            · cases hnew slot'' hmem'
          · obtain ⟨⟨⟩⟩ | hmem' := List.mem_cons.mp hmem'
            · cases hnew slot' hmem
            · apply hw.once flight slot' slot'' hmem hmem'
        · intro flight result hresult
          change flight < w.1.nextFlight + 1
          have hlt := hw.settled flight result hresult
          omega
        · intro flight slot' purpose result hmem huses hresult
          obtain ⟨⟨⟩⟩ | hmem := List.mem_cons.mp hmem
          · cases Nat.lt_irrefl _ (hw.settled _ result hresult)
          · apply hw.published flight slot' purpose result hmem huses hresult
      · rintro _ (⟨⟨⟩⟩ | ⟨⟨⟩⟩)
        apply List.mem_cons_self

/-- No place serves two purposes. -/
def Separate (uses : Place → Purpose → Prop) : Prop :=
  ∀ place purpose purpose', uses place purpose → uses place purpose' → purpose = purpose'

/-- A promise of a slot settles with a token that serves the purpose of the slot. -/
theorem traced_publishFlight (hsep : Separate uses) (hw : Traced uses w) {flight : ℕ}
    {slot : Slot} {purpose : Purpose} {result : Except AuthError TokenSet}
    (huses : uses (.slot slot) purpose) (hpromised : (flight, slot) ∈ w.2.promised)
    (hresult : ∀ token, result = .ok token → purpose.Serves token w.2.events) :
  Traced uses (tokenHost.post i w (.publishFlight flight result) ())
  := by
  refine ⟨hw.orderly, hw.files, hw.memory, hw.slots, hw.fresh, hw.once, ?_, ?_⟩
  · intro flight' result' hpublished
    change Function.update w.1.flights flight (some result) flight' = some result' at hpublished
    by_cases heq : flight' = flight
    · subst heq
      apply hw.fresh flight' slot hpromised
    · rw [Function.update_of_ne heq] at hpublished
      apply hw.settled flight' result' hpublished
  · intro flight' slot' purpose' result' hpromised' huses' hpublished
    change Function.update w.1.flights flight (some result) flight' = some result' at hpublished
    by_cases heq : flight' = flight
    · subst heq
      rw [Function.update_self] at hpublished
      obtain rfl := Option.some.inj hpublished
      obtain rfl := hw.once flight' slot slot' hpromised hpromised'
      obtain rfl := hsep _ purpose purpose' huses huses'
      apply hresult
    · rw [Function.update_of_ne heq] at hpublished
      apply hw.published flight' slot' purpose' result' hpromised' huses' hpublished

theorem traced_clearSlot (hw : Traced uses w) (slot : Slot) (flight : ℕ) :
  Traced uses (tokenHost.post i w (.clearSlot slot flight) ())
  := by
  change Traced uses (hostPost i w.1 (.clearSlot slot flight) (), w.2)
  simp only [hostPost]
  split
  · refine ⟨hw.orderly, hw.files, hw.memory, ?_, hw.fresh, hw.once, hw.settled, hw.published⟩
    intro slot' flight' hslot
    change Function.update w.1.slots slot none slot' = some flight' at hslot
    by_cases heq : slot' = slot
    · subst heq
      rw [Function.update_self] at hslot
      cases hslot
    · rw [Function.update_of_ne heq] at hslot
      apply hw.slots slot' flight' hslot
  · exact hw

end Steps
