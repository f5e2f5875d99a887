import OpencodeToolbelt.Data.Splits
import OpencodeToolbelt.Telemetry.Overlooking

/-!
# Forgetting sessions

What the recorder remembers is kept in ten collections. When a session is deleted it is to drop
what the events of the session have put into them.
-/

namespace Telemetry

/-! ### What is held -/

/-- A key of one of the collections. -/
inductive Place where
  | session (id : String)
  | chat (id : String)
  | pendingChat (id : String)
  | tool (id : String)
  | responseLength (id : String)
  | autoDecided (id : String)
  | finishedTool (id : String)
  | finalizedMessage (id : String)
  | permission (id : String)
  | diff (key : String)

/-- What a collection holds under a key. -/
inductive Entry where
  | session (state : SessionState)
  | chat (chat : ChatState)
  | tool (tool : ToolSpanState)
  | length (n : ℕ)
  | decided
  | owner (sessionID : String)
  | permission (permission : PermissionState)
  | diff (totals : DiffState)

/-- The session that an event or a hook names, if it names one. -/
def HostEvent.sessionID : HostEvent → Option String
  | .sessionCreated info => some info.id
  | .sessionIdle sessionID => some sessionID
  | .sessionStatus sessionID _ => some sessionID
  | .sessionCompacted sessionID => some sessionID
  | .sessionError sessionID _ => sessionID
  | .sessionDiff sessionID _ => some sessionID
  | .messageUpdated info => some info.sessionID
  | .messagePartUpdated part => part.sessionID
  | .permissionUpdated _ _ sessionID => some sessionID
  | .permissionReplied sessionID _ _ => some sessionID
  | .commandExecuted sessionID _ _ => some sessionID
  | .todoUpdated sessionID _ => some sessionID
  | .sessionDeleted id => some id
  | .chatMessage sessionID _ _ _ _ => some sessionID
  | .chatParams sessionID _ _ _ => some sessionID
  | .textComplete sessionID _ _ => some sessionID
  | .permissionAsk _ _ sessionID _ => some sessionID
  | .compactionAutocontinue sessionID _ _ _ => some sessionID
  | .toolBefore input => some input.sessionID
  | .toolAfter input _ => some input.sessionID
  | .installationUpdated _ => none
  | .vcsBranchUpdated _ => none
  | .serverInstanceDisposed => none
  | .other => none
  | .shutdown => none

namespace Recorder

/-- What a recorder holds. -/
def holding (r : Recorder) : Place → Option Entry
  | .session id => (r.sessions.get id).map .session
  | .chat id => (r.chats.get id).map .chat
  | .pendingChat id => (r.pendingChats.get id).map .chat
  | .tool id => (r.tools.get id).map .tool
  | .responseLength id => (r.responseLengths.get id).map .length
  | .autoDecided id => (r.autoDecided.get id).map fun _ => .decided
  | .finishedTool id => (r.finishedTools.get id).map .owner
  | .finalizedMessage id => (r.finalizedMessages.get id).map .owner
  | .permission id => (r.permissions.get id).map .permission
  | .diff key => (r.diffs.get key).map .diff

variable (deps : RecorderDeps)

/-- An event of a session has changed what is held at a place, and it has not changed since. -/
def Wrote (es : List (ℚ × HostEvent)) (p : Place) (sessionID : String) : Prop :=
  ∃ before e after, es = before ++ e :: after ∧ e.2.sessionID = some sessionID ∧
    (run deps (before ++ [e])).holding p ≠ (run deps before).holding p ∧
    ∀ rest, rest <+: after →
      (run deps (before ++ e :: rest)).holding p = (run deps (before ++ [e])).holding p

/-- An entry that is held was created by an event of a session. -/
def CreatedBy (es : List (ℚ × HostEvent)) (p : Place) (sessionID : String) : Prop :=
  (run deps es).holding p ≠ none ∧ Wrote deps es p sessionID

/-- The way back from the entries of a session to it: the lengths are of messages that have been
counted, the decided permissions are known, and the calls are those of the session itself. -/
structure Reachable (es : List (ℚ × HostEvent)) (sessionID : String) : Prop where
  lengths : ∀ id, CreatedBy deps es (.responseLength id) sessionID →
    (run deps es).finalizedMessages.get id = some sessionID
  decided : ∀ id, CreatedBy deps es (.autoDecided id) sessionID →
    ((run deps es).permissions.get id).map PermissionState.sessionID = some sessionID
  calls : ∀ id, CreatedBy deps es (.finishedTool id) sessionID →
    (run deps es).finishedTools.get id = some sessionID
  sessions : ∀ id, CreatedBy deps es (.session id) sessionID → id = sessionID

theorem run_append (es : List (ℚ × HostEvent)) (e : ℚ × HostEvent) :
  run deps (es ++ [e]) = (run deps es).deliver deps e
  := List.foldl_concat _ _ _ _

theorem wrote_append_iff {es : List (ℚ × HostEvent)} {e : ℚ × HostEvent} {p : Place}
    {sessionID : String} :
  Wrote deps (es ++ [e]) p sessionID ↔
    (e.2.sessionID = some sessionID ∧
      (run deps (es ++ [e])).holding p ≠ (run deps es).holding p) ∨
    (Wrote deps es p sessionID ∧ (run deps (es ++ [e])).holding p = (run deps es).holding p)
  := by
  rw [Wrote, List.exists_split_concat_iff]
  constructor
  · rintro (⟨hsession, hchanged, -⟩ | ⟨before, e', after, rfl, hsession, hchanged, hsame⟩)
    · apply Or.inl ⟨hsession, hchanged⟩
    · right
      constructor
      · use before, e', after, rfl, hsession, hchanged
        intro rest hrest
        apply hsame rest (hrest.trans (List.prefix_append _ _))
      · have hlast := hsame (after ++ [e]) (List.prefix_refl _)
        rw [← hsame after (List.prefix_append _ _)] at hlast
        rw [← hlast, List.append_assoc, List.cons_append]
  · rintro (⟨hsession, hchanged⟩ | ⟨⟨before, e', after, rfl, hsession, hchanged, hsame⟩, hlast⟩)
    · left
      use hsession, hchanged
      intro rest hrest
      rw [List.prefix_nil.mp hrest]
    · right
      use before, e', after, rfl, hsession, hchanged
      intro rest hrest
      rcases List.prefix_concat_iff.mp hrest with rfl | hrest
      · rw [← hsame after (List.prefix_refl _), ← hlast, List.append_assoc, List.cons_append]
      · apply hsame rest hrest

/-! ### What events put in -/

/-- The collections whose entries lead back to their session. -/
structure Owned where
  chats : JsMap String ChatState
  pendingChats : JsMap String ChatState
  tools : JsMap String ToolSpanState
  finalizedMessages : JsMap String String
  permissions : JsMap String PermissionState
  diffs : JsMap String DiffState

def owned (r : Recorder) : Owned where
  chats := r.chats
  pendingChats := r.pendingChats
  tools := r.tools
  finalizedMessages := r.finalizedMessages
  permissions := r.permissions
  diffs := r.diffs

theorem overlooksReports_owned :
  OverlooksReports owned
  where
  reports _ _ _ _ _ _ _ _ := rfl
  measurement _ _ _ := rfl

/-- A key of the files of a session. -/
def FileOf (sessionID key : String) : Prop :=
  (diffKeyPrefix sessionID).toList.isPrefixOf key.toList = true

/-- Every entry of a map is one of another map, or is of a kind. -/
def Adds {V : Type} (m m' : JsMap String V) (kind : String → V → Prop) : Prop :=
  ∀ k v, m'.get k = some v → m.get k = some v ∨ kind k v

namespace Adds

variable {V : Type} {m m' m'' : JsMap String V} {kind : String → V → Prop}

theorem refl (m : JsMap String V) (kind : String → V → Prop) :
  Adds m m kind
  := fun _ _ h => Or.inl h

theorem trans (h : Adds m m' kind) (h' : Adds m' m'' kind) :
  Adds m m'' kind
  := by
  intro k v hget
  rcases h' k v hget with hget | hkind
  · apply h k v hget
  · apply Or.inr hkind

theorem set {k : String} {v : V} (hkind : kind k v) :
  Adds m (m.set k v) kind
  := by
  intro k' v' hget
  rw [JsMap.get_set] at hget
  split at hget
  · next heq =>
      rw [heq, ← Option.some.inj hget]
      apply Or.inr hkind
  · apply Or.inl hget

theorem delete (k : String) :
  Adds m (m.delete k) kind
  := fun _ _ hget => Or.inl (JsMap.get_of_get_delete hget)

theorem filter (p : String → V → Bool) :
  Adds m (m.filter p) kind
  := by
  intro k v hget
  rw [JsMap.get_filter] at hget
  apply Or.inl (Option.eq_some_of_filter_eq_some hget)

theorem clear :
  Adds m m.clear kind
  := by
  intro k v hget
  rw [JsMap.get_clear] at hget
  cases hget

end Adds

/-- What is new in the collections is of the session. -/
structure Writes (s : Option String) (o o' : Owned) : Prop where
  chats : Adds o.chats o'.chats fun _ chat => s = some chat.sessionID
  pendingChats : Adds o.pendingChats o'.pendingChats fun id chat =>
    s = some id ∧ chat.sessionID = id
  tools : Adds o.tools o'.tools fun _ tool => s = some tool.sessionID
  finalizedMessages : Adds o.finalizedMessages o'.finalizedMessages fun _ owner => s = some owner
  permissions : Adds o.permissions o'.permissions fun _ permission =>
    s = some permission.sessionID
  diffs : Adds o.diffs o'.diffs fun key _ => ∃ sessionID, s = some sessionID ∧ FileOf sessionID key

namespace Writes

variable {s : Option String} {o o' o'' : Owned}

theorem refl (s : Option String) (o : Owned) :
  Writes s o o
  := ⟨.refl _ _, .refl _ _, .refl _ _, .refl _ _, .refl _ _, .refl _ _⟩

theorem trans (h : Writes s o o') (h' : Writes s o' o'') :
  Writes s o o''
  := ⟨h.chats.trans h'.chats, h.pendingChats.trans h'.pendingChats, h.tools.trans h'.tools,
    h.finalizedMessages.trans h'.finalizedMessages, h.permissions.trans h'.permissions,
    h.diffs.trans h'.diffs⟩

theorem of_eq (h : o' = o) :
  Writes s o o'
  := by
  rw [h]
  apply refl

theorem foldl {β : Type} {act : Recorder → β → Recorder}
    (hact : ∀ r b, Writes s (owned r) (owned (act r b))) (r : Recorder) (l : List β) :
  Writes s (owned r) (owned (l.foldl act r))
  := by
  induction l generalizing r with
  | nil => apply refl
  | cons b l ih => apply (hact r b).trans (ih _)

end Writes

section Handlers

variable (r : Recorder)

theorem owned_measure (source : Source) (instrument : Instrument) (value : ℚ)
    (attributes : Attributes) :
  owned (r.measure deps source instrument value attributes) = owned r
  := by
  unfold measure
  split <;> rfl

theorem owned_session (sessionID : String) :
  owned (r.session sessionID).1 = owned r
  := by
  unfold session
  split <;> rfl

theorem owned_sessionOf (sessionID : Option String) :
  owned (r.sessionOf sessionID).1 = owned r
  := by
  unfold sessionOf
  split
  · rfl
  · apply owned_session

theorem owned_settleActiveTime (sessionID : String) (state : SessionState) :
  owned (r.settleActiveTime deps sessionID state) = owned r
  := by
  unfold settleActiveTime
  split
  · rfl
  · apply owned_measure

theorem owned_closeSession (sessionID : String) (state : SessionState) :
  owned (r.closeSession sessionID state) = owned r
  := overlooksReports_owned.endSpan r state.span none

theorem owned_onSessionCreated (info : SessionInfo) :
  owned (r.onSessionCreated deps info) = owned r
  := by
  simp only [onSessionCreated]
  rw [overlooksReports_owned.emit, owned_measure]
  apply overlooksReports_owned.startSpan

theorem owned_onSessionStatus (sessionID : String) (status : SessionStatus) :
  owned (r.onSessionStatus deps sessionID status) = owned r
  := by
  rw [← r.owned_session sessionID]
  cases status with
  | busy => rfl
  | retry attempt => apply overlooksReports_owned.emit
  | idle => apply owned_settleActiveTime

theorem owned_onCompacted (sessionID : String) :
  owned (r.onCompacted deps sessionID) = owned r
  := by
  simp only [onCompacted]
  rw [overlooksReports_owned.emit, overlooksReports_owned.endSpan,
    overlooksReports_owned.startSpan, owned_measure, owned_session]

theorem owned_onSessionError (sessionID : Option String) (error : Option MessageError) :
  owned (r.onSessionError deps sessionID error) = owned r
  := by
  simp only [onSessionError]
  rw [overlooksReports_owned.emit, owned_sessionOf]

theorem writes_pruneCompleted (s : Option String) (sessionID : String) :
  Writes s (owned r) (owned (r.pruneCompleted sessionID))
  := ⟨.refl _ _, .refl _ _, .refl _ _, .filter _, .refl _ _, .refl _ _⟩

theorem writes_onSessionIdle (s : Option String) (sessionID : String) :
  Writes s (owned r) (owned (r.onSessionIdle deps sessionID))
  := by
  unfold onSessionIdle
  split
  · apply Writes.refl
  · dsimp only
    apply Writes.trans (Writes.of_eq _) (writes_pruneCompleted _ s sessionID)
    rw [owned_closeSession, overlooksReports_owned.updateSpan, overlooksReports_owned.emit,
      owned_settleActiveTime]

/-! ### Files -/

theorem fileOf_diffKey (sessionID file : String) :
  FileOf sessionID (diffKey sessionID file)
  := by
  rw [FileOf, List.isPrefixOf_iff_prefix, diffKey, String.toList_append]
  apply List.prefix_append

theorem writes_onFileDiff (sessionID : String) (context : Context) (entry : FileDiff) :
  Writes (some sessionID) (owned r) (owned (r.onFileDiff deps sessionID context entry))
  := by
  have hdiffs : ∀ totals, Writes (some sessionID) (owned r)
      (owned { r with diffs := r.diffs.set (diffKey sessionID entry.file) totals }) :=
    fun _ => ⟨.refl _ _, .refl _ _, .refl _ _, .refl _ _, .refl _ _,
      .set ⟨sessionID, rfl, fileOf_diffKey sessionID entry.file⟩⟩
  have hmeasure : ∀ (p : Prop) [Decidable p] (r : Recorder) source instrument (value : ℚ)
      (attributes : Attributes),
      owned (if p then r.measure deps source instrument value attributes else r) = owned r := by
    intro p _ r source instrument value attributes
    split
    · apply owned_measure
    · rfl
  simp only [onFileDiff]
  split
  · apply hdiffs
  · rw [overlooksReports_owned.emit, hmeasure, hmeasure]
    apply hdiffs

theorem writes_onSessionDiff (sessionID : String) (diff : List FileDiff) :
  Writes (some sessionID) (owned r) (owned (r.onSessionDiff deps sessionID diff))
  := by
  rw [← r.owned_session sessionID]
  apply Writes.foldl
  intro r' entry
  apply writes_onFileDiff

/-! ### Messages -/

/-- A chat that waits for its message is kept under its session. -/
def PendingOwn : Prop := ∀ id chat, r.pendingChats.get id = some chat → chat.sessionID = id

theorem writes_chatOf (h : r.PendingOwn) (message : Message) (context : Context) :
  Writes (some message.sessionID) (owned r) (owned (r.chatOf deps message context).1)
  := by
  have hchats : ∀ (r' : Recorder) chat, chat.sessionID = message.sessionID →
      Writes (some message.sessionID) (owned r')
        (owned { r' with chats := r'.chats.set message.id chat }) := by
    intro r' chat hchat
    exact ⟨.set (by rw [hchat]), .refl _ _, .refl _ _, .refl _ _, .refl _ _, .refl _ _⟩
  unfold chatOf
  split
  · apply Writes.refl
  · split
    · next pending hpending =>
        dsimp only
        apply Writes.trans _ (hchats _ _ (h _ _ hpending))
        rw [overlooksReports_owned.updateSpan, overlooksReports_owned.updateSpan]
        exact ⟨.refl _ _, .delete _, .refl _ _, .refl _ _, .refl _ _, .refl _ _⟩
    · dsimp only
      apply Writes.trans (Writes.of_eq _) (hchats _ _ rfl)
      apply overlooksReports_owned.startSpan

theorem writes_markMessage (message : Message) :
  Writes (some message.sessionID) (owned r) (owned (r.markMessage message))
  := ⟨.delete _, .refl _ _, .refl _ _, .set rfl, .refl _ _, .refl _ _⟩

theorem owned_measureMessage (message : Message) :
  owned (r.measureMessage deps message) = owned r
  := by
  unfold measureMessage
  apply Overlooks.foldl
  intro r' m
  apply owned_measure

theorem owned_endChat (message : Message) (chat : ChatState) (usage : Attributes) :
  owned (r.endChat message chat usage) = owned r
  := by
  simp only [endChat]
  rw [overlooksReports_owned.endSpan]
  split
  · rw [overlooksReports_owned.updateSpan]
  · rw [overlooksReports_owned.updateSpan, overlooksReports_owned.updateSpan]

theorem writes_finalizeMessage (message : Message) (chat : ChatState) (session : SessionState) :
  Writes (some message.sessionID) (owned r) (owned (r.finalizeMessage deps message chat session))
  := by
  have herror : ∀ r : Recorder, owned (r.reportError deps message) = owned r := by
    intro r
    unfold reportError
    split
    · rfl
    · apply owned_onSessionError
  simp only [finalizeMessage]
  rw [herror, overlooksReports_owned.emit, owned_endChat]
  apply Writes.trans (r.writes_markMessage message)
  apply Writes.of_eq
  apply owned_measureMessage

theorem writes_onMessageUpdated (h : r.PendingOwn) (message : Message) :
  Writes (some message.sessionID) (owned r) (owned (r.onMessageUpdated deps message))
  := by
  unfold onMessageUpdated
  split
  · apply Writes.refl
  · dsimp only
    have hchat : Writes (some message.sessionID) (owned r)
        (owned ((r.session message.sessionID).1.chatOf deps message
          (r.session message.sessionID).2.context).1) := by
      rw [← r.owned_session message.sessionID]
      apply writes_chatOf
      intro id chat hget
      apply h id chat
      rw [← hget]
      exact congr_arg (fun o : Owned => o.pendingChats.get id) (r.owned_session message.sessionID).symm
    split
    · apply hchat
    · apply hchat.trans
      apply writes_finalizeMessage

/-! ### Calls -/

theorem owned_endTool (span : Option ℕ) (attributes : Attributes) (failed : Bool) :
  owned (r.endTool span attributes failed) = owned r
  := by
  simp only [endTool]
  rw [overlooksReports_owned.endSpan]
  split
  · rw [overlooksReports_owned.updateSpan, overlooksReports_owned.updateSpan]
  · rw [overlooksReports_owned.updateSpan]

theorem writes_finishTool (s : Option String) (callID : String) (outcome : ToolOutcome) :
  Writes s (owned r) (owned (r.finishTool deps callID outcome))
  := by
  simp only [finishTool]
  split
  · apply Writes.refl
  · rw [overlooksReports_owned.emit, owned_sessionOf, owned_endTool, owned_measure]
    exact ⟨.refl _ _, .refl _ _, .delete _, .refl _ _, .refl _ _, .refl _ _⟩

theorem writes_onPartUpdated (s : Option String) (part : Part) :
  Writes s (owned r) (owned (r.onPartUpdated deps part))
  := by
  unfold onPartUpdated
  split
  · apply Writes.refl
  · apply writes_finishTool

theorem writes_onToolBefore (input : ToolInput) :
  Writes (some input.sessionID) (owned r) (owned (r.onToolBefore deps input))
  := by
  have htools : ∀ (r : Recorder) tool, tool.sessionID = input.sessionID →
      Writes (some input.sessionID) (owned r)
        (owned { r with tools := r.tools.set input.callID tool }) := by
    intro r tool htool
    exact ⟨.refl _ _, .refl _ _, .set (by rw [htool]), .refl _ _, .refl _ _, .refl _ _⟩
  simp only [onToolBefore]
  apply Writes.trans (Writes.of_eq _) (htools _ _ rfl)
  split
  · apply owned_session
  · rw [overlooksReports_owned.startSpan, owned_session]

/-! ### Permissions -/

theorem owned_recordDecision (sessionID permissionID decision source : String)
    (tool : Option String) :
  owned (r.recordDecision deps sessionID permissionID decision source tool) = owned r
  := by
  simp only [recordDecision]
  rw [overlooksReports_owned.emit, owned_measure, owned_session]

theorem writes_onPermissionUpdated (id type sessionID : String) :
  Writes (some sessionID) (owned r) (owned (r.onPermissionUpdated id type sessionID))
  := ⟨.refl _ _, .refl _ _, .refl _ _, .refl _ _, .set rfl, .refl _ _⟩

theorem writes_onPermissionReplied (s : Option String) (sessionID permissionID response : String) :
  Writes s (owned r) (owned (r.onPermissionReplied deps sessionID permissionID response))
  := by
  unfold onPermissionReplied
  split
  · apply Writes.of_eq rfl
  · dsimp only
    rw [owned_recordDecision]
    exact ⟨.refl _ _, .refl _ _, .refl _ _, .refl _ _, .delete _, .refl _ _⟩

theorem owned_onPermissionAsk (id type sessionID : String) (status : Option String) :
  owned (r.onPermissionAsk deps id type sessionID status) = owned r
  := by
  unfold onPermissionAsk
  split
  · rfl
  · split
    · rfl
    · apply owned_recordDecision

/-! ### Other events and hooks -/

theorem owned_onCommandExecuted (sessionID name : String) (arguments : Option String) :
  owned (r.onCommandExecuted deps sessionID name arguments) = owned r
  := by
  simp only [onCommandExecuted]
  rw [overlooksReports_owned.emit, owned_measure, owned_session]

theorem owned_onTodoUpdated (sessionID : String) (statuses : List (Option String)) :
  owned (r.onTodoUpdated deps sessionID statuses) = owned r
  := by
  simp only [onTodoUpdated]
  rw [overlooksReports_owned.emit, owned_session]

theorem owned_onChatMessage (sessionID : String) (agent modelID providerID : Option String)
    (parts : List PromptPart) :
  owned (r.onChatMessage deps sessionID agent modelID providerID parts) = owned r
  := by
  simp only [onChatMessage]
  rw [overlooksReports_owned.emit, owned_session]

theorem writes_onChatParams (sessionID : String) (model agent : Option String)
    (output : SamplingParams) :
  Writes (some sessionID) (owned r) (owned (r.onChatParams deps sessionID model agent output))
  := by
  have hpending : ∀ (r' : Recorder) chat, chat.sessionID = sessionID →
      Writes (some sessionID) (owned r')
        (owned { r' with pendingChats := r'.pendingChats.set sessionID chat }) := by
    intro r' chat hchat
    exact ⟨.refl _ _, .set ⟨rfl, hchat⟩, .refl _ _, .refl _ _, .refl _ _, .refl _ _⟩
  simp only [onChatParams]
  apply Writes.trans (Writes.of_eq _) (hpending _ _ rfl)
  rw [overlooksReports_owned.startSpan, overlooksReports_owned.endSpan, owned_session]

theorem owned_onTextComplete (messageID : String) (text : Option String) :
  owned (r.onTextComplete messageID text) = owned r
  := by
  unfold onTextComplete
  split <;> rfl

theorem owned_onCompactionAutocontinue (sessionID : String) (overflow : Bool)
    (agent : Option String) (enabled : Option Bool) :
  owned (r.onCompactionAutocontinue deps sessionID overflow agent enabled) = owned r
  := by
  simp only [onCompactionAutocontinue]
  rw [overlooksReports_owned.emit, owned_session]

theorem owned_onBranchUpdated (branch : Option String) :
  owned (r.onBranchUpdated branch) = owned r
  := by
  unfold onBranchUpdated
  split <;> rfl

/-! ### Dropping -/

theorem endSpan_eq (span : Option ℕ) (time : Option ℚ) :
  ∃ ended, r.endSpan span time = { r with ended }
  := by
  cases span with
  | none => exact ⟨r.ended, rfl⟩
  | some id => exact ⟨(id, time) :: r.ended, rfl⟩

/-- Deleting the entries of a list that pass a test. -/
theorem get_delete_all {V : Type} (q : V → Prop) [DecidablePred q] (m : JsMap String V)
    (l : List (String × V)) (id : String) (v : V) :
  (l.foldl (fun m e => if q e.2 then m.delete e.1 else m) m).get id = some v ↔
    m.get id = some v ∧ ∀ v', (id, v') ∈ l → ¬ q v'
  := by
  induction l generalizing m with
  | nil => simp
  | cons e l ih =>
      obtain ⟨k, v'⟩ := e
      rw [List.foldl_cons, ih]
      have hfirst : (if q v' then m.delete k else m).get id = some v ↔
          m.get id = some v ∧ (id = k → ¬ q v') := by
        split
        · next hq =>
            rw [JsMap.get_delete]
            split
            · next heq => simp [heq, hq]
            · next hne => simp [hne]
        · next hq => simp [hq]
      rw [hfirst, and_assoc]
      simp only [List.mem_cons, Prod.mk.injEq, or_imp, and_imp, forall_and, forall_eq_apply_imp_iff]

/-- Deleting the entries of a map that pass a test leaves the others. -/
theorem get_delete_entries {V : Type} (q : V → Prop) [DecidablePred q] (m : JsMap String V)
    (id : String) :
  (m.entries.foldl (fun m e => if q e.2 then m.delete e.1 else m) m).get id =
    (m.get id).filter fun v => ¬ q v
  := by
  ext v
  simp only [get_delete_all, Option.filter_eq_some_iff, decide_eq_true_eq]
  constructor
  · rintro ⟨hget, hnone⟩
    use hget, hnone v (JsMap.get_eq_some.mp hget)
  · rintro ⟨hget, hq⟩
    use hget
    intro v' hmem
    rw [JsMap.get_eq_some.mpr hmem] at hget
    rw [Option.some.inj hget]
    apply hq

theorem forgetChats_eq (sessionID : String) :
  ∃ ended chats, r.forgetChats sessionID = { r with ended, chats } ∧
    ∀ id, chats.get id = (r.chats.get id).filter fun chat => chat.sessionID ≠ sessionID
  := by
  have hfold : ∀ (l : List (String × ChatState)) (r : Recorder), ∃ ended,
      l.foldl (fun r e => if e.2.sessionID = sessionID then
        { r.endSpan e.2.span none with chats := r.chats.delete e.1 } else r) r =
      { r with
        ended
        chats := l.foldl (fun m e => if e.2.sessionID = sessionID then m.delete e.1 else m)
          r.chats } := by
    intro l
    induction l with
    | nil =>
        intro r
        use r.ended
        rfl
    | cons e l ih =>
        intro r
        rw [List.foldl_cons, List.foldl_cons]
        split
        · obtain ⟨ended, hended⟩ := r.endSpan_eq e.2.span none
          rw [hended]
          apply ih
        · apply ih
  obtain ⟨ended, hended⟩ := hfold r.chats.entries r
  exact ⟨ended, _, hended,
    get_delete_entries (fun chat : ChatState => chat.sessionID = sessionID) r.chats⟩

theorem forgetTools_eq (sessionID : String) :
  ∃ ended tools, r.forgetTools sessionID = { r with ended, tools } ∧
    ∀ id, tools.get id = (r.tools.get id).filter fun tool => tool.sessionID ≠ sessionID
  := by
  have hfold : ∀ (l : List (String × ToolSpanState)) (r : Recorder), ∃ ended,
      l.foldl (fun r e => if e.2.sessionID = sessionID then
        { r.endSpan e.2.span none with tools := r.tools.delete e.1 } else r) r =
      { r with
        ended
        tools := l.foldl (fun m e => if e.2.sessionID = sessionID then m.delete e.1 else m)
          r.tools } := by
    intro l
    induction l with
    | nil =>
        intro r
        use r.ended
        rfl
    | cons e l ih =>
        intro r
        rw [List.foldl_cons, List.foldl_cons]
        split
        · obtain ⟨ended, hended⟩ := r.endSpan_eq e.2.span none
          rw [hended]
          apply ih
        · apply ih
  obtain ⟨ended, hended⟩ := hfold r.tools.entries r
  exact ⟨ended, _, hended,
    get_delete_entries (fun tool : ToolSpanState => tool.sessionID = sessionID) r.tools⟩

theorem settleActiveTime_eq (sessionID : String) (state : SessionState) :
  ∃ sessions measurements,
    r.settleActiveTime deps sessionID state = { r with sessions, measurements } ∧
    ∀ id, id ≠ sessionID → sessions.get id = r.sessions.get id
  := by
  unfold settleActiveTime
  split
  · exact ⟨r.sessions, r.measurements, rfl, fun _ _ => rfl⟩
  · have hget : ∀ id, id ≠ sessionID → (r.sessions.set sessionID
        { state with busySince := none }).get id = r.sessions.get id := by
      intro id hne
      apply JsMap.get_set_of_ne _ hne
    unfold measure
    split
    · exact ⟨_, _, rfl, hget⟩
    · exact ⟨_, r.measurements, rfl, hget⟩

theorem dropSession_eq (sessionID : String) :
  ∃ sessions ended measurements,
    r.dropSession deps sessionID = { r with sessions, ended, measurements } ∧
    ∀ id, sessions.get id = if id = sessionID then none else r.sessions.get id
  := by
  unfold dropSession
  split
  · next hnone =>
      refine ⟨r.sessions, r.ended, r.measurements, rfl, ?_⟩
      intro id
      split
      · next heq => rw [heq, hnone]
      · rfl
  · next state _ =>
      obtain ⟨sessions, measurements, hsettle, hget⟩ := r.settleActiveTime_eq deps sessionID state
      obtain ⟨ended, hended⟩ :=
        ({ r with sessions, measurements } : Recorder).endSpan_eq state.span none
      rw [hsettle, closeSession, hended]
      refine ⟨sessions.delete sessionID, ended, measurements, rfl, ?_⟩
      intro id
      rw [JsMap.get_delete]
      split
      · rfl
      · next hne => rw [hget id hne]

/-- What a deletion drops, and what it leaves. -/
theorem forgetSession_eq (sessionID : String) :
  ∃ sessions ended measurements chats tools,
    r.forgetSession deps sessionID =
      (({ r with
          sessions, ended, measurements, chats, tools
          pendingChats := r.pendingChats.delete sessionID } : Recorder).dropRecords
            sessionID).pruneCompleted sessionID ∧
    (∀ id, sessions.get id = if id = sessionID then none else r.sessions.get id) ∧
    (∀ id, chats.get id = (r.chats.get id).filter fun chat => chat.sessionID ≠ sessionID) ∧
    ∀ id, tools.get id = (r.tools.get id).filter fun tool => tool.sessionID ≠ sessionID
  := by
  obtain ⟨sessions, ended, measurements, hdrop, hsessions⟩ := r.dropSession_eq deps sessionID
  obtain ⟨ended₁, hpending⟩ := ({ r with sessions, ended, measurements } : Recorder).endSpan_eq
    ((r.pendingChats.get sessionID).bind ChatState.span) none
  obtain ⟨ended₂, chats, hforget, hchats⟩ := ({ r with
    sessions, measurements
    ended := ended₁
    pendingChats := r.pendingChats.delete sessionID } : Recorder).forgetChats_eq sessionID
  obtain ⟨ended₃, tools, hforget', htools⟩ := ({ r with
    sessions, measurements, chats
    ended := ended₂
    pendingChats := r.pendingChats.delete sessionID } : Recorder).forgetTools_eq sessionID
  refine ⟨sessions, ended₃, measurements, chats, tools, ?_, hsessions, hchats, htools⟩
  simp only [forgetSession, hdrop, dropPending, hpending, hforget, hforget']

theorem Adds.of_get {V : Type} {m m' : JsMap String V} {kind : String → V → Prop}
    (h : ∀ k v, m'.get k = some v → m.get k = some v) :
  Adds m m' kind
  := fun k v hget => Or.inl (h k v hget)

theorem writes_forgetSession (s : Option String) (sessionID : String) :
  Writes s (owned r) (owned (r.forgetSession deps sessionID))
  := by
  obtain ⟨_, _, _, chats, tools, heq, -, hchats, htools⟩ := r.forgetSession_eq deps sessionID
  rw [heq]
  refine ⟨.of_get ?_, .delete _, .of_get ?_, .filter _, .filter _, .filter _⟩
  · intro k v hget
    apply Option.eq_some_of_filter_eq_some ((hchats k).symm.trans hget)
  · intro k v hget
    apply Option.eq_some_of_filter_eq_some ((htools k).symm.trans hget)

theorem writes_shutdown (s : Option String) :
  Writes s (owned r) (owned (r.shutdown deps))
  := by
  have hsessions : owned (r.endSessions deps) = owned r := by
    have hact : ∀ (r : Recorder) (e : String × SessionState),
        owned ((r.settleActiveTime deps e.1 e.2).endSpan e.2.span none) = owned r := by
      intro r' e
      rw [overlooksReports_owned.endSpan, owned_settleActiveTime]
    apply Overlooks.foldl hact r r.sessions.entries
  have hends : ∀ {V : Type} (span : V → Option ℕ) (r : Recorder) (l : List V),
      owned (l.foldl (fun r v => r.endSpan (span v) none) r) = owned r := by
    intro V span r l
    apply Overlooks.foldl
    intro r' v
    apply overlooksReports_owned.endSpan
  have hchats : ∀ r : Recorder, Writes s (owned r) (owned r.endChats) := by
    intro r
    apply Writes.trans (Writes.of_eq (hends ChatState.span r _))
    exact ⟨.clear, .clear, .refl _ _, .refl _ _, .refl _ _, .refl _ _⟩
  have htools : ∀ r : Recorder, Writes s (owned r) (owned r.endTools) := by
    intro r
    apply Writes.trans (Writes.of_eq (hends ToolSpanState.span r _))
    exact ⟨.refl _ _, .refl _ _, .clear, .refl _ _, .refl _ _, .refl _ _⟩
  apply (Writes.of_eq hsessions).trans
  apply (hchats _).trans (htools _)

/-- What an event puts in is of the session that it names. -/
theorem writes_handle (h : r.PendingOwn) (e : HostEvent) :
  Writes e.sessionID (owned r) (owned (r.handle deps e))
  := by
  cases e with
  | sessionCreated => apply Writes.of_eq (owned_onSessionCreated _ _ _)
  | sessionIdle => apply writes_onSessionIdle
  | sessionStatus => apply Writes.of_eq (owned_onSessionStatus _ _ _ _)
  | sessionCompacted => apply Writes.of_eq (owned_onCompacted _ _ _)
  | sessionError => apply Writes.of_eq (owned_onSessionError _ _ _ _)
  | sessionDiff => apply writes_onSessionDiff
  | messageUpdated => apply writes_onMessageUpdated deps r h
  | messagePartUpdated => apply writes_onPartUpdated
  | permissionUpdated => apply writes_onPermissionUpdated
  | permissionReplied => apply writes_onPermissionReplied
  | commandExecuted => apply Writes.of_eq (owned_onCommandExecuted _ _ _ _ _)
  | installationUpdated => apply Writes.refl
  | vcsBranchUpdated => apply Writes.of_eq (owned_onBranchUpdated _ _)
  | todoUpdated => apply Writes.of_eq (owned_onTodoUpdated _ _ _ _)
  | sessionDeleted => apply writes_forgetSession
  | serverInstanceDisposed => apply writes_shutdown
  | other => apply Writes.refl
  | chatMessage => apply Writes.of_eq (owned_onChatMessage _ _ _ _ _ _ _)
  | chatParams => apply writes_onChatParams
  | textComplete => apply Writes.of_eq (owned_onTextComplete _ _ _)
  | permissionAsk => apply Writes.of_eq (owned_onPermissionAsk _ _ _ _ _ _)
  | compactionAutocontinue =>
      apply Writes.of_eq (owned_onCompactionAutocontinue _ _ _ _ _ _)
  | toolBefore => apply writes_onToolBefore
  | toolAfter => apply writes_finishTool
  | shutdown => apply writes_shutdown

end Handlers

/-! ### The way back -/

/-- The entry leads back to the session, where its collection is one of those that do. -/
def Leads (sessionID : String) : Place → Entry → Prop
  | .chat _, .chat chat => chat.sessionID = sessionID
  | .pendingChat id, _ => id = sessionID
  | .tool _, .tool tool => tool.sessionID = sessionID
  | .finalizedMessage _, .owner owner => owner = sessionID
  | .permission _, .permission permission => permission.sessionID = sessionID
  | .diff key, _ => FileOf sessionID key
  | _, _ => True

/-- What an event of a session has changed leads back to it. -/
theorem Writes.leads {r r' : Recorder} {sessionID : String}
    (h : Writes (some sessionID) (owned r) (owned r')) {p : Place} {entry : Entry}
    (hentry : r'.holding p = some entry) (hchanged : r'.holding p ≠ r.holding p) :
  Leads sessionID p entry
  := by
  -- An entry that was there before has not changed.
  have hsame : ∀ {V : Type} {m m' : JsMap String V} {k : String} {v : V} {f : V → Entry},
      m'.get k = some v → m.get k = some v → (m'.get k).map f = (m.get k).map f := by
    intro V m m' k v f hget hold
    rw [hget, hold]
  cases p with
  | chat id =>
      obtain ⟨chat, hget, rfl⟩ := Option.map_eq_some_iff.mp hentry
      rcases h.chats id chat hget with hold | hkind
      · apply absurd (hsame hget hold) hchanged
      · apply (Option.some.inj hkind).symm
  | pendingChat id =>
      obtain ⟨chat, hget, rfl⟩ := Option.map_eq_some_iff.mp hentry
      rcases h.pendingChats id chat hget with hold | hkind
      · apply absurd (hsame hget hold) hchanged
      · apply (Option.some.inj hkind.1).symm
  | tool id =>
      obtain ⟨tool, hget, rfl⟩ := Option.map_eq_some_iff.mp hentry
      rcases h.tools id tool hget with hold | hkind
      · apply absurd (hsame hget hold) hchanged
      · apply (Option.some.inj hkind).symm
  | finalizedMessage id =>
      obtain ⟨owner, hget, rfl⟩ := Option.map_eq_some_iff.mp hentry
      rcases h.finalizedMessages id owner hget with hold | hkind
      · apply absurd (hsame hget hold) hchanged
      · apply (Option.some.inj hkind).symm
  | permission id =>
      obtain ⟨permission, hget, rfl⟩ := Option.map_eq_some_iff.mp hentry
      rcases h.permissions id permission hget with hold | hkind
      · apply absurd (hsame hget hold) hchanged
      · apply (Option.some.inj hkind).symm
  | diff key =>
      obtain ⟨totals, hget, rfl⟩ := Option.map_eq_some_iff.mp hentry
      rcases h.diffs key totals hget with hold | ⟨_, hkind, hfile⟩
      · apply absurd (hsame hget hold) hchanged
      · rw [Option.some.inj hkind]
        apply hfile
  | session id => trivial
  | responseLength id => trivial
  | autoDecided id => trivial
  | finishedTool id => trivial

/-- Chats wait under their session in every run. -/
theorem pendingOwn_run (es : List (ℚ × HostEvent)) :
  (run deps es).PendingOwn
  := by
  induction es using List.reverseRecOn with
  | nil =>
      intro id chat hget
      cases hget
  | append_singleton es e ih =>
      rw [run_append]
      intro id chat hget
      rcases (writes_handle deps { run deps es with now := e.1 } ih e.2).pendingChats id chat hget
        with hold | hkind
      · apply ih id chat hold
      · apply hkind.2

theorem Wrote.nonempty {es : List (ℚ × HostEvent)} {p : Place} {sessionID : String}
    (h : Wrote deps es p sessionID) :
  es ≠ []
  := by
  rintro rfl
  obtain ⟨before, e, after, heq, -⟩ := h
  cases before <;> cases heq

/-- The entries of a session lead back to it in every run. -/
theorem leads_run (es : List (ℚ × HostEvent)) {p : Place} {sessionID : String} {entry : Entry}
    (h : Wrote deps es p sessionID) (hentry : (run deps es).holding p = some entry) :
  Leads sessionID p entry
  := by
  induction es using List.reverseRecOn with
  | nil => apply absurd rfl h.nonempty
  | append_singleton es e ih =>
      rcases (wrote_append_iff deps).mp h with ⟨hsession, hchanged⟩ | ⟨hwrote, hsame⟩
      · rw [run_append] at hentry hchanged
        have hwrites := writes_handle deps { run deps es with now := e.1 } (pendingOwn_run deps es)
          e.2
        rw [hsession] at hwrites
        apply hwrites.leads hentry hchanged
      · rw [hsame] at hentry
        apply ih hwrote hentry

/-! ### Deletions -/

/-- Whether the deletion of a session drops an entry. -/
def Drops (r : Recorder) (sessionID : String) : Place → Entry → Prop
  | .session id, _ => id = sessionID
  | .chat _, .chat chat => chat.sessionID = sessionID
  | .pendingChat id, _ => id = sessionID
  | .tool _, .tool tool => tool.sessionID = sessionID
  | .responseLength id, _ => r.finalizedMessages.get id = some sessionID
  | .autoDecided id, _ =>
      (r.permissions.get id).map PermissionState.sessionID = some sessionID
  | .finishedTool _, .owner owner => owner = sessionID
  | .finalizedMessage _, .owner owner => owner = sessionID
  | .permission _, .permission permission => permission.sessionID = sessionID
  | .diff key, _ => FileOf sessionID key
  | _, _ => False

/-- A filter drops an entry or keeps it. -/
theorem holding_filter {V : Type} {f : V → Entry} {o o' : Option V} {drops : Entry → Prop}
    (q : V → Bool) (ho' : o' = o.filter q) (hq : ∀ v, o = some v → (drops (f v) ↔ q v = false)) :
  (o.map f = none → o'.map f = none) ∧
    ∀ entry, o.map f = some entry →
      (drops entry → o'.map f = none) ∧ (¬ drops entry → o'.map f = some entry)
  := by
  subst ho'
  cases o with
  | none => simp
  | some v =>
      constructor
      · rintro ⟨⟩
      · rintro entry hentry
        obtain rfl := Option.some.inj hentry
        rw [hq v rfl]
        cases hv : q v <;> simp [Option.filter, hv]

theorem ite_none_eq_filter {V : Type} (c : Prop) [Decidable c] (o : Option V) :
  (if c then none else o) = o.filter fun _ => !decide c
  := by
  cases o with
  | none =>
      rw [ite_self]
      rfl
  | some v => by_cases hc : c <;> simp [Option.filter, hc]

/-- A deletion drops what it is to drop, and leaves the rest. -/
theorem holding_forgetSession (r : Recorder) (sessionID : String) (p : Place) :
  (r.holding p = none → (r.forgetSession deps sessionID).holding p = none) ∧
    ∀ entry, r.holding p = some entry →
      (Drops r sessionID p entry → (r.forgetSession deps sessionID).holding p = none) ∧
      (¬ Drops r sessionID p entry → (r.forgetSession deps sessionID).holding p = some entry)
  := by
  obtain ⟨sessions, ended, measurements, chats, tools, heq, hsessions, hchats, htools⟩ :=
    r.forgetSession_eq deps sessionID
  rw [heq]
  cases p with
  | session id =>
      apply holding_filter _ ((hsessions id).trans (ite_none_eq_filter _ _))
      simp [Drops]
  | chat id =>
      apply holding_filter _ (hchats id)
      simp [Drops]
  | pendingChat id =>
      apply holding_filter _ ((JsMap.get_delete _ _ _).trans (ite_none_eq_filter _ _))
      simp [Drops]
  | tool id =>
      apply holding_filter _ (htools id)
      simp [Drops]
  | responseLength id =>
      apply holding_filter _ (JsMap.get_filter _ _ _)
      simp [Drops, JsMap.get_eq_some, dropRecords]
  | autoDecided id =>
      apply holding_filter _ (JsMap.get_filter _ _ _)
      simp [Drops, JsMap.get_eq_some]
  | finishedTool id =>
      apply holding_filter _ (JsMap.get_filter _ _ _)
      simp [Drops]
  | finalizedMessage id =>
      apply holding_filter _ (JsMap.get_filter _ _ _)
      simp [Drops]
  | permission id =>
      apply holding_filter _ (JsMap.get_filter _ _ _)
      simp [Drops]
  | diff key =>
      apply holding_filter _ (JsMap.get_filter _ _ _)
      simp [Drops, FileOf]

/-- After the deletion of a session nothing is held that its events have created, exactly when all
of it can be reached. -/
theorem forgets_iff_reachable (es : List (ℚ × HostEvent)) (now : ℚ) (sessionID : String) :
  (∀ p, ¬ CreatedBy deps (es ++ [(now, .sessionDeleted sessionID)]) p sessionID) ↔
    Reachable deps es sessionID
  := by
  have hdelete : ∀ p, (run deps (es ++ [(now, .sessionDeleted sessionID)])).holding p =
      (({ run deps es with now } : Recorder).forgetSession deps sessionID).holding p := by
    intro p
    rw [run_append]
    rfl
  have hforget := holding_forgetSession deps { run deps es with now } sessionID
  have hkept : ∀ p entry, CreatedBy deps es p sessionID →
      (run deps es).holding p = some entry → ¬ Drops (run deps es) sessionID p entry →
      CreatedBy deps (es ++ [(now, .sessionDeleted sessionID)]) p sessionID := by
    intro p entry hcreated hentry hdrops
    have hsame := ((hforget p).2 entry hentry).2 hdrops
    constructor
    · rw [hdelete, hsame]
      simp
    · apply (wrote_append_iff deps).mpr
      right
      use hcreated.2
      rw [hdelete, hsame, hentry]
  constructor
  · intro hnone
    have hdrops : ∀ p entry, CreatedBy deps es p sessionID →
        (run deps es).holding p = some entry → Drops (run deps es) sessionID p entry := by
      intro p entry hcreated hentry
      by_contra hdrops
      apply hnone p (hkept p entry hcreated hentry hdrops)
    constructor
    · intro id hcreated
      obtain ⟨entry, hentry⟩ := Option.ne_none_iff_exists'.mp hcreated.1
      apply hdrops _ entry hcreated hentry
    · intro id hcreated
      obtain ⟨entry, hentry⟩ := Option.ne_none_iff_exists'.mp hcreated.1
      apply hdrops _ entry hcreated hentry
    · intro id hcreated
      obtain ⟨entry, hentry⟩ := Option.ne_none_iff_exists'.mp hcreated.1
      have hdrop := hdrops _ entry hcreated hentry
      obtain ⟨owner, hget, rfl⟩ := Option.map_eq_some_iff.mp hentry
      rw [hget]
      apply congr_arg some hdrop
    · intro id hcreated
      obtain ⟨entry, hentry⟩ := Option.ne_none_iff_exists'.mp hcreated.1
      apply hdrops _ entry hcreated hentry
  · rintro hreachable p ⟨hheld, hwrote⟩
    rw [hdelete] at hheld
    have hentry : ∃ entry, (run deps es).holding p = some entry := by
      apply Option.ne_none_iff_exists'.mp
      intro hnone
      apply hheld ((hforget p).1 hnone)
    obtain ⟨entry, hentry⟩ := hentry
    have hdrops : ¬ Drops (run deps es) sessionID p entry :=
      fun hdrops => hheld (((hforget p).2 entry hentry).1 hdrops)
    have hsame := ((hforget p).2 entry hentry).2 hdrops
    have hold : Wrote deps es p sessionID := by
      rcases (wrote_append_iff deps).mp hwrote with ⟨-, hchanged⟩ | ⟨hwrote, -⟩
      · apply absurd _ hchanged
        rw [hdelete, hsame, hentry]
      · apply hwrote
    have hcreated : CreatedBy deps es p sessionID := by
      use by simp [hentry]
    apply hdrops
    have hleads := leads_run deps es hold hentry
    cases p with
    | chat id =>
        obtain ⟨chat, hget, rfl⟩ := Option.map_eq_some_iff.mp hentry
        apply hleads
    | pendingChat id => apply hleads
    | tool id =>
        obtain ⟨tool, hget, rfl⟩ := Option.map_eq_some_iff.mp hentry
        apply hleads
    | finalizedMessage id =>
        obtain ⟨owner, hget, rfl⟩ := Option.map_eq_some_iff.mp hentry
        apply hleads
    | permission id =>
        obtain ⟨permission, hget, rfl⟩ := Option.map_eq_some_iff.mp hentry
        apply hleads
    | diff key => apply hleads
    | session id => apply hreachable.sessions id hcreated
    | responseLength id => apply hreachable.lengths id hcreated
    | autoDecided id => apply hreachable.decided id hcreated
    | finishedTool id =>
        have howner := hreachable.calls id hcreated
        obtain ⟨owner, hget, rfl⟩ := Option.map_eq_some_iff.mp hentry
        rw [hget] at howner
        apply Option.some.inj howner

/-- The length of a text whose message is still being written stays when its session is deleted. -/
theorem text_length_stays :
  ¬ ∀ (deps : RecorderDeps) (es : List (ℚ × HostEvent)) (now : ℚ) (sessionID : String) (p : Place),
    ¬ CreatedBy deps (es ++ [(now, .sessionDeleted sessionID)]) p sessionID
  := by
  intro h
  have hbefore : (run ⟨true, true, true, false, []⟩
      [(0, .textComplete "s1" "m1" (some "hi"))]).responseLengths.get "m1" = some 2 := by
    decide +kernel
  have hafter : (run ⟨true, true, true, false, []⟩ [(0, .textComplete "s1" "m1" (some "hi")),
      (1, .sessionDeleted "s1")]).responseLengths.get "m1" = some 2 := by
    decide +kernel
  apply h ⟨true, true, true, false, []⟩ [(0, .textComplete "s1" "m1" (some "hi"))] 1 "s1"
    (.responseLength "m1")
  constructor
  · simp [holding, hafter]
  · apply (wrote_append_iff _).mpr
    right
    constructor
    · apply (@wrote_append_iff _ [] _ _ _).mpr
      left
      use rfl
      simp only [List.nil_append, holding, hbefore]
      simp [run, initial, JsMap.get_empty]
    · simp [holding, hbefore, hafter]

end Recorder

end Telemetry
