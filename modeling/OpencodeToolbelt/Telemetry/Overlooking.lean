import OpencodeToolbelt.Telemetry.Recorder

/-!
# What most events leave alone

A view of the recorder that is about the active times of its sessions, the lines of their files or
the decisions on permissions overlooks most of what the recorder does.
-/

namespace Telemetry

/-- The instruments whose measurements are followed. -/
def Instrument.followed : Instrument → Bool
  | .activeTime => true
  | .linesOfCode => true
  | .permissionDecisions => true
  | _ => false

/-- Since when a session has been busy, if it is. -/
def Recorder.busySince (r : Recorder) (id : String) : Option ℚ :=
  (r.sessions.get id).bind SessionState.busySince

/-- A view that does not change with the spans, the logs and the other measurements. -/
structure OverlooksReports {α : Type} (view : Recorder → α) : Prop where
  reports : ∀ (r : Recorder) now spans spanSeq ended logs version branch,
    view { r with now, spans, spanSeq, ended, logs, version, branch } = view r
  measurement : ∀ (r : Recorder) m, m.instrument.followed = false →
    view { r with measurements := m :: r.measurements } = view r

/-- A view that does not change with what is remembered of messages and calls either, or with a
session that becomes known. -/
structure Overlooks {α : Type} (view : Recorder → α) : Prop extends OverlooksReports view where
  marks : ∀ (r : Recorder) chats pendingChats tools responseLengths finishedTools
      finalizedMessages,
    view { r with
      chats, pendingChats, tools, responseLengths, finishedTools, finalizedMessages } = view r
  sessions : ∀ (r : Recorder) sessions,
    Recorder.busySince { r with sessions } = r.busySince → view { r with sessions } = view r

/-- When sessions are busy is such a view. -/
theorem overlooks_busySince :
  Overlooks Recorder.busySince
  where
  reports _ _ _ _ _ _ _ _ := rfl
  marks _ _ _ _ _ _ _ := rfl
  measurement _ _ _ := rfl
  sessions _ _ h := h

theorem Recorder.session_busySince (r : Recorder) (sessionID : String) :
  (r.session sessionID).2.busySince = r.busySince sessionID
  := by
  unfold session busySince
  split
  · next hstate => rw [hstate, Option.bind_some]
  · next hnone =>
      rw [hnone]
      rfl

namespace OverlooksReports

variable {α : Type} {view : Recorder → α}

variable (h : OverlooksReports view) (deps : RecorderDeps) (r : Recorder)

include h

theorem emit (name : String) (attributes : Attributes) (severity : Severity)
    (context : Option Context) :
  view (r.emit deps name attributes severity context) = view r
  := by
  unfold Recorder.emit
  split
  · apply h.reports
  · rfl

theorem measure (source : Source) {instrument : Instrument} (hi : instrument.followed = false)
    (value : ℚ) (attributes : Attributes) :
  view (r.measure deps source instrument value attributes) = view r
  := by
  unfold Recorder.measure
  split
  · apply h.measurement r _ hi
  · rfl

theorem startSpan (span : SpanData) :
  view (r.startSpan deps span).1 = view r
  := by
  unfold Recorder.startSpan
  split
  · apply h.reports
  · rfl

theorem endSpan (span : Option ℕ) (time : Option ℚ) :
  view (r.endSpan span time) = view r
  := by
  unfold Recorder.endSpan
  split
  · rfl
  · apply h.reports

theorem updateSpan (span : Option ℕ) (f : SpanData → SpanData) :
  view (r.updateSpan span f) = view r
  := by
  unfold Recorder.updateSpan
  split
  · rfl
  · apply h.reports

end OverlooksReports

namespace Overlooks

variable {α : Type} {view : Recorder → α}

/-- What no step of a loop changes the loop does not. -/
theorem foldl {β : Type} {act : Recorder → β → Recorder} (hact : ∀ r b, view (act r b) = view r)
    (r : Recorder) (l : List β) :
  view (l.foldl act r) = view r
  := by
  induction l generalizing r with
  | nil => rfl
  | cons b l ih => rw [List.foldl_cons, ih, hact]

variable (h : Overlooks view) (deps : RecorderDeps) (r : Recorder)

include h

/-! ### Sessions -/

/-- The state of a session changes, and not since when it has been busy. -/
theorem setSession {sessionID : String} {state : SessionState}
    (hstate : state.busySince = r.busySince sessionID) :
  view (r.setSession sessionID state) = view r
  := by
  apply h.sessions
  funext id
  rw [Recorder.busySince, JsMap.get_set]
  split
  · next heq => rw [heq, ← hstate, Option.bind_some]
  · rfl

theorem session (sessionID : String) :
  view (r.session sessionID).1 = view r
  := by
  unfold Recorder.session
  split
  · rfl
  · next hnone =>
      apply h.setSession r
      rw [Recorder.busySince, hnone]
      rfl

theorem sessionOf (sessionID : Option String) :
  view (r.sessionOf sessionID).1 = view r
  := by
  unfold Recorder.sessionOf
  split
  · rfl
  · apply h.session

theorem onCompacted (sessionID : String) :
  view (r.onCompacted deps sessionID) = view r
  := by
  simp only [Recorder.onCompacted]
  rw [h.emit, h.endSpan, h.startSpan, h.measure deps _ _ rfl, h.session]

theorem onSessionError (sessionID : Option String) (error : Option MessageError) :
  view (r.onSessionError deps sessionID error) = view r
  := by
  simp only [Recorder.onSessionError]
  rw [h.emit, h.sessionOf]

theorem pruneCompleted (sessionID : String) :
  view (r.pruneCompleted sessionID) = view r
  := h.marks r _ _ _ _ _ _

/-! ### Messages -/

theorem chatOf (message : Message) (context : Context) :
  view (r.chatOf deps message context).1 = view r
  := by
  have hchats : ∀ (r : Recorder) chats, view { r with chats } = view r :=
    fun r chats => h.marks r chats _ _ _ _ _
  unfold Recorder.chatOf
  split
  · rfl
  · split
    · next pending _ =>
        dsimp only
        rw [hchats, h.updateSpan, h.updateSpan]
        apply h.marks r
    · dsimp only
      rw [hchats, h.startSpan]

theorem measureMessage (message : Message) :
  view (r.measureMessage deps message) = view r
  := by
  have hall : ∀ m ∈ r.messageMeasurements deps message, m.1.followed = false := by
    intro m hm
    simp only [Recorder.messageMeasurements, List.mem_append, List.mem_map, List.mem_cons,
      List.not_mem_nil, or_false] at hm
    rcases hm with (hm | ⟨t, -, rfl⟩) | rfl | rfl
    · split at hm
      · rw [List.mem_singleton.mp hm]
        rfl
      · cases hm
    · rfl
    · rfl
    · rfl
  unfold Recorder.measureMessage
  generalize r.messageMeasurements deps message = ms at hall
  induction ms generalizing r with
  | nil => rfl
  | cons m ms ih =>
      rw [List.foldl_cons, ih, h.measure deps r _ (hall m List.mem_cons_self)]
      intro m' hm'
      apply hall m' (List.mem_cons_of_mem _ hm')

theorem endChat (message : Message) (chat : ChatState) (usage : Attributes) :
  view (r.endChat message chat usage) = view r
  := by
  simp only [Recorder.endChat]
  rw [h.endSpan]
  split
  · rw [h.updateSpan]
  · rw [h.updateSpan, h.updateSpan]

theorem reportError (message : Message) :
  view (r.reportError deps message) = view r
  := by
  unfold Recorder.reportError
  split
  · rfl
  · apply h.onSessionError

theorem finalizeMessage (message : Message) (chat : ChatState) {session : SessionState}
    (hsession : session.busySince = r.busySince message.sessionID) :
  view (r.finalizeMessage deps message chat session) = view r
  := by
  simp only [Recorder.finalizeMessage]
  rw [h.reportError, h.emit, h.endChat, h.setSession, h.measureMessage]
  · apply h.marks r
  · rw [overlooks_busySince.measureMessage]
    apply hsession

theorem onMessageUpdated (message : Message) :
  view (r.onMessageUpdated deps message) = view r
  := by
  unfold Recorder.onMessageUpdated
  split
  · rfl
  · dsimp only
    have hchat : view ((r.session message.sessionID).1.chatOf deps message
        (r.session message.sessionID).2.context).1 = view r := by
      rw [h.chatOf, h.session]
    split
    · apply hchat
    · rw [h.finalizeMessage, hchat]
      rw [overlooks_busySince.chatOf, overlooks_busySince.session, Recorder.session_busySince]

/-! ### Calls -/

theorem endTool (span : Option ℕ) (attributes : Attributes) (failed : Bool) :
  view (r.endTool span attributes failed) = view r
  := by
  simp only [Recorder.endTool]
  rw [h.endSpan]
  split
  · rw [h.updateSpan, h.updateSpan]
  · rw [h.updateSpan]

theorem finishTool (callID : String) (outcome : Recorder.ToolOutcome) :
  view (r.finishTool deps callID outcome) = view r
  := by
  simp only [Recorder.finishTool]
  split
  · rfl
  · rw [h.emit, h.sessionOf, h.endTool, h.measure deps _ _ rfl]
    apply h.marks r

theorem onPartUpdated (part : Part) :
  view (r.onPartUpdated deps part) = view r
  := by
  unfold Recorder.onPartUpdated
  split
  · rfl
  · apply h.finishTool

theorem onToolBefore (input : ToolInput) :
  view (r.onToolBefore deps input) = view r
  := by
  have htools : ∀ (r : Recorder) tools, view { r with tools } = view r :=
    fun r tools => h.marks r _ _ tools _ _ _
  simp only [Recorder.onToolBefore]
  rw [htools]
  split
  · apply h.session
  · rw [h.startSpan, h.session]

/-! ### Other events -/

theorem onCommandExecuted (sessionID name : String) (arguments : Option String) :
  view (r.onCommandExecuted deps sessionID name arguments) = view r
  := by
  simp only [Recorder.onCommandExecuted]
  rw [h.emit, h.measure deps _ _ rfl, h.session]

theorem onTodoUpdated (sessionID : String) (statuses : List (Option String)) :
  view (r.onTodoUpdated deps sessionID statuses) = view r
  := by
  simp only [Recorder.onTodoUpdated]
  rw [h.emit, h.session]

theorem onChatMessage (sessionID : String) (agent modelID providerID : Option String)
    (parts : List PromptPart) :
  view (r.onChatMessage deps sessionID agent modelID providerID parts) = view r
  := by
  simp only [Recorder.onChatMessage]
  rw [h.emit, h.session]

theorem onChatParams (sessionID : String) (model agent : Option String) (output : SamplingParams) :
  view (r.onChatParams deps sessionID model agent output) = view r
  := by
  have hchats : ∀ (r : Recorder) pendingChats, view { r with pendingChats } = view r :=
    fun r pendingChats => h.marks r _ pendingChats _ _ _ _
  simp only [Recorder.onChatParams]
  rw [hchats, h.startSpan, h.endSpan, h.session]

theorem onTextComplete (messageID : String) (text : Option String) :
  view (r.onTextComplete messageID text) = view r
  := by
  unfold Recorder.onTextComplete
  split
  · rfl
  · apply h.marks r

theorem onCompactionAutocontinue (sessionID : String) (overflow : Bool) (agent : Option String)
    (enabled : Option Bool) :
  view (r.onCompactionAutocontinue deps sessionID overflow agent enabled) = view r
  := by
  simp only [Recorder.onCompactionAutocontinue]
  rw [h.emit, h.session]

theorem onBranchUpdated (branch : Option String) :
  view (r.onBranchUpdated branch) = view r
  := by
  unfold Recorder.onBranchUpdated
  split
  · rfl
  · apply h.reports

/-! ### What is dropped -/

theorem dropPending (sessionID : String) :
  view (r.dropPending sessionID) = view r
  := by
  rw [← h.endSpan r ((r.pendingChats.get sessionID).bind ChatState.span) none]
  apply h.marks (r.endSpan _ _)

theorem forgetChats (sessionID : String) :
  view (r.forgetChats sessionID) = view r
  := by
  apply foldl
  intro r' e
  split
  · rw [← h.endSpan r' e.2.span none]
    apply h.marks (r'.endSpan _ _)
  · rfl

theorem forgetTools (sessionID : String) :
  view (r.forgetTools sessionID) = view r
  := by
  apply foldl
  intro r' e
  split
  · rw [← h.endSpan r' e.2.span none]
    apply h.marks (r'.endSpan _ _)
  · rfl

theorem endChats :
  view r.endChats = view r
  := by
  have hfold := foldl (fun r (chat : ChatState) => h.endSpan r chat.span none) r
    (r.chats.values ++ r.pendingChats.values)
  rw [← hfold]
  apply h.marks

theorem endTools :
  view r.endTools = view r
  := by
  have hfold := foldl (fun r (tool : ToolSpanState) => h.endSpan r tool.span none) r
    r.tools.values
  rw [← hfold]
  apply h.marks

end Overlooks

/-! ### Views that overlook even more -/

/-- The view does not change with the files. -/
structure OverlooksFiles {α : Type} (view : Recorder → α) : Prop extends Overlooks view where
  diffs : ∀ (r : Recorder) diffs, view { r with diffs } = view r
  lines : ∀ (r : Recorder) m, m.instrument = .linesOfCode →
    view { r with measurements := m :: r.measurements } = view r

/-- The view does not change with the permissions. -/
structure OverlooksPermissions {α : Type} (view : Recorder → α) : Prop
    extends Overlooks view where
  permissions : ∀ (r : Recorder) permissions autoDecided,
    view { r with permissions, autoDecided } = view r
  decisions : ∀ (r : Recorder) m, m.instrument = .permissionDecisions →
    view { r with measurements := m :: r.measurements } = view r

/-- The view does not change with what the sessions are doing. -/
structure OverlooksActivity {α : Type} (view : Recorder → α) : Prop extends Overlooks view where
  activity : ∀ (r : Recorder) sessions, view { r with sessions } = view r
  activeTime : ∀ (r : Recorder) m, m.instrument = .activeTime →
    view { r with measurements := m :: r.measurements } = view r

section More

variable {α : Type} {view : Recorder → α} (deps : RecorderDeps) (r : Recorder)

theorem OverlooksFiles.onSessionDiff (h : OverlooksFiles view) (sessionID : String)
    (diff : List FileDiff) :
  view (r.onSessionDiff deps sessionID diff) = view r
  := by
  have hmeasure : ∀ (p : Prop) [Decidable p] (r : Recorder) source (value : ℚ)
      (attributes : Attributes),
      view (if p then r.measure deps source .linesOfCode value attributes else r) = view r := by
    intro p _ r source value attributes
    split
    · unfold Recorder.measure
      split
      · apply h.lines r _ rfl
      · rfl
    · rfl
  rw [← h.session r sessionID]
  apply Overlooks.foldl
  intro r' entry
  simp only [Recorder.onFileDiff]
  split
  · apply h.diffs
  · rw [h.emit, hmeasure, hmeasure]
    apply h.diffs

theorem OverlooksPermissions.recordDecision (h : OverlooksPermissions view)
    (sessionID permissionID decision source : String) (tool : Option String) :
  view (r.recordDecision deps sessionID permissionID decision source tool) = view r
  := by
  have hmeasure : ∀ (r : Recorder) source (value : ℚ) (attributes : Attributes),
      view (r.measure deps source .permissionDecisions value attributes) = view r := by
    intro r source value attributes
    unfold Recorder.measure
    split
    · apply h.decisions r _ rfl
    · rfl
  simp only [Recorder.recordDecision]
  rw [h.emit, hmeasure, h.session]

theorem OverlooksPermissions.onPermissionReplied (h : OverlooksPermissions view)
    (sessionID permissionID response : String) :
  view (r.onPermissionReplied deps sessionID permissionID response) = view r
  := by
  unfold Recorder.onPermissionReplied
  split
  · apply h.permissions r r.permissions
  · dsimp only
    rw [h.recordDecision]
    apply h.permissions r _ r.autoDecided

theorem OverlooksPermissions.onPermissionAsk (h : OverlooksPermissions view)
    (id type sessionID : String) (status : Option String) :
  view (r.onPermissionAsk deps id type sessionID status) = view r
  := by
  unfold Recorder.onPermissionAsk
  split
  · rfl
  · split
    · rfl
    · rw [h.recordDecision]
      apply h.permissions r r.permissions

theorem OverlooksActivity.settleActiveTime (h : OverlooksActivity view) (sessionID : String)
    (state : SessionState) :
  view (r.settleActiveTime deps sessionID state) = view r
  := by
  unfold Recorder.settleActiveTime
  split
  · rfl
  · unfold Recorder.measure
    split
    · rw [h.activeTime _ _ rfl]
      apply h.activity
    · apply h.activity

theorem OverlooksActivity.closeSession (h : OverlooksActivity view) (sessionID : String)
    (state : SessionState) :
  view (r.closeSession sessionID state) = view r
  := by
  rw [← h.endSpan r state.span none]
  apply h.activity

theorem OverlooksActivity.dropSession (h : OverlooksActivity view) (sessionID : String) :
  view (r.dropSession deps sessionID) = view r
  := by
  unfold Recorder.dropSession
  split
  · rfl
  · rw [h.closeSession, h.settleActiveTime]

theorem OverlooksActivity.onSessionCreated (h : OverlooksActivity view) (info : SessionInfo) :
  view (r.onSessionCreated deps info) = view r
  := by
  simp only [Recorder.onSessionCreated]
  rw [h.emit, h.measure deps _ _ rfl]
  rw [← h.startSpan deps r _]
  apply h.activity

theorem OverlooksActivity.onSessionStatus (h : OverlooksActivity view) (sessionID : String)
    (status : SessionStatus) :
  view (r.onSessionStatus deps sessionID status) = view r
  := by
  rw [← h.session r sessionID]
  cases status with
  | busy => apply h.activity
  | retry attempt => apply h.emit
  | idle => apply h.settleActiveTime

theorem OverlooksActivity.onSessionIdle (h : OverlooksActivity view) (sessionID : String) :
  view (r.onSessionIdle deps sessionID) = view r
  := by
  unfold Recorder.onSessionIdle
  split
  · rfl
  · dsimp only
    rw [h.pruneCompleted, h.closeSession, h.updateSpan, h.emit, h.settleActiveTime]

theorem OverlooksActivity.shutdown (h : OverlooksActivity view) :
  view (r.shutdown deps) = view r
  := by
  have hsessions : view (r.endSessions deps) = view r := by
    have hact : ∀ (r : Recorder) (e : String × SessionState),
        view ((r.settleActiveTime deps e.1 e.2).endSpan e.2.span none) = view r := by
      intro r e
      rw [h.endSpan, h.settleActiveTime]
    rw [← Overlooks.foldl hact r r.sessions.entries]
    apply h.activity
  unfold Recorder.shutdown
  rw [h.endTools, h.endChats, hsessions]

end More

/-! ### Events -/

/-- The events that every such view overlooks. -/
def HostEvent.overlooked : HostEvent → Bool
  | .sessionCreated _ => false
  | .sessionIdle _ => false
  | .sessionStatus _ _ => false
  | .sessionDiff _ _ => false
  | .permissionUpdated _ _ _ => false
  | .permissionReplied _ _ _ => false
  | .permissionAsk _ _ _ _ => false
  | .sessionDeleted _ => false
  | .serverInstanceDisposed => false
  | .shutdown => false
  | _ => true

theorem Overlooks.handle {α : Type} {view : Recorder → α} (h : Overlooks view)
    (deps : RecorderDeps) (r : Recorder) {e : HostEvent} (he : e.overlooked = true) :
  view (r.handle deps e) = view r
  := by
  cases e with
  | sessionCompacted => apply h.onCompacted
  | sessionError => apply h.onSessionError
  | messageUpdated => apply h.onMessageUpdated
  | messagePartUpdated => apply h.onPartUpdated
  | commandExecuted => apply h.onCommandExecuted
  | installationUpdated => apply h.reports r
  | vcsBranchUpdated => apply h.onBranchUpdated
  | todoUpdated => apply h.onTodoUpdated
  | other => rfl
  | chatMessage => apply h.onChatMessage
  | chatParams => apply h.onChatParams
  | textComplete => apply h.onTextComplete
  | compactionAutocontinue => apply h.onCompactionAutocontinue
  | toolBefore => apply h.onToolBefore
  | toolAfter => apply h.finishTool
  | sessionCreated => cases he
  | sessionIdle => cases he
  | sessionStatus => cases he
  | sessionDiff => cases he
  | permissionUpdated => cases he
  | permissionReplied => cases he
  | permissionAsk => cases he
  | sessionDeleted => cases he
  | serverInstanceDisposed => cases he
  | shutdown => cases he

end Telemetry
