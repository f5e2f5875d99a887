import OpencodeToolbelt.Telemetry.Recorder
import Mathlib.Tactic.Ring

/-!
# The life of spans

A span that the recorder has started is held in one of its maps until it ends. It is lost when
its place in the map is taken: by a session that is created again, or a call that starts again.
-/

namespace Telemetry.Recorder

/-! ### Spans that are held -/

/-- One for the span given, and none for every other. -/
def tick (span : Option ℕ) (n : ℕ) : ℤ := if span = some n then 1 else 0

@[simp]
theorem tick_none (n : ℕ) :
  tick none n = 0
  := rfl

/-- How often a span is held in a map. -/
def holds {V : Type} (span : V → Option ℕ) (m : JsMap String V) (n : ℕ) : ℤ :=
  m.countValues fun v => span v = some n

variable (deps : RecorderDeps) (r : Recorder)

/-- How often a span is held. -/
def held (n : ℕ) : ℤ :=
  holds SessionState.span r.sessions n + holds ChatState.span r.chats n +
    holds ChatState.span r.pendingChats n + holds ToolSpanState.span r.tools n

/-- How often a span has ended. -/
def ends (n : ℕ) : ℤ := r.ended.countP fun e => e.1 = n

def started (n : ℕ) : ℤ := if n < r.spanSeq then 1 else 0

/-- One for a span that has started and is neither held nor has ended. -/
def debt (n : ℕ) : ℤ := r.started n - r.held n - r.ends n

theorem holds_set {V : Type} (span : V → Option ℕ) (m : JsMap String V) (k : String) (v : V)
    (n : ℕ) :
  holds span (m.set k v) n = holds span m n + tick (span v) n - tick ((m.get k).bind span) n
  := by
  have hcount := m.countValues_set k v fun v => decide (span v = some n)
  have htick : tick ((m.get k).bind span) n =
      if (m.get k).any (fun v => decide (span v = some n)) then 1 else 0 := by
    cases m.get k with
    | none => rfl
    | some v' => simp [tick]
  rw [htick]
  unfold holds tick
  simp only [decide_eq_true_eq] at hcount
  split at hcount <;> split at hcount <;> simp [*] <;> omega

theorem holds_delete {V : Type} (span : V → Option ℕ) (m : JsMap String V) (k : String) (n : ℕ) :
  holds span (m.delete k) n = holds span m n - tick ((m.get k).bind span) n
  := by
  have hcount := m.countValues_delete k fun v => decide (span v = some n)
  have htick : tick ((m.get k).bind span) n =
      if (m.get k).any (fun v => decide (span v = some n)) then 1 else 0 := by
    cases m.get k with
    | none => rfl
    | some v' => simp [tick]
  rw [htick]
  unfold holds
  split at hcount <;> simp [*] <;> omega

theorem holds_clear {V : Type} (span : V → Option ℕ) (m : JsMap String V) (n : ℕ) :
  holds span m.clear n = 0
  := by
  rw [holds, JsMap.countValues_clear]
  rfl

/-! ### Changes that hold the same spans -/

/-- Two recorders with the same maps of spans. -/
structure SameMaps (r r' : Recorder) : Prop where
  sessions : r'.sessions = r.sessions
  chats : r'.chats = r.chats
  pendingChats : r'.pendingChats = r.pendingChats
  tools : r'.tools = r.tools

theorem SameMaps.trans {r r' r'' : Recorder} (h : SameMaps r r') (h' : SameMaps r' r'') :
  SameMaps r r''
  := by
  constructor
  · rw [h'.sessions, h.sessions]
  · rw [h'.chats, h.chats]
  · rw [h'.pendingChats, h.pendingChats]
  · rw [h'.tools, h.tools]

/-- A change that neither starts nor ends a span, and holds the same ones. -/
structure Still (r r' : Recorder) : Prop extends SameMaps r r' where
  spanSeq : r'.spanSeq = r.spanSeq
  ended : r'.ended = r.ended

theorem Still.refl (r : Recorder) :
  Still r r
  := ⟨⟨rfl, rfl, rfl, rfl⟩, rfl, rfl⟩

theorem Still.trans {r r' r'' : Recorder} (h : Still r r') (h' : Still r' r'') :
  Still r r''
  := by
  use h.toSameMaps.trans h'.toSameMaps
  · rw [h'.spanSeq, h.spanSeq]
  · rw [h'.ended, h.ended]

theorem Still.debt {r r' : Recorder} (h : Still r r') (n : ℕ) :
  r'.debt n = r.debt n
  := by
  unfold Recorder.debt started held ends
  rw [h.sessions, h.chats, h.pendingChats, h.tools, h.spanSeq, h.ended]

theorem still_emit (name : String) (attributes : Attributes) (severity : Severity)
    (context : Option Context) :
  Still r (r.emit deps name attributes severity context)
  := by
  unfold emit
  split
  · exact ⟨⟨rfl, rfl, rfl, rfl⟩, rfl, rfl⟩
  · apply Still.refl

theorem still_measure (source : Source) (instrument : Instrument) (value : ℚ)
    (attributes : Attributes) :
  Still r (r.measure deps source instrument value attributes)
  := by
  unfold measure
  split
  · exact ⟨⟨rfl, rfl, rfl, rfl⟩, rfl, rfl⟩
  · apply Still.refl

theorem still_updateSpan (span : Option ℕ) (f : SpanData → SpanData) :
  Still r (r.updateSpan span f)
  := by
  unfold updateSpan
  split
  · apply Still.refl
  · exact ⟨⟨rfl, rfl, rfl, rfl⟩, rfl, rfl⟩

theorem startSpan_maps (span : SpanData) :
  SameMaps r (r.startSpan deps span).1
  := by
  unfold startSpan
  split <;> exact ⟨rfl, rfl, rfl, rfl⟩

theorem endSpan_maps (span : Option ℕ) (time : Option ℚ) :
  SameMaps r (r.endSpan span time)
  := by
  unfold endSpan
  split <;> exact ⟨rfl, rfl, rfl, rfl⟩

/-! ### What changes the debt -/

/-- A span that starts is owed until it is held. -/
theorem debt_startSpan (span : SpanData) (n : ℕ) :
  (r.startSpan deps span).1.debt n = r.debt n + tick (r.startSpan deps span).2 n
  := by
  unfold startSpan
  split
  · have hstarted : (if n < r.spanSeq + 1 then (1 : ℤ) else 0) =
        (if n < r.spanSeq then 1 else 0) + if some r.spanSeq = some n then 1 else 0 := by
      simp only [Option.some.injEq]
      split <;> split <;> split <;> omega
    change (if n < r.spanSeq + 1 then (1 : ℤ) else 0) - r.held n - r.ends n = _
    rw [hstarted]
    unfold debt started tick
    ring
  · simp

theorem debt_endSpan (span : Option ℕ) (time : Option ℚ) (n : ℕ) :
  (r.endSpan span time).debt n = r.debt n - tick span n
  := by
  cases span with
  | none => simp [endSpan]
  | some id =>
      have hends : (r.endSpan (some id) time).ends n = r.ends n + tick (some id) n := by
        simp [endSpan, ends, tick, List.countP_cons]
      change r.started n - r.held n - (r.endSpan (some id) time).ends n = _
      rw [hends]
      unfold debt
      ring

/-- What is no longer held is owed, and what is newly held is not. -/
theorem debt_with (sessions : JsMap String SessionState) (chats pendingChats : JsMap String ChatState)
    (tools : JsMap String ToolSpanState) (n : ℕ) :
  ({ r with sessions, chats, pendingChats, tools } : Recorder).debt n =
    r.debt n + (holds SessionState.span r.sessions n - holds SessionState.span sessions n) +
      (holds ChatState.span r.chats n - holds ChatState.span chats n) +
      (holds ChatState.span r.pendingChats n - holds ChatState.span pendingChats n) +
      (holds ToolSpanState.span r.tools n - holds ToolSpanState.span tools n)
  := by
  change r.started n - (holds SessionState.span sessions n + holds ChatState.span chats n +
    holds ChatState.span pendingChats n + holds ToolSpanState.span tools n) - r.ends n = _
  unfold debt held
  ring

/-! ### Sessions -/

theorem debt_setSession (sessionID : String) (state : SessionState) (n : ℕ) :
  (r.setSession sessionID state).debt n =
    r.debt n - tick state.span n + tick ((r.sessions.get sessionID).bind SessionState.span) n
  := by
  rw [setSession, debt_with, holds_set]
  ring

/-- A state with the same span takes the place of another one. -/
theorem debt_replaceSession {sessionID : String} {state state' : SessionState}
    (h : r.sessions.get sessionID = some state) (hspan : state'.span = state.span) (n : ℕ) :
  (r.setSession sessionID state').debt n = r.debt n
  := by
  rw [debt_setSession, h, Option.bind_some, hspan]
  ring

theorem debt_session (sessionID : String) (n : ℕ) :
  (r.session sessionID).1.debt n = r.debt n
  := by
  unfold session
  split
  · rfl
  · next h =>
      change (r.setSession sessionID r.unseenSession).debt n = r.debt n
      rw [debt_setSession, h]
      simp [unseenSession]

/-- What making the state of a session leaves alone. -/
theorem session_rest (sessionID : String) :
  (r.session sessionID).1.sessions.get sessionID = some (r.session sessionID).2 ∧
    (r.session sessionID).1.chats = r.chats ∧
    (r.session sessionID).1.pendingChats = r.pendingChats ∧
    (r.session sessionID).1.tools = r.tools
  := by
  unfold session
  split
  · next h => exact ⟨h, rfl, rfl, rfl⟩
  · exact ⟨JsMap.get_set_self _ _ _, rfl, rfl, rfl⟩

theorem debt_sessionOf (sessionID : Option String) (n : ℕ) :
  (r.sessionOf sessionID).1.debt n = r.debt n
  := by
  unfold sessionOf
  split
  · rfl
  · apply debt_session

theorem debt_onSessionCreated (info : SessionInfo) (n : ℕ) :
  (r.onSessionCreated deps info).debt n =
    r.debt n + tick ((r.sessions.get info.id).bind SessionState.span) n
  := by
  simp only [onSessionCreated]
  rw [(still_emit _ _ _ _ _ _).debt, (still_measure _ _ _ _ _ _).debt, debt_setSession,
    debt_startSpan, (startSpan_maps _ _ _).sessions]
  ring

theorem debt_settleActiveTime {sessionID : String} {state : SessionState}
    (h : r.sessions.get sessionID = some state) (n : ℕ) :
  (r.settleActiveTime deps sessionID state).debt n = r.debt n
  := by
  unfold settleActiveTime
  split
  · rfl
  · rw [(still_measure _ _ _ _ _ _).debt]
    apply r.debt_replaceSession h
    rfl

/-- The span of a session stays when its active time is reported. -/
theorem settleActiveTime_span {sessionID : String} {state : SessionState}
    (h : r.sessions.get sessionID = some state) :
  ((r.settleActiveTime deps sessionID state).sessions.get sessionID).bind SessionState.span =
    state.span
  := by
  unfold settleActiveTime
  split
  · rw [h]
    rfl
  · rw [(still_measure _ _ _ _ _ _).sessions, setSession, JsMap.get_set_self]
    rfl

theorem debt_onSessionStatus (sessionID : String) (status : SessionStatus) (n : ℕ) :
  (r.onSessionStatus deps sessionID status).debt n = r.debt n
  := by
  have hstate := (r.session_rest sessionID).1
  rw [← r.debt_session sessionID n]
  cases status with
  | busy =>
      apply debt_replaceSession _ hstate
      rfl
  | retry attempt => apply (still_emit _ _ _ _ _ _).debt
  | idle => apply debt_settleActiveTime _ _ hstate

/-- The span of a session that is closed ends. -/
theorem debt_closeSession {sessionID : String} {state : SessionState}
    (h : (r.sessions.get sessionID).bind SessionState.span = state.span) (n : ℕ) :
  (r.closeSession sessionID state).debt n = r.debt n
  := by
  rw [closeSession, (r.endSpan state.span none).debt_with, holds_delete, (endSpan_maps _ _ _).sessions, h, debt_endSpan]
  ring

theorem still_pruneCompleted (sessionID : String) :
  Still r (r.pruneCompleted sessionID)
  := ⟨⟨rfl, rfl, rfl, rfl⟩, rfl, rfl⟩

theorem debt_onSessionIdle (sessionID : String) (n : ℕ) :
  (r.onSessionIdle deps sessionID).debt n = r.debt n
  := by
  cases h : r.sessions.get sessionID with
  | none => simp only [onSessionIdle, h]
  | some state =>
      simp only [onSessionIdle, h]
      rw [(still_pruneCompleted _ _).debt, debt_closeSession]
      · rw [(still_updateSpan _ _ _).debt, (still_emit _ _ _ _ _ _).debt,
          r.debt_settleActiveTime deps h]
      · rw [(still_updateSpan _ _ _).sessions, (still_emit _ _ _ _ _ _).sessions,
          r.settleActiveTime_span deps h]

theorem debt_onCompacted (sessionID : String) (n : ℕ) :
  (r.onCompacted deps sessionID).debt n = r.debt n
  := by
  simp only [onCompacted]
  rw [(still_emit _ _ _ _ _ _).debt, debt_endSpan, debt_startSpan,
    (still_measure _ _ _ _ _ _).debt, debt_session]
  ring

theorem debt_onSessionError (sessionID : Option String) (error : Option MessageError) (n : ℕ) :
  (r.onSessionError deps sessionID error).debt n = r.debt n
  := by
  simp only [onSessionError]
  rw [(still_emit _ _ _ _ _ _).debt, debt_sessionOf]

theorem debt_foldl {α : Type} {act : Recorder → α → Recorder} {n : ℕ}
    (h : ∀ r a, (act r a).debt n = r.debt n) (l : List α) :
  (l.foldl act r).debt n = r.debt n
  := by
  induction l generalizing r with
  | nil => rfl
  | cons a l ih => rw [List.foldl_cons, ih, h]

theorem still_onFileDiff (sessionID : String) (context : Context) (entry : FileDiff) :
  Still r (r.onFileDiff deps sessionID context entry)
  := by
  have hdiffs : ∀ diffs, Still r { r with diffs } :=
    fun _ => ⟨⟨rfl, rfl, rfl, rfl⟩, rfl, rfl⟩
  have hmeasure : ∀ (p : Prop) [Decidable p] (r : Recorder) (value : ℚ) (attributes : Attributes),
      Still r (if p then r.measure deps (.file sessionID entry.file) .linesOfCode value attributes
        else r) := by
    intro p _ r value attributes
    split
    · apply still_measure
    · apply Still.refl
  simp only [onFileDiff]
  split
  · apply hdiffs
  · apply Still.trans _ (still_emit _ _ _ _ _ _)
    apply Still.trans _ (hmeasure _ _ _ _)
    apply Still.trans _ (hmeasure _ _ _ _)
    apply hdiffs

theorem debt_onSessionDiff (sessionID : String) (diff : List FileDiff) (n : ℕ) :
  (r.onSessionDiff deps sessionID diff).debt n = r.debt n
  := by
  rw [← r.debt_session sessionID n]
  apply debt_foldl
  exact fun r entry => (r.still_onFileDiff deps sessionID _ entry).debt n

/-! ### Chats -/

theorem still_renameChat (chat : ChatState) (message : Message) :
  Still r ((r.updateSpan chat.span (SpanData.updateName (chatName message.modelID))).updateSpan
    chat.span (SpanData.setAttributes (baseAttributes message)))
  := (r.still_updateSpan _ _).trans (still_updateSpan _ _ _)

/-- The chat of a message is held under its id. -/
theorem debt_chatOf (message : Message) (context : Context) (n : ℕ) :
  (r.chatOf deps message context).1.debt n = r.debt n
  := by
  unfold chatOf
  split
  · rfl
  · next hchat =>
      split
      · next pending hpending =>
          have hdropped : ({ r with pendingChats := r.pendingChats.delete message.sessionID } :
              Recorder).debt n = r.debt n + tick pending.span n := by
            rw [r.debt_with, holds_delete, hpending, Option.bind_some]
            ring
          have hstill := still_renameChat
            { r with pendingChats := r.pendingChats.delete message.sessionID } pending message
          simp only
          rw [debt_with, holds_set, hstill.debt, hstill.chats, hdropped, hchat]
          simp
      · simp only
        rw [debt_with, holds_set, debt_startSpan, (startSpan_maps _ _ _).chats, hchat]
        simp

theorem chatOf_rest (message : Message) (context : Context) :
  (r.chatOf deps message context).1.chats.get message.id =
      some (r.chatOf deps message context).2 ∧
    (r.chatOf deps message context).1.sessions = r.sessions
  := by
  unfold chatOf
  split
  · next h => exact ⟨h, rfl⟩
  · split
    · use JsMap.get_set_self _ _ _
      exact (still_renameChat _ _ _).sessions
    · use JsMap.get_set_self _ _ _
      exact (startSpan_maps _ _ _).sessions

theorem still_measureMessage (message : Message) :
  Still r (r.measureMessage deps message)
  := by
  unfold measureMessage
  generalize r.messageMeasurements deps message = ms
  induction ms generalizing r with
  | nil => apply Still.refl
  | cons m ms ih => apply (r.still_measure deps _ _ _ _).trans (ih _)

theorem debt_endChat (message : Message) (chat : ChatState) (usage : Attributes) (n : ℕ) :
  (r.endChat message chat usage).debt n = r.debt n - tick chat.span n
  := by
  simp only [endChat]
  split
  · rw [debt_endSpan, (still_updateSpan _ _ _).debt]
  · rw [debt_endSpan, (still_updateSpan _ _ _).debt, (still_updateSpan _ _ _).debt]

theorem debt_reportError (message : Message) (n : ℕ) :
  (r.reportError deps message).debt n = r.debt n
  := by
  unfold reportError
  split
  · rfl
  · apply debt_onSessionError

/-- The chat of a message that is finalized ends. -/
theorem debt_finalizeMessage {message : Message} {chat : ChatState} {session : SessionState}
    (hchat : r.chats.get message.id = some chat)
    (hsession : r.sessions.get message.sessionID = some session) (n : ℕ) :
  (r.finalizeMessage deps message chat session).debt n = r.debt n
  := by
  have hmark : (r.markMessage message).debt n = r.debt n + tick chat.span n := by
    change ({ r with chats := r.chats.delete message.id } : Recorder).debt n = _
    rw [r.debt_with, holds_delete, hchat, Option.bind_some]
    ring
  have hstill := still_measureMessage deps (r.markMessage message) message
  have hmeasured : ((r.markMessage message).measureMessage deps message).sessions.get
      message.sessionID = some session := by
    rw [hstill.sessions]
    apply hsession
  have hspan : (addMessage session message).span = session.span := rfl
  simp only [finalizeMessage]
  rw [debt_reportError, (still_emit _ _ _ _ _ _).debt, debt_endChat,
    debt_replaceSession _ hmeasured hspan, hstill.debt, hmark]
  ring

theorem debt_onMessageUpdated (message : Message) (n : ℕ) :
  (r.onMessageUpdated deps message).debt n = r.debt n
  := by
  unfold onMessageUpdated
  split
  · rfl
  · have hsession := (r.session_rest message.sessionID).1
    obtain ⟨hchat, hsessions⟩ := chatOf_rest deps (r.session message.sessionID).1 message
      (r.session message.sessionID).2.context
    have hdebt : ((r.session message.sessionID).1.chatOf deps message
        (r.session message.sessionID).2.context).1.debt n = r.debt n := by
      rw [debt_chatOf, debt_session]
    simp only
    split
    · apply hdebt
    · rw [debt_finalizeMessage _ _ hchat, hdebt]
      rw [hsessions, hsession]

theorem debt_onChatParams (sessionID : String) (model agent : Option String)
    (output : SamplingParams) (n : ℕ) :
  (r.onChatParams deps sessionID model agent output).debt n = r.debt n
  := by
  simp only [onChatParams]
  rw [debt_with, holds_set, debt_startSpan, debt_endSpan, (startSpan_maps _ _ _).pendingChats,
    (endSpan_maps _ _ _).pendingChats, debt_session]
  ring

/-! ### Tools -/

theorem debt_endTool (span : Option ℕ) (attributes : Attributes) (failed : Bool) (n : ℕ) :
  (r.endTool span attributes failed).debt n = r.debt n - tick span n
  := by
  simp only [endTool]
  split
  · rw [debt_endSpan, (still_updateSpan _ _ _).debt, (still_updateSpan _ _ _).debt]
  · rw [debt_endSpan, (still_updateSpan _ _ _).debt]

theorem debt_finishTool (callID : String) (outcome : ToolOutcome) (n : ℕ) :
  (r.finishTool deps callID outcome).debt n = r.debt n
  := by
  unfold finishTool
  split
  · rfl
  · have hmark : ∀ sessionID, (r.markCall callID sessionID).debt n =
        r.debt n + tick ((r.tools.get callID).bind ToolSpanState.span) n := by
      intro sessionID
      change ({ r with tools := r.tools.delete callID } : Recorder).debt n = _
      rw [r.debt_with, holds_delete]
      ring
    simp only
    rw [(still_emit _ _ _ _ _ _).debt, debt_sessionOf, debt_endTool,
      (still_measure _ _ _ _ _ _).debt, hmark]
    ring

theorem debt_onPartUpdated (part : Part) (n : ℕ) :
  (r.onPartUpdated deps part).debt n = r.debt n
  := by
  unfold onPartUpdated
  split
  · rfl
  · apply debt_finishTool

/-- The span of a call that starts again is lost. -/
theorem debt_onToolBefore (input : ToolInput) (n : ℕ) :
  (r.onToolBefore deps input).debt n =
    r.debt n + tick ((r.tools.get input.callID).bind ToolSpanState.span) n
  := by
  have htools := (r.session_rest input.sessionID).2.2.2
  simp only [onToolBefore]
  split
  · rw [debt_with, holds_set, debt_session, htools]
    simp
  · rw [debt_with, holds_set, debt_startSpan, (startSpan_maps _ _ _).tools, debt_session, htools]
    ring

/-! ### Permissions -/

theorem debt_recordDecision (sessionID permissionID decision source : String)
    (tool : Option String) (n : ℕ) :
  (r.recordDecision deps sessionID permissionID decision source tool).debt n = r.debt n
  := by
  simp only [recordDecision]
  rw [(still_emit _ _ _ _ _ _).debt, (still_measure _ _ _ _ _ _).debt, debt_session]

theorem debt_onPermissionReplied (sessionID permissionID response : String) (n : ℕ) :
  (r.onPermissionReplied deps sessionID permissionID response).debt n = r.debt n
  := by
  unfold onPermissionReplied
  split
  · rfl
  · apply debt_recordDecision

theorem debt_onPermissionAsk (id type sessionID : String) (status : Option String) (n : ℕ) :
  (r.onPermissionAsk deps id type sessionID status).debt n = r.debt n
  := by
  unfold onPermissionAsk
  split
  · rfl
  · split
    · rfl
    · apply debt_recordDecision

theorem debt_onCommandExecuted (sessionID name : String) (arguments : Option String) (n : ℕ) :
  (r.onCommandExecuted deps sessionID name arguments).debt n = r.debt n
  := by
  simp only [onCommandExecuted]
  rw [(still_emit _ _ _ _ _ _).debt, (still_measure _ _ _ _ _ _).debt, debt_session]

/-! ### Forgetting -/

theorem debt_dropSession (sessionID : String) (n : ℕ) :
  (r.dropSession deps sessionID).debt n = r.debt n
  := by
  unfold dropSession
  split
  · rfl
  · next state h =>
      rw [debt_closeSession _ (r.settleActiveTime_span deps h), r.debt_settleActiveTime deps h]

theorem debt_dropPending (sessionID : String) (n : ℕ) :
  (r.dropPending sessionID).debt n = r.debt n
  := by
  rw [dropPending, (r.endSpan _ none).debt_with, holds_delete, debt_endSpan,
    (endSpan_maps _ _ _).pendingChats]
  ring

/-- A loop over the records of a map that changes at most the record at hand, and keeps the
debt whenever the record is still there. -/
theorem debt_foldl_entries {V : Type} {act : Recorder → String × V → Recorder}
    (m : Recorder → JsMap String V) {n : ℕ}
    (hdebt : ∀ r e, (m r).get e.1 = some e.2 → (act r e).debt n = r.debt n)
    (hrest : ∀ r e k, k ≠ e.1 → (m (act r e)).get k = (m r).get k) (r : Recorder) :
  ((m r).entries.foldl act r).debt n = r.debt n
  := by
  have hfold : ∀ (l : List (String × V)) (r : Recorder), (l.map Prod.fst).Nodup →
      (∀ e ∈ l, (m r).get e.1 = some e.2) → (l.foldl act r).debt n = r.debt n := by
    intro l
    induction l with
    | nil => exact fun _ _ _ => rfl
    | cons e l ih =>
        intro r hnodup hget
        rw [List.map_cons, List.nodup_cons] at hnodup
        rw [List.forall_mem_cons] at hget
        rw [List.foldl_cons, ih _ hnodup.2, hdebt r e hget.1]
        intro e' he'
        rw [hrest, hget.2 e' he']
        intro heq
        apply hnodup.1
        rw [← heq]
        apply List.mem_map_of_mem he'
  apply hfold _ _ (m r).nodup
  exact fun e he => JsMap.get_eq_some.mpr he

theorem debt_forgetChats (sessionID : String) (n : ℕ) :
  (r.forgetChats sessionID).debt n = r.debt n
  := by
  apply debt_foldl_entries Recorder.chats
  · intro r e he
    split
    · rw [(r.endSpan e.2.span none).debt_with, holds_delete, debt_endSpan,
        (endSpan_maps _ _ _).chats, he, Option.bind_some]
      ring
    · rfl
  · intro r e k hne
    split
    · apply JsMap.get_delete_of_ne _ hne
    · rfl

theorem debt_forgetTools (sessionID : String) (n : ℕ) :
  (r.forgetTools sessionID).debt n = r.debt n
  := by
  apply debt_foldl_entries Recorder.tools
  · intro r e he
    split
    · rw [(r.endSpan e.2.span none).debt_with, holds_delete, debt_endSpan,
        (endSpan_maps _ _ _).tools, he, Option.bind_some]
      ring
    · rfl
  · intro r e k hne
    split
    · apply JsMap.get_delete_of_ne _ hne
    · rfl

theorem still_dropRecords (sessionID : String) :
  Still r (r.dropRecords sessionID)
  := ⟨⟨rfl, rfl, rfl, rfl⟩, rfl, rfl⟩

theorem debt_forgetSession (sessionID : String) (n : ℕ) :
  (r.forgetSession deps sessionID).debt n = r.debt n
  := by
  simp only [forgetSession]
  rw [(still_pruneCompleted _ _).debt, (still_dropRecords _ _).debt, debt_forgetTools,
    debt_forgetChats, debt_dropPending, debt_dropSession]

/-! ### Shutting down -/

/-- Ending the spans of a list settles the debt of each. -/
theorem debt_endAll {V : Type} (span : V → Option ℕ) (l : List V) (n : ℕ) :
  (l.foldl (fun r v => r.endSpan (span v) none) r).debt n =
      r.debt n - l.countP (fun v => span v = some n) ∧
    SameMaps r (l.foldl (fun r v => r.endSpan (span v) none) r)
  := by
  induction l generalizing r with
  | nil => exact ⟨by simp, rfl, rfl, rfl, rfl⟩
  | cons v l ih =>
      obtain ⟨hdebt, hmaps⟩ := ih (r.endSpan (span v) none)
      use by
        rw [List.foldl_cons, hdebt, debt_endSpan, List.countP_cons]
        unfold tick
        simp only [decide_eq_true_eq]
        split <;> push_cast <;> ring
      apply (endSpan_maps _ _ _).trans hmaps

theorem holds_replace {V : Type} {span : V → Option ℕ} {m : JsMap String V} {k : String} {v v' : V}
    (h : m.get k = some v) (hspan : span v' = span v) (n : ℕ) :
  holds span (m.set k v') n = holds span m n
  := by
  rw [holds_set, h, Option.bind_some, hspan]
  ring

/-- What reporting the active time of a session does to the sessions. -/
theorem settleActiveTime_sessions {sessionID : String} {state : SessionState}
    (h : r.sessions.get sessionID = some state) (n : ℕ) :
  holds SessionState.span (r.settleActiveTime deps sessionID state).sessions n =
      holds SessionState.span r.sessions n ∧
    ∀ k, k ≠ sessionID →
      (r.settleActiveTime deps sessionID state).sessions.get k = r.sessions.get k
  := by
  unfold settleActiveTime
  split
  · exact ⟨rfl, fun _ _ => rfl⟩
  · rw [(still_measure _ _ _ _ _ _).sessions]
    constructor
    · apply holds_replace h
      rfl
    · exact fun k hne => JsMap.get_set_of_ne _ hne _

/-- The loop that ends the spans of the sessions. -/
theorem debt_endSessions (n : ℕ) :
  (r.endSessions deps).debt n = r.debt n
  := by
  have hfold : ∀ (l : List (String × SessionState)) (r : Recorder), (l.map Prod.fst).Nodup →
      (∀ e ∈ l, r.sessions.get e.1 = some e.2) →
        (l.foldl (fun r e => (r.settleActiveTime deps e.1 e.2).endSpan e.2.span none) r).debt n =
            r.debt n - l.countP (fun e => e.2.span = some n) ∧
          holds SessionState.span (l.foldl (fun r e =>
            (r.settleActiveTime deps e.1 e.2).endSpan e.2.span none) r).sessions n =
              holds SessionState.span r.sessions n := by
    intro l
    induction l with
    | nil => exact fun _ _ _ => ⟨by simp, rfl⟩
    | cons e l ih =>
        intro r hnodup hget
        rw [List.map_cons, List.nodup_cons] at hnodup
        rw [List.forall_mem_cons] at hget
        obtain ⟨hholds, hrest⟩ := r.settleActiveTime_sessions deps hget.1 n
        have hmaps := endSpan_maps (r.settleActiveTime deps e.1 e.2) e.2.span none
        obtain ⟨hdebt, hlast⟩ := ih _ hnodup.2 (by
          intro e' he'
          rw [hmaps.sessions, hrest, hget.2 e' he']
          intro heq
          apply hnodup.1
          rw [← heq]
          apply List.mem_map_of_mem he')
        rw [List.foldl_cons, hdebt, hlast, hmaps.sessions, hholds, debt_endSpan,
          r.debt_settleActiveTime deps hget.1, List.countP_cons]
        refine ⟨?_, rfl⟩
        unfold tick
        simp only [decide_eq_true_eq]
        split <;> push_cast <;> ring
  obtain ⟨hdebt, hholds⟩ := hfold r.sessions.entries r r.sessions.nodup
    fun e he => JsMap.get_eq_some.mpr he
  have hcount : holds SessionState.span r.sessions n =
      r.sessions.entries.countP fun e => e.2.span = some n := by
    rw [holds, JsMap.countValues, JsMap.values, List.countP_map]
    rfl
  simp only [endSessions]
  rw [debt_with, holds_clear, hdebt, hholds, hcount]
  ring

theorem debt_endChats (n : ℕ) :
  r.endChats.debt n = r.debt n
  := by
  obtain ⟨hdebt, hmaps⟩ := debt_endAll r ChatState.span
    (r.chats.values ++ r.pendingChats.values) n
  have hcount : ((r.chats.values ++ r.pendingChats.values).countP
      fun chat => chat.span = some n : ℤ) =
        holds ChatState.span r.chats n + holds ChatState.span r.pendingChats n := by
    rw [List.countP_append]
    push_cast
    rfl
  simp only [endChats]
  rw [debt_with, holds_clear, holds_clear, hdebt, hmaps.chats, hmaps.pendingChats, hcount]
  ring

theorem debt_endTools (n : ℕ) :
  r.endTools.debt n = r.debt n
  := by
  obtain ⟨hdebt, hmaps⟩ := debt_endAll r ToolSpanState.span r.tools.values n
  simp only [endTools]
  rw [debt_with, holds_clear, hdebt, hmaps.tools]
  unfold holds JsMap.countValues
  ring

theorem debt_shutdown (n : ℕ) :
  (r.shutdown deps).debt n = r.debt n
  := by
  rw [shutdown, debt_endTools, debt_endChats, debt_endSessions]

theorem endChats_maps :
  r.endChats.sessions = r.sessions ∧ r.endChats.tools = r.tools
  := by
  obtain ⟨-, hmaps⟩ := debt_endAll r ChatState.span (r.chats.values ++ r.pendingChats.values) 0
  exact ⟨hmaps.sessions, hmaps.tools⟩

theorem endTools_maps :
  r.endTools.sessions = r.sessions ∧ r.endTools.chats = r.chats ∧
    r.endTools.pendingChats = r.pendingChats
  := by
  obtain ⟨-, hmaps⟩ := debt_endAll r ToolSpanState.span r.tools.values 0
  exact ⟨hmaps.sessions, hmaps.chats, hmaps.pendingChats⟩

/-- After a shutdown no span is held. -/
theorem held_shutdown (n : ℕ) :
  (r.shutdown deps).held n = 0
  := by
  have hsessions : holds SessionState.span (r.endSessions deps).sessions n = 0 := holds_clear _ _ n
  have hchats : holds ChatState.span (r.endSessions deps).endChats.chats n = 0 :=
    holds_clear _ _ n
  have hpending : holds ChatState.span (r.endSessions deps).endChats.pendingChats n = 0 :=
    holds_clear _ _ n
  have htools : holds ToolSpanState.span (r.endSessions deps).endChats.endTools.tools n = 0 :=
    holds_clear _ _ n
  obtain ⟨hkept, -⟩ := (r.endSessions deps).endChats_maps
  obtain ⟨hkept₁, hkept₂, hkept₃⟩ := (r.endSessions deps).endChats.endTools_maps
  rw [held, shutdown, htools, hkept₁, hkept₂, hkept₃, hkept, hsessions, hchats, hpending]
  rfl

/-! ### Runs -/

/-- The span that an event takes the place of without ending it. -/
def lostSpan (r : Recorder) : HostEvent → Option ℕ
  | .sessionCreated info => (r.sessions.get info.id).bind SessionState.span
  | .toolBefore input => (r.tools.get input.callID).bind ToolSpanState.span
  | _ => none

theorem still_onBranchUpdated (branch : Option String) :
  Still r (r.onBranchUpdated branch)
  := by
  unfold onBranchUpdated
  split
  · apply Still.refl
  · exact ⟨⟨rfl, rfl, rfl, rfl⟩, rfl, rfl⟩

theorem still_onTextComplete (messageID : String) (text : Option String) :
  Still r (r.onTextComplete messageID text)
  := by
  unfold onTextComplete
  split
  · apply Still.refl
  · exact ⟨⟨rfl, rfl, rfl, rfl⟩, rfl, rfl⟩

/-- An event loses at most the span whose place it takes. -/
theorem debt_handle (e : HostEvent) (n : ℕ) :
  (r.handle deps e).debt n = r.debt n + tick (r.lostSpan e) n
  := by
  have hkept : ∀ r' : Recorder, r'.debt n = r.debt n → r'.debt n = r.debt n + tick none n := by
    intro r' h
    rw [h, tick_none, add_zero]
  have hreported : ∀ (sessionID name : String) (attributes : Attributes) (context : Option Context),
      ((r.session sessionID).1.emit deps name attributes .info context).debt n = r.debt n := by
    intro sessionID name attributes context
    rw [(still_emit _ _ _ _ _ _).debt, debt_session]
  cases e with
  | sessionCreated info => apply debt_onSessionCreated
  | sessionIdle sessionID => exact hkept _ (debt_onSessionIdle deps r sessionID n)
  | sessionStatus sessionID status => exact hkept _ (debt_onSessionStatus deps r _ status n)
  | sessionCompacted sessionID => exact hkept _ (debt_onCompacted deps r sessionID n)
  | sessionError sessionID error => exact hkept _ (debt_onSessionError deps r sessionID error n)
  | sessionDiff sessionID diff => exact hkept _ (debt_onSessionDiff deps r sessionID diff n)
  | messageUpdated info => exact hkept _ (debt_onMessageUpdated deps r info n)
  | messagePartUpdated part => exact hkept _ (debt_onPartUpdated deps r part n)
  | permissionUpdated id type sessionID => exact hkept _ rfl
  | permissionReplied sessionID permissionID response =>
      exact hkept _ (debt_onPermissionReplied deps r sessionID permissionID response n)
  | commandExecuted sessionID name arguments =>
      exact hkept _ (debt_onCommandExecuted deps r sessionID name arguments n)
  | installationUpdated version => exact hkept _ rfl
  | vcsBranchUpdated branch => exact hkept _ ((still_onBranchUpdated r branch).debt n)
  | todoUpdated sessionID statuses => exact hkept _ (hreported sessionID _ _ _)
  | sessionDeleted id => exact hkept _ (debt_forgetSession deps r id n)
  | serverInstanceDisposed => exact hkept _ (debt_shutdown deps r n)
  | other => exact hkept _ rfl
  | chatMessage sessionID agent modelID providerID parts =>
      exact hkept _ (hreported sessionID _ _ _)
  | chatParams sessionID model agent output =>
      exact hkept _ (debt_onChatParams deps r sessionID model agent output n)
  | textComplete _ messageID text => exact hkept _ ((still_onTextComplete r messageID text).debt n)
  | permissionAsk id type sessionID status =>
      exact hkept _ (debt_onPermissionAsk deps r id type sessionID status n)
  | compactionAutocontinue sessionID overflow agent enabled =>
      exact hkept _ (hreported sessionID _ _ _)
  | toolBefore input => apply debt_onToolBefore
  | toolAfter input output => exact hkept _ (debt_finishTool deps r input.callID _ n)
  | shutdown => exact hkept _ (debt_shutdown deps r n)

/-- How often the events of a run lose a span. -/
def losses : Recorder → List (ℚ × HostEvent) → ℕ → ℤ
  | _, [], _ => 0
  | r, e :: es, n => tick (r.lostSpan e.2) n + losses (r.deliver deps e) es n

theorem debt_run (es : List (ℚ × HostEvent)) (n : ℕ) :
  (es.foldl (deliver deps) r).debt n = r.debt n + losses deps r es n
  := by
  induction es generalizing r with
  | nil => simp [losses]
  | cons e es ih =>
      have hstep : (r.deliver deps e).debt n = r.debt n + tick (r.lostSpan e.2) n :=
        debt_handle deps { r with now := e.1 } e.2 n
      rw [List.foldl_cons, ih, hstep, losses]
      ring

theorem tick_nonneg (span : Option ℕ) (n : ℕ) :
  0 ≤ tick span n
  := by
  unfold tick
  split <;> decide

theorem losses_nonneg (es : List (ℚ × HostEvent)) (n : ℕ) :
  0 ≤ losses deps r es n
  := by
  induction es generalizing r with
  | nil => apply le_refl
  | cons e es ih => exact add_nonneg (tick_nonneg _ n) (ih _)

theorem losses_eq_zero_iff (es : List (ℚ × HostEvent)) :
  (∀ n, losses deps r es n = 0) ↔
    ∀ pre e post, es = pre ++ e :: post → (pre.foldl (deliver deps) r).lostSpan e.2 = none
  := by
  induction es generalizing r with
  | nil => simp [losses]
  | cons e es ih =>
      have hsplit : (∀ n, losses deps r (e :: es) n = 0) ↔
          r.lostSpan e.2 = none ∧ ∀ n, losses deps (r.deliver deps e) es n = 0 := by
        constructor
        · intro h
          have hboth : ∀ n, tick (r.lostSpan e.2) n = 0 ∧
              losses deps (r.deliver deps e) es n = 0 := by
            intro n
            have hsum : tick (r.lostSpan e.2) n + losses deps (r.deliver deps e) es n = 0 := h n
            have htick := tick_nonneg (r.lostSpan e.2) n
            have hrest := losses_nonneg deps (r.deliver deps e) es n
            omega
          refine ⟨?_, fun n => (hboth n).2⟩
          rw [Option.eq_none_iff_forall_ne_some]
          intro n hn
          have hzero := (hboth n).1
          simp [tick, hn] at hzero
        · rintro ⟨hnone, hrest⟩ n
          rw [losses, hnone, hrest]
          rfl
      rw [hsplit, ih]
      constructor
      · rintro ⟨hfirst, hrest⟩ pre e' post heq
        cases pre with
        | nil =>
            obtain ⟨rfl, -⟩ := List.cons.inj heq
            apply hfirst
        | cons e'' pre =>
            obtain ⟨rfl, htail⟩ := List.cons.inj heq
            apply hrest pre e' post htail
      · intro h
        use h [] e es rfl
        rintro pre e' post rfl
        apply h (e :: pre) e' post rfl

/-! ### Every span ends once -/

/-- How often `end` has been called on a span. -/
def endCount (n : ℕ) : ℕ := r.ended.countP fun e => e.1 = n

/-- The last event shuts the recorder down. -/
def EndsWithShutdown (es : List (ℚ × HostEvent)) : Prop :=
  ∃ pre time, es = pre ++ [(time, .shutdown)] ∨ es = pre ++ [(time, .serverInstanceDisposed)]

/-- Every span has ended at most once, and exactly once if the recorder has been shut down. -/
structure SpansEnd (es : List (ℚ × HostEvent)) : Prop where
  atMostOnce : ∀ n, (run deps es).endCount n ≤ 1
  exactlyOnce : EndsWithShutdown es → ∀ n, n < (run deps es).spanSeq → (run deps es).endCount n = 1

/-- No session is created whose state holds a span already, and no call starts whose state
does. -/
def NoneLost (es : List (ℚ × HostEvent)) : Prop :=
  ∀ pre e post, es = pre ++ e :: post → (run deps pre).lostSpan e.2 = none

/-- Where the spans are that have been started. -/
theorem endCount_run (es : List (ℚ × HostEvent)) (n : ℕ) :
  ((run deps es).endCount n : ℤ) =
    (run deps es).started n - (run deps es).held n - losses deps initial es n
  := by
  have hdebt := debt_run deps initial es n
  have hinitial : initial.debt n = 0 := rfl
  rw [hinitial, zero_add] at hdebt
  rw [← hdebt, run]
  change (Recorder.ends _ n) = _
  unfold debt
  ring

theorem held_nonneg (n : ℕ) :
  0 ≤ r.held n
  := by
  unfold held holds
  omega

theorem held_of_endsWithShutdown {es : List (ℚ × HostEvent)} (h : EndsWithShutdown es) (n : ℕ) :
  (run deps es).held n = 0
  := by
  obtain ⟨pre, time, rfl | rfl⟩ := h
  · rw [run, List.foldl_append]
    apply held_shutdown
  · rw [run, List.foldl_append]
    apply held_shutdown

/-- Spans end once exactly when none has lost its place by the time the recorder is shut
down. -/
theorem spansEnd_iff_noneLost (es : List (ℚ × HostEvent)) :
  SpansEnd deps es ↔ (EndsWithShutdown es → NoneLost deps es)
  := by
  have hcount := endCount_run deps es
  have hlosses := losses_nonneg deps initial es
  constructor
  · rintro ⟨-, hexact⟩ hshutdown
    apply (losses_eq_zero_iff deps initial es).mp
    intro n
    have hheld := held_of_endsWithShutdown deps hshutdown n
    have hn := hcount n
    have hl := hlosses n
    by_cases hstarted : n < (run deps es).spanSeq
    · rw [hexact hshutdown n hstarted, hheld, started, if_pos hstarted] at hn
      omega
    · rw [hheld, started, if_neg hstarted] at hn
      omega
  · intro hnone
    constructor
    · intro n
      have hn := hcount n
      have hl := hlosses n
      have hheld := held_nonneg (run deps es) n
      unfold started at hn
      split at hn <;> omega
    · intro hshutdown n hstarted
      have hzero := (losses_eq_zero_iff deps initial es).mpr (hnone hshutdown) n
      have hn := hcount n
      rw [held_of_endsWithShutdown deps hshutdown, started, if_pos hstarted, hzero] at hn
      omega

/-- The span of a session that is created twice does not end. -/
theorem session_created_twice :
  ¬ ∀ (deps : RecorderDeps) (es : List (ℚ × HostEvent)), SpansEnd deps es
  := by
  intro hall
  have hshutdown : EndsWithShutdown [(900, .sessionCreated ⟨"s1", none, none⟩),
      (1000, .sessionCreated ⟨"s1", none, none⟩), (1100, .shutdown)] := by
    use [(900, .sessionCreated ⟨"s1", none, none⟩), (1000, .sessionCreated ⟨"s1", none, none⟩)], 1100
    exact .inl rfl
  have hend := (hall
    { tracer := true
      meter := true
      otelLogger := true
      includeSessionId := false
      filteredTools := [] } _).exactlyOnce hshutdown 0 (by decide)
  exact absurd hend (by decide)

end Telemetry.Recorder
