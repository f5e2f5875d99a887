import OpencodeToolbelt.Data.Memo
import OpencodeToolbelt.Telemetry.Recorder

/-!
# Counting messages and calls once

The recorder marks the messages and calls that it has counted, and drops the marks of a
session when the session becomes idle or is deleted. One that is reported again after that
counts again.
-/

namespace Telemetry

/-! ### What counts -/

/-- The sources that are to be counted once. -/
def Source.Unique : Source → Prop
  | .message _ => True
  | .call _ => True
  | _ => False

/-- The instrument, and for tokens also their type. -/
def Measurement.label (m : Measurement) : Instrument × Option AttrValue :=
  (m.instrument,
    if m.instrument = .tokens then m.attributes.reverse.lookup "gen_ai.token.type" else none)

namespace Recorder

/-- What has been measured of a source. -/
def about (source : Source) (r : Recorder) : List (Instrument × Option AttrValue) :=
  (r.measurements.filter fun m => m.source = source).map Measurement.label

/-- Every message has been counted at most once, and so has every call. -/
structure CountsOnce (r : Recorder) : Prop where
  messages : ∀ id, (r.about (.message id)).Nodup
  calls : ∀ id, (r.about (.call id)).Nodup

/-- What an event is to the counting of messages. -/
def messageMemo (r : Recorder) : HostEvent → Memo String String
  | .messageUpdated info =>
      if info.role = "assistant" ∧ (info.time.bind MessageTime.completed).isSome = true then
        .report info.id info.sessionID
      else .other
  | .sessionIdle sessionID => if r.sessions.has sessionID then .forget sessionID else .other
  | .sessionDeleted id => .forget id
  | _ => .other

/-- What an event is to the counting of calls. -/
def callMemo (r : Recorder) : HostEvent → Memo String String
  | .messagePartUpdated part =>
      (partOutcome part).elim .other fun c => .report c.1 (r.callSession c.1 c.2)
  | .toolAfter input output =>
      .report input.callID (r.callSession input.callID (afterOutcome input output))
  | .sessionIdle sessionID => if r.sessions.has sessionID then .forget sessionID else .other
  | .sessionDeleted id => .forget id
  | _ => .other

end Recorder

/-! ### Changes that count nothing -/

/-- A change of the recorder that counts no message and no call. -/
structure Quiet (r r' : Recorder) : Prop where
  finalizedMessages : r'.finalizedMessages = r.finalizedMessages
  finishedTools : r'.finishedTools = r.finishedTools
  about : ∀ source : Source, source.Unique → r'.about source = r.about source

namespace Quiet

theorem refl (r : Recorder) :
  Quiet r r
  := ⟨rfl, rfl, fun _ _ => rfl⟩

theorem trans {r r' r'' : Recorder} (h : Quiet r r') (h' : Quiet r' r'') :
  Quiet r r''
  := by
  constructor
  · rw [h'.finalizedMessages, h.finalizedMessages]
  · rw [h'.finishedTools, h.finishedTools]
  · intro source hsource
    rw [h'.about source hsource, h.about source hsource]

theorem foldl {α : Type} {act : Recorder → α → Recorder} (h : ∀ r a, Quiet r (act r a))
    (l : List α) (r : Recorder) :
  Quiet r (l.foldl act r)
  := by
  induction l generalizing r with
  | nil => apply refl
  | cons a l ih => apply (h r a).trans (ih _)

end Quiet

namespace Recorder

variable (deps : RecorderDeps) (r : Recorder)

theorem quiet_emit (name : String) (attributes : Attributes) (severity : Severity)
    (context : Option Context) :
  Quiet r (r.emit deps name attributes severity context)
  := by
  unfold emit
  split
  · exact ⟨rfl, rfl, fun _ _ => rfl⟩
  · apply Quiet.refl

theorem about_measure (source source' : Source) (instrument : Instrument) (value : ℚ)
    (attributes : Attributes) :
  (r.measure deps source instrument value attributes).about source' =
    (if deps.meter = true ∧ source = source' then
      [Measurement.label ⟨instrument, value, attributes, source⟩] else []) ++ r.about source'
  := by
  unfold measure about
  by_cases hmeter : deps.meter = true
  · by_cases hsource : source = source'
    · simp [hmeter, hsource]
    · simp [hmeter, hsource]
  · simp [hmeter]

theorem measure_marks (source : Source) (instrument : Instrument) (value : ℚ)
    (attributes : Attributes) :
  (r.measure deps source instrument value attributes).finalizedMessages = r.finalizedMessages ∧
    (r.measure deps source instrument value attributes).finishedTools = r.finishedTools
  := by
  unfold measure
  split <;> exact ⟨rfl, rfl⟩

theorem quiet_measure (source : Source) (hsource : ¬ source.Unique) (instrument : Instrument)
    (value : ℚ) (attributes : Attributes) :
  Quiet r (r.measure deps source instrument value attributes)
  := by
  use (r.measure_marks deps _ _ _ _).1, (r.measure_marks deps _ _ _ _).2
  intro source' hsource'
  rw [about_measure, if_neg]
  · rfl
  · rintro ⟨-, rfl⟩
    exact hsource hsource'

theorem quiet_startSpan (span : SpanData) :
  Quiet r (r.startSpan deps span).1
  := by
  unfold startSpan
  split
  · exact ⟨rfl, rfl, fun _ _ => rfl⟩
  · apply Quiet.refl

theorem quiet_endSpan (span : Option ℕ) (time : Option ℚ) :
  Quiet r (r.endSpan span time)
  := by
  unfold endSpan
  split
  · apply Quiet.refl
  · exact ⟨rfl, rfl, fun _ _ => rfl⟩

theorem quiet_updateSpan (span : Option ℕ) (f : SpanData → SpanData) :
  Quiet r (r.updateSpan span f)
  := by
  unfold updateSpan
  split
  · apply Quiet.refl
  · exact ⟨rfl, rfl, fun _ _ => rfl⟩

theorem quiet_setSession (sessionID : String) (state : SessionState) :
  Quiet r (r.setSession sessionID state)
  := ⟨rfl, rfl, fun _ _ => rfl⟩

theorem quiet_session (sessionID : String) :
  Quiet r (r.session sessionID).1
  := by
  unfold session
  split
  · apply Quiet.refl
  · exact ⟨rfl, rfl, fun _ _ => rfl⟩

theorem quiet_sessionOf (sessionID : Option String) :
  Quiet r (r.sessionOf sessionID).1
  := by
  unfold sessionOf
  split
  · apply Quiet.refl
  · apply quiet_session

/-! ### The handlers -/

theorem quiet_onSessionCreated (info : SessionInfo) :
  Quiet r (r.onSessionCreated deps info)
  := by
  apply (r.quiet_startSpan deps _).trans
  apply (quiet_setSession _ _ _).trans
  apply (quiet_measure _ _ (.session info.id) id _ _ _).trans
  apply quiet_emit

theorem quiet_settleActiveTime (sessionID : String) (state : SessionState) :
  Quiet r (r.settleActiveTime deps sessionID state)
  := by
  unfold settleActiveTime
  split
  · apply Quiet.refl
  · apply (r.quiet_setSession _ _).trans
    apply quiet_measure _ _ _ id

theorem quiet_onSessionStatus (sessionID : String) (status : SessionStatus) :
  Quiet r (r.onSessionStatus deps sessionID status)
  := by
  apply (r.quiet_session sessionID).trans
  cases status with
  | busy => apply quiet_setSession
  | retry attempt => apply quiet_emit
  | idle => apply quiet_settleActiveTime

theorem quiet_onCompacted (sessionID : String) :
  Quiet r (r.onCompacted deps sessionID)
  := by
  apply (r.quiet_session sessionID).trans
  apply (quiet_measure _ _ (.session sessionID) id _ _ _).trans
  apply (quiet_startSpan _ _ _).trans
  apply (quiet_endSpan _ _ _).trans
  apply quiet_emit

theorem quiet_onSessionError (sessionID : Option String) (error : Option MessageError) :
  Quiet r (r.onSessionError deps sessionID error)
  := (r.quiet_sessionOf sessionID).trans (quiet_emit _ _ _ _ _ _)

theorem quiet_onFileDiff (sessionID : String) (context : Context) (entry : FileDiff) :
  Quiet r (r.onFileDiff deps sessionID context entry)
  := by
  have hdiffs : ∀ diffs, Quiet r { r with diffs } := fun _ => ⟨rfl, rfl, fun _ _ => rfl⟩
  have hmeasure : ∀ (p : Prop) [Decidable p] (r : Recorder) (value : ℚ) (attributes : Attributes),
      Quiet r (if p then r.measure deps (.file sessionID entry.file) .linesOfCode value attributes
        else r) := by
    intro p _ r value attributes
    split
    · apply quiet_measure _ _ _ id
    · apply Quiet.refl
  simp only [onFileDiff]
  split
  · apply hdiffs
  · apply Quiet.trans _ (quiet_emit _ _ _ _ _ _)
    apply Quiet.trans _ (hmeasure _ _ _ _)
    apply Quiet.trans _ (hmeasure _ _ _ _)
    apply hdiffs

theorem quiet_onSessionDiff (sessionID : String) (diff : List FileDiff) :
  Quiet r (r.onSessionDiff deps sessionID diff)
  := by
  apply (r.quiet_session sessionID).trans
  apply Quiet.foldl
  exact fun r entry => r.quiet_onFileDiff deps sessionID _ entry

theorem quiet_recordDecision (sessionID permissionID decision source : String)
    (tool : Option String) :
  Quiet r (r.recordDecision deps sessionID permissionID decision source tool)
  := by
  apply (r.quiet_session sessionID).trans
  apply (quiet_measure _ _ (.permission permissionID) id _ _ _).trans
  apply quiet_emit

theorem quiet_onPermissionReplied (sessionID permissionID response : String) :
  Quiet r (r.onPermissionReplied deps sessionID permissionID response)
  := by
  unfold onPermissionReplied
  split
  · exact ⟨rfl, rfl, fun _ _ => rfl⟩
  · apply Quiet.trans _ (quiet_recordDecision _ _ _ _ _ _ _)
    exact ⟨rfl, rfl, fun _ _ => rfl⟩

theorem quiet_onPermissionAsk (id type sessionID : String) (status : Option String) :
  Quiet r (r.onPermissionAsk deps id type sessionID status)
  := by
  unfold onPermissionAsk
  split
  · apply Quiet.refl
  · split
    · apply Quiet.refl
    · apply Quiet.trans _ (quiet_recordDecision _ _ _ _ _ _ _)
      exact ⟨rfl, rfl, fun _ _ => rfl⟩

theorem quiet_onCommandExecuted (sessionID name : String) (arguments : Option String) :
  Quiet r (r.onCommandExecuted deps sessionID name arguments)
  := by
  apply (r.quiet_session sessionID).trans
  apply (quiet_measure _ _ (.session sessionID) id _ _ _).trans
  apply quiet_emit

theorem quiet_onChatParams (sessionID : String) (model agent : Option String)
    (output : SamplingParams) :
  Quiet r (r.onChatParams deps sessionID model agent output)
  := by
  apply (r.quiet_session sessionID).trans
  apply (quiet_endSpan _ _ _).trans
  apply (quiet_startSpan deps _ _).trans
  exact ⟨rfl, rfl, fun _ _ => rfl⟩

theorem quiet_onTextComplete (messageID : String) (text : Option String) :
  Quiet r (r.onTextComplete messageID text)
  := by
  unfold onTextComplete
  split
  · apply Quiet.refl
  · exact ⟨rfl, rfl, fun _ _ => rfl⟩

theorem quiet_onToolBefore (input : ToolInput) :
  Quiet r (r.onToolBefore deps input)
  := by
  apply (r.quiet_session input.sessionID).trans
  simp only [onToolBefore]
  split
  · exact ⟨rfl, rfl, fun _ _ => rfl⟩
  · apply (quiet_startSpan deps _ _).trans
    exact ⟨rfl, rfl, fun _ _ => rfl⟩

theorem quiet_shutdown :
  Quiet r (r.shutdown deps)
  := by
  have hchange : ∀ r sessions chats pendingChats tools,
      Quiet r { r with sessions, chats, pendingChats, tools } :=
    fun _ _ _ _ _ => ⟨rfl, rfl, fun _ _ => rfl⟩
  have hends : ∀ {V : Type} (span : V → Option ℕ) (l : List V) (r : Recorder),
      Quiet r (l.foldl (fun r v => r.endSpan (span v) none) r) := by
    intro V span l r
    apply Quiet.foldl
    exact fun r v => r.quiet_endSpan _ _
  have hsessions : Quiet r (r.endSessions deps) := by
    apply Quiet.trans _ (hchange _ _ _ _ _)
    apply Quiet.foldl
    exact fun r e => (r.quiet_settleActiveTime deps e.1 e.2).trans (quiet_endSpan _ _ _)
  apply hsessions.trans
  apply ((hends ChatState.span _ _).trans (hchange _ _ _ _ _)).trans
  apply (hends ToolSpanState.span _ _).trans (hchange _ _ _ _ _)

/-! ### What is measured of a message -/

theorem about_measureAll (source source' : Source) (ms : List (Instrument × ℚ × Attributes)) :
  (ms.foldl (fun r m => r.measure deps source m.1 m.2.1 m.2.2) r).about source' =
    (if deps.meter = true ∧ source = source' then
      (ms.map fun m => Measurement.label ⟨m.1, m.2.1, m.2.2, source⟩).reverse else []) ++
        r.about source'
  := by
  induction ms generalizing r with
  | nil => simp
  | cons m ms ih =>
      rw [List.foldl_cons, ih, about_measure]
      split
      · simp
      · rfl

/-- The labels of what is measured of a message. -/
def messageLabels (message : Message) : List (Instrument × Option AttrValue) :=
  ((r.messageMeasurements deps message).map fun m =>
    Measurement.label ⟨m.1, m.2.1, m.2.2, .message message.id⟩).reverse

theorem label_tokens (value : ℚ) (attributes : Attributes) (type : AttrValue) (source : Source) :
  Measurement.label ⟨.tokens, value, attributes ++ [("gen_ai.token.type", type)], source⟩ =
    (.tokens, some type)
  := by
  simp [Measurement.label]

theorem label_other {instrument : Instrument} (h : instrument ≠ .tokens) (value : ℚ)
    (attributes : Attributes) (source : Source) :
  Measurement.label ⟨instrument, value, attributes, source⟩ = (instrument, none)
  := by
  simp [Measurement.label, h]

/-- The labels of the amounts of tokens that are measured. -/
def tokenLabels (tokens : Option Tokens) : List (Instrument × Option AttrValue) :=
  (((tokens.map tokensByType).getD []).filter (0 < ·.2)).map fun t => (.tokens, some (.str t.1))

/-- The types of tokens are distinct. -/
theorem nodup_tokenLabels (tokens : Option Tokens) :
  (tokenLabels tokens).Nodup
  := by
  have hall : (((tokens.map tokensByType).getD []).map fun t =>
      (Instrument.tokens, some (AttrValue.str t.1))).Nodup := by
    cases tokens with
    | none => apply List.nodup_nil
    | some tokens => simp [tokensByType]
  apply hall.sublist (List.Sublist.map _ List.filter_sublist)

theorem tokens_of_mem_tokenLabels {tokens : Option Tokens}
    {label : Instrument × Option AttrValue} (h : label ∈ tokenLabels tokens) :
  label.1 = .tokens
  := by
  obtain ⟨t, -, rfl⟩ := List.mem_map.mp h
  rfl

/-- The label of the cost of a message that has one. -/
def costLabels (message : Message) : List (Instrument × Option AttrValue) :=
  if 0 < costOf message then [(.cost, none)] else []

theorem messageLabels_eq (message : Message) :
  r.messageLabels deps message =
    (costLabels message ++ tokenLabels message.tokens ++
      [(Instrument.requests, none), (Instrument.duration, none)]).reverse
  := by
  unfold messageLabels messageMeasurements
  rw [List.map_append, List.map_append, List.map_map]
  congr 3
  · unfold costLabels
    split
    · simp only [List.map_cons, List.map_nil]
      rw [label_other (by decide)]
    · rfl
  · apply List.map_congr_left
    intro t _
    apply label_tokens

/-- A message adds to each instrument once, for tokens once of each type. -/
theorem nodup_messageLabels (message : Message) :
  (r.messageLabels deps message).Nodup ∧
    (Instrument.requests, none) ∈ r.messageLabels deps message
  := by
  have hcost : (costLabels message).Nodup ∧ ∀ label ∈ costLabels message, label.1 = .cost := by
    unfold costLabels
    split <;> simp
  rw [messageLabels_eq, List.nodup_reverse, List.mem_reverse]
  constructor
  · apply List.Nodup.append
    · apply hcost.1.append (nodup_tokenLabels _)
      intro label hcostLabel htokens
      have heq := hcost.2 label hcostLabel
      rw [tokens_of_mem_tokenLabels htokens] at heq
      cases heq
    · simp
    · intro label hlabel hlast
      have hfirst : label.1 = .cost ∨ label.1 = .tokens := by
        obtain h | h := List.mem_append.mp hlabel
        · exact .inl (hcost.2 label h)
        · exact .inr (tokens_of_mem_tokenLabels h)
      simp only [List.mem_cons, List.not_mem_nil, or_false] at hlast
      obtain rfl | rfl := hlast <;> simp at hfirst
  · simp

theorem measureAll_marks (source : Source) (ms : List (Instrument × ℚ × Attributes)) :
  (ms.foldl (fun r m => r.measure deps source m.1 m.2.1 m.2.2) r).finalizedMessages =
      r.finalizedMessages ∧
    (ms.foldl (fun r m => r.measure deps source m.1 m.2.1 m.2.2) r).finishedTools =
      r.finishedTools
  := by
  induction ms generalizing r with
  | nil => exact ⟨rfl, rfl⟩
  | cons m ms ih =>
      obtain ⟨hmessages, htools⟩ := ih (r.measure deps source m.1 m.2.1 m.2.2)
      obtain ⟨hmessages', htools'⟩ := r.measure_marks deps source m.1 m.2.1 m.2.2
      rw [List.foldl_cons, hmessages, htools, hmessages', htools']
      exact ⟨rfl, rfl⟩

theorem quiet_endChat (message : Message) (chat : ChatState) (usage : Attributes) :
  Quiet r (r.endChat message chat usage)
  := by
  apply (r.quiet_updateSpan chat.span _).trans
  simp only [endChat]
  split
  · apply quiet_endSpan
  · apply (quiet_updateSpan _ _ _).trans
    apply quiet_endSpan

theorem quiet_reportError (message : Message) :
  Quiet r (r.reportError deps message)
  := by
  unfold reportError
  split
  · apply Quiet.refl
  · apply quiet_onSessionError

/-- What follows the counting of a message. -/
theorem quiet_finalizeMessage (message : Message) (chat : ChatState) (session : SessionState) :
  Quiet ((r.markMessage message).measureMessage deps message)
    (r.finalizeMessage deps message chat session)
  := by
  apply (quiet_setSession _ message.sessionID (addMessage session message)).trans
  apply (quiet_endChat _ message chat _).trans
  apply (quiet_emit deps _ _ _ _ _).trans
  apply quiet_reportError

/-- A message is marked, and counted. -/
theorem finalizeMessage_marks (message : Message) (chat : ChatState) (session : SessionState) :
  (r.finalizeMessage deps message chat session).finalizedMessages =
      r.finalizedMessages.set message.id message.sessionID ∧
    (r.finalizeMessage deps message chat session).finishedTools = r.finishedTools ∧
      ∀ source : Source, source.Unique →
        (r.finalizeMessage deps message chat session).about source =
          (if deps.meter = true ∧ .message message.id = source then
            r.messageLabels deps message else []) ++ r.about source
  := by
  obtain ⟨hmessages, htools⟩ := measureAll_marks deps (r.markMessage message)
    (.message message.id) (r.messageMeasurements deps message)
  have hquiet := r.quiet_finalizeMessage deps message chat session
  rw [hquiet.finalizedMessages, hquiet.finishedTools]
  use hmessages, htools
  intro source hsource
  rw [hquiet.about source hsource]
  apply about_measureAll

/-! ### What is measured of a call -/

theorem quiet_endTool (span : Option ℕ) (attributes : Attributes) (failed : Bool) :
  Quiet r (r.endTool span attributes failed)
  := by
  apply (r.quiet_updateSpan span _).trans
  simp only [endTool]
  split
  · apply (quiet_updateSpan _ _ _).trans
    apply quiet_endSpan
  · apply quiet_endSpan

/-- What follows the counting of a call. -/
theorem quiet_finishTool {callID : String} (h : r.finishedTools.get callID = none)
    (outcome : ToolOutcome) :
  Quiet ((r.markCall callID (r.callSession callID outcome)).measure deps (.call callID)
      .toolInvocations 1 (callMetric deps (r.callTool callID outcome)
        (r.callSession callID outcome) outcome.failed))
    (r.finishTool deps callID outcome)
  := by
  unfold finishTool
  rw [if_neg (by simp [JsMap.has, h])]
  apply (quiet_endTool _ _ _ _).trans
  apply (quiet_sessionOf _ _).trans
  apply quiet_emit

/-- A call is marked and counted, unless it has been marked. -/
theorem finishTool_marks (callID : String) (outcome : ToolOutcome) :
  (r.finishTool deps callID outcome).finalizedMessages = r.finalizedMessages ∧
    (∀ k, (r.finishTool deps callID outcome).finishedTools.get k =
      (Memo.report callID (r.callSession callID outcome)).remembered k (r.finishedTools.get k)) ∧
      ∀ source : Source, source.Unique →
        (r.finishTool deps callID outcome).about source =
          (if deps.meter = true ∧ .call callID = source ∧ r.finishedTools.get callID = none then
            [(.toolInvocations, none)] else []) ++ r.about source
  := by
  cases h : r.finishedTools.get callID with
  | some owner =>
      have hsame : r.finishTool deps callID outcome = r := by
        rw [finishTool, if_pos (JsMap.has_of_get h)]
      rw [hsame]
      refine ⟨rfl, ?_, ?_⟩
      · intro k
        rw [Memo.remembered]
        split
        · next heq =>
            rw [← heq, h]
            rfl
        · rfl
      · intro source _
        rw [if_neg (by simp)]
        rfl
  | none =>
      have hquiet := r.quiet_finishTool deps h outcome
      obtain ⟨hmessages, htools⟩ := measure_marks deps
        (r.markCall callID (r.callSession callID outcome)) (.call callID) .toolInvocations 1
        (callMetric deps (r.callTool callID outcome) (r.callSession callID outcome) outcome.failed)
      refine ⟨hquiet.finalizedMessages.trans hmessages, ?_, ?_⟩
      · intro k
        rw [hquiet.finishedTools, htools]
        change (r.finishedTools.set callID _).get k = _
        rw [JsMap.get_set, Memo.remembered]
        split
        · next heq =>
            rw [if_pos heq.symm, heq, h]
            rfl
        · next hne => rw [if_neg (fun heq => hne heq.symm)]
      · intro source hsource
        rw [hquiet.about source hsource, about_measure]
        simp only [and_true]
        rw [label_other (by decide)]
        rfl

theorem quiet_chatOf (message : Message) (context : Context) :
  Quiet r (r.chatOf deps message context).1
  := by
  unfold chatOf
  split
  · apply Quiet.refl
  · split
    · have hforget : Quiet r { r with pendingChats := r.pendingChats.delete message.sessionID } :=
        ⟨rfl, rfl, fun _ _ => rfl⟩
      · apply hforget.trans
        apply (quiet_updateSpan _ _ _).trans
        apply (quiet_updateSpan _ _ _).trans
        exact ⟨rfl, rfl, fun _ _ => rfl⟩
    · apply (quiet_startSpan deps _ _).trans
      exact ⟨rfl, rfl, fun _ _ => rfl⟩

/-! ### What an event counts -/

/-- A list to which, if something counts, distinct entries are added, among them a given one. -/
def Grows {α : Type} (counts : Bool) (x : α) (l l' : List α) : Prop :=
  ∃ new, l' = new ++ l ∧ if counts then new.Nodup ∧ x ∈ new else new = []

/-- What a change does that is a memo to the messages, and one to the calls. -/
structure Effect (deps : RecorderDeps) (r r' : Recorder) (message call : Memo String String) :
    Prop where
  finalized : ∀ k, r'.finalizedMessages.get k = message.remembered k (r.finalizedMessages.get k)
  finished : ∀ k, r'.finishedTools.get k = call.remembered k (r.finishedTools.get k)
  messages : ∀ k, Grows (message.reports k && (r.finalizedMessages.get k).isNone && deps.meter)
    (.requests, none) (r.about (.message k)) (r'.about (.message k))
  calls : ∀ k, Grows (call.reports k && (r.finishedTools.get k).isNone && deps.meter)
    (.toolInvocations, none) (r.about (.call k)) (r'.about (.call k))

theorem grows_same {α : Type} (x : α) {l l' : List α} (h : l' = l) :
  Grows false x l l'
  := ⟨[], h, rfl⟩

end Recorder

open Recorder

variable {deps : RecorderDeps} {r r' r'' : Recorder} {message call : Memo String String}

theorem Quiet.effect (h : Quiet r r') :
  Effect deps r r' .other .other
  := by
  constructor
  · intro k
    rw [h.finalizedMessages]
    rfl
  · intro k
    rw [h.finishedTools]
    rfl
  · exact fun k => grows_same _ (h.about _ trivial)
  · exact fun k => grows_same _ (h.about _ trivial)

theorem Quiet.trans_effect (h : Quiet r r') (h' : Effect deps r' r'' message call) :
  Effect deps r r'' message call
  := by
  constructor
  · rw [← h.finalizedMessages]
    apply h'.finalized
  · rw [← h.finishedTools]
    apply h'.finished
  · intro k
    rw [← h.finalizedMessages, ← h.about (Source.message k) trivial]
    apply h'.messages
  · intro k
    rw [← h.finishedTools, ← h.about (Source.call k) trivial]
    apply h'.calls

namespace Recorder

variable (deps r)

theorem effect_pruneCompleted (sessionID : String) :
  Effect deps r (r.pruneCompleted sessionID) (.forget sessionID) (.forget sessionID)
  := by
  constructor
  · exact fun k => JsMap.get_filter _ _ _
  · exact fun k => JsMap.get_filter _ _ _
  · exact fun k => grows_same _ rfl
  · exact fun k => grows_same _ rfl

theorem quiet_closeSession (sessionID : String) (state : SessionState) :
  Quiet r (r.closeSession sessionID state)
  := (r.quiet_endSpan state.span none).trans ⟨rfl, rfl, fun _ _ => rfl⟩

theorem effect_onSessionIdle (sessionID : String) :
  Effect deps r (r.onSessionIdle deps sessionID) (r.messageMemo (.sessionIdle sessionID))
    (r.callMemo (.sessionIdle sessionID))
  := by
  have hmemo : r.messageMemo (.sessionIdle sessionID) =
      if r.sessions.has sessionID then .forget sessionID else .other := rfl
  have hmemo' : r.callMemo (.sessionIdle sessionID) = r.messageMemo (.sessionIdle sessionID) :=
    rfl
  rw [hmemo', hmemo]
  unfold onSessionIdle
  cases h : r.sessions.get sessionID with
  | none =>
      rw [if_neg (by simp [JsMap.has, h])]
      apply (Quiet.refl r).effect
  | some state =>
      rw [if_pos (JsMap.has_of_get h)]
      apply Quiet.trans_effect _ (effect_pruneCompleted deps _ sessionID)
      apply Quiet.trans _ (quiet_closeSession _ _ _)
      apply Quiet.trans _ (quiet_updateSpan _ _ _)
      apply Quiet.trans _ (quiet_emit _ _ _ _ _ _)
      apply quiet_settleActiveTime

theorem quiet_forgetChats (sessionID : String) :
  Quiet r (r.forgetChats sessionID)
  := by
  apply Quiet.foldl
  intro r e
  split
  · apply (r.quiet_endSpan e.2.span none).trans
    exact ⟨rfl, rfl, fun _ _ => rfl⟩
  · apply Quiet.refl

theorem quiet_forgetTools (sessionID : String) :
  Quiet r (r.forgetTools sessionID)
  := by
  apply Quiet.foldl
  intro r e
  split
  · apply (r.quiet_endSpan e.2.span none).trans
    exact ⟨rfl, rfl, fun _ _ => rfl⟩
  · apply Quiet.refl

theorem quiet_dropSession (sessionID : String) :
  Quiet r (r.dropSession deps sessionID)
  := by
  unfold dropSession
  split
  · apply Quiet.refl
  · next state _ =>
      apply (r.quiet_settleActiveTime deps sessionID state).trans
      apply quiet_closeSession

theorem quiet_dropPending (sessionID : String) :
  Quiet r (r.dropPending sessionID)
  := (r.quiet_endSpan _ none).trans ⟨rfl, rfl, fun _ _ => rfl⟩

theorem quiet_dropRecords (sessionID : String) :
  Quiet r (r.dropRecords sessionID)
  := ⟨rfl, rfl, fun _ _ => rfl⟩

theorem effect_forgetSession (sessionID : String) :
  Effect deps r (r.forgetSession deps sessionID) (.forget sessionID) (.forget sessionID)
  := by
  apply (r.quiet_dropSession deps sessionID).trans_effect
  apply (quiet_dropPending _ sessionID).trans_effect
  apply (quiet_forgetChats _ sessionID).trans_effect
  apply (quiet_forgetTools _ sessionID).trans_effect
  apply (quiet_dropRecords _ sessionID).trans_effect
  apply effect_pruneCompleted

/-- A call that is reported counts unless it is marked. -/
theorem effect_finishTool (callID : String) (outcome : ToolOutcome) :
  Effect deps r (r.finishTool deps callID outcome) .other
    (.report callID (r.callSession callID outcome))
  := by
  obtain ⟨hmessages, htools, habout⟩ := r.finishTool_marks deps callID outcome
  constructor
  · intro k
    rw [hmessages]
    rfl
  · apply htools
  · intro k
    apply grows_same
    rw [habout (.message k) trivial, if_neg (by simp)]
    rfl
  · intro k
    refine ⟨_, habout _ trivial, ?_⟩
    by_cases heq : callID = k
    · subst heq
      cases h : r.finishedTools.get callID with
      | none => cases hmeter : deps.meter <;> simp [Memo.reports]
      | some owner => simp [Memo.reports]
    · simp [Memo.reports, heq]

/-- A message that is finalized counts. -/
theorem effect_finalizeMessage {message : Message}
    (h : r.finalizedMessages.get message.id = none) (chat : ChatState) (session : SessionState) :
  Effect deps r (r.finalizeMessage deps message chat session) (.report message.id message.sessionID)
    .other
  := by
  obtain ⟨hmessages, htools, habout⟩ := r.finalizeMessage_marks deps message chat session
  constructor
  · intro k
    rw [hmessages, JsMap.get_set, Memo.remembered]
    split
    · next heq =>
        rw [if_pos heq.symm, heq, h]
        rfl
    · next hne => rw [if_neg (fun heq => hne heq.symm)]
  · intro k
    rw [htools]
    rfl
  · intro k
    refine ⟨_, habout _ trivial, ?_⟩
    by_cases heq : message.id = k
    · subst heq
      cases hmeter : deps.meter <;> simp [Memo.reports, h, nodup_messageLabels]
    · simp [Memo.reports, heq]
  · intro k
    apply grows_same
    rw [habout (.call k) trivial, if_neg (by simp)]
    rfl

/-- A message that is marked does not count again. -/
theorem effect_marked {message : Message} {owner : String}
    (h : r.finalizedMessages.get message.id = some owner) (sessionID : String) :
  Effect deps r r (.report message.id sessionID) .other
  := by
  constructor
  · intro k
    rw [Memo.remembered]
    split
    · next heq =>
        rw [← heq, h]
        rfl
    · rfl
  · exact fun k => rfl
  · intro k
    by_cases heq : message.id = k
    · rw [← heq, h]
      refine ⟨[], rfl, ?_⟩
      simp
    · refine ⟨[], rfl, ?_⟩
      simp [Memo.reports, heq]
  · exact fun k => grows_same _ rfl

/-- A message that has been completed counts unless it is marked. -/
theorem effect_onMessageUpdated (info : Message) :
  Effect deps r (r.onMessageUpdated deps info) (r.messageMemo (.messageUpdated info)) .other
  := by
  have hmemo : r.messageMemo (.messageUpdated info) =
      if info.role = "assistant" ∧ (info.time.bind MessageTime.completed).isSome = true then
        .report info.id info.sessionID
      else .other := rfl
  rw [hmemo]
  by_cases hrole : info.role = "assistant"
  · cases h : r.finalizedMessages.get info.id with
    | some owner =>
        have hsame : r.onMessageUpdated deps info = r := by
          rw [onMessageUpdated, if_pos (.inr (JsMap.has_of_get h))]
        rw [hsame]
        split
        · apply effect_marked deps r h
        · apply (Quiet.refl r).effect
    | none =>
        have hchat := (r.quiet_session info.sessionID).trans
          (quiet_chatOf deps _ info (r.session info.sessionID).2.context)
        unfold onMessageUpdated
        rw [if_neg (by simp [hrole, JsMap.has, h])]
        cases hcompleted : info.time.bind MessageTime.completed with
        | none =>
            rw [if_neg (by simp)]
            apply hchat.effect
        | some completed =>
            rw [if_pos ⟨hrole, rfl⟩]
            apply hchat.trans_effect
            apply effect_finalizeMessage deps _
            rw [hchat.finalizedMessages, h]
  · have hsame : r.onMessageUpdated deps info = r := by
      rw [onMessageUpdated, if_pos (.inl hrole)]
    rw [hsame, if_neg (fun h => hrole h.1)]
    apply (Quiet.refl r).effect

theorem effect_onPartUpdated (part : Part) :
  Effect deps r (r.onPartUpdated deps part) .other (r.callMemo (.messagePartUpdated part))
  := by
  have hmemo : r.callMemo (.messagePartUpdated part) =
      (partOutcome part).elim .other fun c => .report c.1 (r.callSession c.1 c.2) := rfl
  rw [hmemo]
  unfold onPartUpdated
  cases partOutcome part with
  | none => apply (Quiet.refl r).effect
  | some c => apply effect_finishTool deps r

theorem quiet_onBranchUpdated (branch : Option String) :
  Quiet r (r.onBranchUpdated branch)
  := by
  unfold onBranchUpdated
  split
  · apply Quiet.refl
  · exact ⟨rfl, rfl, fun _ _ => rfl⟩

/-- The effect of an event is what its memos say. -/
theorem effect_handle (e : HostEvent) :
  Effect deps r (r.handle deps e) (r.messageMemo e) (r.callMemo e)
  := by
  cases e with
  | sessionCreated info => exact (quiet_onSessionCreated deps _ info).effect
  | sessionIdle sessionID => apply effect_onSessionIdle
  | sessionStatus sessionID status => exact (quiet_onSessionStatus deps _ _ _).effect
  | sessionCompacted sessionID => exact (quiet_onCompacted deps _ _).effect
  | sessionError sessionID error => exact (quiet_onSessionError deps _ _ _).effect
  | sessionDiff sessionID diff => exact (quiet_onSessionDiff deps _ _ _).effect
  | messageUpdated info => apply effect_onMessageUpdated deps r
  | messagePartUpdated part => apply effect_onPartUpdated deps r
  | permissionUpdated id type sessionID =>
      apply Quiet.effect
      exact ⟨rfl, rfl, fun _ _ => rfl⟩
  | permissionReplied sessionID permissionID response =>
      exact (quiet_onPermissionReplied deps _ _ _ _).effect
  | commandExecuted sessionID name arguments => exact (quiet_onCommandExecuted deps _ _ _ _).effect
  | installationUpdated version =>
      apply Quiet.effect
      exact ⟨rfl, rfl, fun _ _ => rfl⟩
  | vcsBranchUpdated branch => exact (quiet_onBranchUpdated _ _).effect
  | todoUpdated sessionID statuses =>
      exact ((quiet_session _ sessionID).trans (quiet_emit _ _ _ _ _ _)).effect
  | sessionDeleted id => apply effect_forgetSession
  | serverInstanceDisposed => exact (quiet_shutdown deps _).effect
  | other => exact (Quiet.refl _).effect
  | chatMessage sessionID agent modelID providerID parts =>
      exact ((quiet_session _ sessionID).trans (quiet_emit _ _ _ _ _ _)).effect
  | chatParams sessionID model agent output => exact (quiet_onChatParams deps _ _ _ _ _).effect
  | textComplete _ messageID text => exact (quiet_onTextComplete _ _ _).effect
  | permissionAsk id type sessionID status => exact (quiet_onPermissionAsk deps _ _ _ _ _).effect
  | compactionAutocontinue sessionID overflow agent enabled =>
      exact ((quiet_session _ sessionID).trans (quiet_emit _ _ _ _ _ _)).effect
  | toolBefore input => exact (quiet_onToolBefore deps _ input).effect
  | toolAfter input output => apply effect_finishTool deps r
  | shutdown => exact (quiet_shutdown deps _).effect

theorem effect_deliver (e : ℚ × HostEvent) :
  Effect deps r (r.deliver deps e) (r.messageMemo e.2) (r.callMemo e.2)
  := by
  have hnow : Quiet r { r with now := e.1 } := ⟨rfl, rfl, fun _ _ => rfl⟩
  apply hnow.trans_effect
  apply effect_handle deps { r with now := e.1 } e.2

/-- A recorder with a meter remembers and counts messages and calls. -/
theorem tallies_messages (hmeter : deps.meter = true) (k : String) :
  Memo.Tallies (deliver deps) (fun r e => r.messageMemo e.2)
    (fun r k => r.finalizedMessages.get k) (fun k r => r.about (.message k)) k
    (Instrument.requests, none)
  := by
  constructor
  · exact fun r e => (effect_deliver deps r e).finalized k
  · intro r e
    have hmessages := (effect_deliver deps r e).messages k
    rwa [hmeter, Bool.and_true] at hmessages

theorem tallies_calls (hmeter : deps.meter = true) (k : String) :
  Memo.Tallies (deliver deps) (fun r e => r.callMemo e.2)
    (fun r k => r.finishedTools.get k) (fun k r => r.about (.call k)) k
    (Instrument.toolInvocations, none)
  := by
  constructor
  · exact fun r e => (effect_deliver deps r e).finished k
  · intro r e
    have hcalls := (effect_deliver deps r e).calls k
    rwa [hmeter, Bool.and_true] at hcalls

/-- Without a meter nothing is measured. -/
theorem about_foldl_of_no_meter (hmeter : deps.meter = false) (es : List (ℚ × HostEvent))
    (k : String) :
  (es.foldl (deliver deps) r).about (.message k) = r.about (.message k) ∧
    (es.foldl (deliver deps) r).about (.call k) = r.about (.call k)
  := by
  induction es generalizing r with
  | nil => exact ⟨rfl, rfl⟩
  | cons e es ih =>
      obtain ⟨hmessage, hcall⟩ := ih (r.deliver deps e)
      obtain ⟨new, hnew, hcount⟩ := (effect_deliver deps r e).messages k
      obtain ⟨new', hnew', hcount'⟩ := (effect_deliver deps r e).calls k
      rw [hmeter, Bool.and_false, if_neg (by simp)] at hcount hcount'
      rw [List.foldl_cons, hmessage, hcall, hnew, hnew', hcount, hcount']
      exact ⟨rfl, rfl⟩

/-- No message that has been completed, and no call that has come to its end, is reported to be
so again once the session under which it was first reported has become idle or been deleted. -/
structure NoneAfterPrune (es : List (ℚ × HostEvent)) : Prop where
  messages : ∀ id, Memo.Retained id
    (Memo.memos (deliver deps) (fun r e => r.messageMemo e.2) initial es)
  calls : ∀ id, Memo.Retained id
    (Memo.memos (deliver deps) (fun r e => r.callMemo e.2) initial es)

/-- Messages and calls are counted once exactly when none is reported after its session was
pruned. -/
theorem countsOnce_iff_noneAfterPrune (es : List (ℚ × HostEvent)) :
  (run deps es).CountsOnce ↔ (deps.meter = true → NoneAfterPrune deps es)
  := by
  cases hmeter : deps.meter with
  | true =>
      have hmessages := fun id => (tallies_messages deps hmeter id).nodup_iff
        (s := initial) rfl rfl es
      have hcalls := fun id => (tallies_calls deps hmeter id).nodup_iff (s := initial) rfl rfl es
      constructor
      · intro h _
        constructor
        · exact fun id => (hmessages id).mp (h.messages id)
        · exact fun id => (hcalls id).mp (h.calls id)
      · intro h
        constructor
        · exact fun id => (hmessages id).mpr ((h rfl).messages id)
        · exact fun id => (hcalls id).mpr ((h rfl).calls id)
  | false =>
      constructor
      · rintro - ⟨⟩
      · intro _
        constructor
        · intro id
          unfold run
          rw [(about_foldl_of_no_meter deps initial hmeter es id).1]
          apply List.nodup_nil
        · intro id
          unfold run
          rw [(about_foldl_of_no_meter deps initial hmeter es id).2]
          apply List.nodup_nil

/-! ### A late update -/

/-- A recorder that reports everything. -/
def sampleDeps : RecorderDeps where
  tracer := true
  meter := true
  otelLogger := true
  includeSessionId := false
  filteredTools := []

/-- An assistant message that has been completed. -/
def sampleMessage : Message where
  id := "m1"
  sessionID := "s1"
  role := "assistant"
  modelID := some "kimi-k2.6"
  providerID := none
  mode := none
  cost := none
  tokens := none
  time := some ⟨1000, some 2000⟩
  error := none
  finish := none

/-- A message that is updated once more after its session has become idle counts twice. -/
theorem late_update_counts_again :
  ¬ ∀ (deps : RecorderDeps) (es : List (ℚ × HostEvent)), (run deps es).CountsOnce
  := by
  intro hall
  have hnodup := (hall sampleDeps
    [(900, .sessionCreated ⟨"s1", none, none⟩), (2000, .messageUpdated sampleMessage),
      (2100, .sessionIdle "s1"), (2200, .messageUpdated sampleMessage)]).messages "m1"
  exact absurd hnodup (by decide)

end Recorder

end Telemetry
