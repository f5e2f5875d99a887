import OpencodeToolbelt.Data.Stopwatch
import OpencodeToolbelt.Telemetry.Overlooking

/-!
# Active time

The recorder reports for how long a session has been busy when the session stops to be, becomes
idle, is deleted or is shut down.
-/

namespace Telemetry

/-- What an event is to the time for which a session is busy. -/
def HostEvent.mark (id : String) : HostEvent → Mark
  | .sessionStatus sessionID .busy => if sessionID = id then .start else .other
  | .sessionStatus sessionID .idle => if sessionID = id then .stop else .other
  | .sessionIdle sessionID => if sessionID = id then .stop else .other
  | .sessionDeleted sessionID => if sessionID = id then .stop else .other
  | .serverInstanceDisposed => .stop
  | .shutdown => .stop
  | _ => .other

/-- The times from a busy status of a session to the next event that ends it. -/
def busyTime (id : String) (es : List (ℚ × HostEvent)) : Set ℝ :=
  Stopwatch.covered (es.map fun e => (e.1, e.2.mark id))

/-- A session is not created once it has been busy. -/
def CreatedFirst (id : String) (es : List (ℚ × HostEvent)) : Prop :=
  ∀ before t info after, es = before ++ (t, .sessionCreated info) :: after → info.id = id →
    ∀ e ∈ before, e.2.mark id ≠ .start

namespace Recorder

/-- The active time that has been reported for a session, in seconds. -/
def activeTime (r : Recorder) (id : String) : ℚ :=
  ((r.measurements.filter fun m =>
    m.instrument = .activeTime ∧ m.source = .session id).map Measurement.value).sum

/-- Since when a session has been busy, with the active time reported for it. -/
def activity (id : String) (r : Recorder) : Option ℚ × ℚ := (r.busySince id, r.activeTime id)

theorem overlooks_activity (id : String) :
  Overlooks (activity id)
  where
  reports _ _ _ _ _ _ _ _ := rfl
  marks _ _ _ _ _ _ _ := rfl
  measurement r m hm := by
    have hother : m.instrument ≠ .activeTime := by
      intro heq
      rw [heq] at hm
      cases hm
    simp [activity, activeTime, busySince, hother]
  sessions r sessions h := by
    rw [activity, h]
    rfl

theorem overlooksFiles_activity (id : String) :
  OverlooksFiles (activity id)
  where
  toOverlooks := overlooks_activity id
  diffs _ _ := rfl
  lines r m hm := by
    simp [activity, activeTime, busySince, hm]

theorem overlooksPermissions_activity (id : String) :
  OverlooksPermissions (activity id)
  where
  toOverlooks := overlooks_activity id
  permissions _ _ _ := rfl
  decisions r m hm := by
    simp [activity, activeTime, busySince, hm]

/-- The time since a session has been busy is reported. -/
def settled (deps : RecorderDeps) (now : ℚ) (v : Option ℚ × ℚ) : Option ℚ × ℚ :=
  (none, v.2 + if deps.meter then (v.1.map fun t => max 0 ((now - t) / 1000)).getD 0 else 0)

theorem settled_of_none (deps : RecorderDeps) (now total : ℚ) :
  settled deps now (none, total) = (none, total)
  := by
  simp [settled]

variable (deps : RecorderDeps) (r : Recorder)

theorem busySince_setSession (sessionID : String) (state : SessionState) (id : String) :
  (r.setSession sessionID state).busySince id =
    if sessionID = id then state.busySince else r.busySince id
  := by
  rw [busySince, setSession, JsMap.get_set]
  split
  · next heq => rw [if_pos heq.symm, Option.bind_some]
  · next hne => rw [if_neg (fun heq => hne heq.symm), busySince]

theorem busySince_measure (source : Source) (instrument : Instrument) (value : ℚ)
    (attributes : Attributes) :
  (r.measure deps source instrument value attributes).busySince = r.busySince
  := by
  unfold measure
  split <;> rfl

theorem activeTime_measure (source : Source) (value : ℚ) (attributes : Attributes) (id : String) :
  (r.measure deps source .activeTime value attributes).activeTime id =
    r.activeTime id + if deps.meter = true ∧ source = .session id then value else 0
  := by
  unfold measure activeTime
  by_cases hmeter : deps.meter = true
  · by_cases hsource : source = .session id
    · simp [hmeter, hsource, add_comm]
    · simp [hmeter, hsource]
  · simp [hmeter]

/-- The active time of a session is settled, and that of no other one. -/
theorem activity_settleActiveTime (id : String) {sessionID : String} {state : SessionState}
    (hstate : state.busySince = r.busySince sessionID) :
  activity id (r.settleActiveTime deps sessionID state) =
    if sessionID = id then settled deps r.now (activity id r) else activity id r
  := by
  unfold settleActiveTime
  split
  · next hnone =>
      split
      · next heq =>
          subst heq
          rw [activity, ← hstate, hnone, settled_of_none]
      · rfl
  · next t hsome =>
      rw [hsome] at hstate
      rw [activity, busySince_measure, busySince_setSession, activeTime_measure]
      split
      · next heq =>
          subst heq
          simp only [settled, activity, ← hstate, Option.map_some, Option.getD_some, and_true]
          rfl
      · next hne =>
          rw [if_neg (by simp [hne]), add_zero]
          rfl

theorem now_settleActiveTime (sessionID : String) (state : SessionState) :
  (r.settleActiveTime deps sessionID state).now = r.now
  := by
  unfold settleActiveTime measure
  split
  · rfl
  · split <;> rfl

theorem activity_closeSession (id sessionID : String) (state : SessionState) :
  activity id (r.closeSession sessionID state) =
    if sessionID = id then (none, (activity id r).2) else activity id r
  := by
  have hsessions : (r.endSpan state.span none).sessions = r.sessions := by
    unfold endSpan
    split <;> rfl
  rw [← (overlooks_activity id).endSpan r state.span none, activity, busySince, closeSession,
    ← hsessions, JsMap.get_delete]
  split
  · next heq =>
      rw [if_pos heq.symm]
      rfl
  · next hne =>
      rw [if_neg fun heq => hne heq.symm]
      rfl

/-- A session that is closed once its active time is settled. -/
theorem activity_close {r' : Recorder} (id : String) {sessionID : String} {state : SessionState}
    (hget : r.sessions.get sessionID = some state)
    (hr' : activity id r' = activity id (r.settleActiveTime deps sessionID state)) :
  activity id (r'.closeSession sessionID state) =
    if sessionID = id then settled deps r.now (activity id r) else activity id r
  := by
  have hstate : state.busySince = r.busySince sessionID := by
    rw [busySince, hget, Option.bind_some]
  rw [activity_closeSession, hr', r.activity_settleActiveTime deps id hstate]
  split <;> rfl

/-- A session that is not known is not busy. -/
theorem settled_of_unknown {id : String} (hget : r.sessions.get id = none) :
  settled deps r.now (activity id r) = activity id r
  := by
  rw [activity, busySince, hget, Option.bind_none, settled_of_none]

/-! ### One event -/

theorem activity_onSessionIdle (id sessionID : String) :
  activity id (r.onSessionIdle deps sessionID) =
    if sessionID = id then settled deps r.now (activity id r) else activity id r
  := by
  have h := overlooks_activity id
  unfold onSessionIdle
  split
  · next hnone =>
      split
      · next heq =>
          subst heq
          rw [r.settled_of_unknown deps hnone]
      · rfl
  · next state hget =>
      dsimp only
      rw [h.pruneCompleted]
      apply r.activity_close deps id hget
      rw [h.updateSpan, h.emit]

theorem activity_dropSession (id sessionID : String) :
  activity id (r.dropSession deps sessionID) =
    if sessionID = id then settled deps r.now (activity id r) else activity id r
  := by
  unfold dropSession
  split
  · next hnone =>
      split
      · next heq =>
          subst heq
          rw [r.settled_of_unknown deps hnone]
      · rfl
  · next state hget => apply r.activity_close deps id hget rfl

theorem activity_forgetSession (id sessionID : String) :
  activity id (r.forgetSession deps sessionID) =
    if sessionID = id then settled deps r.now (activity id r) else activity id r
  := by
  have h := overlooks_activity id
  simp only [forgetSession]
  rw [h.pruneCompleted]
  change activity id ((((r.dropSession deps sessionID).dropPending sessionID).forgetChats
    sessionID).forgetTools sessionID) = _
  rw [h.forgetTools, h.forgetChats, h.dropPending, activity_dropSession]

/-- The sessions of a list are settled one after the other. -/
theorem activity_settle_all (id : String) {l : List (String × SessionState)}
    (hnodup : (l.map Prod.fst).Nodup)
    (hl : ∀ e ∈ l, e.2.busySince = r.busySince e.1) :
  activity id (l.foldl (fun r e => (r.settleActiveTime deps e.1 e.2).endSpan e.2.span none) r) =
    if id ∈ l.map Prod.fst then settled deps r.now (activity id r) else activity id r
  := by
  induction l generalizing r with
  | nil => rfl
  | cons e l ih =>
      obtain ⟨hnew, hnodup⟩ := List.nodup_cons.mp hnodup
      have he : e.2.busySince = r.busySince e.1 := hl e List.mem_cons_self
      have hnext : ∀ id, activity id ((r.settleActiveTime deps e.1 e.2).endSpan e.2.span none) =
          if e.1 = id then settled deps r.now (activity id r) else activity id r := by
        intro id
        rw [(overlooks_activity id).endSpan, r.activity_settleActiveTime deps id he]
      have hnow : ((r.settleActiveTime deps e.1 e.2).endSpan e.2.span none).now = r.now := by
        unfold endSpan
        split <;> apply now_settleActiveTime
      rw [List.foldl_cons, ih _ hnodup, hnext, hnow]
      · simp only [List.map_cons, List.mem_cons]
        by_cases heq : e.1 = id
        · subst heq
          rw [if_neg hnew, if_pos rfl, if_pos (Or.inl rfl)]
        · rw [if_neg heq]
          by_cases hmem : id ∈ l.map Prod.fst
          · rw [if_pos hmem, if_pos (Or.inr hmem)]
          · rw [if_neg hmem, if_neg]
            rintro (hid | hid)
            · apply heq hid.symm
            · apply hmem hid
      · intro e' he'
        rw [hl e' (List.mem_cons_of_mem _ he')]
        have hne : e.1 ≠ e'.1 := by
          intro heq
          apply hnew
          rw [heq]
          apply List.mem_map_of_mem he'
        have hother := congr_arg Prod.fst (hnext e'.1)
        rw [if_neg hne] at hother
        apply hother.symm

theorem activity_shutdown (id : String) :
  activity id (r.shutdown deps) = settled deps r.now (activity id r)
  := by
  have h := overlooks_activity id
  have hall := r.activity_settle_all deps id (l := r.sessions.entries) r.sessions.nodup (by
    intro e he
    rw [busySince, JsMap.get_eq_some.mpr he, Option.bind_some])
  unfold shutdown
  rw [h.endTools, h.endChats]
  have hcleared : activity id (r.endSessions deps) = (none, (activity id
      (r.sessions.entries.foldl (fun r e =>
        (r.settleActiveTime deps e.1 e.2).endSpan e.2.span none) r)).2) := by
    rw [activity, busySince, endSessions, JsMap.get_clear]
    rfl
  rw [hcleared, hall]
  split
  · rfl
  · next hnone =>
      have hget := JsMap.get_eq_none.mpr hnone
      rw [r.settled_of_unknown deps hget]
      rw [activity, busySince, hget, Option.bind_none]

/-- What a mark makes of the activity of a session. -/
def pressed (now : ℚ) (v : Option ℚ × ℚ) : Mark → Option ℚ × ℚ
  | .start => (some (v.1.getD now), v.2)
  | .stop => settled deps now v
  | .other => v

theorem activity_onSessionStatus (id sessionID : String) (status : SessionStatus) :
  activity id (r.onSessionStatus deps sessionID status) =
    pressed deps r.now (activity id r) ((HostEvent.sessionStatus sessionID status).mark id)
  := by
  have h := overlooks_activity id
  have hbusy : (r.session sessionID).2.busySince = (r.session sessionID).1.busySince sessionID := by
    rw [session_busySince, overlooks_busySince.session]
  have hnow : (r.session sessionID).1.now = r.now := by
    unfold session
    split <;> rfl
  have hsession := h.session r sessionID
  simp only [onSessionStatus]
  generalize r.session sessionID = p at hsession hbusy hnow ⊢
  obtain ⟨r', state⟩ := p
  simp only at hsession hbusy hnow ⊢
  rw [← hsession, ← hnow]
  cases status with
  | busy =>
      change (busySince (r'.setSession _ _) id, _) = pressed deps _ _ (if _ then _ else _)
      rw [busySince_setSession, hbusy]
      split
      · next heq =>
          subst heq
          rfl
      · rfl
  | retry attempt => apply h.emit
  | idle =>
      apply (activity_settleActiveTime deps _ id hbusy).trans
      change _ = pressed deps _ _ (if _ then _ else _)
      split <;> rfl

/-- A session that has not been busy is created. -/
theorem activity_onSessionCreated (id : String) (info : SessionInfo)
    (hnone : info.id = id → r.busySince id = none) :
  activity id (r.onSessionCreated deps info) = activity id r
  := by
  have h := overlooks_activity id
  simp only [onSessionCreated]
  rw [h.emit, h.measure deps _ _ rfl]
  generalize hp : r.startSpan deps _ = p
  have hactivity : activity id p.1 = activity id r := by
    rw [← hp, h.startSpan]
  rw [← hactivity]
  apply Prod.ext
  · apply (busySince_setSession _ _ _ id).trans
    split
    · next heq =>
        apply (hnone heq).symm.trans
        apply congr_arg Prod.fst hactivity.symm
    · rfl
  · rfl

/-- What an event makes of the activity of a session is what its mark does. -/
theorem activity_handle (id : String) {e : HostEvent}
    (hcreated : ∀ info, e = .sessionCreated info → info.id = id → r.busySince id = none) :
  activity id (r.handle deps e) = pressed deps r.now (activity id r) (e.mark id)
  := by
  have hstops : ∀ {sessionID : String} {v : Option ℚ × ℚ},
      v = (if sessionID = id then settled deps r.now (activity id r) else activity id r) →
      v = pressed deps r.now (activity id r) (if sessionID = id then .stop else .other) := by
    rintro sessionID v rfl
    split <;> rfl
  cases e with
  | sessionCreated info => apply activity_onSessionCreated deps r id info (hcreated info rfl)
  | sessionIdle sessionID => apply hstops (r.activity_onSessionIdle deps id sessionID)
  | sessionStatus sessionID status => apply activity_onSessionStatus
  | sessionDeleted sessionID => apply hstops (r.activity_forgetSession deps id sessionID)
  | serverInstanceDisposed => apply activity_shutdown
  | shutdown => apply activity_shutdown
  | sessionDiff => apply (overlooksFiles_activity id).onSessionDiff
  | permissionUpdated => apply (overlooksPermissions_activity id).permissions r _ r.autoDecided
  | permissionReplied => apply (overlooksPermissions_activity id).onPermissionReplied
  | permissionAsk => apply (overlooksPermissions_activity id).onPermissionAsk
  | _ => apply (overlooks_activity id).handle deps r rfl

/-! ### Runs -/

/-- The recorder follows a stopwatch, and reports what it shows if there is a meter. -/
def Follows (id : String) (w : Stopwatch) : Prop :=
  activity id r = (w.since, if deps.meter then w.total / 1000 else 0)

theorem Follows.press {deps : RecorderDeps} {r : Recorder} {id : String} {w : Stopwatch}
    (h : Follows deps r id w) {e : ℚ × HostEvent}
    (hcreated : ∀ info, e.2 = .sessionCreated info → info.id = id → w.since = none) :
  Follows deps (r.deliver deps e) id (w.press (e.1, e.2.mark id))
  := by
  have hnow : activity id { r with now := e.1 } = activity id r := by
    apply (overlooks_activity id).reports
  have hhandle := activity_handle deps { r with now := e.1 } id (e := e.2) (by
    intro info heq hid
    rw [← hcreated info heq hid]
    apply congr_arg Prod.fst (hnow.trans h))
  rw [hnow, h] at hhandle
  apply hhandle.trans
  cases e.2.mark id with
  | start => rfl
  | stop =>
      simp only [pressed, settled, Stopwatch.press]
      split
      · cases w.since with
        | none => simp
        | some t =>
            have hdiv : max 0 ((e.1 - t) / 1000) = max 0 (e.1 - t) / 1000 := by
              rw [← max_div_div_right (by norm_num), zero_div]
            simp only [Option.map_some, Option.getD_some, hdiv, add_div]
      · simp
  | other => rfl

theorem follows_run (id : String) {es : List (ℚ × HostEvent)}
    (hcreated : CreatedFirst id es) (htimes : (es.map Prod.fst).Pairwise (· ≤ ·)) :
  Follows deps (run deps es) id (Stopwatch.run (es.map fun e => (e.1, e.2.mark id)))
  := by
  induction es using List.reverseRecOn with
  | nil => simp [Follows, Stopwatch.run, Stopwatch.initial, run, activity, busySince, activeTime, initial, JsMap.get_empty]
  | append_singleton es e ih =>
      rw [List.map_append, List.pairwise_append] at htimes
      have hfollows := ih (by
        intro before t info after heq hid
        apply hcreated before t info (after ++ [e]) _ hid
        rw [heq, List.append_assoc, List.cons_append]) htimes.1
      rw [run, List.foldl_append, List.map_append, List.map_singleton, Stopwatch.run_append]
      apply hfollows.press
      intro info heq hid
      cases hsince : (Stopwatch.run (es.map fun e => (e.1, e.2.mark id))).since with
      | none => rfl
      | some t =>
          have hstart := Stopwatch.exists_start_of_since (by
            rw [Stopwatch.InOrder, List.map_map]
            apply htimes.1) hsince
          obtain ⟨e', he', hmark⟩ := List.mem_map.mp hstart
          apply absurd (congr_arg Prod.snd hmark)
          apply hcreated es e.1 info [] _ hid e' he'
          rw [← heq]

/-- The active time that has been reported for a session is the measure of the times for which it
has been busy. -/
theorem activeTime_eq_measure (id : String) (es : List (ℚ × HostEvent))
    (hcreated : CreatedFirst id es) (htimes : (es.map Prod.fst).Pairwise (· ≤ ·)) :
  ((run deps es).activeTime id : ℝ) =
    if deps.meter then (MeasureTheory.volume (busyTime id es)).toReal / 1000 else 0
  := by
  have hfollows := congr_arg Prod.snd (follows_run deps id hcreated htimes)
  rw [busyTime, ← Stopwatch.total_eq_volume (by
    rw [Stopwatch.InOrder, List.map_map]
    apply htimes)]
  change (run deps es).activeTime id = _ at hfollows
  rw [hfollows]
  split
  · push_cast
    rfl
  · norm_num

/-- A session is busy twice, once with a retry in between. -/
def sampleTurns : List (ℚ × HostEvent) :=
  [(0, .sessionCreated ⟨"s1", none, none⟩), (1000, .sessionStatus "s1" .busy),
    (2000, .sessionStatus "s1" (.retry none)), (3000, .sessionStatus "s1" .busy),
    (4000, .sessionStatus "s1" .idle), (4000, .sessionIdle "s1"),
    (6000, .sessionStatus "s1" .busy), (6500, .sessionDeleted "s1")]

theorem activeTime_eq_measure_turns :
  (run ⟨true, true, true, false, []⟩ sampleTurns).activeTime "s1" = 7 / 2 ∧
    ((run ⟨true, true, true, false, []⟩ sampleTurns).activeTime "s1" : ℝ) =
      (MeasureTheory.volume (busyTime "s1" sampleTurns)).toReal / 1000
  := by
  constructor
  · decide +kernel
  · apply activeTime_eq_measure ⟨true, true, true, false, []⟩ "s1" sampleTurns
    · intro before t info after heq _
      cases before with
      | nil => simp
      | cons e before =>
          have hmem : (t, HostEvent.sessionCreated info) ∈ sampleTurns.tail := by
            rw [heq]
            simp
          simp [sampleTurns] at hmem
    · simp only [sampleTurns, List.map_cons, List.map_nil, List.pairwise_cons]
      norm_num

end Recorder

end Telemetry
