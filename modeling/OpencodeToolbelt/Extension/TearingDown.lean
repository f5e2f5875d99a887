import OpencodeToolbelt.Extension.Feedback

/-!
# What feedback leaves behind

Once all requests are done and all calls have come back, nothing of a request is left in the
browser, as long as no call takes effect after what was to undo it.
-/

namespace Extension

namespace Feedback

variable {A : Type}

/-! ### States -/

/-- A request that is not done. -/
def Pending (s : Feedback A) (id : String) : Prop :=
  ∃ p, s.requests.get id = some p ∧ p.done = false

/-- A call to the browser is on its way. -/
def Awaits (s : Feedback A) (c : BrowserCall) : Prop := ∃ i, s.calls.get i = some c

/-- All requests are done, and all calls have come back. -/
structure AtRest (s : Feedback A) : Prop where
  done : ∀ id p, s.requests.get id = some p → p.done = true
  returned : ∀ i, s.calls.get i = none

/-- Nothing of a request is left. -/
structure TornDown (s : Feedback A) : Prop where
  overlays : s.overlays = []
  session : s.activeSession = none
  badge : s.badge = ""
  click : s.openPanelOnActionClick = false
  timer : ∀ id p, s.requests.get id = some p → p.timer = false
  listening : ∀ id p, s.requests.get id = some p → p.listening = false

/-- How often the result of a request has settled. -/
def settlements (s : Feedback A) (id : String) : ℕ := (s.results.map Prod.fst).count id

/-- The result of a request settles when the request is done, and only then. -/
def SettledOnce (s : Feedback A) : Prop :=
  ∀ id, s.settlements id = if s.done id then 1 else 0

/-! ### Calls in order -/

/-- A call is on its way, and is not the one given. -/
def AwaitsOther (s : Feedback A) (i : ℕ) (c : BrowserCall) : Prop :=
  ∃ j, j ≠ i ∧ s.calls.get j = some c

instance (s : Feedback A) (id : String) : Decidable (s.Pending id) :=
  decidable_of_iff ((s.requests.get id).any (fun p => !p.done) = true)
    (by simp [Option.any_eq_true, Pending])

instance (s : Feedback A) (c : BrowserCall) : Decidable (s.Awaits c) :=
  decidable_of_iff (c ∈ s.calls.values) JsMap.mem_values

instance (s : Feedback A) (i : ℕ) (c : BrowserCall) : Decidable (s.AwaitsOther i c) :=
  decidable_of_iff (c ∈ (s.calls.delete i).values) (by
    rw [JsMap.mem_values, AwaitsOther]
    apply exists_congr
    intro j
    rw [JsMap.get_delete]
    by_cases hj : j = i
    · simp [hj]
    · simp [hj])

/-- Whether a call that comes back finds what it takes for granted: what is set up will still be
torn down, and what tears it down does not fail. -/
def orderly (s : Feedback A) (i : ℕ) : BrowserCall → BrowserReply → Bool
  -- an overlay is painted before it is removed
  | .showing id, .resolved => decide (s.Pending id ∨ s.Awaits (.removing id))
  | .removing id, .rejected _ => decide (id ∉ s.overlays)
  -- the badge is raised before it is cleared
  | .flagging _, .resolved => decide (0 < s.attentionCount ∨ s.Awaits .unflagging)
  | .unflagging, .rejected _ =>
      decide (s.badge = "" ∨ 0 < s.attentionCount ∨ s.AwaitsOther i .unflagging)
  -- a request has no session after it is done
  | .capturing id _, .image _ => decide (s.Pending id)
  -- a click opens the panel only as long as there is a session
  | .routing _ _, .resolved => decide (s.activeSession ≠ none ∨ s.Awaits .restoring)
  | .restoring, .rejected _ =>
      decide (s.openPanelOnActionClick = false ∨ s.activeSession ≠ none ∨
        s.AwaitsOther i .restoring)
  | .enabling _ _, .rejected _ | .routing _ _, .rejected _ =>
      decide (s.openPanelOnActionClick = false ∨ s.Awaits .restoring)
  | _, _ => true

/-- The events whose calls come back in order. -/
def inOrder (s : Feedback A) : FeedbackEvent A → Bool
  | .settle i reply => (s.calls.get i).all fun c => s.orderly i c reply
  | _ => true

/-! ### The invariant -/

/-- What is set up belongs to a request that is not done, or will be torn down. -/
structure Kept (api : PanelApi) (s : Feedback A) : Prop where
  fresh : ∀ i c, s.calls.get i = some c → i < s.callSeq
  routes : ∀ id reason, s.Awaits (.routing id reason) → api = .sidePanel true
  counted : s.attentionCount = s.requests.countValues fun p => !p.done
  flagged : s.badge = "" ∨ 0 < s.attentionCount ∨ s.Awaits .unflagging
  painted : ∀ id ∈ s.overlays, s.Pending id ∨ s.Awaits (.removing id)
  session : ∀ session, s.activeSession = some session → s.Pending session.id
  routed : s.openPanelOnActionClick = false ∨
    (s.activeSession ≠ none ∨ s.Awaits .restoring) ∧ api = .sidePanel true
  timed : ∀ id p, s.requests.get id = some p → p.timer = !p.done ∧ p.listening = !p.done
  settled : s.SettledOnce

theorem kept_initial (api : PanelApi) :
  Kept api (initial : Feedback A)
  := by
  constructor
  · rintro i c ⟨⟩
  · rintro id reason ⟨i, ⟨⟩⟩
  · rfl
  · left
    rfl
  · rintro id ⟨⟩
  · rintro session ⟨⟩
  · left
    rfl
  · rintro id p ⟨⟩
  · intro id
    rfl

/-! ### Calls -/

/-- The calls of one state are among those of another, and the new ones set no routing up. -/
structure Grows (s s' : Feedback A) : Prop where
  fresh : ∀ i c, s'.calls.get i = some c → i < s'.callSeq
  awaits : ∀ c, s.Awaits c → s'.Awaits c
  routes : ∀ id reason, s'.Awaits (.routing id reason) → s.Awaits (.routing id reason)

theorem Grows.refl {s : Feedback A} (h : ∀ i c, s.calls.get i = some c → i < s.callSeq) :
  Grows s s
  := ⟨h, fun _ hc => hc, fun _ _ hc => hc⟩

theorem Grows.trans {s s' s'' : Feedback A} (h : Grows s s') (h' : Grows s' s'') :
  Grows s s''
  := by
  constructor
  · apply h'.fresh
  · intro c hc
    apply h'.awaits c (h.awaits c hc)
  · intro id reason hc
    apply h.routes id reason (h'.routes id reason hc)

theorem awaits_call_self (s : Feedback A) (c : BrowserCall) :
  (s.call c).Awaits c
  := ⟨s.callSeq, JsMap.get_set_self _ _ _⟩

theorem awaits_call {s : Feedback A} (hfresh : ∀ i c, s.calls.get i = some c → i < s.callSeq)
    {c : BrowserCall} (h : s.Awaits c) (c' : BrowserCall) :
  (s.call c').Awaits c
  := by
  obtain ⟨i, hi⟩ := h
  use i
  rw [call, JsMap.get_set_of_ne]
  · apply hi
  · apply Nat.ne_of_lt (hfresh i c hi)

theorem awaits_of_call {s : Feedback A} {c c' : BrowserCall} (h : (s.call c').Awaits c) :
  c = c' ∨ s.Awaits c
  := by
  obtain ⟨i, hi⟩ := h
  rw [call, JsMap.get_set] at hi
  split at hi
  · injection hi with heq
    apply Or.inl heq.symm
  · exact Or.inr ⟨i, hi⟩

theorem fresh_call {s : Feedback A} (hfresh : ∀ i c, s.calls.get i = some c → i < s.callSeq)
    (c' : BrowserCall) :
  ∀ i c, (s.call c').calls.get i = some c → i < (s.call c').callSeq
  := by
  intro i c hi
  rw [call, JsMap.get_set] at hi
  split at hi
  · next heq =>
      rw [heq]
      apply Nat.lt_succ_self
  · apply Nat.lt_succ_of_lt (hfresh i c hi)

theorem grows_call {s : Feedback A} (hfresh : ∀ i c, s.calls.get i = some c → i < s.callSeq)
    {c' : BrowserCall} (hc' : ∀ id reason, c' ≠ .routing id reason) :
  Grows s (s.call c')
  := by
  constructor
  · apply fresh_call hfresh
  · intro c hc
    apply awaits_call hfresh hc
  · intro id reason hc
    rcases awaits_of_call hc with heq | hs
    · apply absurd heq.symm (hc' id reason)
    · apply hs

theorem Kept.call {api : PanelApi} {s : Feedback A} (h : Kept api s) {c : BrowserCall}
    (hc : ∀ id reason, c = .routing id reason → api = .sidePanel true) :
  Kept api (s.call c)
  := by
  have hawaits : ∀ c', s.Awaits c' → (s.call c).Awaits c' := fun c' hc' =>
    awaits_call h.fresh hc' c
  constructor
  · apply fresh_call h.fresh
  · intro id reason hrouting
    rcases awaits_of_call hrouting with heq | hs
    · apply hc id reason heq.symm
    · apply h.routes id reason hs
  · apply h.counted
  · apply h.flagged.imp_right
    intro hor
    apply hor.imp_right (hawaits _)
  · intro id hid
    apply (h.painted id hid).imp_right (hawaits _)
  · apply h.session
  · apply h.routed.imp_right
    intro hand
    apply hand.imp_left
    intro hor
    apply hor.imp_right (hawaits _)
  · apply h.timed
  · apply h.settled

/-! ### The end of a request -/

/-- What clears the session of a request. -/
structure Clears (api : PanelApi) (s s' : Feedback A) (id : String) : Prop where
  grows : Grows s s'
  requests : s'.requests = s.requests
  attentionCount : s'.attentionCount = s.attentionCount
  results : s'.results = s.results
  badge : s'.badge = s.badge
  click : s'.openPanelOnActionClick = s.openPanelOnActionClick
  overlays : s'.overlays = s.overlays
  session : s'.activeSession = s.activeSession ∧
      (∀ session, s.activeSession = some session → session.id ≠ id) ∨
    s'.activeSession = none ∧ (api = .sidePanel true → s'.Awaits .restoring)

theorem clearFeedbackSession_clears (api : PanelApi) {s : Feedback A}
    (hfresh : ∀ i c, s.calls.get i = some c → i < s.callSeq) (id : String) :
  Clears api s (s.clearFeedbackSession api id) id
  := by
  rw [clearFeedbackSession]
  split
  · next hother =>
      refine ⟨.refl hfresh, rfl, rfl, rfl, rfl, rfl, rfl, Or.inl ⟨rfl, ?_⟩⟩
      intro session hsession
      rw [hsession] at hother
      apply of_decide_eq_true hother
  · have hcleared : Grows s { s with activeSession := none, activeTabId := none } :=
      ⟨hfresh, fun _ hc => hc, fun _ _ hc => hc⟩
    cases api with
    | sidePanel setPanelBehavior =>
        cases setPanelBehavior with
        | true =>
            have hrestoring : ∀ id reason, BrowserCall.restoring ≠ .routing id reason := by
              rintro _ _ ⟨⟩
            have hrestored := hcleared.trans (grows_call hcleared.fresh hrestoring)
            cases s.activeTabId with
            | none =>
                refine ⟨hrestored, rfl, rfl, rfl, rfl, rfl, rfl, Or.inr ⟨rfl, ?_⟩⟩
                intro _
                apply awaits_call_self
            | some tabId =>
                refine ⟨hrestored.trans (grows_call hrestored.fresh (by rintro _ _ ⟨⟩)), rfl, rfl,
                  rfl, rfl, rfl, rfl, Or.inr ⟨rfl, ?_⟩⟩
                intro _
                apply awaits_call hrestored.fresh (awaits_call_self _ _)
        | false =>
            have hnever : PanelApi.sidePanel false = .sidePanel true → False := by rintro ⟨⟩
            cases s.activeTabId with
            | none =>
                exact ⟨hcleared, rfl, rfl, rfl, rfl, rfl, rfl, Or.inr ⟨rfl, fun h => (hnever h).elim⟩⟩
            | some tabId =>
                refine ⟨hcleared.trans (grows_call hcleared.fresh (by rintro _ _ ⟨⟩)), rfl, rfl,
                  rfl, rfl, rfl, rfl, Or.inr ⟨rfl, fun h => (hnever h).elim⟩⟩
    | _ =>
        refine ⟨hcleared, rfl, rfl, rfl, rfl, rfl, rfl, Or.inr ⟨rfl, ?_⟩⟩
        rintro ⟨⟩

/-- What a request that was not done leaves when it is finished. -/
structure Finishes (api : PanelApi) (s s' : Feedback A) (id : String) (p : StartedFeedback)
    (r : FeedbackResult A) : Prop where
  grows : Grows s s'
  requests : s'.requests =
    s.requests.set id { p with done := true, timer := false, listening := false }
  attentionCount : s'.attentionCount = s.attentionCount - 1
  results : s'.results = s.results ++ [(id, r)]
  badge : s'.badge = s.badge
  click : s'.openPanelOnActionClick = s.openPanelOnActionClick
  overlays : s'.overlays = s.overlays
  hides : s'.Awaits (.removing id)
  clears : 0 < s.attentionCount - 1 ∨ s'.Awaits .unflagging
  session : s'.activeSession = s.activeSession ∧
      (∀ session, s.activeSession = some session → session.id ≠ id) ∨
    s'.activeSession = none ∧ (api = .sidePanel true → s'.Awaits .restoring)

theorem finish_finishes (api : PanelApi) {s : Feedback A}
    (hfresh : ∀ i c, s.calls.get i = some c → i < s.callSeq) {id : String} {p : StartedFeedback}
    (hp : s.requests.get id = some p) (hdone : p.done = false) (r : FeedbackResult A) :
  Finishes api s (s.finish api id r) id p r
  := by
  rw [finish, hp]
  dsimp only
  rw [hdone, if_neg Bool.false_ne_true]
  have hsettles : Grows s (s.settles id p r) := ⟨hfresh, fun _ hc => hc, fun _ _ hc => hc⟩
  have hhiding : ∀ id' reason, BrowserCall.removing id ≠ .routing id' reason := by rintro _ _ ⟨⟩
  have hhides := hsettles.trans (grows_call hsettles.fresh hhiding)
  have hclears := clearFeedbackSession_clears api hhides.fresh id
  generalize ((s.settles id p r).call (.removing id)).clearFeedbackSession api id = t at hclears
  have hgrows := hhides.trans hclears.grows
  have hhidden : t.Awaits (.removing id) := hclears.grows.awaits _ (awaits_call_self _ _)
  have hcount : t.attentionCount = s.attentionCount := hclears.attentionCount
  rw [clearAttention, hcount]
  dsimp only
  split
  · next hpositive =>
      exact ⟨⟨hgrows.fresh, hgrows.awaits, hgrows.routes⟩, hclears.requests, rfl, hclears.results,
        hclears.badge, hclears.click, hclears.overlays, hhidden, Or.inl hpositive, hclears.session⟩
  · have hlast : Grows t { t with attentionCount := s.attentionCount - 1 } :=
      ⟨hgrows.fresh, fun _ hc => hc, fun _ _ hc => hc⟩
    have hunflagging : ∀ id reason, BrowserCall.unflagging ≠ .routing id reason := by
      rintro _ _ ⟨⟩
    have hunflags := hlast.trans (grows_call hlast.fresh hunflagging)
    refine ⟨hgrows.trans hunflags, hclears.requests, rfl, hclears.results, hclears.badge,
      hclears.click, hclears.overlays, hunflags.awaits _ hhidden, Or.inr (awaits_call_self _ _), ?_⟩
    rcases hclears.session with hsame | ⟨hnone, hrestoring⟩
    · apply Or.inl hsame
    · right
      use hnone
      intro hapi
      apply hunflags.awaits _ (hrestoring hapi)

theorem pending_set {s : Feedback A} {id id' : String} (hne : id' ≠ id) (p : StartedFeedback)
    (h : s.Pending id') :
  ∃ q, (s.requests.set id p).get id' = some q ∧ q.done = false
  := by
  obtain ⟨q, hq, hdone⟩ := h
  use q
  rw [JsMap.get_set_of_ne _ hne]
  exact ⟨hq, hdone⟩

theorem Kept.finish {api : PanelApi} {s : Feedback A} (h : Kept api s) (id : String)
    (r : FeedbackResult A) :
  Kept api (s.finish api id r)
  := by
  cases hp : s.requests.get id with
  | none =>
      rw [Feedback.finish, hp]
      apply h
  | some p =>
      cases hdone : p.done with
      | true =>
          rw [Feedback.finish, hp]
          dsimp only
          rw [hdone, if_pos rfl]
          apply h
      | false =>
          have hfin := finish_finishes api h.fresh hp hdone r
          generalize s.finish api id r = t at hfin
          have hpending : ∀ id', id' ≠ id → s.Pending id' → t.Pending id' := by
            intro id' hne hpending
            rw [Pending, hfin.requests]
            apply pending_set hne _ hpending
          constructor
          · apply hfin.grows.fresh
          · intro id' reason hrouting
            apply h.routes id' reason (hfin.grows.routes id' reason hrouting)
          · have hcount := JsMap.countValues_set s.requests id
              { p with done := true, timer := false, listening := false } fun p => !p.done
            rw [hp, Option.any_some, hdone, ← h.counted] at hcount
            rw [hfin.attentionCount, hfin.requests]
            simp at hcount
            omega
          · right
            rw [hfin.attentionCount]
            apply hfin.clears
          · intro id' hid
            by_cases hne : id' = id
            · rw [hne]
              apply Or.inr hfin.hides
            · rw [hfin.overlays] at hid
              rcases h.painted id' hid with hs | hs
              · apply Or.inl (hpending id' hne hs)
              · apply Or.inr (hfin.grows.awaits _ hs)
          · intro session hsession
            rcases hfin.session with ⟨hsame, hother⟩ | ⟨hnone, -⟩
            · rw [hsame] at hsession
              apply hpending _ (hother session hsession) (h.session session hsession)
            · rw [hnone] at hsession
              cases hsession
          · rw [hfin.click]
            apply h.routed.imp_right
            rintro ⟨hkept, hapi⟩
            refine ⟨?_, hapi⟩
            rcases hfin.session with ⟨hsame, -⟩ | ⟨-, hrestoring⟩
            · rw [hsame]
              apply hkept.imp_right (hfin.grows.awaits _)
            · apply Or.inr (hrestoring hapi)
          · intro id' q hq
            rw [hfin.requests, JsMap.get_set] at hq
            split at hq
            · injection hq with heq
              rw [← heq]
              exact ⟨rfl, rfl⟩
            · apply h.timed id' q hq
          · intro id'
            have hbefore := h.settled id'
            rw [settlements, hfin.results, List.map_append, List.count_append, ← settlements,
              hbefore, done, done, hfin.requests, JsMap.get_set]
            by_cases hne : id' = id
            · rw [if_pos hne, hne, hp]
              simp [hdone]
            · rw [if_neg hne]
              simp [Ne.symm hne]

theorem Kept.unavailable {api : PanelApi} {s : Feedback A} (h : Kept api s) (id : String)
    (reason : Option String) :
  Kept api (s.unavailable api id reason)
  := by
  rw [Feedback.unavailable]
  split
  · apply h
  · apply h.finish

/-! ### The other changes -/

theorem Kept.start {api : PanelApi} {s : Feedback A} (h : Kept api s) (tabId : ℕ) {id : String}
    (hnew : s.requests.get id = none) (req : FeedbackRequest) :
  Kept api (s.startFeedback tabId id req)
  := by
  let t : Feedback A :=
    { s with
      requests := s.requests.set id ⟨tabId, req, false, true, true⟩
      attentionCount := s.attentionCount + 1 }
  have hpending : ∀ id', s.Pending id' → t.Pending id' := by
    intro id' hs
    have hne : id' ≠ id := by
      rintro rfl
      obtain ⟨q, hq, -⟩ := hs
      rw [hnew] at hq
      cases hq
    apply pending_set hne _ hs
  have ht : Kept api t := by
    constructor
    · apply h.fresh
    · apply h.routes
    · have hcount := JsMap.countValues_set s.requests id
        (⟨tabId, req, false, true, true⟩ : StartedFeedback) fun p => !p.done
      rw [hnew, ← h.counted] at hcount
      simp at hcount
      apply hcount.symm
    · right
      left
      apply Nat.succ_pos
    · intro id' hid
      apply (h.painted id' hid).imp_left (hpending id')
    · intro session hsession
      apply hpending _ (h.session session hsession)
    · apply h.routed
    · intro id' q hq
      rw [JsMap.get_set] at hq
      split at hq
      · injection hq with heq
        rw [← heq]
        exact ⟨rfl, rfl⟩
      · apply h.timed id' q hq
    · intro id'
      have hbefore := h.settled id'
      have hdone : t.done id' = s.done id' := by
        rw [done, done, JsMap.get_set]
        split
        · next heq =>
            rw [heq, hnew]
            rfl
        · rfl
      rw [hdone]
      apply hbefore
  apply Kept.call (Kept.call ht _)
  · rintro _ _ ⟨⟩
  · rintro _ _ ⟨⟩

/-- A session of a request that is not done. -/
theorem Kept.stash {api : PanelApi} {s : Feedback A} (h : Kept api s) {id : String}
    (hpending : s.Pending id) (screenshot : String) :
  Kept api (s.stash id screenshot)
  := by
  obtain ⟨p, hp, hdone⟩ := hpending
  rw [Feedback.stash, hp]
  constructor
  · apply h.fresh
  · apply h.routes
  · apply h.counted
  · apply h.flagged
  · apply h.painted
  · rintro session ⟨⟩
    exact ⟨p, hp, hdone⟩
  · apply h.routed.imp_right
    rintro ⟨-, hapi⟩
    use Or.inl (Option.some_ne_none _), hapi
  · apply h.timed
  · apply h.settled

/-- The session is given up while the toolbar behaves as it should, or will. -/
theorem Kept.dropSession {api : PanelApi} {s : Feedback A} (h : Kept api s) (id : String)
    (reason : Option String) (hclick : s.openPanelOnActionClick = false ∨ s.Awaits .restoring) :
  Kept api (s.dropSession api id reason)
  := by
  apply Kept.unavailable
  constructor
  · apply h.fresh
  · apply h.routes
  · apply h.counted
  · apply h.flagged
  · apply h.painted
  · rintro session ⟨⟩
  · rcases h.routed with hfalse | ⟨-, hapi⟩
    · apply Or.inl hfalse
    · apply hclick.imp_right
      intro hrestoring
      exact ⟨Or.inr hrestoring, hapi⟩
  · apply h.timed
  · apply h.settled

/-- Fewer overlays. -/
theorem Kept.unpaint {api : PanelApi} {s : Feedback A} (h : Kept api s) (id : String) :
  Kept api { s with overlays := s.overlays.filter (· ≠ id) }
  := by
  constructor
  · apply h.fresh
  · apply h.routes
  · apply h.counted
  · apply h.flagged
  · intro id' hid
    apply h.painted id' (List.mem_of_mem_filter hid)
  · apply h.session
  · apply h.routed
  · apply h.timed
  · apply h.settled

theorem Kept.paint {api : PanelApi} {s : Feedback A} (h : Kept api s) {id : String}
    (hid : s.Pending id ∨ s.Awaits (.removing id)) :
  Kept api { s with overlays := id :: s.overlays }
  := by
  constructor
  · apply h.fresh
  · apply h.routes
  · apply h.counted
  · apply h.flagged
  · intro id' hid'
    rcases List.mem_cons.mp hid' with rfl | hmem
    · apply hid
    · apply h.painted id' hmem
  · apply h.session
  · apply h.routed
  · apply h.timed
  · apply h.settled

theorem Kept.withBadge {api : PanelApi} {s : Feedback A} (h : Kept api s) (badge : String)
    (hbadge : badge = "" ∨ 0 < s.attentionCount ∨ s.Awaits .unflagging) :
  Kept api { s with badge }
  := ⟨h.fresh, h.routes, h.counted, hbadge, h.painted, h.session, h.routed, h.timed, h.settled⟩

theorem Kept.withClick {api : PanelApi} {s : Feedback A} (h : Kept api s) (click : Bool)
    (hclick : click = false ∨ (s.activeSession ≠ none ∨ s.Awaits .restoring) ∧
      api = .sidePanel true) :
  Kept api { s with openPanelOnActionClick := click }
  := ⟨h.fresh, h.routes, h.counted, h.flagged, h.painted, h.session, hclick, h.timed, h.settled⟩

/-- A call comes back, other than the last one that was to undo something. -/
theorem Kept.drop {api : PanelApi} {s : Feedback A} (h : Kept api s) {i : ℕ} {c : BrowserCall}
    (hi : s.calls.get i = some c)
    (hhiding : ∀ id, c = .removing id → id ∉ s.overlays)
    (hunflagging : c = .unflagging →
      s.badge = "" ∨ 0 < s.attentionCount ∨ s.AwaitsOther i .unflagging)
    (hrestoring : c = .restoring →
      s.openPanelOnActionClick = false ∨ s.activeSession ≠ none ∨ s.AwaitsOther i .restoring) :
  Kept api { s with calls := s.calls.delete i }
  := by
  have hother : ∀ c', s.AwaitsOther i c' →
      ({ s with calls := s.calls.delete i } : Feedback A).Awaits c' := by
    rintro c' ⟨j, hne, hj⟩
    use j
    rw [JsMap.get_delete_of_ne _ hne]
    apply hj
  have hawaits : ∀ c', c' ≠ c → s.Awaits c' →
      ({ s with calls := s.calls.delete i } : Feedback A).Awaits c' := by
    rintro c' hne ⟨j, hj⟩
    apply hother
    refine ⟨j, ?_, hj⟩
    rintro rfl
    rw [hi] at hj
    injection hj with heq
    apply hne heq.symm
  constructor
  · intro j c' hj
    apply h.fresh j c' (JsMap.get_of_get_delete hj)
  · rintro id reason ⟨j, hj⟩
    apply h.routes id reason ⟨j, JsMap.get_of_get_delete hj⟩
  · apply h.counted
  · by_cases hc : c = .unflagging
    · apply (hunflagging hc).imp_right
      intro hor
      apply hor.imp_right (hother _)
    · apply h.flagged.imp_right
      intro hor
      apply hor.imp_right (hawaits _ (Ne.symm hc))
  · intro id hid
    by_cases hc : c = .removing id
    · apply absurd hid (hhiding id hc)
    · apply (h.painted id hid).imp_right (hawaits _ (Ne.symm hc))
  · apply h.session
  · rcases h.routed with hfalse | ⟨hkept, hapi⟩
    · apply Or.inl hfalse
    · by_cases hc : c = .restoring
      · apply (hrestoring hc).imp_right
        intro hor
        exact ⟨hor.imp_right (hother _), hapi⟩
      · right
        exact ⟨hkept.imp_right (hawaits _ (Ne.symm hc)), hapi⟩
  · apply h.timed
  · apply h.settled

/-- A call that tears nothing down comes back. -/
theorem Kept.drop_setup {api : PanelApi} {s : Feedback A} (h : Kept api s) {i : ℕ}
    {c : BrowserCall} (hi : s.calls.get i = some c) (hhiding : ∀ id, c ≠ .removing id)
    (hunflagging : c ≠ .unflagging) (hrestoring : c ≠ .restoring) :
  Kept api { s with calls := s.calls.delete i }
  := by
  apply h.drop hi
  · intro id hc
    apply absurd hc (hhiding id)
  · intro hc
    apply absurd hc hunflagging
  · intro hc
    apply absurd hc hrestoring

theorem awaits_delete {s : Feedback A} {i : ℕ} {c : BrowserCall} (hi : s.calls.get i = some c)
    {c' : BrowserCall} (hne : c' ≠ c) (h : s.Awaits c') :
  ({ s with calls := s.calls.delete i } : Feedback A).Awaits c'
  := by
  obtain ⟨j, hj⟩ := h
  use j
  rw [JsMap.get_delete_of_ne]
  · apply hj
  · rintro rfl
    rw [hi] at hj
    injection hj with heq
    apply hne heq.symm

/-- What goes on after a call that comes back in order. -/
theorem Kept.resume {api : PanelApi} {s : Feedback A} (h : Kept api s) {i : ℕ} {c : BrowserCall}
    (hi : s.calls.get i = some c) {reply : BrowserReply} (haccepts : accepts c reply = true)
    (horder : s.orderly i c reply = true) :
  Kept api (({ s with calls := s.calls.delete i } : Feedback A).resume api c reply)
  := by
  cases c with
  | showing id =>
      have hdrop := h.drop_setup hi (by rintro _ ⟨⟩) (by rintro ⟨⟩) (by rintro ⟨⟩)
      cases reply with
      | resolved =>
          apply (h.paint (of_decide_eq_true horder)).drop_setup hi
          · rintro _ ⟨⟩
          · rintro ⟨⟩
          · rintro ⟨⟩
      | rejected reason =>
          rw [Feedback.resume]
          split
          · apply hdrop
          · rw [openSidePanelFallback]
            split
            · apply hdrop.unavailable
            · apply hdrop.call
              rintro _ _ ⟨⟩
      | _ => apply hdrop
  | locating id reason =>
      have hdrop := h.drop_setup hi (by rintro _ ⟨⟩) (by rintro ⟨⟩) (by rintro ⟨⟩)
      cases reply with
      | rejected _ => apply hdrop.unavailable
      | tab window =>
          apply hdrop.call
          rintro _ _ ⟨⟩
      | _ => apply hdrop
  | activating id reason =>
      have hdrop := h.drop_setup hi (by rintro _ ⟨⟩) (by rintro ⟨⟩) (by rintro ⟨⟩)
      cases reply with
      | rejected _ => apply hdrop.unavailable
      | resolved =>
          apply hdrop.call
          rintro _ _ ⟨⟩
      | _ => apply hdrop
  | capturing id reason =>
      have hdrop := h.drop_setup hi (by rintro _ ⟨⟩) (by rintro ⟨⟩) (by rintro ⟨⟩)
      cases reply with
      | rejected _ => apply hdrop.unavailable
      | image screenshot =>
          apply (hdrop.stash (of_decide_eq_true horder) screenshot).call
          rintro _ _ ⟨⟩
      | _ => apply hdrop
  | enabling id reason =>
      have hdrop := h.drop_setup hi (by rintro _ ⟨⟩) (by rintro ⟨⟩) (by rintro ⟨⟩)
      cases reply with
      | resolved =>
          rw [Feedback.resume]
          split
          · next hapi =>
              apply hdrop.call
              intro _ _ _
              apply hapi
          · apply hdrop
      | rejected _ =>
          apply hdrop.dropSession
          apply (of_decide_eq_true horder).imp_right (awaits_delete hi _)
          rintro ⟨⟩
      | _ => apply hdrop
  | routing id reason =>
      have hdrop := h.drop_setup hi (by rintro _ ⟨⟩) (by rintro ⟨⟩) (by rintro ⟨⟩)
      cases reply with
      | resolved =>
          have hclick := h.withClick true (Or.inr ⟨of_decide_eq_true horder, h.routes id reason ⟨i, hi⟩⟩)
          apply hclick.drop_setup hi
          · rintro _ ⟨⟩
          · rintro ⟨⟩
          · rintro ⟨⟩
      | rejected _ =>
          apply hdrop.dropSession
          apply (of_decide_eq_true horder).imp_right (awaits_delete hi _)
          rintro ⟨⟩
      | _ => apply hdrop
  | coloring tabId =>
      have hdrop := h.drop_setup hi (by rintro _ ⟨⟩) (by rintro ⟨⟩) (by rintro ⟨⟩)
      cases reply with
      | resolved =>
          apply hdrop.call
          rintro _ _ ⟨⟩
      | rejected _ =>
          apply hdrop.call
          rintro _ _ ⟨⟩
      | _ => apply hdrop
  | flagging tabId =>
      have hdrop := h.drop_setup hi (by rintro _ ⟨⟩) (by rintro ⟨⟩) (by rintro ⟨⟩)
      cases reply with
      | resolved =>
          have hbadge := (h.withBadge "?" (Or.inr (of_decide_eq_true horder))).drop_setup hi
            (by rintro _ ⟨⟩) (by rintro ⟨⟩) (by rintro ⟨⟩)
          apply hbadge.call
          rintro _ _ ⟨⟩
      | rejected _ =>
          apply hdrop.call
          rintro _ _ ⟨⟩
      | _ => apply hdrop
  | inspecting tabId =>
      have hdrop := h.drop_setup hi (by rintro _ ⟨⟩) (by rintro ⟨⟩) (by rintro ⟨⟩)
      cases reply with
      | tab window =>
          apply hdrop.call
          rintro _ _ ⟨⟩
      | _ => apply hdrop
  | selecting tabId window =>
      have hdrop := h.drop_setup hi (by rintro _ ⟨⟩) (by rintro ⟨⟩) (by rintro ⟨⟩)
      cases reply with
      | resolved =>
          cases window with
          | true =>
              apply hdrop.call
              rintro _ _ ⟨⟩
          | false => apply hdrop
      | _ => cases window <;> apply hdrop
  | removing id =>
      cases reply with
      | resolved =>
          apply (h.unpaint id).drop hi
          · rintro _ ⟨⟩ hid
            have hne := List.of_mem_filter hid
            simp at hne
          · rintro ⟨⟩
          · rintro ⟨⟩
      | rejected _ =>
          apply h.drop hi
          · rintro _ ⟨⟩
            apply of_decide_eq_true horder
          · rintro ⟨⟩
          · rintro ⟨⟩
      | _ => cases haccepts
  | unflagging =>
      cases reply with
      | resolved =>
          apply (h.withBadge "" (Or.inl rfl)).drop hi
          · rintro _ ⟨⟩
          · intro _
            apply Or.inl rfl
          · rintro ⟨⟩
      | rejected _ =>
          apply h.drop hi
          · rintro _ ⟨⟩
          · intro _
            apply of_decide_eq_true horder
          · rintro ⟨⟩
      | _ => cases haccepts
  | restoring =>
      cases reply with
      | resolved =>
          apply (h.withClick false (Or.inl rfl)).drop hi
          · rintro _ ⟨⟩
          · rintro ⟨⟩
          · intro _
            apply Or.inl rfl
      | rejected _ =>
          apply h.drop hi
          · rintro _ ⟨⟩
          · rintro ⟨⟩
          · intro _
            apply of_decide_eq_true horder
      | _ => cases haccepts
  | focusing =>
      have hdrop := h.drop_setup hi (by rintro _ ⟨⟩) (by rintro ⟨⟩) (by rintro ⟨⟩)
      cases reply <;> apply hdrop
  | retiring tabId =>
      have hdrop := h.drop_setup hi (by rintro _ ⟨⟩) (by rintro ⟨⟩) (by rintro ⟨⟩)
      cases reply <;> apply hdrop

theorem kept_handle {api : PanelApi} {s : Feedback A} {e : FeedbackEvent A} (h : Kept api s)
    (he : s.enabled e = true) (horder : s.inOrder e = true) :
  Kept api (s.handle api e)
  := by
  cases e with
  | start tabId id req =>
      apply h.start
      rw [enabled, Bool.not_eq_true', JsMap.has, Option.isSome_eq_false_iff, Option.isNone_iff_eq_none] at he
      apply he
  | message id responded annotations =>
      rw [handle]
      split
      · apply h.finish
      · apply h
  | timeout id => apply h.finish
  | cancel id => apply h.finish
  | dismiss id => apply h.unpaint
  | settle i reply =>
      rw [handle]
      cases hi : s.calls.get i with
      | none => apply h
      | some c =>
          rw [enabled, hi] at he
          rw [inOrder, hi] at horder
          apply h.resume hi he horder

/-- Nothing is left of requests whose calls come back in order: each result settles once, and at
rest everything is torn down. -/
theorem torn_down_of_in_order (api : PanelApi) (s : Feedback A)
    (hrun : ((system api).restrict fun s e => s.inOrder e = true).Reaches initial s) :
  s.SettledOnce ∧ (s.AtRest → s.TornDown)
  := by
  have hkept : Kept api s := by
    apply hrun.preserves _ (kept_initial api)
    rintro t e ht ⟨he, horder⟩
    apply kept_handle ht he horder
  use hkept.settled
  intro hrest
  have hpending : ∀ id, ¬s.Pending id := by
    rintro id ⟨p, hp, hdone⟩
    rw [hrest.done id p hp] at hdone
    cases hdone
  have hawaits : ∀ c, ¬s.Awaits c := by
    rintro c ⟨i, hi⟩
    rw [hrest.returned i] at hi
    cases hi
  have hsession : s.activeSession = none := by
    rw [Option.eq_none_iff_forall_ne_some]
    intro session hsession
    apply hpending _ (hkept.session session hsession)
  constructor
  · rw [List.eq_nil_iff_forall_not_mem]
    intro id hid
    rcases hkept.painted id hid with hs | hs
    · apply hpending id hs
    · apply hawaits _ hs
  · apply hsession
  · rcases hkept.flagged with hnone | hcount | hs
    · apply hnone
    · rw [hkept.counted, JsMap.countValues, List.countP_pos_iff] at hcount
      obtain ⟨p, hp, hnot⟩ := hcount
      obtain ⟨id, hid⟩ := JsMap.mem_values.mp hp
      rw [hrest.done id p hid] at hnot
      cases hnot
    · apply absurd hs (hawaits _)
  · rcases hkept.routed with hfalse | ⟨hsome | hs, -⟩
    · apply hfalse
    · apply absurd hsession hsome
    · apply absurd hs (hawaits _)
  · intro id p hp
    rw [(hkept.timed id p hp).1, hrest.done id p hp]
    rfl
  · intro id p hp
    rw [(hkept.timed id p hp).2, hrest.done id p hp]
    rfl

/-! ### Runs -/

def sampleRequest : FeedbackRequest := ⟨.confirm, none, none, 120000⟩

/-- A request that is answered in its overlay, after which all calls come back in order. -/
def sampleAnswer : List (FeedbackEvent Unit) :=
  [.start 1 "a" sampleRequest, .settle 0 .resolved, .settle 2 .resolved, .settle 1 .resolved,
    .settle 3 (.tab false), .message "a" true none, .settle 4 .resolved, .settle 5 .resolved,
    .settle 6 .resolved]

/-- A state without calls, all of whose requests are done, is at rest. -/
theorem atRest_of_values {s : Feedback A} (hcalls : s.calls.values = [])
    (hdone : s.requests.values.all StartedFeedback.done = true) :
  s.AtRest
  := by
  constructor
  · intro id p hp
    apply List.all_eq_true.mp hdone p (JsMap.mem_values.mpr ⟨id, hp⟩)
  · intro i
    rw [Option.eq_none_iff_forall_ne_some]
    intro c hc
    have hmem := JsMap.mem_values.mpr ⟨i, hc⟩
    rw [hcalls] at hmem
    cases hmem

theorem torn_down_of_answer :
  ∃ s : Feedback Unit, s.results.length = 1 ∧ s.SettledOnce ∧ s.TornDown
  := by
  obtain ⟨s, hrun, hs⟩ := ((system (.sidePanel true)).restrict fun s e =>
      s.inOrder e = true).exists_reaches_of_play sampleAnswer initial
    (fun s => s.results.length = 1 ∧ s.calls.values = [] ∧
      s.requests.values.all StartedFeedback.done = true) (by decide +kernel)
  obtain ⟨hresults, hcalls, hdone⟩ := of_decide_eq_true hs
  obtain ⟨hsettled, htorn⟩ := torn_down_of_in_order (.sidePanel true) s hrun
  exact ⟨s, hresults, hsettled, htorn (atRest_of_values hcalls hdone)⟩

/-- A request that is cancelled before its overlay is painted. -/
def sampleCancel : List (FeedbackEvent Unit) :=
  [.start 1 "a" sampleRequest, .cancel "a", .settle 2 .resolved, .settle 3 .resolved,
    .settle 1 .resolved, .settle 0 (.rejected none), .settle 4 (.rejected none)]

/-- The overlay of a request that was cancelled stays in the page. -/
theorem overlay_left_behind :
  ¬∀ s : Feedback Unit, (system (.sidePanel true)).Reaches initial s →
    s.SettledOnce ∧ (s.AtRest → s.TornDown)
  := by
  intro h
  obtain ⟨s, hrun, hs⟩ := (system (.sidePanel true)).exists_reaches_of_play sampleCancel
    (initial : Feedback Unit)
    (fun s => s.overlays = ["a"] ∧ s.calls.values = [] ∧
      s.requests.values.all StartedFeedback.done = true) (by decide +kernel)
  obtain ⟨hoverlays, hcalls, hdone⟩ := of_decide_eq_true hs
  have htorn := (h s hrun).2 (atRest_of_values hcalls hdone)
  rw [htorn.overlays] at hoverlays
  cases hoverlays

end Feedback

end Extension
