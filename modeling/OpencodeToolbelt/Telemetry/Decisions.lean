import OpencodeToolbelt.Data.Splits
import OpencodeToolbelt.Telemetry.Overlooking

/-!
# Decisions on permissions

A permission that the hook decides is counted at once, and one that is asked for is when its reply
arrives. The reply of a permission that the hook has decided is not counted, unless the deletion of
its session has come in between.
-/

namespace Telemetry

/-! ### One permission -/

/-- What an event is to a permission. -/
inductive PermissionMark where
  | decided
  | updated (sessionID : String)
  | replied
  | deleted (sessionID : String)
  | other
  deriving DecidableEq

def PermissionMark.isUpdate : PermissionMark → Bool
  | .updated _ => true
  | _ => false

/-- What is remembered of a permission, and how often it has been counted. -/
structure PermissionView where
  auto : Bool
  owner : Option String
  count : ℕ

namespace PermissionView

def initial : PermissionView := ⟨false, none, 0⟩

/-- What a mark makes of a permission, where it counts as much as is given. -/
def step (m : ℕ) (v : PermissionView) : PermissionMark → PermissionView
  | .decided => { v with auto := true, count := v.count + m }
  | .updated sessionID => { v with owner := some sessionID }
  | .replied =>
      if v.auto then { v with auto := false } else { v with owner := none, count := v.count + m }
  | .deleted sessionID =>
      if v.owner = some sessionID then { v with auto := false, owner := none } else v
  | .other => v

def run (m : ℕ) (l : List PermissionMark) : PermissionView := l.foldl (step m) initial

/-- The permission is remembered to be decided, and to be one of the session. -/
def Holds (v : PermissionView) (sessionID : String) : Prop :=
  v.auto = true ∧ v.owner = some sessionID

/-- A mark that may come after others: there is one decision, one update and one reply, and the
decision comes before the reply. -/
def Follows (before : List PermissionMark) : PermissionMark → Prop
  | .decided => .decided ∉ before ∧ .replied ∉ before
  | .updated _ => ∀ x ∈ before, x.isUpdate = false
  | .replied => .replied ∉ before
  | _ => True

def Orderly (l : List PermissionMark) : Prop :=
  ∀ before x after, l = before ++ x :: after → Follows before x

instance (before : List PermissionMark) (x : PermissionMark) : Decidable (Follows before x) := by
  cases x <;> unfold Follows <;> infer_instance

instance (l : List PermissionMark) : Decidable (Orderly l) :=
  decidable_of_iff' _ List.forall_split_iff

/-- The session of a permission that is remembered to be decided is deleted. -/
def Cut (m : ℕ) (l : List PermissionMark) : Prop :=
  ∃ before x after, l = before ++ x :: after ∧
    ∃ sessionID, x = .deleted sessionID ∧ (run m before).Holds sessionID

/-- It is deleted before the reply. -/
def Severed (m : ℕ) (l : List PermissionMark) : Prop :=
  ∃ before x after, l = before ++ x :: after ∧
    .replied ∈ after ∧ ∃ sessionID, x = .deleted sessionID ∧ (run m before).Holds sessionID

variable {m : ℕ} {l : List PermissionMark} {x : PermissionMark}

theorem run_append (m : ℕ) (l : List PermissionMark) (x : PermissionMark) :
  run m (l ++ [x]) = (run m l).step m x
  := List.foldl_concat _ _ _ _

theorem Orderly.of_append (h : Orderly (l ++ [x])) :
  Orderly l
  := by
  intro before y after heq
  apply h before y (after ++ [x])
  rw [heq, List.append_assoc, List.cons_append]

theorem cut_append_iff :
  Cut m (l ++ [x]) ↔ (∃ sessionID, x = .deleted sessionID ∧ (run m l).Holds sessionID) ∨ Cut m l
  := List.exists_split_concat_iff

theorem severed_append_iff :
  Severed m (l ++ [x]) ↔ (x = .replied ∧ Cut m l) ∨ Severed m l
  := by
  rw [Severed, List.exists_split_concat_iff]
  constructor
  · rintro (⟨hmem, -⟩ | ⟨before, y, after, heq, hmem, hcut⟩)
    · cases hmem
    · rcases List.mem_append.mp hmem with hmem | hmem
      · right
        use before, y, after
      · left
        use (List.mem_singleton.mp hmem).symm, before, y, after
  · rintro (⟨rfl, before, y, after, heq, hcut⟩ | ⟨before, y, after, heq, hmem, hcut⟩)
    · right
      use before, y, after, heq, List.mem_append_right _ (List.mem_singleton_self _)
    · right
      use before, y, after, heq, List.mem_append_left _ hmem

/-- How a permission stands after some events. -/
structure Stands (m : ℕ) (l : List PermissionMark) (v : PermissionView) : Prop where
  auto_iff : v.auto = true ↔ .decided ∈ l ∧ .replied ∉ l ∧ ¬ Cut m l
  decided : Cut m l → .decided ∈ l
  severed : Severed m l → .replied ∈ l ∧ Cut m l
  once : ¬ Severed m l → v.count = if .decided ∈ l ∨ .replied ∈ l then m else 0
  twice : Severed m l → v.count = m + m

theorem stands_initial (m : ℕ) :
  Stands m [] initial
  := by
  have hcut : ¬ Cut m [] := by
    rintro ⟨before, x, after, heq, -⟩
    cases before <;> cases heq
  have hsevered : ¬ Severed m [] := by
    rintro ⟨before, x, after, heq, -⟩
    cases before <;> cases heq
  constructor
  · simp [initial]
  · intro h
    apply absurd h hcut
  · intro h
    apply absurd h hsevered
  · intro _
    simp [initial]
  · intro h
    apply absurd h hsevered

variable {v : PermissionView}

/-- A permission is not severed before its reply. -/
theorem Stands.not_severed (h : Stands m l v) (hnone : .replied ∉ l) :
  ¬ Severed m l
  := fun hsevered => hnone (h.severed hsevered).1

/-- What neither decides a permission nor replies leaves its count alone. -/
theorem Stands.quiet (h : Stands m l v) (hdecided : x ≠ .decided) (hreplied : x ≠ .replied)
    {v' : PermissionView} (hcount : v'.count = v.count)
    (hauto : v'.auto = true ↔ .decided ∈ l ∧ .replied ∉ l ∧ ¬ Cut m (l ++ [x]))
    (hcut : Cut m (l ++ [x]) → .decided ∈ l) :
  Stands m (l ++ [x]) v'
  := by
  have hmem : ∀ y, y ≠ x → (y ∈ l ++ [x] ↔ y ∈ l) := by
    intro y hne
    simp [hne]
  have hsevered : Severed m (l ++ [x]) ↔ Severed m l := by
    rw [severed_append_iff]
    simp [hreplied]
  constructor
  · rw [hmem _ (Ne.symm hdecided), hmem _ (Ne.symm hreplied)]
    apply hauto
  · rw [hmem _ (Ne.symm hdecided)]
    apply hcut
  · rw [hsevered, hmem _ (Ne.symm hreplied), cut_append_iff]
    intro hs
    use (h.severed hs).1, Or.inr (h.severed hs).2
  · simp only [hsevered, hmem _ (Ne.symm hdecided), hmem _ (Ne.symm hreplied), hcount]
    apply h.once
  · rw [hsevered, hcount]
    apply h.twice

theorem Stands.decision (h : Stands m l v) (hnew : .decided ∉ l) (hnone : .replied ∉ l) :
  Stands m (l ++ [.decided]) (v.step m .decided)
  := by
  have hcut : ¬ Cut m l := mt h.decided hnew
  have hsevered := h.not_severed hnone
  constructor
  · simp [step, cut_append_iff, hnone, hcut]
  · simp
  · simp [severed_append_iff, hsevered]
  · intro _
    simp [step, h.once hsevered, hnew, hnone]
  · simp [severed_append_iff, hsevered]

theorem Stands.reply (h : Stands m l v) (hnone : .replied ∉ l) :
  Stands m (l ++ [.replied]) (v.step m .replied)
  := by
  have hsevered := h.not_severed hnone
  have hcount := h.once hsevered
  have hsevered' : Severed m (l ++ [.replied]) ↔ Cut m l := by
    rw [severed_append_iff]
    simp [hsevered]
  have hcut' : Cut m (l ++ [.replied]) ↔ Cut m l := by
    rw [cut_append_iff]
    simp
  simp only [step]
  split
  · next hauto =>
      obtain ⟨hdecided, -, hcut⟩ := h.auto_iff.mp hauto
      constructor
      · simp
      · simp [hcut', hcut]
      · simp [hsevered', hcut]
      · simp [hcount, hdecided]
      · simp [hsevered', hcut]
  · next hauto =>
      have hcut : Cut m l ↔ .decided ∈ l := by
        use h.decided
        intro hdecided
        by_contra hcut
        apply hauto (h.auto_iff.mpr ⟨hdecided, hnone, hcut⟩)
      constructor
      · simp [hauto]
      · simp [hcut', hcut]
      · simp [hsevered', hcut']
      · rw [hsevered', hcut]
        intro hnew
        simp [hcount, hnew, hnone]
      · rw [hsevered', hcut]
        intro hdecided
        simp [hcount, hdecided]

theorem Stands.delete (h : Stands m l v) (hv : v = run m l) (sessionID : String) :
  Stands m (l ++ [.deleted sessionID]) (v.step m (.deleted sessionID))
  := by
  have hcut : Cut m (l ++ [.deleted sessionID]) ↔ v.Holds sessionID ∨ Cut m l := by
    rw [cut_append_iff, hv]
    simp
  have hdecided : Cut m (l ++ [.deleted sessionID]) → .decided ∈ l := by
    rw [hcut]
    rintro (hholds | hcut)
    · apply (h.auto_iff.mp hholds.1).1
    · apply h.decided hcut
  simp only [step]
  split
  · next howner =>
      apply h.quiet
      · simp
      · simp
      · rfl
      · rw [hcut]
        constructor
        · rintro ⟨⟩
        · rintro ⟨hdecided, hnone, hcut⟩
          rw [not_or] at hcut
          apply absurd _ hcut.1
          use h.auto_iff.mpr ⟨hdecided, hnone, hcut.2⟩
      · apply hdecided
  · next howner =>
      apply h.quiet
      · simp
      · simp
      · rfl
      · rw [hcut, h.auto_iff]
        simp [Holds, howner]
      · apply hdecided

theorem stands_run (h : Orderly l) :
  Stands m l (run m l)
  := by
  induction l using List.reverseRecOn with
  | nil => apply stands_initial
  | append_singleton l x ih =>
      have hl := ih h.of_append
      have hlast := h l x [] rfl
      rw [run_append]
      cases x with
      | decided => apply hl.decision hlast.1 hlast.2
      | replied => apply hl.reply hlast
      | deleted sessionID => apply hl.delete rfl
      | updated sessionID =>
          have hcut : Cut m (l ++ [.updated sessionID]) ↔ Cut m l := by
            rw [cut_append_iff]
            simp
          apply hl.quiet
          · simp
          · simp
          · rfl
          · rw [hcut]
            apply hl.auto_iff
          · rw [hcut]
            apply hl.decided
      | other =>
          have hcut : Cut m (l ++ [.other]) ↔ Cut m l := by
            rw [cut_append_iff]
            simp
          apply hl.quiet
          · simp
          · simp
          · rfl
          · rw [hcut]
            apply hl.auto_iff
          · rw [hcut]
            apply hl.decided

/-- A permission counts once when it is decided or replied to, unless it is severed. -/
theorem count_eq_iff (hm : 0 < m) (h : Orderly l) :
  (run m l).count = (if .decided ∈ l ∨ .replied ∈ l then m else 0) ↔ ¬ Severed m l
  := by
  have hstands := stands_run (m := m) h
  constructor
  · intro hcount hsevered
    have htwice := hstands.twice hsevered
    rw [hcount, if_pos (Or.inr (hstands.severed hsevered).1)] at htwice
    omega
  · apply hstands.once

end PermissionView

/-! ### The recorder -/

/-- What an event is to a permission. -/
def HostEvent.permissionMark (p : String) : HostEvent → PermissionMark
  | .permissionAsk id _ _ status =>
      if id = p ∧ (nonEmpty status).any (· ≠ "ask") then .decided else .other
  | .permissionUpdated id _ sessionID => if id = p then .updated sessionID else .other
  | .permissionReplied _ permissionID _ => if permissionID = p then .replied else .other
  | .sessionDeleted sessionID => .deleted sessionID
  | _ => .other

namespace Recorder

/-- How often a permission has been counted. -/
def decisions (r : Recorder) (p : String) : ℕ :=
  r.measurements.countP fun m => m.instrument = .permissionDecisions ∧ m.source = .permission p

def permissionView (p : String) (r : Recorder) : PermissionView where
  auto := r.autoDecided.has p
  owner := (r.permissions.get p).map PermissionState.sessionID
  count := r.decisions p

theorem permissionView_cons (p : String) (r : Recorder) {m : Measurement}
    (hm : m.instrument ≠ .permissionDecisions) :
  permissionView p { r with measurements := m :: r.measurements } = permissionView p r
  := by
  have hcount : decisions { r with measurements := m :: r.measurements } p = r.decisions p := by
    rw [decisions, List.countP_cons_of_neg]
    · rfl
    · simp [hm]
  rw [permissionView, hcount]
  rfl

theorem overlooks_permissionView (p : String) :
  Overlooks (permissionView p)
  where
  reports _ _ _ _ _ _ _ _ := rfl
  marks _ _ _ _ _ _ _ := rfl
  measurement r m hm := by
    apply permissionView_cons
    intro heq
    rw [heq] at hm
    cases hm
  sessions _ _ _ := rfl

theorem overlooksFiles_permissionView (p : String) :
  OverlooksFiles (permissionView p)
  where
  toOverlooks := overlooks_permissionView p
  diffs _ _ := rfl
  lines r m hm := by
    apply permissionView_cons
    simp [hm]

theorem overlooksActivity_permissionView (p : String) :
  OverlooksActivity (permissionView p)
  where
  toOverlooks := overlooks_permissionView p
  activity _ _ := rfl
  activeTime r m hm := by
    apply permissionView_cons
    simp [hm]

variable (deps : RecorderDeps) (r : Recorder)

/-- How much a decision counts. -/
def weight : ℕ := if deps.meter then 1 else 0

/-- A decision counts for its permission, and for no other one. -/
theorem permissionView_recordDecision (p sessionID permissionID decision source : String)
    (tool : Option String) :
  permissionView p (r.recordDecision deps sessionID permissionID decision source tool) =
    { permissionView p r with
      count := r.decisions p + if permissionID = p then weight deps else 0 }
  := by
  have h := overlooks_permissionView p
  simp only [recordDecision]
  rw [h.emit]
  have hsession := h.session r sessionID
  generalize (r.session sessionID).1 = r' at hsession
  have hcount : r'.decisions p = r.decisions p := congr_arg PermissionView.count hsession
  rw [← hsession, ← hcount]
  unfold measure weight
  split
  · by_cases heq : permissionID = p
    · simp [permissionView, decisions, heq]
    · simp [permissionView, decisions, heq]
  · simp [permissionView]

theorem permissionView_onPermissionAsk (p id type sessionID : String) (status : Option String) :
  permissionView p (r.onPermissionAsk deps id type sessionID status) =
    (permissionView p r).step (weight deps)
      (if id = p ∧ (nonEmpty status).any (· ≠ "ask") then .decided else .other)
  := by
  unfold onPermissionAsk
  generalize nonEmpty status = decision
  cases decision with
  | none =>
      rw [if_neg (by simp)]
      rfl
  | some decision =>
      dsimp only
      split
      · next hask =>
          rw [if_neg (by simp [hask])]
          rfl
      · next hask =>
          rw [permissionView_recordDecision]
          by_cases heq : id = p
          · subst heq
            rw [if_pos rfl, if_pos ⟨rfl, by simp [hask]⟩]
            simp [PermissionView.step, permissionView, JsMap.has, decisions]
          · rw [if_neg heq, if_neg (fun h => heq h.1)]
            simp [PermissionView.step, permissionView, JsMap.has, JsMap.get_set, Ne.symm heq,
              decisions]

theorem permissionView_onPermissionReplied (p sessionID permissionID response : String) :
  permissionView p (r.onPermissionReplied deps sessionID permissionID response) =
    (permissionView p r).step (weight deps) (if permissionID = p then .replied else .other)
  := by
  unfold onPermissionReplied
  by_cases heq : permissionID = p
  · subst heq
    rw [if_pos rfl, PermissionView.step]
    split
    · next hauto =>
        have hview : (permissionView permissionID r).auto = true := hauto
        rw [if_pos hview]
        simp [permissionView, JsMap.has, decisions]
    · next hauto =>
        have hview : ¬ (permissionView permissionID r).auto = true := hauto
        rw [if_neg hview]
        dsimp only
        rw [permissionView_recordDecision]
        simp [permissionView, decisions]
  · rw [if_neg heq, PermissionView.step]
    split
    · simp [permissionView, JsMap.has, JsMap.get_delete, Ne.symm heq, decisions]
    · dsimp only
      rw [permissionView_recordDecision]
      simp [permissionView, JsMap.get_delete, heq, Ne.symm heq, decisions]

theorem permissionView_onPermissionUpdated (p id type sessionID : String) :
  permissionView p (r.onPermissionUpdated id type sessionID) =
    (permissionView p r).step (weight deps) (if id = p then .updated sessionID else .other)
  := by
  unfold onPermissionUpdated
  by_cases heq : id = p
  · subst heq
    rw [if_pos rfl]
    simp [PermissionView.step, permissionView, decisions]
  · rw [if_neg heq]
    simp [PermissionView.step, permissionView, JsMap.get_set, Ne.symm heq, decisions]

theorem permissionView_dropRecords (p sessionID : String) :
  permissionView p (r.dropRecords sessionID) =
    (permissionView p r).step (weight deps) (.deleted sessionID)
  := by
  have hforgotten : p ∈ (r.permissions.entries.filter
      (·.2.sessionID = sessionID)).map Prod.fst ↔ (permissionView p r).owner = some sessionID := by
    rw [permissionView, Option.map_eq_some_iff]
    simp only [List.mem_map, List.mem_filter, decide_eq_true_eq, Prod.exists, exists_and_right,
      exists_eq_right, JsMap.get_eq_some]
  have hauto : (r.dropRecords sessionID).autoDecided.get p =
      if (permissionView p r).owner = some sessionID then none else r.autoDecided.get p := by
    simp only [dropRecords, JsMap.get_filter, hforgotten]
    split
    · next howner => simp [howner]
    · next howner =>
        simp only [howner, not_false_eq_true, decide_true]
        cases r.autoDecided.get p <;> rfl
  rw [permissionView, JsMap.has, hauto, PermissionView.step]
  split
  · next howner =>
      obtain ⟨permission, hget, rfl⟩ := Option.map_eq_some_iff.mp howner
      simp [dropRecords, permissionView, hget, decisions]
  · next howner =>
      have hkept : ∀ permission, r.permissions.get p = some permission →
          permission.sessionID ≠ sessionID := by
        rintro permission hget rfl
        apply howner
        rw [permissionView, hget, Option.map_some]
      cases hget : r.permissions.get p with
      | none => simp [dropRecords, permissionView, hget, decisions, JsMap.has]
      | some permission =>
          simp [dropRecords, permissionView, hget, hkept permission hget, decisions, JsMap.has]

theorem permissionView_forgetSession (p sessionID : String) :
  permissionView p (r.forgetSession deps sessionID) =
    (permissionView p r).step (weight deps) (.deleted sessionID)
  := by
  have h := overlooksActivity_permissionView p
  have hview : permissionView p ((((r.dropSession deps sessionID).dropPending sessionID).forgetChats
      sessionID).forgetTools sessionID) = permissionView p r := by
    rw [h.forgetTools, h.forgetChats, h.dropPending, h.dropSession]
  simp only [forgetSession]
  rw [h.pruneCompleted, ← hview]
  apply permissionView_dropRecords

/-- What an event makes of a permission is what its mark does. -/
theorem permissionView_handle (p : String) (e : HostEvent) :
  permissionView p (r.handle deps e) =
    (permissionView p r).step (weight deps) (e.permissionMark p)
  := by
  have hactivity := overlooksActivity_permissionView p
  cases e with
  | permissionAsk => apply permissionView_onPermissionAsk
  | permissionReplied => apply permissionView_onPermissionReplied
  | sessionDeleted => apply permissionView_forgetSession
  | permissionUpdated => apply permissionView_onPermissionUpdated
  | sessionDiff => apply (overlooksFiles_permissionView p).onSessionDiff
  | sessionCreated => apply hactivity.onSessionCreated
  | sessionIdle => apply hactivity.onSessionIdle
  | sessionStatus => apply hactivity.onSessionStatus
  | serverInstanceDisposed => apply hactivity.shutdown
  | shutdown => apply hactivity.shutdown
  | _ => apply (overlooks_permissionView p).handle deps r rfl

/-! ### Runs -/

/-- What the events are to a permission. -/
def permissionMarks (p : String) (es : List (ℚ × HostEvent)) : List PermissionMark :=
  es.map fun e => e.2.permissionMark p

theorem permissionView_run (p : String) (es : List (ℚ × HostEvent)) :
  permissionView p (run deps es) = PermissionView.run (weight deps) (permissionMarks p es)
  := by
  induction es using List.reverseRecOn with
  | nil => rfl
  | append_singleton es e ih =>
      rw [permissionMarks, List.map_append, List.map_singleton, PermissionView.run_append,
        ← permissionMarks, ← ih, run, List.foldl_append]
      apply permissionView_handle deps { run deps es with now := e.1 }

/-- When a session is deleted, no reply is still to come to a permission of it that is remembered
to have been decided by the hook. -/
def NoneSevered (es : List (ℚ × HostEvent)) : Prop :=
  ∀ before e after, es = before ++ e :: after → ∀ sessionID, e.2 = .sessionDeleted sessionID →
    ∀ p, (run deps before).autoDecided.has p = true →
      ((run deps before).permissions.get p).map PermissionState.sessionID = some sessionID →
        .replied ∉ permissionMarks p after

theorem permissionMark_eq_deleted {p sessionID : String} {e : HostEvent} :
  e.permissionMark p = .deleted sessionID ↔ e = .sessionDeleted sessionID
  := by
  constructor
  · intro h
    cases e with
    | sessionDeleted =>
        cases h
        rfl
    | permissionAsk =>
        simp only [HostEvent.permissionMark] at h
        split at h <;> cases h
    | permissionUpdated =>
        simp only [HostEvent.permissionMark] at h
        split at h <;> cases h
    | permissionReplied =>
        simp only [HostEvent.permissionMark] at h
        split at h <;> cases h
    | _ => cases h
  · rintro rfl
    rfl

/-- A permission is severed when such a session is deleted. -/
theorem noneSevered_iff (es : List (ℚ × HostEvent)) :
  NoneSevered deps es ↔ ∀ p, ¬ PermissionView.Severed (weight deps) (permissionMarks p es)
  := by
  constructor
  · rintro h p ⟨before, x, after, heq, hreplied, sessionID, rfl, hauto, howner⟩
    obtain ⟨before, rest, rfl, rfl, hrest⟩ := List.map_eq_append_iff.mp heq
    obtain ⟨e, after, rfl, hmark, rfl⟩ := List.map_eq_cons_iff.mp hrest
    change (PermissionView.run _ (permissionMarks p before)).auto = true at hauto
    change (PermissionView.run _ (permissionMarks p before)).owner = _ at howner
    rw [← permissionView_run] at hauto howner
    apply h before e after rfl sessionID (permissionMark_eq_deleted.mp hmark) p hauto howner
    apply hreplied
  · rintro h before e after rfl sessionID he p hauto howner hreplied
    apply h p
    use permissionMarks p before, .deleted sessionID, permissionMarks p after
    constructor
    · rw [permissionMarks, List.map_append, List.map_cons, permissionMark_eq_deleted.mpr he]
      rfl
    · use hreplied, sessionID, rfl
      rw [← permissionView_run]
      use hauto
      apply howner

/-- Every permission that the hook decides or that is replied to is counted once, exactly when no
session is deleted between the decision of the hook and the reply. -/
theorem decided_once_iff (es : List (ℚ × HostEvent))
    (h : ∀ p, PermissionView.Orderly (permissionMarks p es)) :
  (∀ p, (run deps es).decisions p =
      if .decided ∈ permissionMarks p es ∨ .replied ∈ permissionMarks p es then weight deps else 0) ↔
    (deps.meter = true → NoneSevered deps es)
  := by
  have hview : ∀ p, (run deps es).decisions p =
      (PermissionView.run (weight deps) (permissionMarks p es)).count := by
    intro p
    rw [← permissionView_run]
    rfl
  simp only [hview, noneSevered_iff]
  cases hmeter : deps.meter with
  | true =>
      have hpos : 0 < weight deps := by simp [weight, hmeter]
      simp only [PermissionView.count_eq_iff hpos (h _), true_imp_iff]
  | false =>
      simp only [reduceCtorEq, false_imp_iff, iff_true]
      intro p
      have hzero : weight deps = 0 := by simp [weight, hmeter]
      have hstands := PermissionView.stands_run (m := weight deps) (h p)
      by_cases hsevered : PermissionView.Severed (weight deps) (permissionMarks p es)
      · rw [hstands.twice hsevered, hzero, ite_self]
      · apply hstands.once hsevered

/-- A permission that the hook decides gets its reply, and its session is deleted. -/
def sampleDecision : List (ℚ × HostEvent) :=
  [(0, .permissionAsk "p1" "bash" "s1" (some "allow")), (1, .permissionUpdated "p1" "bash" "s1"),
    (2, .permissionReplied "s1" "p1" "once"), (3, .sessionDeleted "s1")]

theorem decided_once_deleted :
  (run ⟨true, true, true, false, []⟩ sampleDecision).decisions "p1" =
    if .decided ∈ permissionMarks "p1" sampleDecision ∨
        .replied ∈ permissionMarks "p1" sampleDecision
      then weight ⟨true, true, true, false, []⟩ else 0
  := by
  have horderly : ∀ p, PermissionView.Orderly (permissionMarks p sampleDecision) := by
    intro p
    by_cases hp : "p1" = p
    · subst hp
      decide +kernel
    · have hmarks : permissionMarks p sampleDecision = [.other, .other, .other, .deleted "s1"] := by
        simp [permissionMarks, sampleDecision, HostEvent.permissionMark, hp]
      rw [hmarks]
      decide
  have hsevered : NoneSevered ⟨true, true, true, false, []⟩ sampleDecision := by
    intro before e after heq sessionID he p _ _ hreplied
    rcases before with _ | ⟨_, _ | ⟨_, _ | ⟨_, before⟩⟩⟩
    · cases heq
      cases he
    · cases heq
      cases he
    · cases heq
      cases he
    · cases before with
      | nil =>
          cases heq
          cases hreplied
      | cons _ before => simp [sampleDecision] at heq
  apply (decided_once_iff ⟨true, true, true, false, []⟩ sampleDecision horderly).mpr _ "p1"
  intro _
  apply hsevered

/-- A permission that the hook has decided is counted again when its reply comes after the deletion
of its session. -/
theorem late_reply_counts_again :
  ¬ ∀ (deps : RecorderDeps) (es : List (ℚ × HostEvent)), deps.meter = true →
    (∀ p, PermissionView.Orderly (permissionMarks p es)) →
      ∀ p, (run deps es).decisions p ≤ 1
  := by
  intro h
  let es : List (ℚ × HostEvent) :=
    [(0, .permissionAsk "p1" "bash" "s1" (some "allow")), (1, .permissionUpdated "p1" "bash" "s1"),
      (2, .sessionDeleted "s1"), (3, .permissionReplied "s1" "p1" "once")]
  have htwice : (run ⟨true, true, true, false, []⟩ es).decisions "p1" = 2 := by
    decide +kernel
  have honce := h ⟨true, true, true, false, []⟩ es rfl (by
    intro p
    by_cases hp : "p1" = p
    · subst hp
      decide +kernel
    · have hmarks : permissionMarks p es = [.other, .other, .deleted "s1", .other] := by
        simp [permissionMarks, es, HostEvent.permissionMark, hp]
      rw [hmarks]
      decide) "p1"
  omega

end Recorder

end Telemetry
