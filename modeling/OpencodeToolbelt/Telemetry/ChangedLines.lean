import OpencodeToolbelt.Data.Cumulative
import OpencodeToolbelt.Telemetry.Overlooking
import Mathlib.Algebra.Order.Ring.Rat

/-!
# Changed lines

The host reports the whole diff of a session each time. The recorder counts what is new of the
totals of each file, and forgets them when the session is deleted.
-/

namespace Telemetry

/-- A text without the separator of the keys. -/
def NulFree (s : String) : Prop := Char.ofNat 0 ∉ s.toList

/-- The types of changes. -/
inductive Change where
  | added
  | removed
  deriving DecidableEq

namespace Change

def text : Change → String
  | added => "added"
  | removed => "removed"

/-- The lines of a type of change among the totals of a file. -/
def ofTotals : Change → DiffState → ℚ
  | added, totals => totals.additions
  | removed, totals => totals.deletions

end Change

def FileDiff.totals (d : FileDiff) : DiffState := ⟨d.additions.getD 0, d.deletions.getD 0⟩

/-- What an event tells of the files of the sessions. -/
def HostEvent.readings (c : Change) : HostEvent → List (Reading (String × String) String ℚ)
  | .sessionDiff sessionID diff =>
      diff.map fun d => .report (sessionID, d.file) (c.ofTotals d.totals)
  | .sessionDeleted sessionID => [.forget sessionID]
  | _ => []

def readings (c : Change) (es : List (ℚ × HostEvent)) :
    List (Reading (String × String) String ℚ) := es.flatMap fun e => e.2.readings c

/-- The session of a diff or a deletion has no NUL in its id. -/
def HostEvent.Plain : HostEvent → Prop
  | .sessionDiff sessionID _ => NulFree sessionID
  | .sessionDeleted sessionID => NulFree sessionID
  | _ => True

namespace Recorder

/-- The lines of a type of change that have been counted. -/
def linesCounted (c : Change) (r : Recorder) : ℚ :=
  ((r.measurements.filter fun m => m.instrument = .linesOfCode ∧
    m.attributes.reverse.lookup "opencode.change.type" = some (.str c.text)).map
      Measurement.value).sum

/-- What is remembered of a file, zero when nothing is. -/
def remembered (c : Change) (r : Recorder) (sessionID file : String) : ℚ :=
  c.ofTotals ((r.diffs.get (diffKey sessionID file)).getD ⟨0, 0⟩)

/-- What is remembered of the files, with what has been counted. -/
def fileView (c : Change) (r : Recorder) : (String → String → ℚ) × ℚ :=
  (r.remembered c, r.linesCounted c)

theorem linesCounted_cons (c : Change) (r : Recorder) (m : Measurement) :
  linesCounted c { r with measurements := m :: r.measurements } =
    (if m.instrument = .linesOfCode ∧
      m.attributes.reverse.lookup "opencode.change.type" = some (.str c.text) then m.value else 0) +
      r.linesCounted c
  := by
  unfold linesCounted
  rw [List.filter_cons]
  simp only [decide_eq_true_eq]
  split
  · rw [List.map_cons, List.sum_cons]
  · rw [zero_add]

theorem fileView_cons (c : Change) (r : Recorder) {m : Measurement}
    (hm : m.instrument ≠ .linesOfCode) :
  fileView c { r with measurements := m :: r.measurements } = fileView c r
  := by
  rw [fileView, linesCounted_cons, if_neg (fun h => hm h.1), zero_add]
  rfl

theorem overlooks_fileView (c : Change) :
  Overlooks (fileView c)
  where
  reports _ _ _ _ _ _ _ _ := rfl
  marks _ _ _ _ _ _ _ := rfl
  measurement r m hm := by
    apply fileView_cons
    intro heq
    rw [heq] at hm
    cases hm
  sessions _ _ _ := rfl

theorem overlooksPermissions_fileView (c : Change) :
  OverlooksPermissions (fileView c)
  where
  toOverlooks := overlooks_fileView c
  permissions _ _ _ := rfl
  decisions r m hm := by
    apply fileView_cons
    simp [hm]

theorem overlooksActivity_fileView (c : Change) :
  OverlooksActivity (fileView c)
  where
  toOverlooks := overlooks_fileView c
  activity _ _ := rfl
  activeTime r m hm := by
    apply fileView_cons
    simp [hm]

/-! ### Keys -/

/-- A text is determined by where a character first occurs. -/
theorem append_cons_inj {α : Type} {a : α} {l l' rest rest' : List α} (h : a ∉ l) (h' : a ∉ l') :
  l ++ a :: rest = l' ++ a :: rest' ↔ l = l' ∧ rest = rest'
  := by
  induction l generalizing l' with
  | nil =>
      cases l' with
      | nil => simp
      | cons b l' =>
          have hne : a ≠ b := fun heq => h' (heq ▸ List.mem_cons_self)
          simp [hne]
  | cons b l ih =>
      obtain ⟨hb, hl⟩ := List.ne_and_not_mem_of_not_mem_cons h
      cases l' with
      | nil => simp [Ne.symm hb]
      | cons b' l' =>
          obtain ⟨-, hl'⟩ := List.ne_and_not_mem_of_not_mem_cons h'
          rw [List.cons_append, List.cons_append, List.cons.injEq, ih hl hl', List.cons.injEq,
            and_assoc]

theorem diffKey_toList (sessionID file : String) :
  (diffKey sessionID file).toList = sessionID.toList ++ Char.ofNat 0 :: file.toList
  := by
  simp [diffKey, diffKeyPrefix]

/-- The keys of the files of a session are those that start as they do. -/
theorem diffKeyPrefix_isPrefixOf {sessionID sessionID' : String} (h : NulFree sessionID)
    (h' : NulFree sessionID') (file : String) :
  (diffKeyPrefix sessionID).toList.isPrefixOf (diffKey sessionID' file).toList = true
    ↔ sessionID = sessionID'
  := by
  rw [List.isPrefixOf_iff_prefix, diffKey_toList]
  constructor
  · rintro ⟨rest, hrest⟩
    have hkeys : sessionID.toList ++ Char.ofNat 0 :: rest =
        sessionID'.toList ++ Char.ofNat 0 :: file.toList := by
      rw [← hrest]
      simp [diffKeyPrefix]
    rw [append_cons_inj h h'] at hkeys
    apply String.toList_inj.mp hkeys.1
  · rintro rfl
    use file.toList
    simp [diffKeyPrefix]

theorem diffKey_inj {sessionID sessionID' : String} (h : NulFree sessionID)
    (h' : NulFree sessionID') {file file' : String} :
  diffKey sessionID file = diffKey sessionID' file' ↔ sessionID = sessionID' ∧ file = file'
  := by
  rw [← String.toList_inj, diffKey_toList, diffKey_toList, append_cons_inj h h',
    String.toList_inj, String.toList_inj]

/-! ### Files -/

variable (deps : RecorderDeps) (r : Recorder)

/-- The first of some properties is the last of its name when no other has its name. -/
theorem lookup_reverse_cons {name : String} {value : AttrValue} {rest : Attributes}
    (h : ∀ a ∈ rest, a.1 ≠ name) :
  ((name, value) :: rest).reverse.lookup name = some value
  := by
  have hnone : rest.reverse.lookup name = none := by
    rw [List.lookup_eq_none_iff]
    intro a ha
    simpa using Ne.symm (h a (List.mem_reverse.mp ha))
  rw [List.reverse_cons, List.lookup_append, hnone, Option.none_or]
  simp

/-- The type of a change that is measured. -/
theorem lookup_change (c : Change) (language : Option String) (sessionID : String) :
  (("opencode.change.type", .str c.text) :: attrStr "code.language" language ++
      metricSession deps sessionID).reverse.lookup "opencode.change.type" = some (.str c.text)
  := by
  apply lookup_reverse_cons
  intro a ha
  rcases List.mem_append.mp ha with ha | ha
  · obtain ⟨s, -, rfl⟩ := Option.map_eq_some_iff.mp (Option.mem_toList.mp ha)
    simp
  · unfold metricSession at ha
    split at ha
    · rw [List.mem_singleton.mp ha]
      simp
    · cases ha

/-- The lines of a file that are measured. -/
theorem linesCounted_measure (c c' : Change) (source : Source) (value : ℚ)
    (language : Option String) (sessionID : String) :
  (r.measure deps source .linesOfCode value
      (("opencode.change.type", .str c'.text) :: attrStr "code.language" language ++
        metricSession deps sessionID)).linesCounted c =
    r.linesCounted c + if deps.meter = true ∧ c' = c then value else 0
  := by
  have htext : c'.text = c.text ↔ c' = c := by
    cases c <;> cases c' <;> decide
  unfold measure
  split
  · next hmeter =>
      rw [linesCounted_cons, lookup_change]
      simp [htext, hmeter, add_comm]
  · next hmeter => simp [hmeter]

/-- What an entry of a diff makes of the lines of a type of change. -/
theorem linesCounted_onFileDiff (c : Change) (sessionID : String) (context : Context)
    (entry : FileDiff) :
  (r.onFileDiff deps sessionID context entry).linesCounted c =
    r.linesCounted c + if deps.meter then
      max 0 (c.ofTotals entry.totals - r.remembered c sessionID entry.file) else 0
  := by
  simp only [onFileDiff]
  generalize hprevious : (r.diffs.get (diffKey sessionID entry.file)).getD ⟨0, 0⟩ = previous
  have hnew : c.ofTotals entry.totals - r.remembered c sessionID entry.file =
      c.ofTotals ⟨entry.additions.getD 0 - previous.additions,
        entry.deletions.getD 0 - previous.deletions⟩ := by
    rw [remembered, hprevious]
    cases c <;> rfl
  rw [hnew]
  generalize entry.additions.getD 0 - previous.additions = added
  generalize entry.deletions.getD 0 - previous.deletions = removed
  have hdiffs : ∀ diffs, linesCounted c { r with diffs } = r.linesCounted c := fun _ => rfl
  have hcount : ∀ (c' : Change) (value : ℚ) (r : Recorder),
      (if 0 < max 0 value then
        r.measure deps (.file sessionID entry.file) .linesOfCode (max 0 value)
          (("opencode.change.type", .str c'.text) ::
            attrStr "code.language" (detectLanguage entry.file) ++ metricSession deps sessionID)
        else r).linesCounted c =
        r.linesCounted c + if deps.meter = true ∧ c' = c then max 0 value else 0 := by
    intro c' value r
    split
    · apply linesCounted_measure
    · next hzero =>
        have hmax : max 0 value = 0 := le_antisymm (not_lt.mp hzero) (le_max_left _ _)
        simp [hmax]
  have hadded := hcount .added added
  have hremoved := hcount .removed removed
  simp only [Change.text] at hadded hremoved
  split
  · next hzero =>
      rw [hdiffs]
      cases c <;> simp [Change.ofTotals, hzero]
  · have hemit := fun (r : Recorder) (name : String) (attributes : Attributes)
      (severity : Severity) (context : Option Context) =>
        congr_arg Prod.snd ((overlooks_fileView c).emit deps r name attributes severity context)
    simp only [fileView] at hemit
    rw [hemit, hremoved, hadded, hdiffs]
    cases c <;> simp [Change.ofTotals]

/-- The files of the recorder after an entry of a diff. -/
theorem diffs_onFileDiff (sessionID : String) (context : Context) (entry : FileDiff) :
  (r.onFileDiff deps sessionID context entry).diffs =
    r.diffs.set (diffKey sessionID entry.file) entry.totals
  := by
  have hmeasure : ∀ (p : Prop) [Decidable p] (r : Recorder) source instrument (value : ℚ)
      (attributes : Attributes),
      (if p then r.measure deps source instrument value attributes else r).diffs = r.diffs := by
    intro p _ r source instrument value attributes
    unfold measure
    split
    · split <;> rfl
    · rfl
  have hemit : ∀ (r : Recorder) (name : String) (attributes : Attributes) (severity : Severity)
      (context : Option Context),
      (r.emit deps name attributes severity context).diffs = r.diffs := by
    intro r name attributes severity context
    unfold emit
    split <;> rfl
  simp only [onFileDiff]
  split
  · rfl
  · rw [hemit, hmeasure, hmeasure]
    rfl

theorem overlooksActivity_diffs :
  OverlooksActivity Recorder.diffs
  where
  reports _ _ _ _ _ _ _ _ := rfl
  marks _ _ _ _ _ _ _ := rfl
  measurement _ _ _ := rfl
  sessions _ _ _ := rfl
  activity _ _ := rfl
  activeTime _ _ _ := rfl

/-- A deletion drops the files of its session. -/
theorem diffs_forgetSession (sessionID : String) :
  (r.forgetSession deps sessionID).diffs =
    r.diffs.filter fun key _ => !(diffKeyPrefix sessionID).toList.isPrefixOf key.toList
  := by
  have h := overlooksActivity_diffs
  simp only [forgetSession]
  rw [h.pruneCompleted]
  simp only [dropRecords]
  rw [h.forgetTools, h.forgetChats, h.dropPending, h.dropSession]

/-- The files of another session stay. -/
theorem get_diffs_forgetSession {sessionID sessionID' : String} (h : NulFree sessionID)
    (h' : NulFree sessionID') (file : String) :
  (r.forgetSession deps sessionID).diffs.get (diffKey sessionID' file) =
    if sessionID = sessionID' then none else r.diffs.get (diffKey sessionID' file)
  := by
  rw [diffs_forgetSession, JsMap.get_filter]
  have hkey := diffKeyPrefix_isPrefixOf h h' file
  split
  · next heq =>
      rw [hkey.mpr heq]
      cases r.diffs.get (diffKey sessionID' file) <;> rfl
  · next hne =>
      rw [Bool.eq_false_iff.mpr (mt hkey.mp hne)]
      cases r.diffs.get (diffKey sessionID' file) <;> rfl

theorem linesCounted_forgetSession (c : Change) (sessionID : String) :
  (r.forgetSession deps sessionID).linesCounted c = r.linesCounted c
  := by
  have h := overlooksActivity_fileView c
  have hview : fileView c ((((r.dropSession deps sessionID).dropPending sessionID).forgetChats
      sessionID).forgetTools sessionID) = fileView c r := by
    rw [h.forgetTools, h.forgetChats, h.dropPending, h.dropSession]
  apply congr_arg Prod.snd hview

/-! ### Runs -/

/-- The recorder remembers and counts what a tally of the readings does. -/
structure Counts (c : Change) (t : Tally (String × String) ℚ) : Prop where
  last : ∀ sessionID file, NulFree sessionID → r.remembered c sessionID file = t.last (sessionID, file)
  total : r.linesCounted c = if deps.meter then t.total else 0

namespace Counts

variable {deps r} {c : Change} {t : Tally (String × String) ℚ}

/-- What is not seen of an event. -/
theorem of_view {r' : Recorder} (h : Counts deps r c t) (hview : fileView c r' = fileView c r) :
  Counts deps r' c t
  := by
  obtain ⟨hlast, htotal⟩ := Prod.ext_iff.mp hview
  constructor
  · intro sessionID file hnul
    rw [← h.last sessionID file hnul]
    apply congr_fun (congr_fun hlast sessionID) file
  · apply Eq.trans htotal h.total

theorem onFileDiff (h : Counts deps r c t) {sessionID : String} (hsession : NulFree sessionID)
    (context : Context) (entry : FileDiff) :
  Counts deps (r.onFileDiff deps sessionID context entry) c
    (t.read Prod.fst (.report (sessionID, entry.file) (c.ofTotals entry.totals)))
  := by
  constructor
  · intro sessionID' file hnul
    rw [Tally.last_report, remembered, diffs_onFileDiff, JsMap.get_set]
    split
    · next heq =>
        obtain ⟨rfl, rfl⟩ := (diffKey_inj hnul hsession).mp heq
        rw [if_pos rfl]
        rfl
    · next hne =>
        rw [if_neg, ← h.last sessionID' file hnul, remembered]
        rintro ⟨⟩
        apply hne rfl
  · rw [linesCounted_onFileDiff, h.total, h.last sessionID entry.file hsession]
    split
    · rfl
    · apply add_zero

theorem onSessionDiff (h : Counts deps r c t) {sessionID : String} (hsession : NulFree sessionID)
    (diff : List FileDiff) :
  Counts deps (r.onSessionDiff deps sessionID diff) c
    (((HostEvent.sessionDiff sessionID diff).readings c).foldl (Tally.read Prod.fst) t)
  := by
  have hknown := h.of_view ((overlooks_fileView c).session r sessionID)
  simp only [Recorder.onSessionDiff, HostEvent.readings]
  clear h
  generalize (r.session sessionID).1 = r' at hknown
  generalize (r.session sessionID).2.context = context
  induction diff generalizing r' t with
  | nil => apply hknown
  | cons entry diff ih =>
      apply ih
      apply hknown.onFileDiff hsession

theorem forgetSession (h : Counts deps r c t) {sessionID : String} (hsession : NulFree sessionID) :
  Counts deps (r.forgetSession deps sessionID) c (t.read Prod.fst (.forget sessionID))
  := by
  constructor
  · intro sessionID' file hnul
    rw [Tally.last_forget, remembered, get_diffs_forgetSession deps r hsession hnul]
    by_cases heq : sessionID = sessionID'
    · rw [if_pos heq, if_pos heq.symm]
      cases c <;> rfl
    · rw [if_neg heq, if_neg (Ne.symm heq), ← h.last sessionID' file hnul, remembered]
  · rw [linesCounted_forgetSession]
    apply h.total

theorem deliver (h : Counts deps r c t) {e : ℚ × HostEvent} (he : e.2.Plain) :
  Counts deps (r.deliver deps e) c ((e.2.readings c).foldl (Tally.read Prod.fst) t)
  := by
  obtain ⟨now, e⟩ := e
  have hnow : Counts deps { r with now } c t := ⟨h.last, h.total⟩
  have hactivity := overlooksActivity_fileView c
  have hpermissions := overlooksPermissions_fileView c
  unfold Recorder.deliver
  generalize ({ r with now } : Recorder) = r' at hnow
  cases e with
  | sessionDiff sessionID diff => apply hnow.onSessionDiff he
  | sessionDeleted sessionID => apply hnow.forgetSession he
  | sessionCreated => apply hnow.of_view (hactivity.onSessionCreated deps r' _)
  | sessionIdle => apply hnow.of_view (hactivity.onSessionIdle deps r' _)
  | sessionStatus => apply hnow.of_view (hactivity.onSessionStatus deps r' _ _)
  | serverInstanceDisposed => apply hnow.of_view (hactivity.shutdown deps r')
  | shutdown => apply hnow.of_view (hactivity.shutdown deps r')
  | permissionUpdated => apply hnow.of_view (hpermissions.permissions r' _ r'.autoDecided)
  | permissionReplied => apply hnow.of_view (hpermissions.onPermissionReplied deps r' _ _ _)
  | permissionAsk => apply hnow.of_view (hpermissions.onPermissionAsk deps r' _ _ _ _)
  | _ => apply hnow.of_view ((overlooks_fileView c).handle deps r' rfl)

theorem run {es : List (ℚ × HostEvent)} (hplain : ∀ e ∈ es, e.2.Plain) (c : Change) :
  Counts deps (Recorder.run deps es) c (Tally.readAll Prod.fst (readings c es))
  := by
  induction es using List.reverseRecOn with
  | nil =>
      constructor
      · intro sessionID file _
        cases c <;> rfl
      · change (0 : ℚ) = if deps.meter then 0 else 0
        rw [ite_self]
  | append_singleton es e ih =>
      have hes := ih fun e he => hplain e (List.mem_append_left _ he)
      have hlast := hes.deliver (hplain e (List.mem_append_right _ (List.mem_singleton_self e)))
      rw [Recorder.run, List.foldl_append, readings, List.flatMap_append, List.flatMap_singleton,
        Tally.readAll, List.foldl_append]
      apply hlast

end Counts

/-- Where the reported lines of the files never decrease, what has been counted is the sum of the
last reports of each file in each life of its session, and the deletion of a session leaves alone
what is remembered of another one. -/
theorem linesCounted_eq_sum_finals (deps : RecorderDeps) (es : List (ℚ × HostEvent))
    (hplain : ∀ e ∈ es, e.2.Plain) (c : Change)
    (hrising : Tally.Rising Prod.fst (readings c es)) :
  (run deps es).linesCounted c =
      (if deps.meter then (Tally.finals Prod.fst (readings c es)).sum else 0) ∧
    ∀ sessionID sessionID' file, NulFree sessionID → NulFree sessionID' → sessionID ≠ sessionID' →
      ((run deps es).handle deps (.sessionDeleted sessionID)).diffs.get (diffKey sessionID' file) =
        (run deps es).diffs.get (diffKey sessionID' file)
  := by
  constructor
  · rw [(Counts.run hplain c).total, Tally.total_eq_sum_finals hrising]
  · intro sessionID sessionID' file hnul hnul' hne
    apply (get_diffs_forgetSession deps _ hnul hnul' file).trans
    rw [if_neg hne]

/-- Two sessions, the id of one of which starts with that of the other, report a file, and the
first is deleted and reports it again. -/
def sampleDiffs : List (ℚ × HostEvent) :=
  [(0, .sessionDiff "a" [⟨"x.ts", some 3, some 1⟩]), (1, .sessionIdle "a"),
    (2, .sessionDiff "ab" [⟨"x.ts", some 2, none⟩, ⟨"y.ts", some 1, some 4⟩]),
    (3, .sessionDiff "a" [⟨"x.ts", some 5, some 1⟩]), (4, .sessionDeleted "a"),
    (5, .sessionDiff "ab" [⟨"x.ts", some 2, some 2⟩]), (6, .sessionDiff "a" [⟨"x.ts", some 1, none⟩])]

theorem linesCounted_eq_sum_finals_prefix :
  (run ⟨true, true, true, false, []⟩ sampleDiffs).linesCounted .added = 9 ∧
    (run ⟨true, true, true, false, []⟩ sampleDiffs).linesCounted .added =
      (Tally.finals Prod.fst (readings .added sampleDiffs)).sum
  := by
  constructor
  · decide +kernel
  · apply (linesCounted_eq_sum_finals ⟨true, true, true, false, []⟩ sampleDiffs _ .added _).1
    · simp [sampleDiffs, HostEvent.Plain, NulFree]
    · decide +kernel

end Recorder

end Telemetry
