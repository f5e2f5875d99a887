import OpencodeToolbelt.ProviderSync.Intervals

/-!
# The timers of a scheduler

The runs of a scheduler never overlap, and the delay of its timer follows from the failures since
the last success. A scheduler that is stopped while its task runs sets another timer when the run
completes.
-/

namespace ProviderSync

namespace Scheduler

instance (s : Scheduler) (e : SchedulerEvent) :
  Decidable (system.enabled s e)
  := by
  cases e with
  | tick timer => exact inferInstanceAs (Decidable (s.timers.has timer = true))
  | completed ok => exact inferInstanceAs (Decidable (0 < s.runs))
  | stop => exact inferInstanceAs (Decidable True)

/-! ### What a run is expected to keep -/

/-- The events before a state, each with the state in which it has occurred. -/
abbrev History := List (Scheduler × SchedulerEvent)

/-- `stop` has been called. -/
def Stopped (before : History) : Prop := ∃ step ∈ before, step.2 = .stop

/-- The number of failures in a row, after one more event. -/
def failuresAfter (k : ℕ) : SchedulerEvent → ℕ
  | .completed true => 0
  | .completed false => k + 1
  | _ => k

/-- The number of runs that have failed since the last one that has not. -/
def streak (before : History) : ℕ := before.foldl (fun k step => failuresAfter k step.2) 0

/-- The delay that comes after a number of failures in a row. -/
def delayAfter (intervalMs : ℚ) : ℕ → ℚ
  | 0 => intervalMs
  | k + 1 => min intervalMs (15000 * 2 ^ k)

/-- Runs do not overlap, no two timers are armed, and a scheduler that has been stopped starts no
run and leaves no timer behind. -/
structure Orderly (intervalMs : ℚ) (before : History) (s : Scheduler) : Prop where
  runs : s.runs ≤ 1
  timers : s.timers.size ≤ 1
  delay : ∀ timer delayMs, s.timers.get timer = some delayMs →
    delayMs = delayAfter intervalMs (streak before)
  starts : ∀ earlier t e later, before = earlier ++ (t, e) :: later → Stopped earlier →
    (t.handle e).runs ≤ t.runs
  quiet : Stopped before → s.runs = 0 → s.timers.size = 0

/-! ### One event -/

/-- A scheduler between events: it waits for its timer or for a run of its task, unless it has
been stopped. -/
structure Waits (intervalMs : ℚ) (before : History) (s : Scheduler) : Prop where
  interval : s.intervalMs = intervalMs
  failures : s.failures = streak before
  stopped : s.stopped = true ↔ Stopped before
  runs : s.runs ≤ 1
  armed : s.timers.entries = [] ∨ s.runs = 0 ∧ ∃ timer, s.timeout = some timer ∧
    s.timers.entries = [(timer, delayAfter intervalMs (streak before))]

variable {intervalMs : ℚ} {before : History} {s : Scheduler}

theorem stopped_concat (step : Scheduler × SchedulerEvent) :
  Stopped (before ++ [step]) ↔ Stopped before ∨ step.2 = .stop
  := by
  simp only [Stopped, List.mem_append, List.mem_singleton, or_and_right, exists_or,
    exists_eq_left]

theorem streak_concat (step : Scheduler × SchedulerEvent) :
  streak (before ++ [step]) = failuresAfter (streak before) step.2
  := by
  rw [streak, List.foldl_append]
  rfl

/-- A timer is armed where none is. -/
theorem entries_schedule (h : s.timers.entries = []) (delayMs : ℚ) :
  (s.schedule delayMs).timers.entries = [(s.timerSeq, delayMs)]
  := by
  have habsent : s.timerSeq ∉ s.timers.keys := by
    rw [JsMap.keys, h]
    apply List.not_mem_nil
  have hentries := JsMap.entries_set_of_notMem habsent delayMs
  rw [h] at hentries
  apply hentries

theorem entries_delete_of_nil {m : JsMap ℕ ℚ} (h : m.entries = []) (timer : ℕ) :
  (m.delete timer).entries = []
  := by
  rw [JsMap.delete, JsMap.entries_modify, h]
  rfl

theorem entries_delete_of_single {m : JsMap ℕ ℚ} {timer : ℕ} {delayMs : ℚ}
    (h : m.entries = [(timer, delayMs)]) :
  (m.delete timer).entries = []
  := by
  rw [JsMap.delete, JsMap.entries_modify, h]
  simp

theorem Waits.tick {timer : ℕ} (h : Waits intervalMs before s)
    (htimer : s.timers.has timer = true) :
  Waits intervalMs (before ++ [(s, .tick timer)]) (s.tick timer)
  := by
  have hkey := JsMap.has_eq_true.mp htimer
  obtain hnone | ⟨hruns, armed, -, hsingle⟩ := h.armed
  · rw [JsMap.keys, hnone] at hkey
    cases hkey
  · -- The timer that fires is the only one, so that none is left.
    have heq : timer = armed := by
      rw [JsMap.keys, hsingle] at hkey
      apply List.mem_singleton.mp hkey
    subst heq
    have hstreak : streak (before ++ [(s, .tick timer)]) = streak before := streak_concat _
    have hstopped : Stopped (before ++ [(s, .tick timer)]) ↔ Stopped before := by
      rw [stopped_concat]
      simp
    have hempty : (s.tick timer).timers.entries = [] := by
      have hdeleted := entries_delete_of_single hsingle
      simp only [Scheduler.tick]
      split <;> apply hdeleted
    have hsame : (s.tick timer).intervalMs = s.intervalMs ∧
        (s.tick timer).failures = s.failures ∧ (s.tick timer).runs ≤ s.runs + 1 := by
      simp only [Scheduler.tick]
      split
      · exact ⟨rfl, rfl, Nat.le_succ _⟩
      · exact ⟨rfl, rfl, le_rfl⟩
    constructor
    · rw [hsame.1, h.interval]
    · rw [hsame.2.1, h.failures, hstreak]
    · rw [stopped_tick, h.stopped, hstopped]
    · have hle := hsame.2.2
      rw [hruns] at hle
      apply hle
    · left
      apply hempty

/-- When a run completes, the timer is set to the delay that its outcome calls for. -/
theorem completed_eq (s : Scheduler) (ok : Bool) :
  s.completed ok =
    { s with
      runs := s.runs - 1
      failures := failuresAfter s.failures (.completed ok) }.schedule
        (delayAfter s.intervalMs (failuresAfter s.failures (.completed ok)))
  := by
  cases ok with
  | true => rfl
  | false => rfl

theorem entries_completed (h : s.timers.entries = []) (ok : Bool) :
  (s.completed ok).timers.entries =
    [(s.timerSeq, delayAfter s.intervalMs (failuresAfter s.failures (.completed ok)))]
  := by
  rw [completed_eq]
  apply entries_schedule h

/-- No timer is armed while the task runs. -/
theorem Waits.unarmed (h : Waits intervalMs before s) (hruns : 0 < s.runs) :
  s.timers.entries = []
  := by
  apply h.armed.resolve_right
  rintro ⟨hzero, -⟩
  rw [hzero] at hruns
  cases hruns

theorem Waits.completed {ok : Bool} (h : Waits intervalMs before s) (hruns : 0 < s.runs) :
  Waits intervalMs (before ++ [(s, .completed ok)]) (s.completed ok)
  := by
  have hone : s.runs = 1 := Nat.le_antisymm h.runs hruns
  have hstopped : Stopped (before ++ [(s, .completed ok)]) ↔ Stopped before := by
    rw [stopped_concat]
    simp
  have hstreak : streak (before ++ [(s, .completed ok)]) =
      failuresAfter s.failures (.completed ok) := by
    rw [streak_concat, h.failures]
  constructor
  · rw [completed_eq]
    apply h.interval
  · rw [completed_eq, hstreak]
    rfl
  · rw [stopped_completed, h.stopped, hstopped]
  · rw [completed_eq]
    change s.runs - 1 ≤ 1
    omega
  · right
    rw [hstreak, ← h.interval]
    constructor
    · rw [completed_eq]
      change s.runs - 1 = 0
      omega
    · refine ⟨s.timerSeq, ?_, entries_completed (h.unarmed hruns) ok⟩
      rw [completed_eq]
      rfl

theorem Waits.stops (h : Waits intervalMs before s) :
  Waits intervalMs (before ++ [(s, .stop)]) s.stop ∧ s.stop.timers.entries = []
  := by
  have hempty : s.stop.timers.entries = [] := by
    obtain hnone | ⟨-, timer, htimeout, hsingle⟩ := h.armed
    · simp only [stop]
      cases s.timeout with
      | none => apply hnone
      | some timer => apply entries_delete_of_nil hnone
    · simp only [stop, htimeout]
      apply entries_delete_of_single hsingle
  refine ⟨?_, hempty⟩
  constructor
  · apply h.interval
  · rw [streak_concat]
    apply h.failures
  · rw [stopped_stop, stopped_concat]
    simp
  · apply h.runs
  · left
    apply hempty

theorem Waits.handle (h : Waits intervalMs before s) {e : SchedulerEvent} (he : system.enabled s e) :
  Waits intervalMs (before ++ [(s, e)]) (s.handle e)
  := by
  cases e with
  | tick timer => apply h.tick he
  | completed ok => apply h.completed he
  | stop => apply h.stops.1

theorem waits_startScheduler (intervalMs : ℚ) :
  Waits intervalMs [] (startScheduler intervalMs)
  := by
  have hnone : ¬ Stopped [] := by
    rintro ⟨step, hmem, -⟩
    cases hmem
  constructor
  · rfl
  · rfl
  · rw [stopped_startScheduler]
    simp [hnone]
  · apply Nat.zero_le
  · right
    use rfl, 0, rfl
    rfl

/-- A scheduler that has been stopped starts no run. -/
theorem Waits.runs_le (h : Waits intervalMs before s) (hstopped : Stopped before)
    (e : SchedulerEvent) :
  (s.handle e).runs ≤ s.runs
  := by
  cases e with
  | tick timer => apply Nat.le_of_eq (s.runs_tick_of_stopped (h.stopped.mpr hstopped) timer)
  | completed ok =>
      change (s.completed ok).runs ≤ s.runs
      rw [completed_eq]
      apply Nat.sub_le
  | stop => apply le_rfl

/-! ### Runs -/

theorem waits_of_run (hrun : system.Run (startScheduler intervalMs) before s) :
  Waits intervalMs before s
  := by
  have h := hrun.preserves_history (I := Waits intervalMs) (fun _ _ _ hs he => hs.handle he)
    (waits_startScheduler intervalMs)
  rwa [List.nil_append] at h

/-- No run completes after `stop` has been called. -/
def CompletesUnstopped (steps : History) : Prop :=
  ∀ before t ok after, steps = before ++ (t, .completed ok) :: after → ¬ Stopped before

theorem CompletesUnstopped.of_concat {step : Scheduler × SchedulerEvent}
    (h : CompletesUnstopped (before ++ [step])) :
  CompletesUnstopped before
  := by
  rintro earlier t ok later rfl
  apply h earlier t ok (later ++ [step])
  rw [List.append_assoc, List.cons_append]

/-- A scheduler that is not stopped while its task runs has no timer from then on. -/
theorem quiet_of_run (hrun : system.Run (startScheduler intervalMs) before s)
    (hcompletes : CompletesUnstopped before) (hstopped : Stopped before) :
  s.timers.entries = []
  := by
  have hboth := hrun.preserves_history (I := fun before s => Waits intervalMs before s ∧
      (CompletesUnstopped before → Stopped before → s.timers.entries = []))
    (by
      rintro before s e ⟨hwaits, hquiet⟩ he
      refine ⟨hwaits.handle he, ?_⟩
      intro hcompletes hstopped
      rw [stopped_concat] at hstopped
      cases e with
      | tick timer =>
          have hnone := hquiet hcompletes.of_concat (hstopped.resolve_right (by simp))
          have hkey := JsMap.has_eq_true.mp he
          rw [JsMap.keys, hnone] at hkey
          cases hkey
      | completed ok =>
          have hearlier := hstopped.resolve_right (by simp)
          apply absurd hearlier (hcompletes before s ok [] rfl)
      | stop => apply hwaits.stops.2)
    ⟨waits_startScheduler intervalMs, fun _ hstopped => by
      obtain ⟨step, hmem, -⟩ := hstopped
      cases hmem⟩
  apply hboth.2 hcompletes hstopped

/-- In a run of a scheduler every state is orderly exactly when no run of its task completes after
`stop` has been called. -/
theorem orderly_iff (intervalMs : ℚ) {steps : History} {s' : Scheduler}
    (hrun : system.Run (startScheduler intervalMs) steps s') :
  (∀ before after s, steps = before ++ after →
    system.Run (startScheduler intervalMs) before s → Orderly intervalMs before s)
      ↔ CompletesUnstopped steps
  := by
  constructor
  · rintro h before t ok after rfl hstopped
    obtain ⟨hbefore, he, -⟩ := hrun.split
    have hwaits := waits_of_run hbefore
    have hnext : system.Run (startScheduler intervalMs) (before ++ [(t, .completed ok)])
        (t.completed ok) := by
      apply EventSystem.Run.append_iff.mpr
      use t, hbefore, .cons he (.nil _)
    have horderly := h (before ++ [(t, .completed ok)]) after _ (by simp) hnext
    have hone : t.runs = 1 := Nat.le_antisymm hwaits.runs he
    have hruns : (t.completed ok).runs = 0 := by
      rw [completed_eq]
      change t.runs - 1 = 0
      rw [hone]
    -- The timer that the completed run has set is armed, although the scheduler has been stopped.
    have hzero := horderly.quiet ((stopped_concat _).mpr (.inl hstopped)) hruns
    rw [JsMap.size, entries_completed (hwaits.unarmed he)] at hzero
    cases hzero
  · rintro hcompletes before after s rfl hbefore
    have hwaits := waits_of_run hbefore
    have hunstopped : CompletesUnstopped before := by
      rintro earlier t ok later rfl
      apply hcompletes earlier t ok (later ++ after)
      rw [List.append_assoc, List.cons_append]
    constructor
    · apply hwaits.runs
    · rw [JsMap.size]
      obtain hnone | ⟨-, timer, -, hsingle⟩ := hwaits.armed
      · rw [hnone]
        apply Nat.zero_le
      · rw [hsingle]
        apply le_rfl
    · intro timer delayMs hget
      have hmem := JsMap.mem_entries_of_get hget
      obtain hnone | ⟨-, timer', -, hsingle⟩ := hwaits.armed
      · rw [hnone] at hmem
        cases hmem
      · rw [hsingle] at hmem
        cases List.mem_singleton.mp hmem
        rfl
    · rintro earlier t e later rfl hstopped
      apply (waits_of_run hbefore.split.1).runs_le hstopped
    · intro hstopped _
      rw [JsMap.size, quiet_of_run hbefore hunstopped hstopped]
      rfl

/-- A run fails, and the scheduler is stopped before the next one. -/
theorem orderly_when_stopped_between :
  ∃ steps s', system.Run (startScheduler 60000) steps s' ∧ s'.failures = 1 ∧ Stopped steps ∧
    ∀ before after s, steps = before ++ after →
      system.Run (startScheduler 60000) before s → Orderly 60000 before s
  := by
  let events : List SchedulerEvent := [.tick 0, .completed false, .stop]
  have hplay : (system.play events (startScheduler 60000)).any (fun s => s.failures = 1) = true := by
    decide +kernel
  obtain ⟨s', hs', hfailures⟩ := (Option.any_eq_true _ _).mp hplay
  have hrun := system.run_of_play hs'
  refine ⟨_, s', hrun, of_decide_eq_true hfailures, ?_, (orderly_iff 60000 hrun).mpr ?_⟩
  · exact ⟨_, List.mem_cons_of_mem _ (List.mem_cons_of_mem _ List.mem_cons_self), rfl⟩
  · rintro before t ok after heq ⟨step, hmem, hstop⟩
    have hstops : ∀ step ∈ before, step.2 ≠ .stop := by
      rcases before with _ | ⟨first, _ | ⟨second, _ | ⟨third, rest⟩⟩⟩
      · simp
      · simp only [events, EventSystem.steps, List.cons_append, List.cons.injEq] at heq
        obtain ⟨rfl, -⟩ := heq
        simp
      · simp [events, EventSystem.steps] at heq
      · simp [events, EventSystem.steps] at heq
    apply hstops step hmem hstop

/-- A scheduler that is stopped while its task runs is left with a timer. -/
theorem armed_after_stop :
  ¬ ∀ intervalMs steps s, system.Run (startScheduler intervalMs) steps s →
    Orderly intervalMs steps s
  := by
  intro h
  let events : List SchedulerEvent := [.tick 0, .stop, .completed true]
  have hplay : (system.play events (startScheduler 60000)).any
      (fun s => s.runs = 0 ∧ s.timers.size = 1) = true := by
    decide +kernel
  obtain ⟨s, hs, hend⟩ := (Option.any_eq_true _ _).mp hplay
  obtain ⟨hruns, hsize⟩ := of_decide_eq_true hend
  have hstopped : Stopped (system.steps events (startScheduler 60000)) := by
    use ((startScheduler 60000).tick 0, .stop)
    refine ⟨?_, rfl⟩
    apply List.mem_cons_of_mem
    apply List.mem_cons_self
  have hzero := (h 60000 _ s (system.run_of_play hs)).quiet hstopped hruns
  rw [hsize] at hzero
  cases hzero

end Scheduler

end ProviderSync
