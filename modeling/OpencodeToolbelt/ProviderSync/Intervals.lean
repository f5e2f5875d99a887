import OpencodeToolbelt.ProviderSync.Engines
import OpencodeToolbelt.ProviderSync.ManagedProviders
import Mathlib.Tactic.Linarith
import Mathlib.Data.Rat.Floor

/-!
# Sync intervals

The delays of the timers that a scheduler arms, from the interval in the configuration.
-/

namespace ProviderSync

def DEFAULT_SYNC_INTERVAL_MINUTES : ℚ := 60

/-- The interval of a server, from what its configuration has for it. -/
def syncIntervalOf (value : JsValue) : ℚ :=
  (OpenCodeConfig.asSyncInterval value).getD DEFAULT_SYNC_INTERVAL_MINUTES

theorem syncIntervalOf_pos (value : JsValue) :
  0 < syncIntervalOf value
  := by
  unfold syncIntervalOf OpenCodeConfig.asSyncInterval
  split
  · split
    · next h => apply h
    · norm_num [DEFAULT_SYNC_INTERVAL_MINUTES]
  · norm_num [DEFAULT_SYNC_INTERVAL_MINUTES]

theorem ProviderServerConfig.intervalMs_nonneg {server : ProviderServerConfig}
    (h : 0 < server.syncIntervalMinutes) :
  0 ≤ server.intervalMs
  := by
  have hfloor : 0 ≤ ⌊server.syncIntervalMinutes * 60000 + 1 / 2⌋ := by
    apply Int.floor_nonneg.mpr
    linarith
  unfold intervalMs
  exact_mod_cast hfloor

inductive SchedulerEvent where
  /-- A timer fires. -/
  | tick (timer : ℕ)
  /-- A run of the task completes, or fails. -/
  | completed (ok : Bool)
  | stop

namespace Scheduler

def handle (s : Scheduler) : SchedulerEvent → Scheduler
  | .tick timer => s.tick timer
  | .completed ok => s.completed ok
  | .stop => s.stop

/-- A scheduler, with its timers and its task. -/
def system : EventSystem Scheduler SchedulerEvent where
  enabled s
    | .tick timer => s.timers.has timer = true
    | .completed _ => 0 < s.runs
    | .stop => True
  next := handle

/-- The timers of a scheduler are for at most its interval. -/
structure Within (intervalMs : ℚ) (s : Scheduler) : Prop where
  interval : s.intervalMs = intervalMs
  delays : ∀ timer delay, s.timers.get timer = some delay → 0 ≤ delay ∧ delay ≤ intervalMs

namespace Within

variable {intervalMs : ℚ} {s : Scheduler}

theorem schedule (h : s.Within intervalMs) {delay : ℚ} (hnonneg : 0 ≤ delay)
    (hle : delay ≤ intervalMs) :
  (s.schedule delay).Within intervalMs
  := by
  constructor
  · apply h.interval
  · intro timer delay' hget
    rw [Scheduler.schedule, JsMap.get_set] at hget
    split at hget
    · rw [← Option.some.inj hget]
      use hnonneg
    · apply h.delays timer delay' hget

theorem start (h : 0 ≤ intervalMs) :
  (startScheduler intervalMs).Within intervalMs
  := by
  apply schedule _ h le_rfl
  use rfl
  intro timer delay hget
  cases hget

theorem delete (h : s.Within intervalMs) (timer : ℕ) :
  ∀ timer' delay, (s.timers.delete timer).get timer' = some delay → 0 ≤ delay ∧ delay ≤ intervalMs
  := by
  intro timer' delay hget
  apply h.delays timer' delay (JsMap.get_of_get_delete hget)

theorem handle (hnonneg : 0 ≤ intervalMs) (h : s.Within intervalMs) (e : SchedulerEvent) :
  (s.handle e).Within intervalMs
  := by
  cases e with
  | tick timer =>
      simp only [Scheduler.handle, tick]
      split
      · use h.interval, h.delete timer
      · use h.interval, h.delete timer
  | completed ok =>
      have hruns : Within intervalMs { s with runs := s.runs - 1, failures := 0 } :=
        ⟨h.interval, h.delays⟩
      have hfails : Within intervalMs { s with runs := s.runs - 1, failures := s.failures + 1 } :=
        ⟨h.interval, h.delays⟩
      simp only [Scheduler.handle, completed]
      split
      · apply hruns.schedule
        · rw [h.interval]
          apply hnonneg
        · rw [h.interval]
      · apply hfails.schedule
        · apply le_min
          · rw [h.interval]
            apply hnonneg
          · apply mul_nonneg (by norm_num)
            apply pow_nonneg
            norm_num
        · rw [← h.interval]
          apply min_le_left
  | stop =>
      use h.interval
      simp only [Scheduler.handle, stop]
      cases s.timeout with
      | none => apply h.delays
      | some timer => apply h.delete timer

end Within

/-- The delays of a scheduler stay below a bound exactly when its interval does. -/
theorem delays_le_iff {intervalMs : ℚ} (hnonneg : 0 ≤ intervalMs) (bound : ℚ) :
  (∀ s, system.Reaches (startScheduler intervalMs) s → ∀ timer delay,
      s.timers.get timer = some delay → 0 ≤ delay ∧ delay ≤ bound) ↔
    intervalMs ≤ bound
  := by
  constructor
  · intro h
    have hfirst := h (startScheduler intervalMs) .refl 0 intervalMs (JsMap.get_set_self _ _ _)
    apply hfirst.2
  · intro hle s hreaches timer delay hget
    have hwithin : s.Within intervalMs :=
      hreaches.preserves (I := Within intervalMs) (fun _ e h _ => Within.handle hnonneg h e)
        (Within.start hnonneg)
    obtain ⟨hzero, hinterval⟩ := hwithin.delays timer delay hget
    use hzero, hinterval.trans hle

end Scheduler

end ProviderSync
