import OpencodeToolbelt.Data.JsMap
import Mathlib.Algebra.Order.Ring.Unbundled.Rat

/-!
# The scheduler of model syncs

A scheduler runs its task at intervals, sooner after a failure, until it is stopped.
-/

namespace ProviderSync

/-- A scheduler, with the timers of the runtime that are its own. -/
structure Scheduler where
  intervalMs : ℚ
  failures : ℕ
  stopped : Bool
  /-- The timer that has been set last. -/
  timeout : Option ℕ
  /-- The timers that are armed, with their delays. -/
  timers : JsMap ℕ ℚ
  timerSeq : ℕ
  /-- How many runs of the task are in progress. -/
  runs : ℕ

namespace Scheduler

variable (s : Scheduler)

def schedule (delayMs : ℚ) : Scheduler :=
  { s with
    timeout := some s.timerSeq
    timers := s.timers.set s.timerSeq delayMs
    timerSeq := s.timerSeq + 1 }

def backoffDelay : ℚ :=
  let retryWindow := 15000 * 2 ^ (s.failures - 1)
  min s.intervalMs retryWindow

/-- A timer fires, and `tick` begins. -/
def tick (timer : ℕ) : Scheduler :=
  let s := { s with timers := s.timers.delete timer }
  if s.stopped then s else { s with runs := s.runs + 1 }

/-- A run of the task completes, and `tick` goes on. -/
def completed (ok : Bool) : Scheduler :=
  let s := { s with runs := s.runs - 1 }
  if ok then { s with failures := 0 }.schedule s.intervalMs
  else
    let s := { s with failures := s.failures + 1 }
    s.schedule s.backoffDelay

def stop : Scheduler :=
  { s with
    stopped := true
    timers := s.timeout.elim s.timers s.timers.delete }

end Scheduler

def startScheduler (intervalMs : ℚ) : Scheduler :=
  Scheduler.schedule
    { intervalMs
      failures := 0
      stopped := false
      timeout := none
      timers := .empty
      timerSeq := 0
      runs := 0 } intervalMs

namespace Scheduler

variable (s : Scheduler)

@[simp]
theorem stopped_startScheduler (intervalMs : ℚ) :
  (startScheduler intervalMs).stopped = false
  := rfl

@[simp]
theorem stopped_tick (timer : ℕ) :
  (s.tick timer).stopped = s.stopped
  := by
  simp only [tick]
  split <;> rfl

@[simp]
theorem stopped_completed (ok : Bool) :
  (s.completed ok).stopped = s.stopped
  := by
  simp only [completed]
  split <;> rfl

@[simp]
theorem stopped_stop :
  s.stop.stopped = true
  := rfl

/-- No run begins once a scheduler has been stopped. -/
theorem runs_tick_of_stopped (h : s.stopped = true) (timer : ℕ) :
  (s.tick timer).runs = s.runs
  := by
  simp only [tick, if_pos h]

end Scheduler

end ProviderSync
