import OpencodeToolbelt.Data.JsMap
import OpencodeToolbelt.Async.EventSystem
import Mathlib.Algebra.Order.Ring.Unbundled.Rat

/-!
# The gate of a bucket

The requests of a bucket wait out its cooldown at a gate. They share one timer as long as it
holds none of them for longer than it has to wait. Times are in milliseconds.
-/

namespace RateLimit

/-- The state of a bucket. -/
structure ProviderRateState where
  cooldownUntilMs : ℚ
  cooldownMaxWaitMs : ℚ
  /-- The sleep that the callers share. -/
  cooldownPromise : Option ℕ
  cooldownPromiseUntilMs : Option ℚ

def createProviderState : ProviderRateState where
  cooldownUntilMs := 0
  cooldownMaxWaitMs := 0
  cooldownPromise := none
  cooldownPromiseUntilMs := none

/-- A sleep that has not settled. -/
structure Sleep where
  due : ℚ
  /-- The timer has fired, and the `finally` of the sleep has not run. -/
  fired : Bool

/-- Where a call of `waitGate` is. -/
inductive WaitPhase where
  /-- It awaits a sleep, with the target that its last check has computed. -/
  | pending (target : ℚ) (sleep : ℕ)
  /-- It has returned, at a time and during a cooldown. -/
  | returned (time : ℚ) (cooldownUntilMs : ℚ)

/-- A call of `waitGate`. -/
structure Waiter where
  started : ℚ
  maxWaitMs : ℚ
  phase : WaitPhase

/-- The deadline of a call; `none` stands for positive infinity. -/
def deadlineMs (started maxWaitMs : ℚ) : Option ℚ :=
  if 0 < maxWaitMs then some (started + maxWaitMs) else none

/-- `Math.min(ms, deadlineMs)` -/
def minDeadline (ms : ℚ) (deadlineMs : Option ℚ) : ℚ := deadlineMs.elim ms (min ms)

/-- A bucket with the calls that wait at its gate. -/
structure Gate where
  now : ℚ
  bucket : ProviderRateState
  sleeps : JsMap ℕ Sleep
  sleepSeq : ℕ
  waiters : JsMap ℕ Waiter
  waiterSeq : ℕ

inductive GateEvent where
  /-- `waitGate` is called. -/
  | waitGate (maxWaitMs : ℚ)
  /-- A response arms, moves or clears the cooldown. -/
  | cooldown (untilMs maxWaitMs : ℚ)
  /-- The timer of a sleep fires. -/
  | fire (sleep : ℕ)
  /-- The `finally` of a sleep runs. -/
  | settle (sleep : ℕ)
  /-- A call goes on after its sleep. -/
  | wake (waiter : ℕ)
  /-- Time goes on. -/
  | pass (time : ℚ)

namespace Gate

def initial (now : ℚ) : Gate where
  now
  bucket := createProviderState
  sleeps := .empty
  sleepSeq := 0
  waiters := .empty
  waiterSeq := 0

variable (g : Gate)

/-- The shared timer, unless it makes a call wait for longer than it needs. -/
def reusable (remainingMs : ℚ) : Option ℕ :=
  g.bucket.cooldownPromise.filter fun _ =>
    !g.bucket.cooldownPromiseUntilMs.any fun untilMs => untilMs - g.now > remainingMs

/-- A sleep is created, and published unless there is a shared one. -/
def createSleep (remainingMs : ℚ) : Gate :=
  { g with
    sleeps := g.sleeps.set g.sleepSeq { due := g.now + remainingMs, fired := false }
    sleepSeq := g.sleepSeq + 1
    bucket :=
      if g.bucket.cooldownPromise.isNone then
        { g.bucket with
          cooldownPromise := some g.sleepSeq
          cooldownPromiseUntilMs := some (g.now + remainingMs) }
      else g.bucket }

def setWaiter (i : ℕ) (w : Waiter) : Gate := { g with waiters := g.waiters.set i w }

/-- One round of the loop of `waitGate`. -/
def check (i : ℕ) (started maxWaitMs : ℚ) : Gate :=
  let target := minDeadline g.bucket.cooldownUntilMs (deadlineMs started maxWaitMs)
  let remainingMs := target - g.now
  if remainingMs ≤ 0 then
    g.setWaiter i { started, maxWaitMs, phase := .returned g.now g.bucket.cooldownUntilMs }
  else
    match g.reusable remainingMs with
    | some shared => g.setWaiter i { started, maxWaitMs, phase := .pending target shared }
    | none =>
        (g.createSleep remainingMs).setWaiter i
          { started, maxWaitMs, phase := .pending target g.sleepSeq }

def handle : GateEvent → Gate
  | .waitGate maxWaitMs =>
      { g with waiterSeq := g.waiterSeq + 1 }.check g.waiterSeq g.now maxWaitMs
  | .cooldown cooldownUntilMs cooldownMaxWaitMs =>
      { g with bucket := { g.bucket with cooldownUntilMs, cooldownMaxWaitMs } }
  | .fire p =>
      (g.sleeps.get p).elim g fun sleep =>
        { g with sleeps := g.sleeps.set p { sleep with fired := true } }
  | .settle p =>
      { g with
        sleeps := g.sleeps.delete p
        bucket :=
          if g.bucket.cooldownPromise = some p then
            { g.bucket with cooldownPromise := none, cooldownPromiseUntilMs := none }
          else g.bucket }
  | .wake i => (g.waiters.get i).elim g fun w => g.check i w.started w.maxWaitMs
  | .pass now => { g with now }

/-- Whether a call can go on: the sleep that it awaits has settled. -/
def wakeable (w : Waiter) : Bool :=
  match w.phase with
  | .pending _ p => !g.sleeps.has p
  | .returned _ _ => false

/-- Which events may occur. A timer fires when it is due, and time does not go on before what
follows from that has been done. -/
def enabled : GateEvent → Bool
  | .fire p => (g.sleeps.get p).any fun sleep => !sleep.fired && sleep.due = g.now
  | .settle p => (g.sleeps.get p).any fun sleep => sleep.fired
  | .wake i => (g.waiters.get i).any g.wakeable
  | .pass time =>
      decide (g.now ≤ time) && g.sleeps.values.all (fun sleep => !sleep.fired && time ≤ sleep.due)
        && g.waiters.values.all (fun w => !g.wakeable w)
  | _ => true

def system : EventSystem Gate GateEvent where
  enabled g e := g.enabled e = true
  next := handle

instance (g : Gate) (e : GateEvent) : Decidable (system.enabled g e) :=
  inferInstanceAs (Decidable (g.enabled e = true))

end Gate

end RateLimit
