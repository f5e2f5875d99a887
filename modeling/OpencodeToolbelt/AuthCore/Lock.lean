import OpencodeToolbelt.AuthCore.Effects

/-!
# The advisory lock file

`acquireFileLock` creates a lock file exclusively, waits for the holder of an existing one,
and breaks one that it judges to be abandoned.
-/

namespace Auth

def DEFAULT_LOCK_STALE_MS : ℕ := 30000

def DEFAULT_LOCK_POLL_INTERVAL_MS : ℕ := 75

def LOCK_WAIT_MARGIN_MS : ℕ := 5000

structure FileLockOptions where
  staleMs : Option ℕ
  pollIntervalMs : Option ℕ
  maxWaitMs : Option ℕ

structure FileLock where
  acquired : Bool
  reason : Option LockUnavailable
  release : Auth Unit

def positiveOr (value : Option ℕ) (fallback : ℕ) : ℕ :=
  match value with
  | none => fallback
  | some v => if 0 < v then v else fallback

def unavailable (reason : LockUnavailable) : FileLock :=
  { acquired := false
    reason := some reason
    release := pure () }

/-- The age of a lock file. -/
inductive LockAge where
  | ms (age : ℤ)
  | infinite

def LockAge.exceeds : LockAge → ℕ → Bool
  | .ms age, staleMs => (staleMs : ℤ) < age
  | .infinite, _ => true

/-- The age of the lock file from its modification time: infinite when it cannot be
told. -/
def lockAgeFromStat (path : Loc) : Auth (Option LockAge) := do
  match ← perform (.statLock path) with
  | .missing => pure none
  | .failed => pure (some .infinite)
  | .mtime mtime =>
      let now ← now
      pure (some (.ms (now - mtime)))

/-- The age of the lock file, or nothing when it has vanished. -/
def lockAgeMs (path : Loc) : Auth (Option LockAge) := do
  match ← perform (.readLock path) with
  | .missing => pure none
  | .content (some acquiredAt) =>
      let now ← now
      pure (some (.ms (now - acquiredAt)))
  | .content none => lockAgeFromStat path
  | .failed => lockAgeFromStat path

/-- `release` removes whatever file is at the path, and swallows errors. -/
def releaseLock (path : Loc) : Auth Unit := do
  let _ ← perform (.unlinkLock path .release)
  pure ()

/-- The exclusive create succeeded: the payload is written and the handle closed. -/
def writePayload (path : Loc) (inode : ℕ) : Auth FileLock := do
  let acquiredAt ← now
  let written ← perform (.writeLock path inode acquiredAt)
  let closed ← perform (.closeLock inode)
  if written && closed then
    pure { acquired := true, reason := none, release := releaseLock path }
  else pure (unavailable .unwritable)

/-- The loop of `acquireFileLock`, for at most as many passes as its first argument. -/
def acquireLoop : ℕ → Loc → ℕ → ℕ → ℕ → Auth FileLock
  | 0, _, _, _, _ => spin
  | passes + 1, path, staleMs, pollIntervalMs, deadline => do
      match ← perform (.openLock path) with
      | .created inode => writePayload path inode
      | .failed => pure (unavailable .unwritable)
      | .exists =>
          match ← lockAgeMs path with
          | none =>
              if deadline ≤ (← now) then pure (unavailable .timeout)
              else acquireLoop passes path staleMs pollIntervalMs deadline
          | some age =>
              if age.exceeds staleMs then do
                let removed ← perform (.unlinkLock path .stale)
                if deadline ≤ (← now) then pure (unavailable .timeout)
                else if removed then acquireLoop passes path staleMs pollIntervalMs deadline
                else do
                  sleep pollIntervalMs
                  acquireLoop passes path staleMs pollIntervalMs deadline
              else if deadline ≤ (← now) then pure (unavailable .timeout)
              else do
                sleep pollIntervalMs
                acquireLoop passes path staleMs pollIntervalMs deadline

def acquireFileLock (passes : ℕ) (path : Loc) (options : FileLockOptions) : Auth FileLock := do
  let staleMs := positiveOr options.staleMs DEFAULT_LOCK_STALE_MS
  let pollIntervalMs := positiveOr options.pollIntervalMs DEFAULT_LOCK_POLL_INTERVAL_MS
  let maxWaitMs := positiveOr options.maxWaitMs (staleMs + LOCK_WAIT_MARGIN_MS)
  let start ← now
  if ← perform (.mkdirLocks path) then
    acquireLoop passes path staleMs pollIntervalMs (start + maxWaitMs)
  else pure (unavailable .unwritable)

/-! ### The operations of the lock -/

/-- The operations of the lock at a path. -/
def LockOp (path : Loc) : Op → Prop
  | .now => True
  | .sleepUntil _ => True
  | .mkdirLocks _ => True
  | .openLock p => p = path
  | .writeLock p _ _ => p = path
  | .closeLock _ => True
  | .readLock p => p = path
  | .statLock p => p = path
  | .unlinkLock p _ => p = path
  | .spin => True
  | _ => False

theorem now_within {C : Op → Prop} (h : C .now) {α : Type} {f : ℕ → Auth α}
    {R : Except AuthError α → Prop} (hf : ∀ t, (f t).Within C R) :
  (now.bind f).Within C R
  := ⟨h, hf⟩

/-- A lock that was not taken has nothing to release, one that was taken is unlinked. -/
def LockOutcome (path : Loc) : Except AuthError FileLock → Prop
  | .ok lock => lock.release = .done () ∨ lock.release = releaseLock path
  | .error _ => False

/-- Nothing is thrown. -/
def Settled {α : Type} : Except AuthError α → Prop
  | .ok _ => True
  | .error _ => False

theorem lockAgeFromStat_within (path : Loc) :
  (lockAgeFromStat path).Within (LockOp path) Settled
  := by
  apply Program.Within.perform (C := LockOp path) (o := Op.statLock path) rfl
  intro a
  cases a with
  | missing => trivial
  | failed => trivial
  | mtime t => exact ⟨trivial, fun _ => trivial⟩

theorem lockAgeMs_within (path : Loc) :
  (lockAgeMs path).Within (LockOp path) Settled
  := by
  apply Program.Within.perform (C := LockOp path) (o := Op.readLock path) rfl
  intro a
  cases a with
  | missing => trivial
  | failed => apply lockAgeFromStat_within
  | content c =>
      cases c with
      | none => apply lockAgeFromStat_within
      | some t => exact ⟨trivial, fun _ => trivial⟩

theorem writePayload_within (path : Loc) (inode : ℕ) :
  (writePayload path inode).Within (LockOp path) (LockOutcome path)
  := by
  apply now_within trivial
  intro t
  apply Program.Within.perform (C := LockOp path) (o := Op.writeLock path inode t) rfl
  intro written
  apply Program.Within.perform (C := LockOp path) (o := Op.closeLock inode) trivial
  intro closed
  cases hboth : written && closed with
  | false => exact .inl rfl
  | true => exact .inr rfl

theorem acquireLoop_within (passes : ℕ) (path : Loc) (staleMs pollIntervalMs deadline : ℕ) :
  (acquireLoop passes path staleMs pollIntervalMs deadline).Within (LockOp path)
    (LockOutcome path)
  := by
  induction passes with
  | zero => exact ⟨trivial, fun a => a.elim⟩
  | succ passes ih =>
      have hagain : ∀ again : Auth FileLock, again.Within (LockOp path) (LockOutcome path) →
          (now.bind fun t =>
            if deadline ≤ t then .done (unavailable .timeout) else again).Within (LockOp path)
              (LockOutcome path) := by
        intro again h
        apply now_within trivial
        intro t
        split
        · exact .inl rfl
        · apply h
      have hsleep : ((sleep pollIntervalMs).bind fun _ =>
          acquireLoop passes path staleMs pollIntervalMs deadline).Within (LockOp path)
            (LockOutcome path) :=
        ⟨trivial, fun _ => ⟨trivial, fun _ => ih⟩⟩
      apply Program.Within.perform (C := LockOp path) (o := Op.openLock path) rfl
      intro a
      cases a with
      | created inode => apply writePayload_within
      | failed => exact .inl rfl
      | «exists» =>
          apply (lockAgeMs_within path).bind
          · intro age _
            cases age with
            | none => apply hagain _ ih
            | some age =>
                cases hexceeds : age.exceeds staleMs with
                | false =>
                    simp only [hexceeds, Bool.false_eq_true, if_false]
                    apply hagain _ hsleep
                | true =>
                    simp only [hexceeds, if_true]
                    apply Program.Within.perform (C := LockOp path)
                      (o := Op.unlinkLock path .stale) rfl
                    intro removed
                    cases removed with
                    | true => apply hagain _ ih
                    | false => apply hagain _ hsleep
          · exact fun _ h => h.elim

theorem acquireFileLock_within (passes : ℕ) (path : Loc) (options : FileLockOptions) :
  (acquireFileLock passes path options).Within (LockOp path) (LockOutcome path)
  := by
  apply now_within trivial
  intro start
  apply Program.Within.perform (C := LockOp path) (o := Op.mkdirLocks path) trivial
  intro created
  cases created with
  | true => apply acquireLoop_within
  | false => exact .inl rfl

theorem release_within {path : Loc} {lock : FileLock} (h : LockOutcome path (.ok lock)) :
  lock.release.Within (LockOp path) Settled
  := by
  obtain h | h := h
  · rw [h]
    trivial
  · rw [h]
    exact ⟨rfl, fun _ => trivial⟩

end Auth
