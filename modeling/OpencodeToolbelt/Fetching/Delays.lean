import OpencodeToolbelt.Fetching.Limiting
import OpencodeToolbelt.ProviderSync.Intervals
import OpencodeToolbelt.RateLimit.Config
import OpencodeToolbelt.RateLimit.Waiting

/-!
# Delays

The delays that are handed to `setTimeout`, which takes a delay above its limit for one of a
millisecond.
-/

open RateLimit

/-- The longest delay that `setTimeout` takes, in milliseconds. -/
def maxTimeout : ℚ := 2 ^ 31 - 1

theorem maxTimeout_nonneg :
  0 ≤ maxTimeout
  := by
  norm_num [maxTimeout]

namespace RateLimit

open Fetch (hasReturned)

/-- A limit of waits that `setTimeout` takes. -/
def Short (maxWaitMs : ℚ) : Prop := 0 < maxWaitMs ∧ maxWaitMs ≤ maxTimeout

namespace Gate

/-- The delay of the sleep that a gate has and another one had not. -/
def armed (g g' : Gate) : Option ℚ :=
  (g'.sleeps.get g.sleepSeq).map fun sleep => sleep.due - g'.now

/-- The calls that wait at a gate have a limit that `setTimeout` takes. -/
def ShortWaits (g : Gate) : Prop :=
  ∀ i w, g.waiters.get i = some w → hasReturned w = false → Short w.maxWaitMs

/-- A gate whose next sleeps are no longer than `setTimeout` takes. -/
structure Calm (g : Gate) : Prop where
  fresh : ∀ p, g.sleepSeq ≤ p → g.sleeps.get p = none
  started : ∀ i w, g.waiters.get i = some w → w.started ≤ g.now
  near : g.bucket.cooldownUntilMs - g.now ≤ maxTimeout ∨
    (Short g.bucket.cooldownMaxWaitMs ∧ g.ShortWaits)

/-- A calm gate becomes another one, and a sleep that is created on the way is not too long. -/
structure Eases (g g' : Gate) : Prop where
  calm : g'.Calm
  now : g'.now = g.now
  fits : ∀ d, g.armed g' = some d → 0 ≤ d ∧ d ≤ maxTimeout

theorem minDeadline_le_left (ms : ℚ) (deadline : Option ℚ) :
  minDeadline ms deadline ≤ ms
  := by
  cases deadline with
  | none => apply le_rfl
  | some d => apply min_le_left

/-- What a call at a gate has still to wait. -/
theorem remaining_le {g : Gate} {started maxWaitMs : ℚ} (hstarted : started ≤ g.now)
    (hnear : g.bucket.cooldownUntilMs - g.now ≤ maxTimeout ∨ Short maxWaitMs) :
  minDeadline g.bucket.cooldownUntilMs (deadlineMs started maxWaitMs) - g.now ≤ maxTimeout
  := by
  rcases hnear with hnear | ⟨hpos, hmax⟩
  · have hle := minDeadline_le_left g.bucket.cooldownUntilMs (deadlineMs started maxWaitMs)
    linarith
  · have hle : minDeadline g.bucket.cooldownUntilMs (deadlineMs started maxWaitMs) ≤
        started + maxWaitMs :=
      minDeadline_le _ (if_pos hpos)
    linarith

namespace Calm

variable {g : Gate} (h : g.Calm)

include h

/-- No sleep has been created. -/
theorem fits_of_sleeps {g' : Gate} (hsleeps : g'.sleeps = g.sleeps) :
  ∀ d, g.armed g' = some d → 0 ≤ d ∧ d ≤ maxTimeout
  := by
  intro d hd
  rw [armed, hsleeps, h.fresh _ le_rfl] at hd
  cases hd

theorem setWaiter {i : ℕ} {w : Waiter} (hstarted : w.started ≤ g.now)
    (hshort : g.bucket.cooldownUntilMs - g.now ≤ maxTimeout ∨
      (hasReturned w = false → Short w.maxWaitMs)) :
  (g.setWaiter i w).Calm
  := by
  constructor
  · apply h.fresh
  · intro j w' hget
    rw [Gate.setWaiter, JsMap.get_set] at hget
    split at hget
    · rw [← Option.some.inj hget]
      apply hstarted
    · apply h.started j w' hget
  · rcases hshort with hnear | hshort
    · apply Or.inl hnear
    · rcases h.near with hnear | ⟨hmax, hwaits⟩
      · apply Or.inl hnear
      · right
        use hmax
        intro j w' hget
        rw [Gate.setWaiter, JsMap.get_set] at hget
        split at hget
        · rw [← Option.some.inj hget]
          apply hshort
        · apply hwaits j w' hget

theorem createSleep (remainingMs : ℚ) :
  (g.createSleep remainingMs).Calm
  := by
  constructor
  · intro p hp
    rw [Gate.createSleep, JsMap.get_set, if_neg (by rintro rfl; exact absurd hp (Nat.not_succ_le_self _))]
    apply h.fresh p (Nat.le_of_succ_le hp)
  · apply h.started
  · rcases h.near with hnear | hshort
    · left
      simp only [Gate.createSleep]
      split <;> apply hnear
    · right
      simp only [Gate.createSleep]
      constructor
      · split <;> apply hshort.1
      · apply hshort.2

/-- A round of the loop of `waitGate`. -/
theorem check (i : ℕ) {started maxWaitMs : ℚ} (hstarted : started ≤ g.now)
    (hnear : g.bucket.cooldownUntilMs - g.now ≤ maxTimeout ∨ Short maxWaitMs) :
  g.Eases (g.check i started maxWaitMs)
  := by
  have hremaining := remaining_le hstarted hnear
  simp only [Gate.check]
  split
  · constructor
    · apply h.setWaiter hstarted
      rcases hnear with hnear | hshort
      · apply Or.inl hnear
      · apply Or.inr fun _ => hshort
    · rfl
    · apply h.fits_of_sleeps rfl
  · next hpos =>
      split
      · constructor
        · apply h.setWaiter hstarted
          rcases hnear with hnear | hshort
          · apply Or.inl hnear
          · apply Or.inr fun _ => hshort
        · rfl
        · apply h.fits_of_sleeps rfl
      · constructor
        · apply (h.createSleep _).setWaiter hstarted
          rcases hnear with hnear | hshort
          · left
            simp only [Gate.createSleep]
            split <;> apply hnear
          · apply Or.inr fun _ => hshort
        · rfl
        · intro d hd
          simp only [armed, Gate.setWaiter, Gate.createSleep, JsMap.get_set_self, Option.map_some,
            add_sub_cancel_left] at hd
          rw [← Option.some.inj hd]
          use (not_le.mp hpos).le, hremaining

theorem waitGate {maxWaitMs : ℚ}
    (hnear : g.bucket.cooldownUntilMs - g.now ≤ maxTimeout ∨ Short maxWaitMs) :
  g.Eases (g.handle (.waitGate maxWaitMs))
  := by
  have hcalm : Calm { g with waiterSeq := g.waiterSeq + 1 } := ⟨h.fresh, h.started, h.near⟩
  obtain ⟨hcalm', hnow, hfits⟩ := hcalm.check g.waiterSeq le_rfl hnear
  use hcalm', hnow, hfits

/-- A call goes on that has waited. -/
theorem wake {i : ℕ} {w : Waiter} (hget : g.waiters.get i = some w)
    (hpending : hasReturned w = false) :
  g.Eases (g.handle (.wake i))
  := by
  have hnear : g.bucket.cooldownUntilMs - g.now ≤ maxTimeout ∨ Short w.maxWaitMs := by
    rcases h.near with hnear | ⟨-, hwaits⟩
    · apply Or.inl hnear
    · apply Or.inr (hwaits i w hget hpending)
  have hcheck := h.check i (h.started i w hget) hnear
  simp only [handle, hget]
  apply hcheck

theorem cooldown {untilMs maxWaitMs : ℚ}
    (hnear : untilMs - g.now ≤ maxTimeout ∨ (Short maxWaitMs ∧ g.ShortWaits)) :
  g.Eases (g.handle (.cooldown untilMs maxWaitMs))
  := by
  use ⟨h.fresh, h.started, hnear⟩, rfl, h.fits_of_sleeps rfl

theorem fire (p : ℕ) :
  g.Eases (g.handle (.fire p))
  := by
  cases hget : g.sleeps.get p with
  | none =>
      simp only [handle, hget]
      use h, rfl, h.fits_of_sleeps rfl
  | some sleep =>
      have hfresh : ∀ q, g.sleepSeq ≤ q →
          (g.sleeps.set p { sleep with fired := true }).get q = none := by
        intro q hq
        rw [JsMap.get_set, if_neg]
        · apply h.fresh q hq
        · rintro rfl
          rw [h.fresh q hq] at hget
          cases hget
      simp only [handle, hget]
      use ⟨hfresh, h.started, h.near⟩, rfl
      intro d hd
      simp only [armed, Option.elim, hfresh _ le_rfl] at hd
      cases hd

theorem settle (p : ℕ) :
  g.Eases (g.handle (.settle p))
  := by
  have hfresh : ∀ q, g.sleepSeq ≤ q → (g.sleeps.delete p).get q = none := by
    intro q hq
    rw [JsMap.get_delete, h.fresh q hq, ite_self]
  constructor
  · constructor
    · apply hfresh
    · apply h.started
    · rcases h.near with hnear | hshort
      · left
        simp only [handle]
        split <;> apply hnear
      · right
        simp only [handle]
        constructor
        · split <;> apply hshort.1
        · apply hshort.2
  · rfl
  · intro d hd
    simp only [armed, handle, hfresh _ le_rfl] at hd
    cases hd

/-- A call is aborted. -/
theorem deleteWaiter (i : ℕ) :
  g.Eases { g with waiters := g.waiters.delete i }
  := by
  constructor
  · constructor
    · apply h.fresh
    · intro j w hget
      apply h.started j w (JsMap.get_of_get_delete hget)
    · rcases h.near with hnear | ⟨hmax, hwaits⟩
      · apply Or.inl hnear
      · right
        use hmax
        intro j w hget
        apply hwaits j w (JsMap.get_of_get_delete hget)
  · rfl
  · apply h.fits_of_sleeps rfl

/-- Time goes on. -/
theorem later {now : ℚ} (hle : g.now ≤ now) :
  Calm { g with now }
  := by
  constructor
  · apply h.fresh
  · intro i w hget
    apply (h.started i w hget).trans hle
  · rcases h.near with hnear | hshort
    · left
      dsimp only
      linarith
    · apply Or.inr hshort

end Calm

theorem Calm.initial {now : ℚ} (h : 0 ≤ now) :
  (initial now).Calm
  := by
  constructor
  · intro p hp
    rfl
  · rintro i w ⟨⟩
  · left
    have hmax := maxTimeout_nonneg
    simp only [Gate.initial, createProviderState]
    linarith

theorem Eases.trans {g g' g'' : Gate} (h : g.Eases g') (h' : g'.Eases g'')
    (hseq : g'.sleepSeq = g.sleepSeq) :
  g.Eases g''
  := by
  use h'.calm, h'.now.trans h.now
  intro d hd
  apply h'.fits d
  rw [← hd, armed, armed, hseq]

end Gate

end RateLimit

/-! ### Requests -/

namespace Fetch.Limited

section Conditions

variable {Context : Type} (platform : FetchPlatform Context) (limiter : RateLimiter)

/-- A response makes calls wait: the request itself is to be sent again, or the window is exhausted
and the next callers are to wait. -/
def Arms (attempt : ℕ) (response : Response) (now : ℚ) : Prop :=
  let snapshot := readSnapshot platform limiter response now
  (limiter.opts.tierOf snapshot).action = .wait ∧
    if response.status = 429 then attempt < (limiter.opts.tierOf snapshot).maxRetries
    else (∃ remaining ≤ 0, snapshot.remaining = some remaining) ∧ snapshot.resetAtMs ≠ none

/-- The calls that a response makes wait do so for no longer than `setTimeout` takes: the window
ends soon enough, or the tier and all the calls that wait already have a limit that is. -/
def Mild (l : Limited) (now : ℚ) : LimiterEvent → Prop
  | .respond id response => ∀ flight, l.requests.get id = some flight →
      Arms platform limiter flight.attempt response now →
        computeBackoff (readSnapshot platform limiter response now) now ≤ maxTimeout ∨
        (Short (limiter.opts.tierOf (readSnapshot platform limiter response now)).maxWaitMs ∧
          (response.status = 429 ∨ (l.gate limiter.providerId id.model now).ShortWaits))
  | _ => True

end Conditions

/-- The gates are calm. -/
structure Calm (now : ℚ) (l : Limited) : Prop where
  now_nonneg : 0 ≤ now
  gates : ∀ key g, l.store.get key = some g → g.now ≤ now ∧ g.Calm

section Gates

variable {providerId : String} {l l' : Limited} {now : ℚ}

theorem Calm.mono {now' : ℚ} (h : l.Calm now) (hle : now ≤ now') :
  l.Calm now'
  := by
  use h.now_nonneg.trans hle
  intro key g hget
  obtain ⟨hnow, hcalm⟩ := h.gates key g hget
  exact ⟨hnow.trans hle, hcalm⟩

theorem Calm.gate (h : l.Calm now) (model : Option JsUnits) :
  (l.gate providerId model now).Calm
  := by
  unfold Limited.gate
  cases hget : l.store.get (bucketKey providerId model) with
  | none => apply (Gate.Calm.initial h.now_nonneg).later le_rfl
  | some g =>
      obtain ⟨hnow, hcalm⟩ := h.gates _ g hget
      apply hcalm.later hnow

/-- The delay of the sleep that a bucket has after an event and had not before. -/
def delay (providerId : String) (l l' : Limited) (model : Option JsUnits) (now : ℚ) : Option ℚ :=
  (l.gate providerId model now).armed (l'.gate providerId model now)

/-- The buckets are as they were, except that one may have been eased. -/
def Eases (providerId : String) (now : ℚ) (model : Option JsUnits) (l l' : Limited) : Prop :=
  l'.store = l.store ∨ ∃ g, l'.store = l.store.set (bucketKey providerId model) g ∧
    (l.gate providerId model now).Eases g

theorem Eases.calm {model : Option JsUnits} (heases : Eases providerId now model l l')
    (h : l.Calm now) :
  l'.Calm now
  := by
  use h.now_nonneg
  intro key g hget
  rcases heases with hstore | ⟨g', hstore, heases⟩
  · rw [hstore] at hget
    apply h.gates key g hget
  · rw [hstore, JsMap.get_set] at hget
    split at hget
    · rw [← Option.some.inj hget]
      exact ⟨heases.now.le, heases.calm⟩
    · apply h.gates key g hget

theorem Eases.delay {model : Option JsUnits} (heases : Eases providerId now model l l')
    (h : l.Calm now) (model' : Option JsUnits) :
  ∀ d, Limited.delay providerId l l' model' now = some d → 0 ≤ d ∧ d ≤ maxTimeout
  := by
  have hsame : l'.store.get (bucketKey providerId model') =
      l.store.get (bucketKey providerId model') →
      ∀ d, Limited.delay providerId l l' model' now = some d → 0 ≤ d ∧ d ≤ maxTimeout := by
    intro hget
    apply (h.gate model').fits_of_sleeps
    simp only [Limited.gate, hget]
  rcases heases with hstore | ⟨g, hstore, heases⟩
  · apply hsame
    rw [hstore]
  · by_cases hkey : bucketKey providerId model' = bucketKey providerId model
    · have hgate : l'.gate providerId model' now = g := by
        have hnow : g.now = now := heases.now
        simp only [Limited.gate, hstore, hkey, JsMap.get_set_self, Option.getD_some, ← hnow]
      have hgate' : l.gate providerId model' now = l.gate providerId model now := by
        simp only [Limited.gate, hkey]
      rw [Limited.delay, hgate, hgate']
      apply heases.fits
    · apply hsame
      rw [hstore, JsMap.get_set_of_ne _ hkey]

end Gates

variable {N : Type} [JsNumber N] {Context : Type} (platform : FetchPlatform Context)
  (limiter : RateLimiter) {l : Limited} {now : ℚ}

theorem eases_waitGate {id : RequestId} {g : Gate} {maxWaitMs : ℚ} (flight : Flight)
    (h : (l.gate limiter.providerId id.model now).Eases
      (g.handle (.waitGate maxWaitMs))) :
  Eases limiter.providerId now id.model l
    (l.waitGate limiter.providerId id flight g maxWaitMs)
  := Or.inr ⟨_, rfl, h⟩

theorem eases_throttle (h : l.Calm now) (id : RequestId) :
  Eases limiter.providerId now id.model l (l.throttle limiter now id)
  := by
  have hgate : (l.gate limiter.providerId id.model now).Calm := h.gate id.model
  simp only [throttle]
  split
  · apply eases_waitGate
    apply hgate.waitGate
    rcases hgate.near with hnear | ⟨hmax, -⟩
    · apply Or.inl hnear
    · apply Or.inr hmax
  · right
    use l.gate limiter.providerId id.model now, rfl
    use hgate, rfl, hgate.fits_of_sleeps rfl

theorem eases_surface (h : l.Calm now) (id : RequestId) (response : Response) (flight : Flight)
    {cooldown : Option (ℚ × ℚ)}
    (hcooldown : ∀ untilMs maxWaitMs, cooldown = some (untilMs, maxWaitMs) →
      untilMs - now ≤ maxTimeout ∨
        (Short maxWaitMs ∧ (l.gate limiter.providerId id.model now).ShortWaits)) :
  Eases limiter.providerId now id.model l
    (l.surface limiter now id flight response cooldown)
  := by
  have hgate : (l.gate limiter.providerId id.model now).Calm := h.gate id.model
  right
  cases cooldown with
  | none =>
      use l.gate limiter.providerId id.model now, rfl
      use hgate, rfl, hgate.fits_of_sleeps rfl
  | some c =>
      use (l.gate limiter.providerId id.model now).handle (.cooldown c.1 c.2), rfl
      apply hgate.cooldown
      apply hcooldown c.1 c.2 rfl

theorem eases_backoff (h : l.Calm now) (id : RequestId) (flight : Flight) {tier : RateLimitTier}
    {snapshot : RateLimitSnapshot}
    (hwait : clampWait (computeBackoff snapshot now) tier.maxWaitMs ≤ maxTimeout) :
  Eases limiter.providerId now id.model l (l.backoff limiter now id flight tier snapshot)
  := by
  have hgate : (l.gate limiter.providerId id.model now).Calm := h.gate id.model
  have hnear : now + clampWait (computeBackoff snapshot now) tier.maxWaitMs - now ≤ maxTimeout := by
    linarith
  have hcooldown : (l.gate limiter.providerId id.model now).Eases
      ((l.gate limiter.providerId id.model now).handle
        (.cooldown (now + clampWait (computeBackoff snapshot now) tier.maxWaitMs)
          tier.maxWaitMs)) :=
    hgate.cooldown (Or.inl hnear)
  apply eases_waitGate
  apply hcooldown.trans _ rfl
  apply hcooldown.calm.waitGate (Or.inl hnear)

theorem clampWait_le {ms maxWaitMs : ℚ} (h : ms ≤ maxTimeout ∨ Short maxWaitMs) :
  clampWait ms maxWaitMs ≤ maxTimeout
  := by
  unfold clampWait
  rcases h with hms | ⟨hpos, hmax⟩
  · have hle : max 0 ms ≤ maxTimeout := max_le maxTimeout_nonneg hms
    split
    · apply (min_le_left _ _).trans hle
    · apply hle
  · rw [if_pos hpos]
    apply (min_le_right _ _).trans hmax

/-- A response that sets a cooldown for the next callers clears it or makes them wait. -/
theorem exhaustedCooldown_eq_some {tier : RateLimitTier} {snapshot : RateLimitSnapshot}
    {untilMs maxWaitMs : ℚ} (h : exhaustedCooldown tier snapshot = some (untilMs, maxWaitMs)) :
  untilMs = 0 ∨ (tier.action = .wait ∧ maxWaitMs = tier.maxWaitMs ∧
    snapshot.resetAtMs = some untilMs ∧ ∃ remaining ≤ 0, snapshot.remaining = some remaining)
  := by
  unfold exhaustedCooldown at h
  split at h
  · next remaining resetAtMs hremaining hreset =>
      split_ifs at h with hleft haction
      · obtain ⟨rfl, rfl⟩ := Prod.mk.inj (Option.some.inj h)
        exact Or.inr ⟨haction, rfl, hreset, remaining, not_lt.mp hleft, hremaining⟩
      · apply Or.inl (Prod.mk.inj (Option.some.inj h)).1.symm
  · cases h

/-- A response that is surfaced clears the cooldown, if it sets one, or makes calls wait. -/
theorem verdict_eq_surface_some {attempt : ℕ} {response : Response} {untilMs maxWaitMs : ℚ}
    (h : verdict platform limiter attempt response now = .surface (some (untilMs, maxWaitMs))) :
  untilMs = 0 ∨ (Arms platform limiter attempt response now ∧ response.status ≠ 429 ∧
    maxWaitMs = (limiter.opts.tierOf (readSnapshot platform limiter response now)).maxWaitMs ∧
    (readSnapshot platform limiter response now).resetAtMs = some untilMs)
  := by
  simp only [verdict] at h
  split_ifs at h with hstatus haction hleft
  · rcases exhaustedCooldown_eq_some (Verdict.surface.inj h) with
      hzero | ⟨haction, hmax, hreset, hremaining⟩
    · apply Or.inl hzero
    · right
      refine ⟨⟨haction, ?_⟩, hstatus, hmax, hreset⟩
      rw [if_neg hstatus, hreset]
      use hremaining
      simp
  · left
    apply (Prod.mk.inj (Option.some.inj (Verdict.surface.inj h))).1.symm
  · cases h

theorem eases_respond (h : l.Calm now) {id : RequestId} {response : Response} {flight : Flight}
    (hflight : l.requests.get id = some flight)
    (hmild : Mild platform limiter l now (.respond id response)) :
  Eases limiter.providerId now id.model l (l.respond platform limiter now id response flight)
  := by
  unfold respond
  cases hverdict : verdict platform limiter flight.attempt response now with
  | surface cooldown =>
      apply eases_surface limiter h
      rintro untilMs maxWaitMs rfl
      rcases verdict_eq_surface_some platform limiter hverdict with
        rfl | ⟨harms, hstatus, rfl, hreset⟩
      · left
        have hmax := maxTimeout_nonneg
        have hnow := h.now_nonneg
        linarith
      · rcases hmild flight hflight harms with hwindow | ⟨hmax, hstatus' | hwaits⟩
        · left
          simp only [computeBackoff, hreset] at hwindow
          apply (le_max_right _ _).trans hwindow
        · apply absurd hstatus' hstatus
        · apply Or.inr ⟨hmax, hwaits⟩
  | retry tier snapshot =>
      obtain ⟨⟨hstatus, haction, hleft⟩, rfl, rfl⟩ := (verdict_eq_retry_iff platform).mp hverdict
      have harms : Arms platform limiter flight.attempt response now := by
        use haction
        rw [if_pos hstatus]
        apply hleft
      apply eases_backoff limiter h
      apply clampWait_le
      rcases hmild flight hflight harms with hwindow | ⟨hmax, -⟩
      · apply Or.inl hwindow
      · apply Or.inr hmax

/-- The buckets are eased by every event that is mild. -/
theorem eases_handle (h : l.Calm now) {e : LimiterEvent}
    (henabled : l.enabled N limiter now e = true) (hmild : Mild platform limiter l now e) :
  Eases limiter.providerId now e.model l (l.handle platform limiter now e)
  := by
  have hgate : ∀ model, (l.gate limiter.providerId model now).Calm := fun model => h.gate model
  cases e with
  | call id input init worked => apply eases_throttle limiter h
  | respond id response =>
      simp only [handle]
      cases hflight : l.requests.get id with
      | none => apply Or.inl rfl
      | some flight => apply eases_respond platform limiter h hflight hmild
  | fail id =>
      left
      simp only [handle]
      cases l.requests.get id <;> rfl
  | resume id =>
      left
      simp only [handle]
      cases l.requests.get id <;> rfl
  | wake id =>
      simp only [handle]
      cases hwait : l.lastWait id with
      | none => apply Or.inl rfl
      | some i =>
          right
          use (l.gate limiter.providerId id.model now).handle (.wake i), rfl
          simp only [enabled, waiter, hwait, Bool.and_eq_true] at henabled
          obtain ⟨w, hget, hwakeable⟩ := (Option.any_eq_true _ _).mp henabled.2
          apply (hgate id.model).wake hget
          unfold Gate.wakeable at hwakeable
          unfold hasReturned
          split at hwakeable
          · next hphase => rw [hphase]
          · cases hwakeable
  | abort id =>
      simp only [handle]
      cases hflight : l.requests.get id with
      | none => apply Or.inl rfl
      | some flight =>
          refine Or.inr ⟨_, rfl, ?_⟩
          cases flight.waits.head? with
          | none => use hgate id.model, rfl, (hgate id.model).fits_of_sleeps rfl
          | some i => apply (hgate id.model).deleteWaiter i
  | fire model p => exact Or.inr ⟨_, rfl, (hgate model).fire p⟩
  | settle model p => exact Or.inr ⟨_, rfl, (hgate model).settle p⟩

/-- In a run whose responses are mild, no sleep is for longer than `setTimeout` takes. -/
theorem delay_fits {es : List (ℚ × LimiterEvent)} {e : ℚ × LimiterEvent}
    (h : ((system N platform limiter).restrict (Mild platform limiter)).Runs 0 initial
      (es ++ [e])) (model : Option JsUnits) {d : ℚ}
    (hd : delay limiter.providerId ((system N platform limiter).after initial es)
      ((system N platform limiter).after initial (es ++ [e])) model e.1 = some d) :
  0 ≤ d ∧ d ≤ maxTimeout
  := by
  have hstep : ∀ now l t e, Calm now l → now ≤ t →
      ((system N platform limiter).restrict (Mild platform limiter)).enabled l t e →
      Calm t (l.handle platform limiter t e) := by
    rintro now l t e hcalm hle ⟨henabled, hmild⟩
    have hcalm' := hcalm.mono hle
    apply (eases_handle platform limiter hcalm' henabled hmild).calm hcalm'
  have hinitial : Calm 0 initial := by
    use le_rfl
    rintro key g ⟨⟩
  obtain ⟨now, hcalm, hle, henabled, hmild⟩ := h.preserves hstep hinitial
  have hcalm' := hcalm.mono hle
  have heases := eases_handle platform limiter hcalm' henabled hmild
  rw [TimedSystem.after_concat] at hd
  apply heases.delay hcalm' model d hd

/-- The window is exhausted until its reset. -/
def exhausted (reset : String) : Response where
  status := 200
  statusText := "OK"
  headers := (Headers.empty.set "x-ratelimit-remaining" "0").set "x-ratelimit-reset" reset
  body := none

/-- A request that exhausts the window. -/
def exhausting (reset : String) : List (ℚ × LimiterEvent) :=
  [(0, .call ⟨none, 0⟩ (.text "u") none true), (0, .respond ⟨none, 0⟩ (exhausted reset))]

/-- The request after it. -/
def nextCall : ℚ × LimiterEvent := (0, .call ⟨none, 1⟩ (.text "u") none true)

end Fetch.Limited
