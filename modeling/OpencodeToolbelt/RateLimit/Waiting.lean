import OpencodeToolbelt.RateLimit.Gate
import Mathlib.Tactic.Linarith

/-!
# How long a call waits at the gate

No call is held past the target of its last check, whoever has armed the timer it awaits, and
the shared timer is due when the bucket says.
-/

namespace RateLimit

theorem minDeadline_le (ms : ℚ) {deadline : Option ℚ} {d : ℚ} (h : deadline = some d) :
  minDeadline ms deadline ≤ d
  := by
  rw [h]
  apply min_le_right

/-- The bounds that the gate keeps to. -/
structure Gate.Bounded (g : Gate) : Prop where
  /-- A call returns by its deadline, and not before its cooldown or its deadline is over. -/
  returned : ∀ i w time cooldownUntilMs, g.waiters.get i = some w →
    w.phase = .returned time cooldownUntilMs →
      minDeadline cooldownUntilMs (deadlineMs w.started w.maxWaitMs) ≤ time ∧
        (0 < w.maxWaitMs → time ≤ w.started + w.maxWaitMs)
  /-- A call that waits is not past the target of its last check, nor past its deadline. -/
  pending : ∀ i w target p, g.waiters.get i = some w → w.phase = .pending target p →
    g.now ≤ target ∧ (0 < w.maxWaitMs → g.now ≤ w.started + w.maxWaitMs)
  /-- The shared timer is due when the bucket says. -/
  promise : ∀ p, g.bucket.cooldownPromise = some p →
    ∃ sleep, g.sleeps.get p = some sleep ∧ g.bucket.cooldownPromiseUntilMs = some sleep.due

namespace Gate

/-- What holds of a call in every state. -/
def InTime (g : Gate) (w : Waiter) : Prop :=
  match w.phase with
  | .returned time cooldownUntilMs =>
      minDeadline cooldownUntilMs (deadlineMs w.started w.maxWaitMs) ≤ time ∧
        ∀ d, deadlineMs w.started w.maxWaitMs = some d → time ≤ d
  | .pending target p =>
      p < g.sleepSeq ∧ g.now ≤ target ∧
        (∀ d, deadlineMs w.started w.maxWaitMs = some d → target ≤ d) ∧
        ∀ sleep, g.sleeps.get p = some sleep → sleep.due ≤ target

/-- The invariant of the gate. -/
structure Timely (g : Gate) : Prop where
  promise : ∀ p, g.bucket.cooldownPromise = some p →
    ∃ sleep, g.sleeps.get p = some sleep ∧ g.bucket.cooldownPromiseUntilMs = some sleep.due
  due : ∀ p sleep, g.sleeps.get p = some sleep → p < g.sleepSeq ∧ g.now ≤ sleep.due
  fired : ∀ p sleep, g.sleeps.get p = some sleep → sleep.fired = true → sleep.due = g.now
  waiters : ∀ i w, g.waiters.get i = some w → g.InTime w

section Steps

variable {g : Gate}

theorem reusable_eq_some {remainingMs : ℚ} {p : ℕ} (hg : g.Timely)
    (h : g.reusable remainingMs = some p) :
  ∃ sleep, g.sleeps.get p = some sleep ∧ sleep.due ≤ g.now + remainingMs
  := by
  obtain ⟨hp, hnot⟩ := Option.filter_eq_some_iff.mp h
  obtain ⟨sleep, hsleep, hdue⟩ := hg.promise p hp
  use sleep, hsleep
  rw [hdue, Option.any_some, Bool.not_eq_true', decide_eq_false_iff_not, not_lt] at hnot
  linarith

namespace Timely

theorem initial (now : ℚ) :
  (Gate.initial now).Timely
  := by
  constructor
  · exact fun p h => by cases h
  · exact fun p sleep h => by cases h
  · exact fun p sleep h => by cases h
  · exact fun i w h => by cases h

/-- A call comes to another place. -/
theorem setWaiter (hg : g.Timely) {i : ℕ} {w : Waiter} (hw : g.InTime w) :
  (g.setWaiter i w).Timely
  := by
  constructor
  · apply hg.promise
  · apply hg.due
  · apply hg.fired
  · intro j w' hj
    change (g.waiters.set i w).get j = some w' at hj
    rw [JsMap.get_set] at hj
    split at hj
    · obtain rfl := Option.some.inj hj
      apply hw
    · apply hg.waiters j w' hj

/-- A new sleep leaves the others alone. -/
theorem createSleep (hg : g.Timely) {remainingMs : ℚ} (hpos : 0 ≤ remainingMs) :
  (g.createSleep remainingMs).Timely
  := by
  have hget : ∀ p sleep, g.sleeps.get p = some sleep →
      (g.createSleep remainingMs).sleeps.get p = some sleep := by
    intro p sleep hp
    change (g.sleeps.set g.sleepSeq _).get p = some sleep
    rwa [JsMap.get_set_of_ne _ (hg.due p sleep hp).1.ne]
  constructor
  · intro p hp
    unfold Gate.createSleep at hp ⊢
    simp only at hp ⊢
    split at hp
    · next hnone =>
        obtain rfl := Option.some.inj hp
        rw [if_pos hnone]
        use { due := g.now + remainingMs, fired := false }
        constructor
        · apply JsMap.get_set_self
        · rfl
    · next hsome =>
        obtain ⟨sleep, hsleep, huntil⟩ := hg.promise p hp
        rw [if_neg hsome]
        use sleep, hget p sleep hsleep, huntil
  · intro p sleep hp
    change (g.sleeps.set g.sleepSeq _).get p = some sleep at hp
    rw [JsMap.get_set] at hp
    split at hp
    · next heq =>
        obtain rfl := Option.some.inj hp
        constructor
        · rw [heq]
          apply Nat.lt_succ_self
        · change g.now ≤ g.now + remainingMs
          linarith
    · obtain ⟨hlt, hdue⟩ := hg.due p sleep hp
      exact ⟨hlt.trans (Nat.lt_succ_self _), hdue⟩
  · intro p sleep hp hfired
    change (g.sleeps.set g.sleepSeq _).get p = some sleep at hp
    rw [JsMap.get_set] at hp
    split at hp
    · obtain rfl := Option.some.inj hp
      cases hfired
    · apply hg.fired p sleep hp hfired
  · intro i w hi
    have hw := hg.waiters i w hi
    unfold InTime at hw ⊢
    split
    · next hphase =>
        simp only [hphase] at hw
        apply hw
    · next target p hphase =>
        simp only [hphase] at hw
        obtain ⟨hlt, hnow, hdeadline, hdue⟩ := hw
        refine ⟨hlt.trans (Nat.lt_succ_self _), hnow, hdeadline, ?_⟩
        intro sleep hsleep
        change (g.sleeps.set g.sleepSeq _).get p = some sleep at hsleep
        rw [JsMap.get_set_of_ne _ hlt.ne] at hsleep
        apply hdue sleep hsleep

/-- A round of the loop ends with a return in time, or with a wait up to its target. -/
theorem check (hg : g.Timely) (i : ℕ) {started maxWaitMs : ℚ}
    (hnow : ∀ d, deadlineMs started maxWaitMs = some d → g.now ≤ d) :
  (g.check i started maxWaitMs).Timely
  := by
  unfold Gate.check
  simp only
  split
  · next hover =>
      apply hg.setWaiter
      constructor
      · apply sub_nonpos.mp hover
      · apply hnow
  · next hremaining =>
      rw [not_le, sub_pos] at hremaining
      have htarget : ∀ d, deadlineMs started maxWaitMs = some d →
          minDeadline g.bucket.cooldownUntilMs (deadlineMs started maxWaitMs) ≤ d :=
        fun d hd => minDeadline_le _ hd
      split
      · next shared hshared =>
          obtain ⟨sleep, hsleep, hdue⟩ := reusable_eq_some hg hshared
          apply hg.setWaiter
          refine ⟨(hg.due shared sleep hsleep).1, hremaining.le, htarget, ?_⟩
          intro sleep' hsleep'
          rw [hsleep] at hsleep'
          obtain rfl := Option.some.inj hsleep'
          linarith
      · have hpos := (sub_pos.mpr hremaining).le
        apply (hg.createSleep hpos).setWaiter
        refine ⟨Nat.lt_succ_self _, hremaining.le, htarget, ?_⟩
        intro sleep hsleep
        change (g.sleeps.set g.sleepSeq _).get g.sleepSeq = some sleep at hsleep
        rw [JsMap.get_set_self] at hsleep
        obtain rfl := Option.some.inj hsleep
        change g.now + _ ≤ _
        linarith

/-- The sleeps change, and none becomes due later. -/
theorem setSleeps (hg : g.Timely) {sleeps : JsMap ℕ Sleep} {bucket : ProviderRateState}
    (hpromise : ∀ p, bucket.cooldownPromise = some p →
      ∃ sleep, sleeps.get p = some sleep ∧ bucket.cooldownPromiseUntilMs = some sleep.due)
    (hold : ∀ p sleep, sleeps.get p = some sleep →
      ∃ sleep', g.sleeps.get p = some sleep' ∧ sleep'.due = sleep.due)
    (hfired : ∀ p sleep, sleeps.get p = some sleep → sleep.fired = true → sleep.due = g.now) :
  Timely { g with sleeps, bucket }
  := by
  constructor
  · apply hpromise
  · intro p sleep hp
    obtain ⟨sleep', hp', hdue⟩ := hold p sleep hp
    rw [← hdue]
    apply hg.due p sleep' hp'
  · apply hfired
  · intro i w hi
    have hw := hg.waiters i w hi
    unfold InTime at hw ⊢
    split
    · next hphase =>
        simp only [hphase] at hw
        apply hw
    · next target p hphase =>
        simp only [hphase] at hw
        obtain ⟨hlt, hnow, hdeadline, hdue⟩ := hw
        refine ⟨hlt, hnow, hdeadline, ?_⟩
        intro sleep hsleep
        obtain ⟨sleep', hp', heq⟩ := hold p sleep hsleep
        rw [← heq]
        apply hdue sleep' hp'

theorem handle (hg : g.Timely) {event : GateEvent} (henabled : g.enabled event = true) :
  (g.handle event).Timely
  := by
  cases event with
  | waitGate maxWaitMs =>
      have hgrown : Timely { g with waiterSeq := g.waiterSeq + 1 } := by
        constructor
        · apply hg.promise
        · apply hg.due
        · apply hg.fired
        · apply hg.waiters
      apply hgrown.check
      intro d hd
      unfold deadlineMs at hd
      split at hd
      · next hpos =>
          obtain rfl := Option.some.inj hd
          change g.now ≤ _
          linarith
      · cases hd
  | cooldown untilMs maxWaitMs =>
      constructor
      · apply hg.promise
      · apply hg.due
      · apply hg.fired
      · apply hg.waiters
  | fire p =>
      obtain ⟨sleep, hsleep, hready⟩ := (Option.any_eq_true _ _).mp henabled
      have hdue : sleep.due = g.now := of_decide_eq_true (Bool.and_eq_true_iff.mp hready).2
      simp only [Gate.handle, hsleep, Option.elim_some]
      apply hg.setSleeps
      · intro q hq
        obtain ⟨sleep', hsleep', huntil⟩ := hg.promise q hq
        rw [JsMap.get_set]
        split
        · next heq =>
            rw [heq, hsleep] at hsleep'
            obtain rfl := Option.some.inj hsleep'
            exact ⟨_, rfl, huntil⟩
        · use sleep', hsleep', huntil
      · intro q sleep' hq
        rw [JsMap.get_set] at hq
        split at hq
        · next heq =>
            obtain rfl := Option.some.inj hq
            rw [heq]
            use sleep, hsleep
        · use sleep', hq
      · intro q sleep' hq hfired
        rw [JsMap.get_set] at hq
        split at hq
        · obtain rfl := Option.some.inj hq
          apply hdue
        · apply hg.fired q sleep' hq hfired
  | settle p =>
      apply hg.setSleeps
      · intro q hq
        split at hq
        · cases hq
        · next hne =>
            obtain ⟨sleep, hsleep, huntil⟩ := hg.promise q hq
            have hqp : q ≠ p := by
              rintro rfl
              apply hne hq
            rw [if_neg hne, JsMap.get_delete_of_ne _ hqp]
            use sleep, hsleep, huntil
      · intro q sleep hq
        use sleep, JsMap.get_of_get_delete hq
      · intro q sleep hq
        apply hg.fired q sleep (JsMap.get_of_get_delete hq)
  | wake i =>
      obtain ⟨w, hi, hwakeable⟩ := (Option.any_eq_true _ _).mp henabled
      simp only [Gate.handle, hi, Option.elim_some]
      apply hg.check
      have hw := hg.waiters i w hi
      unfold wakeable at hwakeable
      unfold InTime at hw
      split at hwakeable
      · next hphase =>
          simp only [hphase] at hw
          obtain ⟨-, hnow, hdeadline, -⟩ := hw
          exact fun d hd => hnow.trans (hdeadline d hd)
      · cases hwakeable
  | pass time =>
      simp only [Gate.enabled, Bool.and_eq_true, decide_eq_true_eq, List.all_eq_true] at henabled
      obtain ⟨⟨-, hsleeps⟩, hcalm⟩ := henabled
      have hdue : ∀ p sleep, g.sleeps.get p = some sleep → time ≤ sleep.due := by
        intro p sleep hp
        apply (hsleeps sleep (JsMap.mem_values.mpr ⟨p, hp⟩)).2
      constructor
      · apply hg.promise
      · intro p sleep hp
        exact ⟨(hg.due p sleep hp).1, hdue p sleep hp⟩
      · intro p sleep hp hfired
        have hnot := (hsleeps sleep (JsMap.mem_values.mpr ⟨p, hp⟩)).1
        rw [hfired] at hnot
        cases hnot
      · intro i w hi
        have hw := hg.waiters i w hi
        have hasleep := hcalm w (JsMap.mem_values.mpr ⟨i, hi⟩)
        unfold InTime at hw ⊢
        unfold wakeable at hasleep
        split
        · next hphase =>
            simp only [hphase] at hw
            apply hw
        · next target p hphase =>
            simp only [hphase] at hw
            obtain ⟨hlt, -, hdeadline, htarget⟩ := hw
            simp only [hphase, Bool.not_not] at hasleep
            obtain ⟨sleep, hsleep⟩ := Option.isSome_iff_exists.mp hasleep
            refine ⟨hlt, ?_, hdeadline, htarget⟩
            apply (hdue p sleep hsleep).trans (htarget sleep hsleep)

theorem bounded (hg : g.Timely) :
  g.Bounded
  := by
  constructor
  · intro i w time cooldownUntilMs hi hphase
    have hw := hg.waiters i w hi
    simp only [InTime, hphase] at hw
    use hw.1
    intro hpos
    apply hw.2
    rw [deadlineMs, if_pos hpos]
  · intro i w target p hi hphase
    have hw := hg.waiters i w hi
    simp only [InTime, hphase] at hw
    obtain ⟨-, hnow, hdeadline, -⟩ := hw
    use hnow
    intro hpos
    apply hnow.trans
    apply hdeadline
    rw [deadlineMs, if_pos hpos]
  · apply hg.promise

end Timely

end Steps

end Gate

end RateLimit
