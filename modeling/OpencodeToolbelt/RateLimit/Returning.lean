import OpencodeToolbelt.RateLimit.Waiting
import Mathlib.Data.Prod.Lex

/-!
# Every call with a limit returns

The timers and the calls never hold up time: from every state they lead to one as late as one
likes, by which the calls whose limit is over have returned.
-/

namespace RateLimit

/-- What the timers and the calls do by themselves. -/
def GateEvent.Internal : GateEvent → Prop
  | .fire _ | .settle _ | .wake _ | .pass _ => True
  | .waitGate _ | .cooldown _ _ => False

namespace Gate

/-- The gate without new calls and without responses. -/
def alone : EventSystem Gate GateEvent := system.restrict fun _ e => e.Internal

/-- Whether a call will have to wait again when the sleep that it awaits is over. -/
def undecided (g : Gate) (w : Waiter) : Bool :=
  match w.phase with
  | .returned _ _ => false
  | .pending _ p =>
      decide ((g.sleeps.get p).elim g.now Sleep.due <
        minDeadline g.bucket.cooldownUntilMs (deadlineMs w.started w.maxWaitMs))

/-- What is left to be done before time goes on. -/
def work (g : Gate) : ℕ ×ₗ ℕ ×ₗ ℕ :=
  toLex (g.waiters.countValues g.undecided,
    toLex (g.sleeps.countValues (fun _ => true) + g.sleeps.countValues (fun sleep => !sleep.fired),
      g.waiters.countValues g.wakeable))

section Work

variable {g g' : Gate}

theorem work_lt_of_undecided
    (h : g'.waiters.countValues g'.undecided < g.waiters.countValues g.undecided) :
  g'.work < g.work
  := Prod.Lex.toLex_lt_toLex.mpr (.inl h)

theorem work_lt_of_sleeps
    (hundecided : g'.waiters.countValues g'.undecided ≤ g.waiters.countValues g.undecided)
    (h : g'.sleeps.countValues (fun _ => true) + g'.sleeps.countValues (fun sleep => !sleep.fired) <
      g.sleeps.countValues (fun _ => true) + g.sleeps.countValues (fun sleep => !sleep.fired)) :
  g'.work < g.work
  := by
  obtain hlt | heq := hundecided.lt_or_eq
  · apply work_lt_of_undecided hlt
  · apply Prod.Lex.toLex_lt_toLex.mpr
    right
    use heq
    apply Prod.Lex.toLex_lt_toLex.mpr (.inl h)

theorem work_lt_of_wakeable
    (hundecided : g'.waiters.countValues g'.undecided ≤ g.waiters.countValues g.undecided)
    (hsleeps : g'.sleeps = g.sleeps)
    (h : g'.waiters.countValues g'.wakeable < g.waiters.countValues g.wakeable) :
  g'.work < g.work
  := by
  obtain hlt | heq := hundecided.lt_or_eq
  · apply work_lt_of_undecided hlt
  · apply Prod.Lex.toLex_lt_toLex.mpr
    right
    use heq
    apply Prod.Lex.toLex_lt_toLex.mpr
    right
    rw [hsleeps]
    use rfl

/-- The sleeps change and the calls stay, each with the time at which it goes on. -/
theorem countValues_undecided_eq (hwaiters : g'.waiters = g.waiters)
    (huntil : g'.bucket.cooldownUntilMs = g.bucket.cooldownUntilMs)
    (hover : ∀ p, (g'.sleeps.get p).elim g'.now Sleep.due = (g.sleeps.get p).elim g.now Sleep.due) :
  g'.waiters.countValues g'.undecided = g.waiters.countValues g.undecided
  := by
  rw [hwaiters]
  apply JsMap.countValues_congr
  intro w _
  unfold undecided
  split
  · rfl
  · rw [huntil, hover]

theorem work_fire {p : ℕ} (henabled : g.enabled (.fire p) = true) :
  (g.handle (.fire p)).work < g.work
  := by
  obtain ⟨sleep, hsleep, hready⟩ := (Option.any_eq_true _ _).mp henabled
  have hnot := (Bool.and_eq_true_iff.mp hready).1
  simp only [handle, hsleep, Option.elim_some]
  apply work_lt_of_sleeps
  · apply le_of_eq
    apply countValues_undecided_eq
    · rfl
    · rfl
    · intro q
      change ((g.sleeps.set p _).get q).elim _ _ = _
      rw [JsMap.get_set]
      split
      · next heq =>
          rw [heq, hsleep]
          rfl
      · rfl
  · have htrue := g.sleeps.countValues_set p { sleep with fired := true } fun _ => true
    have hfired := g.sleeps.countValues_set p { sleep with fired := true } fun sleep => !sleep.fired
    simp only [hsleep, Option.any_some, hnot, if_true, Bool.not_true] at htrue hfired
    change (g.sleeps.set p { sleep with fired := true }).countValues _ +
      (g.sleeps.set p { sleep with fired := true }).countValues _ < _
    simp only [Bool.false_eq_true, if_false] at hfired
    omega

theorem work_settle (hg : g.Timely) {p : ℕ} (henabled : g.enabled (.settle p) = true) :
  (g.handle (.settle p)).work < g.work
  := by
  obtain ⟨sleep, hsleep, hfired⟩ := (Option.any_eq_true _ _).mp henabled
  apply work_lt_of_sleeps
  · apply le_of_eq
    apply countValues_undecided_eq
    · rfl
    · simp only [handle]
      split <;> rfl
    · intro q
      change ((g.sleeps.delete p).get q).elim g.now _ = _
      rw [JsMap.get_delete]
      split
      · next heq =>
          rw [heq, hsleep]
          apply (hg.fired p sleep hsleep hfired).symm
      · rfl
  · have htrue := g.sleeps.countValues_delete p fun _ => true
    have hrest := g.sleeps.countValues_delete p fun sleep => !sleep.fired
    simp only [hsleep, Option.any_some, hfired, if_true, Bool.not_true] at htrue hrest
    change (g.sleeps.delete p).countValues _ + (g.sleeps.delete p).countValues _ < _
    simp only [Bool.false_eq_true, if_false] at hrest
    omega

/-- What one round of the loop comes to. -/
theorem check_cases (g : Gate) (i : ℕ) (started maxWaitMs : ℚ) :
  (minDeadline g.bucket.cooldownUntilMs (deadlineMs started maxWaitMs) ≤ g.now ∧
    g.check i started maxWaitMs = g.setWaiter i
      ⟨started, maxWaitMs, .returned g.now g.bucket.cooldownUntilMs⟩) ∨
  (g.now < minDeadline g.bucket.cooldownUntilMs (deadlineMs started maxWaitMs) ∧
    ((∃ target shared, g.bucket.cooldownPromise = some shared ∧
        g.check i started maxWaitMs =
          g.setWaiter i ⟨started, maxWaitMs, .pending target shared⟩) ∨
      ∃ target remainingMs, g.now + remainingMs =
          minDeadline g.bucket.cooldownUntilMs (deadlineMs started maxWaitMs) ∧
        g.check i started maxWaitMs =
          (g.createSleep remainingMs).setWaiter i ⟨started, maxWaitMs, .pending target g.sleepSeq⟩))
  := by
  unfold check
  simp only
  split
  · next hover =>
      left
      use sub_nonpos.mp hover
  · next hremaining =>
      rw [not_le, sub_pos] at hremaining
      right
      use hremaining
      split
      · next shared hshared =>
          left
          exact ⟨_, shared, (Option.filter_eq_some_iff.mp hshared).1, rfl⟩
      · right
        refine ⟨_, _, ?_, rfl⟩
        apply add_sub_cancel

theorem cooldownUntilMs_createSleep (g : Gate) (remainingMs : ℚ) :
  (g.createSleep remainingMs).bucket.cooldownUntilMs = g.bucket.cooldownUntilMs
  := by
  unfold createSleep
  simp only
  split <;> rfl

/-- A new sleep changes for no call when it goes on. -/
theorem undecided_createSleep (hg : g.Timely) (remainingMs : ℚ) {i : ℕ} {w : Waiter}
    (hi : g.waiters.get i = some w) :
  (g.createSleep remainingMs).undecided w = g.undecided w
  := by
  have hw := hg.waiters i w hi
  unfold InTime at hw
  unfold undecided
  split
  · rfl
  · next target p hphase =>
      simp only [hphase] at hw
      change decide (((g.sleeps.set g.sleepSeq _).get p).elim g.now _ < _) = _
      rw [JsMap.get_set_of_ne _ hw.1.ne, cooldownUntilMs_createSleep]

/-- A call whose sleep has settled is at work as long as its time is not over. -/
theorem undecided_of_wakeable {w : Waiter} (hw : g.wakeable w = true)
    (hlt : g.now < minDeadline g.bucket.cooldownUntilMs (deadlineMs w.started w.maxWaitMs)) :
  g.undecided w = true
  := by
  unfold wakeable at hw
  unfold undecided
  split at hw
  · next target p hphase =>
      rw [Bool.not_eq_true', JsMap.has, Option.isSome_eq_false_iff, Option.isNone_iff_eq_none] at hw
      simp only [hphase, hw, Option.elim_none, decide_eq_true_eq]
      apply hlt
  · cases hw

theorem work_wake (hg : g.Timely) {i : ℕ} (henabled : g.enabled (.wake i) = true) :
  (g.handle (.wake i)).work < g.work
  := by
  obtain ⟨w, hi, hw⟩ := (Option.any_eq_true _ _).mp henabled
  simp only [handle, hi, Option.elim_some]
  have hset (w' : Waiter) (p : Waiter → Bool) := g.waiters.countValues_set i w' p
  simp only [hi, Option.any_some] at hset
  obtain ⟨-, heq⟩ | ⟨hlt, ⟨target, shared, hshared, heq⟩ | ⟨target, remainingMs, hdue, heq⟩⟩ :=
    check_cases g i w.started w.maxWaitMs
  · rw [heq]
    apply work_lt_of_wakeable
    · have hcount := hset ⟨w.started, w.maxWaitMs, .returned g.now g.bucket.cooldownUntilMs⟩
        g.undecided
      simp only [undecided, Bool.false_eq_true, if_false, add_zero] at hcount
      apply Nat.le.intro hcount
    · rfl
    · have hcount := hset ⟨w.started, w.maxWaitMs, .returned g.now g.bucket.cooldownUntilMs⟩
        g.wakeable
      simp only [hw, if_true] at hcount
      apply Nat.lt_of_lt_of_eq (Nat.lt_succ_self _) hcount
  · rw [heq]
    obtain ⟨sleep, hsleep, -⟩ := hg.promise shared hshared
    apply work_lt_of_wakeable
    · have hcount := hset ⟨w.started, w.maxWaitMs, .pending target shared⟩ g.undecided
      rw [if_pos (undecided_of_wakeable hw hlt)] at hcount
      change (g.waiters.set i _).countValues g.undecided ≤ _
      split at hcount <;> omega
    · rfl
    · have hcount := hset ⟨w.started, w.maxWaitMs, .pending target shared⟩ g.wakeable
      have hasleep : g.wakeable ⟨w.started, w.maxWaitMs, .pending target shared⟩ = false := by
        simp only [wakeable, JsMap.has_of_get hsleep, Bool.not_true]
      simp only [hw, hasleep, if_true] at hcount
      apply Nat.lt_of_lt_of_eq (Nat.lt_succ_self _) hcount
  · rw [heq]
    apply work_lt_of_undecided
    have hcount := hset ⟨w.started, w.maxWaitMs, .pending target g.sleepSeq⟩
      (g.createSleep remainingMs).undecided
    have hself : (g.createSleep remainingMs).undecided
        ⟨w.started, w.maxWaitMs, .pending target g.sleepSeq⟩ = false := by
      simp only [undecided, cooldownUntilMs_createSleep, decide_eq_false_iff_not, not_lt]
      change _ ≤ ((g.sleeps.set g.sleepSeq _).get g.sleepSeq).elim _ _
      rw [JsMap.get_set_self, ← hdue]
      rfl
    have hsame : g.waiters.countValues (g.createSleep remainingMs).undecided =
        g.waiters.countValues g.undecided := by
      apply JsMap.countValues_congr
      intro w' hmem
      obtain ⟨j, hj⟩ := JsMap.mem_values.mp hmem
      apply undecided_createSleep hg remainingMs hj
    rw [hsame, hself, undecided_createSleep hg remainingMs hi,
      undecided_of_wakeable hw hlt] at hcount
    simp only [if_true, Bool.false_eq_true, if_false, add_zero] at hcount
    apply Nat.lt_of_lt_of_eq (Nat.lt_succ_self _) hcount

/-! ### Time goes on -/

/-- The first of some times and of the times at which sleeps are due. -/
theorem exists_first (l : List Sleep) (time : ℚ) :
  ∃ first ≤ time, (first = time ∨ ∃ sleep ∈ l, sleep.due = first) ∧ ∀ sleep ∈ l, first ≤ sleep.due
  := by
  induction l with
  | nil =>
      use time, le_refl time
      constructor
      · exact .inl rfl
      · exact fun sleep h => (List.not_mem_nil h).elim
  | cons sleep l ih =>
      obtain ⟨first, hle, hfirst, hall⟩ := ih
      obtain hlt | hge := lt_or_ge sleep.due first
      · use sleep.due, (hlt.trans_le hle).le
        constructor
        · exact .inr ⟨sleep, List.mem_cons_self, rfl⟩
        · rw [List.forall_mem_cons]
          use le_refl _
          exact fun sleep' h => hlt.le.trans (hall sleep' h)
      · use first, hle
        constructor
        · apply hfirst.imp_right
          rintro ⟨sleep', hmem, hdue⟩
          use sleep', List.mem_cons_of_mem _ hmem
        · rw [List.forall_mem_cons]
          use hge

/-- Whether something is to be done before time goes on. -/
def Busy (g : Gate) : Prop :=
  (∃ p, g.enabled (.fire p) = true) ∨ (∃ p, g.enabled (.settle p) = true) ∨
    ∃ i, g.enabled (.wake i) = true

/-- When there is nothing to be done, time goes on to when the next sleep is due. -/
theorem exists_pass (hg : g.Timely) (hidle : ¬ g.Busy) {time : ℚ} (htime : g.now < time) :
  ∃ first, g.enabled (.pass first) = true ∧
    (first = time ∨ ∃ p, (g.handle (.pass first)).enabled (.fire p) = true)
  := by
  obtain ⟨first, -, hfirst, hall⟩ := exists_first g.sleeps.values time
  have hunfired : ∀ p sleep, g.sleeps.get p = some sleep → sleep.fired = false := by
    intro p sleep hp
    rw [← Bool.not_eq_true]
    intro hfired
    apply hidle
    right
    left
    use p
    simp [enabled, hp, hfired]
  use first
  constructor
  · simp only [enabled, Bool.and_eq_true, decide_eq_true_eq, List.all_eq_true]
    constructor
    · constructor
      · obtain rfl | ⟨sleep, hmem, rfl⟩ := hfirst
        · apply htime.le
        · obtain ⟨p, hp⟩ := JsMap.mem_values.mp hmem
          apply (hg.due p sleep hp).2
      · intro sleep hmem
        obtain ⟨p, hp⟩ := JsMap.mem_values.mp hmem
        rw [hunfired p sleep hp]
        exact ⟨rfl, hall sleep hmem⟩
    · intro w hmem
      obtain ⟨i, hi⟩ := JsMap.mem_values.mp hmem
      rw [Bool.not_eq_true']
      rw [← Bool.not_eq_true]
      intro hw
      apply hidle
      right
      right
      use i
      simp [enabled, hi, hw]
  · apply hfirst.imp_right
    rintro ⟨sleep, hmem, hdue⟩
    obtain ⟨p, hp⟩ := JsMap.mem_values.mp hmem
    use p
    simp [enabled, handle, hp, hunfired p sleep hp, hdue]

theorem work_pass {time : ℚ} (h : g.now ≤ time) :
  (g.handle (.pass time)).work ≤ g.work
  := by
  have hle : (g.handle (.pass time)).waiters.countValues (g.handle (.pass time)).undecided ≤
      g.waiters.countValues g.undecided := by
    apply JsMap.countValues_mono
    intro w _ hw
    unfold undecided at hw ⊢
    split at hw
    · cases hw
    · next target p hphase =>
        rw [decide_eq_true_eq] at hw ⊢
        apply lt_of_le_of_lt _ hw
        change _ ≤ (g.sleeps.get p).elim time Sleep.due
        cases g.sleeps.get p with
        | none => apply h
        | some sleep => apply le_refl
  obtain hlt | heq := hle.lt_or_eq
  · apply (work_lt_of_undecided hlt).le
  · apply Prod.Lex.toLex_le_toLex.mpr
    right
    use heq
    rfl

/-- The timers and the calls lead to a state as late as one likes. -/
theorem exists_later (hg : g.Timely) (time : ℚ) :
  ∃ g', alone.Reaches g g' ∧ time ≤ g'.now
  := by
  induction hwork : g.work using WellFoundedLT.induction generalizing g with
  | ind n ih =>
      have hstep : ∀ event : GateEvent, event.Internal → g.enabled event = true →
          ∀ g', alone.Reaches (g.handle event) g' → alone.Reaches g g' := by
        intro event hinternal henabled g' h
        apply Relation.ReflTransGen.head _ h
        use event, ⟨henabled, hinternal⟩
        rfl
      have hevent : ∀ event : GateEvent, event.Internal → g.enabled event = true →
          (g.handle event).work < g.work → ∃ g', alone.Reaches g g' ∧ time ≤ g'.now := by
        intro event hinternal henabled hlt
        rw [hwork] at hlt
        obtain ⟨g', hg', hlater⟩ := ih _ hlt (hg.handle henabled) rfl
        use g', hstep event hinternal henabled g' hg', hlater
      obtain hover | hearly := le_or_gt time g.now
      · use g, Relation.ReflTransGen.refl, hover
      · by_cases hbusy : g.Busy
        · obtain ⟨p, hfire⟩ | ⟨p, hsettle⟩ | ⟨i, hwake⟩ := hbusy
          · apply hevent (.fire p) trivial hfire (work_fire hfire)
          · apply hevent (.settle p) trivial hsettle (work_settle hg hsettle)
          · apply hevent (.wake i) trivial hwake (work_wake hg hwake)
        · obtain ⟨first, hpass, rfl | ⟨p, hfire⟩⟩ := exists_pass hg hbusy hearly
          · use g.handle (.pass first)
            constructor
            · apply hstep (.pass first) trivial hpass _ Relation.ReflTransGen.refl
            · apply le_refl
          · have hnow : g.now ≤ first := by
              simp only [enabled, Bool.and_eq_true, decide_eq_true_eq] at hpass
              apply hpass.1.1
            have hlt := (work_fire hfire).trans_le (work_pass hnow)
            rw [hwork] at hlt
            have hnext := (hg.handle hpass).handle hfire
            obtain ⟨g', hg', hlater⟩ := ih _ hlt hnext rfl
            use g', hstep (.pass first) trivial hpass g' (Relation.ReflTransGen.head ?_ hg'), hlater
            use .fire p, ⟨hfire, trivial⟩
            rfl

/-! ### Returning -/

/-- A call remains the call that it is. -/
theorem call_kept {event : GateEvent} (hinternal : event.Internal)
    {i : ℕ} {started maxWaitMs : ℚ}
    (hi : ∃ phase, g.waiters.get i = some ⟨started, maxWaitMs, phase⟩) :
  ∃ phase, (g.handle event).waiters.get i = some ⟨started, maxWaitMs, phase⟩
  := by
  obtain ⟨phase, hi⟩ := hi
  cases event with
  | waitGate maxWaitMs => cases hinternal
  | cooldown untilMs maxWaitMs => cases hinternal
  | fire p =>
      use phase
      simp only [handle]
      cases g.sleeps.get p with
      | none => apply hi
      | some sleep => apply hi
  | settle p => use phase, hi
  | pass time => use phase, hi
  | wake j =>
      simp only [handle]
      cases hj : g.waiters.get j with
      | none => use phase, hi
      | some w =>
          have hset : ∀ (g' : Gate) (phase' : WaitPhase), g'.waiters = g.waiters →
              ∃ phase, (g'.setWaiter j ⟨w.started, w.maxWaitMs, phase'⟩).waiters.get i =
                some ⟨started, maxWaitMs, phase⟩ := by
            intro g' phase' hwaiters
            change ∃ phase, (g'.waiters.set j _).get i = _
            rw [hwaiters, JsMap.get_set]
            split
            · next heq =>
                rw [heq, hj] at hi
                obtain rfl := Option.some.inj hi
                use phase'
            · use phase, hi
          simp only [Option.elim_some]
          obtain ⟨-, heq⟩ | ⟨-, ⟨target, shared, -, heq⟩ | ⟨target, remainingMs, -, heq⟩⟩ :=
            check_cases g j w.started w.maxWaitMs
          · rw [heq]
            apply hset g _ rfl
          · rw [heq]
            apply hset g _ rfl
          · rw [heq]
            apply hset (g.createSleep remainingMs) _ rfl

/-- Left to themselves, the timers and the calls lead to the return of every call with a limit,
before the limit is over. -/
theorem exists_return (hg : g.Timely) {i : ℕ} {w : Waiter} (hi : g.waiters.get i = some w)
    (hpos : 0 < w.maxWaitMs) :
  ∃ g', alone.Reaches g g' ∧ ∃ time cooldownUntilMs,
    g'.waiters.get i = some { w with phase := .returned time cooldownUntilMs } ∧
      time ≤ w.started + w.maxWaitMs
  := by
  obtain ⟨g', hreaches, hlater⟩ := exists_later hg (w.started + w.maxWaitMs + 1)
  have hg' : g'.Timely := hreaches.preserves (fun g event hg h => hg.handle h.1) hg
  obtain ⟨phase, hi'⟩ := hreaches.preserves
    (I := fun g => ∃ phase, g.waiters.get i = some ⟨w.started, w.maxWaitMs, phase⟩)
    (fun g event hi (h : alone.enabled g event) => call_kept h.2 hi) ⟨w.phase, hi⟩
  use g', hreaches
  cases phase with
  | pending target p =>
      have hnow := (hg'.bounded.pending i _ target p hi' rfl).2 hpos
      change g'.now ≤ w.started + w.maxWaitMs at hnow
      linarith
  | returned time cooldownUntilMs =>
      use time, cooldownUntilMs, hi'
      apply (hg'.bounded.returned i _ time cooldownUntilMs hi' rfl).2 hpos

end Work

/-- Along every run the gate keeps to its bounds, and it lets every call with a limit return. -/
theorem bounded_of_reaches (now : ℚ) (g : Gate) (h : system.Reaches (initial now) g) :
  g.Bounded ∧ ∀ i w, g.waiters.get i = some w → 0 < w.maxWaitMs →
    ∃ g', alone.Reaches g g' ∧ ∃ time cooldownUntilMs,
      g'.waiters.get i = some { w with phase := .returned time cooldownUntilMs } ∧
        time ≤ w.started + w.maxWaitMs
  := by
  have hg : g.Timely := h.preserves (fun g event hg henabled => hg.handle henabled)
    (Timely.initial now)
  constructor
  · apply hg.bounded
  · exact fun i w hi hpos => exists_return hg hi hpos

/-- A call shares the timer of another one, which returns when it fires. -/
def sampleGate : List GateEvent :=
  [.cooldown 8 0, .waitGate 3, .waitGate 0, .pass 3, .fire 0, .settle 0, .wake 0, .wake 1]

/-- The call that has shared the timer waits on. -/
theorem bounded_of_reaches_shared :
  ∃ g, system.Reaches (initial 0) g ∧ g.sleeps.size = 1 ∧ g.Bounded ∧
    ∀ i w, g.waiters.get i = some w → 0 < w.maxWaitMs →
      ∃ g', alone.Reaches g g' ∧ ∃ time cooldownUntilMs,
        g'.waiters.get i = some { w with phase := .returned time cooldownUntilMs } ∧
          time ≤ w.started + w.maxWaitMs
  := by
  obtain ⟨g, hg, hsize⟩ := system.exists_reaches_of_play sampleGate (initial 0)
    (fun g => g.sleeps.size = 1) (by decide +kernel)
  use g, hg, of_decide_eq_true hsize
  apply bounded_of_reaches 0 g hg

end Gate

end RateLimit
