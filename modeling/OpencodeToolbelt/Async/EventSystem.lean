import Mathlib.Logic.Relation

/-!
# Systems driven by events

A system that handles one event at a time: which events may occur in a state, and the state
after the event has been handled. Its runs are the sequences of events.
-/

structure EventSystem (State Event : Type) where
  /-- Whether an event may occur. -/
  enabled : State → Event → Prop
  /-- The state after an event has been handled. -/
  next : State → Event → State

namespace EventSystem

variable {State Event : Type}

/-- The handling of one event. -/
def Step (S : EventSystem State Event) (s s' : State) : Prop :=
  ∃ e, S.enabled s e ∧ S.next s e = s'

/-- The states that a run from a state reaches. -/
def Reaches (S : EventSystem State Event) : State → State → Prop :=
  Relation.ReflTransGen S.Step

/-- The system in which only events that meet a condition occur. -/
def restrict (S : EventSystem State Event) (C : State → Event → Prop) :
    EventSystem State Event where
  enabled s e := S.enabled s e ∧ C s e
  next := S.next

instance (S : EventSystem State Event) (C : State → Event → Prop) (s : State) (e : Event)
    [Decidable (S.enabled s e)] [Decidable (C s e)] :
  Decidable ((S.restrict C).enabled s e)
  := inferInstanceAs (Decidable (S.enabled s e ∧ C s e))

/-- What every event preserves holds along runs. -/
theorem Reaches.preserves {S : EventSystem State Event} {I : State → Prop}
    (hstep : ∀ s e, I s → S.enabled s e → I (S.next s e)) {s s' : State} (h : S.Reaches s s')
    (hs : I s) :
  I s'
  := by
  induction h with
  | refl => apply hs
  | tail _ h ih =>
      obtain ⟨e, he, rfl⟩ := h
      apply hstep _ e ih he

/-- A run whose events meet a condition is a run. -/
theorem Reaches.of_restrict {S : EventSystem State Event} {C : State → Event → Prop}
    {s s' : State} (h : (S.restrict C).Reaches s s') :
  S.Reaches s s'
  := by
  apply Relation.ReflTransGen.mono _ _ _ h
  rintro t t' ⟨e, he, rfl⟩
  use e, he.1
  rfl

/-! ### Runs with their steps -/

/-- A run from one state to another, with its steps: the events that have occurred, each with
the state in which it did. -/
inductive Run (S : EventSystem State Event) : State → List (State × Event) → State → Prop where
  | nil (s : State) : Run S s [] s
  | cons {s : State} {e : Event} {steps : List (State × Event)} {s' : State} :
      S.enabled s e → Run S (S.next s e) steps s' → Run S s ((s, e) :: steps) s'

namespace Run

variable {S : EventSystem State Event} {s s' : State} {steps : List (State × Event)}

theorem append_iff {before after : List (State × Event)} :
  S.Run s (before ++ after) s' ↔ ∃ t, S.Run s before t ∧ S.Run t after s'
  := by
  induction before generalizing s with
  | nil =>
      constructor
      · intro h
        use s, .nil s, h
      · rintro ⟨t, ⟨⟩, h⟩
        apply h
  | cons step before ih =>
      constructor
      · rintro (_ | ⟨he, h⟩)
        obtain ⟨t, hbefore, hafter⟩ := ih.mp h
        use t, .cons he hbefore, hafter
      · rintro ⟨t, _ | ⟨he, hbefore⟩, hafter⟩
        apply Run.cons he
        apply ih.mpr
        use t

/-- What leads to a step, and what follows it. -/
theorem split {before after : List (State × Event)} {t : State} {e : Event}
    (h : S.Run s (before ++ (t, e) :: after) s') :
  S.Run s before t ∧ S.enabled t e ∧ S.Run (S.next t e) after s'
  := by
  obtain ⟨t', hbefore, hafter⟩ := append_iff.mp h
  cases hafter with
  | cons he hafter => exact ⟨hbefore, he, hafter⟩

/-- What follows a step. -/
theorem after {step : State × Event} (h : S.Run s steps s') (hmem : step ∈ steps) :
  ∃ rest, S.enabled step.1 step.2 ∧ S.Run (S.next step.1 step.2) rest s'
  := by
  obtain ⟨before, rest, rfl⟩ := List.append_of_mem hmem
  obtain ⟨-, he, hrest⟩ := h.split
  use rest

/-- What every event preserves holds along runs. -/
theorem preserves {I : State → Prop}
    (hstep : ∀ s e, I s → S.enabled s e → I (S.next s e)) (h : S.Run s steps s') (hs : I s) :
  I s'
  := by
  induction h with
  | nil => apply hs
  | cons he _ ih => apply ih (hstep _ _ hs he)

/-- Every step of a run occurs in a state with what every event preserves. -/
theorem preserves_steps {I : State → Prop}
    (hstep : ∀ s e, I s → S.enabled s e → I (S.next s e)) (h : S.Run s steps s') (hs : I s) :
  ∀ step ∈ steps, I step.1 ∧ S.enabled step.1 step.2
  := by
  induction h with
  | nil => exact fun _ h => (List.not_mem_nil h).elim
  | cons he _ ih =>
      intro step hmem
      obtain rfl | hmem := List.mem_cons.mp hmem
      · exact ⟨hs, he⟩
      · apply ih (hstep _ _ hs he) step hmem

/-- What every event preserves of a state and the steps before it holds along runs. -/
theorem preserves_history {I : List (State × Event) → State → Prop}
    (hstep : ∀ before s e, I before s → S.enabled s e → I (before ++ [(s, e)]) (S.next s e))
    (h : S.Run s steps s') {before : List (State × Event)} (hs : I before s) :
  I (before ++ steps) s'
  := by
  induction h generalizing before with
  | nil =>
      rw [List.append_nil]
      apply hs
  | cons he _ ih =>
      rw [List.append_cons]
      apply ih (hstep _ _ _ hs he)

/-- Two steps of a run are related when a step is to each that may follow it. -/
theorem pairwise {I : State → Prop} {R : State × Event → State × Event → Prop}
    (hstep : ∀ s e, I s → S.enabled s e → I (S.next s e))
    (hR : ∀ s e steps s', I s → S.enabled s e → S.Run (S.next s e) steps s' →
      ∀ step ∈ steps, R (s, e) step) (h : S.Run s steps s') (hs : I s) :
  steps.Pairwise R
  := by
  induction h with
  | nil => apply List.Pairwise.nil
  | cons he hrest ih =>
      apply List.Pairwise.cons
      · apply hR _ _ _ _ hs he hrest
      · apply ih (hstep _ _ hs he)

/-- What holds until something ends it holds after a run, unless a step of the run ends it. -/
theorem preserves_until {I : State → Prop} {ends : State → Event → Prop}
    (hstep : ∀ s e, I s → S.enabled s e → ¬ ends s e → I (S.next s e))
    (h : S.Run s steps s') (hs : I s) :
  I s' ∨ ∃ step ∈ steps, ends step.1 step.2
  := by
  induction h with
  | nil => exact .inl hs
  | @cons s e steps s' he _ ih =>
      by_cases hend : ends s e
      · right
        use (s, e), List.mem_cons_self
      · obtain hs' | ⟨step, hmem, hstep⟩ := ih (hstep s e hs he hend)
        · exact .inl hs'
        · right
          use step, List.mem_cons_of_mem _ hmem

/-- A run whose events meet a condition is a run. -/
theorem of_restrict {C : State → Event → Prop} (h : (S.restrict C).Run s steps s') :
  S.Run s steps s'
  := by
  induction h with
  | nil s => apply Run.nil s
  | cons he _ ih => apply Run.cons he.1 ih

end Run

/-! ### Sequences of events -/

section Play

variable (S : EventSystem State Event) [∀ s e, Decidable (S.enabled s e)]

/-- The state a sequence of events leads to, if each may occur when it does. -/
def play : List Event → State → Option State
  | [], s => some s
  | e :: es, s => if S.enabled s e then play es (S.next s e) else none

theorem reaches_of_play {es : List Event} {s s' : State} (h : S.play es s = some s') :
  S.Reaches s s'
  := by
  induction es generalizing s with
  | nil =>
      cases h
      apply Relation.ReflTransGen.refl
  | cons e es ih =>
      simp only [play] at h
      split at h
      · next he =>
          apply Relation.ReflTransGen.head _ (ih h)
          use e, he
      · cases h

/-- The steps of a sequence of events. -/
def steps : List Event → State → List (State × Event)
  | [], _ => []
  | e :: es, s => (s, e) :: steps es (S.next s e)

omit [∀ s e, Decidable (S.enabled s e)] in
theorem event_mem_of_mem_steps {es : List Event} {s : State} {step : State × Event}
    (h : step ∈ S.steps es s) :
  step.2 ∈ es
  := by
  induction es generalizing s with
  | nil => cases h
  | cons e es ih =>
      obtain rfl | h := List.mem_cons.mp h
      · apply List.mem_cons_self
      · apply List.mem_cons_of_mem e (ih h)

theorem run_of_play {es : List Event} {s s' : State} (h : S.play es s = some s') :
  S.Run s (S.steps es s) s'
  := by
  induction es generalizing s with
  | nil =>
      cases h
      apply Run.nil
  | cons e es ih =>
      simp only [play] at h
      split at h
      · next he => apply Run.cons he (ih h)
      · cases h

/-- A sequence of events that leads to a state which passes a test shows that a run reaches
one. -/
theorem exists_reaches_of_play (es : List Event) (s : State) (p : State → Bool)
    (h : (S.play es s).any p = true) :
  ∃ s', S.Reaches s s' ∧ p s' = true
  := by
  obtain ⟨s', hs', hp⟩ := (Option.any_eq_true p _).mp h
  use s', S.reaches_of_play hs', hp

/-- Such a sequence of events shows that a run ends in such a state. -/
theorem exists_run_of_play (es : List Event) (s : State) (p : State → Bool)
    (h : (S.play es s).any p = true) :
  ∃ steps s', S.Run s steps s' ∧ p s' = true
  := by
  obtain ⟨s', hs', hp⟩ := (Option.any_eq_true p _).mp h
  use S.steps es s, s', S.run_of_play hs', hp

end Play

end EventSystem
