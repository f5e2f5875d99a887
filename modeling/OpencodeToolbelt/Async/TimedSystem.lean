import Mathlib.Order.Basic
import Mathlib.Tactic.Use

/-!
# Systems with a clock

A system that handles one event at a time, each at a time of its own. The times of a run never go
back.

A part of a system is a kind of events together with what they can see of the state. When two
parts share out the events of a system, its runs are the runs of the two parts, in any order that
the times allow for.
-/

structure TimedSystem (State Event Time : Type) where
  /-- Whether an event may occur at a time. -/
  enabled : State → Time → Event → Prop
  /-- The state after an event has been handled. -/
  next : State → Time → Event → State

namespace TimedSystem

variable {State Event Time : Type}

/-- The system in which only events that meet a condition occur. -/
def restrict (S : TimedSystem State Event Time) (C : State → Time → Event → Prop) :
    TimedSystem State Event Time where
  enabled s t e := S.enabled s t e ∧ C s t e
  next := S.next

/-- The state that events lead to. -/
def after (S : TimedSystem State Event Time) (s : State) (es : List (Time × Event)) : State :=
  es.foldl (fun s e => S.next s e.1 e.2) s

theorem after_concat (S : TimedSystem State Event Time) (s : State) (es : List (Time × Event))
    (e : Time × Event) :
  S.after s (es ++ [e]) = S.next (S.after s es) e.1 e.2
  := List.foldl_append

/-- The events that meet a condition. -/
def only (mine : Event → Bool) (es : List (Time × Event)) : List (Time × Event) :=
  es.filter fun e => mine e.2

theorem only_cons_of_mine {mine : Event → Bool} {e : Time × Event}
    {es : List (Time × Event)} (h : mine e.2 = true) :
  only mine (e :: es) = e :: only mine es
  := List.filter_cons_of_pos h

theorem only_cons_of_not_mine {mine : Event → Bool} {e : Time × Event}
    {es : List (Time × Event)} (h : mine e.2 = false) :
  only mine (e :: es) = only mine es
  := List.filter_cons_of_neg (by rw [h]; exact Bool.false_ne_true)

/-- A part of a system: the events that meet a condition, and what they see of a state. Other
events leave what they see as it is. -/
structure IsPart {View : Type} (S : TimedSystem State Event Time) (mine : Event → Bool)
    (view : State → View) : Prop where
  frame : ∀ s t e, mine e = false → view (S.next s t e) = view s
  enabled : ∀ {s s'} t e, mine e = true → view s = view s' → S.enabled s t e → S.enabled s' t e
  next : ∀ {s s'} t e, mine e = true → view s = view s' →
    view (S.next s t e) = view (S.next s' t e)

/-- A part sees of a run what it sees of its own events. -/
theorem IsPart.view_after {S : TimedSystem State Event Time} {View : Type} {mine : Event → Bool}
    {view : State → View} {s s' : State} (h : S.IsPart mine view) (hview : view s = view s')
    (es : List (Time × Event)) :
  view (S.after s es) = view (S.after s' (only mine es))
  := by
  induction es generalizing s s' with
  | nil => apply hview
  | cons e es ih =>
      cases hmine : mine e.2 with
      | true =>
          rw [only_cons_of_mine hmine]
          apply ih
          apply h.next _ _ hmine hview
      | false =>
          rw [only_cons_of_not_mine hmine]
          apply ih
          rw [h.frame _ _ _ hmine, hview]

/-! ### Runs -/

variable [Preorder Time]

/-- The times of events never go back. -/
def Ordered (now : Time) : List (Time × Event) → Prop
  | [] => True
  | e :: es => now ≤ e.1 ∧ Ordered e.1 es

/-- The events make up a run that begins in a state at a time. -/
def Runs (S : TimedSystem State Event Time) (now : Time) (s : State) :
    List (Time × Event) → Prop
  | [] => True
  | e :: es => (now ≤ e.1 ∧ S.enabled s e.1 e.2) ∧ S.Runs e.1 (S.next s e.1 e.2) es

/-- Whether events make up a run can be decided. -/
def decidableRuns (S : TimedSystem State Event Time) [DecidableLE Time]
    [∀ s t e, Decidable (S.enabled s t e)] (now : Time) (s : State) :
    ∀ es : List (Time × Event), Decidable (S.Runs now s es)
  | [] => inferInstanceAs (Decidable True)
  | e :: es =>
      have := S.decidableRuns e.1 (S.next s e.1 e.2) es
      inferInstanceAs (Decidable ((now ≤ e.1 ∧ S.enabled s e.1 e.2) ∧
        S.Runs e.1 (S.next s e.1 e.2) es))

instance (S : TimedSystem State Event Time) [DecidableLE Time]
    [∀ s t e, Decidable (S.enabled s t e)] (now : Time) (s : State) (es : List (Time × Event)) :
  Decidable (S.Runs now s es)
  := S.decidableRuns now s es

variable {S : TimedSystem State Event Time} {now : Time} {s : State} {es : List (Time × Event)}

theorem Runs.ordered (h : S.Runs now s es) :
  Ordered now es
  := by
  induction es generalizing now s with
  | nil => trivial
  | cons e es ih => use h.1.1, ih h.2

theorem Ordered.mono {now' : Time} (h : Ordered now es) (hle : now' ≤ now) :
  Ordered now' es
  := by
  cases es with
  | nil => trivial
  | cons e es => use hle.trans h.1, h.2

/-- A run may begin at any time that its events allow for. -/
theorem Runs.of_ordered {now' : Time} (h : S.Runs now s es) (hordered : Ordered now' es) :
  S.Runs now' s es
  := by
  cases es with
  | nil => trivial
  | cons e es =>
      obtain ⟨⟨-, henabled⟩, h⟩ := h
      use ⟨hordered.1, henabled⟩, h

/-- A run whose events meet a condition is a run. -/
theorem Runs.of_restrict {C : State → Time → Event → Prop} (h : (S.restrict C).Runs now s es) :
  S.Runs now s es
  := by
  induction es generalizing now s with
  | nil => trivial
  | cons e es ih =>
      obtain ⟨⟨htime, henabled, -⟩, h⟩ := h
      use ⟨htime, henabled⟩, ih h

/-- What every event preserves holds along runs. It may tell of the time of the last event. -/
theorem Runs.preserves {I : Time → State → Prop}
    (hstep : ∀ now s t e, I now s → now ≤ t → S.enabled s t e → I t (S.next s t e))
    {e : Time × Event} (h : S.Runs now s (es ++ [e])) (hs : I now s) :
  ∃ now', I now' (S.after s es) ∧ now' ≤ e.1 ∧ S.enabled (S.after s es) e.1 e.2
  := by
  induction es generalizing now s with
  | nil => use now, hs, h.1.1, h.1.2
  | cons e' es ih =>
      apply ih h.2
      apply hstep now s e'.1 e'.2 hs h.1.1 h.1.2

/-! ### Parts -/

theorem Ordered.only (mine : Event → Bool) (h : Ordered now es) :
  Ordered now (TimedSystem.only mine es)
  := by
  induction es generalizing now with
  | nil => trivial
  | cons e es ih =>
      cases hmine : mine e.2 with
      | true =>
          rw [only_cons_of_mine hmine]
          use h.1, ih h.2
      | false =>
          rw [only_cons_of_not_mine hmine]
          apply (ih h.2).mono h.1

namespace IsPart

variable {View : Type} {mine : Event → Bool} {view : State → View} {s' : State}

/-- The events of a part make up a run. -/
theorem runs_only (h : S.IsPart mine view) (hview : view s = view s') (hruns : S.Runs now s es) :
  S.Runs now s' (only mine es)
  := by
  induction es generalizing now s s' with
  | nil => trivial
  | cons e es ih =>
      obtain ⟨⟨htime, henabled⟩, hruns⟩ := hruns
      cases hmine : mine e.2 with
      | true =>
          rw [only_cons_of_mine hmine]
          use ⟨htime, h.enabled _ _ hmine hview henabled⟩
          apply ih _ hruns
          apply h.next _ _ hmine hview
      | false =>
          rw [only_cons_of_not_mine hmine]
          have hview' : view (S.next s e.1 e.2) = view s' := by rw [h.frame _ _ _ hmine, hview]
          have hrest := ih hview' hruns
          apply hrest.of_ordered (hrest.ordered.mono htime)

/-- Two parts that share out the events make up a run with their own runs. -/
theorem runs_of_only {View' : Type} {view' : State → View'} (h : S.IsPart mine view)
    (h' : S.IsPart (fun e => !mine e) view') {t t' : State} (hview : view s = view t)
    (hview' : view' s = view' t') (hordered : Ordered now es) (hmine : S.Runs now t (only mine es))
    (hother : S.Runs now t' (only (fun e => !mine e) es)) :
  S.Runs now s es
  := by
  induction es generalizing now s t t' with
  | nil => trivial
  | cons e es ih =>
      obtain ⟨htime, hordered⟩ := hordered
      cases he : mine e.2 with
      | true =>
          have he' : (!mine e.2) = false := by rw [he, Bool.not_true]
          rw [only_cons_of_mine he] at hmine
          rw [only_cons_of_not_mine he'] at hother
          obtain ⟨⟨-, henabled⟩, hmine⟩ := hmine
          use ⟨htime, h.enabled _ _ he hview.symm henabled⟩
          apply ih (h.next _ _ he hview) _ hordered hmine (hother.of_ordered (hordered.only _))
          rw [h'.frame _ _ _ he', hview']
      | false =>
          have he' : (!mine e.2) = true := by rw [he, Bool.not_false]
          rw [only_cons_of_not_mine he] at hmine
          rw [only_cons_of_mine he'] at hother
          obtain ⟨⟨-, henabled⟩, hother⟩ := hother
          use ⟨htime, h'.enabled _ _ he' hview'.symm henabled⟩
          apply ih _ (h'.next _ _ he' hview') hordered (hmine.of_ordered (hordered.only _)) hother
          rw [h.frame _ _ _ he, hview]

end IsPart

end TimedSystem
