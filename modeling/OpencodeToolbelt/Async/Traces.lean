import OpencodeToolbelt.Async.Program
import Mathlib.Tactic.Use

/-!
# Traces of a program

The operations a program has performed, whatever answers it got. A history is folded along a
trace; a program keeps an invariant of the history when each of its operations does, for all
answers.
-/

/-- The operations performed, with their answers, the first one first. -/
abbrev Trace (Op : Type) (Ans : Op → Type) := List (Σ o : Op, Ans o)

namespace Program

variable {Op : Type} {Ans : Op → Type} {ε α β H : Type}

/-- The program performs the trace, and is left as another one. -/
inductive Performs : Program Op Ans ε α → Trace Op Ans → Program Op Ans ε α → Prop where
  | refl (p : Program Op Ans ε α) : Performs p [] p
  | call {o : Op} {k : Ans o → Program Op Ans ε α} {a : Ans o} {τ : Trace Op Ans}
      {q : Program Op Ans ε α} (h : Performs (k a) τ q) : Performs (.call o k) (⟨o, a⟩ :: τ) q

theorem Performs.trans {p q r : Program Op Ans ε α} {τ τ' : Trace Op Ans}
    (hp : p.Performs τ q) (hq : q.Performs τ' r) :
  p.Performs (τ ++ τ') r
  := by
  induction hp with
  | refl p => apply hq
  | call hk ih => apply Performs.call (ih hq)

/-- The first of two programs performs a trace. -/
theorem Performs.bind {p q : Program Op Ans ε α} {τ : Trace Op Ans} (h : p.Performs τ q)
    (f : α → Program Op Ans ε β) :
  (p.bind f).Performs τ (q.bind f)
  := by
  induction h with
  | refl p => apply Performs.refl
  | call hk ih => apply Performs.call ih

/-- What is left of the program after a trace, where its operations are those of the trace. -/
def replay [DecidableEq Op] : Program Op Ans ε α → Trace Op Ans → Option (Program Op Ans ε α)
  | p, [] => some p
  | .call o k, ⟨o', a⟩ :: τ => if h : o' = o then (k (h ▸ a)).replay τ else none
  | _, _ :: _ => none

theorem performs_of_replay [DecidableEq Op] {p q : Program Op Ans ε α} {τ : Trace Op Ans}
    (h : p.replay τ = some q) :
  p.Performs τ q
  := by
  induction τ generalizing p with
  | nil =>
      cases p <;>
      · injection h with heq
        rw [← heq]
        apply Performs.refl
  | cons e τ ih =>
      cases p with
      | done a => cases h
      | fail e => cases h
      | call o k =>
          obtain ⟨o', a⟩ := e
          rw [replay] at h
          split at h
          · next heq =>
              cases heq
              apply Performs.call (ih h)
          · cases h

/-- The history after a trace. -/
def follow (u : H → (o : Op) → Ans o → H) (h : H) (τ : Trace Op Ans) : H :=
  τ.foldl (fun h e => u h e.1 e.2) h

/-- From the history `h` on, every operation of the program keeps `J`, and it settles in
`Q`. -/
def Follows (u : H → (o : Op) → Ans o → H) (J : H → Prop) (Q : Except ε α → H → Prop) :
    Program Op Ans ε α → H → Prop
  | .done a, h => Q (.ok a) h
  | .fail e, h => Q (.error e) h
  | .call o k, h => ∀ a, J (u h o a) ∧ Follows u J Q (k a) (u h o a)

variable {u : H → (o : Op) → Ans o → H} {J : H → Prop} {Q Q' : Except ε α → H → Prop} {h : H}

/-- The invariant holds after every trace. -/
theorem Follows.follow {p q : Program Op Ans ε α} {τ : Trace Op Ans} (hp : p.Follows u J Q h)
    (hJ : J h) (hτ : p.Performs τ q) :
  J (Program.follow u h τ)
  := by
  induction hτ generalizing h with
  | refl p => apply hJ
  | call hk ih =>
      obtain ⟨hJ', hk'⟩ := hp _
      apply ih hk' hJ'

/-- What is left of the program after a trace keeps to the history. -/
theorem Follows.performs {p q : Program Op Ans ε α} {τ : Trace Op Ans} (hp : p.Follows u J Q h)
    (hτ : p.Performs τ q) :
  q.Follows u J Q (Program.follow u h τ)
  := by
  induction hτ generalizing h with
  | refl p => apply hp
  | call hk ih => apply ih (hp _).2

theorem Follows.result {p : Program Op Ans ε α} {r : Except ε α} (hp : p.Follows u J Q h)
    (hr : p.result = some r) :
  Q r h
  := by
  rw [eq_settle_of_result hr] at hp
  cases r with
  | ok a => apply hp
  | error e => apply hp

theorem Follows.mono (hQ : ∀ r h, Q r h → Q' r h) {p : Program Op Ans ε α}
    (hp : p.Follows u J Q h) :
  p.Follows u J Q' h
  := by
  induction p generalizing h with
  | done a => apply hQ _ _ hp
  | fail e => apply hQ _ _ hp
  | call o k ih =>
      intro a
      obtain ⟨hJ, hk⟩ := hp a
      use hJ
      apply ih a hk

/-- The invariant also holds where the program settles. -/
theorem Follows.and_invariant {p : Program Op Ans ε α} (hp : p.Follows u J Q h) (hJ : J h) :
  p.Follows u J (fun r h' => J h' ∧ Q r h') h
  := by
  induction p generalizing h with
  | done a => exact ⟨hJ, hp⟩
  | fail e => exact ⟨hJ, hp⟩
  | call o k ih =>
      intro a
      obtain ⟨hJ', hk⟩ := hp a
      use hJ'
      apply ih a hk hJ'

theorem Follows.bind {S : Except ε β → H → Prop} {p : Program Op Ans ε α}
    {f : α → Program Op Ans ε β} (hp : p.Follows u J Q h)
    (hf : ∀ a h', Q (.ok a) h' → (f a).Follows u J S h')
    (he : ∀ e h', Q (.error e) h' → S (.error e) h') :
  (p.bind f).Follows u J S h
  := by
  induction p generalizing h with
  | done a => apply hf a h hp
  | fail e => apply he e h hp
  | call o k ih =>
      intro a
      obtain ⟨hJ, hk⟩ := hp a
      use hJ
      apply ih a hk

theorem Follows.attempt_bind {S : Except ε β → H → Prop} {p : Program Op Ans ε α}
    {f : Except ε α → Program Op Ans ε β} (hp : p.Follows u J Q h)
    (hf : ∀ r h', Q r h' → (f r).Follows u J S h') :
  (p.attempt.bind f).Follows u J S h
  := by
  induction p generalizing h with
  | done a => apply hf _ h hp
  | fail e => apply hf _ h hp
  | call o k ih =>
      intro a
      obtain ⟨hJ, hk⟩ := hp a
      use hJ
      apply ih a hk

theorem Follows.settle (r : Except ε α) (hr : Q r h) :
  (Program.settle r : Program Op Ans ε α).Follows u J Q h
  := by
  cases r with
  | ok a => apply hr
  | error e => apply hr

/-- Operations that leave the history alone. -/
theorem Follows.of_within {C : Op → Prop} {R : Except ε α → Prop} {p : Program Op Ans ε α}
    (hC : ∀ o, C o → ∀ h a, u h o a = h) (hp : p.Within C R) (hJ : J h) :
  p.Follows u J (fun r h' => R r ∧ h' = h) h
  := by
  induction p with
  | done a => exact ⟨hp, rfl⟩
  | fail e => exact ⟨hp, rfl⟩
  | call o k ih =>
      intro a
      rw [hC o hp.1]
      use hJ
      apply ih a (hp.2 a)

/-- A part that leaves the history alone, and what follows it. -/
theorem Follows.within_bind {C : Op → Prop} {R : Except ε α → Prop}
    {S : Except ε β → H → Prop} {p : Program Op Ans ε α} {f : α → Program Op Ans ε β}
    (hC : ∀ o, C o → ∀ h a, u h o a = h) (hp : p.Within C R) (hJ : J h)
    (hf : ∀ a, R (.ok a) → (f a).Follows u J S h) (he : ∀ e, R (.error e) → S (.error e) h) :
  (p.bind f).Follows u J S h
  := by
  apply (Follows.of_within hC hp hJ).bind
  · rintro a _ ⟨hR, rfl⟩
    apply hf a hR
  · rintro e _ ⟨hR, rfl⟩
    apply he e hR

/-- A program whose `finally` part leaves the history alone and does not throw. -/
theorem Follows.tryFinally {C : Op → Prop} {p : Program Op Ans ε α}
    {f : Program Op Ans ε Unit} (hp : p.Follows u J Q h)
    (hQ : ∀ r h', Q r h' → J h') (hC : ∀ o, C o → ∀ h a, u h o a = h)
    (hf : f.Within C fun r => r = .ok ()) :
  (p.tryFinally f).Follows u J Q h
  := by
  apply hp.attempt_bind
  intro r h' hr
  apply Follows.within_bind hC hf (hQ r h' hr)
  · intro _ _
    apply Follows.settle r hr
  · rintro e ⟨⟩

/-! ### Properties of what is left -/

/-- From the history `h` on, the program and whatever is left of it have a property. -/
def Throughout (u : H → (o : Op) → Ans o → H) (J : Program Op Ans ε α → H → Prop) :
    Program Op Ans ε α → H → Prop
  | .done a, h => J (.done a) h
  | .fail e, h => J (.fail e) h
  | .call o k, h => J (.call o k) h ∧ ∀ a, Throughout u J (k a) (u h o a)

theorem Throughout.here {J : Program Op Ans ε α → H → Prop} {p : Program Op Ans ε α}
    (hp : p.Throughout u J h) :
  J p h
  := by
  cases p with
  | done a => apply hp
  | fail e => apply hp
  | call o k => apply hp.1

/-- The property holds after every trace. -/
theorem Throughout.performs {J : Program Op Ans ε α → H → Prop} {p q : Program Op Ans ε α}
    {τ : Trace Op Ans} (hp : p.Throughout u J h) (hτ : p.Performs τ q) :
  J q (Program.follow u h τ)
  := by
  induction hτ generalizing h with
  | refl p => apply hp.here
  | call hk ih => apply ih (hp.2 _)

end Program
