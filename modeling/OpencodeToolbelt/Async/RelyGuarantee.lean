import OpencodeToolbelt.Async.Machine

/-!
# Rely and guarantee

A discipline consists of an invariant of the world and, for each thread, a preorder on
worlds which the steps of the other threads follow. A program is safe for a thread when
every step it takes, in a world that the other threads have changed along the thread's
preorder, keeps the invariant and follows the preorders of the other threads. When the
program of every thread of a pool is safe, so are the programs that every run leaves.

`Triple` is the form in which safety is proved: from a precondition of the world, the
program is safe and settles in its postcondition. Its rules follow the constructors of
programs.
-/

/-- An invariant of the world, and what each thread relies on of the steps of the others. -/
structure Discipline (World : Type) where
  Inv : World → Prop
  Rely : ℕ → World → World → Prop
  refl : ∀ i w, Rely i w w
  trans : ∀ {i u v w}, Rely i u v → Rely i v w → Rely i u w

namespace Discipline

variable {Op : Type} {Ans : Op → Type} {ε α β World Env : Type}

/-- A step of thread `i` from `w` to `w'` keeps the invariant and is what the other threads
rely on. -/
structure Keeps (D : Discipline World) (i : ℕ) (w w' : World) : Prop where
  inv : D.Inv w'
  others : ∀ j, j ≠ i → D.Rely j w w'

/-- A predicate which the steps of the other threads preserve. -/
def Stable (D : Discipline World) (i : ℕ) (P : World → Prop) : Prop :=
  ∀ w w', D.Inv w → D.Inv w' → D.Rely i w w' → P w → P w'

/-- The program is safe for thread `i` from the world `w` on, and settles in `Q`. -/
def Safe (D : Discipline World) (M : Machine Op Ans World Env) (i : ℕ)
    (Q : Except ε α → World → Prop) : Program Op Ans ε α → World → Prop
  | .done a, w => Q (.ok a) w
  | .fail e, w => Q (.error e) w
  | .call o k, w =>
      ∀ w', D.Rely i w w' → D.Inv w' → ∀ a, M.allows i w' o a →
        D.Keeps i w' (M.post i w' o a) ∧ Safe D M i Q (k a) (M.post i w' o a)

/-- From every world with the invariant and `P`, the program is safe and settles in `Q`. -/
def Triple (D : Discipline World) (M : Machine Op Ans World Env) (i : ℕ)
    (P : World → Prop) (p : Program Op Ans ε α) (Q : Except ε α → World → Prop) : Prop :=
  ∀ w, D.Inv w → P w → D.Safe M i Q p w

variable {D : Discipline World} {M : Machine Op Ans World Env} {i : ℕ}

/-! ### Stable predicates -/

theorem Stable.and {P P' : World → Prop} (h : D.Stable i P) (h' : D.Stable i P') :
  D.Stable i (fun w => P w ∧ P' w)
  := by
  intro w w' hw hw' hr hP
  constructor
  · apply h w w' hw hw' hr hP.1
  · apply h' w w' hw hw' hr hP.2

theorem Stable.const (p : Prop) :
  D.Stable i (fun _ => p)
  := fun _ _ _ _ _ hp => hp

theorem Stable.imp {p : Prop} {P : World → Prop} (h : D.Stable i P) :
  D.Stable i (fun w => p → P w)
  := fun w w' hw hw' hr hP hp => h w w' hw hw' hr (hP hp)

theorem Stable.or {P P' : World → Prop} (h : D.Stable i P) (h' : D.Stable i P') :
  D.Stable i (fun w => P w ∨ P' w)
  := by
  rintro w w' hw hw' hr (hP | hP)
  · left
    apply h w w' hw hw' hr hP
  · right
    apply h' w w' hw hw' hr hP

/-! ### Safety along runs -/

/-- Steps of other threads preserve safety. -/
theorem Safe.of_rely {Q : Except ε α → World → Prop} (hQ : ∀ r, D.Stable i (Q r))
    {p : Program Op Ans ε α} {w w' : World} (hw : D.Inv w) (hw' : D.Inv w')
    (hr : D.Rely i w w') (h : D.Safe M i Q p w) :
  D.Safe M i Q p w'
  := by
  cases p with
  | done a => apply hQ _ w w' hw hw' hr h
  | fail e => apply hQ _ w w' hw hw' hr h
  | call o k =>
      intro w'' hr' hw'' a ha
      apply h w'' (D.trans hr hr') hw'' a ha

/-- A step of a pool whose programs are safe leaves one whose programs are safe. -/
theorem safe_of_step {Q : ℕ → Except ε α → World → Prop} (hQ : ∀ i r, D.Stable i (Q i r))
    (henv : ∀ w e, D.Inv w → M.envAllows w e →
      D.Inv (M.envPost w e) ∧ ∀ i, D.Rely i w (M.envPost w e))
    {c c' : Config Op Ans ε α World} (hstep : M.Step c c')
    (hc : D.Inv c.world ∧ ∀ i, D.Safe M i (Q i) (c.pool i) c.world) :
  D.Inv c'.world ∧ ∀ i, D.Safe M i (Q i) (c'.pool i) c'.world
  := by
  obtain ⟨hinv, hsafe⟩ := hc
  cases hstep with
  | act j o k a hp ha =>
      have hj := hsafe j
      rw [hp] at hj
      obtain ⟨hkeeps, hk⟩ := hj c.world (D.refl j _) hinv a ha
      use hkeeps.inv
      intro i
      by_cases hij : i = j
      · subst hij
        simpa using hk
      · have hi := Safe.of_rely (hQ i) hinv hkeeps.inv (hkeeps.others i hij) (hsafe i)
        simpa [Function.update_of_ne hij] using hi
  | env e he =>
      obtain ⟨hinv', hrely⟩ := henv c.world e hinv he
      use hinv'
      intro i
      apply Safe.of_rely (hQ i) hinv hinv' (hrely i) (hsafe i)

/-- A run from a pool whose programs are safe leaves one whose programs are safe. -/
theorem safe_of_run {Q : ℕ → Except ε α → World → Prop} (hQ : ∀ i r, D.Stable i (Q i r))
    (henv : ∀ w e, D.Inv w → M.envAllows w e →
      D.Inv (M.envPost w e) ∧ ∀ i, D.Rely i w (M.envPost w e))
    {c c' : Config Op Ans ε α World} (hrun : M.Run c c')
    (hc : D.Inv c.world ∧ ∀ i, D.Safe M i (Q i) (c.pool i) c.world) :
  D.Inv c'.world ∧ ∀ i, D.Safe M i (Q i) (c'.pool i) c'.world
  := by
  induction hrun with
  | refl => apply hc
  | tail _ hstep ih => apply safe_of_step hQ henv hstep ih

/-! ### Rules for the constructors -/

theorem Triple.done {P : World → Prop} {Q : Except ε α → World → Prop} {a : α}
    (h : ∀ w, D.Inv w → P w → Q (.ok a) w) :
  D.Triple M i P (.done a : Program Op Ans ε α) Q
  := h

theorem Triple.fail {P : World → Prop} {Q : Except ε α → World → Prop} {e : ε}
    (h : ∀ w, D.Inv w → P w → Q (.error e) w) :
  D.Triple M i P (.fail e : Program Op Ans ε α) Q
  := h

theorem Triple.settle {Q : Except ε α → World → Prop} (r : Except ε α) :
  D.Triple M i (Q r) (Program.settle r : Program Op Ans ε α) Q
  := by
  cases r with
  | ok a => apply Triple.done (fun _ _ hw => hw)
  | error e => apply Triple.fail (fun _ _ hw => hw)

/-- An operation performed from a stable precondition. -/
theorem Triple.call {P : World → Prop} {o : Op} {k : Ans o → Program Op Ans ε α}
    {R : Ans o → World → Prop} {Q : Except ε α → World → Prop} (hP : D.Stable i P)
    (hstep : ∀ w a, D.Inv w → P w → M.allows i w o a →
      D.Keeps i w (M.post i w o a) ∧ R a (M.post i w o a))
    (hk : ∀ a, D.Triple M i (R a) (k a) Q) :
  D.Triple M i P (.call o k) Q
  := by
  intro w hw hPw w' hr hw' a ha
  obtain ⟨hkeeps, hR⟩ := hstep w' a hw' (hP w w' hw hw' hr hPw) ha
  use hkeeps
  apply hk a _ hkeeps.inv hR

theorem Triple.perform {P : World → Prop} {o : Op} {Q : Except ε (Ans o) → World → Prop}
    (hP : D.Stable i P)
    (hstep : ∀ w a, D.Inv w → P w → M.allows i w o a →
      D.Keeps i w (M.post i w o a) ∧ Q (.ok a) (M.post i w o a)) :
  D.Triple M i P (Program.perform o : Program Op Ans ε (Ans o)) Q
  := Triple.call hP hstep (fun _ => Triple.done (fun _ _ h => h))

theorem Triple.weaken {P P' : World → Prop} {p : Program Op Ans ε α}
    {Q : Except ε α → World → Prop} (h : D.Triple M i P p Q)
    (hP : ∀ w, D.Inv w → P' w → P w) :
  D.Triple M i P' p Q
  := fun w hw hw' => h w hw (hP w hw hw')

/-- A part of the precondition which does not depend on the world. -/
theorem Triple.assume {q : Prop} {P : World → Prop} {p : Program Op Ans ε α}
    {Q : Except ε α → World → Prop} (h : q → D.Triple M i P p Q) :
  D.Triple M i (fun w => q ∧ P w) p Q
  := fun w hw hP => h hP.1 w hw hP.2

/-- A precondition that holds of no world. -/
theorem Triple.absurd {P : World → Prop} {p : Program Op Ans ε α}
    {Q : Except ε α → World → Prop} (hP : ∀ w, D.Inv w → ¬ P w) :
  D.Triple M i P p Q
  := fun w hw h => (hP w hw h).elim

/-! ### Rules for sequencing -/

theorem Safe.mono {Q Q' : Except ε α → World → Prop} (hQ : ∀ r w, D.Inv w → Q r w → Q' r w)
    {p : Program Op Ans ε α} {w : World} (hw : D.Inv w) (h : D.Safe M i Q p w) :
  D.Safe M i Q' p w
  := by
  induction p generalizing w with
  | done a => apply hQ _ w hw h
  | fail e => apply hQ _ w hw h
  | call o k ih =>
      intro w' hr hw' a ha
      obtain ⟨hkeeps, hk⟩ := h w' hr hw' a ha
      use hkeeps
      apply ih a hkeeps.inv hk

theorem Triple.strengthen {P : World → Prop} {p : Program Op Ans ε α}
    {Q Q' : Except ε α → World → Prop} (h : D.Triple M i P p Q)
    (hQ : ∀ r w, D.Inv w → Q r w → Q' r w) :
  D.Triple M i P p Q'
  := fun w hw hP => (h w hw hP).mono hQ hw

theorem Safe.bind {R : Except ε α → World → Prop} {Q : Except ε β → World → Prop}
    {f : α → Program Op Ans ε β} (hf : ∀ a, D.Triple M i (R (.ok a)) (f a) Q)
    (he : ∀ e w, D.Inv w → R (.error e) w → Q (.error e) w)
    {p : Program Op Ans ε α} {w : World} (hw : D.Inv w) (h : D.Safe M i R p w) :
  D.Safe M i Q (p.bind f) w
  := by
  induction p generalizing w with
  | done a => apply hf a w hw h
  | fail e => apply he e w hw h
  | call o k ih =>
      intro w' hr hw' a ha
      obtain ⟨hkeeps, hk⟩ := h w' hr hw' a ha
      use hkeeps
      apply ih a hkeeps.inv hk

/-- Running a program and then another one on the value it returns. -/
theorem Triple.bind {P : World → Prop} {R : Except ε α → World → Prop}
    {Q : Except ε β → World → Prop} {p : Program Op Ans ε α} {f : α → Program Op Ans ε β}
    (hp : D.Triple M i P p R) (hf : ∀ a, D.Triple M i (R (.ok a)) (f a) Q)
    (he : ∀ e w, D.Inv w → R (.error e) w → Q (.error e) w) :
  D.Triple M i P (p.bind f) Q
  := fun w hw hP => (hp w hw hP).bind hf he hw

/-- A program after an operation. -/
theorem Triple.perform_bind {P : World → Prop} {o : Op} {f : Ans o → Program Op Ans ε β}
    {R : Ans o → World → Prop} {Q : Except ε β → World → Prop} (hP : D.Stable i P)
    (hstep : ∀ w a, D.Inv w → P w → M.allows i w o a →
      D.Keeps i w (M.post i w o a) ∧ R a (M.post i w o a))
    (hf : ∀ a, D.Triple M i (R a) (f a) Q) :
  D.Triple M i P ((Program.perform o).bind f) Q
  := Triple.call hP hstep hf

theorem Safe.attempt {Q : Except ε (Except ε α) → World → Prop} {p : Program Op Ans ε α}
    {w : World} (h : D.Safe M i (fun r => Q (.ok r)) p w) :
  D.Safe M i Q p.attempt w
  := by
  induction p generalizing w with
  | done a => apply h
  | fail e => apply h
  | call o k ih =>
      intro w' hr hw' a ha
      obtain ⟨hkeeps, hk⟩ := h w' hr hw' a ha
      use hkeeps
      apply ih a hk

/-- Returning how a program settles. -/
theorem Triple.attempt {P : World → Prop} {Q : Except ε (Except ε α) → World → Prop}
    {p : Program Op Ans ε α} (hp : D.Triple M i P p (fun r => Q (.ok r))) :
  D.Triple M i P p.attempt Q
  := fun w hw hP => (hp w hw hP).attempt

/-- The postcondition of an attempt, which never throws. -/
def Attempted (R : Except ε α → World → Prop) (r : Except ε (Except ε α)) (w : World) : Prop :=
  ∃ s, r = .ok s ∧ R s w

theorem Triple.attempt_bind {P : World → Prop} {R : Except ε α → World → Prop}
    {Q : Except ε β → World → Prop} {p : Program Op Ans ε α}
    {f : Except ε α → Program Op Ans ε β} (hp : D.Triple M i P p R)
    (hf : ∀ r, D.Triple M i (R r) (f r) Q) :
  D.Triple M i P (p.attempt.bind f) Q
  := by
  apply Triple.bind (R := Attempted R)
  · apply Triple.attempt
    apply hp.strengthen
    intro r w _ hR
    use r
  · intro r
    apply (hf r).weaken
    rintro w - ⟨s, ⟨⟩, hR⟩
    apply hR
  · rintro e w - ⟨s, ⟨⟩, -⟩

theorem Triple.tryCatch {P : World → Prop} {R Q : Except ε α → World → Prop}
    {p : Program Op Ans ε α} {h : ε → Program Op Ans ε α} (hp : D.Triple M i P p R)
    (ha : ∀ a w, D.Inv w → R (.ok a) w → Q (.ok a) w)
    (hh : ∀ e, D.Triple M i (R (.error e)) (h e) Q) :
  D.Triple M i P (p.tryCatch h) Q
  := by
  apply Triple.attempt_bind hp
  intro r
  cases r with
  | ok a => apply Triple.done (ha a)
  | error e => apply hh e

/-- A program whose `finally` part, which does not throw, takes each way it may settle to the
postcondition. -/
theorem Triple.tryFinally {P : World → Prop} {R Q : Except ε α → World → Prop}
    {p : Program Op Ans ε α} {f : Program Op Ans ε Unit} (hp : D.Triple M i P p R)
    (hf : ∀ r, D.Triple M i (R r) f (fun s w => s = .ok () ∧ Q r w)) :
  D.Triple M i P (p.tryFinally f) Q
  := by
  apply Triple.attempt_bind hp
  intro r
  apply Triple.bind (hf r)
  · intro _
    apply (Triple.settle r).weaken
    rintro w - ⟨-, hQ⟩
    apply hQ
  · rintro e w - ⟨⟨⟩, -⟩

/-! ### Framing -/

/-- A predicate that every step preserves holds on. -/
theorem Triple.frame {P F : World → Prop} {Q : Except ε α → World → Prop}
    {p : Program Op Ans ε α} (hstable : D.Stable i F)
    (hstep : ∀ w o a, D.Inv w → F w → M.allows i w o a → F (M.post i w o a))
    (h : D.Triple M i P p Q) :
  D.Triple M i (fun w => P w ∧ F w) p (fun r w => Q r w ∧ F w)
  := by
  have hsafe : ∀ w, D.Inv w → F w → D.Safe M i Q p w →
      D.Safe M i (fun r w => Q r w ∧ F w) p w := by
    clear h
    induction p with
    | done a => exact fun w _ hF hQ => ⟨hQ, hF⟩
    | fail e => exact fun w _ hF hQ => ⟨hQ, hF⟩
    | call o k ih =>
        intro w hw hF hs w' hr hw' a ha
        obtain ⟨hkeeps, hk⟩ := hs w' hr hw' a ha
        use hkeeps
        apply ih a _ hkeeps.inv _ hk
        apply hstep w' o a hw' (hstable w w' hw hw' hr hF) ha
  rintro w hw ⟨hP, hF⟩
  apply hsafe w hw hF (h w hw hP)

/-! ### Pools -/

/-- What a run from a pool of threads with proved triples leaves: the invariant, and the
postcondition of every thread that has settled. -/
theorem settled_of_run {P : ℕ → World → Prop} {Q : ℕ → Except ε α → World → Prop}
    {c c' : Config Op Ans ε α World} (hpool : ∀ i, D.Triple M i (P i) (c.pool i) (Q i))
    (hQ : ∀ i r, D.Stable i (Q i r))
    (henv : ∀ w e, D.Inv w → M.envAllows w e →
      D.Inv (M.envPost w e) ∧ ∀ i, D.Rely i w (M.envPost w e))
    (hw : D.Inv c.world) (hP : ∀ i, P i c.world) (hrun : M.Run c c') :
  D.Inv c'.world ∧ ∀ i r, c'.pool i = .settle r → Q i r c'.world
  := by
  obtain ⟨hinv, hsafe⟩ := safe_of_run hQ henv hrun ⟨hw, fun i => hpool i c.world hw (hP i)⟩
  use hinv
  intro i r hr
  have hi := hsafe i
  rw [hr] at hi
  cases r with
  | ok a => apply hi
  | error e => apply hi

end Discipline
