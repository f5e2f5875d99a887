import OpencodeToolbelt.Async.Program
import Mathlib.Logic.Relation

/-!
# Machines and their interleaved runs

A machine gives the operations of a signature their effect on a world: which answers an
operation may get, and the world it leaves behind. The environment has steps of its own. A
configuration is a world with a pool of programs, one for each thread; a step lets one
thread perform its next operation, or the environment act. The runs of a configuration are
the interleavings of its threads.
-/

/-- The effect of the operations `Op`, and of the environment events `Env`, on worlds. -/
structure Machine (Op : Type) (Ans : Op → Type) (World Env : Type) where
  /-- Whether a thread may get an answer to an operation. -/
  allows : ℕ → World → (o : Op) → Ans o → Prop
  /-- The world after a thread got an answer to an operation. -/
  post : ℕ → World → (o : Op) → Ans o → World
  /-- Whether an event may occur. -/
  envAllows : World → Env → Prop
  /-- The world after an event. -/
  envPost : World → Env → World

/-- A world and the programs of the threads that share it. -/
structure Config (Op : Type) (Ans : Op → Type) (ε α World : Type) where
  world : World
  pool : ℕ → Program Op Ans ε α

/-- An operation performed by a thread, with the answer it got. -/
structure Event (Op : Type) (Ans : Op → Type) where
  thread : ℕ
  op : Op
  answer : Ans op

namespace Machine

variable {Op : Type} {Ans : Op → Type} {ε α World Env : Type}

/-- One step of an interleaved run. -/
inductive Step (M : Machine Op Ans World Env) :
    Config Op Ans ε α World → Config Op Ans ε α World → Prop where
  | act {c : Config Op Ans ε α World} (i : ℕ) (o : Op) (k : Ans o → Program Op Ans ε α)
      (a : Ans o) (h : c.pool i = .call o k) (ha : M.allows i c.world o a) :
      Step M c ⟨M.post i c.world o a, Function.update c.pool i (k a)⟩
  | env {c : Config Op Ans ε α World} (e : Env) (he : M.envAllows c.world e) :
      Step M c ⟨M.envPost c.world e, c.pool⟩

/-- The configurations that runs from `c` reach. -/
def Run (M : Machine Op Ans World Env) (c c' : Config Op Ans ε α World) : Prop :=
  Relation.ReflTransGen M.Step c c'

/-- The machine all of whose steps meet a condition, which may depend on the thread, the
world before the step, the operation and its answer. -/
def restrict (M : Machine Op Ans World Env) (C : ℕ → World → (o : Op) → Ans o → Prop)
    (E : World → Env → Prop) : Machine Op Ans World Env where
  allows i w o a := M.allows i w o a ∧ C i w o a
  post := M.post
  envAllows w e := M.envAllows w e ∧ E w e
  envPost := M.envPost

/-- The machine whose worlds carry a history `G`, which steps extend by `g` and on which
nothing depends. -/
def instrument {G : Type} (M : Machine Op Ans World Env)
    (g : G → ℕ → World → (o : Op) → Ans o → G) : Machine Op Ans (World × G) Env where
  allows i w o a := M.allows i w.1 o a
  post i w o a := (M.post i w.1 o a, g w.2 i w.1 o a)
  envAllows w e := M.envAllows w.1 e
  envPost w e := (M.envPost w.1 e, w.2)

/-- The machine whose worlds carry the list of the events so far, the latest first. -/
def record (M : Machine Op Ans World Env) :
    Machine Op Ans (World × List (Event Op Ans)) Env :=
  M.instrument fun τ i _ o a => ⟨i, o, a⟩ :: τ

instance (M : Machine Op Ans World Env) (C : ℕ → World → (o : Op) → Ans o → Prop)
    (E : World → Env → Prop) (i : ℕ) (w : World) (o : Op) (a : Ans o)
    [Decidable (M.allows i w o a)] [Decidable (C i w o a)] :
  Decidable ((M.restrict C E).allows i w o a)
  := inferInstanceAs (Decidable (M.allows i w o a ∧ C i w o a))

instance (M : Machine Op Ans World Env) (C : ℕ → World → (o : Op) → Ans o → Prop)
    (E : World → Env → Prop) (w : World) (e : Env) [Decidable (M.envAllows w e)]
    [Decidable (E w e)] :
  Decidable ((M.restrict C E).envAllows w e)
  := inferInstanceAs (Decidable (M.envAllows w e ∧ E w e))

instance {G : Type} (M : Machine Op Ans World Env)
    (g : G → ℕ → World → (o : Op) → Ans o → G) (i : ℕ) (w : World × G) (o : Op) (a : Ans o)
    [Decidable (M.allows i w.1 o a)] :
  Decidable ((M.instrument g).allows i w o a)
  := inferInstanceAs (Decidable (M.allows i w.1 o a))

instance {G : Type} (M : Machine Op Ans World Env)
    (g : G → ℕ → World → (o : Op) → Ans o → G) (w : World × G) (e : Env)
    [Decidable (M.envAllows w.1 e)] :
  Decidable ((M.instrument g).envAllows w e)
  := inferInstanceAs (Decidable (M.envAllows w.1 e))

theorem Step.of_restrict {M : Machine Op Ans World Env}
    {C : ℕ → World → (o : Op) → Ans o → Prop} {E : World → Env → Prop}
    {c c' : Config Op Ans ε α World} (h : (M.restrict C E).Step c c') :
  M.Step c c'
  := by
  cases h with
  | act i o k a h ha => apply Step.act i o k a h ha.1
  | env e he => apply Step.env e he.1

/-- A run whose steps meet a condition is a run. -/
theorem Run.of_restrict {M : Machine Op Ans World Env}
    {C : ℕ → World → (o : Op) → Ans o → Prop} {E : World → Env → Prop}
    {c c' : Config Op Ans ε α World} (h : (M.restrict C E).Run c c') :
  M.Run c c'
  := Relation.ReflTransGen.mono (fun _ _ => Step.of_restrict) _ _ h

/-! ### Schedules -/

/-- One choice of a scheduler: a thread and the answer to whichever operation it performs
next, or an event of the environment. -/
inductive Move (Op : Type) (Ans : Op → Type) (World Env : Type) where
  | act : ℕ → (World → (o : Op) → Option (Ans o)) → Move Op Ans World Env
  | env : Env → Move Op Ans World Env

/-- The step a choice leads to, if it is one. -/
def advance (M : Machine Op Ans World Env) [∀ i w o a, Decidable (M.allows i w o a)]
    [∀ w e, Decidable (M.envAllows w e)] (c : Config Op Ans ε α World) :
    Move Op Ans World Env → Option (Config Op Ans ε α World)
  | .act i f =>
      match c.pool i with
      | .done _ => none
      | .fail _ => none
      | .call o k =>
          match f c.world o with
          | none => none
          | some a =>
              if M.allows i c.world o a then
                some ⟨M.post i c.world o a, Function.update c.pool i (k a)⟩
              else none
  | .env e => if M.envAllows c.world e then some ⟨M.envPost c.world e, c.pool⟩ else none

/-- The configuration a schedule leads to, if all its choices are steps. -/
def play (M : Machine Op Ans World Env) [∀ i w o a, Decidable (M.allows i w o a)]
    [∀ w e, Decidable (M.envAllows w e)] :
    List (Move Op Ans World Env) → Config Op Ans ε α World → Option (Config Op Ans ε α World)
  | [], c => some c
  | m :: ms, c =>
      match M.advance c m with
      | none => none
      | some c' => M.play ms c'

section Schedules

variable (M : Machine Op Ans World Env) [∀ i w o a, Decidable (M.allows i w o a)]
  [∀ w e, Decidable (M.envAllows w e)]

theorem step_of_advance {c c' : Config Op Ans ε α World} {m : Move Op Ans World Env}
    (h : M.advance c m = some c') :
  M.Step c c'
  := by
  cases m with
  | act i f =>
      simp only [advance] at h
      split at h
      · cases h
      · cases h
      · next o k hp =>
          split at h
          · cases h
          · next a hf =>
              split at h
              · next ha =>
                  cases h
                  apply Step.act i o k a hp ha
              · cases h
  | env e =>
      simp only [advance] at h
      split at h
      · next he =>
          cases h
          apply Step.env e he
      · cases h

/-- What a schedule leads to is reached by a run. -/
theorem run_of_play {ms : List (Move Op Ans World Env)} {c c' : Config Op Ans ε α World}
    (h : M.play ms c = some c') :
  M.Run c c'
  := by
  induction ms generalizing c with
  | nil =>
      cases h
      apply Relation.ReflTransGen.refl
  | cons m ms ih =>
      simp only [play] at h
      split at h
      · cases h
      · next c₁ hc₁ =>
          apply Relation.ReflTransGen.head (step_of_advance M hc₁)
          apply ih h

/-- A schedule that leads to a configuration which passes a test shows that a run reaches
one. -/
theorem exists_run_of_play (ms : List (Move Op Ans World Env)) (c : Config Op Ans ε α World)
    (p : Config Op Ans ε α World → Bool)
    (h : (M.play ms c).any p = true) :
  ∃ c', M.Run c c' ∧ p c' = true
  := by
  obtain ⟨c', hc', hp⟩ := (Option.any_eq_true p _).mp h
  use c', M.run_of_play hc', hp

end Schedules

end Machine
