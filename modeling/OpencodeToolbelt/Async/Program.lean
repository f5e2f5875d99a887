import Mathlib.Data.Nat.Notation
import Mathlib.Logic.Function.Basic

/-!
# Programs over a signature of operations

A signature is a type `Op` of operations together with a type `Ans o` of answers for each
operation `o`. A program over it returns a value, throws an error, or performs an operation
and continues with the answer. An asynchronous function is such a program whose operations
are the points at which it can be interrupted.
-/

/-- The programs over the operations `Op` with answers in `Ans`, which return a value in
`α` or throw an error in `ε`. -/
inductive Program (Op : Type) (Ans : Op → Type) (ε α : Type) where
  | done : α → Program Op Ans ε α
  | fail : ε → Program Op Ans ε α
  | call : (o : Op) → (Ans o → Program Op Ans ε α) → Program Op Ans ε α

namespace Program

variable {Op : Type} {Ans : Op → Type} {ε α β : Type}

/-- The program which performs a single operation and returns its answer. -/
def perform (o : Op) : Program Op Ans ε (Ans o) :=
  .call o .done

/-- Running a program and then another one on the value it returns. -/
def bind : Program Op Ans ε α → (α → Program Op Ans ε β) → Program Op Ans ε β
  | .done a, f => f a
  | .fail e, _ => .fail e
  | .call o k, f => .call o (fun a => (k a).bind f)

instance : Monad (Program Op Ans ε) where
  pure := .done
  bind := .bind

/-- The program which throws `e`. -/
def throw (e : ε) : Program Op Ans ε α := .fail e

/-- The program which settles as `r`. -/
def settle : Except ε α → Program Op Ans ε α
  | .ok a => .done a
  | .error e => .fail e

/-- How a program has settled, if it has. -/
def result : Program Op Ans ε α → Option (Except ε α)
  | .done a => some (.ok a)
  | .fail e => some (.error e)
  | .call _ _ => none

theorem eq_settle_of_result {p : Program Op Ans ε α} {r : Except ε α}
    (h : p.result = some r) :
  p = settle r
  := by
  cases p with
  | done a =>
      obtain rfl := Option.some.inj h
      rfl
  | fail e =>
      obtain rfl := Option.some.inj h
      rfl
  | call o k => cases h

/-- The program which runs `p` and returns how it settled. -/
def attempt : Program Op Ans ε α → Program Op Ans ε (Except ε α)
  | .done a => .done (.ok a)
  | .fail e => .done (.error e)
  | .call o k => .call o (fun a => (k a).attempt)

/-- The `try { p } catch (e) { h e }` statement. -/
def tryCatch (p : Program Op Ans ε α) (h : ε → Program Op Ans ε α) : Program Op Ans ε α :=
  p.attempt.bind fun r =>
    match r with
    | .ok a => .done a
    | .error e => h e

/-- The `try { p } finally { f }` statement. -/
def tryFinally (p : Program Op Ans ε α) (f : Program Op Ans ε Unit) : Program Op Ans ε α :=
  p.attempt.bind fun r => f.bind fun _ => settle r

@[simp]
theorem pure_eq (a : α) :
  (pure a : Program Op Ans ε α) = .done a
  := rfl

@[simp]
theorem bind_eq (p : Program Op Ans ε α) (f : α → Program Op Ans ε β) :
  (p >>= f) = p.bind f
  := rfl

theorem bind_assoc {γ : Type} (p : Program Op Ans ε α) (f : α → Program Op Ans ε β)
    (g : β → Program Op Ans ε γ) :
  (p.bind f).bind g = p.bind (fun a => (f a).bind g)
  := by
  induction p with
  | done a => rfl
  | fail e => rfl
  | call o k ih =>
      simp only [bind]
      congr 1
      funext a
      apply ih

@[simp]
theorem bind_done (p : Program Op Ans ε α) :
  p.bind .done = p
  := by
  induction p with
  | done a => rfl
  | fail e => rfl
  | call o k ih =>
      simp only [bind]
      congr 1
      funext a
      apply ih

/-! ### The operations of a program -/

/-- Every operation the program may perform is in `C`, and it settles in `R`. -/
def Within (C : Op → Prop) (R : Except ε α → Prop) : Program Op Ans ε α → Prop
  | .done a => R (.ok a)
  | .fail e => R (.error e)
  | .call o k => C o ∧ ∀ a, (k a).Within C R

variable {C D : Op → Prop} {R : Except ε α → Prop} {S : Except ε β → Prop}

theorem Within.mono {R' : Except ε α → Prop} (hC : ∀ o, C o → D o) (hR : ∀ r, R r → R' r)
    {p : Program Op Ans ε α} (hp : p.Within C R) :
  p.Within D R'
  := by
  induction p with
  | done a => apply hR _ hp
  | fail e => apply hR _ hp
  | call o k ih => exact ⟨hC o hp.1, fun a => ih a (hp.2 a)⟩

theorem Within.bind {p : Program Op Ans ε α} {f : α → Program Op Ans ε β} (hp : p.Within C R)
    (hf : ∀ a, R (.ok a) → (f a).Within C S) (he : ∀ e, R (.error e) → S (.error e)) :
  (p.bind f).Within C S
  := by
  induction p with
  | done a => apply hf a hp
  | fail e => apply he e hp
  | call o k ih => exact ⟨hp.1, fun a => ih a (hp.2 a)⟩

theorem Within.perform {o : Op} {f : Ans o → Program Op Ans ε β} (ho : C o)
    (hf : ∀ a, (f a).Within C S) :
  ((Program.perform o).bind f).Within C S
  := ⟨ho, hf⟩

theorem Within.attempt {S : Except ε (Except ε α) → Prop} {p : Program Op Ans ε α}
    (hp : p.Within C (fun r => S (.ok r))) :
  p.attempt.Within C S
  := by
  induction p with
  | done a => apply hp
  | fail e => apply hp
  | call o k ih => exact ⟨hp.1, fun a => ih a (hp.2 a)⟩

theorem Within.settle {r : Except ε α} (hr : R r) :
  (Program.settle r : Program Op Ans ε α).Within C R
  := by
  cases r with
  | ok a => apply hr
  | error e => apply hr

theorem Within.tryFinally {p : Program Op Ans ε α} {f : Program Op Ans ε Unit}
    (hp : p.Within C R) (hf : f.Within C (fun r => r = .ok ())) :
  (p.tryFinally f).Within C R
  := by
  have hattempt : p.attempt.Within C (fun r => ∃ s, r = .ok s ∧ R s) := by
    apply Within.attempt
    apply hp.mono (fun _ h => h)
    exact fun r h => ⟨r, rfl, h⟩
  apply hattempt.bind
  · rintro r ⟨s, ⟨⟩, hR⟩
    apply hf.bind
    · exact fun _ _ => Within.settle hR
    · rintro e ⟨⟩
  · rintro e ⟨s, ⟨⟩, -⟩

end Program
