import OpencodeToolbelt.Async.RelyGuarantee
import Mathlib.Logic.Relation

/-!
# Transactions on one connection

A connection has one transaction at a time, whoever has opened it, and statements outside of a
transaction take effect at once. Programs share the connection statement by statement, next to
operations of their own. What each of their transactions keeps as a whole holds of what is
committed, however the programs are interleaved, and whichever statements fail.
-/

/-- A connection to a database with states in `σ`. -/
structure Connection (σ : Type) where
  committed : σ
  /-- The state in the open transaction. -/
  working : Option σ
  /-- Which thread has opened it, on which nothing depends. -/
  opener : Option ℕ

inductive Statement (σ : Type) where
  | begin
  | run (f : σ → Option σ)
  | commit
  | rollback

namespace Connection

variable {σ : Type}

/-- The connection of a process that has just opened the database. -/
def fresh (s : σ) : Connection σ := ⟨s, none, none⟩

/-- What queries read. -/
def visible (c : Connection σ) : σ := c.working.getD c.committed

/-- The connection after a statement of the thread, unless the statement is an error. -/
def exec (i : ℕ) (c : Connection σ) : Statement σ → Option (Connection σ)
  | .begin =>
      match c.working with
      | none => some { c with working := some c.committed, opener := some i }
      | some _ => none
  | .run f =>
      match c.working with
      | none => (f c.committed).map fun s => { c with committed := s }
      | some s => (f s).map fun s => { c with working := some s }
  | .commit =>
      match c.working with
      | none => none
      | some s => some ⟨s, none, none⟩
  | .rollback =>
      match c.working with
      | none => none
      | some _ => some { c with working := none, opener := none }

/-- The connection after a statement that succeeds or fails. -/
def answer (i : ℕ) (c : Connection σ) (s : Statement σ) (ok : Bool) : Connection σ :=
  if ok then (c.exec i s).getD c else c

end Connection

/-- The operations of a program that uses a connection: statements, answered with whether they
succeed, and others. -/
inductive DbOp (σ Other : Type) where
  | statement (s : Statement σ)
  | other (o : Other)

def DbAns {σ Other : Type} (AnsOther : Other → Type) : DbOp σ Other → Type
  | .statement _ => Bool
  | .other o => AnsOther o

/-- What the operations other than statements do in the surroundings `W` of a connection. -/
structure Surroundings (σ Other : Type) (AnsOther : Other → Type) (W Env : Type) where
  allows : Connection σ → W → (o : Other) → AnsOther o → Prop
  post : W → (o : Other) → AnsOther o → W
  envAllows : W → Env → Prop
  envPost : W → Env → W

namespace Surroundings

variable {σ Other W Env ε α : Type} {AnsOther : Other → Type}

/-- Programs that share a connection. Any statement may fail, and one that fails has no effect. -/
def machine (N : Surroundings σ Other AnsOther W Env) :
    Machine (DbOp σ Other) (DbAns AnsOther) (Connection σ × W) Env where
  allows i w
    | .statement s, ok => ok = true → (w.1.exec i s).isSome
    | .other o, a => N.allows w.1 w.2 o a
  post i w
    | .statement s, ok => (w.1.answer i s ok, w.2)
    | .other o, a => (w.1, N.post w.2 o a)
  envAllows w e := N.envAllows w.2 e
  envPost w e := (w.1, N.envPost w.2 e)

end Surroundings

namespace Transactions

variable {σ Other W Env ε α : Type} {AnsOther : Other → Type}

/-- A statement, and an error if it fails. -/
def exec (failed : ε) (s : Statement σ) : Program (DbOp σ Other) (DbAns AnsOther) ε Unit :=
  .call (.statement s) fun (ok : Bool) => if ok then .done () else .fail failed

/-- Statements one after the other. -/
def execAll (failed : ε) :
    List (σ → Option σ) → Program (DbOp σ Other) (DbAns AnsOther) ε Unit
  | [] => .done ()
  | f :: body => (exec failed (.run f)).bind fun _ => execAll failed body

/-- `BEGIN`, the statements and `COMMIT`, or `ROLLBACK` if one of them fails. -/
def transaction (failed : ε) (body : List (σ → Option σ)) :
    Program (DbOp σ Other) (DbAns AnsOther) ε Unit :=
  (exec failed .begin).bind fun _ =>
    ((execAll failed body).bind fun _ => exec failed .commit).tryCatch fun e =>
      (exec failed .rollback).bind fun _ => .fail e

/-- What the statements of a transaction do together. -/
def whole : List (σ → Option σ) → σ → Option σ
  | [], s => some s
  | f :: body, s => (f s).bind (whole body)

/-! ### The discipline -/

/-- The surroundings change along `grows`, and the invariant relates them to what is committed.
Whoever has opened a transaction is alone in it. -/
def discipline (I : W → σ → Prop) (grows : W → W → Prop) (hrefl : ∀ w, grows w w)
    (htrans : ∀ {u v w}, grows u v → grows v w → grows u w) : Discipline (Connection σ × W) where
  Inv w := I w.2 w.1.committed ∧ (w.1.working = none ↔ w.1.opener = none)
  Rely i w w' :=
    (w.1.opener = some i → w'.1 = w.1) ∧ (w.1.opener ≠ some i → w'.1.opener ≠ some i) ∧
      grows w.2 w'.2
  refl i w := ⟨fun _ => rfl, fun h => h, hrefl _⟩
  trans := by
    rintro i u v w ⟨hmine, hnot, hgrows⟩ ⟨hmine', hnot', hgrows'⟩
    refine ⟨?_, fun h => hnot' (hnot h), htrans hgrows hgrows'⟩
    intro h
    rw [hmine' (hmine h ▸ h), hmine h]

section Rules

variable {N : Surroundings σ Other AnsOther W Env} {I : W → σ → Prop} {grows : W → W → Prop}
  {hrefl : ∀ w, grows w w} {htrans : ∀ {u v w}, grows u v → grows v w → grows u w} {i : ℕ}

/-- What growing surroundings keep. -/
def Lasting (grows : W → W → Prop) (P : W → Prop) : Prop := ∀ w w', grows w w' → P w → P w'

theorem stable_of_lasting {P : W → Prop} (h : Lasting grows P) :
  (discipline I grows hrefl htrans).Stable i fun w => P w.2
  := fun w w' _ _ hrely hP => h w.2 w'.2 hrely.2.2 hP

/-- The thread is in its own transaction, which has come to a state from which the rest of its
statements lead where the whole does. -/
def Inside (i : ℕ) (P : W → Prop) (body rest : List (σ → Option σ)) (w : Connection σ × W) : Prop :=
  P w.2 ∧ w.1.opener = some i ∧
    ∃ s, w.1.working = some s ∧ whole body w.1.committed = whole rest s

theorem stable_inside {P : W → Prop} (hP : Lasting grows P) (body rest : List (σ → Option σ)) :
  (discipline I grows hrefl htrans).Stable i (Inside i P body rest)
  := by
  rintro w w' _ _ ⟨hmine, -, hgrows⟩ ⟨hPw, hopener, hstate⟩
  refine ⟨hP _ _ hgrows hPw, ?_, ?_⟩
  · rw [hmine hopener, hopener]
  · rw [hmine hopener]
    apply hstate

/-- A statement that fails changes nothing. -/
theorem keeps_refl {w : Connection σ × W} (hw : (discipline I grows hrefl htrans).Inv w) :
  (discipline I grows hrefl htrans).Keeps i w w
  := ⟨hw, fun j _ => (discipline I grows hrefl htrans).refl j w⟩

/-- A statement of the thread in its own transaction concerns no other thread. -/
theorem keeps_own {w : Connection σ × W} {c : Connection σ}
    (hinv : (discipline I grows hrefl htrans).Inv (c, w.2)) (hopener : w.1.opener = some i)
    (hafter : c.opener = some i ∨ c.opener = none) :
  (discipline I grows hrefl htrans).Keeps i w (c, w.2)
  := by
  refine ⟨hinv, ?_⟩
  intro j hj
  refine ⟨?_, ?_, hrefl _⟩
  · intro h
    rw [hopener] at h
    exact absurd (Option.some.inj h).symm hj
  · intro _
    obtain h | h := hafter <;> rw [h]
    · intro h
      exact hj (Option.some.inj h).symm
    · simp

variable {failed : ε}

/-- A statement leads to one of two states. -/
theorem triple_exec {P : Connection σ × W → Prop} {s : Statement σ}
    {Q : Except ε Unit → Connection σ × W → Prop}
    (hP : (discipline I grows hrefl htrans).Stable i P)
    (hok : ∀ w c, (discipline I grows hrefl htrans).Inv w → P w → w.1.exec i s = some c →
      (discipline I grows hrefl htrans).Keeps i w (c, w.2) ∧ Q (.ok ()) (c, w.2))
    (hfailed : ∀ w, (discipline I grows hrefl htrans).Inv w → P w → Q (.error failed) w) :
  (discipline I grows hrefl htrans).Triple N.machine i P (exec failed s) Q
  := by
  apply Discipline.Triple.call hP
    (R := fun (ok : Bool) w => if ok then Q (.ok ()) w else Q (.error failed) w)
  · intro w ok hw hPw hallows
    cases ok with
    | false =>
        exact ⟨keeps_refl hw, hfailed w hw hPw⟩
    | true =>
        obtain ⟨c, hc⟩ := Option.isSome_iff_exists.mp (hallows rfl)
        have hpost : N.machine.post i w (.statement s) true = (c, w.2) := by
          simp [Surroundings.machine, Connection.answer, hc]
        rw [hpost]
        apply hok w c hw hPw hc
  · intro ok
    cases ok with
    | false => exact fun _ _ h => h
    | true => exact fun _ _ h => h

/-- The thread has got so far in its own transaction, or somewhere before. -/
def Stopped (i : ℕ) (P : W → Prop) (body rest : List (σ → Option σ)) :
    Except ε Unit → Connection σ × W → Prop
  | .ok _ => Inside i P body rest
  | .error _ => fun w => ∃ rest, Inside i P body rest w

theorem triple_execAll {P : W → Prop} (hP : Lasting grows P) (body rest : List (σ → Option σ)) :
  (discipline I grows hrefl htrans).Triple N.machine i (Inside i P body rest)
    (execAll failed rest) (Stopped i P body [])
  := by
  induction rest with
  | nil => exact fun _ _ h => h
  | cons f rest ih =>
      apply Discipline.Triple.bind (R := Stopped i P body rest)
      · apply triple_exec (stable_inside hP body (f :: rest))
        · rintro w c ⟨hI, hopen⟩ ⟨hPw, hopener, s, hs, hwhole⟩ hc
          simp only [Connection.exec, hs, Option.map_eq_some_iff] at hc
          obtain ⟨s', hs', rfl⟩ := hc
          constructor
          · apply keeps_own (c := { w.1 with working := some s' }) _ hopener (.inl hopener)
            refine ⟨hI, ?_⟩
            simp [hopener]
          · refine ⟨hPw, hopener, s', rfl, ?_⟩
            rw [hwhole, whole, hs', Option.bind_some]
        · exact fun w _ h => ⟨f :: rest, h⟩
      · exact fun _ => ih
      · exact fun _ _ _ h => h

/-- What a transaction keeps as a whole is kept when its statements are interleaved with those of
other threads. -/
theorem triple_transaction {P : W → Prop} (hP : Lasting grows P) {body : List (σ → Option σ)}
    (hwhole : ∀ w s s', P w → I w s → whole body s = some s' → I w s') :
  (discipline I grows hrefl htrans).Triple N.machine i (fun w => P w.2) (transaction failed body)
    fun _ w => P w.2
  := by
  apply Discipline.Triple.bind (R := fun r w =>
    match r with
    | .ok _ => Inside i P body body w
    | .error _ => P w.2)
  · apply triple_exec (stable_of_lasting hP)
    · rintro w c ⟨hI, hopen⟩ hPw hc
      rw [Connection.exec] at hc
      split at hc
      · next hnone =>
          cases hc
          constructor
          · refine ⟨⟨hI, by simp⟩, ?_⟩
            intro j hj
            refine ⟨?_, ?_, hrefl _⟩
            · intro h
              rw [hopen.mp hnone] at h
              cases h
            · intro _ h
              exact hj (Option.some.inj h).symm
          · exact ⟨hPw, rfl, w.1.committed, rfl, rfl⟩
      · cases hc
    · exact fun _ _ h => h
  · intro _
    apply Discipline.Triple.tryCatch (R := fun r w =>
      match r with
      | .ok _ => P w.2
      | .error _ => ∃ rest, Inside i P body rest w)
    · apply (triple_execAll hP body body).bind
      · intro _
        apply triple_exec (stable_inside hP body [])
        · rintro w c ⟨hI, -⟩ ⟨hPw, hopener, s, hs, hall⟩ hc
          simp only [Connection.exec, hs, Option.some.injEq] at hc
          subst hc
          constructor
          · apply keeps_own _ hopener (.inr rfl)
            exact ⟨hwhole _ _ _ hPw hI hall, by simp⟩
          · apply hPw
        · exact fun w _ h => ⟨[], h⟩
      · exact fun _ _ _ h => h
    · exact fun _ _ _ h => h
    · intro e
      apply Discipline.Triple.bind (R := fun _ w => P w.2)
      · apply triple_exec
        · rintro w w' hw hw' hrely ⟨rest, h⟩
          use rest
          apply stable_inside hP body rest w w' hw hw' hrely h
        · rintro w c ⟨hI, -⟩ ⟨rest, hPw, hopener, s, hs, -⟩ hc
          simp only [Connection.exec, hs, Option.some.injEq] at hc
          subst hc
          constructor
          · apply keeps_own _ hopener (.inr rfl)
            exact ⟨hI, by simp⟩
          · apply hPw
        · rintro w - ⟨rest, h⟩
          apply h.1
      · exact fun _ => Discipline.Triple.fail fun _ _ h => h
      · exact fun _ _ _ h => h
  · exact fun _ _ _ h => h

/-- An operation other than a statement. -/
theorem triple_other {P : W → Prop} (hP : Lasting grows P) {o : Other}
    {k : DbAns AnsOther (.other o : DbOp σ Other) → Program (DbOp σ Other) (DbAns AnsOther) ε α}
    {R : AnsOther o → W → Prop}
    {Q : Except ε α → Connection σ × W → Prop}
    (hstep : ∀ c w a, I w c.committed → P w → N.allows c w o a →
      I (N.post w o a) c.committed ∧ grows w (N.post w o a) ∧ R a (N.post w o a))
    (hk : ∀ a, (discipline I grows hrefl htrans).Triple N.machine i (fun w => R a w.2) (k a) Q) :
  (discipline I grows hrefl htrans).Triple N.machine i (fun w => P w.2) (.call (.other o) k) Q
  := by
  refine Discipline.Triple.call (stable_of_lasting hP) ?_ hk
  rintro w a ⟨hI, hopen⟩ hPw hallows
  obtain ⟨hI', hgrows, hR⟩ := hstep w.1 w.2 a hI hPw hallows
  refine ⟨⟨⟨hI', hopen⟩, ?_⟩, hR⟩
  intro j _
  exact ⟨fun _ => rfl, fun h => h, hgrows⟩

end Rules

end Transactions
