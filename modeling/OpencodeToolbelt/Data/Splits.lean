import Mathlib.Data.List.Induction

/-!
# Places in a list

What precedes an element of a list, and what follows it, where the list grows at its end.
-/

namespace List

variable {α : Type}

/-- A place in a list with one more element is the last one, or a place in the list. -/
theorem exists_split_concat_iff {l : List α} {x : α} {P : List α → α → List α → Prop} :
  (∃ before a after, l ++ [x] = before ++ a :: after ∧ P before a after) ↔
    P l x [] ∨ ∃ before a after, l = before ++ a :: after ∧ P before a (after ++ [x])
  := by
  constructor
  · rintro ⟨before, a, after, heq, hP⟩
    rcases eq_nil_or_concat after with rfl | ⟨after, y, rfl⟩
    · left
      obtain ⟨rfl, hlast⟩ := append_inj' heq rfl
      cases hlast
      apply hP
    · right
      rw [concat_eq_append] at heq hP
      have happend : l ++ [x] = (before ++ a :: after) ++ [y] := by
        rw [heq, append_assoc, cons_append]
      obtain ⟨rfl, hlast⟩ := append_inj' happend rfl
      cases hlast
      use before, a, after
  · rintro (hP | ⟨before, a, after, rfl, hP⟩)
    · use l, x, []
    · use before, a, after ++ [x]
      rw [append_assoc, cons_append]
      use rfl

/-- What holds at every place of a list holds at every index. -/
theorem forall_split_iff {l : List α} {P : List α → α → List α → Prop} :
  (∀ before a after, l = before ++ a :: after → P before a after) ↔
    ∀ i : Fin l.length, P (l.take i) (l.get i) (l.drop (i + 1))
  := by
  constructor
  · intro h i
    apply h
    simp
  · rintro h before a after rfl
    have hplace := h ⟨before.length, by simp⟩
    simpa using hplace

end List
