import OpencodeToolbelt.Data.Splits
import Mathlib.Algebra.BigOperators.Group.List.Basic
import Mathlib.Algebra.Order.Group.Defs
import Mathlib.Tactic.Abel

/-!
# Cumulative readings

Meters report totals that only grow. What is new of a total since the last reading of its meter is
counted. The readings of the meters of an owner are forgotten together, and the meters start from
zero after that.
-/

/-- A reading of a meter, or the end of what is known of the meters of an owner. -/
inductive Reading (K O V : Type) where
  | report (k : K) (v : V)
  | forget (o : O)

/-- The last readings, and what has been counted. -/
structure Tally (K V : Type) where
  last : K → V
  total : V

namespace Tally

variable {K O V : Type} [DecidableEq K] [DecidableEq O] (owner : K → O)

/-- Whether the next reading that is about a meter is a report of it, rather than the end of what
is known of it. -/
def next (k : K) : List (Reading K O V) → Option Bool
  | [] => none
  | .report k' _ :: l => if k' = k then some true else next k l
  | .forget o :: l => if owner k = o then some false else next k l

/-- The readings that no other reading of their meter follows before it is forgotten. -/
def finals : List (Reading K O V) → List V
  | [] => []
  | .report k v :: l => if next owner k l = some true then finals l else v :: finals l
  | .forget _ :: l => finals l

theorem next_append (k : K) (l : List (Reading K O V)) (x : Reading K O V) :
  next owner k (l ++ [x]) = (next owner k l).or (next owner k [x])
  := by
  induction l with
  | nil => rfl
  | cons y l ih =>
      cases y with
      | report k' v =>
          simp only [List.cons_append, next]
          split
          · rfl
          · apply ih
      | forget o =>
          simp only [List.cons_append, next]
          split
          · rfl
          · apply ih

/-- What is forgotten later has been read. -/
theorem finals_append_forget (l : List (Reading K O V)) (o : O) :
  finals owner (l ++ [.forget o]) = finals owner l
  := by
  induction l with
  | nil => rfl
  | cons x l ih =>
      cases x with
      | report k v =>
          rw [List.cons_append, finals, finals, next_append, ih]
          cases next owner k l with
          | none =>
              simp only [next]
              split <;> rfl
          | some b => rfl
      | forget o' => apply ih

variable [AddCommGroup V] [LinearOrder V]

def initial : Tally K V := ⟨fun _ => 0, 0⟩

def read (t : Tally K V) : Reading K O V → Tally K V
  | .report k v => ⟨Function.update t.last k v, t.total + max 0 (v - t.last k)⟩
  | .forget o => { t with last := fun k => if owner k = o then 0 else t.last k }

def readAll (l : List (Reading K O V)) : Tally K V := l.foldl (read owner) initial

/-- A reading that is not below the last one of its meter. -/
def Fits (t : Tally K V) : Reading K O V → Prop
  | .report k v => t.last k ≤ v
  | .forget _ => True

/-- No reading is below the one before it. -/
def Rising (l : List (Reading K O V)) : Prop :=
  ∀ before x after, l = before ++ x :: after → (readAll owner before).Fits x

instance (t : Tally K V) (x : Reading K O V) : Decidable (t.Fits x) := by
  cases x <;> unfold Fits <;> infer_instance

instance (l : List (Reading K O V)) : Decidable (Rising owner l) :=
  decidable_of_iff' _ List.forall_split_iff

variable {owner} {l : List (Reading K O V)}

theorem readAll_append (l : List (Reading K O V)) (x : Reading K O V) :
  readAll owner (l ++ [x]) = (readAll owner l).read owner x
  := List.foldl_concat _ _ _ _

theorem Rising.of_append {x : Reading K O V} (h : Rising owner (l ++ [x])) :
  Rising owner l
  := by
  intro before y after heq
  apply h before y (after ++ [x])
  rw [heq, List.append_assoc, List.cons_append]

@[simp]
theorem last_report (t : Tally K V) (k k' : K) (v : V) :
  (t.read owner (.report k' v)).last k = if k' = k then v else t.last k
  := by
  change Function.update t.last k' v k = _
  rw [Function.update_apply]
  simp only [eq_comm]

@[simp]
theorem last_forget (t : Tally K V) (k : K) (o : O) :
  (t.read owner (.forget o)).last k = if owner k = o then 0 else t.last k
  := rfl

/-- A meter that no reading is about. -/
theorem last_foldl_of_none (t : Tally K V) {k : K} (h : next owner k l = none) :
  (l.foldl (read owner) t).last k = t.last k
  := by
  induction l generalizing t with
  | nil => rfl
  | cons x l ih =>
      rw [List.foldl_cons]
      cases x with
      | report k' v =>
          simp only [next] at h
          split at h
          · cases h
          · next hne => rw [ih _ h, last_report, if_neg hne]
      | forget o =>
          simp only [next] at h
          split at h
          · cases h
          · next hne => rw [ih _ h, last_forget, if_neg hne]

/-- What was known of a meter does not matter once a reading is about it. -/
theorem last_foldl_congr {t t' : Tally K V} {k : K}
    (h : t.last k = t'.last k ∨ next owner k l ≠ none) :
  (l.foldl (read owner) t).last k = (l.foldl (read owner) t').last k
  := by
  induction l generalizing t t' with
  | nil =>
      rcases h with h | h
      · apply h
      · apply absurd rfl h
  | cons x l ih =>
      rw [List.foldl_cons, List.foldl_cons]
      apply ih
      cases x with
      | report k' v =>
          simp only [next] at h
          rw [last_report, last_report]
          split
          · apply Or.inl rfl
          · next hne =>
              rw [if_neg hne] at h
              apply h
      | forget o =>
          simp only [next] at h
          rw [last_forget, last_forget]
          split
          · apply Or.inl rfl
          · next hne =>
              rw [if_neg hne] at h
              apply h

/-- What is known of a meter, where one more reading comes first. -/
theorem last_cons_report (k k' : K) (v : V) :
  (readAll owner (.report k' v :: l)).last k =
    if k' = k ∧ next owner k l = none then v else (readAll owner l).last k
  := by
  rw [readAll, List.foldl_cons]
  split
  · next h =>
      rw [last_foldl_of_none _ h.2, last_report, if_pos h.1]
  · next h =>
      apply last_foldl_congr
      by_cases hk : k' = k
      · apply Or.inr fun hnone => h ⟨hk, hnone⟩
      · rw [last_report, if_neg hk]
        apply Or.inl rfl

theorem last_cons_forget (k : K) (o : O) :
  (readAll owner (.forget o :: l)).last k = (readAll owner l).last k
  := by
  rw [readAll, List.foldl_cons]
  apply last_foldl_congr
  rw [last_forget]
  left
  split <;> rfl

/-- A reading takes the place of the one before it. -/
theorem sum_finals_report (k : K) (v : V) :
  (finals owner (l ++ [.report k v])).sum + (readAll owner l).last k = (finals owner l).sum + v
  := by
  induction l with
  | nil =>
      simp [finals, next, readAll, initial]
  | cons x l ih =>
      cases x with
      | report k' v' =>
          rw [List.cons_append, last_cons_report, finals, finals, next_append]
          by_cases hk : k' = k
          · subst hk
            cases hnext : next owner k' l with
            | none =>
                have hzero : (readAll owner l).last k' = 0 := last_foldl_of_none _ hnext
                rw [hzero, add_zero] at ih
                simp only [next, if_true, Option.none_or, and_self, reduceCtorEq, if_false,
                  List.sum_cons, ih]
                abel
            | some b =>
                cases b with
                | true => simpa using ih
                | false => simpa [add_assoc] using ih
          · have hnext : next owner k' [.report k v] = none := by
              rw [next, if_neg (Ne.symm hk), next]
            have hlast : ¬ (k' = k ∧ next owner k l = none) := fun h => hk h.1
            rw [hnext, Option.or_none, if_neg hlast]
            split
            · apply ih
            · rw [List.sum_cons, List.sum_cons, add_assoc, add_assoc, ih]
      | forget o =>
          rw [List.cons_append, last_cons_forget]
          apply ih

/-- Where no reading is below the one before it, what is counted is the sum of the last ones. -/
theorem total_eq_sum_finals [IsOrderedAddMonoid V] (h : Rising owner l) :
  (readAll owner l).total = (finals owner l).sum
  := by
  induction l using List.reverseRecOn with
  | nil => rfl
  | append_singleton l x ih =>
      have hl := ih h.of_append
      rw [readAll_append]
      cases x with
      | report k v =>
          have hle : (readAll owner l).last k ≤ v := h l (.report k v) [] rfl
          have hsum : (finals owner (l ++ [.report k v])).sum + (readAll owner l).last k =
              (finals owner l).sum + v := sum_finals_report k v
          rw [read, hl, max_eq_right (sub_nonneg.mpr hle)]
          apply add_right_cancel (b := (readAll owner l).last k)
          rw [hsum, add_assoc, sub_add_cancel]
      | forget o =>
          rw [finals_append_forget]
          apply hl

end Tally
