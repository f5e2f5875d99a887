import Mathlib.Data.List.TakeWhile
import Mathlib.Tactic.Use

/-!
# Replacing the matches of a pattern

`text.replace(pattern, replacement)` for a pattern with the flag `g`. A part of a text is scanned
when its matches are the same whatever comes behind it.
-/

namespace Replacing

variable {α : Type}

/-- A regular expression with its replacement: from the unit before a place and the text from
there on, what a match is replaced by, and what follows it. -/
abbrev Pattern (α : Type) := Option α → List α → Option (List α × List α)

/-- The last unit before what follows a match. -/
def lastUnit (before : Option α) (text rest : List α) : Option α :=
  ((text.take (text.length - rest.length)).getLast?).or before

/-- The matches in a text are replaced, from the left to the right. The number bounds the steps. -/
def replaceFrom (p : Pattern α) : ℕ → Option α → List α → List α
  | 0, _, text => text
  | steps + 1, before, text =>
      match p before text with
      | some (replaced, rest) => replaced ++ replaceFrom p steps (lastUnit before text rest) rest
      | none =>
          match text with
          | [] => []
          | u :: text => u :: replaceFrom p steps (some u) text

/-- `text.replace(pattern, replacement)` -/
def replaceAll (p : Pattern α) (text : List α) : List α := replaceFrom p text.length none text

/-- Where units that satisfy a predicate end, what comes behind makes no difference to them. -/
theorem takeWhile_append_of_stop {p : α → Bool} {X F : List α}
    (h : (∃ u ∈ X, p u = false) ∨ ∃ u ∈ F.head?, p u = false) :
  (X ++ F).takeWhile p = X.takeWhile p ∧ (X ++ F).dropWhile p = X.dropWhile p ++ F
  := by
  induction X with
  | nil =>
      rcases h with ⟨u, hu, _⟩ | ⟨u, hu, hfalse⟩
      · cases hu
      · obtain ⟨F, rfl⟩ := List.head?_eq_some_iff.mp hu
        simp [hfalse]
  | cons v X ih =>
      cases hv : p v with
      | false => simp [hv]
      | true =>
          have hX : (∃ u ∈ X, p u = false) ∨ ∃ u ∈ F.head?, p u = false := by
            rcases h with ⟨u, hu, hfalse⟩ | h
            · rcases List.mem_cons.mp hu with rfl | hu
              · rw [hv] at hfalse
                cases hfalse
              · exact Or.inl ⟨u, hu, hfalse⟩
            · apply Or.inr h
          obtain ⟨htake, hdrop⟩ := ih hX
          simp only [List.cons_append, List.takeWhile_cons, List.dropWhile_cons, hv, if_true, htake,
            hdrop, and_self]

theorem lastUnit_append (before : Option α) (X X' F : List α) (h : X'.length < X.length) :
  lastUnit before (X ++ F) (X' ++ F) = lastUnit before X X'
  := by
  unfold lastUnit
  rw [List.length_append, List.length_append, Nat.add_sub_add_right, List.take_append_of_le_length]
  omega

theorem replaceFrom_some {p : Pattern α} {before : Option α} {text replaced rest : List α}
    (h : p before text = some (replaced, rest)) (steps : ℕ) :
  replaceFrom p (steps + 1) before text =
    replaced ++ replaceFrom p steps (lastUnit before text rest) rest
  := by
  rw [replaceFrom.eq_def]
  dsimp only
  rw [h]

theorem replaceFrom_none {p : Pattern α} {before : Option α} {u : α} {text : List α}
    (h : p before (u :: text) = none) (steps : ℕ) :
  replaceFrom p (steps + 1) before (u :: text) = u :: replaceFrom p steps (some u) text
  := by
  rw [replaceFrom.eq_def]
  dsimp only
  rw [h]

/-- What is left of a part of a text when its matches are replaced, and the unit before what comes
behind it. The matches are the same for everything that may come behind it. -/
inductive Scans (p : Pattern α) (Q : List α → Prop) :
    Option α → List α → List α → Option α → Prop where
  | nil (before : Option α) : Scans p Q before [] [] before
  | skip {before after : Option α} {u : α} {X A : List α}
      (hnone : ∀ F, Q F → p before (u :: (X ++ F)) = none) (h : Scans p Q (some u) X A after) :
      Scans p Q before (u :: X) (u :: A) after
  | replace {before after : Option α} {X X' A replaced : List α} (hlength : X'.length < X.length)
      (hsome : ∀ F, Q F → p before (X ++ F) = some (replaced, X' ++ F))
      (h : Scans p Q (lastUnit before X X') X' A after) :
      Scans p Q before X (replaced ++ A) after

namespace Scans

variable {p : Pattern α} {Q : List α → Prop} {before between after : Option α}
  {X X' A A' : List α}

/-- The matches in a scanned part are replaced first. -/
theorem replaceFrom_eq (h : Scans p Q before X A after) :
  ∃ k, k ≤ X.length ∧ ∀ F m, Q F →
    replaceFrom p (k + m) before (X ++ F) = A ++ replaceFrom p m after F
  := by
  induction h with
  | nil before =>
      use 0, le_rfl
      intro F m _
      rw [Nat.zero_add, List.nil_append, List.nil_append]
  | @skip before after u X A hnone _ ih =>
      obtain ⟨k, hk, heq⟩ := ih
      use k + 1
      constructor
      · simpa using hk
      · intro F m hF
        rw [Nat.add_right_comm, List.cons_append, replaceFrom_none (hnone F hF), heq F m hF,
          List.cons_append]
  | @replace before after X X' A replaced hlength hsome _ ih =>
      obtain ⟨k, hk, heq⟩ := ih
      use k + 1
      constructor
      · omega
      · intro F m hF
        rw [Nat.add_right_comm, replaceFrom_some (hsome F hF), lastUnit_append before X X' F hlength,
          heq F m hF, List.append_assoc]

theorem replaceAll_eq (h : Scans p Q none X A after) :
  ∃ k, k ≤ X.length ∧ ∀ F, Q F →
    replaceAll p (X ++ F) = A ++ replaceFrom p (X.length + F.length - k) after F
  := by
  obtain ⟨k, hk, heq⟩ := h.replaceFrom_eq
  use k, hk
  intro F hF
  rw [replaceAll, ← heq F _ hF, List.length_append]
  congr 1
  omega

/-- Parts are scanned one after the other. -/
theorem append {Q' : List α → Prop} (h : Scans p Q before X A between)
    (h' : Scans p Q' between X' A' after) (hQ : ∀ F, Q' F → Q (X' ++ F)) :
  Scans p Q' before (X ++ X') (A ++ A') after
  := by
  induction h with
  | nil _ => apply h'
  | @skip before after u X A hnone _ ih =>
      apply skip _ (ih h')
      intro F hF
      rw [List.append_assoc]
      apply hnone _ (hQ F hF)
  | @replace before after X X₁ A replaced hlength hsome _ ih =>
      rw [List.append_assoc]
      have hshorter : (X₁ ++ X').length < (X ++ X').length := by simpa using hlength
      apply replace hshorter
      · intro F hF
        rw [List.append_assoc, List.append_assoc]
        apply hsome _ (hQ F hF)
      · rw [lastUnit_append before X X₁ X' hlength]
        apply ih h'

/-- Nothing is replaced where no match begins. -/
theorem skips (hnone : ∀ Y u Z, X = Y ++ u :: Z → ∀ before F, Q F → p before (u :: (Z ++ F)) = none)
    (before : Option α) :
  Scans p Q before X X ((X.getLast?).or before)
  := by
  induction X generalizing before with
  | nil => apply nil
  | cons u X ih =>
      have htail : ∀ Y u' Z, X = Y ++ u' :: Z → ∀ before F, Q F →
          p before (u' :: (Z ++ F)) = none := by
        rintro Y u' Z rfl
        apply hnone (u :: Y) u' Z rfl
      have hlast : ((u :: X).getLast?).or before = (X.getLast?).or (some u) := by
        rw [List.getLast?_cons]
        cases X.getLast? with
        | none => rfl
        | some u' => rfl
      rw [hlast]
      apply skip (hnone [] u X rfl before) (ih htail (some u))

end Scans

/-! ### Patterns whose matches stay apart -/

/-- A match takes some units away, the last of which is none of those that are told. -/
def Consumes (p : Pattern α) (apart : α → Prop) : Prop :=
  ∀ {before text replaced rest}, p before text = some (replaced, rest) →
    ∃ taken last, text = taken ++ last :: rest ∧ ¬ apart last

/-- The matches in a text are the same whatever comes behind it. -/
def Local (p : Pattern α) (Q : List α → Prop) : Prop :=
  ∀ before X F, X ≠ [] → Q F →
    p before (X ++ F) = (p before X).map fun found => (found.1, found.2 ++ F)

/-- No match begins with a unit. -/
def Inert (p : Pattern α) (u : α) : Prop := ∀ before text, p before (u :: text) = none

section Consumes

variable {p : Pattern α} {apart : α → Prop}

theorem Consumes.length_lt (h : Consumes p apart) {before : Option α} {text replaced rest : List α}
    (hsome : p before text = some (replaced, rest)) :
  rest.length < text.length
  := by
  obtain ⟨taken, last, rfl, -⟩ := h hsome
  rw [List.length_append, List.length_cons]
  omega

/-- Nothing is found in an empty text. -/
theorem Consumes.nil (h : Consumes p apart) (before : Option α) :
  p before [] = none
  := by
  cases hfound : p before [] with
  | none => rfl
  | some found =>
      obtain ⟨taken, last, hnil, -⟩ := h hfound
      apply absurd hnil.symm (List.append_ne_nil_of_right_ne_nil taken (List.cons_ne_nil _ _))

theorem Consumes.getLast?_rest (h : Consumes p apart) {before : Option α} {text replaced rest : List α} {u : α}
    (hsome : p before text = some (replaced, rest)) (hu : apart u)
    (hlast : text.getLast? = some u) :
  rest.getLast? = some u
  := by
  obtain ⟨taken, last, rfl, hnot⟩ := h hsome
  rw [List.getLast?_append, List.getLast?_cons] at hlast
  cases hrest : rest.getLast? with
  | none =>
      rw [hrest] at hlast
      cases hlast
      apply absurd hu hnot
  | some u' =>
      rw [hrest] at hlast
      apply hlast

/-- A unit with which no match ends stays the last one. -/
theorem Consumes.getLast?_replaceFrom (h : Consumes p apart) {u : α} (hu : apart u) (steps : ℕ) (before : Option α)
    {text : List α} (hlast : text.getLast? = some u) :
  (replaceFrom p steps before text).getLast? = some u
  := by
  induction steps generalizing before text with
  | zero => apply hlast
  | succ steps ih =>
      cases hfound : p before text with
      | none =>
          cases text with
          | nil => cases hlast
          | cons u' text =>
              rw [replaceFrom_none hfound, List.getLast?_cons]
              rw [List.getLast?_cons] at hlast
              cases hrest : text.getLast? with
              | none =>
                  have hempty : replaceFrom p steps (some u') ([] : List α) = [] := by
                    cases steps with
                    | zero => rfl
                    | succ steps =>
                        rw [replaceFrom.eq_def]
                        simp only [h.nil]
                  rw [hrest] at hlast
                  rw [List.getLast?_eq_none_iff.mp hrest, hempty]
                  apply hlast
              | some u'' =>
                  rw [hrest] at hlast
                  cases hlast
                  rw [ih (some u') hrest]
                  rfl
      | some found =>
          rw [replaceFrom_some hfound, List.getLast?_append,
            ih _ (h.getLast?_rest hfound hu hlast)]
          rfl

/-- Every text is scanned by a pattern whose matches in it are the same whatever comes behind. -/
theorem Consumes.exists_scans (h : Consumes p apart) {Q : List α → Prop} (hlocal : Local p Q) (n : ℕ) (X : List α)
    (hlength : X.length ≤ n) (before : Option α) :
  ∃ A after, Scans p Q before X A after
  := by
  induction n generalizing X before with
  | zero =>
      rw [List.length_eq_zero_iff.mp (Nat.le_zero.mp hlength)]
      exact ⟨[], before, .nil before⟩
  | succ n ih =>
      cases X with
      | nil => exact ⟨[], before, .nil before⟩
      | cons u X =>
          rw [List.length_cons] at hlength
          cases hfound : p before (u :: X) with
          | none =>
              obtain ⟨A, after, hscans⟩ := ih X (by omega) (some u)
              use u :: A, after
              apply Scans.skip _ hscans
              intro F hF
              rw [← List.cons_append, hlocal before (u :: X) F (List.cons_ne_nil _ _) hF, hfound]
              rfl
          | some found =>
              obtain ⟨replaced, rest⟩ := found
              have hlt := h.length_lt hfound
              rw [List.length_cons] at hlt
              obtain ⟨A, after, hscans⟩ := ih rest (by omega) (lastUnit before (u :: X) rest)
              use replaced ++ A, after
              apply Scans.replace _ _ hscans
              · rw [List.length_cons]
                omega
              · intro F hF
                rw [hlocal before (u :: X) F (List.cons_ne_nil _ _) hF, hfound]
                rfl

end Consumes

/-- Nothing is replaced among units with which no match begins. -/
theorem replaceFrom_inert {p : Pattern α} {Z : List α} (hZ : ∀ u ∈ Z, Inert p u) (steps : ℕ)
    (before : Option α) (F : List α) :
  replaceFrom p (Z.length + steps) before (Z ++ F) =
    Z ++ replaceFrom p steps ((Z.getLast?).or before) F
  := by
  induction Z generalizing before with
  | nil => rw [List.length_nil, Nat.zero_add, List.nil_append, List.nil_append]; rfl
  | cons u Z ih =>
      rw [List.forall_mem_cons] at hZ
      rw [List.length_cons, Nat.add_right_comm, List.cons_append,
        replaceFrom_none (hZ.1 before _), ih hZ.2, List.getLast?_cons]
      cases Z.getLast? with
      | none => rfl
      | some u' => rfl

theorem replaceFrom_inert_of_le {p : Pattern α} {Z : List α} (hZ : ∀ u ∈ Z, Inert p u)
    {steps : ℕ} (hsteps : Z.length ≤ steps) {before : Option α} {F : List α} :
  replaceFrom p steps before (Z ++ F) =
    Z ++ replaceFrom p (steps - Z.length) ((Z.getLast?).or before) F
  := by
  obtain ⟨m, rfl⟩ := Nat.exists_eq_add_of_le hsteps
  rw [replaceFrom_inert hZ, Nat.add_sub_cancel_left]

theorem replaceFrom_none_of_pos {p : Pattern α} {before : Option α} {u : α} {text : List α}
    (h : p before (u :: text) = none) {steps : ℕ} (hsteps : 0 < steps) :
  replaceFrom p steps before (u :: text) = u :: replaceFrom p (steps - 1) (some u) text
  := by
  obtain ⟨m, rfl⟩ := Nat.exists_eq_succ_of_ne_zero hsteps.ne'
  apply replaceFrom_none h

theorem replaceFrom_some_of_pos {p : Pattern α} {before : Option α} {text replaced rest : List α}
    (h : p before text = some (replaced, rest)) {steps : ℕ} (hsteps : 0 < steps) :
  replaceFrom p steps before text =
    replaced ++ replaceFrom p (steps - 1) (lastUnit before text rest) rest
  := by
  obtain ⟨m, rfl⟩ := Nat.exists_eq_succ_of_ne_zero hsteps.ne'
  apply replaceFrom_some h

theorem lastUnit_append_cons (before : Option α) (X : List α) (u : α) (rest : List α) :
  lastUnit before (X ++ u :: rest) rest = some u
  := by
  have hlength : (X ++ u :: rest).length - rest.length = (X ++ [u]).length := by
    simp only [List.length_append, List.length_cons, List.length_nil]
    omega
  have happend : X ++ u :: rest = (X ++ [u]) ++ rest := List.append_cons X u rest
  rw [lastUnit, hlength, happend, List.take_left, List.getLast?_concat]
  rfl

end Replacing
