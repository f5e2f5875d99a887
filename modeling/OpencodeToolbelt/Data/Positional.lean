import Mathlib.Algebra.Order.Ring.Nat
import Mathlib.Data.List.Induction
import Mathlib.Tactic.Ring

/-!
# Numbers in a fixed number of digits

Digits of a base, the most significant first. Numbers that are written in the same number of digits
are ordered as their digits are, lexicographically.
-/

namespace Positional

/-- The lowest digits of a number, as many as the width says. -/
def digits (base : ℕ) : ℕ → ℕ → List ℕ
  | 0, _ => []
  | width + 1, n => digits base width (n / base) ++ [n % base]

/-- The number that digits stand for. -/
def value (base : ℕ) (ds : List ℕ) : ℕ := ds.foldl (fun n d => n * base + d) 0

/-! ### Lists of one length -/

section Lex

variable {α β : Type} [LT α] [LT β]

/-- What comes after lists of one length does not matter where they differ. -/
theorem append_lt_append {l l' : List α} (hlength : l.length = l'.length) (h : l < l')
    (r r' : List α) :
  l ++ r < l' ++ r'
  := by
  induction l generalizing l' with
  | nil =>
      cases l' with
      | nil => simp at h
      | cons a' l' => cases hlength
  | cons a l ih =>
      cases l' with
      | nil => cases hlength
      | cons a' l' =>
          rw [List.cons_lt_cons_iff] at h
          rw [List.cons_append, List.cons_append, List.cons_lt_cons_iff]
          obtain hlt | ⟨heq, hrest⟩ := h
          · exact .inl hlt
          · right
            use heq
            apply ih (Nat.succ.inj hlength) hrest

/-- The same change of the items in two lists keeps their order if it keeps that of the items. -/
theorem map_lt_map {f : α → β} {l l' : List α}
    (hf : ∀ a ∈ l, ∀ a' ∈ l', a < a' → f a < f a') (h : l < l') :
  l.map f < l'.map f
  := by
  induction l generalizing l' with
  | nil =>
      cases l' with
      | nil => simp at h
      | cons a' l' => apply List.Lex.nil
  | cons a l ih =>
      cases l' with
      | nil => simp at h
      | cons a' l' =>
          rw [List.cons_lt_cons_iff] at h
          rw [List.map_cons, List.map_cons, List.cons_lt_cons_iff]
          obtain hlt | ⟨rfl, hrest⟩ := h
          · left
            apply hf a List.mem_cons_self a' List.mem_cons_self hlt
          · right
            use rfl
            apply ih _ hrest
            intro b hb b' hb'
            apply hf b (List.mem_cons_of_mem _ hb) b' (List.mem_cons_of_mem _ hb')

/-- The same item in the same place of two lists of one length keeps their order. -/
theorem insert_lt_insert {l l' : List α} (hlength : l.length = l'.length) (h : l < l') (n : ℕ)
    (a : α) :
  l.take n ++ a :: l.drop n < l'.take n ++ a :: l'.drop n
  := by
  induction n generalizing l l' with
  | zero =>
      rw [List.take_zero, List.take_zero, List.drop_zero, List.drop_zero, List.nil_append,
        List.nil_append, List.cons_lt_cons_iff]
      exact .inr ⟨rfl, h⟩
  | succ n ih =>
      cases l with
      | nil =>
          cases l' with
          | nil => simp at h
          | cons b' l' => cases hlength
      | cons b l =>
          cases l' with
          | nil => cases hlength
          | cons b' l' =>
              rw [List.cons_lt_cons_iff] at h
              rw [List.take_succ_cons, List.take_succ_cons, List.drop_succ_cons,
                List.drop_succ_cons, List.cons_append, List.cons_append, List.cons_lt_cons_iff]
              obtain hlt | ⟨heq, hrest⟩ := h
              · exact .inl hlt
              · right
                use heq
                apply ih (Nat.succ.inj hlength) hrest

end Lex

/-! ### Digits -/

variable {base : ℕ}

@[simp]
theorem length_digits (base width n : ℕ) :
  (digits base width n).length = width
  := by
  induction width generalizing n with
  | zero => rfl
  | succ width ih => rw [digits, List.length_append, ih, List.length_singleton]

theorem lt_of_mem_digits (hbase : 0 < base) {width n d : ℕ} (h : d ∈ digits base width n) :
  d < base
  := by
  induction width generalizing n with
  | zero => cases h
  | succ width ih =>
      obtain h | h := List.mem_append.mp h
      · apply ih h
      · rw [List.mem_singleton.mp h]
        apply Nat.mod_lt _ hbase

theorem value_concat (base : ℕ) (ds : List ℕ) (d : ℕ) :
  value base (ds ++ [d]) = value base ds * base + d
  := by
  rw [value, List.foldl_append]
  rfl

/-- The digits of a number stand for it, as far as it fits. -/
theorem value_digits (base width n : ℕ) :
  value base (digits base width n) = n % base ^ width
  := by
  induction width generalizing n with
  | zero =>
      rw [pow_zero, Nat.mod_one]
      rfl
  | succ width ih =>
      rw [digits, value_concat, ih, pow_succ, Nat.mul_comm (base ^ width), Nat.mod_mul]
      ring

/-- A number that digits stand for has these digits. -/
theorem digits_value {ds : List ℕ} (h : ∀ d ∈ ds, d < base) :
  digits base ds.length (value base ds) = ds
  := by
  induction ds using List.reverseRecOn with
  | nil => rfl
  | append_singleton ds d ih =>
      have hd : d < base := h d (by simp)
      have hrest : ∀ d ∈ ds, d < base := fun d hd => h d (by simp [hd])
      have hpos : 0 < base := Nat.zero_lt_of_lt hd
      rw [List.length_append, List.length_singleton, digits, value_concat, Nat.mul_comm,
        Nat.mul_add_div hpos, Nat.div_eq_of_lt hd, Nat.add_zero, ih hrest, Nat.mul_add_mod,
        Nat.mod_eq_of_lt hd]

theorem value_lt {ds : List ℕ} (h : ∀ d ∈ ds, d < base) :
  value base ds < base ^ ds.length
  := by
  induction ds using List.reverseRecOn with
  | nil => simp [value]
  | append_singleton ds d ih =>
      have hd : d < base := h d (by simp)
      have hlt := ih fun d hd => h d (by simp [hd])
      rw [value_concat, List.length_append, List.length_singleton, pow_succ]
      calc value base ds * base + d
        _ < value base ds * base + base := by omega
        _ = (value base ds + 1) * base := by ring
        _ ≤ base ^ ds.length * base := Nat.mul_le_mul_right base hlt

/-- Numbers that fit are ordered as their digits are. -/
theorem digits_lt_digits {width n m : ℕ} (h : n < m) (hfits : m < base ^ width) :
  digits base width n < digits base width m
  := by
  induction width generalizing n m with
  | zero =>
      rw [pow_zero, Nat.lt_one_iff] at hfits
      omega
  | succ width ih =>
      have hbase : 0 < base := by
        by_contra hzero
        rw [Nat.eq_zero_of_not_pos hzero, Nat.zero_pow (Nat.succ_pos width)] at hfits
        cases hfits
      rw [digits, digits]
      obtain heq | hlt := (Nat.div_le_div_right (c := base) h.le).eq_or_lt
      · -- The numbers differ in their last digit only.
        rw [heq]
        apply List.append_left_lt
        have hn := Nat.div_add_mod n base
        have hm := Nat.div_add_mod m base
        rw [heq] at hn
        rw [List.cons_lt_cons_iff]
        left
        omega
      · apply append_lt_append
        · rw [length_digits, length_digits]
        · apply ih hlt
          rw [Nat.div_lt_iff_lt_mul hbase, ← pow_succ]
          apply hfits

/-- Each digit of a power of the base is written in digits of the base. -/
theorem flatMap_digits (k width n : ℕ) :
  (digits (base ^ k) width n).flatMap (digits base k) = digits base (width * k) n
  := by
  have hsplit : ∀ k width n, digits base (width + k) n =
      digits base width (n / base ^ k) ++ digits base k (n % base ^ k) := by
    intro k
    induction k with
    | zero =>
        intro width n
        rw [Nat.add_zero, pow_zero, Nat.div_one]
        simp [digits]
    | succ k ih =>
        intro width n
        have hdiv : n % base ^ (k + 1) / base = n / base % base ^ k := by
          rw [pow_succ, Nat.mul_comm, Nat.mod_mul_right_div_self]
        have hmod : n % base ^ (k + 1) % base = n % base :=
          Nat.mod_mod_of_dvd n (Dvd.intro_left (base ^ k) rfl)
        rw [← Nat.add_assoc, digits, digits, ih, Nat.div_div_eq_div_mul, hdiv, hmod,
          List.append_assoc, pow_succ, Nat.mul_comm base]
  induction width generalizing n with
  | zero =>
      rw [Nat.zero_mul]
      rfl
  | succ width ih =>
      rw [digits, List.flatMap_append, ih, Nat.succ_mul, hsplit]
      simp

end Positional
