import OpencodeToolbelt.Data.JsString
import Mathlib.Algebra.Order.Ring.Nat
import Mathlib.Tactic.Ring

/-!
# Numerals

Integers that are written in the digits of a radix up to 36, in which letters follow the decimal
digits.
-/

/-- The value of a digit or a letter. -/
def digitValue (c : Char) : Option ℕ :=
  let n := c.toNat
  if 48 ≤ n ∧ n ≤ 57 then some (n - 48)
  else if 65 ≤ n ∧ n ≤ 90 then some (n - 55)
  else if 97 ≤ n ∧ n ≤ 122 then some (n - 87)
  else none

def isDigitIn (radix : ℕ) (c : Char) : Bool := (digitValue c).any (· < radix)

/-- The integer that digits stand for. -/
def numeralValue (radix : ℕ) (digits : List Char) : ℕ :=
  digits.foldl (fun n c => n * radix + (digitValue c).getD 0) 0

/-- The integer that a text stands for, if it consists of digits. -/
def readNumeral (radix : ℕ) (text : List Char) : Option ℕ :=
  if text ≠ [] ∧ text.all (isDigitIn radix) then some (numeralValue radix text) else none

/-- The digits of an integer, as many as the steps allow. -/
def writeDigits (radix : ℕ) : ℕ → ℕ → List Char
  | 0, _ => []
  | steps + 1, n =>
      if n < radix then [digit36 n]
      else writeDigits radix steps (n / radix) ++ [digit36 (n % radix)]

/-- The digits of an integer. -/
def writeNumeral (radix n : ℕ) : List Char := writeDigits radix (n + 1) n

/-! ### Digits -/

theorem digitValue_digit36 {d : ℕ} (h : d < 36) :
  digitValue (digit36 d) = some d
  := by
  have hall : ∀ d < 36, digitValue (digit36 d) = some d := by decide +kernel
  apply hall d h

theorem isDigitIn_iff {radix : ℕ} {c : Char} :
  isDigitIn radix c = true ↔ ∃ d, digitValue c = some d ∧ d < radix
  := by
  rw [isDigitIn]
  cases digitValue c with
  | none => simp
  | some d => simp

theorem numeralValue_from (radix : ℕ) (digits : List Char) (n : ℕ) :
  digits.foldl (fun n c => n * radix + (digitValue c).getD 0) n =
    n * radix ^ digits.length + numeralValue radix digits
  := by
  induction digits generalizing n with
  | nil => simp [numeralValue]
  | cons c digits ih =>
      rw [numeralValue, List.foldl_cons, List.foldl_cons, ih, ih (0 * radix + _), List.length_cons,
        Nat.pow_succ]
      ring

theorem numeralValue_cons (radix : ℕ) (c : Char) (digits : List Char) :
  numeralValue radix (c :: digits) =
    (digitValue c).getD 0 * radix ^ digits.length + numeralValue radix digits
  := by
  rw [numeralValue, List.foldl_cons, numeralValue_from, Nat.zero_mul, Nat.zero_add]

theorem numeralValue_concat (radix : ℕ) (digits : List Char) (c : Char) :
  numeralValue radix (digits ++ [c]) = numeralValue radix digits * radix + (digitValue c).getD 0
  := by
  rw [numeralValue, List.foldl_append]
  rfl

/-- Digits stand for less than a digit in front of them does. -/
theorem numeralValue_lt {radix : ℕ} {digits : List Char}
    (h : ∀ c ∈ digits, isDigitIn radix c = true) :
  numeralValue radix digits < radix ^ digits.length
  := by
  induction digits with
  | nil => simp [numeralValue]
  | cons c digits ih =>
      obtain ⟨d, hd, hlt⟩ := isDigitIn_iff.mp (h c List.mem_cons_self)
      have hrest := ih fun c hc => h c (List.mem_cons_of_mem _ hc)
      rw [numeralValue_cons, hd, Option.getD_some, List.length_cons, Nat.pow_succ]
      have hmul : (d + 1) * radix ^ digits.length ≤ radix * radix ^ digits.length :=
        Nat.mul_le_mul_right _ hlt
      rw [Nat.add_mul, Nat.one_mul] at hmul
      rw [Nat.mul_comm _ radix]
      omega

theorem readNumeral_eq_some {radix : ℕ} {text : List Char} {n : ℕ} :
  readNumeral radix text = some n ↔
    text ≠ [] ∧ (∀ c ∈ text, isDigitIn radix c = true) ∧ numeralValue radix text = n
  := by
  rw [readNumeral]
  split
  · next h =>
      rw [Option.some.injEq]
      rw [List.all_eq_true] at h
      exact ⟨fun heq => ⟨h.1, h.2, heq⟩, fun heq => heq.2.2⟩
  · next h =>
      rw [List.all_eq_true] at h
      constructor
      · intro hnone
        cases hnone
      · rintro ⟨hne, hall, -⟩
        apply absurd ⟨hne, hall⟩ h

theorem readNumeral_eq_none {radix : ℕ} {text : List Char} :
  readNumeral radix text = none ↔ text = [] ∨ ∃ c ∈ text, isDigitIn radix c = false
  := by
  rw [← not_iff_not, ← Ne, Option.ne_none_iff_exists']
  simp only [readNumeral_eq_some, not_or, not_exists, not_and, Bool.not_eq_false]
  constructor
  · rintro ⟨n, hne, hall, -⟩
    exact ⟨hne, hall⟩
  · rintro ⟨hne, hall⟩
    exact ⟨_, hne, hall, rfl⟩

theorem readNumeral_concat {radix : ℕ} {digits : List Char} {n : ℕ} {c : Char} {d : ℕ}
    (h : readNumeral radix digits = some n) (hc : digitValue c = some d) (hd : d < radix) :
  readNumeral radix (digits ++ [c]) = some (n * radix + d)
  := by
  obtain ⟨hne, hall, rfl⟩ := readNumeral_eq_some.mp h
  apply readNumeral_eq_some.mpr
  refine ⟨by simp, ?_, by rw [numeralValue_concat, hc, Option.getD_some]⟩
  intro c' hc'
  rcases List.mem_append.mp hc' with hc' | hc'
  · apply hall c' hc'
  · rw [List.mem_singleton.mp hc']
    apply isDigitIn_iff.mpr ⟨d, hc, hd⟩

theorem readNumeral_writeDigits {radix : ℕ} (hlow : 2 ≤ radix) (hhigh : radix ≤ 36) {steps n : ℕ}
    (h : n < steps) :
  readNumeral radix (writeDigits radix steps n) = some n
  := by
  induction steps generalizing n with
  | zero => omega
  | succ steps ih =>
      rw [writeDigits]
      split
      · next hlt =>
          have hdigit := digitValue_digit36 (d := n) (by omega)
          apply readNumeral_eq_some.mpr
          refine ⟨by simp, ?_, by rw [numeralValue_cons, hdigit]; simp [numeralValue]⟩
          intro c hc
          rw [List.mem_singleton.mp hc]
          apply isDigitIn_iff.mpr ⟨n, hdigit, hlt⟩
      · next hge =>
          have hmod : n % radix < radix := Nat.mod_lt n (by omega)
          have hdiv : n / radix < steps := by
            have := Nat.div_lt_self (n := n) (by omega) (show 1 < radix by omega)
            omega
          rw [readNumeral_concat (ih hdiv) (digitValue_digit36 (by omega)) hmod, Nat.mul_comm,
            Nat.div_add_mod]

/-- What is written is read. -/
theorem readNumeral_writeNumeral {radix : ℕ} (hlow : 2 ≤ radix) (hhigh : radix ≤ 36) (n : ℕ) :
  readNumeral radix (writeNumeral radix n) = some n
  := readNumeral_writeDigits hlow hhigh (Nat.lt_succ_self n)

/-- Capital letters have the values of small ones. -/
theorem digitValue_toLower (c : Char) :
  digitValue c.toLower = digitValue c
  := by
  unfold digitValue
  dsimp only
  rw [toNat_toLower]
  by_cases hupper : 65 ≤ c.toNat ∧ c.toNat ≤ 90
  · rw [if_pos hupper, if_neg (by omega), if_neg (by omega), if_pos (by omega), if_neg (by omega),
      if_pos hupper]
    congr 1
  · rw [if_neg hupper]
