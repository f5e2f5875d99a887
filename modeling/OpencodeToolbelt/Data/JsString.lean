/-!
# Strings

Which strings ECMAScript takes for true, the text of a number, and what can be asked of a text.
-/

/-- A string that is present and not empty. -/
def nonEmpty (s : Option String) : Option String := s.filter (· ≠ "")

/-- `digit.toString(36)` -/
def digit36 (digit : Nat) : Char :=
  if digit < 10 then Char.ofNat ('0'.toNat + digit) else Char.ofNat ('a'.toNat + (digit - 10))

/-- `n.toString(36)`, with as many digits as its first argument at most. -/
def base36 : Nat → Nat → List Char
  | 0, _ => []
  | digits + 1, n =>
      if n < 36 then [digit36 n] else base36 digits (n / 36) ++ [digit36 (n % 36)]

/-- `s.length`, in units of UTF-16. -/
def utf16Length (s : String) : Nat :=
  s.toList.foldl (fun n c => n + if c.toNat < 0x10000 then 1 else 2) 0

/-- `s.toLowerCase()`, as far as the letters of the Roman alphabet go. Of the other letters,
only the Kelvin sign becomes one of them. -/
def toLowerCase (s : List Char) : List Char :=
  s.map fun c => if c.toNat = 0x212a then 'k' else c.toLower

/-- The characters that `trim` removes. -/
def isBlank (c : Char) : Bool :=
  c.toNat ∈ [0x9, 0xa, 0xb, 0xc, 0xd, 0x20, 0xa0, 0x1680, 0x2028, 0x2029, 0x202f, 0x205f,
    0x3000, 0xfeff] || (0x2000 ≤ c.toNat && c.toNat ≤ 0x200a)

/-- `s.trim()` -/
def trim (s : String) : String :=
  .ofList ((s.toList.dropWhile isBlank).reverse.dropWhile isBlank).reverse

/-! ### Ranges of characters -/

theorem charUpper_iff {c : Char} :
  c.isUpper = true ↔ 65 ≤ c.toNat ∧ c.toNat ≤ 90
  := by
  constructor
  · intro h
    obtain ⟨hlow, hhigh⟩ : 'A'.val ≤ c.val ∧ c.val ≤ 'Z'.val := of_decide_eq_true h
    exact ⟨UInt32.le_iff_toNat_le.mp hlow, UInt32.le_iff_toNat_le.mp hhigh⟩
  · rintro ⟨hlow, hhigh⟩
    have hrange : 'A'.val ≤ c.val ∧ c.val ≤ 'Z'.val :=
      ⟨UInt32.le_iff_toNat_le.mpr hlow, UInt32.le_iff_toNat_le.mpr hhigh⟩
    apply decide_eq_true hrange

theorem charLower_iff {c : Char} :
  c.isLower = true ↔ 97 ≤ c.toNat ∧ c.toNat ≤ 122
  := by
  constructor
  · intro h
    obtain ⟨hlow, hhigh⟩ := Bool.and_eq_true_iff.mp h
    exact ⟨UInt32.le_iff_toNat_le.mp (of_decide_eq_true hlow),
      UInt32.le_iff_toNat_le.mp (of_decide_eq_true hhigh)⟩
  · rintro ⟨hlow, hhigh⟩
    apply Bool.and_eq_true_iff.mpr
    exact ⟨decide_eq_true (UInt32.le_iff_toNat_le.mpr hlow),
      decide_eq_true (UInt32.le_iff_toNat_le.mpr hhigh)⟩

theorem charDigit_iff {c : Char} :
  c.isDigit = true ↔ 48 ≤ c.toNat ∧ c.toNat ≤ 57
  := by
  constructor
  · intro h
    obtain ⟨hlow, hhigh⟩ := Bool.and_eq_true_iff.mp h
    exact ⟨UInt32.le_iff_toNat_le.mp (of_decide_eq_true hlow),
      UInt32.le_iff_toNat_le.mp (of_decide_eq_true hhigh)⟩
  · rintro ⟨hlow, hhigh⟩
    apply Bool.and_eq_true_iff.mpr
    exact ⟨decide_eq_true (UInt32.le_iff_toNat_le.mpr hlow),
      decide_eq_true (UInt32.le_iff_toNat_le.mpr hhigh)⟩

theorem charAlphanum_iff {c : Char} :
  c.isAlphanum = true ↔ (65 ≤ c.toNat ∧ c.toNat ≤ 90) ∨ (97 ≤ c.toNat ∧ c.toNat ≤ 122) ∨
    (48 ≤ c.toNat ∧ c.toNat ≤ 57)
  := by
  have halpha : c.isAlpha = true ↔ c.isUpper = true ∨ c.isLower = true := Bool.or_eq_true_iff
  have halphanum : c.isAlphanum = true ↔ c.isAlpha = true ∨ c.isDigit = true :=
    Bool.or_eq_true_iff
  rw [halphanum, halpha, charUpper_iff, charLower_iff, charDigit_iff, or_assoc]

/-- The small letter of a capital one stands 32 places behind it. -/
theorem toNat_toLower (c : Char) :
  c.toLower.toNat = if 65 ≤ c.toNat ∧ c.toNat ≤ 90 then c.toNat + 32 else c.toNat
  := by
  by_cases hupper : c.val ≥ 'A'.val ∧ c.val ≤ 'Z'.val
  · have hlow : 65 ≤ c.val.toNat := UInt32.le_iff_toNat_le.mp hupper.1
    have hhigh : c.val.toNat ≤ 90 := UInt32.le_iff_toNat_le.mp hupper.2
    have hdistance : ('a'.val - 'A'.val).toNat = 32 := rfl
    have hval : c.toLower.val = c.val + ('a'.val - 'A'.val) := congrArg Char.val (dif_pos hupper)
    rw [if_pos ⟨hlow, hhigh⟩]
    change c.toLower.val.toNat = c.val.toNat + 32
    rw [hval, UInt32.toNat_add, hdistance]
    omega
  · have hsame : c.toLower = c := dif_neg hupper
    rw [hsame, if_neg]
    rintro ⟨hlow, hhigh⟩
    apply hupper
    exact ⟨UInt32.le_iff_toNat_le.mpr hlow, UInt32.le_iff_toNat_le.mpr hhigh⟩
