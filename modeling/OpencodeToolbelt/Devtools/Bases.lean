import Mathlib.Data.List.TakeWhile
import OpencodeToolbelt.Data.JsValue
import OpencodeToolbelt.Data.Numerals

/-!
# Conversion between bases

The tool that reads an integer in one radix and writes it in another, and what it makes of the
prefixes that a text may begin with.
-/

namespace MathTools

/-- `Number.MAX_SAFE_INTEGER` -/
def MAX_SAFE_INTEGER : ℕ := 9007199254740991

/-- How a platform reads and writes numbers. Both are exact up to the largest safe integer and
approximate beyond. -/
structure Numbers where
  Number : Type
  nan : Number
  /-- The integer that a number is. -/
  integer : Number → Option ℕ
  /-- `parseInt`, of nothing but digits of the radix. -/
  parseDigits : ℕ → List Char → Number
  /-- `number.toString(radix)` -/
  toText : ℕ → Number → List Char
  integer_parseDigits : ∀ {radix : ℕ} {digits : List Char} {n : ℕ}, 2 ≤ radix → radix ≤ 36 →
    readNumeral radix digits = some n → n ≤ MAX_SAFE_INTEGER →
      integer (parseDigits radix digits) = some n
  toText_of_integer : ∀ {radix : ℕ} {number : Number} {n : ℕ}, 2 ≤ radix → radix ≤ 36 →
    integer number = some n → n ≤ MAX_SAFE_INTEGER → toText radix number = writeNumeral radix n
  /-- What digits are written as is not more than twice as large. -/
  le_of_toText : ∀ {radix radix' : ℕ} {digits : List Char} {n n' : ℕ}, 2 ≤ radix' → radix' ≤ 36 →
    readNumeral radix digits = some n →
      readNumeral radix' (toText radix' (parseDigits radix digits)) = some n' → n' ≤ 2 * n

/-! ### The tool -/

def RADIX_PREFIX : List (ℕ × List Char) := [(2, ['0', 'b']), (8, ['0', 'o']), (16, ['0', 'x'])]

/-- `text.replace(/^0[box]/i, "")` -/
def stripPrefix : List Char → List Char
  | '0' :: c :: rest => if c.toLower ∈ ['b', 'o', 'x'] then rest else '0' :: c :: rest
  | text => text

/-- `Number.parseInt(text, radix)`, of a text without blanks, a sign or a prefix in front. It
stops at the first character that is no digit. -/
def parseInt (numbers : Numbers) (radix : ℕ) (text : List Char) : numbers.Number :=
  let digits := text.takeWhile (isDigitIn radix)
  if digits = [] then numbers.nan else numbers.parseDigits radix digits

def parseInRadix (numbers : Numbers) (value : String) (radix : ℕ) :
    Except String numbers.Number :=
  let trimmed := stripPrefix (trim value).toList
  let allLegal := 0 < trimmed.length && (toLowerCase trimmed).all (isDigitIn radix)
  if ¬allLegal then .error ("\"" ++ value ++ "\" is not a valid base-" ++ toString radix ++ " integer")
  else .ok (parseInt numbers radix trimmed)

structure BaseResult (numbers : Numbers) where
  decimal : numbers.Number
  result : List Char
  binary : List Char
  octal : List Char
  hex : List Char
  text : List Char

/-- Whether a number can be a base. -/
def isBase (base : ℚ) : Bool := base.den = 1 && 2 ≤ base && base ≤ 36

def mathBase (numbers : Numbers) (value : String) (fromBase toBase : ℚ) :
    Except String (BaseResult numbers) :=
  if ¬isBase fromBase then .error "\"fromBase\" must be an integer in 2–36"
  else if ¬isBase toBase then .error "\"toBase\" must be an integer in 2–36"
  else do
    let source := fromBase.num.toNat
    let target := toBase.num.toNat
    let n ← parseInRadix numbers value source
    let out := numbers.toText target n
    let radixPrefix := (RADIX_PREFIX.lookup target).getD []
    return {
      decimal := n
      result := out
      binary := numbers.toText 2 n
      octal := numbers.toText 8 n
      hex := numbers.toText 16 n
      text := value.toList ++ " (base ".toList ++ (toString source).toList ++ ") = ".toList ++
        radixPrefix ++ out ++ " (base ".toList ++ (toString target).toList ++ ")".toList }

/-! ### What a text denotes -/

/-- A base of the tool. -/
abbrev Base : Type := { radix : ℕ // 2 ≤ radix ∧ radix ≤ 36 }

/-- The text behind the prefix that denotes a radix. -/
def withoutPrefix (radix : ℕ) : List Char → Option (List Char)
  | z :: c :: rest => if RADIX_PREFIX.lookup radix = some [z, c.toLower] then some rest else none
  | _ => none

/-- The integer that a text denotes in a radix, with or without the prefix that denotes it. -/
def denoted (radix : ℕ) (text : List Char) : Option ℕ :=
  (readNumeral radix text).or ((withoutPrefix radix text).bind (readNumeral radix))

/-- The result of a conversion denotes what the value does, blanks around it apart, and a value
that denotes no integer is rejected. -/
def Converts (numbers : Numbers) (value : String) (source target : Base) : Prop :=
  match denoted source.val (trim value).toList with
  | some n => ∃ result, mathBase numbers value source.val target.val = .ok result ∧
      readNumeral target.val result.result = some n
  | none => ∃ error, mathBase numbers value source.val target.val = .error error

/-- A text that begins with the letter of a prefix that does not denote the radix, followed by
what are digits in lower case, or by nothing if the letter itself is a digit. -/
def Misled (radix : ℕ) (text : List Char) : Prop :=
  ∃ c rest, text = '0' :: c :: rest ∧ c.toLower ∈ ['b', 'o', 'x'] ∧
    RADIX_PREFIX.lookup radix ≠ some ['0', c.toLower] ∧
    (toLowerCase rest).all (isDigitIn radix) = true ∧ (rest = [] → isDigitIn radix c = true)

/-- A text with a character that is a digit in lower case only, among others that are digits. -/
def HasKelvin (radix : ℕ) (text : List Char) : Prop :=
  (toLowerCase (stripPrefix text)).all (isDigitIn radix) = true ∧
    ∃ c ∈ stripPrefix text, c.toNat = 0x212a

/-- The numbers of the platform are exact for the digits of a text. -/
def Exact (numbers : Numbers) (source target : Base) (digits : List Char) : Prop :=
  ∀ n, readNumeral source.val digits = some n →
    readNumeral target.val (numbers.toText target.val (numbers.parseDigits source.val digits)) =
      some n

/-! ### Characters -/

/-- A character that is a digit in lower case is one itself or the Kelvin sign. -/
theorem isDigitIn_lower {radix : ℕ} {c : Char} (h : c.toNat ≠ 0x212a) :
  isDigitIn radix (if c.toNat = 0x212a then 'k' else c.toLower) = isDigitIn radix c
  := by rw [if_neg h, isDigitIn, isDigitIn, digitValue_toLower]

theorem isDigitIn_kelvin {radix : ℕ} {c : Char} (h : c.toNat = 0x212a) :
  isDigitIn radix c = false
  := by
  rw [isDigitIn, digitValue]
  simp [h]

theorem all_toLowerCase {radix : ℕ} {text : List Char} :
  (toLowerCase text).all (isDigitIn radix) = true ↔
    ∀ c ∈ text, isDigitIn radix (if c.toNat = 0x212a then 'k' else c.toLower) = true
  := by
  rw [toLowerCase, List.all_map, List.all_eq_true]
  rfl

/-- Digits are digits in lower case. -/
theorem all_toLowerCase_of_digits {radix : ℕ} {text : List Char}
    (h : ∀ c ∈ text, isDigitIn radix c = true) :
  (toLowerCase text).all (isDigitIn radix) = true
  := by
  rw [all_toLowerCase]
  intro c hc
  have hkelvin : c.toNat ≠ 0x212a := by
    intro heq
    have := h c hc
    rw [isDigitIn_kelvin heq] at this
    cases this
  rw [isDigitIn_lower hkelvin]
  apply h c hc

theorem digits_of_all_toLowerCase {radix : ℕ} {text : List Char}
    (h : (toLowerCase text).all (isDigitIn radix) = true)
    (hkelvin : ∀ c ∈ text, c.toNat ≠ 0x212a) :
  ∀ c ∈ text, isDigitIn radix c = true
  := by
  intro c hc
  rw [← isDigitIn_lower (hkelvin c hc)]
  apply all_toLowerCase.mp h c hc

/-! ### Prefixes -/

/-- A text with the prefix that denotes a radix has a character that is no digit. -/
theorem not_isDigitIn_of_marked {radix : ℕ} {z c : Char}
    (h : RADIX_PREFIX.lookup radix = some [z, c.toLower]) :
  z = '0' ∧ c.toLower ∈ ['b', 'o', 'x'] ∧ isDigitIn radix c = false
  := by
  rw [isDigitIn, ← digitValue_toLower]
  unfold RADIX_PREFIX at h
  simp only [List.lookup_cons] at h
  split at h
  · next heq =>
      rw [beq_iff_eq] at heq
      simp only [Option.some.injEq, List.cons.injEq, and_true] at h
      rw [← h.1, ← h.2, heq]
      decide
  · split at h
    · next heq =>
        rw [beq_iff_eq] at heq
        simp only [Option.some.injEq, List.cons.injEq, and_true] at h
        rw [← h.1, ← h.2, heq]
        decide
    · split at h
      · next heq =>
          rw [beq_iff_eq] at heq
          simp only [Option.some.injEq, List.cons.injEq, and_true] at h
          rw [← h.1, ← h.2, heq]
          decide
      · cases h

/-- A text that begins with the letter of a prefix that does not denote the radix. -/
def Foreign (radix : ℕ) (text : List Char) : Prop :=
  ∃ c rest, text = '0' :: c :: rest ∧ c.toLower ∈ ['b', 'o', 'x'] ∧
    RADIX_PREFIX.lookup radix ≠ some ['0', c.toLower]

theorem stripPrefix_cons {c : Char} {rest : List Char} (h : c.toLower ∈ ['b', 'o', 'x']) :
  stripPrefix ('0' :: c :: rest) = rest
  := by rw [stripPrefix, if_pos h]

/-- Apart from foreign prefixes, a text denotes what is left of it when its prefix is stripped. -/
theorem denoted_eq {radix : ℕ} {text : List Char} (h : ¬ Foreign radix text) :
  denoted radix text = readNumeral radix (stripPrefix text)
  := by
  match text with
  | [] => rfl
  | [z] =>
      rw [denoted, withoutPrefix, Option.bind_none, Option.or_none, stripPrefix]
      · intro c rest heq
        cases heq
      · intro z c rest heq
        cases heq
  | z :: c :: rest =>
      by_cases hbox : z = '0' ∧ c.toLower ∈ ['b', 'o', 'x']
      · obtain ⟨rfl, hletter⟩ := hbox
        have hown : RADIX_PREFIX.lookup radix = some ['0', c.toLower] := by
          by_contra hne
          apply h ⟨c, rest, rfl, hletter, hne⟩
        have hnone : readNumeral radix ('0' :: c :: rest) = none := by
          apply readNumeral_eq_none.mpr (Or.inr ⟨c, by simp, ?_⟩)
          apply (not_isDigitIn_of_marked hown).2.2
        rw [denoted, hnone, Option.none_or, withoutPrefix, if_pos hown, Option.bind_some,
          stripPrefix_cons hletter]
      · have hforeign : RADIX_PREFIX.lookup radix ≠ some [z, c.toLower] := by
          intro hown
          obtain ⟨hzero, hletter, -⟩ := not_isDigitIn_of_marked hown
          apply hbox ⟨hzero, hletter⟩
        have hstrip : stripPrefix (z :: c :: rest) = z :: c :: rest := by
          by_cases hzero : z = '0'
          · rw [hzero, stripPrefix, if_neg fun hletter => hbox ⟨hzero, hletter⟩]
          · rw [stripPrefix]
            rintro c' rest' heq
            apply hzero (List.cons.inj heq).1
        rw [denoted, withoutPrefix, if_neg hforeign, Option.bind_none, Option.or_none, hstrip]

theorem denoted_foreign {radix : ℕ} {text : List Char} (h : Foreign radix text) :
  denoted radix text = readNumeral radix text
  := by
  obtain ⟨c, rest, rfl, -, hforeign⟩ := h
  rw [denoted, withoutPrefix, if_neg hforeign, Option.bind_none, Option.or_none]

/-! ### What the tool does -/

theorem isBase_val (base : Base) :
  isBase (base.val : ℚ) = true
  := by
  have hlow : (2 : ℚ) ≤ base.val := by exact_mod_cast base.property.1
  have hhigh : (base.val : ℚ) ≤ 36 := by exact_mod_cast base.property.2
  simp [isBase, hlow, hhigh]

theorem num_toNat (base : Base) :
  (base.val : ℚ).num.toNat = base.val
  := by simp

/-- The tool accepts what is left of a text when its prefix is stripped, if there is something
left and all of it are digits in lower case. -/
theorem mathBase_of_legal (numbers : Numbers) {value : String} {source : Base} (target : Base)
    (hne : stripPrefix (trim value).toList ≠ [])
    (hlegal : (toLowerCase (stripPrefix (trim value).toList)).all (isDigitIn source.val) = true) :
  ∃ result, mathBase numbers value source.val target.val = .ok result ∧
    result.result =
      numbers.toText target.val (parseInt numbers source.val (stripPrefix (trim value).toList))
  := by
  have hparse : parseInRadix numbers value source.val =
      .ok (parseInt numbers source.val (stripPrefix (trim value).toList)) := by
    have hlength := List.length_pos_iff.mpr hne
    rw [parseInRadix]
    simp [hlegal, hlength]
  rw [mathBase, if_neg (by simp [isBase_val]), if_neg (by simp [isBase_val])]
  simp only [num_toNat, hparse]
  exact ⟨_, rfl, rfl⟩

theorem mathBase_of_illegal (numbers : Numbers) (value : String) (source target : Base)
    (h : ¬ (stripPrefix (trim value).toList ≠ [] ∧
      (toLowerCase (stripPrefix (trim value).toList)).all (isDigitIn source.val) = true)) :
  ∃ error, mathBase numbers value source.val target.val = .error error
  := by
  have hparse : ∃ error, parseInRadix numbers value source.val = .error error := by
    rw [parseInRadix]
    rw [if_pos]
    · exact ⟨_, rfl⟩
    · rw [← List.length_pos_iff] at h
      simpa using h
  obtain ⟨error, hparse⟩ := hparse
  rw [mathBase, if_neg (by simp [isBase_val]), if_neg (by simp [isBase_val])]
  simp only [num_toNat, hparse]
  exact ⟨error, rfl⟩

theorem not_ok_of_error {numbers : Numbers} {value : String} {source target : ℚ}
    (h : ∃ error, mathBase numbers value source target = .error error)
    {result : BaseResult numbers} :
  mathBase numbers value source target ≠ .ok result
  := by
  obtain ⟨error, herror⟩ := h
  rw [herror]
  intro heq
  cases heq

/-! ### When conversions are right -/

theorem parseInt_digits (numbers : Numbers) {radix : ℕ} {text : List Char} (hne : text ≠ [])
    (h : ∀ c ∈ text, isDigitIn radix c = true) :
  parseInt numbers radix text = numbers.parseDigits radix text
  := by
  rw [parseInt, List.takeWhile_eq_self_iff.mpr h, if_neg hne]

theorem digitValue_letter {c : Char} (h : c.toLower ∈ ['b', 'o', 'x']) :
  ∃ d, digitValue c = some d ∧ 11 ≤ d
  := by
  rw [← digitValue_toLower]
  simp only [List.mem_cons, List.not_mem_nil, or_false] at h
  rcases h with h | h | h
  · exact ⟨11, by rw [h]; rfl, by decide⟩
  · exact ⟨24, by rw [h]; rfl, by decide⟩
  · exact ⟨33, by rw [h]; rfl, by decide⟩

section Converts

variable {numbers : Numbers} {value : String} {source target : Base}

/-- What is behind a foreign prefix is not what the text denotes. -/
theorem Misled.not_converts (h : Misled source.val (trim value).toList) :
  ¬ Converts numbers value source target
  := by
  obtain ⟨c, rest, htext, hletter, hforeign, hlegal, hempty⟩ := h
  have hstrip : stripPrefix (trim value).toList = rest := by
    rw [htext, stripPrefix_cons hletter]
  have hdenoted : denoted source.val (trim value).toList =
      readNumeral source.val ('0' :: c :: rest) := by
    rw [denoted_foreign ⟨c, rest, htext, hletter, hforeign⟩, htext]
  intro hconverts
  rw [Converts, hdenoted] at hconverts
  by_cases hnil : rest = []
  · have herror := mathBase_of_illegal numbers value source target
      (by rw [hstrip]; exact fun h => h.1 hnil)
    have hdigits : ∀ c' ∈ '0' :: c :: rest, isDigitIn source.val c' = true := by
      rw [hnil, List.forall_mem_cons, List.forall_mem_singleton]
      have hpos : 0 < source.val := Nat.lt_of_lt_of_le (by decide) source.property.1
      exact ⟨isDigitIn_iff.mpr ⟨0, rfl, hpos⟩, hempty hnil⟩
    cases hread : readNumeral source.val ('0' :: c :: rest) with
    | none =>
        rcases readNumeral_eq_none.mp hread with hnone | ⟨c', hc', hfalse⟩
        · cases hnone
        · rw [hdigits c' hc'] at hfalse
          cases hfalse
    | some n =>
        rw [hread] at hconverts
        obtain ⟨result, hok, -⟩ := hconverts
        apply not_ok_of_error herror hok
  · obtain ⟨result, hok, hresult⟩ := mathBase_of_legal numbers target
      (by rw [hstrip]; apply hnil) (by rw [hstrip]; apply hlegal)
    cases hread : readNumeral source.val ('0' :: c :: rest) with
    | none =>
        rw [hread] at hconverts
        apply not_ok_of_error hconverts hok
    | some n =>
        rw [hread] at hconverts
        obtain ⟨result', hok', hn⟩ := hconverts
        rw [hok] at hok'
        cases hok'
        obtain ⟨-, hall, hvalue⟩ := readNumeral_eq_some.mp hread
        have hdigits : ∀ c' ∈ rest, isDigitIn source.val c' = true := by
          intro c' hc'
          apply hall c' (by simp [hc'])
        rw [hresult, hstrip, parseInt_digits numbers hnil hdigits] at hn
        have hle := numbers.le_of_toText target.property.1 target.property.2
          (readNumeral_eq_some.mpr ⟨hnil, hdigits, rfl⟩) hn
        have hlt := numeralValue_lt hdigits
        obtain ⟨d, hd, hlarge⟩ := digitValue_letter hletter
        have hpower : source.val ^ rest.length ≤ d * source.val ^ rest.length :=
          Nat.le_mul_of_pos_left _ (by omega)
        rw [numeralValue_cons, numeralValue_cons, hd, Option.getD_some] at hvalue
        have hzero : (digitValue '0').getD 0 = 0 := rfl
        rw [hzero, Nat.zero_mul, Nat.zero_add] at hvalue
        omega

/-- What is left of a text denotes what the text does, unless a prefix has misled the tool. -/
theorem denoted_of_not_misled (h : ¬ Misled source.val (trim value).toList)
    (hstripped : stripPrefix (trim value).toList ≠ [] ∧
      (toLowerCase (stripPrefix (trim value).toList)).all (isDigitIn source.val) = true) :
  denoted source.val (trim value).toList =
    readNumeral source.val (stripPrefix (trim value).toList)
  := by
  apply denoted_eq
  rintro ⟨c, rest, htext, hletter, hforeign⟩
  rw [htext, stripPrefix_cons hletter] at hstripped
  apply h
  exact ⟨c, rest, htext, hletter, hforeign, hstripped.2, fun hnil => absurd hnil hstripped.1⟩

/-- A text that the tool rejects denotes no integer. -/
theorem denoted_of_illegal (h : ¬ Misled source.val (trim value).toList)
    (hstripped : ¬ (stripPrefix (trim value).toList ≠ [] ∧
      (toLowerCase (stripPrefix (trim value).toList)).all (isDigitIn source.val) = true)) :
  denoted source.val (trim value).toList = none ∧
    readNumeral source.val (stripPrefix (trim value).toList) = none
  := by
  have hnone : readNumeral source.val (stripPrefix (trim value).toList) = none := by
    cases hread : readNumeral source.val (stripPrefix (trim value).toList) with
    | none => rfl
    | some n =>
        obtain ⟨hne, hall, -⟩ := readNumeral_eq_some.mp hread
        apply absurd ⟨hne, all_toLowerCase_of_digits hall⟩ hstripped
  refine ⟨?_, hnone⟩
  by_cases hforeign : Foreign source.val (trim value).toList
  · obtain ⟨c, rest, htext, hletter, hne⟩ := hforeign
    rw [denoted_foreign ⟨c, rest, htext, hletter, hne⟩]
    cases hread : readNumeral source.val (trim value).toList with
    | none => rfl
    | some n =>
        obtain ⟨-, hall, -⟩ := readNumeral_eq_some.mp hread
        rw [htext] at hall
        apply absurd _ h
        refine ⟨c, rest, htext, hletter, hne, ?_, fun _ => hall c (by simp)⟩
        apply all_toLowerCase_of_digits
        intro c' hc'
        apply hall c' (by simp [hc'])
  · rw [denoted_eq hforeign, hnone]

theorem denoted_stripped (h : ¬ Misled source.val (trim value).toList) :
  denoted source.val (trim value).toList =
    readNumeral source.val (stripPrefix (trim value).toList)
  := by
  by_cases hstripped : stripPrefix (trim value).toList ≠ [] ∧
      (toLowerCase (stripPrefix (trim value).toList)).all (isDigitIn source.val) = true
  · apply denoted_of_not_misled h hstripped
  · obtain ⟨hdenoted, hnone⟩ := denoted_of_illegal h hstripped
    rw [hdenoted, hnone]

/-- A conversion is right unless a prefix misleads it, a Kelvin sign is taken for a digit, or the
numbers of the platform are not exact. -/
theorem converts_iff :
  Converts numbers value source target ↔
    ¬ Misled source.val (trim value).toList ∧ ¬ HasKelvin source.val (trim value).toList ∧
      Exact numbers source target (stripPrefix (trim value).toList)
  := by
  by_cases hmisled : Misled source.val (trim value).toList
  · simp [hmisled, hmisled.not_converts]
  by_cases hstripped : stripPrefix (trim value).toList ≠ [] ∧
      (toLowerCase (stripPrefix (trim value).toList)).all (isDigitIn source.val) = true
  · obtain ⟨hne, hlegal⟩ := hstripped
    obtain ⟨result, hok, hresult⟩ := mathBase_of_legal numbers target hne hlegal
    have hdenoted := denoted_of_not_misled hmisled ⟨hne, hlegal⟩
    by_cases hkelvin : HasKelvin source.val (trim value).toList
    · obtain ⟨c, hc, htoNat⟩ := hkelvin.2
      have hnone : readNumeral source.val (stripPrefix (trim value).toList) = none :=
        readNumeral_eq_none.mpr (Or.inr ⟨c, hc, isDigitIn_kelvin htoNat⟩)
      have hnot : ¬ Converts numbers value source target := by
        intro hconverts
        rw [Converts, hdenoted, hnone] at hconverts
        apply not_ok_of_error hconverts hok
      simp [hkelvin, hnot]
    · have hdigits := digits_of_all_toLowerCase hlegal
        (fun c hc htoNat => hkelvin ⟨hlegal, c, hc, htoNat⟩)
      have hread := readNumeral_eq_some.mpr ⟨hne, hdigits, rfl⟩
      rw [parseInt_digits numbers hne hdigits] at hresult
      rw [Converts, hdenoted, hread, Exact, hread]
      constructor
      · rintro ⟨result', hok', hvalue⟩
        rw [hok] at hok'
        cases hok'
        rw [hresult] at hvalue
        use hmisled, hkelvin
        rintro n ⟨⟩
        apply hvalue
      · rintro ⟨-, -, hexact⟩
        use result, hok
        rw [hresult]
        apply hexact _ rfl
  · obtain ⟨hdenoted, hnone⟩ := denoted_of_illegal hmisled hstripped
    have hkelvin : ¬ HasKelvin source.val (trim value).toList := by
      rintro ⟨hlegal, c, hc, -⟩
      apply hstripped ⟨List.ne_nil_of_mem hc, hlegal⟩
    rw [Converts, hdenoted, Exact, hnone]
    constructor
    · intro _
      use hmisled, hkelvin
      rintro n ⟨⟩
    · intro _
      apply mathBase_of_illegal numbers _ _ target hstripped

/-- The numbers are exact up to the largest safe integer. -/
theorem exact_of_safe {digits : List Char}
    (h : ∀ n, readNumeral source.val digits = some n → n ≤ MAX_SAFE_INTEGER) :
  Exact numbers source target digits
  := by
  intro n hn
  have hinteger := numbers.integer_parseDigits source.property.1 source.property.2 hn (h n hn)
  rw [numbers.toText_of_integer target.property.1 target.property.2 hinteger (h n hn),
    readNumeral_writeNumeral target.property.1 target.property.2]

end Converts

/-- A platform that makes zero of everything beyond the safe integers. -/
def cappedNumbers : Numbers where
  Number := Option ℕ
  nan := none
  integer := id
  parseDigits radix digits :=
    some (if numeralValue radix digits ≤ MAX_SAFE_INTEGER then numeralValue radix digits else 0)
  toText radix number := number.elim ['N', 'a', 'N'] (writeNumeral radix)
  integer_parseDigits _ _ hread hle := by
    obtain ⟨-, -, rfl⟩ := readNumeral_eq_some.mp hread
    rw [if_pos hle, id]
  toText_of_integer _ _ hinteger _ := by
    cases hinteger
    rfl
  le_of_toText hlow hhigh hread hread' := by
    obtain ⟨-, -, rfl⟩ := readNumeral_eq_some.mp hread
    rw [Option.elim_some, readNumeral_writeNumeral hlow hhigh, Option.some.injEq] at hread'
    split at hread'
    · omega
    · omega

end MathTools
