import Mathlib.Algebra.Group.Nat.Defs
import Mathlib.Data.List.Infix

/-!
# JSON

The values of JSON, how they are read from a text and how they are written. A text is a list of
characters, while a string in a value is a list of units of UTF-16, as escapes may leave half a
surrogate pair.
-/

/-- A string of ECMAScript. -/
abbrev JsUnits := List UInt16

/-- The numbers of ECMAScript, as far as JSON has to do with them: how a literal is read, how a
number is written, and the natural numbers among them. -/
class JsNumber (N : Type) where
  ofLiteral : List Char → N
  ofNat : ℕ → N
  toText : N → List Char
  ofNat_injective : Function.Injective ofNat
  ne_of_mem_toText : ∀ n, ∀ c ∈ toText n, c ≠ '\n' ∧ c ≠ '\r'

/-- A value. The members of an object stand in the order in which they are enumerated. -/
inductive Json (N : Type) where
  | null
  | bool (value : Bool)
  | number (value : N)
  | string (value : JsUnits)
  | array (items : List (Json N))
  | object (members : List (JsUnits × Json N))

/-! ### Characters and units -/

/-- The units of a character. -/
def unitsOf (c : Char) : JsUnits :=
  let n := c.toNat
  if n < 0x10000 then [.ofNat n]
  else [.ofNat (0xd800 + (n - 0x10000) / 0x400), .ofNat (0xdc00 + (n - 0x10000) % 0x400)]

/-- The string that a text is. -/
def unitsOfText (text : List Char) : JsUnits := text.flatMap unitsOf

/-- The string that a literal of the source is. -/
def unitsOfString (s : String) : JsUnits := unitsOfText s.toList

def isHighSurrogate (u : UInt16) : Bool := 0xd800 ≤ u && u < 0xdc00

def isLowSurrogate (u : UInt16) : Bool := 0xdc00 ≤ u && u < 0xe000

namespace Json

/-! ### Objects -/

/-- The index of an array that a key reads as. -/
def arrayIndex (key : JsUnits) : Option ℕ :=
  let digits := key.map UInt16.toNat
  let index := digits.foldl (fun n d => n * 10 + (d - 48)) 0
  if digits ≠ [] ∧ (∀ d ∈ digits, 48 ≤ d ∧ d ≤ 57) ∧ (digits.head? = some 48 → digits = [48]) ∧
      index < 2 ^ 32 - 1 then
    some index
  else none

variable {N : Type}

/-- `object[key]`, with `none` for `undefined`. -/
def get (members : List (JsUnits × Json N)) (key : JsUnits) : Option (Json N) :=
  (members.find? fun member => member.1 = key).map Prod.snd

/-- `object[key] = value`. Keys that are indices come first and in order, all others as they
have been added. -/
def set (members : List (JsUnits × Json N)) (key : JsUnits) (value : Json N) :
    List (JsUnits × Json N) :=
  if (get members key).isSome then
    members.map fun member => if member.1 = key then (key, value) else member
  else
    match arrayIndex key with
    | none => members ++ [(key, value)]
    | some index =>
        let before := fun member : JsUnits × Json N => (arrayIndex member.1).any (· < index)
        members.takeWhile before ++ (key, value) :: members.dropWhile before

/-- The members of an object that is one of its members, with `undefined` for all others. -/
def getObject (members : List (JsUnits × Json N)) (key : JsUnits) : List (JsUnits × Json N) :=
  match get members key with
  | some (.object inner) => inner
  | _ => []

/-- The string that a member is. -/
def getString (members : List (JsUnits × Json N)) (key : JsUnits) : Option JsUnits :=
  match get members key with
  | some (.string s) => some s
  | _ => none

theorem get_cons (member : JsUnits × Json N) (members : List (JsUnits × Json N))
    (key : JsUnits) :
  get (member :: members) key = if member.1 = key then some member.2 else get members key
  := by
  unfold get
  rw [List.find?_cons]
  split
  · next h =>
      rw [if_pos (of_decide_eq_true h)]
      rfl
  · next h => rw [if_neg (of_decide_eq_false h)]

theorem get_append (members members' : List (JsUnits × Json N)) (key : JsUnits) :
  get (members ++ members') key = (get members key).or (get members' key)
  := by
  unfold get
  rw [List.find?_append, Option.map_or]

/-- A member is replaced where it stands. -/
theorem get_replace (members : List (JsUnits × Json N)) (key key' : JsUnits) (value : Json N) :
  get (members.map fun member => if member.1 = key then (key, value) else member) key' =
    if key' = key then (get members key).map fun _ => value else get members key'
  := by
  induction members with
  | nil =>
      split <;> rfl
  | cons member members ih =>
      rw [List.map_cons, get_cons, get_cons, get_cons, ih]
      by_cases hmember : member.1 = key
      · rw [if_pos hmember, if_pos hmember, hmember]
        by_cases heq : key' = key
        · rw [if_pos heq.symm, if_pos heq]
          rfl
        · rw [if_neg fun h => heq h.symm, if_neg heq, if_neg heq, if_neg fun h => heq h.symm]
      · rw [if_neg hmember, if_neg hmember]
        by_cases heq : key' = key
        · rw [if_pos heq, if_pos heq, heq, if_neg hmember]
        · rw [if_neg heq, if_neg heq]

theorem get_set (members : List (JsUnits × Json N)) (key key' : JsUnits) (value : Json N) :
  get (set members key value) key' = if key' = key then some value else get members key'
  := by
  have hinsert : ∀ before after : List (JsUnits × Json N), get before key = none →
      get (before ++ (key, value) :: after) key' =
        if key' = key then some value else get (before ++ after) key' := by
    intro before after hnone
    rw [get_append, get_cons, get_append]
    by_cases heq : key' = key
    · rw [heq, hnone, if_pos rfl, if_pos rfl]
      rfl
    · rw [if_neg fun h => heq h.symm, if_neg heq]
  unfold set
  split
  · next hsome =>
      obtain ⟨old, hold⟩ := Option.isSome_iff_exists.mp hsome
      rw [get_replace, hold]
      rfl
  · next hnone =>
      have hnone' : get members key = none := by
        rw [← Option.not_isSome_iff_eq_none]
        apply hnone
      split
      · rw [hinsert _ _ hnone', List.append_nil]
      · next index hindex =>
          rw [hinsert, List.takeWhile_append_dropWhile]
          rw [← List.takeWhile_append_dropWhile (p := fun member : JsUnits × Json N =>
            (arrayIndex member.1).any (· < index)) (l := members), get_append] at hnone'
          apply (Option.or_eq_none_iff.mp hnone').1

/-- Setting a member leaves alone what the others are. -/
theorem getString_set {members : List (JsUnits × Json N)} {key key' : JsUnits}
    (hne : key' ≠ key) (value : Json N) :
  getString (set members key value) key' = getString members key'
  := by
  unfold getString
  rw [get_set, if_neg hne]

theorem getObject_set {members : List (JsUnits × Json N)} {key key' : JsUnits}
    (hne : key' ≠ key) (value : Json N) :
  getObject (set members key value) key' = getObject members key'
  := by
  unfold getObject
  rw [get_set, if_neg hne]

/-! ### Writing -/

/-- A digit of `\uXXXX`. -/
def hexDigit (d : ℕ) : Char := if d < 10 then Char.ofNat (48 + d) else Char.ofNat (87 + d)

/-- A unit as `\uXXXX`. -/
def escapeUnit (u : UInt16) : List Char :=
  let n := u.toNat
  ['\\', 'u', hexDigit (n / 0x1000 % 16), hexDigit (n / 0x100 % 16), hexDigit (n / 0x10 % 16),
    hexDigit (n % 16)]

/-- How a unit that is no half of a surrogate pair is written. -/
def quoteUnit (u : UInt16) : List Char :=
  if u = 0x08 then ['\\', 'b']
  else if u = 0x09 then ['\\', 't']
  else if u = 0x0a then ['\\', 'n']
  else if u = 0x0c then ['\\', 'f']
  else if u = 0x0d then ['\\', 'r']
  else if u = 0x22 then ['\\', '"']
  else if u = 0x5c then ['\\', '\\']
  else if u < 0x20 ∨ isHighSurrogate u ∨ isLowSurrogate u then escapeUnit u
  else [Char.ofNat u.toNat]

/-- The inside of a string. -/
def quoteUnits : JsUnits → List Char
  | [] => []
  | [u] => quoteUnit u
  | u :: v :: rest =>
      if isHighSurrogate u ∧ isLowSurrogate v then
        Char.ofNat (0x10000 + (u.toNat - 0xd800) * 0x400 + (v.toNat - 0xdc00)) ::
          quoteUnits rest
      else quoteUnit u ++ quoteUnits (v :: rest)

def quote (s : JsUnits) : List Char := '"' :: quoteUnits s ++ ['"']

mutual

/-- `JSON.stringify` -/
def stringify [JsNumber N] : Json N → List Char
  | .null => "null".toList
  | .bool true => "true".toList
  | .bool false => "false".toList
  | .number value => JsNumber.toText value
  | .string value => quote value
  | .array items => '[' :: stringifyItems items ++ [']']
  | .object members => '{' :: stringifyMembers members ++ ['}']

def stringifyItems [JsNumber N] : List (Json N) → List Char
  | [] => []
  | [item] => stringify item
  | item :: items => stringify item ++ ',' :: stringifyItems items

def stringifyMembers [JsNumber N] : List (JsUnits × Json N) → List Char
  | [] => []
  | [(key, value)] => quote key ++ ':' :: stringify value
  | (key, value) :: members => quote key ++ ':' :: stringify value ++ ',' :: stringifyMembers members

end

/-- A character that does not end a line. -/
def Unbroken (c : Char) : Prop := c ≠ '\n' ∧ c ≠ '\r'

instance (c : Char) : Decidable (Unbroken c) := inferInstanceAs (Decidable (_ ∧ _))

theorem unbroken_of_all {text : List Char} (h : (text.all fun c => decide (Unbroken c)) = true) :
  ∀ c ∈ text, Unbroken c
  := fun c hc => of_decide_eq_true (List.all_eq_true.mp h c hc)

theorem unbroken_of_le {c : Char} (h : 0x20 ≤ c.toNat) :
  Unbroken c
  := by
  constructor
  · rintro rfl
    exact absurd h (by decide)
  · rintro rfl
    exact absurd h (by decide)

theorem unbroken_hexDigit {d : ℕ} (h : d < 16) :
  Unbroken (hexDigit d)
  := by
  have hall : ∀ d < 16, 0x20 ≤ (hexDigit d).toNat := by decide
  apply unbroken_of_le (hall d h)

theorem unbroken_escapeUnit (u : UInt16) :
  ∀ c ∈ escapeUnit u, Unbroken c
  := by
  have hdigit : ∀ n, Unbroken (hexDigit (n % 16)) :=
    fun n => unbroken_hexDigit (Nat.mod_lt n (by decide))
  simp only [escapeUnit, List.forall_mem_cons, List.not_mem_nil, false_implies, implies_true,
    and_true, hdigit]
  exact ⟨⟨by decide, by decide⟩, by decide, by decide⟩

theorem toNat_ofNat {n : ℕ} (h : n < 0xd800 ∨ 0xdfff < n ∧ n < 0x110000) :
  (Char.ofNat n).toNat = n
  := by
  rw [Char.ofNat, dif_pos h]
  rfl

theorem isHighSurrogate_iff {u : UInt16} :
  isHighSurrogate u = true ↔ 0xd800 ≤ u.toNat ∧ u.toNat < 0xdc00
  := by
  simp only [isHighSurrogate, Bool.and_eq_true, decide_eq_true_eq]
  rfl

theorem isLowSurrogate_iff {u : UInt16} :
  isLowSurrogate u = true ↔ 0xdc00 ≤ u.toNat ∧ u.toNat < 0xe000
  := by
  simp only [isLowSurrogate, Bool.and_eq_true, decide_eq_true_eq]
  rfl

theorem unbroken_quoteUnit (u : UInt16) :
  ∀ c ∈ quoteUnit u, Unbroken c
  := by
  unfold quoteUnit
  repeat' split
  any_goals (apply unbroken_of_all; decide)
  · apply unbroken_escapeUnit
  · next hplain =>
      rw [isHighSurrogate_iff, isLowSurrogate_iff] at hplain
      have hle : 0x20 ≤ u.toNat := by
        rw [← Nat.not_lt]
        exact fun hlt => hplain (.inl hlt)
      have hlt := u.toNat_lt
      intro c hc
      rw [List.mem_singleton.mp hc]
      apply unbroken_of_le
      rw [toNat_ofNat (by omega)]
      apply hle

theorem unbroken_quoteUnits (s : JsUnits) :
  ∀ c ∈ quoteUnits s, Unbroken c
  := by
  induction s using quoteUnits.induct with
  | case1 =>
      intro c hc
      cases hc
  | case2 u => apply unbroken_quoteUnit
  | case3 u v rest hpair ih =>
      rw [quoteUnits, if_pos hpair, List.forall_mem_cons]
      rw [isHighSurrogate_iff, isLowSurrogate_iff] at hpair
      constructor
      · apply unbroken_of_le
        rw [toNat_ofNat (by omega)]
        omega
      · apply ih
  | case4 u v rest hpair ih =>
      rw [quoteUnits, if_neg hpair]
      intro c hc
      obtain hc | hc := List.mem_append.mp hc
      · apply unbroken_quoteUnit u c hc
      · apply ih c hc

theorem unbroken_quote (s : JsUnits) :
  ∀ c ∈ quote s, Unbroken c
  := by
  unfold quote
  rw [List.cons_append, List.forall_mem_cons]
  use by decide
  intro c hc
  obtain hc | hc := List.mem_append.mp hc
  · apply unbroken_quoteUnits s c hc
  · rw [List.mem_singleton.mp hc]
    decide

mutual

/-- A value is written on one line. -/
theorem unbroken_stringify [JsNumber N] (value : Json N) :
  ∀ c ∈ stringify value, Unbroken c
  := by
  cases value with
  | null =>
      change ∀ c ∈ "null".toList, Unbroken c
      apply unbroken_of_all (by decide +kernel)
  | bool value =>
      cases value with
      | false =>
          change ∀ c ∈ "false".toList, Unbroken c
          apply unbroken_of_all (by decide +kernel)
      | true =>
          change ∀ c ∈ "true".toList, Unbroken c
          apply unbroken_of_all (by decide +kernel)
  | number value => apply JsNumber.ne_of_mem_toText
  | string value => apply unbroken_quote
  | array items =>
      have hitems := unbroken_stringifyItems items
      rw [stringify, List.cons_append, List.forall_mem_cons, List.forall_mem_append]
      exact ⟨by decide, hitems, unbroken_of_all (by decide)⟩
  | object members =>
      have hmembers := unbroken_stringifyMembers members
      rw [stringify, List.cons_append, List.forall_mem_cons, List.forall_mem_append]
      exact ⟨by decide, hmembers, unbroken_of_all (by decide)⟩

theorem unbroken_stringifyItems [JsNumber N] (items : List (Json N)) :
  ∀ c ∈ stringifyItems items, Unbroken c
  := by
  match items with
  | [] =>
      intro c hc
      cases hc
  | [item] => apply unbroken_stringify item
  | item :: item' :: items =>
      have hitem := unbroken_stringify item
      have hitems := unbroken_stringifyItems (item' :: items)
      rw [stringifyItems, List.forall_mem_append, List.forall_mem_cons]
      · exact ⟨hitem, by decide, hitems⟩
      · apply List.cons_ne_nil

theorem unbroken_stringifyMembers [JsNumber N] (members : List (JsUnits × Json N)) :
  ∀ c ∈ stringifyMembers members, Unbroken c
  := by
  match members with
  | [] =>
      intro c hc
      cases hc
  | [(key, value)] =>
      have hvalue := unbroken_stringify value
      rw [stringifyMembers, List.forall_mem_append, List.forall_mem_cons]
      exact ⟨unbroken_quote key, by decide, hvalue⟩
  | (key, value) :: member :: members =>
      have hvalue := unbroken_stringify value
      have hmembers := unbroken_stringifyMembers (member :: members)
      rw [stringifyMembers, List.forall_mem_append, List.forall_mem_append, List.forall_mem_cons,
        List.forall_mem_cons]
      · exact ⟨⟨unbroken_quote key, by decide, hvalue⟩, by decide, hmembers⟩
      · apply List.cons_ne_nil

end

/-! ### Reading -/

def isWhitespace (c : Char) : Bool := c = ' ' || c = '\t' || c = '\n' || c = '\r'

def skipWhitespace (text : List Char) : List Char := text.dropWhile isWhitespace

/-- The value of a digit of `\uXXXX`. -/
def hexValue (c : Char) : Option ℕ :=
  let n := c.toNat
  if 48 ≤ n ∧ n ≤ 57 then some (n - 48)
  else if 65 ≤ n ∧ n ≤ 70 then some (n - 55)
  else if 97 ≤ n ∧ n ≤ 102 then some (n - 87)
  else none

/-- What a character stands for behind a backslash. -/
def unescape (c : Char) : Option UInt16 :=
  if c = '"' then some 0x22
  else if c = '\\' then some 0x5c
  else if c = '/' then some 0x2f
  else if c = 'b' then some 0x08
  else if c = 'f' then some 0x0c
  else if c = 'n' then some 0x0a
  else if c = 'r' then some 0x0d
  else if c = 't' then some 0x09
  else none

/-- A string, from behind its opening quote, and what follows it. -/
def parseString : List Char → Option (JsUnits × List Char)
  | '"' :: rest => some ([], rest)
  | '\\' :: 'u' :: a :: b :: c :: d :: rest => do
      let u := (← hexValue a) * 0x1000 + (← hexValue b) * 0x100 + (← hexValue c) * 0x10 +
        (← hexValue d)
      let (s, rest) ← parseString rest
      return (.ofNat u :: s, rest)
  | '\\' :: c :: rest => do
      let u ← unescape c
      let (s, rest) ← parseString rest
      return (u :: s, rest)
  | c :: rest => do
      guard (0x20 ≤ c.toNat)
      let (s, rest) ← parseString rest
      return (unitsOf c ++ s, rest)
  | [] => none

def isDigit (c : Char) : Bool := 48 ≤ c.toNat && c.toNat ≤ 57

/-- One digit or more, and what follows them. -/
def scanDigits (text : List Char) : Option (List Char × List Char) :=
  if (text.takeWhile isDigit).isEmpty then none
  else some (text.takeWhile isDigit, text.dropWhile isDigit)

/-- The part of a number before the point. -/
def scanInteger : List Char → Option (List Char × List Char)
  | '0' :: rest => some (['0'], rest)
  | text => scanDigits text

/-- The part of a number behind the point, if there is one. -/
def scanFraction : List Char → Option (List Char × List Char)
  | '.' :: rest => (scanDigits rest).map fun (digits, rest) => ('.' :: digits, rest)
  | text => some ([], text)

/-- The exponent of a number, if there is one. -/
def scanExponent : List Char → Option (List Char × List Char)
  | e :: sign :: rest =>
      if e = 'e' ∨ e = 'E' then
        if sign = '+' ∨ sign = '-' then
          (scanDigits rest).map fun (digits, rest) => (e :: sign :: digits, rest)
        else (scanDigits (sign :: rest)).map fun (digits, rest) => (e :: digits, rest)
      else some ([], e :: sign :: rest)
  | [e] => if e = 'e' ∨ e = 'E' then none else some ([], [e])
  | [] => some ([], [])

/-- The literal of a number, and what follows it. -/
def scanNumber (text : List Char) : Option (List Char × List Char) := do
  let sign := text.takeWhile (· = '-')
  guard (sign.length ≤ 1)
  let (integer, text) ← scanInteger (text.drop sign.length)
  let (fraction, text) ← scanFraction text
  let (exponent, text) ← scanExponent text
  return (sign ++ integer ++ fraction ++ exponent, text)

/-- A value that is neither an object nor an array, and what follows it. -/
def parseScalar [JsNumber N] (text : List Char) : Option (Json N × List Char) :=
  match text with
  | '"' :: rest => (parseString rest).map fun (s, rest) => (.string s, rest)
  | 'n' :: 'u' :: 'l' :: 'l' :: rest => some (.null, rest)
  | 't' :: 'r' :: 'u' :: 'e' :: rest => some (.bool true, rest)
  | 'f' :: 'a' :: 'l' :: 's' :: 'e' :: rest => some (.bool false, rest)
  | text => (scanNumber text).map fun (literal, rest) => (.number (JsNumber.ofLiteral literal), rest)

mutual

/-- A value and what follows it. The first argument bounds the steps. -/
def parseValue [JsNumber N] : ℕ → List Char → Option (Json N × List Char)
  | 0, _ => none
  | steps + 1, text =>
      match skipWhitespace text with
      | '{' :: rest =>
          match skipWhitespace rest with
          | '}' :: rest => some (.object [], rest)
          | _ => parseMembers steps [] rest
      | '[' :: rest =>
          match skipWhitespace rest with
          | ']' :: rest => some (.array [], rest)
          | _ => parseItems steps [] rest
      | text => parseScalar text

/-- What is left of an array behind some items, the last of them first. -/
def parseItems [JsNumber N] : ℕ → List (Json N) → List Char → Option (Json N × List Char)
  | 0, _, _ => none
  | steps + 1, items, text => do
      let (item, text) ← parseValue steps text
      match skipWhitespace text with
      | ',' :: rest => parseItems steps (item :: items) rest
      | ']' :: rest => return (.array (item :: items).reverse, rest)
      | _ => none

/-- What is left of an object behind some members. -/
def parseMembers [JsNumber N] : ℕ → List (JsUnits × Json N) → List Char →
    Option (Json N × List Char)
  | 0, _, _ => none
  | steps + 1, members, text =>
      match skipWhitespace text with
      | '"' :: rest => do
          let (key, rest) ← parseString rest
          match skipWhitespace rest with
          | ':' :: rest => do
              let (value, rest) ← parseValue steps rest
              match skipWhitespace rest with
              | ',' :: rest => parseMembers steps (set members key value) rest
              | '}' :: rest => return (.object (set members key value), rest)
              | _ => none
          | _ => none
      | _ => none

end

/-- `JSON.parse`, with `none` for an error. A value takes two steps for each of its characters at
most. -/
def parse [JsNumber N] (text : List Char) : Option (Json N) := do
  let (value, rest) ← parseValue (2 * text.length + 1) text
  guard (skipWhitespace rest = [])
  return value

end Json

/-- The numbers of texts in which all numbers are natural ones. -/
instance naturalNumber : JsNumber ℕ where
  ofLiteral digits := digits.foldl (fun n digit => n * 10 + (digit.toNat - 48)) 0
  ofNat n := n
  toText n := Nat.toDigits 10 n
  ofNat_injective := Function.injective_id
  ne_of_mem_toText n c hc := by
    have hdigit := Nat.isDigit_of_mem_toDigits (by decide) (by decide) hc
    constructor
    · rintro rfl
      cases hdigit
    · rintro rfl
      cases hdigit

/-- Indices come first, and an escape is written as what it stands for. -/
example :
  (Json.parse "\x7b\"a\": [1, 20, \x7b\"b\": null\x7d], \"1\": \"x\\u0041\"\x7d".toList :
      Option (Json ℕ)).map Json.stringify =
    some "\x7b\"1\":\"xA\",\"a\":[1,20,\x7b\"b\":null\x7d]\x7d".toList
  := by
  decide +kernel
