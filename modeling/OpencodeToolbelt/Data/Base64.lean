import OpencodeToolbelt.Data.Utf8

/-!
# Base64

Bytes as digits of six bits, in the standard alphabet or in the one that is safe in a URL. What is
read may be in either of the two, and characters of neither are skipped.
-/

namespace Base64

/-- The digit of six bits. -/
def digit (urlSafe : Bool) (n : ℕ) : Char :=
  if n < 26 then Char.ofNat (65 + n)
  else if n < 52 then Char.ofNat (71 + n)
  else if n < 62 then Char.ofNat (n - 4)
  else if n = 62 then (if urlSafe then '-' else '+')
  else if urlSafe then '_' else '/'

/-- The six bits of a digit. -/
def sextet (c : Char) : Option ℕ :=
  let n := c.toNat
  if 65 ≤ n ∧ n ≤ 90 then some (n - 65)
  else if 97 ≤ n ∧ n ≤ 122 then some (n - 71)
  else if 48 ≤ n ∧ n ≤ 57 then some (n + 4)
  else if c = '+' ∨ c = '-' then some 62
  else if c = '/' ∨ c = '_' then some 63
  else none

/-- What fills up the last four characters, which are left out of a URL. -/
def padding (urlSafe : Bool) (n : ℕ) : List Char := if urlSafe then [] else List.replicate n '='

/-- `buffer.toString("base64")`, or `"base64url"` -/
def encode (urlSafe : Bool) : List UInt8 → List Char
  | a :: b :: c :: rest =>
      digit urlSafe (a.toNat / 4) :: digit urlSafe (a.toNat % 4 * 16 + b.toNat / 16) ::
        digit urlSafe (b.toNat % 16 * 4 + c.toNat / 64) :: digit urlSafe (c.toNat % 64) ::
          encode urlSafe rest
  | [a, b] =>
      digit urlSafe (a.toNat / 4) :: digit urlSafe (a.toNat % 4 * 16 + b.toNat / 16) ::
        digit urlSafe (b.toNat % 16 * 4) :: padding urlSafe 1
  | [a] => digit urlSafe (a.toNat / 4) :: digit urlSafe (a.toNat % 4 * 16) :: padding urlSafe 2
  | [] => []

/-- The bytes of some sextets. Bits that make up no byte are left out. -/
def bytesOf : List ℕ → List UInt8
  | a :: b :: c :: d :: rest =>
      .ofNat (a * 4 + b / 16) :: .ofNat (b % 16 * 16 + c / 4) :: .ofNat (c % 4 * 64 + d) ::
        bytesOf rest
  | [a, b, c] => [.ofNat (a * 4 + b / 16), .ofNat (b % 16 * 16 + c / 4)]
  | [a, b] => [.ofNat (a * 4 + b / 16)]
  | _ => []

/-- `Buffer.from(text, "base64")`, which is the same for both alphabets -/
def decode (text : List Char) : List UInt8 := bytesOf (text.filterMap sextet)

/-- Texts with the same digits, whatever else stands between and behind them. -/
def SameDigits (text text' : List Char) : Prop := text.filterMap sextet = text'.filterMap sextet

instance (text text' : List Char) : Decidable (SameDigits text text') :=
  inferInstanceAs (Decidable (_ = _))

@[simp]
theorem sextet_digit (urlSafe : Bool) {n : ℕ} (h : n < 64) :
  sextet (digit urlSafe n) = some n
  := by
  have hall : ∀ n < 64, sextet (digit urlSafe n) = some n := by
    cases urlSafe with
    | false => decide
    | true => decide
  apply hall n h

theorem filterMap_padding (urlSafe : Bool) (n : ℕ) :
  (padding urlSafe n).filterMap sextet = []
  := by
  cases urlSafe with
  | true => rfl
  | false =>
      apply List.filterMap_eq_nil_iff.mpr
      intro c hc
      rw [List.eq_of_mem_replicate hc]
      decide

theorem filterMap_digit (urlSafe : Bool) {n : ℕ} (h : n < 64) (text : List Char) :
  (digit urlSafe n :: text).filterMap sextet = n :: text.filterMap sextet
  := List.filterMap_cons_some (sextet_digit urlSafe h)

/-- A byte is the one that a number is the value of. -/
theorem ofNat_eq {byte : UInt8} {n : ℕ} (h : n = byte.toNat) :
  UInt8.ofNat n = byte
  := by rw [h, UInt8.ofNat_toNat]

/-- Bytes are read from their digits. -/
theorem decode_encode (urlSafe : Bool) (bytes : List UInt8) :
  decode (encode urlSafe bytes) = bytes
  := by
  unfold decode
  induction bytes using encode.induct with
  | case1 a b c rest ih =>
      have ha := a.toNat_lt
      have hb := b.toNat_lt
      have hc := c.toNat_lt
      rw [encode, filterMap_digit _ (by omega), filterMap_digit _ (by omega),
        filterMap_digit _ (by omega), filterMap_digit _ (by omega), bytesOf, ih,
        @ofNat_eq a _ (by omega), @ofNat_eq b _ (by omega),
        @ofNat_eq c _ (by omega)]
  | case2 a b =>
      have ha := a.toNat_lt
      have hb := b.toNat_lt
      rw [encode, filterMap_digit _ (by omega), filterMap_digit _ (by omega),
        filterMap_digit _ (by omega), filterMap_padding, bytesOf, @ofNat_eq a _ (by omega),
        @ofNat_eq b _ (by omega)]
  | case3 a =>
      have ha := a.toNat_lt
      rw [encode, filterMap_digit _ (by omega), filterMap_digit _ (by omega), filterMap_padding,
        bytesOf, @ofNat_eq a _ (by omega)]
  | case4 => rfl

/-- Bytes are read from any text with their digits. -/
theorem decode_of_sameDigits {urlSafe : Bool} {bytes : List UInt8} {text : List Char}
    (h : SameDigits text (encode urlSafe bytes)) :
  decode text = bytes
  := by
  rw [decode, h]
  apply decode_encode

end Base64
