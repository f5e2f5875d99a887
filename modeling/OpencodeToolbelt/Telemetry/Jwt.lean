import OpencodeToolbelt.Data.Json
import OpencodeToolbelt.Data.Utf8
import Mathlib.Algebra.Order.Ring.Unbundled.Rat

/-!
# The expiry of a token

When a JSON Web Token says that it expires. The signature is not looked at.
-/

namespace Telemetry

/-! ### Base64 -/

/-- The six bits of a character of the alphabet. -/
def sextet (c : Char) : Option ℕ :=
  let n := c.toNat
  if 65 ≤ n ∧ n ≤ 90 then some (n - 65)
  else if 97 ≤ n ∧ n ≤ 122 then some (n - 71)
  else if 48 ≤ n ∧ n ≤ 57 then some (n + 4)
  else if c = '+' then some 62
  else if c = '/' then some 63
  else none

/-- The bytes of some sextets. Bits that make up no byte are left out. -/
def sextetBytes : List ℕ → List UInt8
  | a :: b :: c :: d :: rest =>
      .ofNat (a * 4 + b / 16) :: .ofNat (b % 16 * 16 + c / 4) :: .ofNat (c % 4 * 64 + d) ::
        sextetBytes rest
  | [a, b, c] => [.ofNat (a * 4 + b / 16), .ofNat (b % 16 * 16 + c / 4)]
  | [a, b] => [.ofNat (a * 4 + b / 16)]
  | _ => []

/-- `Buffer.from(text, "base64")`, which skips what is not of the alphabet. -/
def fromBase64 (text : List Char) : List UInt8 := sextetBytes (text.filterMap sextet)

/-- `buffer.toString("utf8")` -/
def utf8Text (bytes : List UInt8) : List Char :=
  let (decoder, text) := Utf8Decoder.initial.decode bytes
  text ++ decoder.finish

/-! ### Tokens -/

def base64UrlToBase64 (c : Char) : Char := if c = '-' then '+' else if c = '_' then '/' else c

/-- The `=` that are missing at the end of a payload. -/
def padding (payload : List Char) : List Char :=
  List.replicate ((4 - payload.length % 4) % 4) '='

variable {N : Type} [JsNumber N]

/-- The `exp` of a payload, in milliseconds. Numbers that are infinite have no value. -/
def expiryOf (finite : N → Option ℚ) : Option (Json N) → Option ℚ
  | some (.object members) =>
      match Json.get members (unitsOfString "exp") with
      | some (.number exp) => (finite exp).map (· * 1000)
      | _ => none
  | _ => none

def readJwtExpiry (finite : N → Option ℚ) (token : String) : Option ℚ :=
  match token.toList.splitOn '.' with
  | [_, part, _] =>
      let payload := part.map base64UrlToBase64
      expiryOf finite (Json.parse (utf8Text (fromBase64 (payload ++ padding payload))))
  | _ => none

/-- A token that expires at the beginning of time. -/
example : readJwtExpiry (fun n : ℕ => some (n : ℚ)) "e30.eyJleHAiOjB9.c2ln" = some 0 := by
  decide +kernel

end Telemetry
