import OpencodeToolbelt.Data.Base64
import OpencodeToolbelt.Data.Percent
import OpencodeToolbelt.Data.Rereading
import OpencodeToolbelt.Devtools.Identifiers
import OpencodeToolbelt.Devtools.ToolSpec

/-!
# Encoding and decoding

The tools that write a text in another form and read it again: base64, hexadecimal digits,
compressed bytes, percent-encoding, and the parts of a JSON Web Token.
-/

namespace Devtools

open Identifiers (hex unhex)

/-! ### Buffers -/

/-- `Buffer.from(s, "utf8")` -/
def bufferOf (s : JsUnits) : List UInt8 := utf8Encode (wellFormedText s)

/-- `buffer.toString("utf8")` -/
def bufferText (bytes : List UInt8) : JsUnits :=
  let (decoder, text) := Utf8Decoder.initial.decode bytes
  unitsOfText (text ++ decoder.finish)

/-- What `node:zlib` does with bytes. Bytes are decompressed as what was compressed, if they are
not more than the limit says. -/
structure Zlib where
  /-- `gzipSync`, or `deflateRawSync` -/
  compress : (deflate : Bool) → List UInt8 → List UInt8
  /-- `gunzipSync`, or `inflateRawSync`, with `maxOutputLength` -/
  decompress : (deflate : Bool) → ℕ → List UInt8 → Except String (List UInt8)
  decompress_compress : ∀ {deflate : Bool} {limit : ℕ} {bytes : List UInt8},
    bytes.length ≤ limit → decompress deflate limit (compress deflate bytes) = .ok bytes

def MAX_DECOMPRESSED_BYTES : ℕ := 50000000

/-! ### The tools -/

section Tools

variable {N : Type}

/-- `args[key] === true` -/
def isTrue (args : Args N) (key : String) : Bool := optBool args key = some true

def codecBase64 (args : Args N) : Except String (NeutralResult N) := do
  let mode ← reqString args "mode"
  let input ← reqString args "input"
  if mode = unitsOfString "encode" then
    return .text (unitsOfText (Base64.encode (isTrue args "urlSafe") (bufferOf input)))
  else return .text (bufferText (Base64.decode (wellFormedText input)))

/-- A digit of `[0-9a-fA-F]`. -/
def isHexUnit (u : UInt16) : Bool := isDigitIn 16 (charOfUnit u)

/-- `input.replace(/\s+/g, "")` -/
def withoutBlanks (input : JsUnits) : JsUnits := input.filter fun u => !isBlank (charOfUnit u)

def codecHex (args : Args N) : Except String (NeutralResult N) := do
  let mode ← reqString args "mode"
  let input ← reqString args "input"
  if mode = unitsOfString "encode" then return .text (unitsOfText (hex (bufferOf input)))
  else
    let cleaned := withoutBlanks input
    if cleaned.length % 2 ≠ 0 ∨ ¬cleaned.all isHexUnit then
      throw "invalid hex: expected an even number of [0-9a-f] digits"
    else return .text (bufferText (unhex (wellFormedText cleaned)))

/-- The error of `encodeURIComponent` and its like. -/
def uriText (s : Option JsUnits) : Except String (NeutralResult N) :=
  match s with
  | some s => .ok (.text s)
  | none => .error "URI malformed"

/-- `args.component !== false` -/
def isComponent (args : Args N) : Bool := optBool args "component" ≠ some false

def codecUrl (args : Args N) : Except String (NeutralResult N) := do
  let mode ← reqString args "mode"
  let input ← reqString args "input"
  let component := isComponent args
  if mode = unitsOfString "encode" then
    uriText (if component then Percent.encodeURIComponent input else Percent.encodeURI input)
  else uriText (if component then Percent.decodeURIComponent input else Percent.decodeURI input)

/-- `args.algorithm === "deflate"` -/
def isDeflate (args : Args N) : Bool := optString args "algorithm" = some (unitsOfString "deflate")

def codecGzip [JsNumber N] (zlib : Zlib) (args : Args N) : Except String (NeutralResult N) := do
  let mode ← reqString args "mode"
  let input ← reqString args "input"
  let deflate := isDeflate args
  if mode = unitsOfString "compress" then
    let raw := bufferOf input
    let out := zlib.compress deflate raw
    let base64 := unitsOfText (Base64.encode false out)
    return .json (.object [
      (unitsOfString "algorithm", .string (unitsOfString (if deflate then "deflate" else "gzip"))),
      (unitsOfString "base64", .string base64),
      (unitsOfString "originalBytes", .number (JsNumber.ofNat raw.length)),
      (unitsOfString "compressedBytes", .number (JsNumber.ofNat out.length))]) base64
  else
    let compressed := Base64.decode (wellFormedText input)
    let out ← zlib.decompress deflate MAX_DECOMPRESSED_BYTES compressed
    return .text (bufferText out)

end Tools

/-! ### Tokens -/

section Tokens

variable {N : Type} [JsNumber N]

mutual

/-- `JSON.stringify(value, null, 2)`, behind as many blanks as the first argument says. -/
def stringifyIndented (indent : ℕ) : Json N → List Char
  | .array [] => "[]".toList
  | .array (item :: items) =>
      '[' :: '\n' :: indentedItems (indent + 2) (item :: items) ++
        '\n' :: List.replicate indent ' ' ++ [']']
  | .object [] => "\x7b\x7d".toList
  | .object (member :: members) =>
      '\x7b' :: '\n' :: indentedMembers (indent + 2) (member :: members) ++
        '\n' :: List.replicate indent ' ' ++ ['\x7d']
  | value => Json.stringify value

def indentedItems (indent : ℕ) : List (Json N) → List Char
  | [] => []
  | [item] => List.replicate indent ' ' ++ stringifyIndented indent item
  | item :: items =>
      List.replicate indent ' ' ++ stringifyIndented indent item ++
        ',' :: '\n' :: indentedItems indent items

def indentedMembers (indent : ℕ) : List (JsUnits × Json N) → List Char
  | [] => []
  | [(key, value)] =>
      List.replicate indent ' ' ++ Json.quote key ++ ':' :: ' ' :: stringifyIndented indent value
  | (key, value) :: members =>
      List.replicate indent ' ' ++ Json.quote key ++ ':' :: ' ' :: stringifyIndented indent value ++
        ',' :: '\n' :: indentedMembers indent members

end

/-- `JSON.parse(Buffer.from(segment, "base64url").toString("utf8"))` -/
def decodeSegment (segment : List Char) : Except String (Json N) :=
  match Json.parse (wellFormedText (bufferText (Base64.decode segment))) with
  | some value => .ok value
  | none => .error "SyntaxError"

/-- The token without the blanks around it, split at its dots. -/
def tokenParts (token : JsUnits) : List (List Char) :=
  (trim (String.ofList (wellFormedText token))).toList.splitOn '.'

/-- The claims of a token that is split into its parts. -/
def decodeParts : List (List Char) → Except String (NeutralResult N)
  | headerPart :: payloadPart :: rest => do
      let header : Json N ← decodeSegment headerPart
      let payload : Json N ← decodeSegment payloadPart
      let signaturePresent := rest.head?.any (0 < ·.length)
      return .json (.object [
        (unitsOfString "header", header),
        (unitsOfString "payload", payload),
        (unitsOfString "signaturePresent", .bool signaturePresent),
        (unitsOfString "verified", .bool false)])
        (unitsOfText ("Decoded JWT (UNVERIFIED):\nheader: ".toList ++ Json.stringify header ++
          "\npayload: ".toList ++ stringifyIndented 0 payload))
  | _ => .error "not a JWT: expected at least header.payload"

def codecJwtDecode (args : Args N) : Except String (NeutralResult N) := do
  let token ← reqString args "token"
  decodeParts (tokenParts token)

end Tokens

end Devtools
