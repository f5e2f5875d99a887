import OpencodeToolbelt.Data.Json
import OpencodeToolbelt.Data.Replacing
import OpencodeToolbelt.Data.Utf8

/-!
# Previews of responses

The beginning of a response that goes into a log, and how secrets are masked in it: the matches of
four regular expressions are replaced, one expression after the other.
-/

namespace Preview

open Replacing

/-! ### Reading -/

/-- The loop of `readResponseBodyPreview`: what has been collected, and the chunks to come. -/
def collect (maxChars : ℕ) (decoder : TextDecoder) (collected : JsUnits) :
    List (List UInt8) → JsUnits
  | [] => collected
  | value :: chunks =>
      if maxChars ≤ collected.length then collected
      else
        let (decoder, text) := decoder.decode value
        let collected := collected ++ unitsOfText text
        if maxChars ≤ collected.length then collected.take maxChars
        else collect maxChars decoder collected chunks

/-- The beginning of a response whose body arrives in chunks. -/
def readResponseBodyPreview (chunks : List (List UInt8)) (maxChars : ℕ) : JsUnits :=
  collect maxChars .initial [] chunks

/-! ### Units -/

def quoteMark : UInt16 := 0x22

def backslash : UInt16 := 0x5c

def colon : UInt16 := 0x3a

/-- `\s` -/
def isSpace (u : UInt16) : Bool :=
  (9 ≤ u && u ≤ 13) || u = 0x20 || u = 0xa0 || u = 0x1680 || (0x2000 ≤ u && u ≤ 0x200a) ||
    u = 0x2028 || u = 0x2029 || u = 0x202f || u = 0x205f || u = 0x3000 || u = 0xfeff

/-- `[A-Za-z0-9]` -/
def isAlphanumeric (u : UInt16) : Bool :=
  (48 ≤ u && u ≤ 57) || (65 ≤ u && u ≤ 90) || (97 ≤ u && u ≤ 122)

/-- `\w` -/
def isWord (u : UInt16) : Bool := isAlphanumeric u || u = 0x5f

/-- `\b`, between two units. -/
def isBoundary (before after : Option UInt16) : Bool := before.any isWord != after.any isWord

/-- What `.` does not match. -/
def isLineTerminator (u : UInt16) : Bool := u = 10 || u = 13 || u = 0x2028 || u = 0x2029

/-- A letter in lower case, for the flag `i`. -/
def lower (u : UInt16) : UInt16 := if 65 ≤ u ∧ u ≤ 90 then u + 32 else u

/-! ### Secrets -/

def SECRET_FIELD_NAMES : List String :=
  ["access_token", "refresh_token", "id_token", "client_secret", "client_assertion", "code",
    "device_code", "password", "assertion", "subject_token", "actor_token"]

def REDACTED : JsUnits := unitsOfString "[redacted]"

/-- A literal in any case, as it stands in the text, and what follows it. -/
def literal (expected text : JsUnits) : Option (JsUnits × JsUnits) :=
  if (text.take expected.length).map lower = expected then
    some (text.take expected.length, text.drop expected.length)
  else none

/-- One of the names with a unit behind it. -/
def secretName (behind : UInt16) (text : JsUnits) : Option (JsUnits × JsUnits) :=
  SECRET_FIELD_NAMES.findSome? fun name => literal (unitsOfString name ++ [behind]) text

/-- `\s*:\s*` -/
def separator (text : JsUnits) : Option (JsUnits × JsUnits) :=
  match text.dropWhile isSpace with
  | [] => none
  | u :: rest =>
      if u = colon then
        some (text.takeWhile isSpace ++ colon :: rest.takeWhile isSpace, rest.dropWhile isSpace)
      else none

/-- `(?:\\.|[^"\\])*"`, of which only what follows it is of interest. -/
def closing : JsUnits → Option JsUnits
  | [] => none
  | u :: text =>
      if u = quoteMark then some text
      else if u = backslash then
        match text with
        | [] => none
        | v :: text => if isLineTerminator v then none else closing text
      else closing text

/-- A string behind what a match has begun with. -/
def maskedString (start : JsUnits) : JsUnits → Option (JsUnits × JsUnits)
  | [] => none
  | u :: text =>
      if u = quoteMark then
        (closing text).map fun rest => (start ++ quoteMark :: REDACTED ++ [quoteMark], rest)
      else none

def SECRET_JSON_PATTERN : Pattern UInt16 := fun _ text =>
  match text with
  | [] => none
  | u :: text =>
      if u = quoteMark then
        (secretName quoteMark text).bind fun name =>
          (separator name.2).bind fun between =>
            maskedString (quoteMark :: name.1 ++ between.1) between.2
      else none

/-- `[^&\s]` -/
def isFormValue (u : UInt16) : Bool := u != 0x26 && !isSpace u

def SECRET_FORM_PATTERN : Pattern UInt16 := fun before text =>
  if isBoundary before text.head? then do
    let (name, text) ← secretName 0x3d text
    if text.takeWhile isFormValue = [] then none
    else some (name ++ REDACTED, text.dropWhile isFormValue)
  else none

/-- `[A-Za-z0-9._\-+/=]` -/
def isCredential (u : UInt16) : Bool :=
  isAlphanumeric u || u = 0x2e || u = 0x5f || u = 0x2d || u = 0x2b || u = 0x2f || u = 0x3d

/-- What stands in front of a credential, and the text behind it. -/
def scheme (text : JsUnits) : Option (JsUnits × JsUnits) :=
  ["Bearer", "Basic"].findSome? fun name =>
    if unitsOfString name <+: text then
      some (unitsOfString name, text.drop (unitsOfString name).length)
    else none

def BEARER_PATTERN : Pattern UInt16 := fun before text =>
  if isBoundary before text.head? then do
    let (name, text) ← scheme text
    let credential := text.dropWhile isSpace
    if text.takeWhile isSpace = [] ∨ credential.takeWhile isCredential = [] then none
    else some (name ++ 0x20 :: REDACTED, credential.dropWhile isCredential)
  else none

/-- `[A-Za-z0-9_-]` -/
def isSegment (u : UInt16) : Bool := isWord u || u = 0x2d

/-- `[A-Za-z0-9_-]+\.`: what follows it. -/
def segment (text : JsUnits) : Option JsUnits :=
  if text.takeWhile isSegment = [] then none
  else
    match text.dropWhile isSegment with
    | [] => none
    | u :: rest => if u = 0x2e then some rest else none

/-- `[A-Za-z0-9_-]+\b`: what follows it. The boundary is behind the last unit of a word. -/
def lastSegment (text : JsUnits) : Option JsUnits :=
  let length := ((text.takeWhile isSegment).reverse.dropWhile fun u => !isWord u).length
  if length = 0 then none else some (text.drop length)

def JWT_PATTERN : Pattern UInt16 := fun before text =>
  if isBoundary before text.head? && (unitsOfString "eyJ").isPrefixOf text then do
    let text ← segment (text.drop 3)
    let text ← segment text
    let rest ← lastSegment text
    some (REDACTED, rest)
  else none

def scrubSecrets (text : JsUnits) : JsUnits :=
  if text = [] then text
  else
    replaceAll JWT_PATTERN <| replaceAll BEARER_PATTERN <|
      replaceAll SECRET_FORM_PATTERN <| replaceAll SECRET_JSON_PATTERN text

end Preview
