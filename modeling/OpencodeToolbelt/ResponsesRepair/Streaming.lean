import OpencodeToolbelt.Data.Utf8
import OpencodeToolbelt.ResponsesRepair.Injector

/-!
# The repair of a stream

The repair has a form for a whole text, which it splits behind every blank line, and a form for a
stream of bytes, which takes one frame after another out of a buffer.
-/

namespace ResponsesRepair

/-! ### Frames -/

/-- The length of a blank line that a text begins with. -/
def boundaryLength (text : List Char) : ℕ :=
  if ['\r', '\n', '\r', '\n'].isPrefixOf text then 4
  else if ['\n', '\n'].isPrefixOf text then 2
  else 0

/-- The text up to the end of the first blank line, and what follows it. -/
def takeFrame : List Char → Option (List Char × List Char)
  | [] => none
  | c :: rest =>
      if boundaryLength (c :: rest) = 0 then
        (takeFrame rest).map fun (frame, rest) => (c :: frame, rest)
      else some ((c :: rest).splitAt (boundaryLength (c :: rest)))

theorem length_takeFrame {text frame rest : List Char} (h : takeFrame text = some (frame, rest)) :
  rest.length < text.length
  := by
  induction text generalizing frame rest with
  | nil => cases h
  | cons c text ih =>
      rw [takeFrame] at h
      split at h
      · obtain ⟨⟨frame', rest'⟩, h', heq⟩ := Option.map_eq_some_iff.mp h
        cases heq
        exact Nat.lt_succ_of_lt (ih h')
      · next hne =>
          rw [List.splitAt_eq] at h
          obtain ⟨-, rfl⟩ := Prod.mk.inj (Option.some.inj h)
          rw [List.length_drop, List.length_cons]
          omega

/-- Whether a text ends with a blank line. The text is given from its end. -/
def endsBoundary : List Char → Bool
  | '\n' :: '\n' :: _ => true
  | '\n' :: '\r' :: '\n' :: '\r' :: _ => true
  | _ => false

/-- `input.split(/(?<=\r\n\r\n|\n\n)/)`, from some point on: what stands behind that point and
the piece in progress are given from their ends. -/
def splitBehind (behind piece : List Char) : List Char → List (List Char)
  | [] => [piece.reverse]
  | c :: rest =>
      if rest ≠ [] ∧ endsBoundary (c :: behind) then
        (c :: piece).reverse :: splitBehind (c :: behind) [] rest
      else splitBehind (c :: behind) (c :: piece) rest

section Repair

variable (N : Type) [JsNumber N]

/-- What becomes of some blocks, one after another. -/
def renderAll (s : IndexInjector) : List (List Char) → List Char
  | [] => []
  | block :: blocks => (s.render N block).1 ++ renderAll (s.render N block).2 blocks

def repairResponsesSseText (input : List Char) : List Char :=
  renderAll N .initial (splitBehind [] [] input)

/-! ### The stream -/

structure RepairStream where
  decoder : TextDecoder
  buffer : List Char
  injector : IndexInjector

namespace RepairStream

def initial : RepairStream := ⟨.initial, [], .initial⟩

/-- The frames in the buffer are rendered. What is left of the buffer comes last. -/
def drain (injector : IndexInjector) (buffer : List Char) :
    List Char × IndexInjector × List Char :=
  match _h : takeFrame buffer with
  | none => ([], injector, buffer)
  | some (frame, buffer) =>
      let (out, injector) := injector.render N frame
      let (rest, injector, buffer) := drain injector buffer
      (out ++ rest, injector, buffer)
termination_by buffer.length
decreasing_by
  apply length_takeFrame
  assumption

/-- A chunk arrives: what the stream writes, and the stream after it. -/
def transform (s : RepairStream) (chunk : List UInt8) : List UInt8 × RepairStream :=
  let (decoder, text) := s.decoder.decode chunk
  let (out, injector, buffer) := drain N s.injector (s.buffer ++ text)
  (utf8Encode out, ⟨decoder, buffer, injector⟩)

/-- What the stream writes at the end. -/
def flush (s : RepairStream) : List UInt8 :=
  let buffer := s.buffer ++ s.decoder.finish
  if buffer = [] then [] else utf8Encode (s.injector.render N buffer).1

/-- What the stream writes for some chunks. -/
def run (s : RepairStream) : List (List UInt8) → List UInt8
  | [] => s.flush N
  | chunk :: chunks => (s.transform N chunk).1 ++ run (s.transform N chunk).2 chunks

end RepairStream

def makeResponsesRepairStream (chunks : List (List UInt8)) : List UInt8 :=
  RepairStream.initial.run N chunks

end Repair

end ResponsesRepair
