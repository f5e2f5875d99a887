import OpencodeToolbelt.Data.JsMap
import OpencodeToolbelt.Data.JsString
import OpencodeToolbelt.Data.Json

/-!
# The index injector

The injector goes through the blocks of a stream of Responses events. An event that lacks its
`output_index` gets the number of its item, in the order in which the items have been added.
-/

namespace ResponsesRepair

/-! ### Blocks -/

def eventPrefix : List Char := ['e', 'v', 'e', 'n', 't', ':']

def dataPrefix : List Char := ['d', 'a', 't', 'a', ':']

def isLineBreak (c : Char) : Bool := c = '\r' || c = '\n'

/-- What follows a text at the beginning of another one. -/
def stripStart (start text : List Char) : Option (List Char) :=
  if start.isPrefixOf text then some (text.drop start.length) else none

/-- The name on an `event:` line, from behind the colon, and what follows the line. -/
def matchEventLine (text : List Char) : Option (List Char × List Char) :=
  let text := text.dropWhile isBlank
  let name := text.takeWhile fun c => !isBlank c
  let text := (text.dropWhile fun c => !isBlank c).dropWhile fun c => isBlank c && !isLineBreak c
  if name = [] ∨ text.takeWhile isLineBreak = [] then none
  else some (name, text.dropWhile isLineBreak)

/-- The object on a `data:` line that ends the text. -/
def matchData (text : List Char) : Option (List Char) := do
  let text ← stripStart dataPrefix text
  let text := ((text.dropWhile isBlank).reverse.dropWhile isBlank).reverse
  if text.head? = some '{' ∧ text.getLast? = some '}' then some text else none

/-- What `BLOCK_RE` matches: the name of the event, if there is one, and its data. -/
def matchBlock (block : List Char) : Option (Option (List Char) × List Char) :=
  match stripStart eventPrefix block with
  | some text => do
      let (name, text) ← matchEventLine text
      let data ← matchData text
      return (some name, data)
  | none => do
      let data ← matchData block
      return (none, data)

/-! ### Events -/

section Events

variable {N : Type}

/-- The members of the JSON object that an event is. -/
abbrev ResponsesEvent (N : Type) := List (JsUnits × Json N)

namespace ResponsesEvent

variable (event : ResponsesEvent N)

def type : JsUnits := (Json.getString event (unitsOfString "type")).getD []

/-- The item that an event names. -/
def itemId : Option JsUnits :=
  (Json.getString (Json.getObject event (unitsOfString "item")) (unitsOfString "id")).or
    (Json.getString event (unitsOfString "item_id"))

/-- The item that an event names, unless its id is empty. -/
def namedItem : Option JsUnits := event.itemId.filter (· ≠ [])

def outputIndex : Option (Json N) := Json.get event (unitsOfString "output_index")

/-- Whether an event adds an item. -/
def adds : Bool := event.type = unitsOfString "response.output_item.added"

/-- Whether `CONTENT_EVENT` matches the type of an event. -/
def isContent : Bool :=
  [unitsOfString "content_part", unitsOfString "output_text", unitsOfString "reasoning_text"].any
    fun text => text <:+: event.type

end ResponsesEvent

end Events

/-! ### The injector -/

structure IndexInjector where
  outputIndex : JsMap JsUnits ℕ
  nextIndex : ℕ

namespace IndexInjector

variable {N : Type} [JsNumber N]

def initial : IndexInjector := ⟨.empty, 0⟩

/-- An item that is added gets the next number. -/
def register (s : IndexInjector) (event : ResponsesEvent N) : IndexInjector :=
  match event.namedItem with
  | none => s
  | some itemId =>
      if event.adds ∧ s.outputIndex.has itemId = false then
        { outputIndex := s.outputIndex.set itemId s.nextIndex, nextIndex := s.nextIndex + 1 }
      else s

/-- An event of an item with a number gets it, unless it has an index. -/
def setOutputIndex (s : IndexInjector) (event : ResponsesEvent N) : ResponsesEvent N :=
  match event.namedItem.bind s.outputIndex.get with
  | none => event
  | some index =>
      if event.outputIndex.isNone then
        Json.set event (unitsOfString "output_index") (.number (JsNumber.ofNat index))
      else event

/-- A content event without an index gets the index 0. -/
def setContentIndex (event : ResponsesEvent N) : ResponsesEvent N :=
  if event.isContent ∧ (Json.get event (unitsOfString "content_index")).isNone then
    Json.set event (unitsOfString "content_index") (.number (JsNumber.ofNat 0))
  else event

/-- What becomes of an event. -/
def inject (s : IndexInjector) (event : ResponsesEvent N) : ResponsesEvent N × IndexInjector :=
  let s := s.register event
  (setContentIndex (s.setOutputIndex event), s)

/-- What becomes of the events of a stream. -/
def injectAll (s : IndexInjector) : List (ResponsesEvent N) → List (ResponsesEvent N)
  | [] => []
  | event :: events =>
      let (event, s) := s.inject event
      event :: s.injectAll events

variable (N)

/-- The event in a block, with the name on its `event:` line. -/
def eventOf (block : List Char) : Option (Option (List Char) × ResponsesEvent N) :=
  match matchBlock block with
  | none => none
  | some (name, data) =>
      match Json.parse data with
      | some (.object event) => some (name, event)
      | _ => none

/-- A block is written with what becomes of its event, and passed through if it has none. -/
def render (s : IndexInjector) (block : List Char) : List Char × IndexInjector :=
  match eventOf N block with
  | none => (block, s)
  | some (name, event) =>
      let (event, s) := s.inject event
      let eventLine := name.elim [] fun name => "event: ".toList ++ name ++ ['\n']
      (eventLine ++ "data: ".toList ++ Json.stringify (.object event) ++ ['\n', '\n'], s)

end IndexInjector

end ResponsesRepair
