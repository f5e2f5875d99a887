import OpencodeToolbelt.Data.Numerals
import OpencodeToolbelt.Data.Utf16
import Mathlib.Algebra.Order.Floor.Semiring
import Mathlib.Data.Rat.Floor

/-!
# Reading a page

The part of `pageDispatch` with which an agent looks at a page: `snapshot` and `query` list
elements under refs, which they write into the page, and `getAttribute` inspects an element,
by its ref or by a selector.
-/

namespace Extension

namespace Page

structure Rect where
  x : ℚ
  y : ℚ
  width : ℚ
  height : ℚ
  deriving DecidableEq

/-- An element of the document, with what the actions read of it. -/
structure Element where
  /-- Which node of the page this is. -/
  node : ℕ
  /-- `tagName.toLowerCase()` -/
  tag : String
  /-- Whether it is an instance of `HTMLInputElement`. -/
  isInput : Bool
  attributes : List (String × JsUnits)
  textContent : JsUnits
  /-- The properties `type`, `value`, `checked` and `href`, where the element has them. -/
  type : Option JsUnits
  value : Option JsUnits
  checked : Option Bool
  href : Option JsUnits
  rect : Rect
  /-- The computed style. -/
  visibility : String
  display : String
  opacity : String
  deriving DecidableEq

/-- The elements of a page, in the order of the document. -/
abbrev Document : Type := List Element

/-- What the selectors of the browser select: nothing when a selector is not a valid one. -/
abbrev Css : Type := String → Option (Document → Element → Bool)

/-! ### Elements -/

namespace Element

/-- `getAttribute` of an element of an HTML document. -/
def getAttribute (el : Element) (name : String) : Option JsUnits :=
  el.attributes.lookup (String.ofList (name.toList.map Char.toLower))

def setAttribute (el : Element) (name : String) (value : JsUnits) : Element :=
  { el with
    attributes :=
      if (el.attributes.lookup name).isSome then
        el.attributes.map fun a => if a.1 = name then (name, value) else a
      else el.attributes ++ [(name, value)] }

def removeAttribute (el : Element) (name : String) : Element :=
  { el with attributes := el.attributes.filter fun a => a.1 ≠ name }

/-- The attribute into which refs are written. -/
def REF : String := "data-ocb-ref"

def ref (el : Element) : Option JsUnits := el.attributes.lookup REF

def isVisible (el : Element) : Bool :=
  if el.rect.width = 0 ∧ el.rect.height = 0 then false
  else el.visibility ≠ "hidden" && el.display ≠ "none" && el.opacity ≠ "0"

def isSecret (el : Element) : Bool := el.isInput && el.type = some (unitsOfString "password")

end Element

/-- A value that is neither missing nor empty. -/
def truthy (value : Option JsUnits) : Option JsUnits := value.filter (· ≠ [])

def isBlankUnit (u : UInt16) : Bool := isBlank (charOfUnit u)

def trimUnits (s : JsUnits) : JsUnits :=
  ((s.dropWhile isBlankUnit).reverse.dropWhile isBlankUnit).reverse

/-- `s.replace(/\s+/g, " ")` -/
def collapseBlanks : JsUnits → JsUnits
  | [] => []
  | [u] => if isBlankUnit u then [0x20] else [u]
  | u :: v :: rest =>
      if isBlankUnit u then
        if isBlankUnit v then collapseBlanks (v :: rest) else 0x20 :: collapseBlanks (v :: rest)
      else u :: collapseBlanks (v :: rest)

def SECRET_MASK : JsUnits := unitsOfString "••••••"

def accessibleName (el : Element) : JsUnits :=
  match truthy (el.getAttribute "aria-label") with
  | some aria => trimUnits aria
  | none =>
      match truthy (el.getAttribute "placeholder") with
      | some placeholder => trimUnits placeholder
      | none =>
          let value := if el.isSecret then some [] else el.value
          let txt := trimUnits (collapseBlanks el.textContent)
          (((truthy (some txt)).or (truthy value)).getD []).take 80

/-! ### Refs -/

/-- `${pre}${n}` -/
def refOf (pre : Char) (n : ℕ) : JsUnits := unitsOfText (pre :: writeNumeral 10 n)

/-- The first element that carries a ref: `[data-ocb-ref="…"]`. -/
def byRef (doc : Document) (ref : JsUnits) : Option Element :=
  doc.find? fun el => el.ref = some ref

/-- The element that a target names, unless its selector is not a valid one. -/
def resolveEl (css : Css) (doc : Document) (ref : Option JsUnits) (selector : Option String) :
    Option (Option Element) :=
  match truthy ref with
  | some ref => some (byRef doc ref)
  | none =>
      match nonEmpty selector with
      | some selector => (css selector).map fun matched => doc.find? (matched doc)
      | none => some none

/-- Elements with the refs under which they are listed. -/
abbrev Listing : Type := List (JsUnits × Element)

/-- The refs of a listing are written into the page. -/
def writeRefs (listing : Listing) (doc : Document) : Document :=
  listing.foldl
    (fun doc entry => doc.map fun el =>
      if el.node = entry.2.node then el.setAttribute Element.REF entry.1 else el) doc

/-- The elements that `snapshot` looks at. -/
def isInteractive (el : Element) : Bool :=
  el.tag ∈ ["a", "button", "input", "textarea", "select", "summary", "label"] ||
    (el.getAttribute "role").isSome || (el.getAttribute "onclick").isSome ||
    ((el.getAttribute "tabindex").isSome &&
      el.getAttribute "tabindex" ≠ some (unitsOfString "-1"))

/-- The loop of `snapshot`, after `n` elements have been listed. -/
def snapshotLoop (max : ℚ) : ℕ → Document → Listing
  | _, [] => []
  | n, el :: rest =>
      if max ≤ n ∨ el.isVisible = false then snapshotLoop max n rest
      else (refOf 'e' (n + 1), el) :: snapshotLoop max (n + 1) rest

/-- `values.slice(0, limit)` -/
def sliceTo {α : Type} (limit : ℚ) (values : List α) : List α :=
  if 0 ≤ limit then values.take ⌊limit⌋₊ else values.take (values.length - ⌊-limit⌋₊)

/-- The elements that `query` lists, out of those that match. -/
def queryListing (limit : ℚ) (matched : Document) : Listing :=
  (sliceTo limit (matched.filter Element.isVisible)).zipIdx.map fun p => (refOf 'q' (p.2 + 1), p.1)

/-! ### Actions -/

inductive Action where
  | snapshot (maxNodes : Option ℚ)
  | query (selector : Option String) (limit : Option ℚ)
  | getAttribute (ref : Option JsUnits) (selector : Option String) (name : Option String)

structure QueryElement where
  ref : JsUnits
  tag : String
  text : JsUnits
  href : Option JsUnits
  deriving DecidableEq

structure AttributeInfo where
  tag : String
  text : JsUnits
  value : Option JsUnits
  checked : Option Bool
  /-- `attribute`: the one that was asked for, which may be missing. -/
  asked : Option (Option JsUnits)
  attributes : List (String × JsUnits)
  rect : Rect
  deriving DecidableEq

inductive Reply where
  | snapshot (snapshot : JsUnits) (refs : ℕ)
  | query (elements : List QueryElement)
  | notFound
  | found (info : AttributeInfo)
  /-- The selector is not a valid one. -/
  | thrown
  deriving DecidableEq

/-- The line of a snapshot. -/
def snapshotLine (entry : JsUnits × Element) : JsUnits :=
  let el := entry.2
  let role := (el.getAttribute "role").getD (unitsOfString el.tag)
  let type := (truthy el.type).elim [] fun type => unitsOfString " [" ++ type ++ unitsOfString "]"
  let href := (truthy el.href).elim [] fun href => unitsOfString " → " ++ href
  entry.1 ++ unitsOfString "\t" ++ role ++ type ++ unitsOfString "\t\"" ++ accessibleName el ++
    unitsOfString "\"" ++ href

/-- `lines.join("\n")` -/
def joinLines : List JsUnits → JsUnits
  | [] => []
  | [line] => line
  | line :: lines => line ++ unitsOfString "\n" ++ joinLines lines

def queryElement (entry : JsUnits × Element) : QueryElement where
  ref := entry.1
  tag := entry.2.tag
  text := accessibleName entry.2
  href := truthy entry.2.href

def attributeInfo (el : Element) (name : Option String) : AttributeInfo where
  tag := el.tag
  text := accessibleName el
  value :=
    if el.isSecret then (truthy el.value).map fun _ => SECRET_MASK
    else el.value
  checked := el.checked
  asked :=
    (nonEmpty name).map fun name =>
      if el.isSecret && toLowerCase name.toList = "value".toList then some SECRET_MASK
      else el.getAttribute name
  attributes :=
    el.attributes.map fun a =>
      (a.1, if el.isSecret && a.1 = "value" then SECRET_MASK else a.2)
  rect := el.rect

/-- Whether a ref was given by `query`: `[data-ocb-ref^='q']`. -/
def isQueryRef (ref : Option JsUnits) : Bool := ref.any fun ref => ref.head? = some 0x71

/-- The page once the refs have been removed that an action replaces. -/
def clearRefs (action : Action) (doc : Document) : Document :=
  match action with
  | .snapshot _ => doc.map fun el => el.removeAttribute Element.REF
  | .query _ _ =>
      doc.map fun el => if isQueryRef el.ref then el.removeAttribute Element.REF else el
  | .getAttribute _ _ _ => doc

/-- What an action lists in a page, unless its selector is not a valid one. -/
def listingOf (css : Css) (action : Action) (doc : Document) : Option Listing :=
  match action with
  | .snapshot maxNodes => some (snapshotLoop (maxNodes.getD 200) 0 (doc.filter isInteractive))
  | .query selector limit =>
      (css (selector.getD "*")).map fun matched =>
        queryListing (limit.getD 50) (doc.filter (matched doc))
  | .getAttribute _ _ _ => some []

/-- The answer of an action, given what it has listed. -/
def replyOf (css : Css) (action : Action) (doc : Document) (listing : Option Listing) : Reply :=
  match action with
  | .snapshot _ =>
      let lines := joinLines ((listing.getD []).map snapshotLine)
      .snapshot ((truthy (some lines)).getD (unitsOfString "(no interactive elements found)"))
        (listing.getD []).length
  | .query _ _ =>
      match listing with
      | none => .thrown
      | some listing => .query (listing.map queryElement)
  | .getAttribute ref selector name =>
      match resolveEl css doc ref selector with
      | none => .thrown
      | some none => .notFound
      | some (some el) => .found (attributeInfo el name)

/-- The page that an action leaves. -/
def documentAfter (css : Css) (action : Action) (doc : Document) : Document :=
  let cleared := clearRefs action doc
  writeRefs ((listingOf css action cleared).getD []) cleared

/-- `pageDispatch`: the answer of an action, and the page it leaves. -/
def pageDispatch (css : Css) (action : Action) (doc : Document) : Reply × Document :=
  let cleared := clearRefs action doc
  (replyOf css action cleared (listingOf css action cleared), documentAfter css action doc)

/-! ### A page to run on -/

/-- A button, or a password field. -/
def sampleElement (node : ℕ) (tag : String) (value : Option JsUnits) : Element where
  node
  tag
  isInput := value.isSome
  attributes := []
  textContent := []
  type := value.map fun _ => unitsOfString "password"
  value
  checked := none
  href := none
  rect := ⟨0, 0, 20, 10⟩
  visibility := "visible"
  display := "block"
  opacity := "1"

/-- Every selector selects all the elements. -/
def selectAll : Css := fun _ => some fun _ _ => true

end Page

end Extension
