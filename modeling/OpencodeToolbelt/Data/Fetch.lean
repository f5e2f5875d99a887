import OpencodeToolbelt.Data.Utf8
import Mathlib.Logic.Function.Basic

/-!
# Fetch

Requests, responses and the calls of `fetch`. The body of a request can be read once, whereas a
body that an `init` brings can be sent again unless it is a stream.
-/

namespace Fetch

/-- A `Headers` object: the values of the names, which are in lower case. -/
abbrev Headers := String → Option String

namespace Headers

def empty : Headers := fun _ => none

def has (headers : Headers) (name : String) : Bool := (headers name).isSome

def set (headers : Headers) (name value : String) : Headers :=
  Function.update headers name (some value)

theorem set_self (headers : Headers) (name value : String) :
  headers.set name value name = some value
  := by
  apply Function.update_self

/-- A header that is set only if there is none of its name. -/
def setMissing (headers : Headers) (name value : String) : Headers :=
  if headers.has name then headers else headers.set name value

theorem setMissing_self (headers : Headers) (name value : String) :
  headers.setMissing name value name = some ((headers name).getD value)
  := by
  unfold setMissing has
  cases h : headers name with
  | none => apply set_self
  | some v => apply h

theorem setMissing_of_ne (headers : Headers) {name other : String} (value : String)
    (h : other ≠ name) :
  headers.setMissing name value other = headers other
  := by
  unfold setMissing
  split
  · rfl
  · apply Function.update_of_ne h

end Headers

/-! ### Requests -/

/-- What the body of a request comes from. -/
inductive Source where
  /-- The stream in the `init` of a call. -/
  | init
  /-- The body of a request, after it has been cloned; the numbers tell its clones apart. -/
  | request (clones : List ℕ)
deriving DecidableEq

/-- The body of a request. -/
structure Readable where
  content : List UInt8
  clones : List ℕ

/-- The body in an `init`. -/
inductive BodyInit where
  | text (text : String)
  /-- Bytes, a form and the like, with the type that they have. -/
  | value (content : List UInt8) (type : Option String)
  | stream (content : List UInt8)

namespace BodyInit

def content : BodyInit → List UInt8
  | .text s => utf8Encode s.toList
  | .value bytes _ => bytes
  | .stream bytes => bytes

/-- The content type of a body that comes without one. -/
def type : BodyInit → Option String
  | .text _ => some "text/plain;charset=UTF-8"
  | .value _ t => t
  | .stream _ => none

/-- What can be read once only. -/
def source : BodyInit → Option Source
  | .stream _ => some .init
  | _ => none

end BodyInit

structure Request where
  url : String
  method : String
  headers : Headers
  body : Option Readable

/-- `request.clone()`, the clone of a given number. -/
def Request.clone (request : Request) (number : ℕ) : Request :=
  { request with
    body := request.body.map fun body => { body with clones := number :: body.clones } }

/-- The first argument of `fetch`. -/
inductive Input where
  | text (url : String)
  | url (href : String)
  | request (request : Request)

/-- The second argument of `fetch`. -/
structure Init where
  method : Option String
  headers : Option Headers
  body : Option BodyInit

namespace Init

def empty : Init := ⟨none, none, none⟩

end Init

namespace Input

def request? : Input → Option Request
  | .request r => some r
  | _ => none

def urlOf : Input → String
  | .text u => u
  | .url href => href
  | .request r => r.url

/-- The headers of a `Request`, and none for anything else. -/
def headers (input : Input) : Headers := (input.request?.map Request.headers).getD .empty

/-- The clones that the body of a `Request` comes from. -/
def clones? (input : Input) : Option (List ℕ) :=
  (input.request?.bind Request.body).map Readable.clones

/-- A `Request` is cloned, and anything else is as it was. -/
def clone (number : ℕ) : Input → Input
  | .request r => .request (r.clone number)
  | input => input

end Input

/-- The request that a call of `fetch` makes. -/
structure Outgoing where
  url : String
  method : String
  headers : Headers
  body : Option (List UInt8)
  source : Option Source

/-- A body brings its content type along unless there is one. -/
def withType (body : Option BodyInit) (headers : Headers) : Headers :=
  (body.bind BodyInit.type).elim headers fun type => headers.setMissing "content-type" type

theorem withType_apply (body : Option BodyInit) (headers : Headers) (name : String) :
  withType body headers name =
    (headers name).or (if name = "content-type" then body.bind BodyInit.type else none)
  := by
  unfold withType
  by_cases hname : name = "content-type"
  · rw [if_pos hname, hname]
    cases body.bind BodyInit.type with
    | none => rw [Option.or_none, Option.elim]
    | some type =>
        rw [Option.elim, Headers.setMissing_self]
        cases headers "content-type" <;> rfl
  · rw [if_neg hname, Option.or_none]
    cases body.bind BodyInit.type with
    | none => rfl
    | some type => apply Headers.setMissing_of_ne _ _ hname

/-- `new Request(input, init)` -/
def outgoing (input : Input) (init : Init) : Outgoing where
  url := input.urlOf
  method := (init.method.or (input.request?.map Request.method)).getD "GET"
  headers := withType init.body (init.headers.getD input.headers)
  body :=
    (init.body.map BodyInit.content).or
      ((input.request?.bind Request.body).map Readable.content)
  source := init.body.elim (input.clones?.map Source.request) BodyInit.source

/-- A clone makes the same request, from a source of its own. -/
theorem outgoing_clone (input : Input) (init : Init) (number : ℕ) :
  outgoing (input.clone number) init =
    { outgoing input init with source := (outgoing (input.clone number) init).source }
  := by
  cases input with
  | text url => rfl
  | url href => rfl
  | request request =>
      obtain ⟨url, method, headers, body⟩ := request
      cases body <;> rfl

/-! ### Responses -/

structure Response where
  status : ℕ
  statusText : String
  headers : Headers
  /-- The chunks in which the body arrives. -/
  body : Option (List (List UInt8))

end Fetch
