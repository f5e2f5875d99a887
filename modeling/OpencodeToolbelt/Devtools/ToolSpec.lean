import OpencodeToolbelt.Data.Json

/-!
# Tools

The arguments that a tool is called with, how it asks for them, and what it answers.
-/

namespace Devtools

/-- The arguments of a call, the members of an object. -/
abbrev Args (N : Type) := List (JsUnits × Json N)

/-- What a tool answers, whatever it is registered with. -/
inductive NeutralResult (N : Type) where
  | text (text : JsUnits)
  | json (data : Json N) (text : JsUnits)

variable {N : Type}

/-- What can be read of a result. -/
def NeutralResult.output : NeutralResult N → JsUnits
  | .text s => s
  | .json _ s => s

def optString (args : Args N) (key : String) : Option JsUnits :=
  Json.getString args (unitsOfString key)

def reqString (args : Args N) (key : String) : Except String JsUnits :=
  match optString args key with
  | some s => .ok s
  | none => .error ("\"" ++ key ++ "\" must be a string")

def optBool (args : Args N) (key : String) : Option Bool :=
  match Json.get args (unitsOfString key) with
  | some (.bool b) => some b
  | _ => none

theorem reqString_of_some {args : Args N} {key : String} {s : JsUnits}
    (h : optString args key = some s) :
  reqString args key = .ok s
  := by rw [reqString, h]

end Devtools
