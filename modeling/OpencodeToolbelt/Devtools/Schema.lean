import OpencodeToolbelt.Data.JsonSchema

/-!
# The arguments of tools

What a tool says of its arguments, and the two forms that this is turned into: a JSON Schema, and
a schema of the validation library that the host comes with.
-/

namespace Devtools

/-- What a tool says of an argument. -/
inductive Field where
  | string (description : Option String) (optional : Bool) (enum : Option (List JsUnits))
  | number (description : Option String) (optional : Bool)
  | boolean (description : Option String) (optional : Bool)
  | array (description : Option String) (optional : Bool) (items : Field)
  | object (description : Option String) (optional : Bool) (properties : List (JsUnits × Field))
  | record (description : Option String) (optional : Bool) (any : Bool)

/-- The arguments of a tool, in the order in which they are enumerated. -/
abbrev JsonInput := List (JsUnits × Field)

namespace Field

def description : Field → Option String
  | string description _ _ => description
  | number description _ => description
  | boolean description _ => description
  | array description _ _ => description
  | object description _ _ => description
  | record description _ _ => description

def optional : Field → Bool
  | string _ optional _ => optional
  | number _ optional => optional
  | boolean _ optional => optional
  | array _ optional _ => optional
  | object _ optional _ => optional
  | record _ optional _ => optional

/-- The type that a JSON Schema gives to an argument. -/
def type : Field → String
  | string _ _ _ => "string"
  | number _ _ => "number"
  | boolean _ _ => "boolean"
  | array _ _ _ => "array"
  | object _ _ _ => "object"
  | record _ _ _ => "object"

end Field

/-! ### JSON Schema -/

section JsonSchemas

variable {N : Type}

/-- The keywords that all schemas have. -/
def described (field : Field) : List (JsUnits × Json N) :=
  (unitsOfString "type", .string (unitsOfString field.type)) ::
    match nonEmpty field.description with
    | some text => [(unitsOfString "description", .string (unitsOfString text))]
    | none => []

/-- The arguments that cannot be left out. -/
def requiredKeys (input : JsonInput) : List (Json N) :=
  (input.filter fun entry => !entry.2.optional).map fun entry => .string entry.1

mutual

def fieldToJsonSchema : Field → Json N
  | .string d o enum =>
      .object (described (.string d o enum) ++
        match enum with
        | some values => [(unitsOfString "enum", .array (values.map .string))]
        | none => [])
  | .number d o => .object (described (.number d o))
  | .boolean d o => .object (described (.boolean d o))
  | .array d o items =>
      .object (described (.array d o items) ++ [(unitsOfString "items", fieldToJsonSchema items)])
  | .object d o properties =>
      .object (described (.object d o properties) ++
        [(unitsOfString "properties", .object (propertySchemas properties)),
          (unitsOfString "required", .array (requiredKeys properties)),
          (unitsOfString "additionalProperties", .bool false)])
  | .record d o any =>
      .object (described (.record d o any) ++
        [(unitsOfString "additionalProperties",
          if any then .bool true
          else .object [(unitsOfString "type", .string (unitsOfString "string"))])])

def propertySchemas : List (JsUnits × Field) → List (JsUnits × Json N)
  | [] => []
  | (key, field) :: properties => (key, fieldToJsonSchema field) :: propertySchemas properties

end

def toJsonSchema (input : JsonInput) : Json N :=
  .object [(unitsOfString "type", .string (unitsOfString "object")),
    (unitsOfString "properties", .object (propertySchemas input)),
    (unitsOfString "required", .array (requiredKeys input)),
    (unitsOfString "additionalProperties", .bool false)]

end JsonSchemas

/-! ### The host's validation library -/

/-- The part of `zod` that schemas are built with, and which values its schemas accept, with `none`
for `undefined`. What an object has beside its shape is no reason to reject it. -/
structure Zod (N : Type) where
  Schema : Type
  string : Schema
  enum : List JsUnits → Schema
  number : Schema
  boolean : Schema
  array : Schema → Schema
  object : List (JsUnits × Schema) → Schema
  /-- `z.record(z.string(), schema)` -/
  record : Schema → Schema
  any : Schema
  optional : Schema → Schema
  describe : Schema → String → Schema
  Accepts : Schema → Option (Json N) → Prop
  accepts_string : ∀ {value}, Accepts string value ↔ ∃ s, value = some (.string s)
  accepts_enum : ∀ {values value},
    Accepts (enum values) value ↔ ∃ s ∈ values, value = some (.string s)
  accepts_number : ∀ {value}, Accepts number value ↔ ∃ n, value = some (.number n)
  accepts_boolean : ∀ {value}, Accepts boolean value ↔ ∃ b, value = some (.bool b)
  accepts_array : ∀ {schema value}, Accepts (array schema) value ↔
    ∃ items, value = some (.array items) ∧ ∀ item ∈ items, Accepts schema (some item)
  accepts_object : ∀ {shape value}, Accepts (object shape) value ↔
    ∃ members, value = some (.object members) ∧
      ∀ key schema, (key, schema) ∈ shape → Accepts schema (Json.get members key)
  accepts_record : ∀ {schema value}, Accepts (record schema) value ↔
    ∃ members, value = some (.object members) ∧
      ∀ member ∈ members, Accepts schema (some member.2)
  accepts_any : ∀ {value}, Accepts any (some value)
  accepts_optional : ∀ {schema value},
    Accepts (optional schema) value ↔ value = none ∨ Accepts schema value
  accepts_describe : ∀ {schema text value},
    Accepts (describe schema text) value ↔ Accepts schema value

section Zod

variable {N : Type} (z : Zod N)

def describeZod (field : Field) (schema : z.Schema) : z.Schema :=
  match nonEmpty field.description with
  | some text => z.describe schema text
  | none => schema

/-- A schema with what is added to every one of them. -/
def finishZod (field : Field) (schema : z.Schema) : z.Schema :=
  let schema := describeZod z field schema
  if field.optional then z.optional schema else schema

mutual

def fieldToZod : Field → z.Schema
  | .string d o enum =>
      finishZod z (.string d o enum)
        (match enum with
        | some values => z.enum values
        | none => z.string)
  | .number d o => finishZod z (.number d o) z.number
  | .boolean d o => finishZod z (.boolean d o) z.boolean
  | .array d o items => finishZod z (.array d o items) (z.array (fieldToZod items))
  | .object d o properties => finishZod z (.object d o properties) (z.object (buildShape properties))
  | .record d o any =>
      finishZod z (.record d o any) (z.record (if any then z.any else z.string))

def buildShape : List (JsUnits × Field) → List (JsUnits × z.Schema)
  | [] => []
  | (key, field) :: properties => (key, fieldToZod field) :: buildShape properties

end

end Zod

end Devtools
