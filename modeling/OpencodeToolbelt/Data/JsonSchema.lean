import OpencodeToolbelt.Data.Rereading

/-!
# JSON Schema

Which values a schema accepts, a schema being a value of JSON itself. Each of its keywords asserts
something of the value on its own, but for the properties that are additional to others.
-/

namespace JsonSchema

variable {N : Type}

/-- Whether a value is of a type, which has a name. -/
def HasType (type : Json N) (value : Json N) : Prop :=
  match type, value with
  | .string name, .null => name = unitsOfString "null"
  | .string name, .bool _ => name = unitsOfString "boolean"
  | .string name, .number _ => name = unitsOfString "number"
  | .string name, .string _ => name = unitsOfString "string"
  | .string name, .array _ => name = unitsOfString "array"
  | .string name, .object _ => name = unitsOfString "object"
  | _, _ => False

/-- Whether a value is among some others. -/
def IsAmong (items value : Json N) : Prop :=
  match items with
  | .array items => value ∈ items
  | _ => False

/-- Whether an object has some members. -/
def Requires (keys value : Json N) : Prop :=
  match keys, value with
  | .array keys, .object members =>
      ∀ key, .string key ∈ keys → (Json.get members key).isSome = true
  | .array _, _ => True
  | _, _ => False

/-- The properties that a schema names. -/
def declared (keywords : List (JsUnits × Json N)) : List JsUnits :=
  (Json.getObject keywords (unitsOfString "properties")).map Prod.fst

mutual

/-- The schema accepts the value. -/
def Valid : Json N → Json N → Prop
  | .bool accepts, _ => accepts = true
  | .object keywords, value => ValidAll (declared keywords) keywords value
  | _, _ => False

/-- All keywords hold of the value. -/
def ValidAll (names : List JsUnits) : List (JsUnits × Json N) → Json N → Prop
  | [], _ => True
  | (keyword, argument) :: keywords, value =>
      Holds names keyword argument value ∧ ValidAll names keywords value

/-- A keyword holds of the value. Keywords that annotate hold of every value. -/
def Holds (names : List JsUnits) (keyword : JsUnits) (argument value : Json N) : Prop :=
  if keyword = unitsOfString "type" then HasType argument value
  else if keyword = unitsOfString "enum" then IsAmong argument value
  else if keyword = unitsOfString "required" then Requires argument value
  else if keyword = unitsOfString "items" then
    ∀ items, value = .array items → ∀ item ∈ items, Valid argument item
  else if keyword = unitsOfString "additionalProperties" then
    ∀ members, value = .object members →
      ∀ member ∈ members, member.1 ∉ names → Valid argument member.2
  else if keyword = unitsOfString "properties" then HasProperties argument value
  else True

/-- The members that are named are as their schemas say. -/
def HasProperties : Json N → Json N → Prop
  | .object schemas, value => ∀ members, value = .object members → ValidMembers schemas members
  | _, _ => False

def ValidMembers : List (JsUnits × Json N) → List (JsUnits × Json N) → Prop
  | [], _ => True
  | (key, schema) :: schemas, members =>
      (∀ value, Json.get members key = some value → Valid schema value) ∧
        ValidMembers schemas members

end

/-! ### Keywords -/

theorem string_inj {s s' : String} :
  unitsOfString s = unitsOfString s' ↔ s = s'
  := unitsOfString_injective.eq_iff

theorem validAll_append (names : List JsUnits) (keywords keywords' : List (JsUnits × Json N))
    (value : Json N) :
  ValidAll names (keywords ++ keywords') value ↔
    ValidAll names keywords value ∧ ValidAll names keywords' value
  := by
  induction keywords with
  | nil => simp [ValidAll]
  | cons keyword keywords ih =>
      rw [List.cons_append, ValidAll, ValidAll, ih, and_assoc]

@[simp]
theorem validAll_nil (names : List JsUnits) (value : Json N) :
  ValidAll names [] value ↔ True
  := by rw [ValidAll]

@[simp]
theorem validAll_cons (names : List JsUnits) (keyword : JsUnits) (argument : Json N)
    (keywords : List (JsUnits × Json N)) (value : Json N) :
  ValidAll names ((keyword, argument) :: keywords) value ↔
    Holds names keyword argument value ∧ ValidAll names keywords value
  := by rw [ValidAll]

@[simp]
theorem holds_type (names : List JsUnits) (argument value : Json N) :
  Holds names (unitsOfString "type") argument value ↔ HasType argument value
  := by rw [Holds, if_pos rfl]

@[simp]
theorem holds_description (names : List JsUnits) (argument value : Json N) :
  Holds names (unitsOfString "description") argument value ↔ True
  := by
  rw [Holds]
  simp only [string_inj, String.reduceEq, if_false]

@[simp]
theorem holds_enum (names : List JsUnits) (argument value : Json N) :
  Holds names (unitsOfString "enum") argument value ↔ IsAmong argument value
  := by
  rw [Holds]
  simp only [string_inj, String.reduceEq, if_false, if_true]

@[simp]
theorem holds_required (names : List JsUnits) (argument value : Json N) :
  Holds names (unitsOfString "required") argument value ↔ Requires argument value
  := by
  rw [Holds]
  simp only [string_inj, String.reduceEq, if_false, if_true]

@[simp]
theorem holds_items (names : List JsUnits) (argument value : Json N) :
  Holds names (unitsOfString "items") argument value ↔
    ∀ items, value = .array items → ∀ item ∈ items, Valid argument item
  := by
  rw [Holds]
  simp only [string_inj, String.reduceEq, if_false, if_true]

@[simp]
theorem holds_additional (names : List JsUnits) (argument value : Json N) :
  Holds names (unitsOfString "additionalProperties") argument value ↔
    ∀ members, value = .object members →
      ∀ member ∈ members, member.1 ∉ names → Valid argument member.2
  := by
  rw [Holds]
  simp only [string_inj, String.reduceEq, if_false, if_true]

@[simp]
theorem holds_properties (names : List JsUnits) (schemas : List (JsUnits × Json N))
    (value : Json N) :
  Holds names (unitsOfString "properties") (.object schemas) value ↔
    ∀ members, value = .object members → ValidMembers schemas members
  := by
  rw [Holds]
  simp only [string_inj, String.reduceEq, if_false, if_true]
  rw [HasProperties]

/-- The named members are valid one by one. -/
theorem validMembers_iff (schemas members : List (JsUnits × Json N)) :
  ValidMembers schemas members ↔
    ∀ key schema, (key, schema) ∈ schemas →
      ∀ value, Json.get members key = some value → Valid schema value
  := by
  induction schemas with
  | nil => simp [ValidMembers]
  | cons schema schemas ih =>
      rw [ValidMembers, ih]
      constructor
      · rintro ⟨hfirst, hrest⟩ key schema' hmem
        obtain heq | hmem := List.mem_cons.mp hmem
        · rw [← heq] at hfirst
          apply hfirst
        · apply hrest key schema' hmem
      · intro h
        constructor
        · apply h schema.1 schema.2 List.mem_cons_self
        · exact fun key schema' hmem => h key schema' (List.mem_cons_of_mem _ hmem)

end JsonSchema
