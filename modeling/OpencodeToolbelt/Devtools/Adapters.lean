import OpencodeToolbelt.Devtools.Schema

/-!
# Two forms of one schema

The JSON Schema of a tool's arguments and the schema that the host validates them with accept the
same values, if members that the tool does not name are left out of account.
-/

namespace Devtools

open JsonSchema

variable {N : Type}

/-! ### Members that are named -/

mutual

/-- A value without the members that are not named. -/
def keepDeclared : Field → Json N → Json N
  | .array _ _ items, .array values => .array (values.map fun value => keepDeclared items value)
  | .object _ _ properties, .object members =>
      .object (members.filterMap fun member =>
        (keepMember properties member.1 member.2).map fun value => (member.1, value))
  | _, value => value

/-- A member, if it is named. -/
def keepMember : List (JsUnits × Field) → JsUnits → Json N → Option (Json N)
  | [], _, _ => none
  | (name, field) :: properties, key, value =>
      if name = key then some (keepDeclared field value) else keepMember properties key value

end

mutual

/-- No object names a property twice. -/
def Distinct : Field → Prop
  | .array _ _ items => Distinct items
  | .object _ _ properties => (properties.map Prod.fst).Nodup ∧ DistinctAll properties
  | _ => True

def DistinctAll : List (JsUnits × Field) → Prop
  | [] => True
  | (_, field) :: properties => Distinct field ∧ DistinctAll properties

end

theorem mem_propertySchemas {properties : List (JsUnits × Field)} {key : JsUnits}
    {schema : Json N} :
  (key, schema) ∈ propertySchemas properties ↔
    ∃ field, (key, field) ∈ properties ∧ schema = fieldToJsonSchema field
  := by
  induction properties with
  | nil => simp [propertySchemas]
  | cons entry properties ih =>
      rw [propertySchemas, List.mem_cons, ih]
      constructor
      · rintro (heq | ⟨field, hmem, hschema⟩)
        · cases heq
          exact ⟨entry.2, List.mem_cons_self, rfl⟩
        · exact ⟨field, List.mem_cons_of_mem _ hmem, hschema⟩
      · rintro ⟨field, hmem, rfl⟩
        obtain heq | hmem := List.mem_cons.mp hmem
        · left
          rw [← heq]
        · exact .inr ⟨field, hmem, rfl⟩

theorem keys_propertySchemas (properties : List (JsUnits × Field)) :
  (propertySchemas (N := N) properties).map Prod.fst = properties.map Prod.fst
  := by
  induction properties with
  | nil => rfl
  | cons entry properties ih => rw [propertySchemas, List.map_cons, ih, List.map_cons]

theorem mem_buildShape (z : Zod N) {properties : List (JsUnits × Field)} {key : JsUnits}
    {schema : z.Schema} :
  (key, schema) ∈ buildShape z properties ↔
    ∃ field, (key, field) ∈ properties ∧ schema = fieldToZod z field
  := by
  induction properties with
  | nil => simp [buildShape]
  | cons entry properties ih =>
      rw [buildShape, List.mem_cons, ih]
      constructor
      · rintro (heq | ⟨field, hmem, hschema⟩)
        · cases heq
          exact ⟨entry.2, List.mem_cons_self, rfl⟩
        · exact ⟨field, List.mem_cons_of_mem _ hmem, hschema⟩
      · rintro ⟨field, hmem, rfl⟩
        obtain heq | hmem := List.mem_cons.mp hmem
        · left
          rw [← heq]
        · exact .inr ⟨field, hmem, rfl⟩

theorem mem_requiredKeys {input : JsonInput} {key : JsUnits} :
  Json.string key ∈ requiredKeys (N := N) input ↔
    ∃ field, (key, field) ∈ input ∧ field.optional = false
  := by
  simp only [requiredKeys, List.mem_map, List.mem_filter, Bool.not_eq_true', Json.string.injEq]
  constructor
  · rintro ⟨entry, ⟨hmem, hoptional⟩, rfl⟩
    exact ⟨entry.2, hmem, hoptional⟩
  · rintro ⟨field, hmem, hoptional⟩
    exact ⟨(key, field), ⟨hmem, hoptional⟩, rfl⟩

theorem keepMember_of_mem {properties : List (JsUnits × Field)} {key : JsUnits} {field : Field}
    (hnodup : (properties.map Prod.fst).Nodup) (h : (key, field) ∈ properties) (value : Json N) :
  keepMember properties key value = some (keepDeclared field value)
  := by
  induction properties with
  | nil => cases h
  | cons entry properties ih =>
      rw [List.map_cons, List.nodup_cons] at hnodup
      rw [keepMember]
      obtain rfl | h := List.mem_cons.mp h
      · rw [if_pos rfl]
      · rw [if_neg, ih hnodup.2 h]
        intro heq
        apply hnodup.1
        rw [heq]
        apply List.mem_map_of_mem h

theorem keepMember_eq_none {properties : List (JsUnits × Field)} {key : JsUnits}
    (h : key ∉ properties.map Prod.fst) (value : Json N) :
  keepMember properties key value = none
  := by
  induction properties with
  | nil => rw [keepMember]
  | cons entry properties ih =>
      rw [List.map_cons, List.mem_cons, not_or] at h
      rw [keepMember, if_neg (Ne.symm h.1), ih h.2]

theorem get_keepMembers {properties : List (JsUnits × Field)} {key : JsUnits} {field : Field}
    (hnodup : (properties.map Prod.fst).Nodup) (h : (key, field) ∈ properties)
    (members : List (JsUnits × Json N)) :
  Json.get (members.filterMap fun member =>
      (keepMember properties member.1 member.2).map fun value => (member.1, value)) key =
    (Json.get members key).map (keepDeclared field)
  := by
  induction members with
  | nil => rfl
  | cons member members ih =>
      rw [Json.get_cons, List.filterMap_cons]
      by_cases hkey : member.1 = key
      · rw [if_pos hkey, hkey, keepMember_of_mem hnodup h, Option.map_some]
        dsimp only
        rw [Json.get_cons, if_pos rfl, Option.map_some]
      · rw [if_neg hkey, ← ih]
        cases keepMember properties member.1 member.2 with
        | none => rfl
        | some value =>
            rw [Option.map_some]
            dsimp only
            rw [Json.get_cons, if_neg hkey]

/-! ### What is accepted -/

theorem accepts_describeZod (z : Zod N) (field : Field) (schema : z.Schema)
    (value : Option (Json N)) :
  z.Accepts (describeZod z field schema) value ↔ z.Accepts schema value
  := by
  unfold describeZod
  split
  · apply z.accepts_describe
  · exact Iff.rfl

theorem accepts_finishZod (z : Zod N) (field : Field) (schema : z.Schema)
    (value : Option (Json N)) :
  z.Accepts (finishZod z field schema) value ↔
    field.optional = true ∧ value = none ∨ z.Accepts schema value
  := by
  unfold finishZod
  dsimp only
  split
  · next hoptional => rw [z.accepts_optional, accepts_describeZod, hoptional, eq_self, true_and]
  · next hoptional =>
      rw [accepts_describeZod]
      simp [hoptional]

/-- Only what is optional may be left out. -/
theorem accepts_none (z : Zod N) (field : Field) :
  z.Accepts (fieldToZod z field) none ↔ field.optional = true
  := by
  cases field with
  | string description optional enum =>
      cases enum <;> simp [fieldToZod, accepts_finishZod, z.accepts_string, z.accepts_enum]
  | number description optional => simp [fieldToZod, accepts_finishZod, z.accepts_number]
  | boolean description optional => simp [fieldToZod, accepts_finishZod, z.accepts_boolean]
  | array description optional items => simp [fieldToZod, accepts_finishZod, z.accepts_array]
  | object description optional properties =>
      simp [fieldToZod, accepts_finishZod, z.accepts_object]
  | record description optional any => simp [fieldToZod, accepts_finishZod, z.accepts_record]

theorem accepts_some (z : Zod N) (field : Field) (schema : z.Schema) (value : Json N) :
  z.Accepts (finishZod z field schema) (some value) ↔ z.Accepts schema (some value)
  := by
  rw [accepts_finishZod]
  simp

/-! ### What is valid -/

theorem hasType_string (value : Json N) :
  HasType (.string (unitsOfString "string")) value ↔ ∃ s, value = .string s
  := by cases value <;> simp [HasType, string_inj]

theorem hasType_number (value : Json N) :
  HasType (.string (unitsOfString "number")) value ↔ ∃ n, value = .number n
  := by cases value <;> simp [HasType, string_inj]

theorem hasType_boolean (value : Json N) :
  HasType (.string (unitsOfString "boolean")) value ↔ ∃ b, value = .bool b
  := by cases value <;> simp [HasType, string_inj]

theorem hasType_array (value : Json N) :
  HasType (.string (unitsOfString "array")) value ↔ ∃ items, value = .array items
  := by cases value <;> simp [HasType, string_inj]

theorem hasType_object (value : Json N) :
  HasType (.string (unitsOfString "object")) value ↔ ∃ members, value = .object members
  := by cases value <;> simp [HasType, string_inj]

/-- The description has no say in what is valid. -/
theorem validAll_described (names : List JsUnits) (field : Field)
    (keywords : List (JsUnits × Json N)) (value : Json N) :
  ValidAll names (described field ++ keywords) value ↔
    HasType (.string (unitsOfString field.type)) value ∧ ValidAll names keywords value
  := by
  rw [validAll_append, described, validAll_cons, holds_type]
  cases nonEmpty field.description with
  | none => rw [validAll_nil, and_true]
  | some text => rw [validAll_cons, holds_description, validAll_nil, and_true, and_true]

theorem get_described (field : Field) {key : String} (htype : key ≠ "type")
    (hdescription : key ≠ "description") :
  Json.get (described (N := N) field) (unitsOfString key) = none
  := by
  rw [described, Json.get_cons, if_neg (fun heq => htype (string_inj.mp heq).symm)]
  cases nonEmpty field.description with
  | none => rfl
  | some text =>
      rw [Json.get_cons, if_neg (fun heq => hdescription (string_inj.mp heq).symm)]
      rfl

theorem declared_object (field : Field) (properties : List (JsUnits × Field))
    (keywords : List (JsUnits × Json N)) :
  declared (described field ++
    (unitsOfString "properties", .object (propertySchemas properties)) :: keywords) =
    properties.map Prod.fst
  := by
  rw [declared, Json.getObject, Json.get_append, get_described field (by decide) (by decide),
    Option.none_or, Json.get_cons, if_pos rfl]
  apply keys_propertySchemas

/-- An object is valid if all its members are named and valid, and none that has to be there is
missing. -/
theorem valid_object (description : Option String) (optional : Bool)
    (properties : List (JsUnits × Field)) (members : List (JsUnits × Json N)) :
  Valid (fieldToJsonSchema (.object description optional properties)) (.object members) ↔
    (∀ key field, (key, field) ∈ properties →
      match Json.get members key with
      | none => field.optional = true
      | some value => Valid (fieldToJsonSchema field) value) ∧
    ∀ member ∈ members, member.1 ∈ properties.map Prod.fst
  := by
  rw [fieldToJsonSchema, Valid, validAll_described, declared_object, validAll_cons, validAll_cons,
    validAll_cons, validAll_nil, holds_properties, holds_required, holds_additional]
  constructor
  · rintro ⟨-, hproperties, hrequired, hadditional, -⟩
    constructor
    · intro key field hmem
      cases hget : Json.get members key with
      | none =>
          dsimp only
          rw [← Bool.not_eq_false]
          intro hoptional
          have hsome := hrequired key (mem_requiredKeys.mpr ⟨field, hmem, hoptional⟩)
          rw [hget] at hsome
          cases hsome
      | some value =>
          apply (validMembers_iff _ _).mp (hproperties members rfl) key _ _ value hget
          apply mem_propertySchemas.mpr ⟨field, hmem, rfl⟩
    · intro member hmember
      by_contra hnot
      have hfalse := hadditional members rfl member hmember hnot
      rw [Valid] at hfalse
      cases hfalse
  · rintro ⟨hmembers, hdeclared⟩
    refine ⟨rfl, ?_, ?_, ?_, trivial⟩
    · rintro _ ⟨⟩
      rw [validMembers_iff]
      intro key schema hschema value hget
      obtain ⟨field, hmem, rfl⟩ := mem_propertySchemas.mp hschema
      have hmember := hmembers key field hmem
      rw [hget] at hmember
      apply hmember
    · intro key hkey
      obtain ⟨field, hmem, hoptional⟩ := mem_requiredKeys.mp hkey
      have hmember := hmembers key field hmem
      cases hget : Json.get members key with
      | none =>
          rw [hget] at hmember
          rw [hoptional] at hmember
          cases hmember
      | some value => rfl
    · rintro _ ⟨⟩ member hmember hnot
      apply absurd (hdeclared member hmember) hnot

theorem valid_record (description : Option String) (optional any : Bool)
    (members : List (JsUnits × Json N)) :
  Valid (fieldToJsonSchema (.record description optional any)) (.object members) ↔
    any = true ∨ ∀ member ∈ members, ∃ s, member.2 = .string s
  := by
  have hnames : declared (described (N := N) (.record description optional any) ++
      [(unitsOfString "additionalProperties",
        if any then .bool true
        else .object [(unitsOfString "type", .string (unitsOfString "string"))])]) = [] := by
    rw [declared, Json.getObject, Json.get_append, get_described _ (by decide) (by decide),
      Option.none_or, Json.get_cons, if_neg (fun heq => absurd (string_inj.mp heq) (by decide))]
    rfl
  rw [fieldToJsonSchema, Valid, hnames, validAll_described, validAll_cons, validAll_nil,
    holds_additional]
  cases any with
  | true => simp [HasType, Field.type, Valid]
  | false =>
      have hstring : ∀ value : Json N, Valid (.object [(unitsOfString "type",
          .string (unitsOfString "string"))]) value ↔ ∃ s, value = .string s := by
        intro value
        rw [Valid, validAll_cons, validAll_nil, holds_type, hasType_string, and_true]
      simp [HasType, Field.type, hstring]

/-! ### The two forms -/

/-- The host accepts a value if what is left of it, when what is not named is dropped, is valid. -/
def Agrees (z : Zod N) (field : Field) : Prop :=
  ∀ value : Json N, z.Accepts (fieldToZod z field) (some value) ↔
    Valid (fieldToJsonSchema field) (keepDeclared field value)

variable (z : Zod N) {description : Option String} {optional : Bool}

theorem valid_leaf (field : Field) (keywords : List (JsUnits × Json N)) (value : Json N) :
  Valid (.object (described field ++ keywords)) value ↔
    HasType (.string (unitsOfString field.type)) value ∧
      ValidAll (declared (described field ++ keywords)) keywords value
  := by rw [Valid, validAll_described]

theorem agrees_string (enum : Option (List JsUnits)) :
  Agrees z (.string description optional enum)
  := by
  intro value
  rw [keepDeclared]
  · cases enum with
    | none =>
        rw [fieldToZod, accepts_some, z.accepts_string, fieldToJsonSchema, valid_leaf, Field.type,
          hasType_string, validAll_nil]
        simp
    | some values =>
        rw [fieldToZod, accepts_some, z.accepts_enum, fieldToJsonSchema, valid_leaf, Field.type,
          hasType_string, validAll_cons, validAll_nil, holds_enum, and_true]
        simp only [IsAmong, List.mem_map, Option.some.injEq]
        constructor
        · rintro ⟨s, hs, rfl⟩
          exact ⟨⟨s, rfl⟩, s, hs, rfl⟩
        · rintro ⟨-, s, hs, rfl⟩
          exact ⟨s, hs, rfl⟩
  · simp
  · simp

theorem agrees_number :
  Agrees z (.number description optional)
  := by
  intro value
  rw [keepDeclared, fieldToZod, accepts_some, z.accepts_number, fieldToJsonSchema,
    ← List.append_nil (described _), valid_leaf, Field.type, hasType_number, validAll_nil]
  · simp
  · simp
  · simp

theorem agrees_boolean :
  Agrees z (.boolean description optional)
  := by
  intro value
  rw [keepDeclared, fieldToZod, accepts_some, z.accepts_boolean, fieldToJsonSchema,
    ← List.append_nil (described _), valid_leaf, Field.type, hasType_boolean, validAll_nil]
  · simp
  · simp
  · simp

theorem agrees_array {items : Field} (h : Agrees z items) :
  Agrees z (.array description optional items)
  := by
  intro value
  rw [fieldToZod, accepts_some, z.accepts_array, fieldToJsonSchema, Valid, validAll_described,
    Field.type, hasType_array, validAll_cons, validAll_nil, holds_items, and_true]
  constructor
  · rintro ⟨values, heq, hvalues⟩
    cases heq
    rw [keepDeclared]
    refine ⟨⟨_, rfl⟩, ?_⟩
    rintro _ ⟨⟩ item hitem
    obtain ⟨value, hvalue, rfl⟩ := List.mem_map.mp hitem
    apply (h value).mp (hvalues value hvalue)
  · rintro ⟨⟨values', heq⟩, hvalues⟩
    cases value with
    | array values =>
        refine ⟨values, rfl, ?_⟩
        intro item hitem
        rw [h item]
        rw [keepDeclared] at hvalues
        apply hvalues _ rfl
        apply List.mem_map_of_mem hitem
    | _ =>
        rw [keepDeclared] at heq
        · cases heq
        · simp
        · simp

theorem agrees_record (any : Bool) :
  Agrees z (.record description optional any)
  := by
  intro value
  rw [keepDeclared, fieldToZod, accepts_some, z.accepts_record]
  · cases value with
    | object members =>
        rw [valid_record]
        cases any with
        | true =>
            refine iff_of_true ⟨members, rfl, ?_⟩ (.inl rfl)
            exact fun member _ => z.accepts_any
        | false => simp [z.accepts_string]
    | _ =>
        rw [fieldToJsonSchema, Valid, validAll_described, Field.type, hasType_object]
        simp
  · simp
  · simp

theorem agrees_object {properties : List (JsUnits × Field)}
    (hnodup : (properties.map Prod.fst).Nodup)
    (h : ∀ key field, (key, field) ∈ properties → Agrees z field) :
  Agrees z (.object description optional properties)
  := by
  intro value
  rw [fieldToZod, accepts_some, z.accepts_object]
  cases value with
  | object members =>
      rw [keepDeclared, valid_object]
      constructor
      · rintro ⟨_, heq, hmembers⟩
        cases heq
        constructor
        · intro key field hmem
          have hmember := hmembers key _ ((mem_buildShape z).mpr ⟨field, hmem, rfl⟩)
          rw [get_keepMembers hnodup hmem]
          cases hget : Json.get members key with
          | none =>
              rw [hget, accepts_none] at hmember
              apply hmember
          | some value =>
              rw [hget, h key field hmem value] at hmember
              apply hmember
        · intro member hmember
          obtain ⟨member', -, hkeep⟩ := List.mem_filterMap.mp hmember
          obtain ⟨value, hvalue, rfl⟩ := Option.map_eq_some_iff.mp hkeep
          by_contra hnot
          rw [keepMember_eq_none hnot] at hvalue
          cases hvalue
      · rintro ⟨hmembers, -⟩
        refine ⟨members, rfl, ?_⟩
        intro key schema hschema
        obtain ⟨field, hmem, rfl⟩ := (mem_buildShape z).mp hschema
        have hmember := hmembers key field hmem
        rw [get_keepMembers hnodup hmem] at hmember
        cases hget : Json.get members key with
        | none =>
            rw [hget] at hmember
            apply (accepts_none z field).mpr hmember
        | some value =>
            rw [hget] at hmember
            apply (h key field hmem value).mpr hmember
  | _ =>
      rw [keepDeclared, fieldToJsonSchema, Valid, validAll_described, Field.type, hasType_object]
      · simp
      · simp
      · simp

mutual

theorem agrees : ∀ {field : Field}, Distinct field → Agrees z field
  | .string _ _ enum, _ => agrees_string z enum
  | .number _ _, _ => agrees_number z
  | .boolean _ _, _ => agrees_boolean z
  | .array _ _ _, h => agrees_array z (agrees h)
  | .object _ _ _, h => agrees_object z h.1 (agrees_all h.2)
  | .record _ _ any, _ => agrees_record z any

theorem agrees_all : ∀ {properties : List (JsUnits × Field)}, DistinctAll properties →
    ∀ key field, (key, field) ∈ properties → Agrees z field
  | [], _, _, _, hmem => absurd hmem List.not_mem_nil
  | (_, _) :: _, h, key, field, hmem =>
      (List.mem_cons.mp hmem).elim (fun heq => (Prod.mk.inj heq).2 ▸ agrees h.1)
        (agrees_all h.2 key field)

end

/-! ### Nothing is dropped from what is valid -/

theorem get_of_mem {members : List (JsUnits × Json N)} (hnodup : (members.map Prod.fst).Nodup)
    {member : JsUnits × Json N} (h : member ∈ members) :
  Json.get members member.1 = some member.2
  := by
  induction members with
  | nil => cases h
  | cons first members ih =>
      rw [List.map_cons, List.nodup_cons] at hnodup
      rw [Json.get_cons]
      obtain rfl | h := List.mem_cons.mp h
      · rw [if_pos rfl]
      · rw [if_neg, ih hnodup.2 h]
        intro heq
        apply hnodup.1
        rw [heq]
        apply List.mem_map_of_mem h

theorem keep_array {items : Field} {value : Json N} (hordered : Json.Ordered value)
    (hvalid : Valid (fieldToJsonSchema (.array description optional items)) value)
    (h : ∀ item : Json N, Json.Ordered item → Valid (fieldToJsonSchema items) item →
      keepDeclared items item = item) :
  keepDeclared (.array description optional items) value = value
  := by
  cases value with
  | array values =>
      cases hordered with
      | array hitems =>
          rw [fieldToJsonSchema, valid_leaf, validAll_cons, holds_items] at hvalid
          rw [keepDeclared]
          congr 1
          conv_rhs => rw [← List.map_id values]
          apply List.map_congr_left
          intro item hitem
          apply h item (hitems item hitem) (hvalid.2.1 values rfl item hitem)
  | _ =>
      rw [keepDeclared]
      · simp
      · simp

theorem keep_object {properties : List (JsUnits × Field)} {value : Json N}
    (hordered : Json.Ordered value)
    (hvalid : Valid (fieldToJsonSchema (.object description optional properties)) value)
    (hnodup : (properties.map Prod.fst).Nodup)
    (h : ∀ key field, (key, field) ∈ properties → ∀ value : Json N, Json.Ordered value →
      Valid (fieldToJsonSchema field) value → keepDeclared field value = value) :
  keepDeclared (.object description optional properties) value = value
  := by
  cases value with
  | object members =>
      cases hordered with
      | object henumerated hmembers =>
          rw [valid_object] at hvalid
          have hkeep : ∀ member ∈ members, ((keepMember properties member.1 member.2).map
              fun value => (member.1, value)) = some member := by
            intro member hmember
            obtain ⟨⟨key, field⟩, hmem, hkey⟩ := List.mem_map.mp (hvalid.2 member hmember)
            dsimp only at hkey
            subst hkey
            have hvalue := hvalid.1 member.1 field hmem
            rw [get_of_mem henumerated.1 hmember] at hvalue
            rw [keepMember_of_mem hnodup hmem,
              h member.1 field hmem member.2 (hmembers member hmember) hvalue]
            rfl
          rw [keepDeclared, List.filterMap_congr hkeep, List.filterMap_some]
  | _ =>
      rw [keepDeclared]
      · simp
      · simp

mutual

theorem keep_of_valid : ∀ {field : Field}, Distinct field → ∀ value : Json N,
    Json.Ordered value → Valid (fieldToJsonSchema field) value → keepDeclared field value = value
  | .array _ _ _, h, _, hordered, hvalid =>
      keep_array hordered hvalid (keep_of_valid h)
  | .object _ _ _, h, _, hordered, hvalid =>
      keep_object hordered hvalid h.1 (keep_all_of_valid h.2)
  | .string _ _ _, _, _, _, _ => by rw [keepDeclared] <;> simp
  | .number _ _, _, _, _, _ => by rw [keepDeclared] <;> simp
  | .boolean _ _, _, _, _, _ => by rw [keepDeclared] <;> simp
  | .record _ _ _, _, _, _, _ => by rw [keepDeclared] <;> simp

theorem keep_all_of_valid : ∀ {properties : List (JsUnits × Field)}, DistinctAll properties →
    ∀ key field, (key, field) ∈ properties → ∀ value : Json N, Json.Ordered value →
      Valid (fieldToJsonSchema field) value → keepDeclared field value = value
  | [], _, _, _, hmem => absurd hmem List.not_mem_nil
  | (_, _) :: _, h, key, field, hmem =>
      (List.mem_cons.mp hmem).elim (fun heq => (Prod.mk.inj heq).2 ▸ keep_of_valid h.1)
        (keep_all_of_valid h.2 key field)

end

/-- The arguments that a tool is called with, as the host takes them and as the schema that is
published says: they are accepted if what is left of them without undeclared members is valid, and
nothing is dropped from arguments that are valid themselves. -/
theorem accepts_iff_valid (input : JsonInput) (hnames : (input.map Prod.fst).Nodup)
    (hinput : DistinctAll input) (args : Json N) (hargs : Json.Ordered args) :
  (z.Accepts (z.object (buildShape z input)) (some args) ↔
      Valid (toJsonSchema input) (keepDeclared (.object none false input) args)) ∧
    (Valid (toJsonSchema input) args → keepDeclared (.object none false input) args = args)
  := by
  have hdistinct : Distinct (.object none false input) := ⟨hnames, hinput⟩
  have hagrees := agrees z hdistinct args
  have hkeep := keep_of_valid hdistinct args hargs
  constructor
  · rw [fieldToZod, accepts_some] at hagrees
    apply hagrees
  · apply hkeep

/-! ### A validation library -/

/-- The schemas of a library that does just what is asked of it. -/
inductive PlainSchema where
  | string
  | enum (values : List JsUnits)
  | number
  | boolean
  | array (schema : PlainSchema)
  | object (shape : List (JsUnits × PlainSchema))
  | record (schema : PlainSchema)
  | any
  | optional (schema : PlainSchema)
  | describe (schema : PlainSchema) (text : String)

mutual

def PlainSchema.Accepts : PlainSchema → Option (Json N) → Prop
  | .string, value => ∃ s, value = some (.string s)
  | .enum values, value => ∃ s ∈ values, value = some (.string s)
  | .number, value => ∃ n, value = some (.number n)
  | .boolean, value => ∃ b, value = some (.bool b)
  | .array schema, value =>
      ∃ items, value = some (.array items) ∧ ∀ item ∈ items, schema.Accepts (some item)
  | .object shape, value => ∃ members, value = some (.object members) ∧ AcceptsAll shape members
  | .record schema, value =>
      ∃ members, value = some (.object members) ∧
        ∀ member ∈ members, schema.Accepts (some member.2)
  | .any, _ => True
  | .optional schema, value => value = none ∨ schema.Accepts value
  | .describe schema _, value => schema.Accepts value

def AcceptsAll : List (JsUnits × PlainSchema) → List (JsUnits × Json N) → Prop
  | [], _ => True
  | (key, schema) :: shape, members =>
      schema.Accepts (Json.get members key) ∧ AcceptsAll shape members

end

theorem acceptsAll_iff (shape : List (JsUnits × PlainSchema)) (members : List (JsUnits × Json N)) :
  AcceptsAll shape members ↔
    ∀ key schema, (key, schema) ∈ shape → schema.Accepts (Json.get members key)
  := by
  induction shape with
  | nil => simp [AcceptsAll]
  | cons entry shape ih =>
      rw [AcceptsAll, ih]
      constructor
      · rintro ⟨hfirst, hrest⟩ key schema hmem
        obtain heq | hmem := List.mem_cons.mp hmem
        · rw [← heq] at hfirst
          apply hfirst
        · apply hrest key schema hmem
      · intro h
        constructor
        · apply h entry.1 entry.2 List.mem_cons_self
        · exact fun key schema hmem => h key schema (List.mem_cons_of_mem _ hmem)

def plainZod : Zod N where
  Schema := PlainSchema
  string := .string
  enum := .enum
  number := .number
  boolean := .boolean
  array := .array
  object := .object
  record := .record
  any := .any
  optional := .optional
  describe := .describe
  Accepts := PlainSchema.Accepts
  accepts_string := by simp [PlainSchema.Accepts]
  accepts_enum := by simp [PlainSchema.Accepts]
  accepts_number := by simp [PlainSchema.Accepts]
  accepts_boolean := by simp [PlainSchema.Accepts]
  accepts_array := by simp [PlainSchema.Accepts]
  accepts_object := by simp [PlainSchema.Accepts, acceptsAll_iff]
  accepts_record := by simp [PlainSchema.Accepts]
  accepts_any := by simp [PlainSchema.Accepts]
  accepts_optional := by simp [PlainSchema.Accepts]
  accepts_describe := by simp [PlainSchema.Accepts]

/-- The fields that are filled in at once. -/
def fillInput : JsonInput :=
  [(unitsOfString "group", .string (some "Named tab group the action targets.") false none),
    (unitsOfString "fields", .array (some "Fields to fill, in order.") false (.object none false
      [(unitsOfString "ref", .string none true none),
        (unitsOfString "value", .string none false none)]))]

/-- A call with a member that has no place there. -/
def fillArgs : Json ℕ :=
  .object [(unitsOfString "group", .string (unitsOfString "g")),
    (unitsOfString "fields", .array [.object [(unitsOfString "value", .string []),
      (unitsOfString "extra", .null)]])]

theorem accepts_iff_valid_fill :
  ((plainZod (N := ℕ)).Accepts (plainZod.object (buildShape plainZod fillInput)) (some fillArgs) ↔
      Valid (toJsonSchema fillInput) (keepDeclared (.object none false fillInput) fillArgs)) ∧
    (Valid (toJsonSchema fillInput) fillArgs →
      keepDeclared (.object none false fillInput) fillArgs = fillArgs)
  := by
  apply accepts_iff_valid plainZod fillInput (by decide +kernel)
  · simp only [fillInput, DistinctAll, Distinct, and_true, true_and]
    decide +kernel
  · refine .object (by decide +kernel) ?_
    rintro member hmember
    simp only [List.mem_cons, List.not_mem_nil, or_false] at hmember
    obtain rfl | rfl := hmember
    · apply Json.Ordered.string
    · refine .array ?_
      intro item hitem
      rw [List.mem_singleton.mp hitem]
      refine .object (by decide +kernel) ?_
      rintro member hmember
      simp only [List.mem_cons, List.not_mem_nil, or_false] at hmember
      obtain rfl | rfl := hmember
      · apply Json.Ordered.string
      · apply Json.Ordered.null

end Devtools
