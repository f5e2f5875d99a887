import OpencodeToolbelt.Browser.Protocol
import OpencodeToolbelt.Data.Rereading

/-!
# Frames on the wire

How the plugin and the extension write the frames of the bridge, and what either of them reads of
a frame that the other one has written.
-/

namespace Json

variable {N : Type}

/-- Members of which no two have one key are found wherever they stand. -/
theorem get_eq_some {members : List (JsUnits × Json N)} (hnodup : (members.map Prod.fst).Nodup)
    {key : JsUnits} {value : Json N} :
  get members key = some value ↔ (key, value) ∈ members
  := by
  induction members with
  | nil => simp [get]
  | cons member members ih =>
      rw [List.map_cons, List.nodup_cons] at hnodup
      rw [get_cons, List.mem_cons]
      by_cases hkey : member.1 = key
      · have hnot : (key, value) ∉ members := by
          intro hmem
          apply hnodup.1
          rw [hkey]
          apply List.mem_map_of_mem hmem
        rw [if_pos hkey]
        simp [hnot, Prod.ext_iff, hkey, eq_comm]
      · have hne : (key, value) ≠ member := fun heq => hkey (congr_arg Prod.fst heq).symm
        rw [if_neg hkey, ih hnodup.2]
        simp [hne]

theorem get_perm {members members' : List (JsUnits × Json N)} (h : members.Perm members')
    (hnodup : (members'.map Prod.fst).Nodup) (key : JsUnits) :
  get members key = get members' key
  := by
  apply Option.ext
  intro value
  rw [get_eq_some ((h.map Prod.fst).nodup_iff.mpr hnodup), get_eq_some hnodup, h.mem_iff]

end Json

namespace Browser

/-- `PROTOCOL_VERSION`, the same for both sides. -/
def PROTOCOL_VERSION : ℕ := 1

/-! ### Frames -/

def ClientRole.name : ClientRole → String
  | .agent => "agent"
  | .extension => "extension"

def ExecutorPreference.name : ExecutorPreference → String
  | .auto => "auto"
  | .cdp => "cdp"
  | .content => "content"

def BrowserEventName.name : BrowserEventName → String
  | .tabClosed => "tab_closed"
  | .navigated => "navigated"
  | .groupRemoved => "group_removed"
  | .tabCreated => "tab_created"

/-- A value that can be said in JSON. -/
def Payload (N : Type) : Type := { value : Json N // value.Ordered }

/-- An object that can be said in JSON. -/
def PayloadObject (N : Type) : Type :=
  { members : List (JsUnits × Json N) // Json.OrderedMembers members }

/-- The frames of the protocol, all in its present version. -/
inductive Frame (N : Type) where
  | hello (token : JsUnits) (role : Option ClientRole) (client id label browser : Option JsUnits)
  | ready (protocol : N) (role : Option ClientRole) (clientId : Option JsUnits)
      (executor : Option ExecutorPreference)
  | command (id : JsUnits) (action : BrowserAction) (group : JsUnits) (params : PayloadObject N)
      (target : Option JsUnits) (timeoutMs : Option N)
  | result (id : JsUnits) (ok : Bool) (data : Option (Payload N))
      (error : Option (JsUnits × Option JsUnits))
  | event (name : BrowserEventName) (group : Option JsUnits) (data : Option (PayloadObject N))
  | release
  | cancel (id : JsUnits)
  | rejected (reason : JsUnits)
  | ping
  | pong

variable {N : Type}

section Fields

/-- The fields that are present, under their names. -/
def presentFields (fields : List (String × Option (Json N))) : List (JsUnits × Json N) :=
  fields.filterMap fun field => field.2.map fun value => (unitsOfString field.1, value)

/-- The string that a literal of the source is. -/
def literal (s : String) : Json N := .string (unitsOfString s)

/-- What a failed command reports, with a code if there is one. -/
def errorJson (error : JsUnits × Option JsUnits) : Json N :=
  .object (presentFields [("message", some (.string error.1)), ("code", error.2.map .string)])

/-- The fields of a frame that its kind adds to its version and its type. -/
def Frame.ownFields : Frame N → List (String × Option (Json N))
  | .hello token role client id label browser =>
      [("token", some (.string token)), ("role", role.map fun role => literal role.name),
        ("client", client.map .string), ("id", id.map .string), ("label", label.map .string),
        ("browser", browser.map .string)]
  | .ready protocol role clientId executor =>
      [("server", some (literal "opencode-browser")), ("protocol", some (.number protocol)),
        ("role", role.map fun role => literal role.name), ("clientId", clientId.map .string),
        ("executor", executor.map fun executor => literal executor.name)]
  | .command id action group params target timeoutMs =>
      [("id", some (.string id)), ("action", some (literal action.name)),
        ("group", some (.string group)), ("params", some (.object params.val)),
        ("target", target.map .string), ("timeoutMs", timeoutMs.map .number)]
  | .result id ok data error =>
      [("id", some (.string id)), ("ok", some (.bool ok)), ("data", data.map Subtype.val),
        ("error", error.map errorJson)]
  | .event name group data =>
      [("name", some (literal name.name)), ("group", group.map .string),
        ("data", data.map fun data => .object data.val)]
  | .cancel id => [("id", some (.string id))]
  | .rejected reason => [("reason", some (.string reason))]
  | .release => []
  | .ping => []
  | .pong => []

def Frame.type : Frame N → String
  | .hello .. => "hello"
  | .ready .. => "ready"
  | .command .. => "command"
  | .result .. => "result"
  | .event .. => "event"
  | .release => "release"
  | .cancel _ => "cancel"
  | .rejected _ => "rejected"
  | .ping => "ping"
  | .pong => "pong"

variable [JsNumber N]

/-- `{ v: PROTOCOL_VERSION, type }` -/
def header (type : String) : List (String × Option (Json N)) :=
  [("v", some (.number (JsNumber.ofNat PROTOCOL_VERSION))), ("type", some (literal type))]

def Frame.fields (frame : Frame N) : List (String × Option (Json N)) :=
  header frame.type ++ frame.ownFields

/-- The members of a frame, in the order in which its fields are declared. -/
def Frame.members (frame : Frame N) : List (JsUnits × Json N) := presentFields frame.fields

/-- An object that is a frame, its members in any order. -/
def Frame.Object (frame : Frame N) : Type :=
  { members : List (JsUnits × Json N) // members.Perm frame.members }

end Fields

/-! ### The copies of the protocol -/

/-- `typeof value === "string"` -/
def isString (value : Option (Json N)) : Bool :=
  match value with
  | some (.string _) => true
  | _ => false

/-- `typeof value === "boolean"` -/
def isBoolean (value : Option (Json N)) : Bool :=
  match value with
  | some (.bool _) => true
  | _ => false

/-- Whether a case of the switch is the one of a type. -/
def isType (type : JsUnits) (name : String) : Bool := type = unitsOfString name

namespace Plugin

variable [JsNumber N]

def encodeFrame (frame : List (JsUnits × Json N)) : List Char := Json.stringify (.object frame)

/-- What a text says, if it is an object. An array is a record as well, but has no type. -/
def decodeFrame (raw : List Char) : Option (List (JsUnits × Json N)) :=
  match Json.parse raw with
  | some (.object parsed) =>
      let field := fun name => Json.get parsed (unitsOfString name)
      match field "type" with
      | some (.string type) =>
          if isType type "hello" then if isString (field "token") then some parsed else none
          else if isType type "ready" then some parsed
          else if isType type "command" then
            if isString (field "id") && isString (field "action") && isString (field "group") then
              some parsed
            else none
          else if isType type "result" then
            if isString (field "id") && isBoolean (field "ok") then some parsed else none
          else if isType type "event" then if isString (field "name") then some parsed else none
          else if isType type "release" then some (presentFields (header "release"))
          else if isType type "cancel" then if isString (field "id") then some parsed else none
          else if isType type "rejected" then
            if isString (field "reason") then some parsed else none
          else if isType type "ping" then some (presentFields (header "ping"))
          else if isType type "pong" then some (presentFields (header "pong"))
          else none
      | _ => none
  | _ => none

end Plugin

namespace Extension

variable [JsNumber N]

def encodeFrame (frame : List (JsUnits × Json N)) : List Char := Json.stringify (.object frame)

/-- What a text says, if it is an object. An array is a record as well, but has no type. -/
def decodeFrame (raw : List Char) : Option (List (JsUnits × Json N)) :=
  match Json.parse raw with
  | some (.object parsed) =>
      let field := fun name => Json.get parsed (unitsOfString name)
      match field "type" with
      | some (.string type) =>
          if isType type "hello" then if isString (field "token") then some parsed else none
          else if isType type "ready" then some parsed
          else if isType type "command" then
            if isString (field "id") && isString (field "action") && isString (field "group") then
              some parsed
            else none
          else if isType type "result" then
            if isString (field "id") && isBoolean (field "ok") then some parsed else none
          else if isType type "event" then if isString (field "name") then some parsed else none
          else if isType type "release" then some (presentFields (header "release"))
          else if isType type "cancel" then if isString (field "id") then some parsed else none
          else if isType type "rejected" then
            if isString (field "reason") then some parsed else none
          else if isType type "ping" then some (presentFields (header "ping"))
          else if isType type "pong" then some (presentFields (header "pong"))
          else none
      | _ => none
  | _ => none

end Extension

/-! ### Members of frames -/

theorem keys_presentFields (fields : List (String × Option (Json N))) :
  ((presentFields fields).map Prod.fst).Sublist ((fields.map Prod.fst).map unitsOfString)
  := by
  induction fields with
  | nil => apply List.Sublist.refl
  | cons field fields ih =>
      rw [presentFields, List.filterMap_cons]
      cases field.2 with
      | none => apply ih.cons
      | some value => apply ih.cons_cons

/-- Names of which no two are the same and none is an index. -/
def WellNamed (names : List String) : Prop :=
  names.Nodup ∧ ∀ name ∈ names, Json.arrayIndex (unitsOfString name) = none

instance (names : List String) : Decidable (WellNamed names) :=
  inferInstanceAs (Decidable (_ ∧ _))

theorem WellNamed.tail {name : String} {names : List String} (h : WellNamed (name :: names)) :
  WellNamed names
  := ⟨(List.nodup_cons.mp h.1).2, fun _ hmem => h.2 _ (List.mem_cons_of_mem _ hmem)⟩

theorem WellNamed.nodup {fields : List (String × Option (Json N))}
    (h : WellNamed (fields.map Prod.fst)) :
  ((presentFields fields).map Prod.fst).Nodup
  := (h.1.map unitsOfString_injective).sublist (keys_presentFields fields)

/-- The members of an object with such names are enumerated as they were added, in any order. -/
theorem WellNamed.enumerated {fields : List (String × Option (Json N))}
    (h : WellNamed (fields.map Prod.fst)) {members : List (JsUnits × Json N)}
    (hperm : members.Perm (presentFields fields)) :
  Json.Enumerated (members.map Prod.fst)
  := by
  constructor
  · apply (hperm.map Prod.fst).nodup_iff.mpr h.nodup
  · apply List.pairwise_of_forall_mem_list
    intro key hkey key' hkey'
    have hmem := (keys_presentFields fields).subset ((hperm.map Prod.fst).mem_iff.mp hkey')
    obtain ⟨name, hname, rfl⟩ := List.mem_map.mp hmem
    rw [Json.before, h.2 name hname]
    rfl

theorem get_presentFields {fields : List (String × Option (Json N))}
    (h : WellNamed (fields.map Prod.fst)) {name : String} {value : Json N}
    (hmem : (name, some value) ∈ fields) :
  Json.get (presentFields fields) (unitsOfString name) = some value
  := by
  apply (Json.get_eq_some h.nodup).mpr
  apply List.mem_filterMap.mpr
  exact ⟨(name, some value), hmem, rfl⟩

theorem wellNamed_fields [JsNumber N] (frame : Frame N) :
  WellNamed (frame.fields.map Prod.fst)
  := by
  cases frame with
  | hello =>
      change WellNamed ["v", "type", "token", "role", "client", "id", "label", "browser"]
      decide
  | ready =>
      change WellNamed ["v", "type", "server", "protocol", "role", "clientId", "executor"]
      decide
  | command =>
      change WellNamed ["v", "type", "id", "action", "group", "params", "target", "timeoutMs"]
      decide
  | result =>
      change WellNamed ["v", "type", "id", "ok", "data", "error"]
      decide
  | event =>
      change WellNamed ["v", "type", "name", "group", "data"]
      decide
  | cancel =>
      change WellNamed ["v", "type", "id"]
      decide
  | rejected =>
      change WellNamed ["v", "type", "reason"]
      decide
  | _ =>
      change WellNamed ["v", "type"]
      decide

theorem ordered_presentFields (fields : List (String × Option (Json N)))
    (h : WellNamed (fields.map Prod.fst))
    (hvalues : ∀ field ∈ fields, ∀ value ∈ field.2, Json.Ordered value)
    {members : List (JsUnits × Json N)} (hperm : members.Perm (presentFields fields)) :
  Json.Ordered (.object members)
  := by
  apply Json.Ordered.object (h.enumerated hperm)
  intro member hmember
  obtain ⟨field, hfield, heq⟩ := List.mem_filterMap.mp (hperm.mem_iff.mp hmember)
  obtain ⟨value, hvalue, rfl⟩ := Option.map_eq_some_iff.mp heq
  apply hvalues field hfield value hvalue

theorem ordered_some {value : Json N} (h : value.Ordered) :
  ∀ value' ∈ some value, Json.Ordered value'
  := by
  rintro _ ⟨⟩
  apply h

theorem ordered_map {α : Type} {f : α → Json N} (h : ∀ a, (f a).Ordered) (field : Option α) :
  ∀ value ∈ field.map f, Json.Ordered value
  := by
  intro value hvalue
  obtain ⟨a, -, rfl⟩ := Option.map_eq_some_iff.mp hvalue
  apply h a

theorem ordered_errorJson (error : JsUnits × Option JsUnits) :
  Json.Ordered (errorJson error : Json N)
  := by
  have hnames : WellNamed ["message", "code"] := by decide
  apply ordered_presentFields [("message", some (.string error.1)), ("code", error.2.map .string)]
    hnames _ (List.Perm.refl _)
  simp only [List.forall_mem_cons, List.not_mem_nil, false_implies, implies_true, and_true]
  exact ⟨ordered_some (.string _), ordered_map Json.Ordered.string _⟩

theorem ordered_ownFields (frame : Frame N) :
  ∀ field ∈ frame.ownFields, ∀ value ∈ field.2, Json.Ordered value
  := by
  have hstring : ∀ s : JsUnits, ∀ value ∈ some (.string s : Json N), Json.Ordered value :=
    fun s => ordered_some (.string s)
  have hmap := ordered_map (N := N) Json.Ordered.string
  cases frame with
  | hello token role client id label browser =>
      simp only [Frame.ownFields, List.forall_mem_cons, List.not_mem_nil, false_implies,
        implies_true, and_true]
      exact ⟨hstring token, ordered_map (fun _ => .string _) role, hmap client, hmap id, hmap label,
        hmap browser⟩
  | ready protocol role clientId executor =>
      simp only [Frame.ownFields, List.forall_mem_cons, List.not_mem_nil, false_implies,
        implies_true, and_true]
      exact ⟨hstring _, ordered_some (.number protocol), ordered_map (fun _ => .string _) role,
        hmap clientId, ordered_map (fun _ => .string _) executor⟩
  | command id action group params target timeoutMs =>
      simp only [Frame.ownFields, List.forall_mem_cons, List.not_mem_nil, false_implies,
        implies_true, and_true]
      exact ⟨hstring id, hstring _, hstring group,
        ordered_some (.object params.property.1 params.property.2), hmap target,
        ordered_map Json.Ordered.number timeoutMs⟩
  | result id ok data error =>
      simp only [Frame.ownFields, List.forall_mem_cons, List.not_mem_nil, false_implies,
        implies_true, and_true]
      exact ⟨hstring id, ordered_some (.bool ok), ordered_map Subtype.property data,
        ordered_map ordered_errorJson error⟩
  | event name group data =>
      simp only [Frame.ownFields, List.forall_mem_cons, List.not_mem_nil, false_implies,
        implies_true, and_true]
      exact ⟨hstring _, hmap group,
        ordered_map (fun data => .object data.property.1 data.property.2) data⟩
  | cancel id =>
      simp only [Frame.ownFields, List.forall_mem_cons, List.not_mem_nil, false_implies,
        implies_true, and_true]
      apply hstring id
  | rejected reason =>
      simp only [Frame.ownFields, List.forall_mem_cons, List.not_mem_nil, false_implies,
        implies_true, and_true]
      apply hstring reason
  | _ =>
      intro field hfield
      cases hfield

theorem ordered_fields [JsNumber N] (frame : Frame N) :
  ∀ field ∈ frame.fields, ∀ value ∈ field.2, Json.Ordered value
  := by
  rw [Frame.fields, List.forall_mem_append, header]
  use List.forall_mem_cons.mpr ⟨ordered_some (.number _), List.forall_mem_cons.mpr
    ⟨ordered_some (.string _), fun _ hmem => by cases hmem⟩⟩
  apply ordered_ownFields

/-! ### What is read of a frame -/

section Reading

variable [ExactNumber N] {frame : Frame N}

theorem parse_object (object : frame.Object) :
  Json.parse (Json.stringify (.object object.val)) = some (.object object.val)
  := by
  apply Json.parse_stringify
  apply ordered_presentFields frame.fields (wellNamed_fields frame) (ordered_fields frame) object.property

/-- The fields of a frame are found in every object that is the frame. -/
theorem get_object (object : frame.Object) {name : String} {value : Json N}
    (h : (name, some value) ∈ frame.fields) :
  Json.get object.val (unitsOfString name) = some value
  := by
  rw [Json.get_perm object.property (wellNamed_fields frame).nodup]
  apply get_presentFields (wellNamed_fields frame) h

theorem get_type (object : frame.Object) :
  Json.get object.val (unitsOfString "type") = some (.string (unitsOfString frame.type))
  := by
  apply get_object
  simp [Frame.fields, header, literal]

theorem get_ownField (object : frame.Object) (name : String) (value : Json N)
    (h : (name, some value) ∈ frame.ownFields) :
  Json.get object.val (unitsOfString name) = some value
  := by
  apply get_object
  apply List.mem_append_right _ h

theorem isType_units (type name : String) :
  isType (unitsOfString type) name = decide (type = name)
  := by
  rw [isType, decide_eq_decide, unitsOfString_injective.eq_iff]

/-- A copy reads a frame that it has written. Frames without fields of their own are built anew,
and all others are what has been read. -/
theorem decodeFrame_encodeFrame (object : frame.Object) :
  ∃ object' : frame.Object,
    Plugin.decodeFrame (Plugin.encodeFrame object.val) = some object'.val
  := by
  rw [Plugin.decodeFrame, Plugin.encodeFrame, parse_object]
  dsimp only
  rw [get_type]
  simp only [isType_units]
  cases frame with
  | hello token role client id label browser =>
      use object
      have htoken := get_ownField object "token" (.string token)
        (by simp [Frame.ownFields])
      simp [Frame.type, htoken, isString]
  | ready protocol role clientId executor =>
      use object
      simp [Frame.type]
  | command id action group params target timeoutMs =>
      use object
      have hid := get_ownField object "id" (.string id)
        (by simp [Frame.ownFields])
      have haction := get_ownField object "action" (literal action.name)
        (by simp [Frame.ownFields])
      have hgroup := get_ownField object "group" (.string group)
        (by simp [Frame.ownFields])
      simp [Frame.type, hid, haction, hgroup, isString, literal]
  | result id ok data error =>
      use object
      have hid := get_ownField object "id" (.string id)
        (by simp [Frame.ownFields])
      have hok := get_ownField object "ok" (.bool ok)
        (by simp [Frame.ownFields])
      simp [Frame.type, hid, hok, isString, isBoolean]
  | event name group data =>
      use object
      have hname := get_ownField object "name" (literal name.name)
        (by simp [Frame.ownFields])
      simp [Frame.type, hname, isString, literal]
  | cancel id =>
      use object
      have hid := get_ownField object "id" (.string id)
        (by simp [Frame.ownFields])
      simp [Frame.type, hid, isString]
  | rejected reason =>
      use object
      have hreason := get_ownField object "reason" (.string reason)
        (by simp [Frame.ownFields])
      simp [Frame.type, hreason, isString]
  | release =>
      use ⟨Frame.release.members, List.Perm.refl _⟩
      simp [Frame.type, Frame.members, Frame.fields, Frame.ownFields]
  | ping =>
      use ⟨Frame.ping.members, List.Perm.refl _⟩
      simp [Frame.type, Frame.members, Frame.fields, Frame.ownFields]
  | pong =>
      use ⟨Frame.pong.members, List.Perm.refl _⟩
      simp [Frame.type, Frame.members, Frame.fields, Frame.ownFields]

end Reading

/-- The copies read every text in the same way. -/
theorem decodeFrame_eq [JsNumber N] (raw : List Char) :
  Plugin.decodeFrame (N := N) raw = Extension.decodeFrame raw
  := rfl

/-- Either copy reads the frames that the other one has written, whatever the order of their
members, and of every text both read the same. -/
theorem copies_agree [ExactNumber N] :
  (∀ (frame : Frame N) (object : frame.Object),
      (∃ object' : frame.Object,
        Extension.decodeFrame (Plugin.encodeFrame object.val) = some object'.val) ∧
      ∃ object' : frame.Object,
        Plugin.decodeFrame (Extension.encodeFrame object.val) = some object'.val) ∧
    ∀ raw : List Char, Plugin.decodeFrame (N := N) raw = Extension.decodeFrame raw
  := by
  constructor
  · intro frame object
    obtain ⟨object', hdecode⟩ := decodeFrame_encodeFrame object
    constructor
    · use object'
      rw [← decodeFrame_eq, hdecode]
    · use object'
      apply hdecode
  · apply decodeFrame_eq

end Browser
