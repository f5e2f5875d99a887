import OpencodeToolbelt.Data.JsMap
import OpencodeToolbelt.Data.JsString
import OpencodeToolbelt.Data.Json
import Mathlib.Data.List.Sort
import Mathlib.Data.Rat.Defs

/-!
# Values of a configuration

What a program of ECMAScript finds under the keys of a configuration: the values of JSON, and
what other programs have put there.
-/

/-- A function for making requests: one that was given, or one that repairs what another, or the
global one, answers. -/
inductive FetchFunction where
  | given (number : ℕ)
  | repairing (delegate : Option FetchFunction)

/-- A value. The members of an object stand in the order in which they are enumerated. -/
inductive JsValue where
  | undefined
  | null
  | bool (value : Bool)
  | number (value : ℚ)
  /-- `NaN` and the infinities. -/
  | nonFinite
  | string (value : String)
  | array (items : List JsValue)
  | object (members : List (String × JsValue))
  | function (function : FetchFunction)

abbrev JsObject := List (String × JsValue)

namespace JsObject

/-- `object[key]` -/
def get (object : JsObject) (key : String) : JsValue := (object.lookup key).getD .undefined

/-- `object[key] = value`, for a key that is not the index of an array. -/
def set (object : JsObject) (key : String) (value : JsValue) : JsObject :=
  if (object.lookup key).isSome then
    object.map fun member => if member.1 = key then (key, value) else member
  else object ++ [(key, value)]

/-- `delete object[key]` -/
def delete (object : JsObject) (key : String) : JsObject :=
  object.filter fun member => member.1 ≠ key

theorem lookup_cons (member : String × JsValue) (object : JsObject) (key : String) :
  (member :: object).lookup key = if key = member.1 then some member.2 else object.lookup key
  := by
  rw [List.lookup_cons]
  by_cases h : key = member.1
  · simp [h]
  · rw [beq_false_of_ne h, if_neg h]

theorem lookup_replace (object : JsObject) (key key' : String) (value : JsValue) :
  (object.map fun member => if member.1 = key then (key, value) else member).lookup key' =
    if key' = key then (object.lookup key).map fun _ => value else object.lookup key'
  := by
  induction object with
  | nil =>
      split <;> rfl
  | cons member object ih =>
      rw [List.map_cons, lookup_cons, lookup_cons, lookup_cons, ih]
      by_cases hmember : member.1 = key
      · rw [if_pos hmember, hmember]
        by_cases hkey : key' = key
        · rw [if_pos hkey, if_pos hkey, if_pos rfl, Option.map_some]
        · rw [if_neg hkey, if_neg hkey, if_neg hkey, if_neg hkey]
      · have hne : key ≠ member.1 := fun h => hmember h.symm
        rw [if_neg hmember, if_neg hne]
        by_cases hkey : key' = key
        · rw [if_pos hkey, if_pos hkey, hkey, if_neg hne]
        · rw [if_neg hkey, if_neg hkey]

theorem lookup_set (object : JsObject) (key key' : String) (value : JsValue) :
  (object.set key value).lookup key' = if key' = key then some value else object.lookup key'
  := by
  rw [set]
  split
  · next h =>
      rw [lookup_replace]
      obtain ⟨old, hold⟩ := Option.isSome_iff_exists.mp h
      rw [hold, Option.map_some]
  · next h =>
      rw [List.lookup_append]
      by_cases hkey : key' = key
      · rw [if_pos hkey, hkey, Option.not_isSome_iff_eq_none.mp h, Option.none_or,
          List.lookup_cons_self]
      · rw [if_neg hkey, lookup_cons, if_neg hkey, List.lookup_nil, Option.or_none]

@[simp]
theorem get_set_self (object : JsObject) (key : String) (value : JsValue) :
  (object.set key value).get key = value
  := by
  rw [get, lookup_set, if_pos rfl, Option.getD_some]

theorem get_set_of_ne (object : JsObject) {key key' : String} (h : key' ≠ key)
    (value : JsValue) :
  (object.set key value).get key' = object.get key'
  := by
  rw [get, lookup_set, if_neg h, get]

theorem get_delete_of_ne (object : JsObject) {key key' : String} (h : key' ≠ key) :
  (object.delete key).get key' = object.get key'
  := by
  rw [get, get]
  congr 1
  induction object with
  | nil => rfl
  | cons member object ih =>
      rw [delete, List.filter_cons, lookup_cons]
      by_cases hmember : member.1 = key
      · rw [if_neg (by simp [hmember]), if_neg fun heq => h (heq.trans hmember)]
        apply ih
      · rw [if_pos (by simp [hmember]), lookup_cons]
        congr 1

end JsObject

/-! ### Readings of a value -/

/-- A value that is an object, and neither `null` nor an array. -/
def asRecord : JsValue → Option JsObject
  | .object members => some members
  | _ => none

/-- A text that is not blank, without the blanks around it. -/
def nonBlank (s : String) : Option String := if trim s = "" then none else some (trim s)

def asString : JsValue → Option String
  | .string s => nonBlank s
  | _ => none

/-- The texts among the items of an array, or between the blanks and commas of a text. -/
def asStringArray (value : JsValue) : Option (List String) :=
  let normalized := match value with
    | .array items => items.filterMap asString
    | .string s =>
        ((s.toList.splitOnP fun c => isBlank c || c = ',').map String.ofList).filter (· ≠ "")
    | _ => []
  if normalized = [] then none else some normalized

def asStringMap (value : JsValue) : Option (List (String × String)) :=
  let normalized := ((asRecord value).getD []).filterMap fun member =>
    (asString member.2).map fun text => (member.1, text)
  if normalized = [] then none else some normalized

/-- `Object.entries` of a record of others: keys that are the indices of an array come first and
in order. -/
def objectEntries {V : Type} (record : JsMap String V) : List (String × V) :=
  let index := fun entry : String × V => Json.arrayIndex (unitsOfString entry.1)
  (record.entries.filter fun entry => (index entry).isSome).insertionSort
      (fun entry entry' => (index entry).getD 0 ≤ (index entry').getD 0) ++
    record.entries.filter fun entry => (index entry).isNone

theorem mem_objectEntries {V : Type} {record : JsMap String V} {entry : String × V} :
  entry ∈ objectEntries record ↔ entry ∈ record.entries
  := by
  simp only [objectEntries, List.mem_append, List.mem_insertionSort, List.mem_filter,
    ← and_or_left, ← Option.not_isSome, Bool.not_eq_true', Bool.eq_false_or_eq_true, and_true]

theorem nodup_objectEntries {V : Type} (record : JsMap String V) :
  ((objectEntries record).map Prod.fst).Nodup
  := by
  have hperm : (objectEntries record).Perm record.entries := by
    apply List.Perm.trans (List.Perm.append_right _ (List.perm_insertionSort _ _))
    simp only [← Option.not_isSome]
    apply List.filter_append_perm
  apply (hperm.map Prod.fst).nodup_iff.mpr record.nodup
