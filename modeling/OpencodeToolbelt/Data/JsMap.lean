import Mathlib.Data.List.ReduceOption
import Mathlib.Data.List.Nodup

/-!
# Insertion-ordered maps

`JsMap K V` is the map of ECMAScript: a list of records in the order of their insertion, in
which deleting a record leaves an empty place, so that the position of an iterator survives
every change of the map. Setting a present key replaces its value in place, setting an
absent one appends a record.
-/

/-- A list of records, some of them deleted, with distinct keys. -/
structure JsMap (K V : Type) where
  data : List (Option (K × V))
  nodup : (data.reduceOption.map Prod.fst).Nodup

namespace JsMap

variable {K V : Type}

/-- The records that are present, in the order of their insertion. -/
def entries (m : JsMap K V) : List (K × V) := m.data.reduceOption

def keys (m : JsMap K V) : List K := m.entries.map Prod.fst

def values (m : JsMap K V) : List V := m.entries.map Prod.snd

def size (m : JsMap K V) : ℕ := m.entries.length

/-- The map without records. -/
def empty : JsMap K V := ⟨[], List.nodup_nil⟩

instance : Inhabited (JsMap K V) := ⟨empty⟩

/-- A record with its value replaced or deleted by `f`. -/
def modifySlot (f : K → V → Option V) (slot : Option (K × V)) : Option (K × V) :=
  slot.bind fun e => (f e.1 e.2).map fun v => (e.1, v)

theorem keys_modifySlot_sublist (f : K → V → Option V) (d : List (Option (K × V))) :
  ((d.map (modifySlot f)).reduceOption.map Prod.fst).Sublist (d.reduceOption.map Prod.fst)
  := by
  induction d with
  | nil => simp
  | cons slot d ih =>
      cases slot with
      | none => simpa [modifySlot] using ih
      | some e =>
          cases hf : f e.1 e.2 with
          | none =>
              simp only [List.map_cons, modifySlot, Option.bind_some, hf, Option.map_none,
                List.reduceOption_cons_of_none, List.reduceOption_cons_of_some]
              apply List.Sublist.cons _ ih
          | some v =>
              simp only [List.map_cons, modifySlot, Option.bind_some, hf, Option.map_some,
                List.reduceOption_cons_of_some]
              apply List.Sublist.cons_cons _ ih

/-- The value of every record replaced or deleted by `f`. -/
def modify (m : JsMap K V) (f : K → V → Option V) : JsMap K V :=
  ⟨m.data.map (modifySlot f), m.nodup.sublist (keys_modifySlot_sublist f m.data)⟩

/-- Every record deleted. -/
def clear (m : JsMap K V) : JsMap K V := m.modify fun _ _ => none

/-- The records whose key and value satisfy `p`. -/
def filter (m : JsMap K V) (p : K → V → Bool) : JsMap K V :=
  m.modify fun k v => if p k v then some v else none

/-- The values replaced by `f`. -/
def mapValues (m : JsMap K V) (f : K → V → V) : JsMap K V := m.modify fun k v => some (f k v)

theorem mem_entries_modify {m : JsMap K V} {f : K → V → Option V} {k : K} {v : V} :
  (k, v) ∈ (m.modify f).entries ↔ ∃ v', (k, v') ∈ m.entries ∧ f k v' = some v
  := by
  simp only [entries, modify, List.reduceOption_mem_iff, List.mem_map]
  constructor
  · rintro ⟨slot, hslot, h⟩
    obtain ⟨⟨k', v'⟩, rfl, h'⟩ := Option.bind_eq_some_iff.mp h
    obtain ⟨v'', hv, heq⟩ := Option.map_eq_some_iff.mp h'
    obtain ⟨rfl, rfl⟩ := Prod.mk.inj heq
    use v', hslot, hv
  · rintro ⟨v', hmem, hv⟩
    use some (k, v'), hmem
    simp [modifySlot, hv]

/-! ### Iteration -/

/-- The first record of a list of places, the first of which has the number given. -/
def nextRecord : ℕ → List (Option (K × V)) → Option (ℕ × K × V)
  | _, [] => none
  | position, none :: d => nextRecord (position + 1) d
  | position, some e :: _ => some (position + 1, e)

/-- The record an iterator at a position yields next, with the position after it. -/
def next (m : JsMap K V) (position : ℕ) : Option (ℕ × K × V) :=
  nextRecord position (m.data.drop position)

theorem mem_of_nextRecord {d : List (Option (K × V))} {position position' : ℕ} {e : K × V}
    (h : nextRecord position d = some (position', e)) :
  some e ∈ d
  := by
  induction d generalizing position with
  | nil => cases h
  | cons slot _ ih =>
      cases slot with
      | none =>
          apply List.mem_cons_of_mem
          apply ih h
      | some e' =>
          obtain ⟨-, rfl⟩ := Prod.mk.inj (Option.some.inj h)
          apply List.mem_cons_self

theorem mem_entries_of_next {m : JsMap K V} {position position' : ℕ} {e : K × V}
    (h : m.next position = some (position', e)) :
  e ∈ m.entries
  := by
  rw [entries, List.reduceOption_mem_iff]
  apply List.mem_of_mem_drop (mem_of_nextRecord h)

section Lookup

variable [DecidableEq K]

def get (m : JsMap K V) (k : K) : Option V :=
  (m.entries.find? fun e => e.1 = k).map Prod.snd

def has (m : JsMap K V) (k : K) : Bool := (m.get k).isSome

theorem mem_entries_of_get {m : JsMap K V} {k : K} {v : V} (h : m.get k = some v) :
  (k, v) ∈ m.entries
  := by
  obtain ⟨⟨k', v'⟩, he, rfl⟩ := Option.map_eq_some_iff.mp h
  have hk := List.find?_some he
  simp only [decide_eq_true_eq] at hk
  subst hk
  apply List.mem_of_find?_eq_some he

/-- The records of a map are what its lookups return. -/
theorem get_eq_some {m : JsMap K V} {k : K} {v : V} :
  m.get k = some v ↔ (k, v) ∈ m.entries
  := by
  constructor
  · apply mem_entries_of_get
  · intro h
    have hsome : (m.entries.find? fun e => e.1 = k).isSome := by
      simp only [List.find?_isSome, decide_eq_true_eq]
      use (k, v)
    obtain ⟨⟨k', v'⟩, he⟩ := Option.isSome_iff_exists.mp hsome
    have hget : m.get k = some v' := by
      rw [get, he, Option.map_some]
    have hinj := List.inj_on_of_nodup_map m.nodup (mem_entries_of_get hget) h rfl
    rw [hget, (Prod.mk.inj hinj).2]

theorem get_eq_none {m : JsMap K V} {k : K} :
  m.get k = none ↔ k ∉ m.keys
  := by
  simp only [Option.eq_none_iff_forall_ne_some, keys, List.mem_map, Prod.exists, not_exists]
  constructor
  · rintro h k' v ⟨hkv, rfl⟩
    apply h v (get_eq_some.mpr hkv)
  · intro h v hv
    apply h k v ⟨get_eq_some.mp hv, rfl⟩

theorem has_eq_true {m : JsMap K V} {k : K} :
  m.has k = true ↔ k ∈ m.keys
  := by
  rw [has, ← Option.isNone_eq_false_iff, Option.isNone_eq_false_iff, Option.isSome_iff_ne_none,
    Ne, get_eq_none, not_not]

@[simp]
theorem get_empty (k : K) :
  (empty : JsMap K V).get k = none
  := rfl

@[simp]
theorem get_modify (m : JsMap K V) (f : K → V → Option V) (k : K) :
  (m.modify f).get k = (m.get k).bind (f k)
  := by
  apply Option.ext
  intro v
  simp only [get_eq_some, mem_entries_modify, Option.bind_eq_some_iff]

@[simp]
theorem get_clear (m : JsMap K V) (k : K) :
  m.clear.get k = none
  := by
  simp [clear]

@[simp]
theorem get_filter (m : JsMap K V) (p : K → V → Bool) (k : K) :
  (m.filter p).get k = (m.get k).filter (p k)
  := by
  rw [filter, get_modify]
  cases m.get k with
  | none => rfl
  | some v => simp [Option.filter]

@[simp]
theorem get_mapValues (m : JsMap K V) (f : K → V → V) (k : K) :
  (m.mapValues f).get k = (m.get k).map (f k)
  := by
  rw [mapValues, get_modify]
  cases m.get k with
  | none => rfl
  | some v => rfl

/-- The record of a key set to a value: in place when the key is present, appended
otherwise. -/
def set (m : JsMap K V) (k : K) (v : V) : JsMap K V :=
  if h : k ∈ m.keys then m.modify fun k' v' => if k' = k then some v else some v'
  else
    ⟨m.data ++ [some (k, v)], by
      have hkeys : ((m.data ++ [some (k, v)]).reduceOption.map Prod.fst) = m.keys ++ [k] := by
        simp [List.reduceOption_append, keys, entries]
      rw [hkeys]
      apply List.Nodup.append m.nodup (List.nodup_singleton k)
      apply List.disjoint_singleton.mpr h⟩

/-- The record of a key deleted. -/
def delete (m : JsMap K V) (k : K) : JsMap K V :=
  m.modify fun k' v => if k' = k then none else some v

theorem entries_set_of_notMem {m : JsMap K V} {k : K} (h : k ∉ m.keys) (v : V) :
  (m.set k v).entries = m.entries ++ [(k, v)]
  := by
  simp [set, h, entries, List.reduceOption_append]

theorem get_set (m : JsMap K V) (k k' : K) (v : V) :
  (m.set k v).get k' = if k' = k then some v else m.get k'
  := by
  by_cases h : k ∈ m.keys
  · have hset : m.set k v = m.modify fun k' v' => if k' = k then some v else some v' := by
      simp [set, h]
    rw [hset, get_modify]
    by_cases hk : k' = k
    · subst hk
      obtain ⟨v', hv'⟩ := Option.ne_none_iff_exists'.mp (mt get_eq_none.mp (not_not.mpr h))
      simp [hv']
    · simp [hk]
  · apply Option.ext
    intro v'
    rw [get_eq_some, entries_set_of_notMem h, List.mem_append, ← get_eq_some]
    by_cases hk : k' = k
    · subst hk
      simp [get_eq_none.mpr h, eq_comm]
    · simp [hk]

@[simp]
theorem get_set_self (m : JsMap K V) (k : K) (v : V) :
  (m.set k v).get k = some v
  := by
  simp [get_set]

theorem get_set_of_ne (m : JsMap K V) {k k' : K} (h : k' ≠ k) (v : V) :
  (m.set k v).get k' = m.get k'
  := by
  simp [get_set, h]

theorem get_delete (m : JsMap K V) (k k' : K) :
  (m.delete k).get k' = if k' = k then none else m.get k'
  := by
  rw [delete, get_modify]
  by_cases hk : k' = k
  · simp [hk]
  · simp [hk]

@[simp]
theorem get_delete_self (m : JsMap K V) (k : K) :
  (m.delete k).get k = none
  := by
  simp [get_delete]

theorem get_delete_of_ne (m : JsMap K V) {k k' : K} (h : k' ≠ k) :
  (m.delete k).get k' = m.get k'
  := by
  simp [get_delete, h]

/-- What is in a map after a key has been deleted was in it before. -/
theorem get_of_get_delete {m : JsMap K V} {k k' : K} {v : V} (h : (m.delete k).get k' = some v) :
  m.get k' = some v
  := by
  rw [get_delete] at h
  split at h
  · cases h
  · apply h

theorem mem_keys {m : JsMap K V} {k : K} :
  k ∈ m.keys ↔ ∃ v, m.get k = some v
  := by
  rw [← not_iff_not, ← get_eq_none, Option.eq_none_iff_forall_ne_some, not_exists]

theorem mem_values {m : JsMap K V} {v : V} :
  v ∈ m.values ↔ ∃ k, m.get k = some v
  := by
  simp only [values, List.mem_map, Prod.exists, exists_eq_right, get_eq_some]

theorem has_of_get {m : JsMap K V} {k : K} {v : V} (h : m.get k = some v) :
  m.has k = true
  := by
  rw [has, h, Option.isSome_some]

theorem has_set (m : JsMap K V) (k : K) (v : V) {k' : K} (h : m.has k' = true) :
  (m.set k v).has k' = true
  := by
  rw [has, get_set]
  split
  · rfl
  · apply h

theorem has_set_self (m : JsMap K V) (k : K) (v : V) :
  (m.set k v).has k = true
  := by
  rw [has, get_set_self, Option.isSome_some]

theorem has_set_iff (m : JsMap K V) (k : K) (v : V) (k' : K) :
  (m.set k v).has k' = true ↔ k' = k ∨ m.has k' = true
  := by
  rw [has, get_set]
  split
  · next h => simp [h]
  · next h => rw [or_iff_right h, has]

theorem has_delete (m : JsMap K V) {k k' : K} (hne : k' ≠ k) (h : m.has k' = true) :
  (m.delete k).has k' = true
  := by
  rwa [has, get_delete_of_ne _ hne]

/-! ### Counting values -/

/-- How many records have a value that satisfies `p`. -/
def countValues (m : JsMap K V) (p : V → Bool) : ℕ := m.values.countP p

omit [DecidableEq K] in
theorem countValues_mono {m : JsMap K V} {p q : V → Bool}
    (h : ∀ v ∈ m.values, p v = true → q v = true) :
  m.countValues p ≤ m.countValues q
  := List.countP_mono_left h

omit [DecidableEq K] in
theorem countValues_congr {m : JsMap K V} {p q : V → Bool} (h : ∀ v ∈ m.values, p v = q v) :
  m.countValues p = m.countValues q
  := List.countP_congr fun v hv => by rw [h v hv]

omit [DecidableEq K] in
theorem entries_modify (m : JsMap K V) (f : K → V → Option V) :
  (m.modify f).entries = m.entries.filterMap fun e => (f e.1 e.2).map fun v => (e.1, v)
  := by
  simp only [entries, modify]
  induction m.data with
  | nil => rfl
  | cons slot d ih =>
      cases slot with
      | none => simpa [modifySlot] using ih
      | some e =>
          cases hf : f e.1 e.2 with
          | none => simpa [modifySlot, hf] using ih
          | some v => simpa [modifySlot, hf] using ih

/-- A change of the record of a key leaves a list alone in which the key is absent. -/
theorem filterMap_absent {l : List (K × V)} {k : K} (g : V → Option V)
    (hl : ∀ e ∈ l, e.1 ≠ k) :
  (l.filterMap fun e => (if e.1 = k then g e.2 else some e.2).map fun v => (e.1, v)) = l
  := by
  induction l with
  | nil => rfl
  | cons e l ih =>
      rw [List.forall_mem_cons] at hl
      simp [hl.1, ih hl.2]

/-- The records around the one of a key, when it is deleted or set. -/
theorem entries_around {m : JsMap K V} {k : K} {v : V} (h : m.get k = some v) :
  ∃ pre post, m.entries = pre ++ (k, v) :: post ∧ (m.delete k).entries = pre ++ post ∧
    ∀ v', (m.set k v').entries = pre ++ (k, v') :: post
  := by
  obtain ⟨pre, post, hsplit⟩ := List.append_of_mem (mem_entries_of_get h)
  have hnodup : (pre.map Prod.fst ++ k :: post.map Prod.fst).Nodup := by
    have hkeys : m.entries.map Prod.fst = pre.map Prod.fst ++ k :: post.map Prod.fst := by
      rw [hsplit, List.map_append, List.map_cons]
    rw [← hkeys]
    apply m.nodup
  rw [List.nodup_middle, List.nodup_cons, List.mem_append, not_or] at hnodup
  obtain ⟨⟨hpre, hpost⟩, -⟩ := hnodup
  have hpre' : ∀ e ∈ pre, e.1 ≠ k := fun e he heq => hpre (heq ▸ List.mem_map_of_mem he)
  have hpost' : ∀ e ∈ post, e.1 ≠ k := fun e he heq => hpost (heq ▸ List.mem_map_of_mem he)
  use pre, post, hsplit
  constructor
  · rw [delete, entries_modify, hsplit, List.filterMap_append, List.filterMap_cons]
    rw [filterMap_absent (fun _ => none) hpre', filterMap_absent (fun _ => none) hpost']
    simp
  · intro v'
    have hmem : k ∈ m.keys := mem_keys.mpr ⟨v, h⟩
    rw [set, dif_pos hmem, entries_modify, hsplit, List.filterMap_append, List.filterMap_cons]
    rw [filterMap_absent (fun _ => some v') hpre', filterMap_absent (fun _ => some v') hpost']
    simp

theorem countValues_set (m : JsMap K V) (k : K) (v : V) (p : V → Bool) :
  (m.set k v).countValues p + (if (m.get k).any p then 1 else 0) =
    m.countValues p + if p v then 1 else 0
  := by
  unfold countValues values
  cases h : m.get k with
  | none =>
      rw [entries_set_of_notMem (get_eq_none.mp h)]
      simp [List.countP_cons]
  | some v' =>
      obtain ⟨pre, post, hentries, -, hset⟩ := entries_around h
      rw [hset, hentries]
      simp [List.countP_append, List.countP_cons]
      omega

theorem countValues_delete (m : JsMap K V) (k : K) (p : V → Bool) :
  (m.delete k).countValues p + (if (m.get k).any p then 1 else 0) = m.countValues p
  := by
  unfold countValues values
  cases h : m.get k with
  | none =>
      have hsame : (m.delete k).entries = m.entries := by
        rw [delete, entries_modify]
        apply filterMap_absent fun _ => none
        intro e he heq
        exact get_eq_none.mp h (heq ▸ List.mem_map_of_mem he)
      rw [hsame]
      simp
  | some v =>
      obtain ⟨pre, post, hentries, hdelete, -⟩ := entries_around h
      rw [hdelete, hentries]
      simp [List.countP_append, List.countP_cons]
      omega

omit [DecidableEq K] in
theorem countValues_clear (m : JsMap K V) (p : V → Bool) :
  m.clear.countValues p = 0
  := by
  have hempty : m.clear.entries = [] := by
    rw [clear, entries_modify]
    simp
  unfold countValues values
  rw [hempty]
  rfl

end Lookup

end JsMap
