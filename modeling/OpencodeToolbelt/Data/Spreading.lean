import OpencodeToolbelt.Data.JsValue

/-!
# Spreading records

Objects into which the entries of others are written, one object after the other.
-/

namespace JsMap

variable {K V : Type}

theorem mem_keys_iff_isSome {m : JsMap K V} {k : K} [DecidableEq K] :
  k ∈ m.keys ↔ (m.get k).isSome = true
  := by
  rw [mem_keys, Option.isSome_iff_exists]

theorem keys_nodup (m : JsMap K V) :
  m.keys.Nodup
  := m.nodup

theorem entries_modify_of_some {m : JsMap K V} (f : K → V → V) :
  (m.modify fun k v => some (f k v)).entries = m.entries.map fun entry => (entry.1, f entry.1 entry.2)
  := by
  unfold entries modify
  dsimp only
  induction m.data with
  | nil => rfl
  | cons slot data ih =>
      cases slot with
      | none => simpa [modifySlot] using ih
      | some entry => simpa [modifySlot] using ih

variable [DecidableEq K]

theorem keys_set (m : JsMap K V) (k : K) (v : V) :
  (m.set k v).keys = if k ∈ m.keys then m.keys else m.keys ++ [k]
  := by
  by_cases h : k ∈ m.keys
  · have hset : m.set k v = m.modify fun k' v' => some (if k' = k then v else v') := by
      rw [set, dif_pos h]
      congr 1
      funext k' v'
      split <;> rfl
    rw [if_pos h, hset, keys, entries_modify_of_some, List.map_map]
    rfl
  · rw [if_neg h, keys, entries_set_of_notMem h, List.map_append]
    rfl

/-- The entries of a map are its keys with what it has under them. -/
theorem entries_eq (m : JsMap K V) :
  m.entries = m.keys.filterMap fun k => (m.get k).map fun v => (k, v)
  := by
  rw [keys, List.filterMap_map]
  symm
  apply (List.filterMap_congr (g := fun entry => some entry) _).trans List.filterMap_some
  intro entry hentry
  have hget : m.get entry.1 = some entry.2 := get_eq_some.mpr hentry
  simp [hget]

end JsMap

/-! ### Writing entries -/

section Spread

variable {V : Type}

/-- The entries of a list are written one after the other. -/
def JsMap.setAll (record : JsMap String V) (entries : List (String × V)) : JsMap String V :=
  entries.foldl (fun record entry => record.set entry.1 entry.2) record

/-- `{ ...record, ...record' }` -/
def JsMap.spread (record record' : JsMap String V) : JsMap String V :=
  record.setAll (objectEntries record')

theorem JsMap.get_setAll (record : JsMap String V) {entries : List (String × V)}
    (hnodup : (entries.map Prod.fst).Nodup) (key : String) :
  (record.setAll entries).get key = (entries.lookup key).or (record.get key)
  := by
  induction entries generalizing record with
  | nil => rfl
  | cons entry entries ih =>
      rw [List.map_cons, List.nodup_cons] at hnodup
      rw [setAll, List.foldl_cons, ← setAll, ih _ hnodup.2, JsMap.get_set, List.lookup_cons]
      by_cases hkey : key = entry.1
      · have hnone : entries.lookup key = none := by
          rw [List.lookup_eq_none_iff]
          intro entry' hentry'
          simp only [bne_iff_ne]
          rintro rfl
          apply hnodup.1
          rw [← hkey]
          apply List.mem_map_of_mem hentry'
        rw [hnone, if_pos hkey, beq_iff_eq.mpr hkey]
        rfl
      · rw [if_neg hkey, beq_false_of_ne hkey]

theorem JsMap.keys_setAll (record : JsMap String V) {entries : List (String × V)}
    (hnodup : (entries.map Prod.fst).Nodup) :
  (record.setAll entries).keys =
    record.keys ++ (entries.map Prod.fst).filter fun key => key ∉ record.keys
  := by
  induction entries generalizing record with
  | nil => rw [setAll, List.foldl_nil, List.map_nil, List.filter_nil, List.append_nil]
  | cons entry entries ih =>
      rw [List.map_cons, List.nodup_cons] at hnodup
      rw [setAll, List.foldl_cons, ← setAll, ih _ hnodup.2, JsMap.keys_set, List.map_cons]
      by_cases hkey : entry.1 ∈ record.keys
      · rw [if_pos hkey, List.filter_cons_of_neg (by simpa using hkey)]
      · rw [if_neg hkey, List.filter_cons_of_pos (by simpa using hkey), List.append_assoc,
          List.singleton_append]
        congr 2
        apply List.filter_congr
        intro key hmem
        have hne : key ≠ entry.1 := by
          rintro rfl
          apply hnodup.1 hmem
        simp [hne]

theorem lookup_eq_some {entries : List (String × V)} (hnodup : (entries.map Prod.fst).Nodup)
    {key : String} {value : V} :
  entries.lookup key = some value ↔ (key, value) ∈ entries
  := by
  induction entries with
  | nil => simp
  | cons entry entries ih =>
      rw [List.map_cons, List.nodup_cons] at hnodup
      rw [List.lookup_cons, List.mem_cons]
      by_cases hkey : key = entry.1
      · rw [beq_iff_eq.mpr hkey]
        have hnot : (key, value) ∉ entries := by
          intro hmem
          apply hnodup.1
          rw [← hkey]
          apply List.mem_map_of_mem hmem
        rw [hkey] at hnot ⊢
        simp [hnot, Prod.ext_iff, eq_comm]
      · rw [beq_false_of_ne hkey]
        simp [ih hnodup.2, Prod.ext_iff, hkey]

theorem lookup_objectEntries (record : JsMap String V) (key : String) :
  (objectEntries record).lookup key = record.get key
  := by
  apply Option.ext
  intro value
  rw [lookup_eq_some (nodup_objectEntries record), mem_objectEntries, ← JsMap.get_eq_some]

theorem JsMap.get_spread (record record' : JsMap String V) (key : String) :
  (record.spread record').get key = (record'.get key).or (record.get key)
  := by
  rw [spread, get_setAll _ (nodup_objectEntries record'), lookup_objectEntries]

theorem JsMap.keys_spread (record record' : JsMap String V) :
  (record.spread record').keys =
    record.keys ++ ((objectEntries record').map Prod.fst).filter fun key => key ∉ record.keys
  := keys_setAll record (nodup_objectEntries record')

theorem objectEntries_perm (record : JsMap String V) :
  (objectEntries record).Perm record.entries
  := by
  apply (List.perm_ext_iff_of_nodup (nodup_objectEntries record).of_map
    record.nodup.of_map).mpr
  intro entry
  apply mem_objectEntries

/-- Keys that are no indices, or of which there is one at most, stand in their order. -/
theorem filter_objectEntries (record : JsMap String V) {p : String → Bool}
    (hp : ∀ key, p key = true → Json.arrayIndex (unitsOfString key) ≠ none →
      ∀ key', p key' = true → key' = key) :
  (objectEntries record).filter (fun entry => p entry.1) =
    record.entries.filter fun entry => p entry.1
  := by
  have hperm : ((objectEntries record).filter fun entry => p entry.1).Perm
      (record.entries.filter fun entry => p entry.1) := (objectEntries_perm record).filter _
  by_cases hindex : ∃ entry ∈ record.entries, p entry.1 = true ∧
      Json.arrayIndex (unitsOfString entry.1) ≠ none
  · -- All entries have one key, and so there is one entry.
    obtain ⟨entry, hentry, hpentry, hne⟩ := hindex
    have hone : record.entries.filter (fun entry => p entry.1) = [entry] := by
      have hall : ∀ entry' ∈ record.entries.filter fun entry => p entry.1, entry' = entry := by
        intro entry' hmem
        obtain ⟨hentry', hpentry'⟩ := List.mem_filter.mp hmem
        apply List.inj_on_of_nodup_map record.nodup hentry' hentry
        apply hp entry.1 hpentry hne entry'.1 hpentry'
      apply List.perm_singleton.mp
      apply (List.perm_ext_iff_of_nodup (List.Nodup.filter _ record.nodup.of_map)
        (List.nodup_singleton entry)).mpr
      intro entry'
      rw [List.mem_singleton]
      constructor
      · apply hall
      · rintro rfl
        apply List.mem_filter.mpr ⟨hentry, hpentry⟩
    rw [hone] at hperm ⊢
    apply List.perm_singleton.mp hperm
  · rw [objectEntries, List.filter_append]
    dsimp only
    have hsorted : List.filter (fun entry => p entry.1)
        ((record.entries.filter fun entry : String × V =>
          (Json.arrayIndex (unitsOfString entry.1)).isSome).insertionSort
            fun entry entry' => (Json.arrayIndex (unitsOfString entry.1)).getD 0 ≤
              (Json.arrayIndex (unitsOfString entry'.1)).getD 0) = [] := by
      apply List.filter_eq_nil_iff.mpr
      intro entry hmem hpentry
      rw [List.mem_insertionSort, List.mem_filter] at hmem
      apply hindex
      exact ⟨entry, hmem.1, hpentry, Option.isSome_iff_ne_none.mp hmem.2⟩
    rw [hsorted, List.nil_append, List.filter_filter]
    apply List.filter_congr
    intro entry hentry
    by_cases hpentry : p entry.1 = true
    · have hnone : Json.arrayIndex (unitsOfString entry.1) = none := by
        by_contra hne
        apply hindex ⟨entry, hentry, hpentry, hne⟩
      rw [hnone, Option.isNone_none, Bool.and_true]
    · rw [Bool.not_eq_true] at hpentry
      rw [hpentry, Bool.false_and]

end Spread
