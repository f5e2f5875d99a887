import OpencodeToolbelt.Data.JsMap

/-!
# Going through a map

A loop over the records of a map that replaces or deletes each of them in turn changes all of them
at once.
-/

namespace JsMap

variable {K V : Type}

theorem modifySlot_bind (f g : K → V → Option V) (slot : Option (K × V)) :
  modifySlot g (modifySlot f slot) = modifySlot (fun k v => (f k v).bind (g k)) slot
  := by
  cases slot with
  | none => rfl
  | some e =>
      simp only [modifySlot, Option.bind_some]
      cases f e.1 e.2 with
      | none => rfl
      | some v => rfl

theorem modify_modify (m : JsMap K V) (f g : K → V → Option V) :
  (m.modify f).modify g = m.modify fun k v => (f k v).bind (g k)
  := by
  simp only [modify, mk.injEq, List.map_map]
  apply List.map_congr_left
  intro slot _
  apply modifySlot_bind

theorem modify_congr {m : JsMap K V} {f g : K → V → Option V}
    (h : ∀ k v, (k, v) ∈ m.entries → f k v = g k v) :
  m.modify f = m.modify g
  := by
  simp only [modify, mk.injEq]
  apply List.map_congr_left
  intro slot hslot
  cases slot with
  | none => rfl
  | some e =>
      have hmem : (e.1, e.2) ∈ m.entries := List.reduceOption_mem_iff.mpr hslot
      simp only [modifySlot, Option.bind_some, h e.1 e.2 hmem]

theorem modify_some (m : JsMap K V) :
  (m.modify fun _ v => some v) = m
  := by
  obtain ⟨data, hnodup⟩ := m
  simp only [modify, mk.injEq]
  apply (List.map_congr_left _).trans (List.map_id data)
  intro slot _
  cases slot with
  | none => rfl
  | some e => rfl

/-- A change of every record that has no effect on its own results has no effect the second time. -/
theorem modify_twice {m : JsMap K V} {f : K → V → Option V}
    (h : ∀ k v v', f k v = some v' → f k v' = some v') :
  (m.modify f).modify f = m.modify f
  := by
  rw [modify_modify]
  apply modify_congr
  intro k v _
  cases hf : f k v with
  | none => rfl
  | some v' => apply h k v v' hf

section Lookup

variable [DecidableEq K]

/-- The record of a key that is present replaced, or else deleted. -/
def update (m : JsMap K V) (k : K) (v : Option V) : JsMap K V :=
  m.modify fun k' v' => if k' = k then v else some v'

theorem update_none (m : JsMap K V) (k : K) :
  m.update k none = m.delete k
  := rfl

theorem update_some {m : JsMap K V} {k : K} {v : V} (h : m.get k = some v) (v' : V) :
  m.update k (some v') = m.set k v'
  := by
  rw [set, dif_pos (mem_keys.mpr ⟨v, h⟩), update]

theorem update_self {m : JsMap K V} {k : K} {v : V} (h : m.get k = some v) :
  m.update k (some v) = m
  := by
  rw [update]
  apply (modify_congr _).trans (modify_some m)
  intro k' v' hmem
  split
  · next hk =>
      rw [← get_eq_some, hk, h] at hmem
      apply hmem
  · rfl

theorem get_update_of_ne (m : JsMap K V) {k k' : K} (hne : k' ≠ k) (v : Option V) :
  (m.update k v).get k' = m.get k'
  := by
  rw [update, get_modify]
  simp only [if_neg hne]
  apply Option.bind_fun_some

/-- A loop over records of the map, each of which it replaces or deletes. -/
theorem foldl_update {f : K → V → Option V} {step : JsMap K V → K × V → JsMap K V}
    (hstep : ∀ m e, m.get e.1 = some e.2 → step m e = m.update e.1 (f e.1 e.2))
    {entries : List (K × V)} {m : JsMap K V} (hentries : ∀ e ∈ entries, m.get e.1 = some e.2)
    (hnodup : (entries.map Prod.fst).Nodup) :
  entries.foldl step m = m.modify fun k v => if k ∈ entries.map Prod.fst then f k v else some v
  := by
  induction entries generalizing m with
  | nil =>
      simp only [List.foldl_nil, List.map_nil, List.not_mem_nil, if_false]
      apply (modify_some m).symm
  | cons e entries ih =>
      rw [List.map_cons, List.nodup_cons] at hnodup
      rw [List.forall_mem_cons] at hentries
      have hrest : ∀ e' ∈ entries, (m.update e.1 (f e.1 e.2)).get e'.1 = some e'.2 := by
        intro e' hmem
        rw [get_update_of_ne, hentries.2 e' hmem]
        intro heq
        apply hnodup.1 (heq ▸ List.mem_map_of_mem hmem)
      rw [List.foldl_cons, hstep m e hentries.1, ih hrest hnodup.2, update, modify_modify]
      apply modify_congr
      intro k v hmem
      by_cases hk : k = e.1
      · have hv : some e.2 = some v := by
          rw [← hentries.1, ← hk, get_eq_some]
          apply hmem
        cases hv
        rw [if_pos hk, List.map_cons, if_pos (hk ▸ List.mem_cons_self), hk]
        simp only [if_neg hnodup.1]
        apply Option.bind_fun_some
      · rw [if_neg hk]
        simp only [List.map_cons, List.mem_cons, hk, false_or, Option.bind_some]

end Lookup

end JsMap
