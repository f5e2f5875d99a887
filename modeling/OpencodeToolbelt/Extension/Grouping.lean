import OpencodeToolbelt.Extension.GroupRegistry

/-!
# The tabs of a group

Once all operations have settled a group has the tabs that have been opened in it and neither
closed nor forgotten, as long as no operation writes over what another one has done meanwhile.
-/

namespace Extension

/-- What the registry is to hold: of each group the tabs opened in it that have been neither
closed nor forgotten, one of them active, and no group without tabs. -/
structure GroupsKept (s : GroupRegistry) : Prop where
  tabs : ∀ name t, t ∈ s.tabsOf name ↔ (name, t) ∈ s.opened ∧ t ∉ s.gone
  active : ∀ name group, s.groups.get name = some group →
    ∃ t, group.activeTabId = some t ∧ t ∈ group.tabIds
  nonempty : ∀ name group, s.groups.get name = some group → group.tabIds ≠ []

/-- A record of a group under its own name, with an active tab. -/
structure GroupRecord.WellFormed (group : GroupRecord) (name : String) : Prop where
  name_eq : group.name = name
  active : ∃ t, group.activeTabId = some t ∧ t ∈ group.tabIds

namespace RegistryAwait

/-- The tab that an operation will add to a group. -/
def opens : RegistryAwait → Option ℕ
  | .grouping _ tabId _ => some tabId
  | .loading _ tabId _ => some tabId
  | _ => none

/-- Whether an operation will take a tab out of a group. -/
def Drops (name : String) (t : ℕ) : RegistryAwait → Prop
  | .releasing group toClose _ => group.name = name ∧ t ∈ toClose
  | .removing group toClose _ => group.name = name ∧ t ∈ toClose
  | .forgetting group tabId => group.name = name ∧ t = tabId
  | _ => False

end RegistryAwait

namespace GroupRegistry

/-- The registry is at rest. -/
def Settled (s : GroupRegistry) : Prop := ∀ i, s.operations.get i = none

/-- Whether a group that has a record has a tab. -/
def listed (s : GroupRegistry) (name : String) (target : ℕ) : Bool :=
  (s.groups.get name).all fun group => target ∈ group.tabIds

/-- Whether a group has the same tabs as in a record, up to some of them. -/
def unchanged (s : GroupRegistry) (group : GroupRecord) (toClose : List ℕ) : Bool :=
  (s.tabsOf group.name ++ group.tabIds).all fun t =>
    t ∈ toClose || t ∈ s.tabsOf group.name && t ∈ group.tabIds

/-- Whether an operation that goes on finds the registry as it takes it to be: a tab that has
been opened has not gone, the target of a navigation is still in its group, and a group that
tabs are taken out of has not changed since its record was read. -/
def undisturbed (s : GroupRegistry) : RegistryAwait → RegistryReply → Bool
  | .loading _ tabId _, .polled true _ => tabId ∉ s.gone
  | .completing name target, .polled true _ => s.listed name target
  | .inspecting name target, .inspected false => s.listed name target
  | .focusing name target, .resolved => s.listed name target
  | .removing group toClose [], .resolved => s.unchanged group toClose
  | .forgetting group tabId, .resolved => s.unchanged group [tabId]
  | _, _ => true

def Undisturbed (s : GroupRegistry) : RegistryEvent → Prop
  | .settle i reply =>
      ((s.operations.get i).all fun await => s.undisturbed await reply) = true
  | _ => True

instance (s : GroupRegistry) (e : RegistryEvent) : Decidable (s.Undisturbed e) :=
  match e with
  | .settle _ _ => inferInstanceAs (Decidable (_ = true))
  | .open _ | .navigate _ _ | .back _ _ | .forward _ _ | .reload _ _ | .activate _ _
  | .close _ _ | .forget _ => .isTrue trivial

/-- What an operation in progress holds. -/
def Holds (s : GroupRegistry) : RegistryAwait → Prop
  | .grouping _ tabId _ => tabId ∈ s.created ∧ ∀ name, (name, tabId) ∉ s.opened
  | .loading _ tabId _ => tabId ∈ s.created ∧ ∀ name, (name, tabId) ∉ s.opened
  | .releasing group toClose _ => group.WellFormed group.name ∧ ∀ t ∈ toClose, t ∈ s.gone
  | .removing group toClose _ => group.WellFormed group.name ∧ ∀ t ∈ toClose, t ∈ s.gone
  | .forgetting group tabId => group.WellFormed group.name ∧ tabId ∈ s.gone
  | _ => True

/-- The invariant of the registry. A tab that has gone is still listed only as long as an
operation is on the way to take it out. -/
structure Orderly (s : GroupRegistry) : Prop where
  records : ∀ name group, s.groups.get name = some group → group.WellFormed name
  opened : ∀ name t, t ∈ s.tabsOf name → (name, t) ∈ s.opened
  kept : ∀ name t, (name, t) ∈ s.opened → t ∉ s.gone → t ∈ s.tabsOf name
  leaving : ∀ name t, t ∈ s.tabsOf name → t ∈ s.gone →
    ∃ i await, s.operations.get i = some await ∧ await.Drops name t
  created : ∀ name t, (name, t) ∈ s.opened → t ∈ s.created
  one : ∀ name name' t, (name, t) ∈ s.opened → (name', t) ∈ s.opened → name = name'
  holds : ∀ i await, s.operations.get i = some await → s.Holds await
  own : ∀ i j await await' t, s.operations.get i = some await →
    s.operations.get j = some await' → await.opens = some t → await'.opens = some t → i = j
  fresh : ∀ i, s.operationSeq ≤ i → s.operations.get i = none

section Steps

variable {s : GroupRegistry}

/-- At rest, the invariant is what the registry is to hold. -/
theorem Orderly.groupsKept (hs : s.Orderly) (hsettled : s.Settled) :
  GroupsKept s
  := by
  constructor
  · intro name t
    constructor
    · intro ht
      use hs.opened name t ht
      intro hgone
      obtain ⟨i, await, hi, -⟩ := hs.leaving name t ht hgone
      rw [hsettled i] at hi
      cases hi
    · rintro ⟨hopened, hgone⟩
      apply hs.kept name t hopened hgone
  · intro name group hgroup
    apply (hs.records name group hgroup).active
  · intro name group hgroup
    obtain ⟨t, -, ht⟩ := (hs.records name group hgroup).active
    apply List.ne_nil_of_mem ht

theorem tabsOf_of_get {name : String} {group : GroupRecord}
    (h : s.groups.get name = some group) :
  s.tabsOf name = group.tabIds
  := by
  unfold tabsOf
  rw [h]
  rfl

theorem exists_of_mem_tabsOf {name : String} {t : ℕ} (h : t ∈ s.tabsOf name) :
  ∃ group, s.groups.get name = some group ∧ t ∈ group.tabIds
  := by
  unfold tabsOf at h
  cases hgroup : s.groups.get name with
  | none =>
      rw [hgroup] at h
      cases h
  | some group =>
      rw [hgroup] at h
      use group
      exact ⟨rfl, h⟩

theorem unchanged_iff {group : GroupRecord} {toClose : List ℕ} :
  s.unchanged group toClose = true ↔
    ∀ t, t ∉ toClose → (t ∈ s.tabsOf group.name ↔ t ∈ group.tabIds)
  := by
  simp only [unchanged, List.all_eq_true, List.mem_append, Bool.or_eq_true, Bool.and_eq_true,
    decide_eq_true_eq]
  constructor
  · intro h t hnot
    constructor
    · intro ht
      apply ((h t (.inl ht)).resolve_left hnot).2
    · intro ht
      apply ((h t (.inr ht)).resolve_left hnot).1
  · intro h t ht
    by_cases hmem : t ∈ toClose
    · exact .inl hmem
    · obtain ht | ht := ht
      · exact .inr ⟨ht, (h t hmem).mp ht⟩
      · exact .inr ⟨(h t hmem).mpr ht, ht⟩

/-- What an operation holds it still holds when further tabs have gone. -/
theorem Holds.gone {await : RegistryAwait} (h : s.Holds await) (toClose : List ℕ)
    {groups : JsMap String GroupRecord} {operationSeq : ℕ}
    {operations : JsMap ℕ RegistryAwait} :
  Holds { s with groups, operations, operationSeq, gone := toClose ++ s.gone } await
  := by
  cases await with
  | grouping => exact h
  | loading => exact h
  | releasing => exact ⟨h.1, fun t ht => List.mem_append_right _ (h.2 t ht)⟩
  | removing => exact ⟨h.1, fun t ht => List.mem_append_right _ (h.2 t ht)⟩
  | forgetting => exact ⟨h.1, List.mem_append_right _ h.2⟩
  | _ => trivial

namespace Orderly

theorem lt_operationSeq (hs : s.Orderly) {i : ℕ} {await : RegistryAwait}
    (hi : s.operations.get i = some await) :
  i < s.operationSeq
  := by
  rw [← Nat.not_le]
  intro hle
  rw [hs.fresh i hle] at hi
  cases hi

theorem initial :
  GroupRegistry.initial.Orderly
  := by
  constructor
  · exact fun name group h => by cases h
  · exact fun name t h => by cases h
  · exact fun name t h => by cases h
  · exact fun name t h => by cases h
  · exact fun name t h => by cases h
  · exact fun name name' t h => by cases h
  · exact fun i await h => by cases h
  · exact fun i j await await' t h => by cases h
  · exact fun i h => rfl

/-- An operation goes on to another await, while some tabs go that it will take out. -/
theorem awaits (hs : s.Orderly) {i : ℕ} {await : RegistryAwait} (toClose : List ℕ)
    (hclose : ∀ name t, t ∈ toClose → t ∈ s.tabsOf name → await.Drops name t)
    (hdrops : ∀ old, s.operations.get i = some old → ∀ name t, t ∈ s.tabsOf name →
      old.Drops name t → await.Drops name t)
    (hopens : ∀ t j old, await.opens = some t → s.operations.get j = some old →
      old.opens = some t → j = i)
    (hholds : Holds { s with gone := toClose ++ s.gone } await) (hi : i < s.operationSeq) :
  ({ s with gone := toClose ++ s.gone }.awaits i await).Orderly
  := by
  have hget : ∀ j await', (s.operations.set i await).get j = some await' →
      j = i ∧ await' = await ∨ s.operations.get j = some await' := by
    intro j await' hj
    rw [JsMap.get_set] at hj
    split at hj
    · next heq => exact .inl ⟨heq, (Option.some.inj hj).symm⟩
    · exact .inr hj
  constructor
  · apply hs.records
  · apply hs.opened
  · intro name t hopened hgone
    apply hs.kept name t hopened
    intro hmem
    apply hgone
    apply List.mem_append_right _ hmem
  · intro name t ht hgone
    have hnow : await.Drops name t → ∃ j await', (s.operations.set i await).get j = some await' ∧
        await'.Drops name t := by
      intro hdrop
      use i, await, JsMap.get_set_self _ _ _
    obtain hgone | hgone := List.mem_append.mp hgone
    · apply hnow (hclose name t hgone ht)
    · obtain ⟨j, old, hj, hdrop⟩ := hs.leaving name t ht hgone
      by_cases heq : j = i
      · rw [heq] at hj
        apply hnow (hdrops old hj name t ht hdrop)
      · use j, old, (JsMap.get_set_of_ne _ heq _).trans hj
  · apply hs.created
  · apply hs.one
  · intro j await' hj
    obtain ⟨-, rfl⟩ | hj := hget j await' hj
    · apply hholds
    · apply (hs.holds j await' hj).gone toClose
  · intro j k await₁ await₂ t hj hk ht₁ ht₂
    obtain ⟨rfl, rfl⟩ | hj' := hget j await₁ hj
    · obtain ⟨rfl, -⟩ | hk' := hget k await₂ hk
      · rfl
      · symm
        apply hopens t k await₂ ht₁ hk' ht₂
    · obtain ⟨rfl, rfl⟩ | hk' := hget k await₂ hk
      · apply hopens t j await₁ ht₂ hj' ht₁
      · apply hs.own j k await₁ await₂ t hj' hk' ht₁ ht₂
  · intro j hj
    have hne : j ≠ i := by
      rintro rfl
      exact Nat.not_lt.mpr hj hi
    exact (JsMap.get_set_of_ne _ hne _).trans (hs.fresh j hj)

/-- An operation that adds nothing goes on to another await. -/
theorem goesOn (hs : s.Orderly) {i : ℕ} {old await : RegistryAwait}
    (hi : s.operations.get i = some old)
    (hdrops : ∀ name t, t ∈ s.tabsOf name → old.Drops name t → await.Drops name t)
    (hopens : ∀ t, await.opens = some t → old.opens = some t) (hholds : s.Holds await) :
  (s.awaits i await).Orderly
  := by
  apply hs.awaits []
  · intro name t ht
    cases ht
  · intro old' hi'
    rw [hi] at hi'
    obtain rfl := Option.some.inj hi'
    apply hdrops
  · intro t j old' ht hj ht'
    apply hs.own j i old' old t hj hi ht' (hopens t ht)
  · apply hholds
  · apply hs.lt_operationSeq hi

/-- An operation is over that has nothing to take out. -/
theorem returns (hs : s.Orderly) {i : ℕ} {old : RegistryAwait}
    (hi : s.operations.get i = some old) (hdrops : ∀ name t, ¬ old.Drops name t) :
  (s.returns i).Orderly
  := by
  constructor
  · apply hs.records
  · apply hs.opened
  · apply hs.kept
  · intro name t ht hgone
    obtain ⟨j, await, hj, hdrop⟩ := hs.leaving name t ht hgone
    have hne : j ≠ i := by
      rintro rfl
      rw [hi] at hj
      obtain rfl := Option.some.inj hj
      exact hdrops name t hdrop
    use j, await, (JsMap.get_delete_of_ne _ hne).trans hj
  · apply hs.created
  · apply hs.one
  · intro j await hj
    apply hs.holds j await (JsMap.get_of_get_delete hj)
  · intro j k await await' t hj hk
    apply hs.own j k await await' t (JsMap.get_of_get_delete hj) (JsMap.get_of_get_delete hk)
  · intro j hj
    rw [← Option.not_isSome_iff_eq_none, Option.isSome_iff_exists]
    rintro ⟨await, hawait⟩
    have hold := JsMap.get_of_get_delete hawait
    rw [hs.fresh j hj] at hold
    cases hold

/-- An operation begins that adds nothing, while some tabs go that it will take out. -/
theorem begins (hs : s.Orderly) {await : RegistryAwait} (toClose : List ℕ)
    (hclose : ∀ name t, t ∈ toClose → t ∈ s.tabsOf name → await.Drops name t)
    (hopens : await.opens = none) (hholds : Holds { s with gone := toClose ++ s.gone } await) :
  ({ s with gone := toClose ++ s.gone }.begins await).Orderly
  := by
  have hbumped : Orderly { s with operationSeq := s.operationSeq + 1 } := by
    constructor
    · apply hs.records
    · apply hs.opened
    · apply hs.kept
    · apply hs.leaving
    · apply hs.created
    · apply hs.one
    · intro i old hi
      apply (hs.holds i old hi).gone []
    · apply hs.own
    · intro i hi
      apply hs.fresh i (Nat.le_of_succ_le hi)
  apply hbumped.awaits toClose hclose
  · intro old hold
    rw [hs.fresh _ (Nat.le_refl _)] at hold
    cases hold
  · intro t j old ht
    rw [hopens] at ht
    cases ht
  · cases await <;> apply hholds
  · apply Nat.lt_succ_self

/-- A group gets a record with tabs of its own, as long as the tabs that go are taken out. -/
theorem setGroups (hs : s.Orderly) (name : String) {groups : JsMap String GroupRecord}
    (hother : ∀ name', name' ≠ name → groups.get name' = s.groups.get name')
    (hrecord : ∀ group, groups.get name = some group → group.WellFormed name)
    (htabs : ∀ t, t ∈ tabsOf { s with groups } name → t ∈ s.tabsOf name)
    (hkept : ∀ t, t ∈ s.tabsOf name → t ∉ s.gone → t ∈ tabsOf { s with groups } name) :
  Orderly { s with groups }
  := by
  have hsub : ∀ name' t, t ∈ tabsOf { s with groups } name' → t ∈ s.tabsOf name' := by
    intro name' t ht
    by_cases heq : name' = name
    · rw [heq] at ht ⊢
      apply htabs t ht
    · unfold tabsOf at ht ⊢
      rw [← hother name' heq]
      apply ht
  constructor
  · intro name' group hgroup
    by_cases heq : name' = name
    · rw [heq] at hgroup ⊢
      apply hrecord group hgroup
    · apply hs.records name' group
      rw [← hother name' heq]
      apply hgroup
  · intro name' t ht
    apply hs.opened name' t (hsub name' t ht)
  · intro name' t hopened hgone
    have ht := hs.kept name' t hopened hgone
    by_cases heq : name' = name
    · rw [heq] at ht ⊢
      apply hkept t ht hgone
    · unfold tabsOf at ht ⊢
      rw [hother name' heq]
      apply ht
  · intro name' t ht
    apply hs.leaving name' t (hsub name' t ht)
  · apply hs.created
  · apply hs.one
  · intro i await hi
    apply (hs.holds i await hi).gone []
  · apply hs.own
  · apply hs.fresh

/-- An operation that takes nothing out and adds nothing has written, and awaits the copy of
its record. -/
theorem mirrors (hs : s.Orderly) {i : ℕ} {old : RegistryAwait}
    (hi : s.operations.get i = some old)
    (hdrops : ∀ name t, t ∈ s.tabsOf name → ¬ old.Drops name t) :
  (s.awaits i .mirroring).Orderly
  := by
  apply hs.goesOn hi
  · intro name t ht hdrop
    apply hdrops name t ht hdrop
  · intro t ht
    cases ht
  · trivial

theorem setActive (hs : s.Orderly) {i : ℕ} {old : RegistryAwait}
    (hi : s.operations.get i = some old) (hdrops : ∀ name t, ¬ old.Drops name t) {name : String}
    {target : ℕ} (hlisted : s.listed name target = true) :
  (s.setActive i name target).Orderly
  := by
  unfold GroupRegistry.setActive
  cases hgroup : s.groups.get name with
  | none => apply hs.returns hi hdrops
  | some group =>
      obtain ⟨rfl, -⟩ := hs.records name group hgroup
      have htarget : target ∈ group.tabIds := by
        simpa [listed, hgroup] using hlisted
      let groups := s.groups.set group.name { group with activeTabId := some target }
      have hget : groups.get group.name = some { group with activeTabId := some target } := by
        apply JsMap.get_set_self
      have htabs : tabsOf { s with groups } group.name = s.tabsOf group.name := by
        rw [tabsOf_of_get hgroup, tabsOf_of_get (s := { s with groups }) hget]
      have hset : Orderly { s with groups } := by
        apply hs.setGroups group.name
        · intro name' hne
          apply JsMap.get_set_of_ne _ hne
        · intro group' hgroup'
          rw [hget] at hgroup'
          obtain rfl := Option.some.inj hgroup'
          exact ⟨rfl, target, rfl, htarget⟩
        · intro t ht
          rw [← htabs]
          apply ht
        · intro t ht _
          rw [htabs]
          apply ht
      apply hset.mirrors hi
      intro name' t _
      apply hdrops

theorem opens (hs : s.Orderly) {i : ℕ} {name : String} {tabId : ℕ} {tabGroupId : Option ℕ}
    (hi : s.operations.get i = some (.loading name tabId tabGroupId)) (hgone : tabId ∉ s.gone)
    (now : ℕ) :
  (s.opens i name tabId tabGroupId now).Orderly
  := by
  obtain ⟨hcreated, hnew⟩ := hs.holds i _ hi
  have hmirrors : (s.awaits i .mirroring).Orderly := by
    apply hs.mirrors hi
    intro name' t _ hdrop
    exact hdrop
  let tabIds := (s.groups.get name).elim [tabId] fun existing =>
    (existing.tabIds ++ [tabId]).eraseDups
  let record : GroupRecord :=
    { name
      tabIds
      activeTabId := some tabId
      tabGroupId
      createdAt := (s.groups.get name).elim now GroupRecord.createdAt }
  have hmem : ∀ t, t ∈ tabIds ↔ t ∈ s.tabsOf name ∨ t = tabId := by
    intro t
    unfold tabsOf
    cases hgroup : s.groups.get name with
    | none => simp [tabIds, hgroup]
    | some group => simp [tabIds, hgroup]
  have htabs : ∀ name' t, t ∈ (s.opens i name tabId tabGroupId now).tabsOf name' ↔
      t ∈ s.tabsOf name' ∨ name' = name ∧ t = tabId := by
    intro name' t
    change t ∈ ((s.groups.set name record).get name').elim [] GroupRecord.tabIds ↔ _
    rw [JsMap.get_set]
    split
    · next heq =>
        rw [heq]
        simpa using hmem t
    · next hne => simp [tabsOf, hne]
  constructor
  · intro name' group hgroup
    change (s.groups.set name record).get name' = some group at hgroup
    rw [JsMap.get_set] at hgroup
    split at hgroup
    · next heq =>
        obtain rfl := Option.some.inj hgroup
        exact ⟨heq.symm, tabId, rfl, (hmem tabId).mpr (.inr rfl)⟩
    · apply hs.records name' group hgroup
  · intro name' t ht
    obtain ht | ⟨rfl, rfl⟩ := (htabs name' t).mp ht
    · apply List.mem_cons_of_mem _ (hs.opened name' t ht)
    · apply List.mem_cons_self
  · intro name' t hopened hnot
    apply (htabs name' t).mpr
    obtain heq | hopened := List.mem_cons.mp hopened
    · cases heq
      exact .inr ⟨rfl, rfl⟩
    · exact .inl (hs.kept name' t hopened hnot)
  · intro name' t ht hgone'
    obtain ht | ⟨rfl, rfl⟩ := (htabs name' t).mp ht
    · apply hmirrors.leaving name' t ht hgone'
    · exact (hgone hgone').elim
  · intro name' t hopened
    obtain heq | hopened := List.mem_cons.mp hopened
    · cases heq
      apply hcreated
    · apply hs.created name' t hopened
  · intro name₁ name₂ t h₁ h₂
    obtain heq₁ | h₁ := List.mem_cons.mp h₁
    · cases heq₁
      obtain heq₂ | h₂ := List.mem_cons.mp h₂
      · cases heq₂
        rfl
      · exact (hnew name₂ h₂).elim
    · obtain heq₂ | h₂ := List.mem_cons.mp h₂
      · cases heq₂
        exact (hnew name₁ h₁).elim
      · apply hs.one name₁ name₂ t h₁ h₂
  · intro j await hj
    have hold := hmirrors.holds j await hj
    have hother : await.opens ≠ some tabId := by
      intro hopens
      change (s.operations.set i .mirroring).get j = some await at hj
      rw [JsMap.get_set] at hj
      split at hj
      · obtain rfl := Option.some.inj hj
        cases hopens
      · next hne => exact hne (hs.own j i await _ tabId hj hi hopens rfl)
    have hstill : ∀ t, await.opens = some t → (∀ name', (name', t) ∉ s.opened) →
        ∀ name', (name', t) ∉ (name, tabId) :: s.opened := by
      intro t ht hnot name' hmem'
      obtain heq | hmem' := List.mem_cons.mp hmem'
      · cases heq
        exact hother ht
      · exact hnot name' hmem'
    cases await with
    | grouping _ t _ => exact ⟨hold.1, hstill t rfl hold.2⟩
    | loading _ t _ => exact ⟨hold.1, hstill t rfl hold.2⟩
    | releasing => exact hold
    | removing => exact hold
    | forgetting => exact hold
    | _ => trivial
  · apply hmirrors.own
  · apply hmirrors.fresh

/-- What an operation has read of a group loses tabs, and the group has not changed since. -/
theorem leave (hs : s.Orderly) {i : ℕ} {old : RegistryAwait}
    (hi : s.operations.get i = some old) {group : GroupRecord} {toClose : List ℕ}
    (hdrops : ∀ name t, old.Drops name t → group.name = name ∧ t ∈ toClose)
    (hgone : ∀ t ∈ toClose, t ∈ s.gone) (hunchanged : s.unchanged group toClose = true)
    {remaining : List ℕ} (hremaining : ∀ t, t ∈ remaining ↔ t ∈ group.tabIds ∧ t ∉ toClose)
    {activeTabId : Option ℕ}
    (hactive : remaining ≠ [] → ∃ t, activeTabId = some t ∧ t ∈ remaining) :
  (s.leave i group remaining activeTabId).Orderly
  := by
  rw [unchanged_iff] at hunchanged
  have hset : ∀ groups : JsMap String GroupRecord,
      (∀ name', name' ≠ group.name → groups.get name' = s.groups.get name') →
      (∀ group', groups.get group.name = some group' → group'.WellFormed group.name) →
      (∀ t, t ∈ tabsOf { s with groups } group.name ↔ t ∈ remaining) →
        (GroupRegistry.awaits { s with groups } i .mirroring).Orderly := by
    intro groups hother hrecord htabs
    have hwritten : Orderly { s with groups } := by
      apply hs.setGroups group.name hother hrecord
      · intro t ht
        obtain ⟨hmem, hnot⟩ := (hremaining t).mp ((htabs t).mp ht)
        apply (hunchanged t hnot).mpr hmem
      · intro t ht hkept
        have hnot : t ∉ toClose := fun hmem => hkept (hgone t hmem)
        apply (htabs t).mpr ((hremaining t).mpr ⟨(hunchanged t hnot).mp ht, hnot⟩)
    apply hwritten.mirrors hi
    intro name t ht hdrop
    obtain ⟨rfl, hmem⟩ := hdrops name t hdrop
    exact ((hremaining t).mp ((htabs t).mp ht)).2 hmem
  unfold GroupRegistry.leave
  split
  · next hempty =>
      apply hset
      · intro name' hne
        apply JsMap.get_delete_of_ne _ hne
      · intro group' hgroup'
        rw [JsMap.get_delete_self] at hgroup'
        cases hgroup'
      · intro t
        rw [List.eq_nil_of_length_eq_zero hempty]
        unfold tabsOf
        dsimp only
        rw [JsMap.get_delete_self]
        rfl
  · next hnonempty =>
      obtain ⟨t, hactive, ht⟩ := hactive fun h => hnonempty (List.length_eq_zero_iff.mpr h)
      apply hset
      · intro name' hne
        apply JsMap.get_set_of_ne _ hne
      · intro group' hgroup'
        rw [JsMap.get_set_self] at hgroup'
        obtain rfl := Option.some.inj hgroup'
        exact ⟨rfl, t, hactive, ht⟩
      · intro t
        rw [tabsOf_of_get (JsMap.get_set_self _ _ _)]

theorem closes (hs : s.Orderly) {i : ℕ} {group : GroupRecord} {toClose rest : List ℕ}
    (hi : s.operations.get i = some (.removing group toClose rest))
    (hunchanged : rest = [] → s.unchanged group toClose = true) :
  (s.closes i group toClose rest).Orderly
  := by
  obtain ⟨hwf, hgone⟩ := hs.holds i _ hi
  cases rest with
  | nil =>
      apply hs.leave hi
      · exact fun name t hdrop => hdrop
      · apply hgone
      · apply hunchanged rfl
      · intro t
        rw [List.mem_filter, decide_eq_true_eq]
      · intro hne
        split
        · next hactive =>
            obtain ⟨t, ht, hmem⟩ := (Option.any_eq_true _ _).mp hactive
            use t, ht
            apply of_decide_eq_true hmem
        · use List.head _ hne, List.head?_eq_some_head hne
          apply List.head_mem
  | cons id rest =>
      apply hs.goesOn hi
      · exact fun name t _ hdrop => hdrop
      · intro t ht
        cases ht
      · exact ⟨hwf, hgone⟩

theorem forgets (hs : s.Orderly) {i : ℕ} {group : GroupRecord} {tabId : ℕ}
    (hi : s.operations.get i = some (.forgetting group tabId))
    (hunchanged : s.unchanged group [tabId] = true) :
  (s.forgets i group tabId).Orderly
  := by
  obtain ⟨hwf, hgone⟩ := hs.holds i _ hi
  have hremaining : ∀ t, t ∈ group.tabIds.filter (· ≠ tabId) ↔
      t ∈ group.tabIds ∧ t ∉ [tabId] := by
    intro t
    rw [List.mem_filter, decide_eq_true_eq, List.mem_singleton]
  apply hs.leave hi
  · exact fun name t hdrop => ⟨hdrop.1, List.mem_singleton.mpr hdrop.2⟩
  · intro t ht
    rw [List.mem_singleton.mp ht]
    apply hgone
  · apply hunchanged
  · apply hremaining
  · intro hne
    obtain ⟨t, hactive, ht⟩ := hwf.active
    split
    · use List.head _ hne, List.head?_eq_some_head hne
      apply List.head_mem
    · next hother =>
        use t, hactive
        apply (hremaining t).mpr ⟨ht, _⟩
        rw [List.mem_singleton]
        rintro rfl
        exact hother hactive

/-- A tab is created for an operation. -/
theorem creates (hs : s.Orderly) {i : ℕ} {name : String} {tabId : ℕ}
    (hi : s.operations.get i = some (.creating name)) (hnew : tabId ∉ s.created)
    (existing : Option GroupRecord) :
  ({ s with created := tabId :: s.created }.awaits i (.grouping name tabId existing)).Orderly
  := by
  have hcreated : Orderly { s with created := tabId :: s.created } := by
    constructor
    · apply hs.records
    · apply hs.opened
    · apply hs.kept
    · apply hs.leaving
    · intro name' t hopened
      apply List.mem_cons_of_mem _ (hs.created name' t hopened)
    · apply hs.one
    · intro j await hj
      have hold := hs.holds j await hj
      cases await with
      | grouping => exact ⟨List.mem_cons_of_mem _ hold.1, hold.2⟩
      | loading => exact ⟨List.mem_cons_of_mem _ hold.1, hold.2⟩
      | releasing => exact hold
      | removing => exact hold
      | forgetting => exact hold
      | _ => trivial
    · apply hs.own
    · apply hs.fresh
  apply hcreated.awaits []
  · intro name' t ht
    cases ht
  · intro old hold name' t _ hdrop
    change s.operations.get i = some old at hold
    rw [hi] at hold
    obtain rfl := Option.some.inj hold
    exact hdrop
  · intro t j old ht hj hold
    obtain rfl := Option.some.inj ht
    have hholds := hs.holds j old hj
    cases old with
    | grouping =>
        obtain rfl := Option.some.inj hold
        exact (hnew hholds.1).elim
    | loading =>
        obtain rfl := Option.some.inj hold
        exact (hnew hholds.1).elim
    | _ => cases hold
  · use List.mem_cons_self
    intro name' hopened
    exact hnew (hs.created name' tabId hopened)
  · apply hs.lt_operationSeq hi

theorem resume (hs : s.Orderly) {i : ℕ} {await : RegistryAwait} {reply : RegistryReply}
    (hi : s.operations.get i = some await) (haccepts : s.accepts await reply = true)
    (hundisturbed : s.undisturbed await reply = true) :
  (s.resume i await reply).Orderly
  := by
  cases await with
  | creating name =>
      cases reply with
      | created tabId =>
          cases tabId with
          | none => apply hs.returns hi fun _ _ hdrop => hdrop
          | some tabId =>
              obtain ⟨hnew, -⟩ := of_decide_eq_true haccepts
              apply hs.creates hi hnew
      | rejected => apply hs.returns hi fun _ _ hdrop => hdrop
      | _ => cases haccepts
  | grouping name tabId existing =>
      have hloading : ∀ tabGroupId, (s.awaits i (.loading name tabId tabGroupId)).Orderly := by
        intro tabGroupId
        apply hs.goesOn hi
        · exact fun _ _ _ hdrop => hdrop
        · exact fun _ ht => ht
        · apply hs.holds i _ hi
      cases reply with
      | grouped result =>
          cases result with
          | unsupported => apply hloading
          | grouped groupId => apply hloading
          | failed => apply hloading
      | _ => cases haccepts
  | loading name tabId tabGroupId =>
      cases reply with
      | polled done now =>
          cases done with
          | false => apply hs
          | true => apply hs.opens hi (of_decide_eq_true hundisturbed)
      | rejected => apply hs.returns hi fun _ _ hdrop => hdrop
      | _ => cases haccepts
  | directing name target =>
      cases reply with
      | resolved =>
          apply hs.goesOn hi
          · exact fun _ _ _ hdrop => hdrop
          · exact fun _ ht => ht
          · trivial
      | rejected => apply hs.returns hi fun _ _ hdrop => hdrop
      | _ => cases haccepts
  | completing name target =>
      cases reply with
      | polled done now =>
          cases done with
          | false => apply hs
          | true => apply hs.setActive hi (fun _ _ hdrop => hdrop) hundisturbed
      | rejected => apply hs.returns hi fun _ _ hdrop => hdrop
      | _ => cases haccepts
  | selecting name target =>
      cases reply with
      | resolved =>
          apply hs.goesOn hi
          · exact fun _ _ _ hdrop => hdrop
          · exact fun _ ht => ht
          · trivial
      | rejected => apply hs.returns hi fun _ _ hdrop => hdrop
      | _ => cases haccepts
  | inspecting name target =>
      cases reply with
      | inspected window =>
          cases window with
          | false => apply hs.setActive hi (fun _ _ hdrop => hdrop) hundisturbed
          | true =>
              apply hs.goesOn hi
              · exact fun _ _ _ hdrop => hdrop
              · exact fun _ ht => ht
              · trivial
      | rejected => apply hs.returns hi fun _ _ hdrop => hdrop
      | _ => cases haccepts
  | focusing name target =>
      cases reply with
      | resolved => apply hs.setActive hi (fun _ _ hdrop => hdrop) hundisturbed
      | _ => cases haccepts
  | releasing group toClose rest =>
      cases reply with
      | resolved =>
          apply hs.goesOn hi
          · exact fun _ _ _ hdrop => hdrop
          · exact fun _ ht => ht
          · apply hs.holds i _ hi
      | _ => cases haccepts
  | removing group toClose rest =>
      cases reply with
      | resolved =>
          apply hs.closes hi
          rintro rfl
          apply hundisturbed
      | _ => cases haccepts
  | forgetting group tabId =>
      cases reply with
      | resolved => apply hs.forgets hi hundisturbed
      | _ => cases haccepts
  | mirroring =>
      cases reply with
      | resolved => apply hs.returns hi fun _ _ hdrop => hdrop
      | _ => cases haccepts

/-- An operation begins that adds nothing and takes nothing out. -/
theorem begins_idle (hs : s.Orderly) {await : RegistryAwait} (hopens : await.opens = none)
    (hholds : s.Holds await) :
  (s.begins await).Orderly
  := by
  apply hs.begins []
  · intro name t ht
    cases ht
  · apply hopens
  · apply hholds

theorem direct (hs : s.Orderly) (name : String) (tabId : Option ℕ) :
  (s.direct name tabId).Orderly
  := by
  unfold GroupRegistry.direct
  cases s.resolveTab name tabId with
  | none => apply hs
  | some target =>
      apply hs.begins_idle
      · rfl
      · trivial

theorem activate (hs : s.Orderly) (name : String) (tabId : Option ℕ) :
  (s.activate name tabId).Orderly
  := by
  unfold GroupRegistry.activate
  cases s.resolveTab name tabId with
  | none => apply hs
  | some target =>
      apply hs.begins_idle
      · rfl
      · trivial

/-- A tab is in one group only. -/
theorem name_eq_of_listed (hs : s.Orderly) {group : GroupRecord} {name name' : String} {t : ℕ}
    (hgroup : s.groups.get name = some group) (ht : t ∈ group.tabIds)
    (ht' : t ∈ s.tabsOf name') :
  name = name'
  := by
  rw [← tabsOf_of_get hgroup] at ht
  apply hs.one name name' t (hs.opened name t ht) (hs.opened name' t ht')

theorem close (hs : s.Orderly) (name : String) (tabId : Option ℕ) :
  (s.close name tabId).Orderly
  := by
  unfold GroupRegistry.close
  cases hgroup : s.groups.get name with
  | none => apply hs
  | some group =>
      obtain ⟨rfl, t, hactive, ht⟩ := hs.records name group hgroup
      rw [Option.elim_some]
      split
      · next hmember =>
          have htoClose : ∀ toClose, toClose ≠ [] → (∀ t ∈ toClose, t ∈ group.tabIds) →
              (GroupRegistry.closes
                { s with gone := toClose ++ s.gone, operationSeq := s.operationSeq + 1 }
                s.operationSeq group toClose toClose).Orderly := by
            intro toClose hne hsub
            cases toClose with
            | nil => exact (hne rfl).elim
            | cons id rest =>
                apply hs.begins (id :: rest)
                · intro name t hmem htabs
                  exact ⟨hs.name_eq_of_listed hgroup (hsub t hmem) htabs, hmem⟩
                · rfl
                · use ⟨rfl, t, hactive, ht⟩
                  intro t hmem
                  apply List.mem_append_left _ hmem
          cases tabId with
          | none =>
              apply htoClose
              · apply List.ne_nil_of_mem ht
              · exact fun _ hmem => hmem
          | some tabId =>
              apply htoClose
              · apply List.cons_ne_nil
              · intro t hmem
                rw [List.mem_singleton.mp hmem]
                apply of_decide_eq_true hmember
      · apply hs

theorem forget (hs : s.Orderly) (tabId : ℕ) :
  (s.forget tabId).Orderly
  := by
  unfold GroupRegistry.forget
  dsimp only
  cases hfound : s.groups.values.find? fun group => tabId ∈ group.tabIds with
  | none =>
      have hnot : ∀ name, tabId ∉ s.tabsOf name := by
        intro name ht
        obtain ⟨group, hgroup, hmem⟩ := exists_of_mem_tabsOf ht
        apply List.find?_eq_none.mp hfound group (JsMap.mem_values.mpr ⟨name, hgroup⟩)
        apply decide_eq_true hmem
      constructor
      · apply hs.records
      · apply hs.opened
      · intro name t hopened hgone
        apply hs.kept name t hopened
        intro hmem
        exact hgone (List.mem_cons_of_mem _ hmem)
      · intro name t ht hgone
        obtain rfl | hgone := List.mem_cons.mp hgone
        · exact (hnot name ht).elim
        · apply hs.leaving name t ht hgone
      · apply hs.created
      · apply hs.one
      · intro i await hi
        apply (hs.holds i await hi).gone [tabId]
      · apply hs.own
      · apply hs.fresh
  | some group =>
      obtain ⟨name, hgroup⟩ := JsMap.mem_values.mp (List.mem_of_find?_eq_some hfound)
      obtain ⟨rfl, hactive⟩ := hs.records name group hgroup
      have hmem : tabId ∈ group.tabIds := by
        simpa using List.find?_some hfound
      apply hs.begins [tabId]
      · intro name t ht htabs
        obtain rfl := List.mem_singleton.mp ht
        exact ⟨hs.name_eq_of_listed hgroup hmem htabs, rfl⟩
      · rfl
      · exact ⟨⟨rfl, hactive⟩, List.mem_cons_self⟩

theorem handle (hs : s.Orderly) {event : RegistryEvent} (henabled : s.enabled event = true)
    (hundisturbed : s.Undisturbed event) :
  (s.handle event).Orderly
  := by
  cases event with
  | «open» name =>
      apply hs.begins_idle
      · rfl
      · trivial
  | navigate name tabId => apply hs.direct
  | back name tabId => apply hs.direct
  | forward name tabId => apply hs.direct
  | reload name tabId => apply hs.direct
  | activate name tabId => apply hs.activate
  | close name tabId => apply hs.close
  | forget tabId => apply hs.forget
  | settle i reply =>
      obtain ⟨await, hi, haccepts⟩ := (Option.any_eq_true _ _).mp henabled
      simp only [Undisturbed, hi, Option.all_some] at hundisturbed
      simp only [GroupRegistry.handle, hi, Option.elim_some]
      apply hs.resume hi haccepts hundisturbed

end Orderly

end Steps

/-- In every run in which no operation writes over what another one has done meanwhile, the
registry holds what it is to hold whenever it is at rest. -/
theorem groupsKept_of_undisturbed (s : GroupRegistry)
    (h : (system.restrict Undisturbed).Reaches .initial s) (hsettled : s.Settled) :
  GroupsKept s
  := by
  apply Orderly.groupsKept _ hsettled
  apply h.preserves (I := Orderly)
  · exact fun s event hs henabled => hs.handle henabled.1 henabled.2
  · apply Orderly.initial

/-- A tab is opened in a group. -/
def sampleOpening (i tabId : ℕ) : List RegistryEvent :=
  [.open "work", .settle i (.created (some tabId)), .settle i (.grouped .unsupported),
    .settle i (.polled true 5), .settle i .resolved]

/-- Two tabs are opened, and one of them is closed while its removal makes the registry forget
it. -/
theorem groupsKept_of_undisturbed_work :
  ∃ s, (system.restrict Undisturbed).Reaches .initial s ∧ s.Settled ∧ s.tabsOf "work" = [2] ∧
    GroupsKept s
  := by
  obtain ⟨s, hreaches, hs⟩ := EventSystem.exists_reaches_of_play (system.restrict Undisturbed)
    (sampleOpening 0 1 ++ sampleOpening 1 2 ++ [.close "work" (some 1), .settle 2 .resolved,
      .forget 1, .settle 2 .resolved, .settle 3 .resolved, .settle 2 .resolved,
      .settle 3 .resolved]) .initial
    (fun s => s.operations.entries = [] ∧ s.tabsOf "work" = [2]) (by decide)
  obtain ⟨hoperations, htabs⟩ := of_decide_eq_true hs
  have hsettled : s.Settled := by
    intro i
    apply JsMap.get_eq_none.mpr
    unfold JsMap.keys
    rw [hoperations]
    apply List.not_mem_nil
  use s, hreaches, hsettled, htabs
  apply groupsKept_of_undisturbed s hreaches hsettled

/-- A tab is opened while the only other one of its group is being closed, and the group is
dropped with it. -/
theorem drops_opened_tab :
  ¬ ∀ s, system.Reaches .initial s → s.Settled → GroupsKept s
  := by
  intro h
  obtain ⟨s, hreaches, hs⟩ := EventSystem.exists_reaches_of_play system
    (sampleOpening 0 1 ++ [.close "work" none] ++ sampleOpening 2 2 ++
      [.settle 1 .resolved, .settle 1 .resolved, .settle 1 .resolved]) .initial
    (fun s => s.operations.entries = [] ∧ s.tabsOf "work" = [] ∧ ("work", 2) ∈ s.opened ∧
      2 ∉ s.gone) (by decide)
  obtain ⟨hoperations, htabs, hopened, hgone⟩ := of_decide_eq_true hs
  have hsettled : s.Settled := by
    intro i
    apply JsMap.get_eq_none.mpr
    unfold JsMap.keys
    rw [hoperations]
    apply List.not_mem_nil
  have hmem := ((h s hreaches hsettled).tabs "work" 2).mpr ⟨hopened, hgone⟩
  rw [htabs] at hmem
  cases hmem

end GroupRegistry

end Extension
