import OpencodeToolbelt.ResponsesRepair.Injector

/-!
# The indices of a stream

When the injector tells the items of a stream apart: the indices that are given must be the
numbers that it gives itself.
-/

namespace ResponsesRepair

variable {N : Type}

/-- An event that adds an item precedes all other events of the item. -/
def AddedFirst (events : List (ResponsesEvent N)) : Prop :=
  ∀ before event after, events = before ++ event :: after → ∀ id, event.itemId = some id →
    ∃ added ∈ before ++ [event], added.adds = true ∧ added.itemId = some id

/-- The indices that events carry are those of their items. -/
def GivenAgree (events : List (ResponsesEvent N)) : Prop :=
  ∀ event ∈ events, ∀ event' ∈ events, ∀ id id' x x', event.itemId = some id →
    event'.itemId = some id' → event.outputIndex = some x → event'.outputIndex = some x' →
      (x = x' ↔ id = id')

/-- All events of an item carry the same index, and events of different items different ones. -/
def IndexedByItem (events : List (ResponsesEvent N)) : Prop :=
  (∀ event ∈ events, event.itemId.isSome → event.outputIndex.isSome) ∧
    ∀ event ∈ events, ∀ event' ∈ events, ∀ id id', event.itemId = some id →
      event'.itemId = some id' → (event.outputIndex = event'.outputIndex ↔ id = id')

/-- The items in the order in which they are added. An empty text names none. -/
def addedItems (events : List (ResponsesEvent N)) : List JsUnits :=
  ((events.filter ResponsesEvent.adds).filterMap ResponsesEvent.namedItem).eraseDups

/-- The indices that some events carry are the numbers of their items among those that have been
added, where an event of the item lacks it, and no other item's that lacks it. No event that
lacks its index has an empty item id. -/
def GivenByRank [JsNumber N] (events : List (ResponsesEvent N)) : Prop :=
  (∀ event ∈ events, event.itemId = some [] → event.outputIndex ≠ none) ∧
    ∀ event ∈ events, ∀ event' ∈ events, ∀ id id' x, event.itemId = some id →
      event'.itemId = some id' → event.outputIndex = some x → event'.outputIndex = none →
        (x = .number (JsNumber.ofNat ((addedItems events).idxOf id')) ↔ id = id')

/-! ### The items that are added -/

/-- An event adds an item for the first time. -/
theorem addedItems_concat_new {events : List (ResponsesEvent N)} {event : ResponsesEvent N} {id : JsUnits}
    (hadds : event.adds = true) (hid : event.namedItem = some id)
    (hnew : id ∉ addedItems events) :
  addedItems (events ++ [event]) = addedItems events ++ [id]
  := by
  unfold addedItems at hnew ⊢
  rw [List.mem_eraseDups] at hnew
  rw [List.filter_append, List.filterMap_append, List.eraseDups_append,
    List.filter_cons_of_pos hadds, List.filter_nil, List.filterMap_cons_some hid,
    List.filterMap_nil, List.cons_removeAll, if_pos]
  · rfl
  · rw [List.contains_eq_mem, decide_eq_false_iff_not]
    apply hnew

/-- An event adds no item, or one that has been added already. -/
theorem addedItems_concat_old {events : List (ResponsesEvent N)}
    {event : ResponsesEvent N} (hold : ∀ id, event.namedItem = some id → event.adds = true →
      id ∈ addedItems events) :
  addedItems (events ++ [event]) = addedItems events
  := by
  unfold addedItems at hold ⊢
  rw [List.filter_append, List.filterMap_append, List.eraseDups_append]
  cases hadds : event.adds with
  | false =>
      rw [List.filter_cons_of_neg (by rw [hadds]; decide)]
      apply List.append_nil
  | true =>
      rw [List.filter_cons_of_pos hadds, List.filter_nil]
      cases hid : event.namedItem with
      | none =>
          rw [List.filterMap_cons_none hid]
          apply List.append_nil
      | some id =>
          rw [List.filterMap_cons_some hid, List.filterMap_nil, List.cons_removeAll, if_neg]
          · apply List.append_nil
          · rw [List.contains_eq_mem, decide_eq_false_iff_not, not_not, ← List.mem_eraseDups]
            apply hold id hid hadds

theorem mem_addedItems {events : List (ResponsesEvent N)} {event : ResponsesEvent N}
    {id : JsUnits} (hmem : event ∈ events) (hadds : event.adds = true)
    (hid : event.namedItem = some id) :
  id ∈ addedItems events
  := by
  unfold addedItems
  rw [List.mem_eraseDups, List.mem_filterMap]
  use event, List.mem_filter.mpr ⟨hmem, hadds⟩

theorem mem_addedItems_append {events : List (ResponsesEvent N)} {id : JsUnits}
    (hid : id ∈ addedItems events) (events' : List (ResponsesEvent N)) :
  id ∈ addedItems (events ++ events')
  := by
  unfold addedItems at hid ⊢
  rw [List.filter_append, List.filterMap_append, List.eraseDups_append]
  apply List.mem_append_left _ hid

/-- Items keep their numbers. -/
theorem idxOf_addedItems_append {events : List (ResponsesEvent N)} {id : JsUnits}
    (hid : id ∈ addedItems events) (events' : List (ResponsesEvent N)) :
  (addedItems (events ++ events')).idxOf id = (addedItems events).idxOf id
  := by
  unfold addedItems at hid ⊢
  rw [List.filter_append, List.filterMap_append, List.eraseDups_append]
  apply List.idxOf_append_of_mem hid

theorem namedItem_eq_some {event : ResponsesEvent N} {id : JsUnits} :
  event.namedItem = some id ↔ event.itemId = some id ∧ id ≠ []
  := by
  unfold ResponsesEvent.namedItem
  rw [Option.filter_eq_some_iff, decide_eq_true_eq]

/-- An event that lacks its index names an item, unless the id of the item is empty. -/
theorem namedItem_of_lacking {event : ResponsesEvent N} {id : JsUnits}
    (hempty : event.itemId = some [] → event.outputIndex ≠ none)
    (hid : event.itemId = some id) (hnone : event.outputIndex = none) :
  event.namedItem = some id
  := by
  apply namedItem_eq_some.mpr ⟨hid, _⟩
  rintro rfl
  apply hempty hid hnone

/-- The item that an event names has been added by then. -/
theorem AddedFirst.mem {events before after : List (ResponsesEvent N)} {event : ResponsesEvent N}
    {id : JsUnits} (hadded : AddedFirst events) (hsplit : events = before ++ event :: after)
    (hid : event.namedItem = some id) :
  id ∈ addedItems (before ++ [event])
  := by
  obtain ⟨hitem, hne⟩ := namedItem_eq_some.mp hid
  obtain ⟨added, hmem, hadds, hitem'⟩ := hadded before event after hsplit id hitem
  apply mem_addedItems hmem hadds (namedItem_eq_some.mpr ⟨hitem', hne⟩)

theorem AddedFirst.mem_addedItems {events : List (ResponsesEvent N)} {event : ResponsesEvent N}
    {id : JsUnits} (hadded : AddedFirst events) (hmem : event ∈ events)
    (hid : event.namedItem = some id) :
  id ∈ addedItems events
  := by
  obtain ⟨before, after, hsplit⟩ := List.append_of_mem hmem
  rw [hsplit, List.append_cons]
  apply mem_addedItems_append (hadded.mem hsplit hid)

/-! ### What the injector does to an event -/

namespace IndexInjector

variable [JsNumber N]

/-- The index that an event carries behind the injector, when some items have been added. -/
def carried (items : List JsUnits) (event : ResponsesEvent N) : Option (Json N) :=
  event.outputIndex.or (event.namedItem.map fun id =>
    .number (JsNumber.ofNat (items.idxOf id)))

/-- The injector has numbered the items that have been added. -/
structure Tracks (s : IndexInjector) (items : List JsUnits) : Prop where
  nextIndex : s.nextIndex = items.length
  outputIndex : ∀ id, s.outputIndex.get id = if id ∈ items then some (items.idxOf id) else none

variable {s : IndexInjector} {event : ResponsesEvent N}

theorem Tracks.initial :
  IndexInjector.initial.Tracks []
  := by
  constructor
  · rfl
  · intro id
    rw [if_neg List.not_mem_nil]
    rfl

omit [JsNumber N] in
theorem Tracks.register {events : List (ResponsesEvent N)} (hs : s.Tracks (addedItems events))
    (event : ResponsesEvent N) :
  (s.register event).Tracks (addedItems (events ++ [event]))
  := by
  have hhas : ∀ id, s.outputIndex.has id = false ↔ id ∉ addedItems events := by
    intro id
    rw [JsMap.has, hs.outputIndex]
    split
    · next hmem => simp [hmem]
    · next hmem => simp [hmem]
  unfold IndexInjector.register
  cases hid : event.namedItem with
  | none =>
      rw [addedItems_concat_old]
      · apply hs
      · intro id hsome
        rw [hid] at hsome
        cases hsome
  | some id =>
      dsimp only
      split
      · next hnew =>
          have hnew' := (hhas id).mp hnew.2
          rw [addedItems_concat_new hnew.1 hid hnew']
          constructor
          · rw [List.length_append, hs.nextIndex]
            rfl
          · intro id'
            rw [JsMap.get_set]
            split
            · next heq =>
                rw [heq, if_pos (List.mem_append_right _ List.mem_cons_self),
                  List.idxOf_append_of_notMem hnew', List.idxOf_cons_self, hs.nextIndex]
                rfl
            · next hne =>
                have hmem : id' ∈ addedItems events ++ [id] ↔ id' ∈ addedItems events := by
                  rw [List.mem_append, List.mem_singleton, or_iff_left hne]
                rw [hs.outputIndex]
                by_cases h : id' ∈ addedItems events
                · rw [if_pos h, if_pos (hmem.mpr h), List.idxOf_append_of_mem h]
                · rw [if_neg h, if_neg fun h' => h (hmem.mp h')]
      · next hold =>
          rw [addedItems_concat_old]
          · apply hs
          · intro id' hid' hadds
            rw [hid] at hid'
            obtain rfl := Option.some.inj hid'
            rw [← not_not (a := id ∈ addedItems events), ← hhas]
            exact fun hno => hold ⟨hadds, hno⟩

omit [JsNumber N] in
/-- Setting an index leaves alone which item an event names. -/
theorem itemId_set {key : JsUnits} (hitem : unitsOfString "item" ≠ key)
    (hitemId : unitsOfString "item_id" ≠ key) (value : Json N) :
  ResponsesEvent.itemId (Json.set event key value) = event.itemId
  := by
  unfold ResponsesEvent.itemId
  rw [Json.getObject_set hitem, Json.getString_set hitemId]

theorem itemId_inject (s : IndexInjector) (event : ResponsesEvent N) :
  (s.inject event).1.itemId = event.itemId
  := by
  have hcontent : ∀ event : ResponsesEvent N, (setContentIndex event).itemId = event.itemId := by
    intro event
    unfold setContentIndex
    split
    · apply itemId_set
      · decide +kernel
      · decide +kernel
    · rfl
  have houtput : ∀ s : IndexInjector, (s.setOutputIndex event).itemId = event.itemId := by
    intro s
    unfold setOutputIndex
    split
    · rfl
    · split
      · apply itemId_set
        · decide +kernel
        · decide +kernel
      · rfl
  rw [inject, hcontent, houtput]

theorem outputIndex_inject (s : IndexInjector) (event : ResponsesEvent N) :
  (s.inject event).1.outputIndex =
    event.outputIndex.or ((event.namedItem.bind (s.register event).outputIndex.get).map
      fun index => .number (JsNumber.ofNat index))
  := by
  have hcontent : ∀ event : ResponsesEvent N,
      (setContentIndex event).outputIndex = event.outputIndex := by
    intro event
    unfold setContentIndex
    split
    · unfold ResponsesEvent.outputIndex
      rw [Json.get_set, if_neg]
      decide +kernel
    · rfl
  rw [inject, hcontent]
  unfold setOutputIndex
  cases event.namedItem.bind (s.register event).outputIndex.get with
  | none => rw [Option.map_none, Option.or_none]
  | some index =>
      dsimp only
      cases hgiven : event.outputIndex with
      | none =>
          rw [Option.isNone_none, if_pos rfl, ResponsesEvent.outputIndex, Json.get_set, if_pos rfl]
          rfl
      | some x =>
          rw [Option.isNone_some, if_neg Bool.false_ne_true, hgiven]
          rfl

/-- Behind the injector the events name the same items, and carry the indices they have been
given or the numbers of their items. -/
theorem injectAll_eq {all : List (ResponsesEvent N)} (hadded : AddedFirst all)
    {before events : List (ResponsesEvent N)} (hall : all = before ++ events)
    (hs : s.Tracks (addedItems before)) :
  (s.injectAll events).map (fun event => (event.itemId, event.outputIndex)) =
    events.map fun event => (event.itemId, carried (addedItems all) event)
  := by
  induction events generalizing before s with
  | nil => rfl
  | cons event events ih =>
      have hall' : all = (before ++ [event]) ++ events := by
        rw [hall, List.append_cons]
      have hregister := hs.register event
      have hindex : (s.inject event).1.outputIndex = carried (addedItems all) event := by
        rw [outputIndex_inject, carried]
        congr 1
        cases hid : event.namedItem with
        | none => rfl
        | some id =>
            have hin := hadded.mem hall hid
            rw [Option.bind_some, hregister.outputIndex, if_pos hin, hall', Option.map_some,
              Option.map_some, idxOf_addedItems_append hin]
      rw [injectAll, List.map_cons, List.map_cons]
      congr 1
      · rw [itemId_inject, hindex]
      · apply ih hall' hregister

end IndexInjector

section Main

variable [JsNumber N] {events : List (ResponsesEvent N)}

/-- What is asked of the events behind the injector, as what they carry. -/
theorem indexedByItem_injectAll (hadded : AddedFirst events) :
  IndexedByItem (IndexInjector.initial.injectAll events) ↔
    (∀ event ∈ events, event.itemId.isSome →
      (IndexInjector.carried (addedItems events) event).isSome) ∧
      ∀ event ∈ events, ∀ event' ∈ events, ∀ id id', event.itemId = some id →
        event'.itemId = some id' →
          (IndexInjector.carried (addedItems events) event =
            IndexInjector.carried (addedItems events) event' ↔ id = id')
  := by
  let indexed (pairs : List (Option JsUnits × Option (Json N))) : Prop :=
    (∀ pair ∈ pairs, pair.1.isSome → pair.2.isSome) ∧
      ∀ pair ∈ pairs, ∀ pair' ∈ pairs, ∀ id id', pair.1 = some id → pair'.1 = some id' →
        (pair.2 = pair'.2 ↔ id = id')
  have hindexed : ∀ (index : ResponsesEvent N → Option (Json N)) (events : List _),
      indexed (events.map fun event => (event.itemId, index event)) ↔
        (∀ event ∈ events, event.itemId.isSome → (index event).isSome) ∧
          ∀ event ∈ events, ∀ event' ∈ events, ∀ id id', event.itemId = some id →
            event'.itemId = some id' → (index event = index event' ↔ id = id') := by
    intro index events
    simp only [indexed, List.forall_mem_map]
  have hmap := IndexInjector.injectAll_eq hadded (List.nil_append events).symm
    IndexInjector.Tracks.initial
  rw [← hindexed, ← hmap, hindexed]
  rfl

/-- An event that has an index carries it. -/
theorem carried_of_given {event : ResponsesEvent N} {x : Json N}
    (hx : event.outputIndex = some x) (items : List JsUnits) :
  IndexInjector.carried items event = some x
  := by
  rw [IndexInjector.carried, hx]
  rfl

/-- An event that lacks its index carries the number of its item. -/
theorem carried_of_lacking {event : ResponsesEvent N} {id : JsUnits}
    (hnone : event.outputIndex = none) (hid : event.namedItem = some id) (items : List JsUnits) :
  IndexInjector.carried items event = some (.number (JsNumber.ofNat (items.idxOf id)))
  := by
  rw [IndexInjector.carried, hnone, hid]
  rfl

/-- The injector tells the items of a stream apart if and only if the indices that are given
are the numbers that it gives itself. -/
theorem indexedByItem_iff (events : List (ResponsesEvent N)) (hadded : AddedFirst events)
    (hgiven : GivenAgree events) :
  IndexedByItem (IndexInjector.initial.injectAll events) ↔ GivenByRank events
  := by
  rw [indexedByItem_injectAll hadded]
  constructor
  · rintro ⟨hsome, hpair⟩
    have hempty : ∀ event ∈ events, event.itemId = some [] → event.outputIndex ≠ none := by
      intro event hmem hid hnone
      have hcarried := hsome event hmem (by rw [hid]; rfl)
      rw [IndexInjector.carried, hnone, ResponsesEvent.namedItem, hid] at hcarried
      cases hcarried
    use hempty
    intro event hmem event' hmem' id id' x hid hid' hx hnone
    have hnamed := namedItem_of_lacking (hempty event' hmem') hid' hnone
    rw [← hpair event hmem event' hmem' id id' hid hid', carried_of_given hx,
      carried_of_lacking hnone hnamed, Option.some_inj]
  · rintro ⟨hempty, hrank⟩
    constructor
    · intro event hmem hsome
      obtain ⟨id, hid⟩ := Option.isSome_iff_exists.mp hsome
      cases hindex : event.outputIndex with
      | some x =>
          rw [carried_of_given hindex]
          rfl
      | none =>
          rw [carried_of_lacking hindex (namedItem_of_lacking (hempty event hmem) hid hindex)]
          rfl
    · intro event hmem event' hmem' id id' hid hid'
      have hnamed := namedItem_of_lacking (hempty event hmem) hid
      have hnamed' := namedItem_of_lacking (hempty event' hmem') hid'
      cases hindex : event.outputIndex with
      | some x =>
          rw [carried_of_given hindex]
          cases hindex' : event'.outputIndex with
          | some x' =>
              rw [carried_of_given hindex', Option.some_inj]
              apply hgiven event hmem event' hmem' id id' x x' hid hid' hindex hindex'
          | none =>
              rw [carried_of_lacking hindex' (hnamed' hindex'), Option.some_inj]
              apply hrank event hmem event' hmem' id id' x hid hid' hindex hindex'
      | none =>
          rw [carried_of_lacking hindex (hnamed hindex)]
          cases hindex' : event'.outputIndex with
          | some x' =>
              rw [carried_of_given hindex', Option.some_inj, eq_comm, eq_comm (a := id)]
              apply hrank event' hmem' event hmem id' id x' hid' hid hindex' hindex
          | none =>
              have hadded' := hadded.mem_addedItems hmem (hnamed hindex)
              rw [carried_of_lacking hindex' (hnamed' hindex'), Option.some_inj,
                Json.number.injEq, JsNumber.ofNat_injective.eq_iff, List.idxOf_inj hadded']

end Main

/-- An event of an item, with an index or without. -/
def sampleEvent (type id : String) (index : Option ℕ) : ResponsesEvent ℕ :=
  [(unitsOfString "type", .string (unitsOfString type)),
    (unitsOfString "item_id", .string (unitsOfString id))] ++
    index.toList.map fun index => (unitsOfString "output_index", .number index)

/-- Two items are added, and the second one comes with the index that is its number. -/
def sampleEvents (index : ℕ) : List (ResponsesEvent ℕ) :=
  [sampleEvent "response.output_item.added" "a" none,
    sampleEvent "response.output_item.added" "b" (some index),
    sampleEvent "response.output_text.delta" "b" none]

theorem itemId_sampleEvent (type id : String) (index : Option ℕ) :
  (sampleEvent type id index).itemId = some (unitsOfString id)
  := by
  cases index <;> rfl

theorem addedFirst_sampleEvents (index : ℕ) :
  AddedFirst (sampleEvents index)
  := by
  intro before event after hsplit id hid
  have hself : event.adds = true → ∃ added ∈ before ++ [event], added.adds = true ∧
      added.itemId = some id := by
    intro hadds
    use event, List.mem_append_right _ List.mem_cons_self
  unfold sampleEvents at hsplit
  rcases before with _ | ⟨first, _ | ⟨second, _ | ⟨third, before⟩⟩⟩
  · obtain ⟨rfl, -⟩ := List.cons.inj hsplit
    apply hself rfl
  · obtain ⟨-, hsplit⟩ := List.cons.inj hsplit
    obtain ⟨rfl, -⟩ := List.cons.inj hsplit
    apply hself rfl
  · obtain ⟨-, hsplit⟩ := List.cons.inj hsplit
    obtain ⟨rfl, hlast⟩ := List.cons.inj hsplit
    obtain ⟨rfl, -⟩ := List.cons.inj hlast
    use sampleEvent "response.output_item.added" "b" (some index)
    rw [itemId_sampleEvent] at hid ⊢
    exact ⟨List.mem_cons_of_mem _ List.mem_cons_self, rfl, hid⟩
  · obtain ⟨-, hsplit⟩ := List.cons.inj hsplit
    obtain ⟨-, hsplit⟩ := List.cons.inj hsplit
    obtain ⟨-, hsplit⟩ := List.cons.inj hsplit
    exact (List.cons_ne_nil _ _ (List.append_eq_nil_iff.mp hsplit.symm).2).elim

theorem givenAgree_sampleEvents (index : ℕ) :
  GivenAgree (sampleEvents index)
  := by
  have honly : ∀ event ∈ sampleEvents index, ∀ x, event.outputIndex = some x →
      event = sampleEvent "response.output_item.added" "b" (some index) := by
    intro event hmem x hx
    obtain rfl | hmem := List.mem_cons.mp hmem
    · cases hx
    · obtain rfl | hmem := List.mem_cons.mp hmem
      · rfl
      · obtain rfl := List.mem_singleton.mp hmem
        cases hx
  intro event hmem event' hmem' id id' x x' hid hid' hx hx'
  rw [honly event hmem x hx] at hid hx
  rw [honly event' hmem' x' hx', hid] at hid'
  rw [honly event' hmem' x' hx', hx] at hx'
  simp only [Option.some.inj hid', Option.some.inj hx']

/-- The index of the second item is its number. -/
theorem indexedByItem_iff_sampleEvents :
  GivenAgree (sampleEvents 1) ∧
    (IndexedByItem (IndexInjector.initial.injectAll (sampleEvents 1)) ↔
      GivenByRank (sampleEvents 1))
  := by
  use givenAgree_sampleEvents 1
  apply indexedByItem_iff (sampleEvents 1) (addedFirst_sampleEvents 1) (givenAgree_sampleEvents 1)

/-- The second item comes with the number that the first one is given. -/
theorem confuses_items :
  ¬ ∀ events : List (ResponsesEvent ℕ), AddedFirst events → GivenAgree events →
    IndexedByItem (IndexInjector.initial.injectAll events)
  := by
  intro h
  have hindexed := h (sampleEvents 0) (addedFirst_sampleEvents 0) (givenAgree_sampleEvents 0)
  rw [indexedByItem_injectAll (addedFirst_sampleEvents 0)] at hindexed
  obtain ⟨-, hpair⟩ := hindexed
  have heq := (hpair _ List.mem_cons_self _ (List.mem_cons_of_mem _ List.mem_cons_self)
    (unitsOfString "a") (unitsOfString "b") rfl rfl).mp rfl
  exact absurd heq (by decide +kernel)

end ResponsesRepair
