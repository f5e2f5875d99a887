import OpencodeToolbelt.ResponsesRepair.Indices
import OpencodeToolbelt.ResponsesRepair.Lines

/-!
# Repairing a text again

What the repair does to the frames of a text, one by one, and why it does nothing to a text that
has been repaired. The second time a text may have fewer frames, but the items that the injector
numbers by then are among those that it has numbered the first time.
-/

namespace ResponsesRepair

/-! ### Members that are added -/

section Completing

variable {N : Type}

/-- An event has the members of another one and at most two more, in the places of indices that
it lacks. -/
def Completes (event event' : ResponsesEvent N) : Prop :=
  ∃ added, event' = event ++ added ∧
    (added.map Prod.fst).Sublist [unitsOfString "output_index", unitsOfString "content_index"] ∧
    ∀ key ∈ added.map Prod.fst, key ∉ event.map Prod.fst

theorem notMem_keys_of_get {members : List (JsUnits × Json N)} {key : JsUnits}
    (h : (Json.get members key).isNone = true) :
  key ∉ members.map Prod.fst
  := by
  intro hmem
  obtain ⟨member, hmember, hkey⟩ := List.mem_map.mp hmem
  rw [Option.isNone_iff_eq_none, Json.get, Option.map_eq_none_iff, List.find?_eq_none] at h
  apply h member hmember (decide_eq_true hkey)

/-- A member that is no index and that is absent is added behind the others. -/
theorem set_of_absent {members : List (JsUnits × Json N)} {key : JsUnits}
    (hindex : Json.arrayIndex key = none) (h : (Json.get members key).isNone = true)
    (value : Json N) :
  Json.set members key value = members ++ [(key, value)]
  := by
  apply Json.set_eq_append (notMem_keys_of_get h)
  intro key' _
  rw [Json.before, hindex, Option.all_none]

variable [JsNumber N]

theorem setOutputIndex_cases (s : IndexInjector) (event : ResponsesEvent N) :
  s.setOutputIndex event = event ∨
    unitsOfString "output_index" ∉ event.map Prod.fst ∧
      ∃ value, s.setOutputIndex event = event ++ [(unitsOfString "output_index", value)]
  := by
  rw [IndexInjector.setOutputIndex]
  split
  · exact Or.inl rfl
  · next index _ =>
      split
      · next hnone =>
          use Or.inr ⟨notMem_keys_of_get hnone, _, set_of_absent (by decide +kernel) hnone _⟩
      · exact Or.inl rfl

theorem setContentIndex_cases (event : ResponsesEvent N) :
  IndexInjector.setContentIndex event = event ∨
    unitsOfString "content_index" ∉ event.map Prod.fst ∧
      ∃ value, IndexInjector.setContentIndex event =
        event ++ [(unitsOfString "content_index", value)]
  := by
  rw [IndexInjector.setContentIndex]
  split
  · next h =>
      use Or.inr ⟨notMem_keys_of_get h.2, _, set_of_absent (by decide +kernel) h.2 _⟩
  · exact Or.inl rfl

theorem completes_inject (s : IndexInjector) (event : ResponsesEvent N) :
  Completes event (s.inject event).1
  := by
  rw [IndexInjector.inject]
  dsimp only
  rcases setOutputIndex_cases (s.register event) event with houtput | ⟨hnot, value, houtput⟩
  · rw [houtput]
    rcases setContentIndex_cases event with hcontent | ⟨hnot, value, hcontent⟩
    · rw [hcontent]
      use [], (List.append_nil _).symm, List.nil_sublist _
      intro key hkey
      cases hkey
    · rw [hcontent]
      use [(unitsOfString "content_index", value)], rfl, (List.Sublist.refl _).cons _
      intro key hkey
      rw [List.mem_singleton.mp hkey]
      apply hnot
  · rw [houtput]
    rcases setContentIndex_cases (event ++ [(unitsOfString "output_index", value)]) with
      hcontent | ⟨hnot', value', hcontent⟩
    · rw [hcontent]
      use [(unitsOfString "output_index", value)], rfl, (List.nil_sublist _).cons_cons _
      intro key hkey
      rw [List.mem_singleton.mp hkey]
      apply hnot
    · rw [hcontent, List.append_assoc]
      use [(unitsOfString "output_index", value), (unitsOfString "content_index", value')], rfl,
        List.Sublist.refl _
      intro key hkey
      rcases List.mem_cons.mp hkey with rfl | hkey
      · apply hnot
      · rw [List.mem_singleton.mp hkey]
        intro hmem
        apply hnot'
        rw [List.map_append]
        apply List.mem_append_left _ hmem

end Completing

/-! ### An event that is complete -/

namespace IndexInjector

variable {N : Type}

/-- The items that an injector has numbered have been numbered by another one. -/
def Below (s s' : IndexInjector) : Prop :=
  ∀ id, s.outputIndex.has id = true → s'.outputIndex.has id = true

theorem has_register (s : IndexInjector) (event : ResponsesEvent N) (id : JsUnits) :
  (s.register event).outputIndex.has id = true ↔
    s.outputIndex.has id = true ∨ event.namedItem = some id ∧ event.adds = true
  := by
  rw [register]
  cases hitem : event.namedItem with
  | none => simp
  | some id' =>
      dsimp only
      split
      · next h =>
          rw [JsMap.has_set_iff, Option.some.injEq, or_comm, and_iff_left h.1, eq_comm (a := id)]
      · next h =>
          rw [Option.some.injEq]
          constructor
          · exact Or.inl
          · rintro (hhas | ⟨rfl, hadds⟩)
            · apply hhas
            · rw [← Bool.not_eq_false]
              exact fun hnew => h ⟨hadds, hnew⟩

theorem Below.register {s s' : IndexInjector} (h : s.Below s') (event : ResponsesEvent N) :
  (s.register event).Below (s'.register event)
  := by
  intro id
  rw [has_register, has_register]
  apply Or.imp_left (h id)

theorem below_register (s : IndexInjector) (event : ResponsesEvent N) :
  s.Below (s.register event)
  := by
  intro id hid
  rw [has_register]
  exact Or.inl hid

theorem Below.trans {s s' s'' : IndexInjector} (h : s.Below s') (h' : s'.Below s'') :
  s.Below s''
  := fun id hid => h' id (h id hid)

variable [JsNumber N]

theorem type_setContentIndex (event : ResponsesEvent N) :
  (setContentIndex event).type = event.type
  := by
  rw [setContentIndex]
  split
  · rw [ResponsesEvent.type, Json.getString_set (by decide +kernel)]
    rfl
  · rfl

theorem type_inject (s : IndexInjector) (event : ResponsesEvent N) :
  (s.inject event).1.type = event.type
  := by
  rw [inject, type_setContentIndex, setOutputIndex]
  split
  · rfl
  · split
    · rw [ResponsesEvent.type, Json.getString_set (by decide +kernel)]
      rfl
    · rfl

/-- An event and what becomes of it number the same item. -/
theorem register_inject (s s' : IndexInjector) (event : ResponsesEvent N) :
  s.register (s'.inject event).1 = s.register event
  := by
  rw [register, register, ResponsesEvent.namedItem, itemId_inject, ResponsesEvent.adds,
    type_inject]
  rfl

theorem setContentIndex_twice (event : ResponsesEvent N) :
  setContentIndex (setContentIndex event) = setContentIndex event
  := by
  conv => lhs; rw [setContentIndex]
  rw [if_neg]
  rintro ⟨hcontent, hnone⟩
  rw [ResponsesEvent.isContent, type_setContentIndex, ← ResponsesEvent.isContent] at hcontent
  rw [setContentIndex] at hnone
  split at hnone
  · rw [Json.get_set, if_pos rfl] at hnone
    cases hnone
  · next h => apply h ⟨hcontent, hnone⟩

/-- An event is complete where no more items have been numbered. -/
theorem Below.inject {s s' : IndexInjector} (h : s.Below s') (event : ResponsesEvent N) :
  (s.inject (s'.inject event).1).1 = (s'.inject event).1
  := by
  have houtput : (s.register event).setOutputIndex (s'.inject event).1 = (s'.inject event).1 := by
    rw [setOutputIndex]
    split
    · rfl
    · next index hindex =>
        rw [if_neg]
        intro hnone
        rw [ResponsesEvent.namedItem, itemId_inject, ← ResponsesEvent.namedItem,
          Option.bind_eq_some_iff] at hindex
        obtain ⟨id, hid, hget⟩ := hindex
        have hhas := h.register event id (JsMap.has_of_get hget)
        obtain ⟨index', hget'⟩ := Option.isSome_iff_exists.mp hhas
        rw [outputIndex_inject, hid, Option.bind_some, hget', Option.map_some,
          Option.isNone_iff_eq_none, Option.or_eq_none_iff] at hnone
        cases hnone.2
  conv => lhs; rw [IndexInjector.inject]
  dsimp only
  rw [register_inject, houtput]
  rw [IndexInjector.inject, setContentIndex_twice]

end IndexInjector

/-! ### Frames that have been written -/

section Frames

variable {N : Type} [ExactNumber N]

theorem render_of_none {block : List Char} (h : IndexInjector.eventOf N block = none)
    (s : IndexInjector) :
  s.render N block = (block, s)
  := by
  rw [IndexInjector.render, h]

theorem below_render (s : IndexInjector) (block : List Char) :
  s.Below (s.render N block).2
  := by
  cases hevent : IndexInjector.eventOf N block with
  | none =>
      rw [render_of_none hevent]
      exact fun _ hid => hid
  | some found =>
      obtain ⟨name, event⟩ := found
      rw [render_of_event hevent]
      apply IndexInjector.below_register

/-- What has been written for a block is passed through where no more items have been numbered,
and no more are numbered then. -/
theorem render_render {s s' : IndexInjector} (h : s.Below s') (block : List Char) :
  (s.render N (s'.render N block).1).1 = (s'.render N block).1 ∧
    (s.render N (s'.render N block).1).2.Below (s'.render N block).2
  := by
  cases hevent : IndexInjector.eventOf N block with
  | none =>
      rw [render_of_none hevent, render_of_none hevent]
      exact ⟨rfl, h⟩
  | some found =>
      obtain ⟨name, event⟩ := found
      have hagain := (eventFrame_render hevent s').eventOf
      rw [render_of_event hagain, h.inject, render_of_event hevent]
      constructor
      · rfl
      · change (s.register (s'.inject event).1).Below (s'.register event)
        rw [IndexInjector.register_inject]
        apply h.register

/-- What stands in front of a frame, before and after it has been written. -/
structure Follows (before before' : List Char) : Prop where
  first : before' = [] ↔ before = []
  carriage : ['\r', '\n'] <:+ before' → ['\r', '\n'] <:+ before

/-- What becomes of a frame together with the line break in front of it. -/
def renderFrame (N : Type) [JsNumber N] (before : List Char) (s : IndexInjector)
    (frame : List Char) : List Char × IndexInjector :=
  let out := s.render N (frame.drop (leftover before frame).length)
  (leftover before frame ++ out.1, out.2)

omit [ExactNumber N] in
theorem renderFrames_cons [JsNumber N] (before : List Char) (s : IndexInjector)
    (frame : List Char) (frames : List (List Char)) :
  renderFrames N before s (frame :: frames) =
    (renderFrame N before s frame).1 ++
      renderFrames N frame (renderFrame N before s frame).2 frames
  := by
  rw [renderFrames, renderFrame, List.append_assoc]

/-- A frame is passed through, or else what is written for it ends with a blank line. -/
theorem renderFrame_cases (before : List Char) (s : IndexInjector) (frame : List Char) :
  renderFrame N before s frame = (frame, s) ∨
    ∃ out, Framed out ∧ (out.head? = some 'e' ∨ out.head? = some 'd') ∧ ['\n', '\n'] <:+ out ∧
      (renderFrame N before s frame).1 = leftover before frame ++ out
  := by
  rw [renderFrame]
  dsimp only
  cases hevent : IndexInjector.eventOf N (frame.drop (leftover before frame).length) with
  | none =>
      rw [render_of_none hevent, leftover_append_drop]
      exact Or.inl rfl
  | some found =>
      obtain ⟨name, event⟩ := found
      have hends : ['\n', '\n'] <:+ (s.render N (frame.drop (leftover before frame).length)).1 := by
        rw [render_of_event hevent]
        apply List.suffix_append
      rcases render_cases (N := N) s (frame.drop (leftover before frame).length) with
        hpass | ⟨-, hframed, hhead⟩
      · rw [hpass, leftover_append_drop]
        exact Or.inl rfl
      · exact Or.inr ⟨_, hframed, hhead, hends, rfl⟩

/-- The line break in front of a frame that has been written is that of the frame, or none. -/
theorem leftover_renderFrame {before before' : List Char} (h : Follows before before')
    (s : IndexInjector) (frame : List Char) :
  leftover before' (renderFrame N before s frame).1 = leftover before frame ∨
    leftover before frame ≠ [] ∧ leftover before' (renderFrame N before s frame).1 = []
  := by
  by_cases hfirst : before = []
  · rw [leftover, if_pos (h.first.mpr hfirst), leftover, if_pos hfirst]
    exact Or.inl rfl
  have hfirst' : before' ≠ [] := fun hnil => hfirst (h.first.mp hnil)
  by_cases hlf : ['\n'] <+: frame
  · have hleft : leftover before frame = ['\n'] := by
      rw [leftover, if_neg hfirst, if_pos hlf]
    left
    rw [renderFrame, hleft, leftover, if_neg hfirst', if_pos (List.prefix_append _ _)]
  by_cases hcrlf : ['\r', '\n'] <:+ before ∧ ['\r', '\n'] <+: frame
  · have hleft : leftover before frame = ['\r', '\n'] := by
      rw [leftover, if_neg hfirst, if_neg hlf, if_pos hcrlf]
    have hnot : ¬ ['\n'] <+: (renderFrame N before s frame).1 := by
      rw [renderFrame, hleft]
      rintro ⟨rest, heq⟩
      cases heq
    have hpre : ['\r', '\n'] <+: (renderFrame N before s frame).1 := by
      rw [renderFrame, hleft]
      apply List.prefix_append
    rw [hleft, leftover, if_neg hfirst', if_neg hnot]
    by_cases hsuffix : ['\r', '\n'] <:+ before'
    · rw [if_pos ⟨hsuffix, hpre⟩]
      exact Or.inl rfl
    · rw [if_neg fun hboth => hsuffix hboth.1]
      exact Or.inr ⟨List.cons_ne_nil _ _, rfl⟩
  · have hleft : leftover before frame = [] := by
      rw [leftover, if_neg hfirst, if_neg hlf, if_neg hcrlf]
    left
    rw [hleft, leftover, if_neg hfirst']
    rcases renderFrame_cases (N := N) before s frame with hpass | ⟨out, -, hhead, -, hout⟩
    · rw [hpass, if_neg hlf, if_neg]
      exact fun hboth => hcrlf ⟨h.carriage hboth.1, hboth.2⟩
    · rw [hout, hleft, List.nil_append, if_neg, if_neg]
      · rintro ⟨-, rest, rfl⟩
        rcases hhead with hhead | hhead <;> cases hhead
      · rintro ⟨rest, rfl⟩
        rcases hhead with hhead | hhead <;> cases hhead

/-- What has been written for a frame is passed through. -/
theorem renderFrame_renderFrame {before before' : List Char} (h : Follows before before')
    {s s' : IndexInjector} (hs : s.Below s') (frame : List Char) :
  (renderFrame N before' s (renderFrame N before s' frame).1).1 = (renderFrame N before s' frame).1 ∧
    (renderFrame N before' s (renderFrame N before s' frame).1).2.Below
      (renderFrame N before s' frame).2
  := by
  rcases leftover_renderFrame (N := N) h s' frame with hsame | ⟨hne, hnone⟩
  · have hdrop : (renderFrame N before s' frame).1.drop (leftover before frame).length =
        (s'.render N (frame.drop (leftover before frame).length)).1 := by
      rw [renderFrame, List.drop_left]
    obtain ⟨hout, hbelow⟩ := render_render (N := N) hs (frame.drop (leftover before frame).length)
    conv => lhs; lhs; rw [renderFrame, hsame, hdrop, hout]
    conv => rhs; lhs; rw [renderFrame, hsame, hdrop]
    exact ⟨rfl, hbelow⟩
  · -- The line break is not told apart, and what begins with it has no event.
    have hhead : (renderFrame N before s' frame).1.head? = (leftover before frame).head? := by
      rw [renderFrame, List.head?_append_of_ne_nil _ hne]
    have hpass : s.render N (renderFrame N before s' frame).1 =
        ((renderFrame N before s' frame).1, s) := by
      apply render_of_head
      · rw [hhead]
        obtain h | h | h := leftover_eq before frame <;> rw [h] <;> decide
      · rw [hhead]
        obtain h | h | h := leftover_eq before frame <;> rw [h] <;> decide
    conv => lhs; lhs; rw [renderFrame, hnone, List.length_nil, List.drop_zero, hpass]
    conv => rhs; lhs; rw [renderFrame, hnone, List.length_nil, List.drop_zero, hpass]
    use rfl
    apply hs.trans (below_render s' _)

/-- A line break in front of a frame belongs to it. -/
theorem framed_leftover (before frame : List Char) {out : List Char} (h : Framed out)
    (hhead : out.head? = some 'e' ∨ out.head? = some 'd') :
  Framed (leftover before frame ++ out)
  := by
  have htake := takeFrame_of_framed h []
  have hunbroken : ∃ c rest, out = c :: rest ∧ Json.Unbroken c := by
    rcases hhead with hhead | hhead
    · obtain ⟨rest, rfl⟩ := List.head?_eq_some_iff.mp hhead
      exact ⟨_, rest, rfl, by decide⟩
    · obtain ⟨rest, rfl⟩ := List.head?_eq_some_iff.mp hhead
      exact ⟨_, rest, rfl, by decide⟩
  obtain ⟨c, rest, rfl, hc⟩ := hunbroken
  rw [List.append_nil] at htake
  have hlf := takeFrame_lineBreak hc rest
  rw [htake] at hlf
  rcases leftover_eq before frame with hleft | hleft | hleft
  · rw [hleft]
    apply h
  · rw [hleft]
    apply (takeFrame_some hlf).2
  · rw [hleft]
    have hzero : boundaryLength ('\r' :: '\n' :: c :: rest) = 0 := by
      obtain ⟨hzero, -⟩ | ⟨-, tail, htail⟩ | ⟨-, tail, htail⟩ :=
        boundaryLength_eq ('\r' :: '\n' :: c :: rest)
      · exact hzero
      · cases htail
        exact (hc.2 rfl).elim
      · cases htail
    have hcrlf : takeFrame ('\r' :: '\n' :: c :: rest) = some ('\r' :: '\n' :: c :: rest, []) := by
      rw [takeFrame, if_pos hzero, hlf]
      rfl
    apply (takeFrame_some hcrlf).2

theorem framed_renderFrame (before : List Char) (s : IndexInjector) {frame : List Char}
    (h : Framed frame) :
  Framed (renderFrame N before s frame).1
  := by
  rcases renderFrame_cases (N := N) before s frame with hpass | ⟨out, hframed, hhead, -, hout⟩
  · rw [hpass]
    apply h
  · rw [hout]
    apply framed_leftover before frame hframed hhead

theorem follows_renderFrame (before : List Char) (s : IndexInjector) {frame : List Char}
    (h : Framed frame) :
  Follows frame (renderFrame N before s frame).1
  := by
  constructor
  · exact ⟨fun hnil => ((framed_renderFrame before s h).ne_nil hnil).elim,
      fun hnil => (h.ne_nil hnil).elim⟩
  · intro hsuffix
    rcases renderFrame_cases (N := N) before s frame with hpass | ⟨out, -, -, hends, hout⟩
    · rw [hpass] at hsuffix
      apply hsuffix
    · rw [hout] at hsuffix
      have hends' := hends.trans (List.suffix_append (leftover before frame) out)
      have heq := (List.suffix_of_suffix_length_le hsuffix hends' le_rfl).eq_of_length rfl
      cases heq

/-- What has been written for the frames of a text is written for them again. -/
theorem renderFrames_twice (text : List Char) {before before' : List Char}
    (h : Follows before before') {s s' : IndexInjector} (hs : s.Below s') :
  renderFrames N before' s (frames (renderFrames N before s' (frames text))) =
    renderFrames N before s' (frames text)
  := by
  induction text using frames_induction generalizing before before' s s' with
  | last text htake =>
      rw [frames_of_none htake]
      by_cases hempty : text = []
      · rw [if_pos hempty, renderFrames, frames_nil, renderFrames]
      · have hframes : frames (renderFrame N before s' text).1 = [(renderFrame N before s' text).1] := by
          rcases renderFrame_cases (N := N) before s' text with
            hpass | ⟨out, hframed, hhead, -, hout⟩
          · rw [hpass, frames_of_none htake, if_neg hempty]
          · have hone := frames_append (framed_leftover before text hframed hhead) []
            rw [List.append_nil, frames_nil] at hone
            rw [hout, hone]
        rw [if_neg hempty, renderFrames_cons, renderFrames, List.append_nil, hframes,
          renderFrames_cons, renderFrames, List.append_nil, (renderFrame_renderFrame h hs text).1]
  | more frame rest hframed ih =>
      obtain ⟨hout, hbelow⟩ := renderFrame_renderFrame (N := N) h hs frame
      rw [frames_append hframed, renderFrames_cons, frames_append (framed_renderFrame _ _ hframed),
        renderFrames_cons, hout, ih (follows_renderFrame before s' hframed) hbelow]

theorem repairResponsesSseText_twice (text : List Char) :
  repairResponsesSseText N (repairResponsesSseText N text) = repairResponsesSseText N text
  := by
  rw [repairResponsesSseText_eq, repairResponsesSseText_eq]
  apply renderFrames_twice
  · exact ⟨Iff.rfl, id⟩
  · exact fun _ hid => hid

end Frames

/-! ### Frame by frame -/

section Specification

variable (N : Type) [JsNumber N]

/-- What becomes of some blocks, one after another, block by block. -/
def renderEach (s : IndexInjector) : List (List Char) → List (List Char)
  | [] => []
  | block :: blocks => (s.render N block).1 :: renderEach (s.render N block).2 blocks

/-- A frame with one event keeps its name and its members, and every other one stays as it is. -/
structure FrameRepaired (frame out : List Char) : Prop where
  others : (¬ ∃ name event, EventFrame N frame name event) → out = frame
  events : ∀ name event, EventFrame N frame name event →
    ∃ event', EventFrame N out name event' ∧ Completes event event'

/-- What is asked of the repair of a text. -/
structure Repaired (text : List Char) : Prop where
  split : (splitBehind [] [] text).flatten = text
  joined : repairResponsesSseText N text =
    (renderEach N .initial (splitBehind [] [] text)).flatten
  frames : List.Forall₂ (FrameRepaired N) (splitBehind [] [] text)
    (renderEach N .initial (splitBehind [] [] text))
  twice : repairResponsesSseText N (repairResponsesSseText N text) =
    repairResponsesSseText N text

/-- A frame is recognized although it does not consist of the lines of one event. -/
def Sprawls (frame : List Char) : Prop :=
  IndexInjector.eventOf N frame ≠ none ∧ ¬ ∃ name event, EventFrame N frame name event

variable {N}

theorem renderAll_eq_flatten (s : IndexInjector) (blocks : List (List Char)) :
  renderAll N s blocks = (renderEach N s blocks).flatten
  := by
  induction blocks generalizing s with
  | nil => rfl
  | cons block blocks ih => rw [renderAll, renderEach, List.flatten_cons, ih]

theorem flatten_splitBehind (behind piece text : List Char) :
  (splitBehind behind piece text).flatten = piece.reverse ++ text
  := by
  induction text generalizing behind piece with
  | nil => rw [splitBehind, List.flatten_cons, List.flatten_nil]
  | cons c text ih =>
      rw [splitBehind]
      split
      · rw [List.flatten_cons, ih, List.reverse_cons, List.append_assoc]
        rfl
      · rw [ih, List.reverse_cons, List.append_assoc]
        rfl

end Specification

section Main

variable {N : Type} [ExactNumber N]

/-- One frame is repaired unless it sprawls. -/
theorem frameRepaired_iff (s : IndexInjector) (frame : List Char) :
  FrameRepaired N frame (s.render N frame).1 ↔ ¬ Sprawls N frame
  := by
  constructor
  · rintro h ⟨hevent, hnot⟩
    obtain ⟨⟨name, event⟩, hevent⟩ := Option.ne_none_iff_exists'.mp hevent
    have hwritten := eventFrame_render hevent s
    rw [h.others hnot] at hwritten
    apply hnot ⟨_, _, hwritten⟩
  · intro h
    constructor
    · intro hnot
      have hnone : IndexInjector.eventOf N frame = none := by
        by_contra hevent
        apply h ⟨hevent, hnot⟩
      rw [render_of_none hnone]
    · intro name event hframe
      exact ⟨_, eventFrame_render hframe.eventOf s, completes_inject s event⟩

theorem forall₂_renderEach (s : IndexInjector) (blocks : List (List Char)) :
  List.Forall₂ (FrameRepaired N) blocks (renderEach N s blocks) ↔
    ∀ block ∈ blocks, ¬ Sprawls N block
  := by
  induction blocks generalizing s with
  | nil =>
      rw [renderEach]
      apply iff_of_true List.Forall₂.nil
      intro block hmem
      cases hmem
  | cons block blocks ih =>
      rw [renderEach, List.forall₂_cons, frameRepaired_iff, ih, List.forall_mem_cons]

/-- The repair of a text is what it should be if and only if no frame sprawls. -/
theorem repaired_iff (text : List Char) :
  Repaired N text ↔ ∀ frame ∈ splitBehind [] [] text, ¬ Sprawls N frame
  := by
  rw [← forall₂_renderEach .initial]
  constructor
  · exact fun h => h.frames
  · intro h
    exact ⟨flatten_splitBehind [] [] text, renderAll_eq_flatten _ _, h,
      repairResponsesSseText_twice text⟩

end Main

theorem unbroken_of_isLineBreak {c : Char} (h : isLineBreak c = false) :
  Json.Unbroken c
  := by
  rw [isLineBreak, Bool.or_eq_false_iff, decide_eq_false_iff_not, decide_eq_false_iff_not] at h
  exact ⟨h.2, h.1⟩

/-- A frame without an `event:` line has line breaks at its end only. -/
theorem EventFrame.unbroken {N : Type} [JsNumber N] {frame : List Char}
    {name : Option (List Char)} {event : ResponsesEvent N} (h : EventFrame N frame name event)
    (hhead : frame.head? = some 'd') :
  ∀ c ∈ frame.reverse.dropWhile isLineBreak, Json.Unbroken c
  := by
  obtain ⟨eventLine, _, breaks, rfl, hline, ⟨hbefore, hafter, hdata, -, -, -⟩, hbreaks⟩ := h
  cases hline with
  | absent =>
      intro c hc
      rw [List.nil_append, List.reverse_append, List.dropWhile_append_of_pos] at hc
      · have hmem := List.mem_reverse.mp ((List.dropWhile_sublist _).mem hc)
        rcases List.mem_append.mp hmem with hmem | hmem
        · rcases List.mem_append.mp hmem with hmem | hmem
          · rcases List.mem_append.mp hmem with hmem | hmem
            · apply Json.unbroken_of_all (by decide) c hmem
            · apply unbroken_of_isLineBreak (hbefore c hmem).2
          · apply hdata c hmem
        · apply unbroken_of_isLineBreak (hafter c hmem).2
      · intro c hc
        apply hbreaks c (List.mem_reverse.mp hc)
  | present =>
      cases hhead

/-- An event whose JSON object begins on one line and ends on the next one. -/
def brokenFrame : List Char := "data: \x7b\n\"type\":\"response.created\"\x7d\n\n".toList

/-- The frame is written as one with one event. -/
theorem joins_lines :
  ¬ ∀ text, Repaired ℕ text
  := by
  intro h
  have hframes := (h brokenFrame).frames
  have hsplit : splitBehind [] [] brokenFrame = [brokenFrame] := by decide +kernel
  rw [hsplit, renderEach, List.forall₂_cons] at hframes
  have hnot : ¬ ∃ name event, EventFrame ℕ brokenFrame name event := by
    rintro ⟨name, event, hframe⟩
    have hunbroken := hframe.unbroken (by decide +kernel) '\n' (by decide +kernel)
    apply hunbroken.1 rfl
  have hsame := hframes.1.others hnot
  revert hsame
  decide +kernel

end ResponsesRepair
