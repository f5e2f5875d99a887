import OpencodeToolbelt.Data.Rereading
import OpencodeToolbelt.ResponsesRepair.Framing

/-!
# Frames with one event

A frame that consists of an `event:` line, which it may lack, and one `data:` line with a JSON
object. Such a frame is recognized, and what is written for an event is such a frame.
-/

namespace ResponsesRepair

/-! ### Lines -/

/-- Blanks within a line. -/
def Blanks (text : List Char) : Prop := ∀ c ∈ text, isBlank c = true ∧ isLineBreak c = false

/-- What ends a line. -/
def LineEnd (text : List Char) : Prop := text = ['\n'] ∨ text = ['\r'] ∨ text = ['\r', '\n']

/-- An `event:` line with a name, or no line. -/
inductive EventLine : Option (List Char) → List Char → Prop where
  | absent : EventLine none []
  | present {before name after lineEnd : List Char} : name ≠ [] → (∀ c ∈ name, isBlank c = false) →
      Blanks before → Blanks after → LineEnd lineEnd →
      EventLine (some name) (eventPrefix ++ before ++ name ++ after ++ lineEnd)

/-- A `data:` line with a JSON object, from brace to brace. Its end is not part of it. -/
inductive DataLine {N : Type} [JsNumber N] : ResponsesEvent N → List Char → Prop where
  | intro {before data after : List Char} {event : ResponsesEvent N} :
      Blanks before → Blanks after → (∀ c ∈ data, Json.Unbroken c) →
      data.head? = some '{' → data.getLast? = some '}' → Json.parse data = some (.object event) →
      DataLine event (dataPrefix ++ before ++ data ++ after)

/-- A frame of an `event:` line, which may be absent, and one `data:` line. -/
def EventFrame (N : Type) [JsNumber N] (frame : List Char) (name : Option (List Char))
    (event : ResponsesEvent N) : Prop :=
  ∃ eventLine dataLine breaks, frame = eventLine ++ dataLine ++ breaks ∧
    EventLine name eventLine ∧ DataLine event dataLine ∧ ∀ c ∈ breaks, isLineBreak c = true

/-! ### Recognizing a line -/

theorem isBlank_of_isLineBreak {c : Char} (h : isLineBreak c = true) :
  isBlank c = true
  := by
  rw [isLineBreak, Bool.or_eq_true, decide_eq_true_eq, decide_eq_true_eq] at h
  rcases h with rfl | rfl <;> decide

theorem isLineBreak_of_isBlank {c : Char} (h : isBlank c = false) :
  isLineBreak c = false
  := by
  rw [← Bool.not_eq_true]
  intro hbreak
  rw [isBlank_of_isLineBreak hbreak] at h
  cases h

theorem blanks_nil :
  Blanks []
  := by
  intro c hc
  cases hc

theorem blanks_space :
  Blanks [' ']
  := by
  intro c hc
  rw [List.mem_singleton.mp hc]
  decide

theorem isLineBreak_of_mem_blankLine {c : Char} (h : c ∈ ['\n', '\n']) :
  isLineBreak c = true
  := by
  simp only [List.mem_cons, List.not_mem_nil, or_false, or_self] at h
  rw [h]
  decide

theorem Blanks.isBlank {text : List Char} (h : Blanks text) :
  ∀ c ∈ text, isBlank c = true
  := fun c hc => (h c hc).1

theorem LineEnd.isLineBreak {text : List Char} (h : LineEnd text) :
  text ≠ [] ∧ ∀ c ∈ text, isLineBreak c = true
  := by
  rcases h with rfl | rfl | rfl <;> simp [ResponsesRepair.isLineBreak]

/-- What satisfies a predicate in front of what does not. -/
theorem span_append {p : Char → Bool} {text rest : List Char} (htext : ∀ c ∈ text, p c = true)
    (hrest : ∀ c ∈ rest.head?, p c = false) :
  (text ++ rest).takeWhile p = text ∧ (text ++ rest).dropWhile p = rest
  := by
  obtain ⟨htake, hdrop⟩ := Json.takeWhile_append_of_head hrest text
  rw [htake, hdrop, List.takeWhile_eq_self_iff.mpr htext, List.dropWhile_eq_nil_iff.mpr htext]
  exact ⟨rfl, rfl⟩

theorem stripStart_append (start text : List Char) :
  stripStart start (start ++ text) = some text
  := by
  rw [stripStart, if_pos (List.isPrefixOf_iff_prefix.mpr (List.prefix_append _ _)),
    List.drop_left]

/-- Blanks and line breaks around data are taken off. -/
theorem matchData_append {before data after : List Char} (hbefore : ∀ c ∈ before, isBlank c = true)
    (hafter : ∀ c ∈ after, isBlank c = true) (hhead : data.head? = some '{')
    (hlast : data.getLast? = some '}') :
  matchData (dataPrefix ++ before ++ data ++ after) = some data
  := by
  have hfront : ∀ c ∈ (data ++ after).head?, isBlank c = false := by
    rw [List.head?_append, hhead]
    rintro c hc
    cases hc
    decide
  have hback : ∀ c ∈ data.reverse.head?, isBlank c = false := by
    rw [List.head?_reverse, hlast]
    rintro c hc
    cases hc
    decide
  have hafter' : ∀ c ∈ after.reverse, isBlank c = true := fun c hc =>
    hafter c (List.mem_reverse.mp hc)
  rw [List.append_assoc, List.append_assoc, matchData, stripStart_append]
  simp only [Option.bind_eq_bind, Option.bind_some]
  rw [(span_append hbefore hfront).2, List.reverse_append, (span_append hafter' hback).2,
    List.reverse_reverse, if_pos ⟨hhead, hlast⟩]

theorem matchEventLine_append {before name after lineEnd rest : List Char} (hname : name ≠ [])
    (hplain : ∀ c ∈ name, isBlank c = false) (hbefore : Blanks before) (hafter : Blanks after)
    (hend : LineEnd lineEnd) (hrest : ∀ c ∈ rest.head?, isBlank c = false) :
  matchEventLine (before ++ (name ++ (after ++ (lineEnd ++ rest)))) = some (name, rest)
  := by
  have hplain' : ∀ c ∈ name, (!isBlank c) = true := by
    intro c hc
    rw [hplain c hc]
    rfl
  have hheadName : ∀ c ∈ (name ++ (after ++ (lineEnd ++ rest))).head?, isBlank c = false := by
    rw [List.head?_append_of_ne_nil _ hname]
    intro c hc
    apply hplain c (List.mem_of_mem_head? hc)
  have hblanks : ∀ c ∈ after ++ lineEnd, isBlank c = true := by
    intro c hc
    rcases List.mem_append.mp hc with hc | hc
    · apply hafter.isBlank c hc
    · apply isBlank_of_isLineBreak (hend.isLineBreak.2 c hc)
  have hheadAfter : ∀ c ∈ (after ++ (lineEnd ++ rest)).head?, (!isBlank c) = false := by
    rw [← List.append_assoc, List.head?_append_of_ne_nil]
    · intro c hc
      rw [hblanks c (List.mem_of_mem_head? hc)]
      rfl
    · intro hnil
      apply hend.isLineBreak.1 (List.append_eq_nil_iff.mp hnil).2
  have hheadEnd : ∀ c ∈ (lineEnd ++ rest).head?, (isBlank c && !isLineBreak c) = false := by
    rw [List.head?_append_of_ne_nil _ hend.isLineBreak.1]
    intro c hc
    rw [hend.isLineBreak.2 c (List.mem_of_mem_head? hc), Bool.not_true, Bool.and_false]
  have hheadRest : ∀ c ∈ rest.head?, isLineBreak c = false := fun c hc =>
    isLineBreak_of_isBlank (hrest c hc)
  have hafter' : ∀ c ∈ after, (isBlank c && !isLineBreak c) = true := by
    intro c hc
    rw [(hafter c hc).1, (hafter c hc).2]
    rfl
  rw [matchEventLine, (span_append hbefore.isBlank hheadName).2, (span_append hplain' hheadAfter).1,
    (span_append hplain' hheadAfter).2, (span_append hafter' hheadEnd).2,
    (span_append hend.isLineBreak.2 hheadRest).1, (span_append hend.isLineBreak.2 hheadRest).2,
    if_neg]
  rintro (hnil | hnil)
  · apply hname hnil
  · apply hend.isLineBreak.1 hnil

section Frames

variable {N : Type} [JsNumber N]

/-- A frame with one event is recognized. -/
theorem EventFrame.eventOf {frame : List Char} {name : Option (List Char)}
    {event : ResponsesEvent N} (h : EventFrame N frame name event) :
  IndexInjector.eventOf N frame = some (name, event)
  := by
  obtain ⟨eventLine, _, breaks, rfl, hline, ⟨hbefore, hafter, -, hhead, hlast, hparse⟩, hbreaks⟩ := h
  rename_i before data after
  have hblanks : ∀ c ∈ after ++ breaks, isBlank c = true := by
    intro c hc
    rcases List.mem_append.mp hc with hc | hc
    · apply hafter.isBlank c hc
    · apply isBlank_of_isLineBreak (hbreaks c hc)
  have hdata := matchData_append hbefore.isBlank hblanks hhead hlast
  rw [← List.append_assoc] at hdata
  have hmatch : matchBlock (eventLine ++ (dataPrefix ++ before ++ data ++ after) ++ breaks) =
      some (name, data) := by
    cases hline with
    | absent =>
        rw [List.nil_append, matchBlock]
        have hnone : stripStart eventPrefix (dataPrefix ++ before ++ data ++ after ++ breaks) = none :=
          rfl
        rw [hnone]
        simp only [hdata, Option.bind_eq_bind, Option.bind_some, Option.pure_def]
    | present hname hplain hbefore' hafter' hend =>
        have hrest : ∀ c ∈ (dataPrefix ++ before ++ data ++ after ++ breaks).head?,
            isBlank c = false := by
          rintro c hc
          cases hc
          decide
        simp only [List.append_assoc] at hdata hrest ⊢
        rw [matchBlock, stripStart_append]
        dsimp only
        rw [matchEventLine_append hname hplain hbefore' hafter' hend hrest]
        simp only [Option.bind_eq_bind, Option.bind_some, hdata, Option.pure_def]
  rw [IndexInjector.eventOf, hmatch]
  simp only [hparse]

theorem eventOf_eq_some {frame : List Char} {name : Option (List Char)} {event : ResponsesEvent N}
    (h : IndexInjector.eventOf N frame = some (name, event)) :
  ∃ data, matchBlock frame = some (name, data) ∧ Json.parse data = some (.object event)
  := by
  unfold IndexInjector.eventOf at h
  split at h
  · cases h
  · next name' data hmatch =>
      split at h
      · next hparse =>
          cases h
          use data
      · cases h

/-- The name on a line that is recognized has no blanks. -/
theorem name_of_matchBlock {frame name data : List Char}
    (h : matchBlock frame = some (some name, data)) :
  name ≠ [] ∧ ∀ c ∈ name, isBlank c = false
  := by
  unfold matchBlock at h
  split at h
  · obtain ⟨⟨name', rest⟩, hline, h⟩ := Option.bind_eq_some_iff.mp h
    obtain ⟨data', -, h⟩ := Option.bind_eq_some_iff.mp h
    cases h
    rw [matchEventLine] at hline
    split at hline
    · cases hline
    · next hempty =>
        cases hline
        use fun hnil => hempty (Or.inl hnil)
        intro c hc
        simpa using List.mem_takeWhile_imp hc
  · obtain ⟨data', -, h⟩ := Option.bind_eq_some_iff.mp h
    cases h

end Frames

/-! ### What is written -/

section Written

variable {N : Type} [ExactNumber N]

theorem ordered_inject {event : ResponsesEvent N} (h : Json.OrderedMembers event)
    (s : IndexInjector) :
  Json.OrderedMembers (s.inject event).1
  := by
  have hcontent : ∀ event : ResponsesEvent N, Json.OrderedMembers event →
      Json.OrderedMembers (IndexInjector.setContentIndex event) := by
    intro event h
    rw [IndexInjector.setContentIndex]
    split
    · apply h.set _ (Json.Ordered.number _)
    · apply h
  rw [IndexInjector.inject]
  apply hcontent
  rw [IndexInjector.setOutputIndex]
  split
  · apply h
  · split
    · apply h.set _ (Json.Ordered.number _)
    · apply h

/-- What is written for an event. -/
theorem render_of_event {frame : List Char} {name : Option (List Char)}
    {event : ResponsesEvent N} (h : IndexInjector.eventOf N frame = some (name, event))
    (s : IndexInjector) :
  s.render N frame =
    (name.elim [] (fun name => eventPrefix ++ [' '] ++ name ++ [] ++ ['\n']) ++
        (dataPrefix ++ [' '] ++ Json.stringify (.object (s.inject event).1) ++ []) ++ ['\n', '\n'],
      (s.inject event).2)
  := by
  have hevent : "event: ".toList = eventPrefix ++ [' '] := rfl
  have hdata : "data: ".toList = dataPrefix ++ [' '] := rfl
  rw [IndexInjector.render, h]
  simp only [hevent, hdata, List.append_nil, List.append_assoc]

/-- A frame with an event is written as a frame with one event, of the same name. -/
theorem eventFrame_render {frame : List Char} {name : Option (List Char)}
    {event : ResponsesEvent N} (h : IndexInjector.eventOf N frame = some (name, event))
    (s : IndexInjector) :
  EventFrame N (s.render N frame).1 name (s.inject event).1
  := by
  obtain ⟨data, hmatch, hparse⟩ := eventOf_eq_some h
  have hordered : Json.OrderedMembers (s.inject event).1 := by
    apply ordered_inject
    cases Json.Ordered.of_parse hparse with
    | object henumerated hmembers => exact ⟨henumerated, hmembers⟩
  have hwritten : Json.parse (Json.stringify (.object (s.inject event).1)) =
      some (.object (s.inject event).1) := Json.parse_stringify (.object hordered.1 hordered.2)
  have hdata : DataLine (s.inject event).1
      (dataPrefix ++ [' '] ++ Json.stringify (.object (s.inject event).1) ++ []) := by
    apply DataLine.intro blanks_space blanks_nil (Json.unbroken_stringify _) _ _ hwritten
    · rfl
    · rw [Json.stringify, List.getLast?_append]
      rfl
  rw [render_of_event h]
  cases name with
  | none =>
      exact ⟨[], _, ['\n', '\n'], rfl, EventLine.absent, hdata, fun c => isLineBreak_of_mem_blankLine⟩
  | some name =>
      obtain ⟨hne, hplain⟩ := name_of_matchBlock hmatch
      have hline : EventLine (some name) (eventPrefix ++ [' '] ++ name ++ [] ++ ['\n']) := by
        apply EventLine.present hne hplain blanks_space blanks_nil (Or.inl rfl)
      exact ⟨_, _, ['\n', '\n'], rfl, hline, hdata, fun c => isLineBreak_of_mem_blankLine⟩

end Written

end ResponsesRepair
