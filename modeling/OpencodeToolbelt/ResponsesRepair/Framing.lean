import Mathlib.Data.List.Infix
import Mathlib.Data.List.TakeWhile
import OpencodeToolbelt.ResponsesRepair.Streaming

/-!
# Where the two forms of the repair agree

The stream leaves a line break behind a blank line to the frame that follows it, which it then
passes through, while a text is split behind the break as well.
-/

namespace ResponsesRepair

/-! ### Blank lines -/

theorem endsBoundary_iff {l : List Char} :
  endsBoundary l = true ↔ ['\n', '\n'] <+: l ∨ ['\n', '\r', '\n', '\r'] <+: l
  := by
  constructor
  · intro h
    unfold endsBoundary at h
    split at h
    · left
      apply List.prefix_append ['\n', '\n']
    · right
      apply List.prefix_append ['\n', '\r', '\n', '\r']
    · cases h
  · rintro (⟨rest, rfl⟩ | ⟨rest, rfl⟩)
    · rfl
    · rfl

theorem endsBoundary_append {l : List Char} (h : endsBoundary l = true) (l' : List Char) :
  endsBoundary (l ++ l') = true
  := by
  rw [endsBoundary_iff] at h ⊢
  apply h.imp
  · exact fun h => h.trans (List.prefix_append l l')
  · exact fun h => h.trans (List.prefix_append l l')

/-- A blank line that begins before some text ends in it, or is a whole blank line. -/
theorem endsBoundary_concat {l : List Char} {c : Char} (h : endsBoundary (l ++ [c]) = true) :
  endsBoundary l = true ∨ l ++ [c] = ['\n', '\n'] ∨ l ++ [c] = ['\n', '\r', '\n', '\r']
  := by
  rw [endsBoundary_iff, List.prefix_concat_iff, List.prefix_concat_iff] at h
  rw [endsBoundary_iff]
  obtain (h | h) | (h | h) := h
  · exact .inr (.inl h.symm)
  · exact .inl (.inl h)
  · exact .inr (.inr h.symm)
  · exact .inl (.inr h)

/-- A blank line that ends behind a character of a line begins behind it too. -/
theorem endsBoundary_of_unbroken {l l' : List Char} {c : Char} (hc : Json.Unbroken c)
    (h : endsBoundary (l ++ c :: l') = true) :
  endsBoundary l = true
  := by
  have hprefix : ∀ boundary : List Char, c ∉ boundary → boundary <+: l ++ c :: l' →
      boundary <+: l := by
    intro boundary hnot hpre
    have hpre' : l ++ [c] <+: l ++ c :: l' :=
      (List.prefix_append_right_inj l).mpr (List.prefix_append [c] l')
    obtain hpre | hpre := List.prefix_or_prefix_of_prefix hpre hpre'
    · obtain rfl | hpre := List.prefix_concat_iff.mp hpre
      · exact (hnot (List.mem_append_right _ List.mem_cons_self)).elim
      · exact hpre
    · exact (hnot (hpre.subset (List.mem_append_right _ List.mem_cons_self))).elim
  rw [endsBoundary_iff] at h ⊢
  apply h.imp
  · apply hprefix
    simp [hc.1]
  · apply hprefix
    simp [hc.1, hc.2]

/-- Where a blank line is completed behind another one: in the text that is added, or by a line
break. -/
theorem endsBoundary_straddle {l behind : List Char} {u : Char} (hne : l ≠ [])
    (h : endsBoundary (l ++ '\n' :: u :: behind) = true) :
  endsBoundary l = true ∨ l = ['\n'] ∨ l = ['\n', '\r'] ∧ u = '\r'
  := by
  rw [endsBoundary_iff] at h
  rcases l with _ | ⟨a, _ | ⟨b, _ | ⟨c, _ | ⟨d, l⟩⟩⟩⟩
  · exact (hne rfl).elim
  · obtain ⟨rest, h⟩ | ⟨rest, h⟩ := h
    · cases h
      exact .inr (.inl rfl)
    · cases h
  · obtain ⟨rest, h⟩ | ⟨rest, h⟩ := h
    · cases h
      exact .inl rfl
    · cases h
      exact .inr (.inr ⟨rfl, rfl⟩)
  · obtain ⟨rest, h⟩ | ⟨rest, h⟩ := h
    · cases h
      exact .inl rfl
    · cases h
  · obtain ⟨rest, h⟩ | ⟨rest, h⟩ := h
    · cases h
      exact .inl rfl
    · cases h
      exact .inl rfl

/-! ### Frames -/

/-- No blank line ends within a text before its end. -/
def Whole (text : List Char) : Prop :=
  ∀ p, p <+: text → p ≠ text → endsBoundary p.reverse = false

instance (text : List Char) : Decidable (Whole text) :=
  decidable_of_iff (∀ p ∈ text.inits, p ≠ text → endsBoundary p.reverse = false)
    (by simp only [List.mem_inits, Whole])

/-- A text ends with its first blank line. -/
def Framed (text : List Char) : Prop := endsBoundary text.reverse = true ∧ Whole text

instance (text : List Char) : Decidable (Framed text) := inferInstanceAs (Decidable (_ ∧ _))

theorem boundaryLength_eq (text : List Char) :
  boundaryLength text = 0 ∧ ¬ ['\r', '\n', '\r', '\n'] <+: text ∧ ¬ ['\n', '\n'] <+: text ∨
    boundaryLength text = 4 ∧ ['\r', '\n', '\r', '\n'] <+: text ∨
      boundaryLength text = 2 ∧ ['\n', '\n'] <+: text
  := by
  unfold boundaryLength
  simp only [List.isPrefixOf_iff_prefix]
  split
  · next h => exact .inr (.inl ⟨rfl, h⟩)
  · next h =>
      split
      · next h' => exact .inr (.inr ⟨rfl, h'⟩)
      · next h' => exact .inl ⟨rfl, h, h'⟩

/-- Where no blank line begins with the first character of a text, one that ends in it begins
later. -/
theorem endsBoundary_of_cons {c : Char} {rest p : List Char} (hzero : boundaryLength (c :: rest) = 0)
    (hp : p <+: rest) (h : endsBoundary (c :: p).reverse = true) :
  endsBoundary p.reverse = true
  := by
  have hpre : c :: p <+: c :: rest := List.cons_prefix_cons.mpr ⟨rfl, hp⟩
  obtain ⟨-, hcrlf, hlf⟩ | ⟨hfour, -⟩ | ⟨htwo, -⟩ := boundaryLength_eq (c :: rest)
  · rw [List.reverse_cons] at h
    obtain h | h | h := endsBoundary_concat h
    · exact h
    · rw [← List.reverse_cons, List.reverse_eq_iff] at h
      rw [h] at hpre
      exact (hlf hpre).elim
    · rw [← List.reverse_cons, List.reverse_eq_iff] at h
      rw [h] at hpre
      exact (hcrlf hpre).elim
  · rw [hzero] at hfour
    cases hfour
  · rw [hzero] at htwo
    cases htwo

theorem framed_lf :
  Framed ['\n', '\n']
  := by
  decide

theorem framed_crlf :
  Framed ['\r', '\n', '\r', '\n']
  := by
  decide

theorem takeFrame_some {text frame rest : List Char} (h : takeFrame text = some (frame, rest)) :
  text = frame ++ rest ∧ Framed frame
  := by
  induction text generalizing frame rest with
  | nil => cases h
  | cons c text ih =>
      rw [takeFrame] at h
      split at h
      · next hzero =>
          obtain ⟨⟨frame', rest'⟩, h', heq⟩ := Option.map_eq_some_iff.mp h
          cases heq
          obtain ⟨rfl, hends, hwhole⟩ := ih h'
          constructor
          · rfl
          · constructor
            · rw [List.reverse_cons]
              apply endsBoundary_append hends
            · intro p hp hne
              rw [← Bool.not_eq_true]
              intro hboundary
              rcases p with _ | ⟨c', p⟩
              · cases hboundary
              · obtain ⟨rfl, hp'⟩ := List.cons_prefix_cons.mp hp
                have hin := endsBoundary_of_cons hzero (hp'.trans (List.prefix_append _ _))
                  hboundary
                rw [hwhole p hp' (fun heq => hne (by rw [heq]))] at hin
                cases hin
      · next hne =>
          rw [List.splitAt_eq] at h
          obtain ⟨rfl, rfl⟩ := Prod.mk.inj (Option.some.inj h)
          use (List.take_append_drop _ _).symm
          obtain ⟨hzero, -⟩ | ⟨hfour, tail, htail⟩ | ⟨htwo, tail, htail⟩ :=
            boundaryLength_eq (c :: text)
          · exact (hne hzero).elim
          · rw [hfour, ← htail]
            apply framed_crlf
          · rw [htwo, ← htail]
            apply framed_lf

theorem takeFrame_none {text : List Char} (h : takeFrame text = none) {p : List Char}
    (hp : p <+: text) :
  endsBoundary p.reverse = false
  := by
  induction text generalizing p with
  | nil =>
      rw [List.prefix_nil.mp hp]
      rfl
  | cons c text ih =>
      rw [takeFrame] at h
      split at h
      · next hzero =>
          rw [Option.map_eq_none_iff] at h
          rw [← Bool.not_eq_true]
          intro hboundary
          rcases p with _ | ⟨c', p⟩
          · cases hboundary
          · obtain ⟨rfl, hp'⟩ := List.cons_prefix_cons.mp hp
            have hin := endsBoundary_of_cons hzero hp' hboundary
            rw [ih h hp'] at hin
            cases hin
      · cases h

/-- Two texts that end with their first blank lines are the same if one can be continued to
what the other one can be continued to. -/
theorem Framed.append_inj {x y u v : List Char} (hx : Framed x) (hy : Framed y)
    (h : x ++ u = y ++ v) :
  x = y ∧ u = v
  := by
  have hxy : x = y := by
    have hpx : x <+: y ++ v := ⟨u, h⟩
    have hpy : y <+: y ++ v := List.prefix_append y v
    obtain hpre | hpre := List.prefix_or_prefix_of_prefix hpx hpy
    · by_contra hne
      have hends := hy.2 x hpre hne
      rw [hx.1] at hends
      cases hends
    · by_contra hne
      have hends := hx.2 y hpre fun heq => hne heq.symm
      rw [hy.1] at hends
      cases hends
  rw [hxy] at h
  exact ⟨hxy, List.append_cancel_left h⟩

theorem Framed.ne_nil {frame : List Char} (h : Framed frame) :
  frame ≠ []
  := by
  rintro rfl
  cases h.1

theorem takeFrame_of_framed {frame : List Char} (h : Framed frame) (rest : List Char) :
  takeFrame (frame ++ rest) = some (frame, rest)
  := by
  cases htake : takeFrame (frame ++ rest) with
  | none =>
      have hends := takeFrame_none htake (List.prefix_append frame rest)
      rw [h.1] at hends
      cases hends
  | some taken =>
      obtain ⟨heq, hframed⟩ := takeFrame_some htake
      obtain ⟨h₁, h₂⟩ := h.append_inj hframed heq
      rw [h₁, h₂]

/-- The frames of a text. The last one need not end with a blank line. -/
def frames (text : List Char) : List (List Char) :=
  match _h : takeFrame text with
  | none => if text = [] then [] else [text]
  | some (frame, rest) => frame :: frames rest
termination_by text.length
decreasing_by
  apply length_takeFrame
  assumption

theorem frames_of_none {text : List Char} (h : takeFrame text = none) :
  frames text = if text = [] then [] else [text]
  := by
  rw [frames]
  split
  · rfl
  · next hsome =>
      rw [h] at hsome
      cases hsome

theorem frames_append {frame : List Char} (h : Framed frame) (rest : List Char) :
  frames (frame ++ rest) = frame :: frames rest
  := by
  rw [frames]
  have htake := takeFrame_of_framed h rest
  split
  · next hnone =>
      rw [htake] at hnone
      cases hnone
  · next hsome =>
      rw [htake] at hsome
      cases hsome
      rfl

/-- A text is what its frames and what is left behind them make it. -/
theorem frames_induction {motive : List Char → Prop}
    (last : ∀ text, takeFrame text = none → motive text)
    (more : ∀ frame rest, Framed frame → motive rest → motive (frame ++ rest))
    (text : List Char) :
  motive text
  := by
  induction text using frames.induct with
  | case1 htake => apply last [] htake
  | case2 text htake => apply last text htake
  | case3 text frame rest htake ih =>
      obtain ⟨rfl, hframed⟩ := takeFrame_some htake
      apply more frame rest hframed ih

/-! ### A text that is split -/

/-- The line break that a frame begins with behind a blank line: together with the end of that
line it makes another one. -/
def leftover (before frame : List Char) : List Char :=
  if before = [] then []
  else if ['\n'] <+: frame then ['\n']
  else if ['\r', '\n'] <:+ before ∧ ['\r', '\n'] <+: frame then ['\r', '\n']
  else []

theorem prefix_leftover (before frame : List Char) :
  leftover before frame <+: frame
  := by
  unfold leftover
  split
  · apply List.nil_prefix
  · split
    · assumption
    · split
      · next h => apply h.2
      · apply List.nil_prefix

/-- A frame as its line break and what follows it. -/
theorem leftover_append_drop (before frame : List Char) :
  leftover before frame ++ frame.drop (leftover before frame).length = frame
  := by
  apply List.prefix_iff_eq_append.mp (prefix_leftover before frame)

/-- The pieces of a text up to its first blank line. -/
theorem splitBehind_append {behind piece x rest : List Char} (hne : x ≠ [])
    (hwhole : ∀ p, p ≠ [] → p <+: x → p ≠ x → endsBoundary (p.reverse ++ behind) = false)
    (hends : rest ≠ [] → endsBoundary (x.reverse ++ behind) = true) :
  splitBehind behind piece (x ++ rest) =
    (piece.reverse ++ x) ::
      if rest = [] then [] else splitBehind (x.reverse ++ behind) [] rest
  := by
  induction x generalizing behind piece with
  | nil => exact (hne rfl).elim
  | cons c x ih =>
      have hcons : ∀ p : List Char, (c :: p).reverse ++ behind = p.reverse ++ c :: behind := by
        intro p
        rw [List.reverse_cons, List.append_assoc, List.singleton_append]
      rw [List.cons_append, splitBehind]
      by_cases hx : x = []
      · rw [hx] at hends ⊢
        by_cases hrest : rest = []
        · rw [hrest, if_neg fun h => h.1 rfl, if_pos rfl, List.append_nil, splitBehind,
            List.reverse_cons]
        · rw [List.nil_append, if_pos ⟨hrest, hends hrest⟩, if_neg hrest, List.reverse_cons]
          rfl
      · have hno := hwhole [c] (List.cons_ne_nil _ _) (List.prefix_append [c] _)
          (fun h => hx (List.cons.inj h).2.symm)
        rw [hcons, List.reverse_nil, List.nil_append] at hno
        rw [if_neg (fun h => by rw [hno] at h; cases h.2), ih hx, hcons, List.reverse_cons,
          List.append_assoc, List.singleton_append]
        · intro p hp hpre hproper
          rw [← hcons]
          apply hwhole
          · apply List.cons_ne_nil
          · apply List.cons_prefix_cons.mpr ⟨rfl, hpre⟩
          · exact fun h => hproper (List.cons.inj h).2
        · intro hrest
          rw [← hcons]
          apply hends hrest

/-! ### Behind a frame -/

/-- What stands behind the beginning of a frame: nothing, or a frame with a blank line. -/
def Behind (before behind : List Char) : Prop :=
  before = [] ∧ behind = [] ∨ Framed before ∧ before.reverse <+: behind

theorem leftover_eq (before frame : List Char) :
  leftover before frame = [] ∨ leftover before frame = ['\n'] ∨
    leftover before frame = ['\r', '\n']
  := by
  unfold leftover
  repeat' split
  · exact .inl rfl
  · exact .inr (.inl rfl)
  · exact .inr (.inr rfl)
  · exact .inl rfl

theorem Framed.behind {before behind : List Char} (h : Framed before)
    (hbehind : before.reverse <+: behind) :
  ∃ u tail, behind = '\n' :: u :: tail ∧ (u = '\r' ↔ ['\r', '\n'] <:+ before)
  := by
  obtain ⟨rest, rfl⟩ := hbehind
  have hsuffix : ['\r', '\n'] <:+ before ↔ ['\n', '\r'] <+: before.reverse :=
    List.reverse_prefix.symm
  rw [hsuffix]
  obtain ⟨tail, htail⟩ | ⟨tail, htail⟩ := endsBoundary_iff.mp h.1
  · use '\n', tail ++ rest
    rw [← htail]
    constructor
    · rfl
    · constructor
      · exact fun h => absurd h (by decide)
      · rintro ⟨tail', h⟩
        cases h
  · use '\r', '\n' :: '\r' :: tail ++ rest
    rw [← htail]
    constructor
    · rfl
    · constructor
      · exact fun _ => ⟨'\n' :: '\r' :: tail, rfl⟩
      · exact fun _ => rfl

/-- A line break behind a blank line makes another one. -/
theorem endsBoundary_leftover {before behind frame : List Char} (hbehind : Behind before behind)
    (hne : leftover before frame ≠ []) :
  endsBoundary ((leftover before frame).reverse ++ behind) = true
  := by
  unfold leftover at hne ⊢
  obtain ⟨rfl, -⟩ | ⟨hframed, hpre⟩ := hbehind
  · exact (hne (if_pos rfl)).elim
  · obtain ⟨u, tail, rfl, hu⟩ := hframed.behind hpre
    rw [if_neg hframed.ne_nil] at hne ⊢
    split
    · rfl
    · next hlf =>
        rw [if_neg hlf] at hne
        split
        · next hcrlf =>
            rw [hu.mpr hcrlf.1]
            rfl
        · next hno =>
            rw [if_neg hno] at hne
            exact (hne rfl).elim

/-- No blank line ends in a frame behind its line break. -/
theorem endsBoundary_inside {before behind frame p : List Char} (hbehind : Behind before behind)
    (hwhole : Whole frame) (hne : p ≠ []) (hpre : p <+: frame) (hproper : p ≠ frame)
    (hleft : ¬ p <+: leftover before frame) :
  endsBoundary (p.reverse ++ behind) = false
  := by
  have hown := hwhole p hpre hproper
  obtain ⟨-, rfl⟩ | ⟨hframed, hbefore⟩ := hbehind
  · rw [List.append_nil]
    apply hown
  · obtain ⟨u, tail, rfl, hu⟩ := hframed.behind hbefore
    rw [← Bool.not_eq_true]
    intro hends
    apply hleft
    unfold leftover
    rw [if_neg hframed.ne_nil]
    obtain h | h | ⟨h, hcr⟩ := endsBoundary_straddle (List.reverse_ne_nil_iff.mpr hne) hends
    · rw [hown] at h
      cases h
    · rw [List.reverse_eq_iff] at h
      rw [h] at hpre ⊢
      change ['\n'] <+: frame at hpre
      rw [if_pos hpre]
      apply List.prefix_rfl
    · rw [List.reverse_eq_iff] at h
      rw [h] at hpre ⊢
      change ['\r', '\n'] <+: frame at hpre
      rw [if_neg, if_pos ⟨hu.mp hcr, hpre⟩]
      · apply List.prefix_rfl
      · rintro ⟨rest, hlf⟩
        obtain ⟨rest', hcrlf⟩ := hpre
        rw [← hlf] at hcrlf
        cases hcrlf

/-- No blank line ends within a line break. -/
theorem endsBoundary_within {before behind frame p : List Char} (hne : p ≠ [])
    (hpre : p <+: leftover before frame) (hproper : p ≠ leftover before frame) :
  endsBoundary (p.reverse ++ behind) = false
  := by
  obtain h | h | h := leftover_eq before frame
  · rw [h] at hpre
    exact (hne (List.prefix_nil.mp hpre)).elim
  · rw [h] at hpre hproper
    obtain rfl | rfl : p = [] ∨ p = ['\n'] := by
      simpa using (List.mem_inits _ _).mpr hpre
    · exact (hne rfl).elim
    · exact (hproper rfl).elim
  · rw [h] at hpre hproper
    obtain rfl | rfl | rfl : p = [] ∨ p = ['\r'] ∨ p = ['\r', '\n'] := by
      simpa using (List.mem_inits _ _).mpr hpre
    · exact (hne rfl).elim
    · rfl
    · exact (hproper rfl).elim

/-- A line break is taken off a frame, and the rest of the frame is one piece. -/
theorem splitBehind_frame {before behind frame rest : List Char} (hbehind : Behind before behind)
    (hne : frame ≠ []) (hwhole : Whole frame)
    (hends : rest ≠ [] → endsBoundary frame.reverse = true) :
  splitBehind behind [] (frame ++ rest) =
    [leftover before frame, frame.drop (leftover before frame).length].filter (· ≠ []) ++
      if rest = [] then [] else splitBehind (frame.reverse ++ behind) [] rest
  := by
  have hframe := leftover_append_drop before frame
  generalize hblock : frame.drop (leftover before frame).length = block at hframe ⊢
  by_cases hbroken : leftover before frame = []
  · rw [hbroken, List.nil_append] at hframe
    rw [hbroken, hframe, splitBehind_append hne]
    · simp [hne]
    · intro p hp hpre hproper
      apply endsBoundary_inside hbehind hwhole hp hpre hproper
      rw [hbroken, List.prefix_nil]
      apply hp
    · exact fun h => endsBoundary_append (hends h) _
  · have hsplit : splitBehind behind [] (frame ++ rest) = leftover before frame ::
        if block ++ rest = [] then []
        else splitBehind ((leftover before frame).reverse ++ behind) [] (block ++ rest) := by
      conv => lhs; rw [← hframe, List.append_assoc]
      apply splitBehind_append hbroken
      · intro p hp hpre hproper
        apply endsBoundary_within hp hpre hproper
      · exact fun _ => endsBoundary_leftover hbehind hbroken
    rw [hsplit]
    by_cases hempty : block = []
    · have hrest : rest = [] := by
        by_contra hrest
        have hboundary := hends hrest
        rw [← hframe, hempty, List.append_nil] at hboundary
        obtain h | h | h := leftover_eq before frame
        · exact hbroken h
        · rw [h] at hboundary
          cases hboundary
        · rw [h] at hboundary
          cases hboundary
      simp [hempty, hrest, hbroken]
    · have hblock : splitBehind ((leftover before frame).reverse ++ behind) [] (block ++ rest) =
          block :: if rest = [] then []
            else splitBehind (block.reverse ++ ((leftover before frame).reverse ++ behind)) [] rest := by
        have hreverse : ∀ p : List Char, p.reverse ++ ((leftover before frame).reverse ++ behind) =
            (leftover before frame ++ p).reverse ++ behind := by
          intro p
          rw [List.reverse_append, List.append_assoc]
        apply splitBehind_append hempty
        · intro p hp hpre hproper
          rw [hreverse]
          apply endsBoundary_inside hbehind hwhole
          · exact fun h => hp (List.append_eq_nil_iff.mp h).2
          · have hpre' := (List.prefix_append_right_inj (leftover before frame)).mpr hpre
            rw [hframe] at hpre'
            apply hpre'
          · exact fun h => hproper (List.append_cancel_left (h.trans hframe.symm))
          · intro h
            have hlength := h.length_le
            rw [List.length_append] at hlength
            exact hp (List.eq_nil_of_length_eq_zero (by omega))
        · intro hrest
          rw [hreverse, hframe]
          apply endsBoundary_append (hends hrest)
      rw [if_neg fun h => hempty (List.append_eq_nil_iff.mp h).1, hblock, ← List.append_assoc,
        ← List.reverse_append, hframe]
      simp [hbroken, hempty]

/-! ### Blocks that are rendered -/

theorem takeFrame_unbroken {line : List Char} (hline : ∀ c ∈ line, Json.Unbroken c)
    (rest : List Char) :
  takeFrame (line ++ rest) = (takeFrame rest).map fun (frame, rest) => (line ++ frame, rest)
  := by
  induction line with
  | nil =>
      rw [List.nil_append]
      cases takeFrame rest <;> rfl
  | cons c line ih =>
      rw [List.forall_mem_cons] at hline
      have hzero : boundaryLength (c :: (line ++ rest)) = 0 := by
        obtain ⟨hzero, -⟩ | ⟨-, tail, htail⟩ | ⟨-, tail, htail⟩ :=
          boundaryLength_eq (c :: (line ++ rest))
        · exact hzero
        · exact (hline.1.2 (List.cons.inj htail).1.symm).elim
        · exact (hline.1.1 (List.cons.inj htail).1.symm).elim
      rw [List.cons_append, takeFrame, if_pos hzero, ih hline.2, Option.map_map]
      rfl

theorem takeFrame_lineBreak {c : Char} (hc : Json.Unbroken c) (rest : List Char) :
  takeFrame ('\n' :: c :: rest) =
    (takeFrame (c :: rest)).map fun (frame, rest) => ('\n' :: frame, rest)
  := by
  have hzero : boundaryLength ('\n' :: c :: rest) = 0 := by
    obtain ⟨hzero, -⟩ | ⟨-, tail, htail⟩ | ⟨-, tail, htail⟩ :=
      boundaryLength_eq ('\n' :: c :: rest)
    · exact hzero
    · cases htail
    · cases htail
      exact (hc.1 rfl).elim
  rw [takeFrame, if_pos hzero]

/-- A line of data and a blank line make a frame. -/
theorem takeFrame_dataLine {line : List Char} (hline : ∀ c ∈ line, Json.Unbroken c) :
  takeFrame (line ++ ['\n', '\n']) = some (line ++ ['\n', '\n'], [])
  := by
  rw [takeFrame_unbroken hline]
  rfl

theorem unbroken_of_not_isBlank {c : Char} (h : isBlank c = false) :
  Json.Unbroken c
  := by
  constructor
  · rintro rfl
    exact absurd h (by decide)
  · rintro rfl
    exact absurd h (by decide)

/-- The name of an event is on one line. -/
theorem unbroken_name {block name data : List Char}
    (h : matchBlock block = some (some name, data)) :
  ∀ c ∈ name, Json.Unbroken c
  := by
  unfold matchBlock at h
  split at h
  · next text htext =>
      obtain ⟨⟨name', rest⟩, hline, h⟩ := Option.bind_eq_some_iff.mp h
      obtain ⟨data', -, h⟩ := Option.bind_eq_some_iff.mp h
      cases h
      unfold matchEventLine at hline
      dsimp only at hline
      split at hline
      · cases hline
      · cases hline
        intro c hc
        apply unbroken_of_not_isBlank
        simpa using List.mem_takeWhile_imp hc
  · obtain ⟨data', -, h⟩ := Option.bind_eq_some_iff.mp h
    cases h

/-- A block with an event begins like one. -/
theorem head?_of_matchBlock {block : List Char} {found : Option (List Char) × List Char}
    (h : matchBlock block = some found) :
  block.head? = some 'e' ∨ block.head? = some 'd'
  := by
  have hstart : ∀ {c : Char} {start text : List Char},
      stripStart (c :: start) block = some text → block.head? = some c := by
    intro c start text hstrip
    unfold stripStart at hstrip
    split at hstrip
    · next hpre =>
        obtain ⟨rest, rfl⟩ := List.isPrefixOf_iff_prefix.mp hpre
        rfl
    · cases hstrip
  unfold matchBlock at h
  split at h
  · next htext => exact .inl (hstart htext)
  · obtain ⟨data, hdata, -⟩ := Option.bind_eq_some_iff.mp h
    obtain ⟨text, htext, -⟩ := Option.bind_eq_some_iff.mp hdata
    exact .inr (hstart htext)

section Render

variable {N : Type} [JsNumber N] (s : IndexInjector)

/-- A block is passed through, or it begins like one with an event and is written as a frame
that does. -/
theorem render_cases (block : List Char) :
  s.render N block = (block, s) ∨
    (block.head? = some 'e' ∨ block.head? = some 'd') ∧ Framed (s.render N block).1 ∧
      ((s.render N block).1.head? = some 'e' ∨ (s.render N block).1.head? = some 'd')
  := by
  unfold IndexInjector.render
  cases hevent : IndexInjector.eventOf N block with
  | none => exact .inl rfl
  | some found =>
      obtain ⟨name, event⟩ := found
      right
      have hmatch : ∃ data, matchBlock block = some (name, data) := by
        unfold IndexInjector.eventOf at hevent
        split at hevent
        · cases hevent
        · next name' data hblock =>
            split at hevent
            · cases hevent
              use data
            · cases hevent
      obtain ⟨data, hmatch⟩ := hmatch
      use head?_of_matchBlock hmatch
      let data := 'd' :: ['a', 't', 'a', ':', ' '] ++ Json.stringify (.object (s.inject event).1)
      have hdata : ∀ c ∈ data, Json.Unbroken c := by
        rw [List.forall_mem_append]
        exact ⟨Json.unbroken_of_all (by decide), Json.unbroken_stringify _⟩
      have htake := takeFrame_dataLine hdata
      cases name with
      | none =>
          change Framed (data ++ ['\n', '\n']) ∧ _
          exact ⟨(takeFrame_some htake).2, .inr rfl⟩
      | some name =>
          let line := 'e' :: ['v', 'e', 'n', 't', ':', ' '] ++ name
          have hline : ∀ c ∈ line, Json.Unbroken c := by
            rw [List.forall_mem_append]
            exact ⟨Json.unbroken_of_all (by decide), unbroken_name hmatch⟩
          have hall : takeFrame (line ++ '\n' :: (data ++ ['\n', '\n'])) =
              some (line ++ '\n' :: (data ++ ['\n', '\n']), []) := by
            rw [takeFrame_unbroken hline]
            change (takeFrame ('\n' :: 'd' :: _)).map _ = _
            rw [takeFrame_lineBreak (by decide)]
            change ((takeFrame (data ++ ['\n', '\n'])).map _).map _ = _
            rw [htake]
            rfl
          have heq : "event: ".toList ++ name ++ ['\n'] ++ "data: ".toList ++
              Json.stringify (.object (s.inject event).1) ++ ['\n', '\n'] =
                line ++ '\n' :: (data ++ ['\n', '\n']) := by
            simp only [line, data, List.append_assoc, List.cons_append, List.nil_append]
            rfl
          dsimp only [Option.elim_some]
          rw [heq]
          exact ⟨(takeFrame_some hall).2, .inl rfl⟩

/-- A block that begins like none with an event is passed through. -/
theorem render_of_head {block : List Char} (he : block.head? ≠ some 'e')
    (hd : block.head? ≠ some 'd') :
  s.render N block = (block, s)
  := by
  obtain h | ⟨h, -⟩ := render_cases (N := N) s block
  · exact h
  · exact (h.elim he hd).elim

theorem render_leftover (before frame : List Char) :
  s.render N (leftover before frame) = (leftover before frame, s)
  := by
  apply render_of_head
  · obtain h | h | h := leftover_eq before frame <;> rw [h] <;> decide
  · obtain h | h | h := leftover_eq before frame <;> rw [h] <;> decide

/-- A frame behind a line break that it begins with is passed through. -/
theorem render_of_leftover {before frame : List Char} (hbroken : leftover before frame ≠ []) :
  s.render N frame = (frame, s)
  := by
  have hhead : frame.head? = (leftover before frame).head? := by
    obtain ⟨rest, hrest⟩ := prefix_leftover before frame
    conv => lhs; rw [← hrest]
    apply List.head?_append_of_ne_nil _ hbroken
  apply render_of_head
  · rw [hhead]
    obtain h | h | h := leftover_eq before frame <;> rw [h] <;> decide
  · rw [hhead]
    obtain h | h | h := leftover_eq before frame <;> rw [h] <;> decide

/-- A piece that is empty writes nothing. -/
theorem renderAll_filter_cons (block : List Char) (blocks blocks' : List (List Char)) :
  renderAll N s ((block :: blocks).filter (· ≠ []) ++ blocks') =
    (s.render N block).1 ++ renderAll N (s.render N block).2 (blocks.filter (· ≠ []) ++ blocks')
  := by
  by_cases hempty : block = []
  · rw [hempty, List.filter_cons_of_neg (by decide), render_of_head s (by decide) (by decide)]
    rfl
  · rw [List.filter_cons_of_pos (by simpa using hempty)]
    rfl

variable (N) in
/-- What the text form writes, frame by frame. -/
def renderFrames (before : List Char) (s : IndexInjector) : List (List Char) → List Char
  | [] => []
  | frame :: frames =>
      let broken := leftover before frame
      let (out, s) := s.render N (frame.drop broken.length)
      broken ++ (out ++ renderFrames frame s frames)

variable (N) in
/-- Whether both forms do the same with all frames. A frame that begins with a leftover line
break is passed through by the stream, so the rest of it must be as the text form writes it; and
what it adds to the numbered items is only known to the text form. -/
def Agrees (before : List Char) (text stream : IndexInjector) : List (List Char) → Prop
  | [] => True
  | frame :: frames =>
      let broken := leftover before frame
      let block := frame.drop broken.length
      if broken = [] then
        (text.render N frame).1 = (stream.render N frame).1 ∧
          Agrees frame (text.render N frame).2 (stream.render N frame).2 frames
      else (text.render N block).1 = block ∧ Agrees frame (text.render N block).2 stream frames

theorem renderAll_frame {before behind frame : List Char} (hbehind : Behind before behind)
    (hne : frame ≠ []) (hwhole : Whole frame) (rest : List Char)
    (hends : rest ≠ [] → endsBoundary frame.reverse = true) :
  renderAll N s (splitBehind behind [] (frame ++ rest)) =
    leftover before frame ++
      ((s.render N (frame.drop (leftover before frame).length)).1 ++
        renderAll N (s.render N (frame.drop (leftover before frame).length)).2
          (if rest = [] then [] else splitBehind (frame.reverse ++ behind) [] rest))
  := by
  rw [splitBehind_frame hbehind hne hwhole hends, renderAll_filter_cons, render_leftover,
    renderAll_filter_cons]
  rfl

theorem frames_nil :
  frames [] = []
  := by
  rw [frames_of_none rfl, if_pos rfl]

/-- The text form splits its text into frames and the line breaks in front of them. -/
theorem renderAll_splitBehind (text before behind : List Char) (hbehind : Behind before behind) :
  renderAll N s (splitBehind behind [] text) = renderFrames N before s (frames text)
  := by
  induction text using frames_induction generalizing before behind s with
  | last text htake =>
      rw [frames_of_none htake]
      by_cases hempty : text = []
      · rw [hempty, if_pos rfl, splitBehind, List.reverse_nil, renderAll,
          render_of_head s (by decide) (by decide)]
        rfl
      · have htext := renderAll_frame (N := N) s hbehind hempty
          (fun p hp _ => takeFrame_none htake hp) [] (fun h => (h rfl).elim)
        rw [List.append_nil, if_pos rfl] at htext
        rw [htext, if_neg hempty]
        rfl
  | more frame rest hframed ih =>
      rw [renderAll_frame s hbehind hframed.ne_nil hframed.2 rest fun _ => hframed.1,
        frames_append hframed, renderFrames]
      congr 2
      split
      · next hrest =>
          rw [hrest, frames_nil]
          rfl
      · apply ih
        exact .inr ⟨hframed, List.prefix_append _ _⟩

/-- The text form, frame by frame. -/
theorem repairResponsesSseText_eq (text : List Char) :
  repairResponsesSseText N text = renderFrames N [] .initial (frames text)
  := by
  apply renderAll_splitBehind
  exact .inl ⟨rfl, rfl⟩

/-! ### Frames that are written alike -/

theorem framed_render {block : List Char} (h : Framed block) :
  Framed (s.render N block).1
  := by
  obtain hpass | ⟨-, hframed, -⟩ := render_cases (N := N) s block
  · rw [hpass]
    apply h
  · apply hframed

/-- What follows the line break of a frame is a frame if it begins like an event. -/
theorem framed_drop {before frame : List Char} (h : Framed frame) {c : Char}
    (hc : Json.Unbroken c)
    (hhead : (frame.drop (leftover before frame).length).head? = some c) :
  Framed (frame.drop (leftover before frame).length)
  := by
  have hframe := leftover_append_drop before frame
  generalize frame.drop (leftover before frame).length = block at hframe hhead ⊢
  constructor
  · obtain ⟨tail, rfl⟩ := List.head?_eq_some_iff.mp hhead
    have hends := h.1
    rw [← hframe, List.reverse_append, List.reverse_cons, List.append_assoc] at hends
    rw [List.reverse_cons]
    apply endsBoundary_append (endsBoundary_of_unbroken hc hends)
  · intro p hp hne
    have hpre := (List.prefix_append_right_inj (leftover before frame)).mpr hp
    rw [hframe] at hpre
    have hinside := h.2 (leftover before frame ++ p) hpre
      fun heq => hne (List.append_cancel_left (heq.trans hframe.symm))
    rw [List.reverse_append] at hinside
    rw [← Bool.not_eq_true]
    intro hends
    rw [endsBoundary_append hends] at hinside
    cases hinside

/-- Both forms write the same if and only if they do with all frames. -/
theorem renderFrames_eq_iff (text before : List Char) (s t : IndexInjector) :
  renderFrames N before s (frames text) = renderAll N t (frames text) ↔
    Agrees N before s t (frames text)
  := by
  induction text using frames_induction generalizing before s t with
  | last text htake =>
      rw [frames_of_none htake]
      by_cases hempty : text = []
      · rw [if_pos hempty]
        apply iff_of_true rfl trivial
      · rw [if_neg hempty]
        simp only [renderFrames, renderAll, Agrees, List.append_nil, and_true]
        by_cases hbroken : leftover before text = []
        · rw [hbroken, if_pos rfl]
          rfl
        · rw [if_neg hbroken, render_of_leftover t hbroken]
          conv => lhs; rhs; rw [← leftover_append_drop before text]
          rw [List.append_right_inj]
  | more frame rest hframed ih =>
      rw [frames_append hframed]
      simp only [renderFrames, renderAll, Agrees]
      by_cases hbroken : leftover before frame = []
      · rw [if_pos hbroken, hbroken, ← ih, List.length_nil, List.drop_zero, List.nil_append]
        constructor
        · intro h
          apply (framed_render s hframed).append_inj (framed_render t hframed) h
        · rintro ⟨hout, hrest⟩
          rw [hout, hrest]
      · rw [if_neg hbroken, render_of_leftover t hbroken, ← ih]
        conv => lhs; rhs; lhs; rw [← leftover_append_drop before frame]
        rw [List.append_assoc, List.append_right_inj]
        obtain hpass | ⟨hhead, hout, -⟩ := render_cases (N := N) s
          (frame.drop (leftover before frame).length)
        · rw [hpass, List.append_right_inj]
          simp
        · have hblock : Framed (frame.drop (leftover before frame).length) := by
            obtain hhead | hhead := hhead
            · apply framed_drop hframed (by decide) hhead
            · apply framed_drop hframed (by decide) hhead
          constructor
          · intro h
            apply hout.append_inj hblock h
          · rintro ⟨hsame, hrest⟩
            rw [hsame, hrest]

/-! ### The stream -/

theorem drain_of_none {buffer : List Char} (h : takeFrame buffer = none) :
  RepairStream.drain N s buffer = ([], s, buffer)
  := by
  rw [RepairStream.drain]
  split
  · rfl
  · next hsome =>
      rw [h] at hsome
      cases hsome

theorem drain_frame {frame : List Char} (h : Framed frame) (rest : List Char) :
  RepairStream.drain N s (frame ++ rest) =
    ((s.render N frame).1 ++ (RepairStream.drain N (s.render N frame).2 rest).1,
      (RepairStream.drain N (s.render N frame).2 rest).2)
  := by
  have htake := takeFrame_of_framed h rest
  rw [RepairStream.drain]
  split
  · next hnone =>
      rw [htake] at hnone
      cases hnone
  · next hsome =>
      rw [htake] at hsome
      cases hsome
      rfl

/-- What is left of a buffer has no blank line. -/
theorem takeFrame_drain (buffer : List Char) (s : IndexInjector) :
  takeFrame (RepairStream.drain N s buffer).2.2 = none
  := by
  induction buffer using frames_induction generalizing s with
  | last text htake =>
      rw [drain_of_none s htake]
      apply htake
  | more frame rest hframed ih =>
      rw [drain_frame s hframed]
      apply ih

/-- It makes no difference whether a text arrives at once or in two parts. -/
theorem drain_append (buffer more : List Char) (s : IndexInjector) :
  RepairStream.drain N s (buffer ++ more) =
    ((RepairStream.drain N s buffer).1 ++
        (RepairStream.drain N (RepairStream.drain N s buffer).2.1
          ((RepairStream.drain N s buffer).2.2 ++ more)).1,
      (RepairStream.drain N (RepairStream.drain N s buffer).2.1
        ((RepairStream.drain N s buffer).2.2 ++ more)).2)
  := by
  induction buffer using frames_induction generalizing s with
  | last text htake =>
      rw [drain_of_none s htake]
      rfl
  | more frame rest hframed ih =>
      rw [List.append_assoc, drain_frame s hframed, drain_frame s hframed, ih,
        List.append_assoc]

/-- The frames are rendered as they come out of the buffer, and the last one at the end. -/
theorem renderAll_frames (text : List Char) (s : IndexInjector) :
  renderAll N s (frames text) =
    (RepairStream.drain N s text).1 ++
      if (RepairStream.drain N s text).2.2 = [] then []
      else ((RepairStream.drain N s text).2.1.render N (RepairStream.drain N s text).2.2).1
  := by
  induction text using frames_induction generalizing s with
  | last text htake =>
      rw [drain_of_none s htake, frames_of_none htake]
      dsimp only
      split
      · rfl
      · apply List.append_nil
  | more frame rest hframed ih =>
      rw [frames_append hframed, drain_frame s hframed, renderAll, ih, List.append_assoc]

/-- What a stream writes for some chunks, from the text that they are decoded to. -/
theorem run_eq (chunks : List (List UInt8)) {s : RepairStream}
    (hs : takeFrame s.buffer = none) :
  s.run N chunks =
    let text := s.decoder.decode chunks.flatten
    let drained := RepairStream.drain N s.injector (s.buffer ++ text.2)
    utf8Encode drained.1 ++
      (⟨text.1, drained.2.2, drained.2.1⟩ : RepairStream).flush N
  := by
  induction chunks generalizing s with
  | nil =>
      dsimp only [List.flatten_nil, TextDecoder.decode_nil]
      rw [List.append_nil, drain_of_none _ hs]
      rfl
  | cons chunk chunks ih =>
      have hdrained : takeFrame (s.transform N chunk).2.buffer = none := by
        apply takeFrame_drain
      have happend := drain_append (N := N) (s.buffer ++ (s.decoder.decode chunk).2)
        ((s.decoder.decode chunk).1.decode chunks.flatten).2 s.injector
      rw [RepairStream.run, ih hdrained, List.flatten_cons, TextDecoder.decode_append]
      dsimp only
      rw [← List.append_assoc s.buffer, happend, utf8Encode_append, List.append_assoc]
      rfl

/-- What a stream writes for a text, however it is cut. -/
theorem makeResponsesRepairStream_eq {text : List Char} {chunks : List (List UInt8)}
    (h : chunks.flatten = utf8Encode text) :
  makeResponsesRepairStream N chunks =
    utf8Encode (renderAll N .initial
      (frames (if text.head? = some byteOrderMark then text.tail else text)))
  := by
  obtain ⟨hfinish, hdecode⟩ := TextDecoder.decode_utf8Encode text
  unfold makeResponsesRepairStream
  rw [run_eq]
  · dsimp only [RepairStream.initial]
    rw [h, hdecode, List.nil_append, renderAll_frames, utf8Encode_append]
    congr 1
    unfold RepairStream.flush
    dsimp only
    rw [hfinish, List.append_nil, apply_ite utf8Encode]
    rfl
  · rfl

/-! ### The byte order mark -/

theorem takeFrame_byteOrderMark (text : List Char) :
  takeFrame (byteOrderMark :: text) =
    (takeFrame text).map fun (frame, rest) => (byteOrderMark :: frame, rest)
  := by
  have hline : ∀ c ∈ [byteOrderMark], Json.Unbroken c := Json.unbroken_of_all (by decide)
  apply takeFrame_unbroken hline text

/-- What is written for a block is not what is passed through behind a byte order mark. -/
theorem byteOrderMark_cons_ne_render (block : List Char) :
  byteOrderMark :: block ≠ (s.render N block).1
  := by
  obtain h | ⟨-, -, hhead⟩ := render_cases (N := N) s block
  · rw [h]
    apply List.cons_ne_self
  · intro heq
    rw [← heq] at hhead
    revert hhead
    rw [List.head?_cons]
    decide

/-- A text with a byte order mark is passed through up to its first blank line, and the stream
takes the mark off. -/
theorem renderFrames_byteOrderMark (text : List Char) :
  renderFrames N [] s (frames (byteOrderMark :: text)) ≠ renderAll N s (frames text)
  := by
  have hpass : ∀ block, s.render N (byteOrderMark :: block) = (byteOrderMark :: block, s) := by
    intro block
    apply render_of_head
    · rw [List.head?_cons]
      decide
    · rw [List.head?_cons]
      decide
  induction text using frames_induction with
  | last text htake =>
      have hbom := takeFrame_byteOrderMark text
      rw [htake] at hbom
      rw [frames_of_none htake, frames_of_none hbom, if_neg (List.cons_ne_nil _ _)]
      simp only [renderFrames, leftover, if_true, List.length_nil, List.drop_zero, hpass,
        List.nil_append, List.append_nil]
      split
      · apply List.cons_ne_nil
      · rw [renderAll, renderAll, List.append_nil]
        apply byteOrderMark_cons_ne_render
  | more frame rest hframed _ =>
      have htake := takeFrame_byteOrderMark frame
      rw [← List.append_nil frame, takeFrame_of_framed hframed] at htake
      have hbom := (takeFrame_some htake).2
      rw [← List.cons_append, frames_append hbom, frames_append hframed]
      simp only [renderFrames, leftover, if_true, List.length_nil, List.drop_zero, hpass,
        List.nil_append, renderAll]
      intro heq
      apply byteOrderMark_cons_ne_render (N := N) s frame
      apply (hbom.append_inj (framed_render s hframed) heq).1

end Render

/-- Two events, with some line breaks between them. -/
def sampleText (breaks : String) : List Char :=
  "data: \x7b\"type\":\"response.created\"\x7d".toList ++ breaks.toList ++
    "data: \x7b\"type\":\"response.output_text.delta\",\"delta\":\"é\"\x7d\n\n".toList

end ResponsesRepair
