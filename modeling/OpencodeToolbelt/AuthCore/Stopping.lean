import OpencodeToolbelt.AuthCore.Lexing

/-!
# Where matches stop

An ampersand or a space in a text is no part of what a pattern masks, and no match that begins in
front of one goes on behind it, unless it is a match for a field of an object.
-/

namespace Preview

open Replacing

/-- A unit that stands in no masked value. -/
def Stop (u : UInt16) : Prop := u = 0x26 ∨ u = 0x20

instance (u : UInt16) : Decidable (Stop u) := inferInstanceAs (Decidable (_ ∨ _))

/-- One of these units, as often as one likes, and a quote behind it, if anything. -/
def Stopped (F : JsUnits) : Prop :=
  ∃ u n G, Stop u ∧ F = List.replicate (n + 1) u ++ G ∧ ∀ v ∈ G.head?, v = quoteMark

theorem Stop.not_isWord {u : UInt16} (h : Stop u) :
  isWord u = false ∧ lower u = u ∧ isFormValue u = false ∧ isCredential u = false ∧
    isSegment u = false ∧ u ≠ quoteMark ∧ u ≠ 0x3d ∧ u ≠ 0x2e
  := by
  rcases h with rfl | rfl <;> decide

theorem Stopped.head {F : JsUnits} (h : Stopped F) :
  ∃ u F', F = u :: F' ∧ Stop u
  := by
  obtain ⟨u, n, G, hu, rfl, -⟩ := h
  exact ⟨u, List.replicate n u ++ G, rfl, hu⟩

/-- What is made of units that satisfy a predicate ends in front of such a unit. -/
theorem Stopped.takeWhile {F : JsUnits} (h : Stopped F) {p : UInt16 → Bool}
    (hp : ∀ u, Stop u → p u = false) (X : JsUnits) :
  (X ++ F).takeWhile p = X.takeWhile p ∧ (X ++ F).dropWhile p = X.dropWhile p ++ F
  := by
  obtain ⟨u, F', rfl, hu⟩ := h.head
  apply takeWhile_append_of_stop
  exact Or.inr ⟨u, rfl, hp u hu⟩

theorem head?_append {X : JsUnits} (hX : X ≠ []) (F : JsUnits) :
  (X ++ F).head? = X.head?
  := List.head?_append_of_ne_nil X hX

/-! ### Literals -/

theorem literal_eq_some {expected text found rest : JsUnits}
    (h : literal expected text = some (found, rest)) :
  text = found ++ rest ∧ found.map lower = expected
  := by
  rw [literal] at h
  split at h
  · next heq =>
      cases h
      exact ⟨(List.take_append_drop _ _).symm, heq⟩
  · cases h

/-- A literal that has no such unit is found in front of one, or not at all. -/
theorem literal_append {expected : JsUnits} (hexpected : ∀ u, Stop u → u ∉ expected)
    {F : JsUnits} (hF : Stopped F) (X : JsUnits) :
  literal expected (X ++ F) = (literal expected X).map fun found => (found.1, found.2 ++ F)
  := by
  obtain ⟨u, F', rfl, hu⟩ := hF.head
  rw [literal, literal]
  by_cases hle : expected.length ≤ X.length
  · rw [List.take_append_of_le_length hle, List.drop_append_of_le_length hle]
    split <;> rfl
  · rw [if_neg, if_neg]
    · rfl
    · intro heq
      have hlength := congr_arg List.length heq
      rw [List.length_map, List.length_take] at hlength
      omega
    · intro heq
      apply hexpected u hu
      rw [← heq]
      apply List.mem_map.mpr ⟨u, _, hu.not_isWord.2.1⟩
      rw [List.take_append, List.mem_append]
      right
      obtain ⟨n, hn⟩ : ∃ n, expected.length - X.length = n + 1 :=
        ⟨expected.length - X.length - 1, by omega⟩
      rw [hn, List.take_succ_cons]
      apply List.mem_cons_self

theorem secretName_eq_some {behind : UInt16} {text found rest : JsUnits}
    (h : secretName behind text = some (found, rest)) :
  ∃ name ∈ SECRET_FIELD_NAMES, text = found ++ rest ∧
    found.map lower = unitsOfString name ++ [behind]
  := by
  obtain ⟨name, hmem, hfound⟩ := List.exists_of_findSome?_eq_some h
  use name, hmem
  apply literal_eq_some hfound

theorem findSome?_congr {α β : Type} {f g : α → Option β} {l : List α} (h : ∀ a ∈ l, f a = g a) :
  l.findSome? f = l.findSome? g
  := by
  induction l with
  | nil => rfl
  | cons a l ih =>
      rw [List.forall_mem_cons] at h
      rw [List.findSome?_cons, List.findSome?_cons, h.1, ih h.2]

theorem secretName_append {behind : UInt16} (hbehind : ¬ Stop behind) {F : JsUnits}
    (hF : Stopped F) (X : JsUnits) :
  secretName behind (X ++ F) = (secretName behind X).map fun found => (found.1, found.2 ++ F)
  := by
  rw [secretName, secretName, List.map_findSome?]
  apply findSome?_congr
  intro name hmem
  apply literal_append _ hF
  intro u hu hin
  rcases List.mem_append.mp hin with hin | hin
  · have hword := isWord_of_mem_names hmem u hin
    rw [hu.not_isWord.1] at hword
    cases hword
  · rw [List.mem_singleton.mp hin] at hu
    apply hbehind hu

/-! ### Forms -/

/-- Units that satisfy a predicate, up to the last of them. -/
theorem exists_last {p : UInt16 → Bool} {text : JsUnits} (h : text.takeWhile p ≠ []) :
  ∃ taken last, text = taken ++ last :: text.dropWhile p ∧ p last = true
  := by
  use (text.takeWhile p).dropLast, (text.takeWhile p).getLast h
  constructor
  · rw [List.append_cons, List.dropLast_append_getLast h, List.takeWhile_append_dropWhile]
  · apply List.mem_takeWhile_imp (List.getLast_mem h)

theorem form_eq_some {before : Option UInt16} {text replaced rest : JsUnits}
    (h : SECRET_FORM_PATTERN before text = some (replaced, rest)) :
  ∃ name text', secretName 0x3d text = some (name, text') ∧ text'.takeWhile isFormValue ≠ [] ∧
    rest = text'.dropWhile isFormValue
  := by
  rw [SECRET_FORM_PATTERN] at h
  split at h
  · obtain ⟨⟨name, text'⟩, hname, h⟩ := Option.bind_eq_some_iff.mp h
    dsimp only at h
    split at h
    · cases h
    · next hne =>
        cases h
        exact ⟨name, text', hname, hne, rfl⟩
  · cases h

theorem consumes_form :
  Consumes SECRET_FORM_PATTERN Stop
  := by
  intro before text replaced rest h
  obtain ⟨name, text', hname, hne, rfl⟩ := form_eq_some h
  obtain ⟨-, -, rfl, -⟩ := secretName_eq_some hname
  obtain ⟨taken, last, heq, hlast⟩ := exists_last hne
  use name ++ taken, last
  constructor
  · rw [List.append_assoc, ← heq]
  · intro hstop
    rw [hstop.not_isWord.2.2.1] at hlast
    cases hlast

theorem local_form :
  Local SECRET_FORM_PATTERN Stopped
  := by
  intro before X F hX hF
  rw [SECRET_FORM_PATTERN, SECRET_FORM_PATTERN, head?_append hX,
    secretName_append (by decide) hF]
  split
  · cases secretName 0x3d X with
    | none => rfl
    | some found =>
        obtain ⟨htake, hdrop⟩ := hF.takeWhile (fun u hu => hu.not_isWord.2.2.1) found.2
        simp only [Option.map_some, Option.bind_eq_bind, Option.bind_some, htake, hdrop]
        split <;> rfl
  · rfl

/-! ### Credentials -/

theorem scheme_eq_some {text found rest : JsUnits} (h : scheme text = some (found, rest)) :
  text = found ++ rest
  := by
  obtain ⟨name, -, hfound⟩ := List.exists_of_findSome?_eq_some h
  split at hfound
  · next hpre =>
      cases hfound
      apply (List.prefix_iff_eq_append.mp hpre).symm
  · cases hfound

/-- A text without such a unit is in front of one, or not at all. -/
theorem prefix_append_iff {expected : JsUnits} (hexpected : ∀ u, Stop u → u ∉ expected)
    {F : JsUnits} (hF : Stopped F) (X : JsUnits) :
  expected <+: X ++ F ↔ expected <+: X
  := by
  obtain ⟨u, F', rfl, hu⟩ := hF.head
  constructor
  · intro h
    rcases List.prefix_or_prefix_of_prefix h (List.prefix_append X (u :: F')) with hpre | ⟨Y, rfl⟩
    · apply hpre
    · rw [List.prefix_append_right_inj] at h
      cases Y with
      | nil => rw [List.append_nil]
      | cons v Y =>
          obtain ⟨rfl, -⟩ := List.cons_prefix_cons.mp h
          apply absurd _ (hexpected v hu)
          simp
  · intro h
    apply h.trans (List.prefix_append X _)

theorem scheme_append {F : JsUnits} (hF : Stopped F) (X : JsUnits) :
  scheme (X ++ F) = (scheme X).map fun found => (found.1, found.2 ++ F)
  := by
  have hall : ∀ name ∈ ["Bearer", "Basic"], 0x26 ∉ unitsOfString name ∧ 0x20 ∉ unitsOfString name := by
    decide +kernel
  rw [scheme, scheme, List.map_findSome?]
  apply findSome?_congr
  intro name hmem
  have hstop : ∀ u, Stop u → u ∉ unitsOfString name := by
    rintro u (rfl | rfl)
    · apply (hall name hmem).1
    · apply (hall name hmem).2
  simp only [Function.comp_apply, prefix_append_iff hstop hF X]
  split
  · next hpre =>
      rw [List.drop_append_of_le_length hpre.length_le]
      rfl
  · rfl

/-- No credential comes behind spaces that end with such units. -/
theorem Stopped.no_credential {F : JsUnits} (hF : Stopped F) :
  (F.dropWhile isSpace).takeWhile isCredential = []
  := by
  obtain ⟨u, n, G, hu, rfl, hG⟩ := hF
  rcases hu with rfl | rfl
  · rfl
  · have hspaces : ∀ v ∈ List.replicate (n + 1) (0x20 : UInt16), isSpace v = true := by
      intro v hv
      rw [List.eq_of_mem_replicate hv]
      decide
    rw [List.dropWhile_append_of_pos hspaces]
    cases G with
    | nil => rfl
    | cons v G =>
        rw [hG v rfl]
        rfl

theorem bearer_eq_some {before : Option UInt16} {text replaced rest : JsUnits}
    (h : BEARER_PATTERN before text = some (replaced, rest)) :
  ∃ name text', scheme text = some (name, text') ∧
    (text'.dropWhile isSpace).takeWhile isCredential ≠ [] ∧
    rest = (text'.dropWhile isSpace).dropWhile isCredential
  := by
  rw [BEARER_PATTERN] at h
  split at h
  · obtain ⟨⟨name, text'⟩, hname, h⟩ := Option.bind_eq_some_iff.mp h
    dsimp only at h
    split at h
    · cases h
    · next hne =>
        cases h
        exact ⟨name, text', hname, fun hnil => hne (Or.inr hnil), rfl⟩
  · cases h

theorem consumes_bearer :
  Consumes BEARER_PATTERN Stop
  := by
  intro before text replaced rest h
  obtain ⟨name, text', hname, hne, rfl⟩ := bearer_eq_some h
  obtain ⟨taken, last, heq, hlast⟩ := exists_last hne
  use name ++ (text'.takeWhile isSpace ++ taken), last
  constructor
  · rw [List.append_assoc, List.append_assoc, ← heq, List.takeWhile_append_dropWhile]
    apply scheme_eq_some hname
  · intro hstop
    rw [hstop.not_isWord.2.2.2.1] at hlast
    cases hlast

theorem local_bearer :
  Local BEARER_PATTERN Stopped
  := by
  intro before X F hX hF
  rw [BEARER_PATTERN, BEARER_PATTERN, head?_append hX, scheme_append hF]
  split
  · cases scheme X with
    | none => rfl
    | some found =>
        simp only [Option.map_some, Option.bind_eq_bind, Option.bind_some]
        by_cases hblank : Blank found.2
        · have hnone : (found.2.dropWhile isSpace).takeWhile isCredential = [] := by
            rw [List.dropWhile_eq_nil_iff.mpr hblank]
            rfl
          rw [List.dropWhile_append_of_pos hblank, if_pos (Or.inr hF.no_credential),
            if_pos (Or.inr hnone)]
          rfl
        · obtain ⟨hspaces, hrest⟩ := takeWhile_append_of_not_blank hblank F
          obtain ⟨htake, hdrop⟩ := hF.takeWhile (fun u hu => hu.not_isWord.2.2.2.1)
            (found.2.dropWhile isSpace)
          rw [hspaces, hrest, htake, hdrop]
          split <;> rfl
  · rfl

/-! ### Tokens -/

theorem segment_eq_some {text rest : JsUnits} (h : segment text = some rest) :
  ∃ taken, text = taken ++ rest
  := by
  rw [segment] at h
  split at h
  · cases h
  · split at h
    · cases h
    · next u rest' hdrop =>
        split at h
        · cases h
          use text.takeWhile isSegment ++ [u]
          rw [List.append_assoc, List.singleton_append, ← hdrop, List.takeWhile_append_dropWhile]
        · cases h

theorem segment_append {F : JsUnits} (hF : Stopped F) (X : JsUnits) :
  segment (X ++ F) = (segment X).map (· ++ F)
  := by
  obtain ⟨htake, hdrop⟩ := hF.takeWhile (fun u hu => hu.not_isWord.2.2.2.2.1) X
  obtain ⟨u, F', rfl, hu⟩ := hF.head
  rw [segment, segment, htake, hdrop]
  split
  · rfl
  · cases X.dropWhile isSegment with
    | nil =>
        simp only [List.nil_append]
        rw [if_neg hu.not_isWord.2.2.2.2.2.2.2]
        rfl
    | cons v rest =>
        simp only [List.cons_append]
        split <;> rfl

theorem lastSegment_eq_some {text rest : JsUnits} (h : lastSegment text = some rest) :
  ∃ taken last, text = taken ++ last :: rest ∧ isWord last = true
  := by
  rw [lastSegment] at h
  split at h
  · cases h
  · next hne =>
      cases h
      cases hword : (text.takeWhile isSegment).reverse.dropWhile fun u => !isWord u with
      | nil =>
          rw [hword] at hne
          apply absurd rfl hne
      | cons last taken =>
          have hlast := List.head?_dropWhile_not (fun u => !isWord u)
            (text.takeWhile isSegment).reverse
          rw [hword] at hlast
          have hpre : (last :: taken).reverse <+: text := by
            rw [← hword, ← List.reverse_suffix, List.reverse_reverse]
            apply (List.dropWhile_suffix _).trans
            rw [List.reverse_suffix]
            apply List.takeWhile_prefix
          use taken.reverse, last
          constructor
          · have heq := List.prefix_iff_eq_append.mp hpre
            rw [List.length_reverse, List.reverse_cons, List.append_assoc,
              List.singleton_append] at heq
            apply heq.symm
          · simpa using hlast

theorem lastSegment_append {F : JsUnits} (hF : Stopped F) (X : JsUnits) :
  lastSegment (X ++ F) = (lastSegment X).map (· ++ F)
  := by
  obtain ⟨htake, -⟩ := hF.takeWhile (fun u hu => hu.not_isWord.2.2.2.2.1) X
  have hle : ((X.takeWhile isSegment).reverse.dropWhile fun u => !isWord u).length ≤ X.length := by
    apply (List.dropWhile_suffix _).length_le.trans
    rw [List.length_reverse]
    apply (List.takeWhile_prefix _).length_le
  rw [lastSegment, lastSegment, htake]
  split
  · rfl
  · rw [List.drop_append_of_le_length hle]
    rfl

theorem jwt_eq_some {before : Option UInt16} {text replaced rest : JsUnits}
    (h : JWT_PATTERN before text = some (replaced, rest)) :
  ∃ text' text'', segment (text.drop 3) = some text' ∧ segment text' = some text'' ∧
    lastSegment text'' = some rest
  := by
  rw [JWT_PATTERN] at h
  split at h
  · obtain ⟨text', hfirst, h⟩ := Option.bind_eq_some_iff.mp h
    obtain ⟨text'', hsecond, h⟩ := Option.bind_eq_some_iff.mp h
    obtain ⟨rest', hthird, h⟩ := Option.bind_eq_some_iff.mp h
    cases h
    exact ⟨text', text'', hfirst, hsecond, hthird⟩
  · cases h

theorem consumes_jwt :
  Consumes JWT_PATTERN Stop
  := by
  intro before text replaced rest h
  obtain ⟨text', text'', hfirst, hsecond, hthird⟩ := jwt_eq_some h
  obtain ⟨taken₁, heq₁⟩ := segment_eq_some hfirst
  obtain ⟨taken₂, rfl⟩ := segment_eq_some hsecond
  obtain ⟨taken₃, last, rfl, hlast⟩ := lastSegment_eq_some hthird
  use text.take 3 ++ (taken₁ ++ (taken₂ ++ taken₃)), last
  constructor
  · rw [List.append_assoc, List.append_assoc, List.append_assoc, ← heq₁, List.take_append_drop]
  · intro hstop
    rw [hstop.not_isWord.1] at hlast
    cases hlast

theorem local_jwt :
  Local JWT_PATTERN Stopped
  := by
  intro before X F hX hF
  have hstop : ∀ u, Stop u → u ∉ unitsOfString "eyJ" := by
    have hnot : 0x26 ∉ unitsOfString "eyJ" ∧ 0x20 ∉ unitsOfString "eyJ" := by decide +kernel
    rintro u (rfl | rfl)
    · apply hnot.1
    · apply hnot.2
  have hpre : (unitsOfString "eyJ").isPrefixOf (X ++ F) = (unitsOfString "eyJ").isPrefixOf X := by
    rw [Bool.eq_iff_iff, List.isPrefixOf_iff_prefix, List.isPrefixOf_iff_prefix,
      prefix_append_iff hstop hF X]
  rw [JWT_PATTERN, JWT_PATTERN, head?_append hX, hpre]
  split
  · next hcond =>
      rw [Bool.and_eq_true, List.isPrefixOf_iff_prefix] at hcond
      have hle : 3 ≤ X.length := hcond.2.length_le
      rw [List.drop_append_of_le_length hle, segment_append hF]
      cases segment (X.drop 3) with
      | none => rfl
      | some text' =>
          simp only [Option.map_some, Option.bind_eq_bind, Option.bind_some, segment_append hF]
          cases segment text' with
          | none => rfl
          | some text'' =>
              simp only [Option.map_some, Option.bind_some, lastSegment_append hF]
              cases lastSegment text'' <;> rfl
  · rfl

/-! ### Fields of objects -/

theorem closing_eq_some {text rest : JsUnits} (h : closing text = some rest) :
  ∃ taken, text = taken ++ quoteMark :: rest
  := by
  induction text using closing.induct with
  | case1 => cases h
  | case2 text =>
      rw [closing.eq_def] at h
      simp only [if_pos] at h
      cases h
      exact ⟨[], rfl⟩
  | case3 hne =>
      rw [closing.eq_def] at h
      simp only [if_neg hne, if_pos] at h
      cases h
  | case4 v text hline hne =>
      rw [closing.eq_def] at h
      simp only [if_neg hne, if_pos, hline] at h
      cases h
  | case5 v text hline hne ih =>
      rw [closing.eq_def] at h
      simp only [if_neg hne, if_pos, hline] at h
      obtain ⟨taken, rfl⟩ := ih h
      exact ⟨backslash :: v :: taken, rfl⟩
  | case6 u text hquote hbackslash ih =>
      rw [closing.eq_def] at h
      simp only [if_neg hquote, if_neg hbackslash] at h
      obtain ⟨taken, rfl⟩ := ih h
      exact ⟨u :: taken, rfl⟩

theorem separator_eq_some {text between rest : JsUnits} (h : separator text = some (between, rest)) :
  ∃ taken, text = taken ++ rest
  := by
  rw [separator] at h
  split at h
  · cases h
  · next u rest' hdrop =>
      split at h
      · cases h
        use text.takeWhile isSpace ++ u :: rest'.takeWhile isSpace
        rw [List.append_assoc, List.cons_append, List.takeWhile_append_dropWhile, ← hdrop,
          List.takeWhile_append_dropWhile]
      · cases h

theorem maskedString_eq_some {start text replaced rest : JsUnits}
    (h : maskedString start text = some (replaced, rest)) :
  ∃ taken, text = taken ++ quoteMark :: rest
  := by
  cases text with
  | nil => cases h
  | cons u text =>
      rw [maskedString] at h
      split at h
      · obtain ⟨rest', hclosing, heq⟩ := Option.map_eq_some_iff.mp h
        cases heq
        obtain ⟨taken, rfl⟩ := closing_eq_some hclosing
        exact ⟨u :: taken, rfl⟩
      · cases h

theorem consumes_json :
  Consumes SECRET_JSON_PATTERN Stop
  := by
  intro before text replaced rest h
  cases text with
  | nil => cases h
  | cons u text =>
      rw [SECRET_JSON_PATTERN] at h
      split at h
      · obtain ⟨⟨name, text₁⟩, hname, hrest⟩ := Option.bind_eq_some_iff.mp h
        obtain ⟨⟨between, text₂⟩, hbetween, hmasked⟩ := Option.bind_eq_some_iff.mp hrest
        obtain ⟨-, -, rfl, -⟩ := secretName_eq_some hname
        obtain ⟨taken₁, heq₁⟩ := separator_eq_some hbetween
        obtain ⟨taken₂, heq₂⟩ := maskedString_eq_some hmasked
        dsimp only at heq₁ heq₂
        use u :: (name ++ (taken₁ ++ taken₂)), quoteMark
        constructor
        · rw [heq₁, heq₂, List.cons_append, List.append_assoc, List.append_assoc]
        · exact fun hstop => hstop.not_isWord.2.2.2.2.2.1 rfl
      · cases h

/-! ### Units that begin no match -/

/-- No match for any pattern but the first one begins with what is no part of a word. -/
theorem inert_of_not_isWord {u : UInt16} (hu : isWord u = false) :
  Inert SECRET_FORM_PATTERN u ∧ Inert BEARER_PATTERN u ∧ Inert JWT_PATTERN u
  := by
  have hfirst : ∀ {text : JsUnits} {name : String}, (unitsOfString name).head?.any isWord = true →
      ¬ unitsOfString name <+: u :: text := by
    intro text name hname hpre
    obtain ⟨v, hv, hword⟩ := (Option.any_eq_true _ _).mp hname
    obtain ⟨rest, hrest⟩ := List.head?_eq_some_iff.mp hv
    rw [hrest] at hpre
    rw [(List.cons_prefix_cons.mp hpre).1, hu] at hword
    cases hword
  refine ⟨?_, ?_, ?_⟩
  · intro before text
    rw [SECRET_FORM_PATTERN]
    split
    · rw [secretName_of_head]
      · rfl
      · intro v hv
        cases hv
        apply hu
    · rfl
  · intro before text
    have hnone : scheme (u :: text) = none := by
      apply findSome?_eq_none
      intro name hmem
      have hall : ∀ name ∈ ["Bearer", "Basic"], (unitsOfString name).head?.any isWord = true := by
        decide +kernel
      rw [if_neg (hfirst (hall name hmem))]
    rw [BEARER_PATTERN, hnone]
    split <;> rfl
  · intro before text
    rw [JWT_PATTERN, if_neg]
    rw [Bool.and_eq_true, List.isPrefixOf_iff_prefix]
    intro hcond
    apply hfirst (by decide +kernel) hcond.2

end Preview
