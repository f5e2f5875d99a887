import OpencodeToolbelt.AuthCore.Masking
import OpencodeToolbelt.Data.JsonText

/-!
# Members of objects in previews

What stands in front of a member of an object in a text of JSON, unit by unit.
-/

namespace Preview

open Json (Spaces StringText Phrase Text Preceding Following Place)

/-! ### Units of characters -/

theorem unitsOfText_append (t t' : List Char) :
  unitsOfText (t ++ t') = unitsOfText t ++ unitsOfText t'
  := List.flatMap_append

theorem unitsOfText_cons (c : Char) (t : List Char) :
  unitsOfText (c :: t) = unitsOf c ++ unitsOfText t
  := List.flatMap_cons

/-- A unit that is no half of a pair belongs to one character. -/
theorem eq_of_mem_unitsOf {c : Char} {n : ℕ} (hn : n < 0xd800) (h : UInt16.ofNat n ∈ unitsOf c) :
  c.toNat = n
  := by
  have hvalid : c.toNat < 0x110000 := by
    rcases c.valid with h | h
    · have : c.toNat < 0xd800 := h
      omega
    · exact h.2
  have hmod : ∀ m, UInt16.ofNat n = UInt16.ofNat m → n % 65536 = m % 65536 := by
    intro m heq
    have := congr_arg UInt16.toNat heq
    simpa using this
  unfold unitsOf at h
  dsimp only at h
  split at h
  · have := hmod _ (List.mem_singleton.mp h)
    omega
  · rcases List.mem_cons.mp h with h | h
    · have := hmod _ h
      omega
    · have := hmod _ (List.mem_singleton.mp h)
      omega

theorem eq_quote_of_mem {c : Char} (h : quoteMark ∈ unitsOf c) :
  c = '"'
  := Char.toNat_inj.mp (eq_of_mem_unitsOf (n := 0x22) (by decide) h)

theorem eq_backslash_of_mem {c : Char} (h : backslash ∈ unitsOf c) :
  c = '\\'
  := Char.toNat_inj.mp (eq_of_mem_unitsOf (n := 0x5c) (by decide) h)

theorem unitsOf_quote :
  unitsOf '"' = [quoteMark]
  := by decide

theorem unitsOf_backslash :
  unitsOf '\\' = [backslash]
  := by decide

theorem quoteMark_not_mem {t : List Char} (h : '"' ∉ t) :
  quoteMark ∉ unitsOfText t
  := by
  intro hmem
  obtain ⟨c, hc, hquote⟩ := List.mem_flatMap.mp hmem
  rw [eq_quote_of_mem hquote] at hc
  apply h hc

theorem unitsOf_of_isWhitespace {c : Char} (h : Json.isWhitespace c = true) :
  ∃ u, unitsOf c = [u] ∧ isSpace u = true
  := by
  simp only [Json.isWhitespace, Bool.or_eq_true, decide_eq_true_eq] at h
  rcases h with ((rfl | rfl) | rfl) | rfl
  · exact ⟨0x20, rfl, rfl⟩
  · exact ⟨9, rfl, rfl⟩
  · exact ⟨10, rfl, rfl⟩
  · exact ⟨13, rfl, rfl⟩

theorem blank_of_spaces {ws : List Char} (hws : Spaces ws) :
  Blank (unitsOfText ws)
  := by
  intro u hu
  obtain ⟨c, hc, huc⟩ := List.mem_flatMap.mp hu
  obtain ⟨v, heq, hv⟩ := unitsOf_of_isWhitespace (hws c hc)
  rw [heq, List.mem_singleton] at huc
  rw [huc]
  apply hv

theorem quote_not_mem_of_spaces {ws : List Char} (hws : Spaces ws) :
  '"' ∉ ws
  := by
  intro hmem
  cases hws _ hmem

theorem not_isWord_of_isSpace {u : UInt16} (h : isSpace u = true) :
  isWord u = false
  := by
  simp only [isSpace, Bool.or_eq_true, Bool.and_eq_true, decide_eq_true_eq, UInt16.le_iff_toNat_le,
    ← UInt16.toNat_inj] at h
  simp only [isWord, isAlphanumeric, Bool.or_eq_false_iff, Bool.and_eq_false_iff,
    decide_eq_false_iff_not, UInt16.le_iff_toNat_le, ← UInt16.toNat_inj]
  simp at h ⊢
  omega

/-! ### Strings -/

theorem Inside.append {x b : JsUnits} (hx : ∀ u ∈ x, u ≠ quoteMark ∧ u ≠ backslash)
    (hb : Inside b) :
  Inside (x ++ b)
  := by
  induction x with
  | nil => apply hb
  | cons u x ih =>
      obtain ⟨hquote, hbackslash⟩ := hx u (by simp)
      apply Inside.plain hquote hbackslash
      apply ih
      intro v hv
      apply hx v (List.mem_cons_of_mem u hv)

theorem plain_of_ne {c : Char} (hquote : c ≠ '"') (hbackslash : c ≠ '\\') :
  ∀ u ∈ unitsOf c, u ≠ quoteMark ∧ u ≠ backslash
  := by
  intro u hu
  constructor
  · rintro rfl
    apply hquote (eq_quote_of_mem hu)
  · rintro rfl
    apply hbackslash (eq_backslash_of_mem hu)

theorem inside_of_stringText {t : List Char} (h : StringText t) :
  Inside (unitsOfText t)
  := by
  induction h with
  | nil => apply Inside.nil
  | plain hcontrol hquote hbackslash _ ih =>
      rw [unitsOfText_cons]
      apply ih.append
      apply plain_of_ne hquote hbackslash
  | @escape c t hescape _ ih =>
      have hunit : ∃ u, unitsOf c = [u] ∧ isLineTerminator u = false := by
        simp only [List.mem_cons, List.not_mem_nil, or_false] at hescape
        rcases hescape with rfl | rfl | rfl | rfl | rfl | rfl | rfl | rfl
        · exact ⟨0x22, by decide, by decide⟩
        · exact ⟨0x5c, by decide, by decide⟩
        · exact ⟨0x2f, by decide, by decide⟩
        · exact ⟨0x62, by decide, by decide⟩
        · exact ⟨0x66, by decide, by decide⟩
        · exact ⟨0x6e, by decide, by decide⟩
        · exact ⟨0x72, by decide, by decide⟩
        · exact ⟨0x74, by decide, by decide⟩
      obtain ⟨u, heq, hline⟩ := hunit
      rw [unitsOfText_cons, unitsOfText_cons, heq, unitsOf_backslash]
      apply Inside.escape hline ih
  | @unicode a b c d t hhex _ ih =>
      have hplain : ∀ x ∈ [a, b, c, d], ∀ u ∈ unitsOf x, u ≠ quoteMark ∧ u ≠ backslash := by
        intro x hx
        apply plain_of_ne
        · rintro rfl
          apply absurd (hhex _ hx) (by decide)
        · rintro rfl
          apply absurd (hhex _ hx) (by decide)
      simp only [List.forall_mem_cons] at hplain
      obtain ⟨ha, hb, hc, hd, -⟩ := hplain
      rw [unitsOfText_cons, unitsOfText_cons, unitsOf_backslash, show unitsOf 'u' = [0x75] by decide]
      simp only [unitsOfText_cons, List.cons_append, List.nil_append]
      apply Inside.escape (by decide)
      apply Inside.append ha
      apply Inside.append hb
      apply Inside.append hc
      apply Inside.append hd ih

/-! ### Tokens -/

theorem Lexed.append {x t : JsUnits} (hx : quoteMark ∉ x) (ht : Lexed t) :
  Lexed (x ++ t)
  := by
  induction x with
  | nil => apply ht
  | cons u x ih =>
      apply Lexed.other
      · rintro rfl
        simp at hx
      · apply ih
        intro hmem
        apply hx (List.mem_cons_of_mem u hmem)

/-- No word goes on behind a place. -/
def Ended (t : JsUnits) : Prop := ∀ u ∈ t.head?, isWord u = false

theorem Ended.cons {u : UInt16} (hu : isWord u = false) (t : JsUnits) :
  Ended (u :: t)
  := by
  intro v hv
  cases hv
  apply hu

theorem ended_unitsOf {c : Char} (hc : (unitsOf c).head?.all (fun u => !isWord u) = true)
    (t : JsUnits) :
  Ended (unitsOf c ++ t)
  := by
  intro u hu
  have hne : unitsOf c ≠ [] := by
    unfold unitsOf
    dsimp only
    split
    · simp
    · simp
  rw [List.head?_append_of_ne_nil _ hne] at hu
  rw [Option.mem_def.mp hu] at hc
  simpa using hc

theorem Ended.spaces {ws : List Char} {t : JsUnits} (hws : Spaces ws) (ht : Ended t) :
  Ended (unitsOfText ws ++ t)
  := by
  cases hunits : unitsOfText ws with
  | nil => apply ht
  | cons u us =>
      apply Ended.cons
      apply not_isWord_of_isSpace
      apply blank_of_spaces hws
      rw [hunits]
      simp

theorem lexed_spaces {ws : List Char} {t : JsUnits} (hws : Spaces ws) (ht : Lexed t) :
  Lexed (unitsOfText ws ++ t)
  := ht.append (quoteMark_not_mem (quote_not_mem_of_spaces hws))

theorem lexed_string {s : List Char} {t : JsUnits} (hs : StringText s) (hended : Ended t)
    (ht : Lexed t) :
  Lexed (unitsOf '"' ++ (unitsOfText s ++ (unitsOf '"' ++ t)))
  := by
  rw [unitsOf_quote]
  apply Lexed.string (inside_of_stringText hs) hended ht

theorem lexed_unitsOf {c : Char} {t : JsUnits} (hc : c ≠ '"') (ht : Lexed t) :
  Lexed (unitsOf c ++ t)
  := by
  apply ht.append
  intro hmem
  apply hc (eq_quote_of_mem hmem)

/-- The tokens of a phrase. -/
theorem lexed_text {phrase : Phrase} {x : List Char} (h : Text phrase x) {t : JsUnits}
    (ht : Lexed t) (hended : Ended t) :
  Lexed (unitsOfText x ++ t)
  := by
  induction h generalizing t with
  | literal h =>
      apply ht.append
      apply quoteMark_not_mem
      simp only [List.mem_cons, List.not_mem_nil, or_false] at h
      rcases h with rfl | rfl | rfl
      · decide
      · decide
      · decide
  | number h => apply ht.append (quoteMark_not_mem (Json.scanNumber_quote h))
  | string h =>
      simp only [unitsOfText_cons, unitsOfText_append, List.append_assoc]
      apply lexed_string h hended ht
  | emptyArray hws =>
      simp only [unitsOfText_cons, unitsOfText_append, List.append_assoc]
      apply lexed_unitsOf (by decide)
      apply lexed_spaces hws
      apply lexed_unitsOf (by decide) ht
  | array _ ih =>
      simp only [unitsOfText_cons, unitsOfText_append, List.append_assoc]
      apply lexed_unitsOf (by decide)
      apply ih (lexed_unitsOf (by decide) ht) (ended_unitsOf (by decide) _)
  | emptyObject hws =>
      simp only [unitsOfText_cons, unitsOfText_append, List.append_assoc]
      apply lexed_unitsOf (by decide)
      apply lexed_spaces hws
      apply lexed_unitsOf (by decide) ht
  | object _ ih =>
      simp only [unitsOfText_cons, unitsOfText_append, List.append_assoc]
      apply lexed_unitsOf (by decide)
      apply ih (lexed_unitsOf (by decide) ht) (ended_unitsOf (by decide) _)
  | lastItem hws _ hws' ih =>
      simp only [unitsOfText_append, List.append_assoc]
      apply lexed_spaces hws
      apply ih (lexed_spaces hws' ht) (hended.spaces hws')
  | item hws _ hws' _ ih ihs =>
      simp only [unitsOfText_cons, unitsOfText_append, List.append_assoc]
      apply lexed_spaces hws
      apply ih
      · apply lexed_spaces hws'
        apply lexed_unitsOf (by decide)
        apply ihs ht hended
      · apply Ended.spaces hws'
        apply ended_unitsOf (by decide)
  | member hkey hws hws' _ ih =>
      simp only [unitsOfText_cons, unitsOfText_append, List.append_assoc]
      apply lexed_string hkey
      · apply Ended.spaces hws
        apply ended_unitsOf (by decide)
      · apply lexed_spaces hws
        apply lexed_unitsOf (by decide)
        apply lexed_spaces hws'
        apply ih ht hended
  | lastMember hws _ hws' ih =>
      simp only [unitsOfText_append, List.append_assoc]
      apply lexed_spaces hws
      apply ih (lexed_spaces hws' ht) (hended.spaces hws')
  | nextMember hws _ hws' _ ih ihs =>
      simp only [unitsOfText_cons, unitsOfText_append, List.append_assoc]
      apply lexed_spaces hws
      apply ih
      · apply lexed_spaces hws'
        apply lexed_unitsOf (by decide)
        apply ihs ht hended
      · apply Ended.spaces hws'
        apply ended_unitsOf (by decide)

theorem lexed_preceding {phrases : Phrase} {x : List Char} (h : Preceding phrases x)
    {t : JsUnits} (ht : Lexed t) :
  Lexed (unitsOfText x ++ t)
  := by
  rcases h with rfl | ⟨s, hs, rfl⟩
  · apply ht
  · simp only [unitsOfText_cons, unitsOfText_append, List.append_assoc]
    apply lexed_text hs
    · apply lexed_unitsOf (by decide) ht
    · apply ended_unitsOf (by decide)

/-- The tokens in front of a place. -/
theorem lexed_front {phrase : Phrase} {front back : List Char} (h : Place phrase front back)
    {t : JsUnits} (ht : Lexed t) :
  Lexed (unitsOfText front ++ t)
  := by
  induction h generalizing t with
  | whole hws _ => apply lexed_spaces hws ht
  | item _ hbefore hws _ _ ih =>
      simp only [unitsOfText_cons, unitsOfText_append, List.append_assoc]
      apply ih
      apply lexed_unitsOf (by decide)
      apply lexed_preceding hbefore
      apply lexed_spaces hws ht
  | member _ hbefore hws _ _ ih =>
      simp only [unitsOfText_cons, unitsOfText_append, List.append_assoc]
      apply ih
      apply lexed_unitsOf (by decide)
      apply lexed_preceding hbefore
      apply lexed_spaces hws ht
  | value _ hkey hws hws' ih =>
      simp only [unitsOfText_cons, unitsOfText_append, List.append_assoc]
      apply ih
      apply lexed_string hkey
      · apply Ended.spaces hws
        apply ended_unitsOf (by decide)
      · apply lexed_spaces hws
        apply lexed_unitsOf (by decide)
        apply lexed_spaces hws' ht

/-- A member stands behind a bracket or a comma. -/
theorem opened_front {front back : List Char} (h : Place .member front back) :
  Opened (unitsOfText front)
  := by
  cases h with
  | @member front back before ws ws' behind _ hbefore hws _ _ =>
      rcases hbefore with rfl | ⟨s, _, rfl⟩
      · use unitsOfText front, 0x7b, unitsOfText ws
        refine ⟨?_, Or.inl rfl, blank_of_spaces hws⟩
        simp only [unitsOfText_cons, unitsOfText_append, List.nil_append]
        rfl
      · use unitsOfText (front ++ '{' :: s), 0x2c, unitsOfText ws
        refine ⟨?_, Or.inr rfl, blank_of_spaces hws⟩
        simp only [unitsOfText_cons, unitsOfText_append, List.append_assoc]
        rfl

/-- A comma, a bracket or a space stands behind a member. -/
theorem ended_back {front back : List Char} (h : Place .member front back) :
  Ended (unitsOfText back)
  := by
  cases h with
  | member _ _ _ hws' hbehind =>
      rw [unitsOfText_append]
      apply Ended.spaces hws'
      rcases hbehind with rfl | ⟨s, _, rfl⟩
      · apply ended_unitsOf (by decide)
      · apply ended_unitsOf (by decide)

/-- A text does not begin with a byte order mark. -/
theorem ne_byteOrderMark {phrase : Phrase} {front back : List Char} (h : Place phrase front back) :
  front.head? ≠ some byteOrderMark
  := by
  have hnested : ∀ {front rest : List Char} {c : Char}, front.head? ≠ some byteOrderMark →
      c ≠ byteOrderMark → (front ++ c :: rest).head? ≠ some byteOrderMark := by
    intro front rest c hfront hc
    cases front with
    | nil => simpa using hc
    | cons c' front => apply hfront
  induction h with
  | @whole ws ws' hws _ =>
      intro hmem
      cases hws _ (List.mem_of_mem_head? hmem)
  | item _ _ _ _ _ ih => apply hnested ih (by decide)
  | member _ _ _ _ _ ih => apply hnested ih (by decide)
  | value _ _ _ _ ih => apply hnested ih (by decide)

end Preview
