import OpencodeToolbelt.AuthCore.Scrubbing

/-!
# Masked fields

The value of a secret field is masked when the preview holds all of it, and does not come up when
the preview ends before it.
-/

namespace Preview

open Replacing

/-! ### Texts of JSON -/

/-- The inside of a string literal. -/
inductive Inside : JsUnits → Prop where
  | nil : Inside []
  | plain {u : UInt16} {b : JsUnits} (hquote : u ≠ quoteMark) (hbackslash : u ≠ backslash)
      (h : Inside b) : Inside (u :: b)
  | escape {u : UInt16} {b : JsUnits} (hline : isLineTerminator u = false) (h : Inside b) :
      Inside (backslash :: u :: b)

/-- What a text of JSON may have in front of a place, token by token: a string is followed by
white space, a colon, a comma or a closing bracket. -/
inductive Lexed : JsUnits → Prop where
  | nil : Lexed []
  | other {u : UInt16} {t : JsUnits} (hquote : u ≠ quoteMark) (h : Lexed t) : Lexed (u :: t)
  | string {b t : JsUnits} (hb : Inside b) (hhead : ∀ u ∈ t.head?, isWord u = false)
      (h : Lexed t) : Lexed (quoteMark :: b ++ quoteMark :: t)

/-- Spaces follow a bracket that opens an object, or a comma. -/
def Opened (t : JsUnits) : Prop :=
  ∃ p c ws, t = p ++ c :: ws ∧ (c = 0x7b ∨ c = 0x2c) ∧ ∀ u ∈ ws, isSpace u = true

/-- Nothing but spaces. -/
def Blank (t : JsUnits) : Prop := ∀ u ∈ t, isSpace u = true

theorem isSpace_quoteMark :
  isSpace quoteMark = false
  := by decide

theorem Opened.after {x t : JsUnits} {u : UInt16} (h : Opened (x ++ u :: t))
    (hspace : isSpace u = false) (hu : u ≠ 0x7b ∧ u ≠ 0x2c) :
  Opened t
  := by
  obtain ⟨p, c, ws, heq, hc, hws⟩ := h
  rcases List.append_eq_append_iff.mp heq with ⟨y, rfl, hy⟩ | ⟨y, rfl, hy⟩
  · cases y with
    | nil =>
        obtain ⟨rfl, rfl⟩ := List.cons.inj hy
        exfalso
        rcases hc with rfl | rfl
        · apply hu.1 rfl
        · apply hu.2 rfl
    | cons u' y =>
        obtain ⟨rfl, rfl⟩ := List.cons.inj hy
        exact ⟨y, c, ws, rfl, hc, hws⟩
  · cases y with
    | nil =>
        obtain ⟨rfl, rfl⟩ := List.cons.inj hy
        exfalso
        rcases hc with rfl | rfl
        · apply hu.1 rfl
        · apply hu.2 rfl
    | cons u' y =>
        obtain ⟨rfl, rfl⟩ := List.cons.inj hy
        have := hws u (by simp)
        rw [hspace] at this
        cases this

theorem Opened.after_quote {x t : JsUnits} (h : Opened (x ++ quoteMark :: t)) :
  Opened t
  := h.after isSpace_quoteMark (by decide)

theorem Opened.tail {u : UInt16} {t : JsUnits} (h : Opened (u :: t)) :
  Opened t ∨ Blank t
  := by
  obtain ⟨p, c, ws, heq, hc, hws⟩ := h
  cases p with
  | nil =>
      obtain ⟨rfl, rfl⟩ := List.cons.inj heq
      apply Or.inr hws
  | cons u' p =>
      obtain ⟨rfl, rfl⟩ := List.cons.inj heq
      exact Or.inl ⟨p, c, ws, rfl, hc, hws⟩

theorem Opened.not_blank {t : JsUnits} (h : Opened t) :
  ¬ Blank t
  := by
  obtain ⟨p, c, ws, rfl, hc, hws⟩ := h
  intro hblank
  have hspace := hblank c (by simp)
  rcases hc with rfl | rfl
  · cases hspace
  · cases hspace

theorem Lexed.tail {u : UInt16} {t : JsUnits} (h : Lexed (u :: t)) (hu : u ≠ quoteMark) :
  Lexed t
  := by
  generalize heq : u :: t = l at h
  cases h with
  | nil => cases heq
  | other hquote h =>
      obtain ⟨rfl, rfl⟩ := List.cons.inj heq
      apply h
  | string hb hhead h => apply absurd (List.cons.inj heq).1 hu

theorem Lexed.dropWhile_isSpace {t : JsUnits} (h : Lexed t) :
  Lexed (t.dropWhile isSpace)
  := by
  induction t with
  | nil => apply h
  | cons u t ih =>
      rw [List.dropWhile_cons]
      split
      · next hu =>
          apply ih
          apply h.tail
          rintro rfl
          cases hu
      · apply h

theorem Lexed.string_inv {t : JsUnits} (h : Lexed (quoteMark :: t)) :
  ∃ b t', t = b ++ quoteMark :: t' ∧ Inside b ∧ (∀ u ∈ t'.head?, isWord u = false) ∧ Lexed t'
  := by
  generalize heq : quoteMark :: t = l at h
  cases h with
  | nil => cases heq
  | other hquote h => apply absurd (List.cons.inj heq).1.symm hquote
  | @string b t' hb hhead h =>
      refine ⟨b, t', (List.cons.inj heq).2, hb, hhead, h⟩

/-! ### Matches -/

theorem isWord_of_mem_names {name : String} (hname : name ∈ SECRET_FIELD_NAMES) :
  ∀ u ∈ unitsOfString name, isWord u = true
  := by
  have hall : SECRET_FIELD_NAMES.all fun name => (unitsOfString name).all isWord := by
    decide +kernel
  intro u hu
  apply List.all_eq_true.mp (List.all_eq_true.mp hall name hname) u hu

theorem lower_eq_of_not_word {u n : UInt16} (h : lower u = n) (hn : isWord n = true) :
  isWord u = true
  := by
  subst h
  unfold lower at hn
  split at hn
  · next hu => simp [isWord, isAlphanumeric, hu.1, hu.2]
  · apply hn

theorem lower_quoteMark :
  lower quoteMark = quoteMark
  := by decide

theorem eq_quoteMark_of_lower {u : UInt16} (h : lower u = quoteMark) :
  u = quoteMark
  := by
  unfold lower at h
  split at h
  · next hu =>
      exfalso
      obtain ⟨h1, h2⟩ := hu
      simp only [quoteMark, UInt16.le_iff_toNat_le, ← UInt16.toNat_inj, UInt16.toNat_add] at h h1 h2
      simp at h h1 h2
      omega
  · apply h

/-- A literal of a word with a quote behind it is all of the inside of a string. -/
theorem map_lower_take_iff {N b t : JsUnits} (hN : ∀ n ∈ N, isWord n = true) (hb : Inside b) :
  ((b ++ quoteMark :: t).take (N ++ [quoteMark]).length).map lower = N ++ [quoteMark] ↔
    b.map lower = N
  := by
  induction N generalizing b with
  | nil =>
      cases hb with
      | nil => simp [lower_quoteMark]
      | @plain u b hquote hbackslash hb =>
          simp
          intro h
          apply hquote (eq_quoteMark_of_lower h)
      | @escape u b hline hb =>
          simp
          decide
  | cons n N ih =>
      have hn := hN n (by simp)
      have hN' : ∀ n ∈ N, isWord n = true := fun u hu => hN u (by simp [hu])
      cases hb with
      | nil =>
          simp only [List.nil_append, List.cons_append, List.length_cons, List.take_succ_cons,
            List.map_cons, List.map_nil]
          constructor
          · intro h
            have hlower := (List.cons.inj h).1
            rw [lower_quoteMark] at hlower
            subst hlower
            cases hn
          · intro h
            cases h
      | @plain u b hquote hbackslash hb =>
          simp only [List.cons_append, List.length_cons, List.take_succ_cons, List.map_cons,
            List.cons.injEq]
          rw [← ih hN' hb]
      | @escape u b hline hb =>
          simp only [List.cons_append, List.length_cons, List.take_succ_cons, List.map_cons,
            List.cons.injEq]
          have hne : lower backslash ≠ n := by
            rintro rfl
            cases hn
          constructor
          · intro h
            apply absurd h.1 hne
          · intro h
            apply absurd h.1 hne

/-- The names of the fields whose values are masked, as they stand in a text. -/
def IsSecretName (b : JsUnits) : Prop := ∃ name ∈ SECRET_FIELD_NAMES, b.map lower = unitsOfString name

theorem findSome?_eq_none {α β : Type} {f : α → Option β} {l : List α} (h : ∀ a ∈ l, f a = none) :
  l.findSome? f = none
  := List.findSome?_eq_none_iff.mpr h

theorem secretName_of_not {b t : JsUnits} (hb : Inside b) (hname : ¬ IsSecretName b) :
  secretName quoteMark (b ++ quoteMark :: t) = none
  := by
  apply findSome?_eq_none
  intro name hmem
  rw [literal, if_neg]
  rw [map_lower_take_iff (isWord_of_mem_names hmem) hb]
  intro heq
  apply hname ⟨name, hmem, heq⟩

theorem secretName_of_isSecretName {b t : JsUnits} (hb : Inside b) (hname : IsSecretName b) :
  secretName quoteMark (b ++ quoteMark :: t) = some (b ++ [quoteMark], t)
  := by
  have hvalue : ∀ name ∈ SECRET_FIELD_NAMES,
      literal (unitsOfString name ++ [quoteMark]) (b ++ quoteMark :: t) = none ∨
      literal (unitsOfString name ++ [quoteMark]) (b ++ quoteMark :: t) =
        some (b ++ [quoteMark], t) := by
    intro name hmem
    rw [literal]
    split
    · next h =>
        have hlower := (map_lower_take_iff (isWord_of_mem_names hmem) hb).mp h
        have hlength : (unitsOfString name ++ [quoteMark]).length = (b ++ [quoteMark]).length := by
          rw [← hlower]
          simp
        right
        rw [hlength, show b ++ quoteMark :: t = (b ++ [quoteMark]) ++ t by simp, List.take_left,
          List.drop_left]
    · apply Or.inl rfl
  obtain ⟨name, hmem, hlower⟩ := hname
  have hfound : literal (unitsOfString name ++ [quoteMark]) (b ++ quoteMark :: t) =
      some (b ++ [quoteMark], t) := by
    rcases hvalue name hmem with h | h
    · rw [literal, if_pos ((map_lower_take_iff (isWord_of_mem_names hmem) hb).mpr hlower)] at h
      cases h
    · apply h
  unfold secretName
  cases hall : SECRET_FIELD_NAMES.findSome? fun name =>
      literal (unitsOfString name ++ [quoteMark]) (b ++ quoteMark :: t) with
  | none =>
      have hnone := List.findSome?_eq_none_iff.mp hall name hmem
      rw [hfound] at hnone
      cases hnone
  | some found =>
      obtain ⟨name', hmem', hfound'⟩ := List.exists_of_findSome?_eq_some hall
      rcases hvalue name' hmem' with h | h
      · rw [h] at hfound'
        cases hfound'
      · rw [h] at hfound'
        apply hfound'.symm

/-- No name begins with what is no part of a word. -/
theorem secretName_of_head {behind : UInt16} {t : JsUnits}
    (hhead : ∀ u ∈ t.head?, isWord u = false) :
  secretName behind t = none
  := by
  have hfirst : SECRET_FIELD_NAMES.all fun name => (unitsOfString name).head?.any isWord := by
    decide +kernel
  apply findSome?_eq_none
  intro name hmem
  obtain ⟨n, hn, hword⟩ := (Option.any_eq_true _ _).mp (List.all_eq_true.mp hfirst name hmem)
  obtain ⟨N, hN⟩ := List.head?_eq_some_iff.mp hn
  rw [literal, if_neg]
  intro h
  rw [hN] at h
  cases t with
  | nil => cases h
  | cons u t =>
      have hlower : lower u = n := (List.cons.inj h).1
      have hu := lower_eq_of_not_word hlower hword
      rw [hhead u rfl] at hu
      cases hu

theorem closing_inside {b : JsUnits} (hb : Inside b) (t : JsUnits) :
  closing (b ++ quoteMark :: t) = some t
  := by
  induction hb with
  | nil =>
      rw [List.nil_append, closing.eq_def]
      rfl
  | plain hquote hbackslash _ ih =>
      rw [List.cons_append, closing.eq_def]
      simp only [if_neg hquote, if_neg hbackslash]
      apply ih
  | escape hline _ ih =>
      rw [List.cons_append, List.cons_append, closing.eq_def]
      simp only [if_neg (show backslash ≠ quoteMark by decide), if_pos, hline]
      apply ih

/-! ### Places -/

theorem pattern_cons {u : UInt16} (hu : u ≠ quoteMark) (before : Option UInt16) (t : JsUnits) :
  SECRET_JSON_PATTERN before (u :: t) = none
  := if_neg hu

theorem pattern_of_secretName_none {t : JsUnits} (h : secretName quoteMark t = none)
    (before : Option UInt16) :
  SECRET_JSON_PATTERN before (quoteMark :: t) = none
  := by
  simp only [SECRET_JSON_PATTERN, if_pos, h, Option.bind_none]

theorem pattern_of_isSecretName {b : JsUnits} (hb : Inside b) (hname : IsSecretName b)
    (before : Option UInt16) (t : JsUnits) :
  SECRET_JSON_PATTERN before (quoteMark :: (b ++ quoteMark :: t)) =
    (separator t).bind fun between =>
      maskedString (quoteMark :: (b ++ [quoteMark]) ++ between.1) between.2
  := by
  simp only [SECRET_JSON_PATTERN, if_pos, secretName_of_isSecretName hb hname, Option.bind_some]

theorem maskedString_inside {v : JsUnits} (hv : Inside v) (start t : JsUnits) :
  maskedString start (quoteMark :: (v ++ quoteMark :: t)) =
    some (start ++ quoteMark :: REDACTED ++ [quoteMark], t)
  := by
  simp only [maskedString, if_pos, closing_inside hv, Option.map_some]

theorem takeWhile_append_of_not_blank {t : JsUnits} (h : ¬ Blank t) (F : JsUnits) :
  (t ++ F).takeWhile isSpace = t.takeWhile isSpace ∧
    (t ++ F).dropWhile isSpace = t.dropWhile isSpace ++ F
  := by
  apply takeWhile_append_of_stop
  apply Or.inl
  simpa [Blank] using h

theorem dropWhile_of_not_blank {t : JsUnits} (h : ¬ Blank t) :
  ∃ u t', t.dropWhile isSpace = u :: t' ∧ isSpace u = false ∧
    t = t.takeWhile isSpace ++ u :: t'
  := by
  cases hdrop : t.dropWhile isSpace with
  | nil => exact absurd (List.dropWhile_eq_nil_iff.mp hdrop) h
  | cons u t' =>
      refine ⟨u, t', rfl, ?_, ?_⟩
      · have hhead := List.head?_dropWhile_not isSpace t
        rw [hdrop] at hhead
        simpa using hhead
      · rw [← hdrop, List.takeWhile_append_dropWhile]

/-- A match that begins in front of a field ends in front of it, whatever the field is. -/
theorem pattern_before {b t : JsUnits} (hb : Inside b) (ht : Lexed t) (hopened : Opened t) :
  (∀ before F, SECRET_JSON_PATTERN before (quoteMark :: (b ++ quoteMark :: (t ++ F))) = none) ∨
    ∃ replaced t', t'.length < t.length ∧ Lexed t' ∧ Opened t' ∧ ∀ before F,
      SECRET_JSON_PATTERN before (quoteMark :: (b ++ quoteMark :: (t ++ F))) =
        some (replaced, t' ++ F)
  := by
  by_cases hname : IsSecretName b
  · obtain ⟨u, t₁, hdrop, hu, heq⟩ := dropWhile_of_not_blank hopened.not_blank
    have hsep : ∀ F, (t ++ F).dropWhile isSpace = u :: (t₁ ++ F) := by
      intro F
      rw [(takeWhile_append_of_not_blank hopened.not_blank F).2, hdrop, List.cons_append]
    by_cases hcolon : u = colon
    · subst hcolon
      have hopened₁ : Opened t₁ := by
        rw [heq] at hopened
        apply hopened.after (by decide) (by decide)
      have ht₁ : Lexed t₁ := by
        have hlexed := ht.dropWhile_isSpace
        rw [hdrop] at hlexed
        apply hlexed.tail (by decide)
      obtain ⟨v, t₂, hdrop₁, hv, heq₁⟩ := dropWhile_of_not_blank hopened₁.not_blank
      have hbetween : ∀ F, separator (t ++ F) =
          some (t.takeWhile isSpace ++ colon :: t₁.takeWhile isSpace, v :: (t₂ ++ F)) := by
        intro F
        simp only [separator, hsep, if_pos,
          (takeWhile_append_of_not_blank hopened.not_blank F).1,
          (takeWhile_append_of_not_blank hopened₁.not_blank F).1,
          (takeWhile_append_of_not_blank hopened₁.not_blank F).2, hdrop₁, List.cons_append]
      by_cases hquote : v = quoteMark
      · subst hquote
        have ht₂ : Lexed (quoteMark :: t₂) := by
          have hlexed := ht₁.dropWhile_isSpace
          rw [hdrop₁] at hlexed
          apply hlexed
        obtain ⟨b', t₃, rfl, hb', -, ht₃⟩ := ht₂.string_inv
        right
        use quoteMark :: (b ++ [quoteMark]) ++
          (t.takeWhile isSpace ++ colon :: t₁.takeWhile isSpace) ++
            quoteMark :: REDACTED ++ [quoteMark], t₃
        refine ⟨?_, ht₃, ?_, ?_⟩
        · have hlength := congr_arg List.length heq
          have hlength₁ := congr_arg List.length heq₁
          simp only [List.length_append, List.length_cons] at hlength hlength₁
          omega
        · rw [heq₁, show t₁.takeWhile isSpace ++ quoteMark :: (b' ++ quoteMark :: t₃) =
            (t₁.takeWhile isSpace ++ quoteMark :: b') ++ quoteMark :: t₃ by simp] at hopened₁
          apply hopened₁.after_quote
        · intro before F
          rw [pattern_of_isSecretName hb hname, hbetween, Option.bind_some]
          dsimp only
          rw [List.append_assoc, List.cons_append, List.cons_append, List.append_assoc,
            List.cons_append, maskedString_inside hb']
      · left
        intro before F
        rw [pattern_of_isSecretName hb hname, hbetween, Option.bind_some]
        apply if_neg hquote
    · left
      intro before F
      rw [pattern_of_isSecretName hb hname]
      simp only [separator, hsep, if_neg hcolon, Option.bind_none]
  · left
    intro before F
    apply pattern_of_secretName_none
    apply secretName_of_not hb hname

theorem Opened.ne_nil {t : JsUnits} (h : Opened t) :
  t ≠ []
  := by
  rintro rfl
  apply h.not_blank
  intro u hu
  cases hu

/-- The text in front of a field is scanned, from its tokens and from the places in a string. -/
theorem exists_scans (n : ℕ) :
  (∀ X before, X.length ≤ n → Lexed X → Opened X ∨ Blank X →
    ∃ A after, Scans SECRET_JSON_PATTERN (fun _ => True) before X A after) ∧
  (∀ b t before, (b ++ quoteMark :: t).length ≤ n → Inside b →
    (∀ u ∈ t.head?, isWord u = false) → Lexed t → Opened t →
    ∃ A after, Scans SECRET_JSON_PATTERN (fun _ => True) before (b ++ quoteMark :: t) A after)
  := by
  induction n with
  | zero =>
      constructor
      · intro X before hlength _ _
        rw [List.length_eq_zero_iff.mp (Nat.le_zero.mp hlength)]
        exact ⟨[], before, .nil before⟩
      · intro b t before hlength
        simp at hlength
  | succ n ih =>
      have hreplace : ∀ {b t : JsUnits} (before : Option UInt16),
          (quoteMark :: (b ++ quoteMark :: t)).length ≤ n + 1 → Inside b →
          (∀ u ∈ t.head?, isWord u = false) → Lexed t → Opened t →
          ∃ A after, Scans SECRET_JSON_PATTERN (fun _ => True) before
            (quoteMark :: (b ++ quoteMark :: t)) A after := by
        intro b t before hlength hb hhead ht hopened
        have hle : (b ++ quoteMark :: t).length ≤ n := by simpa using hlength
        rcases pattern_before hb ht hopened with hnone | ⟨replaced, t', hshorter, ht', hopened', hsome⟩
        · obtain ⟨A, after, hscans⟩ := ih.2 b t (some quoteMark) hle hb hhead ht hopened
          use quoteMark :: A, after
          apply Scans.skip _ hscans
          intro F _
          rw [List.append_assoc, List.cons_append]
          apply hnone before F
        · have hle' : t'.length ≤ n := by
            simp only [List.length_append, List.length_cons] at hle
            omega
          obtain ⟨A, after, hscans⟩ := ih.1 t'
            (lastUnit before (quoteMark :: (b ++ quoteMark :: t)) t') hle' ht' (Or.inl hopened')
          use replaced ++ A, after
          apply Scans.replace _ _ hscans
          · simp only [List.length_append, List.length_cons]
            omega
          · intro F _
            rw [List.cons_append, List.append_assoc, List.cons_append]
            apply hsome before F
      constructor
      · intro X before hlength hX hopened
        cases hX with
        | nil => exact ⟨[], before, .nil before⟩
        | @other u t hquote ht =>
            have htail : Opened t ∨ Blank t := by
              rcases hopened with hopened | hblank
              · apply hopened.tail
              · apply Or.inr
                intro v hv
                apply hblank v (List.mem_cons_of_mem u hv)
            obtain ⟨A, after, hscans⟩ := ih.1 t (some u) (by simpa using hlength) ht htail
            use u :: A, after
            apply Scans.skip _ hscans
            intro F _
            apply pattern_cons hquote
        | @string b t hb hhead ht =>
            have hopened' : Opened t := by
              rcases hopened with hopened | hblank
              · apply Opened.after_quote (x := quoteMark :: b) hopened
              · have hspace := hblank quoteMark (by simp)
                rw [isSpace_quoteMark] at hspace
                cases hspace
            apply hreplace before hlength hb hhead ht hopened'
      · intro b t before hlength hb hhead ht hopened
        cases hb with
        | nil =>
            obtain ⟨A, after, hscans⟩ := ih.1 t (some quoteMark) (by simpa using hlength) ht
              (Or.inl hopened)
            use quoteMark :: A, after
            apply Scans.skip _ hscans
            intro F _
            apply pattern_of_secretName_none
            apply secretName_of_head
            rw [List.head?_append_of_ne_nil _ hopened.ne_nil]
            apply hhead
        | @plain u b hquote hbackslash hb =>
            obtain ⟨A, after, hscans⟩ := ih.2 b t (some u) (by simpa using hlength) hb hhead ht
              hopened
            use u :: A, after
            apply Scans.skip _ hscans
            intro F _
            apply pattern_cons hquote
        | @escape u b hline hb =>
            have hescape : ∃ A after, Scans SECRET_JSON_PATTERN (fun _ => True) (some backslash)
                (u :: (b ++ quoteMark :: t)) A after := by
              by_cases hquote : u = quoteMark
              · subst hquote
                apply hreplace (some backslash) _ hb hhead ht hopened
                simp only [List.length_append, List.length_cons] at hlength ⊢
                omega
              · have hle : (b ++ quoteMark :: t).length ≤ n := by
                  simp only [List.length_append, List.length_cons] at hlength ⊢
                  omega
                obtain ⟨A, after, hscans⟩ := ih.2 b t (some u) hle hb hhead ht hopened
                use u :: A, after
                apply Scans.skip _ hscans
                intro F _
                apply pattern_cons hquote
            obtain ⟨A, after, hscans⟩ := hescape
            use backslash :: A, after
            apply Scans.skip _ hscans
            intro F _
            apply pattern_cons (by decide)

/-- No match that begins in front of a field ends in it. -/
theorem Lexed.exists_scans {X : JsUnits} (hX : Lexed X) (hopened : Opened X)
    (before : Option UInt16) :
  ∃ A after, Scans SECRET_JSON_PATTERN (fun _ => True) before X A after
  := (Preview.exists_scans X.length).1 X before le_rfl hX (Or.inl hopened)

end Preview
