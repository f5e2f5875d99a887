import OpencodeToolbelt.AuthCore.Stopping
import OpencodeToolbelt.Data.Rereading

/-!
# Secrets in previews

When the preview of a text of JSON does not depend on the value of a secret field: it ends in front
of the value, or holds all of it behind a name without escapes.
-/

namespace Preview

open Replacing
open Json (Spaces StringText Place)

/-! ### Reading -/

theorem collect_eq (maxChars : ℕ) (decoder : TextDecoder) {collected : JsUnits}
    (chunks : List (List UInt8)) (hlength : collected.length ≤ maxChars) :
  collect maxChars decoder collected chunks =
    (collected ++ unitsOfText (decoder.decode chunks.flatten).2).take maxChars
  := by
  induction chunks generalizing decoder collected with
  | nil =>
      rw [List.flatten_nil, TextDecoder.decode_nil]
      simp [collect, unitsOfText, List.take_of_length_le hlength]
  | cons value chunks ih =>
      rw [collect, List.flatten_cons, TextDecoder.decode_append, unitsOfText_append]
      dsimp only
      split
      · next hle =>
          rw [List.take_append_of_le_length hle, List.take_of_length_le hlength]
      · rw [← List.append_assoc]
        split
        · next hle => rw [List.take_append_of_le_length hle]
        · next hlt => apply ih _ (by omega)

/-- A preview is the beginning of the text, however its body is cut into chunks. -/
theorem preview_eq {text : List Char} {chunks : List (List UInt8)}
    (hchunks : chunks.flatten = utf8Encode text) (hmark : text.head? ≠ some byteOrderMark)
    (maxChars : ℕ) :
  readResponseBodyPreview chunks maxChars = (unitsOfText text).take maxChars
  := by
  rw [readResponseBodyPreview, collect_eq _ _ _ (Nat.zero_le _), hchunks,
    (TextDecoder.decode_utf8Encode text).2, if_neg hmark, List.nil_append]

/-! ### Secret fields -/

/-- A member of an object in a text, without its value: a string under a secret name. -/
structure SecretField where
  front : List Char
  key : List Char
  ws : List Char
  ws' : List Char
  back : List Char
  place : Place .member front back
  stringText_key : StringText key
  spaces : Spaces ws
  spaces' : Spaces ws'
  named : ∃ name ∈ SECRET_FIELD_NAMES,
    Json.parseString (key ++ ['"']) = some (unitsOfString name, [])

namespace SecretField

variable (field : SecretField)

/-- The text up to the value. -/
def start : List Char :=
  field.front ++ '"' :: (field.key ++ '"' :: (field.ws ++ ':' :: (field.ws' ++ ['"'])))

/-- The text with a value. -/
def text (value : List Char) : List Char := field.start ++ (value ++ '"' :: field.back)

/-- The name is spelled without escapes. -/
def Plain : Prop := '\\' ∉ field.key

/-- The preview of a text does not depend on the value, as long as it has a certain length. -/
def Hidden (length maxChars : ℕ) : Prop :=
  ∀ value value' chunks chunks', StringText value → StringText value' →
    (unitsOfText value).length = length → (unitsOfText value').length = length →
      chunks.flatten = utf8Encode (field.text value) →
        chunks'.flatten = utf8Encode (field.text value') →
          scrubSecrets (readResponseBodyPreview chunks maxChars) =
            scrubSecrets (readResponseBodyPreview chunks' maxChars)

theorem isText {value : List Char} (hvalue : StringText value) :
  Json.IsText (field.text value)
  := by
  have hmember := Json.Text.member field.stringText_key field.spaces field.spaces' (.string hvalue)
  simpa [text, start] using field.place.isText hmember

theorem text_head (value : List Char) :
  (field.text value).head? ≠ some byteOrderMark
  := by
  have hfront := Preview.ne_byteOrderMark field.place
  unfold text start
  cases hcases : field.front with
  | nil =>
      rw [List.nil_append, List.cons_append, List.head?_cons]
      decide
  | cons c front =>
      rw [hcases] at hfront
      simpa using hfront

/-- The text up to the value, in units. -/
theorem unitsOfText_start :
  unitsOfText field.start =
    unitsOfText field.front ++ quoteMark :: (unitsOfText field.key ++ quoteMark ::
      ((unitsOfText field.ws ++ colon :: unitsOfText field.ws') ++ [quoteMark]))
  := by
  have hcolon : unitsOf ':' = [colon] := by decide
  have hnil : unitsOfText [] = [] := rfl
  simp [start, unitsOfText_append, unitsOfText_cons, unitsOf_quote, hcolon, hnil]

theorem unitsOfText_text (value : List Char) :
  unitsOfText (field.text value) =
    unitsOfText field.start ++ (unitsOfText value ++ quoteMark :: unitsOfText field.back)
  := by
  simp [text, unitsOfText_append, unitsOfText_cons, unitsOf_quote]

end SecretField

/-! ### Names -/

theorem parseString_cons {c : Char} {t rest : List Char} {s : JsUnits} (hquote : c ≠ '"')
    (hbackslash : c ≠ '\\') (h : Json.parseString (c :: t) = some (s, rest)) :
  ∃ s', Json.parseString t = some (s', rest) ∧ s = unitsOf c ++ s'
  := by
  unfold Json.parseString at h
  split at h
  · next heq => apply absurd (List.cons.inj heq).1 hquote
  · next heq => apply absurd (List.cons.inj heq).1 hbackslash
  · next heq => apply absurd (List.cons.inj heq).1 hbackslash
  · next heq =>
      obtain ⟨rfl, rfl⟩ := List.cons.inj heq
      simp only [Option.bind_eq_bind, Option.bind_eq_some_iff, Option.pure_def, Option.some.injEq,
        Prod.mk.injEq, Prod.exists] at h
      obtain ⟨_, _, s', _, htail, rfl, rfl⟩ := h
      exact ⟨s', htail, rfl⟩
  · next heq => cases heq

/-- A string without escapes is what it spells. -/
theorem parseString_of_plain {key : List Char} (hkey : StringText key) (hplain : '\\' ∉ key)
    {s : JsUnits} (h : Json.parseString (key ++ ['"']) = some (s, [])) :
  unitsOfText key = s
  := by
  induction hkey generalizing s with
  | nil =>
      cases h
      rfl
  | @plain c t hcontrol hquote hbackslash _ ih =>
      obtain ⟨s', htail, rfl⟩ := parseString_cons hquote hbackslash h
      rw [unitsOfText_cons, ih (fun hmem => hplain (List.mem_cons_of_mem c hmem)) htail]
  | escape _ _ _ => simp at hplain
  | unicode _ _ _ => simp at hplain

/-- What an escape spells. -/
theorem unescape_of_mem {c : Char} (h : c ∈ ['"', '\\', '/', 'b', 'f', 'n', 'r', 't']) :
  ∃ u, Json.unescape c = some u ∧ c ≠ 'u' ∧ (c = '"' → u = quoteMark)
  := by
  simp only [List.mem_cons, List.not_mem_nil, or_false] at h
  rcases h with rfl | rfl | rfl | rfl | rfl | rfl | rfl | rfl
  · exact ⟨quoteMark, by decide, by decide, fun _ => rfl⟩
  all_goals exact ⟨_, rfl, by decide, fun heq => absurd heq (by decide)⟩

/-- A string whose text has no quote is spelled without one. -/
theorem quote_not_mem_of_parseString {key : List Char} (hkey : StringText key) {s : JsUnits}
    (h : Json.parseString (key ++ ['"']) = some (s, [])) (hs : quoteMark ∉ s) :
  '"' ∉ key
  := by
  induction hkey generalizing s with
  | nil => simp
  | @plain c t hcontrol hquote hbackslash _ ih =>
      obtain ⟨s', htail, rfl⟩ := parseString_cons hquote hbackslash h
      have hmem := ih htail (fun hmem => hs (List.mem_append_right _ hmem))
      simp only [List.mem_cons, not_or]
      exact ⟨hquote.symm, hmem⟩
  | @escape c t hescape _ ih =>
      obtain ⟨u, hunescape, hne, hquote⟩ := unescape_of_mem hescape
      rw [List.cons_append, List.cons_append, Json.parseString_unescape hne hunescape] at h
      obtain ⟨⟨s', rest⟩, htail, heq⟩ := Option.map_eq_some_iff.mp h
      cases heq
      have hmem := ih htail (fun hmem => hs (List.mem_cons_of_mem _ hmem))
      simp only [List.mem_cons, not_or]
      refine ⟨by decide, ?_, hmem⟩
      rintro rfl
      apply hs
      rw [hquote rfl]
      apply List.mem_cons_self
  | @unicode a b c d t hhex _ ih =>
      have hnot : ∀ x ∈ [a, b, c, d], '"' ≠ x := by
        rintro x hx rfl
        cases hhex _ hx
      simp only [List.forall_mem_cons, Option.isSome_iff_exists] at hhex hnot
      obtain ⟨⟨a', ha⟩, ⟨b', hb⟩, ⟨c', hc⟩, ⟨d', hd⟩, -⟩ := hhex
      obtain ⟨hna, hnb, hnc, hnd, -⟩ := hnot
      simp only [List.cons_append, Json.parseString, ha, hb, hc, hd, Option.bind_eq_bind,
        Option.bind_some, Option.pure_def, Option.bind_eq_some_iff, Option.some.injEq,
        Prod.mk.injEq, Prod.exists] at h
      obtain ⟨s', rest, htail, rfl, rfl⟩ := h
      have hmem := ih htail (fun hmem => hs (List.mem_cons_of_mem _ hmem))
      simp only [List.mem_cons, not_or]
      exact ⟨by decide, by decide, hna, hnb, hnc, hnd, hmem⟩

namespace SecretField

variable (field : SecretField)

theorem isSecretName (hplain : field.Plain) :
  IsSecretName (unitsOfText field.key)
  := by
  obtain ⟨name, hmem, hparse⟩ := field.named
  use name, hmem
  rw [parseString_of_plain field.stringText_key hplain hparse]
  have hall : ∀ name ∈ SECRET_FIELD_NAMES, (unitsOfString name).map lower = unitsOfString name := by
    decide +kernel
  apply hall name hmem

theorem quote_not_mem_key :
  '"' ∉ field.key
  := by
  obtain ⟨name, hmem, hparse⟩ := field.named
  apply quote_not_mem_of_parseString field.stringText_key hparse
  intro hquote
  cases isWord_of_mem_names hmem _ hquote

theorem not_isSecretName (hplain : ¬ field.Plain) :
  ¬ IsSecretName (unitsOfText field.key)
  := by
  rintro ⟨name, hmem, heq⟩
  rw [Plain, not_not] at hplain
  have hbackslash : backslash ∈ unitsOfText field.key := by
    apply List.mem_flatMap.mpr ⟨'\\', hplain, _⟩
    rw [unitsOf_backslash]
    apply List.mem_cons_self
  have hlower : lower backslash ∈ unitsOfString name := by
    rw [← heq]
    apply List.mem_map_of_mem hbackslash
  cases isWord_of_mem_names hmem _ hlower

theorem exists_scans_front :
  ∃ A after, Scans SECRET_JSON_PATTERN (fun _ => True) none (unitsOfText field.front) A after
  := by
  have hlexed := lexed_front field.place Lexed.nil
  rw [List.append_nil] at hlexed
  apply hlexed.exists_scans (opened_front field.place)

/-! ### A value that is masked -/

theorem separator_of_blank {sp sp' : JsUnits} (hsp : Blank sp) (hsp' : Blank sp') (t : JsUnits) :
  separator ((sp ++ colon :: sp') ++ quoteMark :: t) = some (sp ++ colon :: sp', quoteMark :: t)
  := by
  have hcolon : ∀ u ∈ (colon :: (sp' ++ quoteMark :: t)).head?, isSpace u = false := by
    rintro u hu
    cases hu
    decide
  have hquote : ∀ u ∈ (quoteMark :: t).head?, isSpace u = false := by
    rintro u hu
    cases hu
    decide
  have hfront := takeWhile_append_of_stop (p := isSpace) (X := sp) (Or.inr ⟨colon, rfl, rfl⟩ :
    (∃ u ∈ sp, isSpace u = false) ∨ ∃ u ∈ (colon :: (sp' ++ quoteMark :: t)).head?, isSpace u = false)
  have hback := takeWhile_append_of_stop (p := isSpace) (X := sp') (Or.inr ⟨quoteMark, rfl, rfl⟩ :
    (∃ u ∈ sp', isSpace u = false) ∨ ∃ u ∈ (quoteMark :: t).head?, isSpace u = false)
  rw [List.append_assoc, List.cons_append, separator, hfront.1, hfront.2,
    List.takeWhile_eq_self_iff.mpr hsp, List.dropWhile_eq_nil_iff.mpr hsp, List.nil_append]
  dsimp only
  rw [if_pos rfl, hback.1, hback.2, List.takeWhile_eq_self_iff.mpr hsp',
    List.dropWhile_eq_nil_iff.mpr hsp', List.nil_append]

/-- The field with a value, up to the quote behind it. -/
def units (v t : JsUnits) : JsUnits :=
  quoteMark :: (unitsOfText field.key ++ quoteMark ::
    ((unitsOfText field.ws ++ colon :: unitsOfText field.ws') ++ quoteMark :: (v ++ t)))

theorem start_append (v t : JsUnits) :
  unitsOfText field.start ++ (v ++ t) = unitsOfText field.front ++ field.units v t
  := by
  rw [unitsOfText_start, units]
  simp

theorem length_units (v t : JsUnits) :
  (field.units v t).length = (field.units [] t).length + v.length
  := by
  simp only [units, List.length_append, List.length_cons, List.length_nil]
  omega

theorem replaceAll_masked (hplain : field.Plain) {v v' : JsUnits} (hv : Inside v)
    (hv' : Inside v') (hlength : v.length = v'.length) (t : JsUnits) :
  replaceAll SECRET_JSON_PATTERN (unitsOfText field.start ++ (v ++ quoteMark :: t)) =
    replaceAll SECRET_JSON_PATTERN (unitsOfText field.start ++ (v' ++ quoteMark :: t))
  := by
  obtain ⟨A, after, hscans⟩ := field.exists_scans_front
  obtain ⟨k, hk, heq⟩ := hscans.replaceAll_eq
  let replaced := quoteMark :: (unitsOfText field.key ++ [quoteMark]) ++
    (unitsOfText field.ws ++ colon :: unitsOfText field.ws') ++ quoteMark :: REDACTED ++ [quoteMark]
  have hfound : ∀ w, Inside w → SECRET_JSON_PATTERN after (field.units w (quoteMark :: t)) =
      some (replaced, t) := by
    intro w hw
    rw [units, pattern_of_isSecretName (inside_of_stringText field.stringText_key)
      (field.isSecretName hplain), separator_of_blank (blank_of_spaces field.spaces)
      (blank_of_spaces field.spaces'), Option.bind_some, maskedString_inside hw]
  have hwhole : ∀ w, Inside w → w.length = v.length →
      replaceAll SECRET_JSON_PATTERN (unitsOfText field.start ++ (w ++ quoteMark :: t)) =
        A ++ (replaced ++ replaceFrom SECRET_JSON_PATTERN ((unitsOfText field.front).length +
          ((field.units [] (quoteMark :: t)).length + v.length) - k - 1) (some quoteMark) t) := by
    intro w hw hwlength
    have hlast : lastUnit after (field.units w (quoteMark :: t)) t = some quoteMark := by
      have happend : field.units w (quoteMark :: t) = field.units w [] ++ quoteMark :: t := by
        simp [units]
      rw [happend, lastUnit_append_cons]
    have hpos : 0 < (field.units [] (quoteMark :: t)).length := by
      rw [units]
      simp
    rw [start_append, heq _ trivial, length_units, hwlength,
      replaceFrom_some_of_pos (hfound w hw) (by omega), hlast]
  rw [hwhole v hv rfl, hwhole v' hv' hlength.symm]

/-! ### A value that shows -/

theorem inert_of_ne {u : UInt16} (hu : u ≠ quoteMark) :
  Inert SECRET_JSON_PATTERN u
  := fun before t => pattern_cons hu before t

theorem replaceAll_unmasked (hplain : ¬ field.Plain) {n : ℕ} (hn : 0 < n) {t : JsUnits}
    (ht : Ended t) :
  ∃ A t', ∀ u, Stop u →
    replaceAll SECRET_JSON_PATTERN
        (unitsOfText field.start ++ (List.replicate n u ++ quoteMark :: t)) =
      A ++ (List.replicate n u ++ quoteMark :: t')
  := by
  obtain ⟨A, after, hscans⟩ := field.exists_scans_front
  obtain ⟨k, hk, heq⟩ := hscans.replaceAll_eq
  let Z := unitsOfText field.ws ++ colon :: unitsOfText field.ws'
  let steps := (unitsOfText field.front).length + ((field.units [] (quoteMark :: t)).length + n) - k
  have hunits : (field.units [] (quoteMark :: t)).length =
      (unitsOfText field.key).length + Z.length + t.length + 4 := by
    simp only [units, Z, List.length_append, List.length_cons, List.length_nil]
    omega
  have hkey : ∀ u ∈ unitsOfText field.key, Inert SECRET_JSON_PATTERN u := by
    intro u hu
    apply inert_of_ne
    rintro rfl
    apply quoteMark_not_mem field.quote_not_mem_key hu
  have hblank : ∀ ws, Spaces ws → ∀ u ∈ unitsOfText ws, u ≠ quoteMark := by
    rintro ws hws u hu rfl
    apply quoteMark_not_mem (quote_not_mem_of_spaces hws) hu
  have hZ : ∀ u ∈ Z, Inert SECRET_JSON_PATTERN u := by
    intro u hu
    apply inert_of_ne
    rcases List.mem_append.mp hu with hu | hu
    · apply hblank _ field.spaces u hu
    · rcases List.mem_cons.mp hu with rfl | hu
      · decide
      · apply hblank _ field.spaces' u hu
  have hZended : ∀ r, Ended (Z ++ r) := by
    intro r
    rw [List.append_assoc]
    apply Ended.spaces field.spaces
    apply Ended.cons (by decide)
  refine ⟨A ++ quoteMark :: (unitsOfText field.key ++ quoteMark :: (Z ++ [quoteMark])),
    replaceFrom SECRET_JSON_PATTERN
      (steps - 1 - (unitsOfText field.key).length - 1 - Z.length - 1 - n - 1) (some quoteMark) t, ?_⟩
  intro u hu
  have hrun : ∀ v ∈ List.replicate n u, Inert SECRET_JSON_PATTERN v := by
    intro v hv
    rw [List.eq_of_mem_replicate hv]
    apply inert_of_ne hu.not_isWord.2.2.2.2.2.1
  have hended : Ended (List.replicate n u ++ quoteMark :: t) := by
    obtain ⟨m, rfl⟩ := Nat.exists_eq_succ_of_ne_zero hn.ne'
    apply Ended.cons hu.not_isWord.1
  have hsteps : (unitsOfText field.front).length +
      (field.units (List.replicate n u) (quoteMark :: t)).length - k = steps := by
    rw [length_units, List.length_replicate]
  rw [start_append, heq _ trivial, hsteps, units,
    replaceFrom_none_of_pos (pattern_of_secretName_none (secretName_of_not
      (inside_of_stringText field.stringText_key) (field.not_isSecretName hplain)) _) (by omega),
    replaceFrom_inert_of_le hkey (by omega),
    replaceFrom_none_of_pos (pattern_of_secretName_none (secretName_of_head (hZended _)) _)
      (by omega),
    replaceFrom_inert_of_le hZ (by omega),
    replaceFrom_none_of_pos (pattern_of_secretName_none (secretName_of_head hended) _) (by omega),
    replaceFrom_inert_of_le hrun (by rw [List.length_replicate]; omega),
    replaceFrom_none_of_pos (pattern_of_secretName_none (secretName_of_head ht) _)
      (by rw [List.length_replicate]; omega), List.length_replicate]
  simp

end SecretField

/-- What stands between such units and a quote shows after the other patterns. -/
theorem replaceAll_between {p : Pattern UInt16} (hconsumes : Consumes p Stop)
    (hlocal : Local p Stopped) (hinert : ∀ u, isWord u = false → Inert p u) (X t : JsUnits) {n : ℕ}
    (hn : 0 < n) :
  ∃ A t', ∀ u, Stop u →
    replaceAll p (X ++ (List.replicate n u ++ quoteMark :: t)) =
      A ++ (List.replicate n u ++ quoteMark :: t')
  := by
  obtain ⟨A, after, hscans⟩ := hconsumes.exists_scans hlocal X.length X le_rfl none
  obtain ⟨k, hk, heq⟩ := hscans.replaceAll_eq
  refine ⟨A, replaceFrom p (X.length + (n + (t.length + 1)) - k - n - 1) (some quoteMark) t, ?_⟩
  intro u hu
  have hstopped : Stopped (List.replicate n u ++ quoteMark :: t) := by
    refine ⟨u, n - 1, quoteMark :: t, hu, ?_, ?_⟩
    · rw [Nat.sub_add_cancel hn]
    · intro v hv
      cases hv
      rfl
  have hrun : ∀ v ∈ List.replicate n u, Inert p v := by
    intro v hv
    rw [List.eq_of_mem_replicate hv]
    apply hinert u hu.not_isWord.1
  rw [heq _ hstopped, List.length_append, List.length_replicate, List.length_cons,
    replaceFrom_inert_of_le hrun (by rw [List.length_replicate]; omega),
    replaceFrom_none_of_pos (hinert quoteMark (by decide) _ _)
      (by rw [List.length_replicate]; omega), List.length_replicate]

theorem scrubSecrets_of_ne_nil {text : JsUnits} (h : text ≠ []) :
  scrubSecrets text = replaceAll JWT_PATTERN (replaceAll BEARER_PATTERN
    (replaceAll SECRET_FORM_PATTERN (replaceAll SECRET_JSON_PATTERN text)))
  := if_neg h

/-- A text that ends with such a unit does so without its secrets. -/
theorem getLast?_scrubSecrets {text : JsUnits} {u : UInt16} (hu : Stop u)
    (h : text.getLast? = some u) :
  (scrubSecrets text).getLast? = some u
  := by
  have hne : text ≠ [] := by
    rintro rfl
    cases h
  rw [scrubSecrets_of_ne_nil hne]
  apply consumes_jwt.getLast?_replaceFrom hu
  apply consumes_bearer.getLast?_replaceFrom hu
  apply consumes_form.getLast?_replaceFrom hu
  apply consumes_json.getLast?_replaceFrom hu _ _ h

namespace SecretField

variable (field : SecretField)

theorem scrubSecrets_unmasked (hplain : ¬ field.Plain) {n : ℕ} (hn : 0 < n) {t : JsUnits}
    (ht : Ended t) :
  ∃ A t', ∀ u, Stop u →
    scrubSecrets (unitsOfText field.start ++ (List.replicate n u ++ quoteMark :: t)) =
      A ++ (List.replicate n u ++ quoteMark :: t')
  := by
  obtain ⟨A₁, t₁, hjson⟩ := field.replaceAll_unmasked hplain hn ht
  obtain ⟨A₂, t₂, hform⟩ := replaceAll_between consumes_form local_form
    (fun u hu => (inert_of_not_isWord hu).1) A₁ t₁ hn
  obtain ⟨A₃, t₃, hbearer⟩ := replaceAll_between consumes_bearer local_bearer
    (fun u hu => (inert_of_not_isWord hu).2.1) A₂ t₂ hn
  obtain ⟨A₄, t₄, hjwt⟩ := replaceAll_between consumes_jwt local_jwt
    (fun u hu => (inert_of_not_isWord hu).2.2) A₃ t₃ hn
  use A₄, t₄
  intro u hu
  rw [scrubSecrets_of_ne_nil, hjson u hu, hform u hu, hbearer u hu, hjwt u hu]
  rw [field.unitsOfText_start]
  simp

/-! ### Previews -/

theorem preview_text {value : List Char} {chunks : List (List UInt8)}
    (hchunks : chunks.flatten = utf8Encode (field.text value)) (maxChars : ℕ) :
  readResponseBodyPreview chunks maxChars =
    (unitsOfText field.start ++ (unitsOfText value ++ quoteMark :: unitsOfText field.back)).take
      maxChars
  := by
  rw [preview_eq hchunks (field.text_head value), unitsOfText_text]

/-- A preview that ends in front of the value. -/
theorem take_front {S : JsUnits} {maxChars : ℕ} (h : maxChars ≤ S.length) (V : JsUnits) :
  (S ++ V).take maxChars = S.take maxChars
  := List.take_append_of_le_length h

/-- A preview that ends behind the value. -/
theorem take_back {S V B : JsUnits} {maxChars : ℕ} (h : S.length + V.length < maxChars) :
  (S ++ (V ++ quoteMark :: B)).take maxChars =
    S ++ (V ++ quoteMark :: B.take (maxChars - S.length - V.length - 1))
  := by
  obtain ⟨m, hm⟩ : ∃ m, maxChars = S.length + (V.length + (m + 1)) :=
    ⟨maxChars - S.length - V.length - 1, by omega⟩
  rw [hm, List.take_length_add_append, List.take_length_add_append, List.take_succ_cons]
  congr 4
  omega

/-- A preview that ends in the value. -/
theorem take_inside {S V B : JsUnits} {maxChars : ℕ} (h : S.length ≤ maxChars)
    (h' : maxChars ≤ S.length + V.length) :
  (S ++ (V ++ B)).take maxChars = S ++ V.take (maxChars - S.length)
  := by
  obtain ⟨m, rfl⟩ := Nat.exists_eq_add_of_le h
  rw [List.take_length_add_append, List.take_append_of_le_length (by omega),
    Nat.add_sub_cancel_left]

theorem ended_take {t : JsUnits} (h : Ended t) (m : ℕ) :
  Ended (t.take m)
  := by
  intro u hu
  cases m with
  | zero => cases hu
  | succ m =>
      cases t with
      | nil => cases hu
      | cons v t => apply h u hu

theorem stringText_replicate {c : Char} (hcontrol : 0x20 ≤ c.toNat) (hquote : c ≠ '"')
    (hbackslash : c ≠ '\\') (n : ℕ) :
  StringText (List.replicate n c)
  := by
  induction n with
  | zero => apply StringText.nil
  | succ n ih => apply StringText.plain hcontrol hquote hbackslash ih

theorem unitsOfText_replicate {c : Char} {u : UInt16} (h : unitsOf c = [u]) (n : ℕ) :
  unitsOfText (List.replicate n c) = List.replicate n u
  := by
  induction n with
  | zero => rfl
  | succ n ih =>
      rw [List.replicate_succ, unitsOfText_cons, h, ih]
      rfl

/-- Two values that show. -/
theorem shows_of_ne {length maxChars : ℕ}
    (h : scrubSecrets ((unitsOfText field.start ++
          (List.replicate length 0x26 ++ quoteMark :: unitsOfText field.back)).take maxChars) ≠
        scrubSecrets ((unitsOfText field.start ++
          (List.replicate length 0x20 ++ quoteMark :: unitsOfText field.back)).take maxChars)) :
  ¬ field.Hidden length maxChars
  := by
  intro hhidden
  have hand := unitsOfText_replicate (c := '&') (u := 0x26) (by decide) length
  have hspace := unitsOfText_replicate (c := ' ') (u := 0x20) (by decide) length
  have hsame := hhidden (List.replicate length '&') (List.replicate length ' ')
    [utf8Encode (field.text (List.replicate length '&'))]
    [utf8Encode (field.text (List.replicate length ' '))]
    (stringText_replicate (by decide) (by decide) (by decide) length)
    (stringText_replicate (by decide) (by decide) (by decide) length)
    (by rw [hand, List.length_replicate]) (by rw [hspace, List.length_replicate])
    List.flatten_singleton List.flatten_singleton
  rw [field.preview_text List.flatten_singleton, field.preview_text List.flatten_singleton,
    hand, hspace] at hsame
  apply h hsame

/-- The preview does not depend on the value exactly if the value is empty, if the preview ends in
front of it, or if it holds all of it behind a name without escapes. -/
theorem hidden_iff (length maxChars : ℕ) :
  field.Hidden length maxChars ↔
    length = 0 ∨ maxChars ≤ (unitsOfText field.start).length ∨
      field.Plain ∧ (unitsOfText field.start).length + length < maxChars
  := by
  constructor
  · contrapose!
    rintro ⟨hlength, hstart, hback⟩
    have hpos : 0 < length := Nat.pos_of_ne_zero hlength
    apply field.shows_of_ne
    by_cases hall : (unitsOfText field.start).length + length < maxChars
    · have hplain : ¬ field.Plain := fun hplain => (hback hplain).not_gt hall
      obtain ⟨A, t, hscrub⟩ := field.scrubSecrets_unmasked hplain hpos
        (ended_take (ended_back field.place)
          (maxChars - (unitsOfText field.start).length - length - 1))
      have htake : ∀ u : UInt16, (unitsOfText field.start ++
          (List.replicate length u ++ quoteMark :: unitsOfText field.back)).take maxChars =
            unitsOfText field.start ++ (List.replicate length u ++ quoteMark ::
              (unitsOfText field.back).take
                (maxChars - (unitsOfText field.start).length - length - 1)) := by
        intro u
        rw [take_back (by rw [List.length_replicate]; omega), List.length_replicate]
      rw [htake, htake, hscrub _ (Or.inl rfl), hscrub _ (Or.inr rfl)]
      intro heq
      obtain ⟨m, rfl⟩ := Nat.exists_eq_succ_of_ne_zero hlength
      cases (List.cons.inj (List.append_cancel_left heq)).1
    · have hlast : ∀ u, Stop u → (scrubSecrets ((unitsOfText field.start ++
          (List.replicate length u ++ quoteMark :: unitsOfText field.back)).take maxChars)).getLast? =
            some u := by
        intro u hu
        apply getLast?_scrubSecrets hu
        rw [take_inside (by omega) (by rw [List.length_replicate]; omega), List.take_replicate,
          List.getLast?_append, List.getLast?_replicate, if_neg (by omega)]
        rfl
      intro heq
      have hand := hlast 0x26 (Or.inl rfl)
      rw [heq, hlast 0x20 (Or.inr rfl)] at hand
      cases hand
  · intro h value value' chunks chunks' hvalue hvalue' hlength hlength' hchunks hchunks'
    rw [field.preview_text hchunks, field.preview_text hchunks']
    rcases h with rfl | hstart | ⟨hplain, hall⟩
    · rw [List.length_eq_zero_iff.mp hlength, List.length_eq_zero_iff.mp hlength']
    · rw [take_front hstart, take_front hstart]
    · rw [take_back (by omega), take_back (by omega), hlength, hlength', scrubSecrets_of_ne_nil,
        scrubSecrets_of_ne_nil, field.replaceAll_masked hplain (inside_of_stringText hvalue)
          (inside_of_stringText hvalue') (by omega)]
      · rw [field.unitsOfText_start]
        simp
      · rw [field.unitsOfText_start]
        simp

end SecretField

/-- `{"password":"…"}` -/
def samplePassword : SecretField where
  front := ['{']
  key := "password".toList
  ws := []
  ws' := []
  back := ['}']
  place := by
    have hspaces : Spaces [] := fun _ hmem => by cases hmem
    simpa using Place.member (.whole hspaces hspaces) (Or.inl rfl) hspaces hspaces (Or.inl rfl)
  stringText_key := by
    repeat apply StringText.plain (by decide) (by decide) (by decide)
    apply StringText.nil
  spaces := fun _ hmem => by cases hmem
  spaces' := fun _ hmem => by cases hmem
  named := ⟨"password", by decide, by decide +kernel⟩

/-- The preview ends in the value. -/
theorem password_shows :
  ¬ ∀ (field : SecretField) (length maxChars : ℕ), field.Hidden length maxChars
  := by
  intro h
  have hsame := h samplePassword 2 14 "ab".toList "xy".toList
    [utf8Encode (samplePassword.text "ab".toList)] [utf8Encode (samplePassword.text "xy".toList)]
    (by repeat apply StringText.plain (by decide) (by decide) (by decide)
        apply StringText.nil)
    (by repeat apply StringText.plain (by decide) (by decide) (by decide)
        apply StringText.nil)
    (by decide +kernel) (by decide +kernel) List.flatten_singleton List.flatten_singleton
  revert hsame
  decide +kernel

end Preview
