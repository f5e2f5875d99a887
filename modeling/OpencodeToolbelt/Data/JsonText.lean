import Mathlib.Data.List.TakeWhile
import OpencodeToolbelt.Data.Json
import Mathlib.Data.Option.Basic

/-!
# Texts of JSON

The grammar of JSON, and the places in a text where a value or a member of an object may stand:
what is in front of it and what is behind it.
-/

namespace Json

/-- White space. -/
def Spaces (t : List Char) : Prop := ∀ c ∈ t, isWhitespace c = true

/-- What stands between the quotes of a string. -/
inductive StringText : List Char → Prop where
  | nil : StringText []
  | plain {c : Char} {t : List Char} (hcontrol : 0x20 ≤ c.toNat) (hquote : c ≠ '"')
      (hbackslash : c ≠ '\\') (h : StringText t) : StringText (c :: t)
  | escape {c : Char} {t : List Char} (hescape : c ∈ ['"', '\\', '/', 'b', 'f', 'n', 'r', 't'])
      (h : StringText t) : StringText ('\\' :: c :: t)
  | unicode {a b c d : Char} {t : List Char}
      (hhex : ∀ x ∈ [a, b, c, d], (hexValue x).isSome = true) (h : StringText t) :
      StringText ('\\' :: 'u' :: a :: b :: c :: d :: t)

/-- The phrases of the grammar. Items and members are those of one array or object, at least one. -/
inductive Phrase where
  | value
  | items
  | member
  | members

/-- The texts of a phrase. -/
inductive Text : Phrase → List Char → Prop where
  | literal {t : List Char} (h : t ∈ ["null".toList, "true".toList, "false".toList]) :
      Text .value t
  | number {t : List Char} (h : scanNumber t = some (t, [])) : Text .value t
  | string {t : List Char} (h : StringText t) : Text .value ('"' :: (t ++ ['"']))
  | emptyArray {ws : List Char} (hws : Spaces ws) : Text .value ('[' :: (ws ++ [']']))
  | array {t : List Char} (h : Text .items t) : Text .value ('[' :: (t ++ [']']))
  | emptyObject {ws : List Char} (hws : Spaces ws) : Text .value ('{' :: (ws ++ ['}']))
  | object {t : List Char} (h : Text .members t) : Text .value ('{' :: (t ++ ['}']))
  | lastItem {ws t ws' : List Char} (hws : Spaces ws) (h : Text .value t) (hws' : Spaces ws') :
      Text .items (ws ++ (t ++ ws'))
  | item {ws t ws' s : List Char} (hws : Spaces ws) (h : Text .value t) (hws' : Spaces ws')
      (hs : Text .items s) : Text .items (ws ++ (t ++ (ws' ++ ',' :: s)))
  | member {key ws ws' t : List Char} (hkey : StringText key) (hws : Spaces ws)
      (hws' : Spaces ws') (h : Text .value t) :
      Text .member ('"' :: (key ++ '"' :: (ws ++ ':' :: (ws' ++ t))))
  | lastMember {ws t ws' : List Char} (hws : Spaces ws) (h : Text .member t)
      (hws' : Spaces ws') : Text .members (ws ++ (t ++ ws'))
  | nextMember {ws t ws' s : List Char} (hws : Spaces ws) (h : Text .member t)
      (hws' : Spaces ws') (hs : Text .members s) : Text .members (ws ++ (t ++ (ws' ++ ',' :: s)))

/-- Phrases in front of another one, each with its comma. -/
def Preceding (phrases : Phrase) (t : List Char) : Prop :=
  t = [] ∨ ∃ s, Text phrases s ∧ t = s ++ [',']

/-- Phrases behind another one, each with its comma. -/
def Following (phrases : Phrase) (t : List Char) : Prop :=
  t = [] ∨ ∃ s, Text phrases s ∧ t = ',' :: s

/-- A phrase may stand between two texts. -/
inductive Place : Phrase → List Char → List Char → Prop where
  | whole {ws ws' : List Char} (hws : Spaces ws) (hws' : Spaces ws') : Place .value ws ws'
  | item {front back before ws ws' behind : List Char} (h : Place .value front back)
      (hbefore : Preceding .items before) (hws : Spaces ws) (hws' : Spaces ws')
      (hbehind : Following .items behind) :
      Place .value (front ++ '[' :: (before ++ ws)) (ws' ++ (behind ++ ']' :: back))
  | member {front back before ws ws' behind : List Char} (h : Place .value front back)
      (hbefore : Preceding .members before) (hws : Spaces ws) (hws' : Spaces ws')
      (hbehind : Following .members behind) :
      Place .member (front ++ '{' :: (before ++ ws)) (ws' ++ (behind ++ '}' :: back))
  | value {front back key ws ws' : List Char} (h : Place .member front back)
      (hkey : StringText key) (hws : Spaces ws) (hws' : Spaces ws') :
      Place .value (front ++ '"' :: (key ++ '"' :: (ws ++ ':' :: ws'))) back

/-- A whole text. -/
def IsText (text : List Char) : Prop :=
  ∃ ws t ws', Spaces ws ∧ Text .value t ∧ Spaces ws' ∧ text = ws ++ (t ++ ws')

theorem Text.append_items {s s' : List Char} (h : Text .items s) (hs' : Text .items s') :
  Text .items (s ++ ',' :: s')
  := by
  generalize heq : Phrase.items = phrase at h
  induction h with
  | lastItem hws h hws' => simpa using Text.item hws h hws' hs'
  | item hws h hws' _ _ ih => simpa using Text.item hws h hws' (ih heq)
  | _ => cases heq

theorem Text.append_members {s s' : List Char} (h : Text .members s) (hs' : Text .members s') :
  Text .members (s ++ ',' :: s')
  := by
  generalize heq : Phrase.members = phrase at h
  induction h with
  | lastMember hws h hws' => simpa using Text.nextMember hws h hws' hs'
  | nextMember hws h hws' _ _ ih => simpa using Text.nextMember hws h hws' (ih heq)
  | _ => cases heq

theorem Text.items_of_place {before ws t ws' behind : List Char}
    (hbefore : Preceding .items before) (hws : Spaces ws) (ht : Text .value t)
    (hws' : Spaces ws') (hbehind : Following .items behind) :
  Text .items (before ++ (ws ++ (t ++ (ws' ++ behind))))
  := by
  have hrest : Text .items (ws ++ (t ++ (ws' ++ behind))) := by
    rcases hbehind with rfl | ⟨s, hs, rfl⟩
    · simpa using Text.lastItem hws ht hws'
    · apply Text.item hws ht hws' hs
  rcases hbefore with rfl | ⟨s, hs, rfl⟩
  · apply hrest
  · simpa using hs.append_items hrest

theorem Text.members_of_place {before ws t ws' behind : List Char}
    (hbefore : Preceding .members before) (hws : Spaces ws) (ht : Text .member t)
    (hws' : Spaces ws') (hbehind : Following .members behind) :
  Text .members (before ++ (ws ++ (t ++ (ws' ++ behind))))
  := by
  have hrest : Text .members (ws ++ (t ++ (ws' ++ behind))) := by
    rcases hbehind with rfl | ⟨s, hs, rfl⟩
    · simpa using Text.lastMember hws ht hws'
    · apply Text.nextMember hws ht hws' hs
  rcases hbefore with rfl | ⟨s, hs, rfl⟩
  · apply hrest
  · simpa using hs.append_members hrest

/-- A phrase in its place makes a whole text. -/
theorem Place.isText {phrase : Phrase} {front back t : List Char} (h : Place phrase front back)
    (ht : Text phrase t) :
  IsText (front ++ (t ++ back))
  := by
  induction h generalizing t with
  | whole hws hws' => exact ⟨_, t, _, hws, ht, hws', rfl⟩
  | item h hbefore hws hws' hbehind ih =>
      simpa using ih (.array (Text.items_of_place hbefore hws ht hws' hbehind))
  | member h hbefore hws hws' hbehind ih =>
      simpa using ih (.object (Text.members_of_place hbefore hws ht hws' hbehind))
  | value h hkey hws hws' ih => simpa using ih (.member hkey hws hws' ht)

/-! ### Quotes -/

theorem not_mem_of_isDigit {c : Char} (h : isDigit c = true) :
  c ≠ '"'
  := by
  rintro rfl
  cases h

/-- No quote is a part of a number. -/
theorem scanDigits_quote {text digits rest : List Char} (h : scanDigits text = some (digits, rest)) :
  '"' ∉ digits
  := by
  unfold scanDigits at h
  split at h
  · cases h
  · cases h
    intro hmem
    apply not_mem_of_isDigit (List.mem_takeWhile_imp hmem) rfl

theorem scanInteger_quote {text digits rest : List Char}
    (h : scanInteger text = some (digits, rest)) :
  '"' ∉ digits
  := by
  unfold scanInteger at h
  split at h
  · cases h
    decide
  · apply scanDigits_quote h

theorem scanFraction_quote {text digits rest : List Char}
    (h : scanFraction text = some (digits, rest)) :
  '"' ∉ digits
  := by
  unfold scanFraction at h
  split at h
  · obtain ⟨⟨digits', rest'⟩, hdigits, heq⟩ := Option.map_eq_some_iff.mp h
    cases heq
    simpa using scanDigits_quote hdigits
  · cases h
    simp

theorem scanExponent_quote {text digits rest : List Char}
    (h : scanExponent text = some (digits, rest)) :
  '"' ∉ digits
  := by
  unfold scanExponent at h
  split at h
  · split at h
    · next he =>
        split at h
        · next hsign =>
            obtain ⟨⟨digits', rest'⟩, hdigits, heq⟩ := Option.map_eq_some_iff.mp h
            cases heq
            have hquote := scanDigits_quote hdigits
            rcases he with rfl | rfl
            · rcases hsign with rfl | rfl
              · simpa using hquote
              · simpa using hquote
            · rcases hsign with rfl | rfl
              · simpa using hquote
              · simpa using hquote
        · obtain ⟨⟨digits', rest'⟩, hdigits, heq⟩ := Option.map_eq_some_iff.mp h
          cases heq
          have hquote := scanDigits_quote hdigits
          rcases he with rfl | rfl
          · simpa using hquote
          · simpa using hquote
    · cases h
      simp
  · split at h
    · cases h
    · cases h
      simp
  · cases h
    simp

theorem scanNumber_quote {text number rest : List Char} (h : scanNumber text = some (number, rest)) :
  '"' ∉ number
  := by
  unfold scanNumber at h
  simp only [Option.bind_eq_bind, Option.bind_eq_some_iff, Option.pure_def, Option.some.injEq,
    Prod.mk.injEq, Prod.exists] at h
  obtain ⟨_, _, integer, text₁, hinteger, fraction, text₂, hfraction, exponent, text₃, hexponent,
    rfl, rfl⟩ := h
  simp only [List.mem_append, not_or]
  refine ⟨⟨⟨?_, scanInteger_quote hinteger⟩, scanFraction_quote hfraction⟩,
    scanExponent_quote hexponent⟩
  intro hmem
  have hsign := List.mem_takeWhile_imp hmem
  cases hsign

end Json
