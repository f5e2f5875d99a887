import OpencodeToolbelt.Data.Json
import OpencodeToolbelt.Data.Utf8

/-!
# Strings as texts

A string of ECMAScript is a text if the halves of surrogate pairs in it stand in pairs. Any other
string becomes one when each half that stands alone gives way to the replacement character.
-/

/-- Half of a surrogate pair. -/
def isSurrogate (u : UInt16) : Bool := isHighSurrogate u || isLowSurrogate u

/-- The character of a surrogate pair. -/
def pairedChar (u v : UInt16) : Char :=
  Char.ofNat (0x10000 + (u.toNat - 0xd800) * 0x400 + (v.toNat - 0xdc00))

/-- The character of a unit, which is no half of a pair. -/
def charOfUnit (u : UInt16) : Char :=
  if isSurrogate u then replacementCharacter else Char.ofNat u.toNat

/-- The characters of `s.toWellFormed()`. -/
def wellFormedText : JsUnits → List Char
  | [] => []
  | [u] => [charOfUnit u]
  | u :: v :: rest =>
      if isHighSurrogate u ∧ isLowSurrogate v then pairedChar u v :: wellFormedText rest
      else charOfUnit u :: wellFormedText (v :: rest)

/-- `s.toWellFormed()` -/
def toWellFormed (s : JsUnits) : JsUnits := unitsOfText (wellFormedText s)

/-- `s.isWellFormed()` -/
def isWellFormed : JsUnits → Bool
  | [] => true
  | [u] => !isSurrogate u
  | u :: v :: rest =>
      if isHighSurrogate u ∧ isLowSurrogate v then isWellFormed rest
      else !isSurrogate u && isWellFormed (v :: rest)

/-! ### Units of a character -/

theorem isSurrogate_iff {u : UInt16} :
  isSurrogate u = true ↔ 0xd800 ≤ u.toNat ∧ u.toNat < 0xe000
  := by
  rw [isSurrogate, Bool.or_eq_true, Json.isHighSurrogate_iff, Json.isLowSurrogate_iff]
  omega

theorem unitsOf_single {c : Char} (h : c.toNat < 0x10000) :
  unitsOf c = [.ofNat c.toNat]
  := if_pos h

theorem unitsOf_pair {c : Char} (h : ¬c.toNat < 0x10000) :
  unitsOf c =
    [.ofNat (0xd800 + (c.toNat - 0x10000) / 0x400), .ofNat (0xdc00 + (c.toNat - 0x10000) % 0x400)]
  := if_neg h

theorem toNat_unit {n : ℕ} (h : n < 0x10000) :
  (UInt16.ofNat n).toNat = n
  := by
  rw [UInt16.toNat_ofNat']
  apply Nat.mod_eq_of_lt h

theorem charOfUnit_ofNat {c : Char} (h : c.toNat < 0x10000) :
  charOfUnit (.ofNat c.toNat) = c
  := by
  have hvalid : c.toNat < 0xd800 ∨ 0xdfff < c.toNat ∧ c.toNat < 0x110000 := c.valid
  rw [charOfUnit, if_neg, toNat_unit h, Char.ofNat_toNat]
  rw [isSurrogate_iff, toNat_unit h]
  omega

/-- The units of a character beyond the first plane stand in a pair. -/
theorem surrogates_of_pair {c : Char} (h : ¬c.toNat < 0x10000) :
  isHighSurrogate (.ofNat (0xd800 + (c.toNat - 0x10000) / 0x400)) = true ∧
    isLowSurrogate (.ofNat (0xdc00 + (c.toNat - 0x10000) % 0x400)) = true ∧
    pairedChar (.ofNat (0xd800 + (c.toNat - 0x10000) / 0x400))
      (.ofNat (0xdc00 + (c.toNat - 0x10000) % 0x400)) = c
  := by
  have hvalid : c.toNat < 0xd800 ∨ 0xdfff < c.toNat ∧ c.toNat < 0x110000 := c.valid
  have hhigh : 0xd800 + (c.toNat - 0x10000) / 0x400 < 0x10000 := by omega
  have hlow : 0xdc00 + (c.toNat - 0x10000) % 0x400 < 0x10000 := by omega
  rw [Json.isHighSurrogate_iff, Json.isLowSurrogate_iff, pairedChar, toNat_unit hhigh,
    toNat_unit hlow]
  refine ⟨by omega, by omega, ?_⟩
  rw [show 0x10000 + (0xd800 + (c.toNat - 0x10000) / 0x400 - 0xd800) * 0x400 +
    (0xdc00 + (c.toNat - 0x10000) % 0x400 - 0xdc00) = c.toNat by omega, Char.ofNat_toNat]

theorem not_pair_of_not_surrogate {u v : UInt16} (h : isSurrogate u = false) :
  ¬(isHighSurrogate u = true ∧ isLowSurrogate v = true)
  := by
  rintro ⟨hhigh, -⟩
  rw [isSurrogate, hhigh] at h
  cases h

theorem isSurrogate_ofNat {c : Char} (h : c.toNat < 0x10000) :
  isSurrogate (.ofNat c.toNat) = false
  := by
  have hvalid : c.toNat < 0xd800 ∨ 0xdfff < c.toNat ∧ c.toNat < 0x110000 := c.valid
  rw [← Bool.not_eq_true, isSurrogate_iff, toNat_unit h]
  omega

/-! ### Texts -/

theorem wellFormedText_cons {u : UInt16} (h : isSurrogate u = false) (rest : JsUnits) :
  wellFormedText (u :: rest) = charOfUnit u :: wellFormedText rest
  := by
  cases rest with
  | nil => rfl
  | cons v rest => rw [wellFormedText, if_neg (not_pair_of_not_surrogate h)]

theorem isWellFormed_cons {u : UInt16} (h : isSurrogate u = false) (rest : JsUnits) :
  isWellFormed (u :: rest) = isWellFormed rest
  := by
  cases rest with
  | nil =>
      change (!isSurrogate u) = true
      rw [h, Bool.not_false]
  | cons v rest =>
      rw [isWellFormed, if_neg (not_pair_of_not_surrogate h), h, Bool.not_false, Bool.true_and]

/-- The first character of a text is the first one that its units are taken for. -/
theorem wellFormedText_unitsOf (c : Char) (rest : JsUnits) :
  wellFormedText (unitsOf c ++ rest) = c :: wellFormedText rest
  := by
  by_cases hsingle : c.toNat < 0x10000
  · rw [unitsOf_single hsingle, List.singleton_append,
      wellFormedText_cons (isSurrogate_ofNat hsingle), charOfUnit_ofNat hsingle]
  · obtain ⟨hhigh, hlow, hchar⟩ := surrogates_of_pair hsingle
    rw [unitsOf_pair hsingle, List.cons_append, List.cons_append, List.nil_append, wellFormedText,
      if_pos ⟨hhigh, hlow⟩, hchar]

theorem isWellFormed_unitsOf (c : Char) (rest : JsUnits) :
  isWellFormed (unitsOf c ++ rest) = isWellFormed rest
  := by
  by_cases hsingle : c.toNat < 0x10000
  · rw [unitsOf_single hsingle, List.singleton_append,
      isWellFormed_cons (isSurrogate_ofNat hsingle)]
  · obtain ⟨hhigh, hlow, -⟩ := surrogates_of_pair hsingle
    rw [unitsOf_pair hsingle, List.cons_append, List.cons_append, List.nil_append, isWellFormed,
      if_pos ⟨hhigh, hlow⟩]

/-- A text is what its units are taken for. -/
@[simp]
theorem wellFormedText_unitsOfText (text : List Char) :
  wellFormedText (unitsOfText text) = text
  := by
  induction text with
  | nil => rfl
  | cons c text ih =>
      change wellFormedText (unitsOf c ++ unitsOfText text) = _
      rw [wellFormedText_unitsOf, ih]

/-- The string that a text is is well formed. -/
@[simp]
theorem isWellFormed_unitsOfText (text : List Char) :
  isWellFormed (unitsOfText text) = true
  := by
  induction text with
  | nil => rfl
  | cons c text ih =>
      change isWellFormed (unitsOf c ++ unitsOfText text) = true
      rw [isWellFormed_unitsOf, ih]

theorem unitsOf_charOfUnit {u : UInt16} (h : isSurrogate u = false) :
  unitsOf (charOfUnit u) = [u]
  := by
  have hlt := u.toNat_lt
  have hvalid : ¬(0xd800 ≤ u.toNat ∧ u.toNat < 0xe000) := by
    rw [← isSurrogate_iff, h]
    decide
  have htoNat : (Char.ofNat u.toNat).toNat = u.toNat := Json.toNat_ofNat (by omega)
  rw [charOfUnit, h, if_neg (by decide), unitsOf_single (by omega), htoNat, UInt16.ofNat_toNat]

theorem unitsOf_pairedChar {u v : UInt16} (hhigh : isHighSurrogate u = true)
    (hlow : isLowSurrogate v = true) :
  unitsOf (pairedChar u v) = [u, v]
  := by
  rw [Json.isHighSurrogate_iff] at hhigh
  rw [Json.isLowSurrogate_iff] at hlow
  have htoNat : (pairedChar u v).toNat =
      0x10000 + (u.toNat - 0xd800) * 0x400 + (v.toNat - 0xdc00) := Json.toNat_ofNat (by omega)
  rw [unitsOf_pair (by omega), htoNat,
    show 0xd800 + (0x10000 + (u.toNat - 0xd800) * 0x400 + (v.toNat - 0xdc00) - 0x10000) / 0x400 =
      u.toNat by omega,
    show 0xdc00 + (0x10000 + (u.toNat - 0xd800) * 0x400 + (v.toNat - 0xdc00) - 0x10000) % 0x400 =
      v.toNat by omega, UInt16.ofNat_toNat, UInt16.ofNat_toNat]

/-- A well-formed string is the string of its text. -/
theorem toWellFormed_of_isWellFormed {s : JsUnits} (h : isWellFormed s = true) :
  toWellFormed s = s
  := by
  unfold toWellFormed
  induction s using wellFormedText.induct with
  | case1 => rfl
  | case2 u =>
      rw [isWellFormed, Bool.not_eq_true'] at h
      change unitsOf (charOfUnit u) ++ [] = _
      rw [unitsOf_charOfUnit h, List.append_nil]
  | case3 u v rest hpair ih =>
      rw [isWellFormed, if_pos hpair] at h
      rw [wellFormedText, if_pos hpair]
      change unitsOf (pairedChar u v) ++ unitsOfText (wellFormedText rest) = _
      rw [unitsOf_pairedChar hpair.1 hpair.2, ih h]
      rfl
  | case4 u v rest hpair ih =>
      rw [isWellFormed, if_neg hpair, Bool.and_eq_true, Bool.not_eq_true'] at h
      rw [wellFormedText, if_neg hpair]
      change unitsOf (charOfUnit u) ++ unitsOfText (wellFormedText (v :: rest)) = _
      rw [unitsOf_charOfUnit h.1, ih h.2]
      rfl
