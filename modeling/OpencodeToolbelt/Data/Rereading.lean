import Mathlib.Data.List.Nodup
import Mathlib.Data.List.TakeWhile
import Mathlib.Data.Nat.Digits.Defs
import OpencodeToolbelt.Data.JsString
import OpencodeToolbelt.Data.Json

/-!
# Reading what was written

A value whose objects enumerate their members as ECMAScript does is read back from the text that
it is written as.
-/

/-- Numbers whose texts are read as what was written. -/
class ExactNumber (N : Type) extends JsNumber N where
  scanNumber_toText : ∀ n, Json.scanNumber (toText n) = some (toText n, [])
  ofLiteral_toText : ∀ n, ofLiteral (toText n) = n

/-! ### Units -/

/-- The units of a character are those of no other one, whatever follows. -/
theorem unitsOf_append_inj {c c' : Char} {s s' : JsUnits}
    (h : unitsOf c ++ s = unitsOf c' ++ s') :
  c = c' ∧ s = s'
  := by
  have hrange : ∀ c : Char, c.toNat < 0xd800 ∨ 0xdfff < c.toNat ∧ c.toNat < 0x110000 :=
    fun c => c.valid
  have hc := hrange c
  have hc' := hrange c'
  unfold unitsOf at h
  dsimp only at h
  split at h
  · next hlow =>
      split at h
      · next hlow' =>
          obtain ⟨hunit, hrest⟩ := List.cons.inj h
          have hmod := congr_arg UInt16.toNat hunit
          rw [UInt16.toNat_ofNat', UInt16.toNat_ofNat'] at hmod
          exact ⟨Char.toNat_inj.mp (by omega), hrest⟩
      · next hhigh' =>
          have hmod := congr_arg UInt16.toNat (List.cons.inj h).1
          rw [UInt16.toNat_ofNat', UInt16.toNat_ofNat'] at hmod
          omega
  · next hhigh =>
      split at h
      · next hlow' =>
          have hmod := congr_arg UInt16.toNat (List.cons.inj h).1
          rw [UInt16.toNat_ofNat', UInt16.toNat_ofNat'] at hmod
          omega
      · next hhigh' =>
          obtain ⟨hfirst, htail⟩ := List.cons.inj h
          obtain ⟨hsecond, hrest⟩ := List.cons.inj htail
          have hmod := congr_arg UInt16.toNat hfirst
          have hmod' := congr_arg UInt16.toNat hsecond
          rw [UInt16.toNat_ofNat', UInt16.toNat_ofNat'] at hmod hmod'
          exact ⟨Char.toNat_inj.mp (by omega), hrest⟩

theorem unitsOf_ne_nil (c : Char) :
  unitsOf c ≠ []
  := by
  unfold unitsOf
  dsimp only
  split
  · apply List.cons_ne_nil
  · apply List.cons_ne_nil

theorem unitsOfText_injective :
  Function.Injective unitsOfText
  := by
  intro text text' h
  induction text generalizing text' with
  | nil =>
      cases text' with
      | nil => rfl
      | cons c' text' =>
          rw [unitsOfText, unitsOfText, List.flatMap_cons] at h
          apply absurd (List.append_eq_nil_iff.mp h.symm).1 (unitsOf_ne_nil c')
  | cons c text ih =>
      cases text' with
      | nil =>
          rw [unitsOfText, unitsOfText, List.flatMap_cons] at h
          apply absurd (List.append_eq_nil_iff.mp h).1 (unitsOf_ne_nil c)
      | cons c' text' =>
          rw [unitsOfText, unitsOfText, List.flatMap_cons, List.flatMap_cons] at h
          obtain ⟨rfl, htext⟩ := unitsOf_append_inj h
          rw [ih htext]

theorem unitsOfString_injective :
  Function.Injective unitsOfString
  := fun _ _ h => String.toList_injective (unitsOfText_injective h)

namespace Json

/-! ### Strings -/

theorem hexValue_hexDigit {d : ℕ} (h : d < 16) :
  hexValue (hexDigit d) = some d
  := by
  have hall : ∀ d < 16, hexValue (hexDigit d) = some d := by decide
  apply hall d h

theorem parseString_escapeUnit (u : UInt16) (text : List Char) :
  parseString (escapeUnit u ++ text) = (parseString text).map fun (s, rest) => (u :: s, rest)
  := by
  have hdigit : ∀ n, hexValue (hexDigit (n % 16)) = some (n % 16) :=
    fun n => hexValue_hexDigit (Nat.mod_lt n (by decide))
  have hunit : UInt16.ofNat (u.toNat / 0x1000 % 16 * 0x1000 + u.toNat / 0x100 % 16 * 0x100 +
      u.toNat / 0x10 % 16 * 0x10 + u.toNat % 16) = u := by
    have hlt := u.toNat_lt
    rw [show u.toNat / 0x1000 % 16 * 0x1000 + u.toNat / 0x100 % 16 * 0x100 +
      u.toNat / 0x10 % 16 * 0x10 + u.toNat % 16 = u.toNat by omega, UInt16.ofNat_toNat]
  simp only [escapeUnit, List.cons_append, List.nil_append, parseString, hdigit]
  cases htext : parseString text with
  | none => rfl
  | some result =>
      simp only [Option.bind_eq_bind, Option.bind_some, Option.pure_def, Option.map_some]
      rw [hunit]

theorem parseString_unescape {c : Char} {u : UInt16} (hu : c ≠ 'u') (h : unescape c = some u)
    (text : List Char) :
  parseString ('\\' :: c :: text) = (parseString text).map fun (s, rest) => (u :: s, rest)
  := by
  rw [parseString, h]
  · cases parseString text <;> rfl
  · rintro a b c d rest rfl
    apply absurd rfl hu

/-- A character that needs no escape stands for its units. -/
theorem parseString_plain {c : Char} (hcontrol : 0x20 ≤ c.toNat) (hquote : c ≠ '"')
    (hbackslash : c ≠ '\\') (text : List Char) :
  parseString (c :: text) = (parseString text).map fun (s, rest) => (unitsOf c ++ s, rest)
  := by
  rw [parseString]
  · rw [guard, if_pos hcontrol]
    cases parseString text <;> rfl
  · rintro rfl
    apply absurd rfl hquote
  · rintro a b c d rest rfl
    apply absurd rfl hbackslash
  · rintro c' rest rfl
    apply absurd rfl hbackslash

theorem parseString_quoteUnit (u : UInt16) (text : List Char) :
  parseString (quoteUnit u ++ text) = (parseString text).map fun (s, rest) => (u :: s, rest)
  := by
  unfold quoteUnit
  split
  · next h => rw [h]; apply parseString_unescape (by decide) (by decide)
  split
  · next h => rw [h]; apply parseString_unescape (by decide) (by decide)
  split
  · next h => rw [h]; apply parseString_unescape (by decide) (by decide)
  split
  · next h => rw [h]; apply parseString_unescape (by decide) (by decide)
  split
  · next h => rw [h]; apply parseString_unescape (by decide) (by decide)
  split
  · next h => rw [h]; apply parseString_unescape (by decide) (by decide)
  split
  · next h => rw [h]; apply parseString_unescape (by decide) (by decide)
  split
  · apply parseString_escapeUnit
  · next hquote hbackslash hplain =>
      rw [isHighSurrogate_iff, isLowSurrogate_iff] at hplain
      have hcontrol : 0x20 ≤ u.toNat := by
        rw [← Nat.not_lt]
        exact fun hlt => hplain (.inl hlt)
      have hlt := u.toNat_lt
      have htoNat := toNat_ofNat (n := u.toNat) (by omega)
      have hunits : unitsOf (Char.ofNat u.toNat) = [u] := by
        rw [unitsOf, htoNat, if_pos hlt, UInt16.ofNat_toNat]
      rw [List.singleton_append, parseString_plain, hunits]
      · rfl
      · rw [htoNat]
        apply hcontrol
      · intro heq
        rw [heq] at htoNat
        exact hquote (UInt16.toNat_inj.mp htoNat.symm)
      · intro heq
        rw [heq] at htoNat
        exact hbackslash (UInt16.toNat_inj.mp htoNat.symm)

/-- The character of a surrogate pair stands for the two. -/
theorem parseString_pair {u v : UInt16} {s : JsUnits} {text rest : List Char}
    (hpair : (0xd800 ≤ u.toNat ∧ u.toNat < 0xdc00) ∧ 0xdc00 ≤ v.toNat ∧ v.toNat < 0xe000)
    (h : parseString text = some (s, rest)) :
  parseString (Char.ofNat (0x10000 + (u.toNat - 0xd800) * 0x400 + (v.toNat - 0xdc00)) :: text) =
    some (u :: v :: s, rest)
  := by
  generalize hn : 0x10000 + (u.toNat - 0xd800) * 0x400 + (v.toNat - 0xdc00) = n
  have htoNat : (Char.ofNat n).toNat = n := toNat_ofNat (by omega)
  have hne : ∀ c : Char, c.toNat < 0x10000 → Char.ofNat n ≠ c := by
    rintro c hc rfl
    omega
  have hu : UInt16.ofNat (0xd800 + (n - 0x10000) / 0x400) = u := by
    rw [← UInt16.toNat_inj, UInt16.toNat_ofNat']
    omega
  have hv : UInt16.ofNat (0xdc00 + (n - 0x10000) % 0x400) = v := by
    rw [← UInt16.toNat_inj, UInt16.toNat_ofNat']
    omega
  have hunits : unitsOf (Char.ofNat n) = [u, v] := by
    have hge : ¬ n < 0x10000 := by omega
    simp only [unitsOf, htoNat, if_neg hge, hu, hv]
  have hcontrol : 0x20 ≤ (Char.ofNat n).toNat := by
    rw [htoNat]
    omega
  rw [parseString_plain hcontrol (hne '"' (by decide)) (hne '\\' (by decide)), h,
    Option.map_some, hunits]
  rfl

theorem parseString_quoteUnits (s : JsUnits) (rest : List Char) :
  parseString (quoteUnits s ++ '"' :: rest) = some (s, rest)
  := by
  induction s using quoteUnits.induct with
  | case1 => rfl
  | case2 u =>
      rw [quoteUnits, parseString_quoteUnit]
      rfl
  | case3 u v s hpair ih =>
      rw [quoteUnits, if_pos hpair, List.cons_append]
      rw [isHighSurrogate_iff, isLowSurrogate_iff] at hpair
      apply parseString_pair hpair
      apply ih
  | case4 u v s hpair ih =>
      rw [quoteUnits, if_neg hpair, List.append_assoc, parseString_quoteUnit, ih]
      rfl

/-! ### Numbers -/

/-- A text behind a value, as far as it begins with what follows values where they are written. -/
def Over (rest : List Char) : Prop := ∀ c ∈ rest.head?, c = ',' ∨ c = ']' ∨ c = '}'

theorem over_nil :
  Over []
  := by
  intro c hc
  cases hc

theorem over_cons {c : Char} (h : c = ',' ∨ c = ']' ∨ c = '}') (rest : List Char) :
  Over (c :: rest)
  := by
  intro c' hc'
  cases hc'
  apply h

theorem takeWhile_append_of_head {p : Char → Bool} {rest : List Char}
    (h : ∀ c ∈ rest.head?, p c = false) (text : List Char) :
  (text ++ rest).takeWhile p = text.takeWhile p ∧
    (text ++ rest).dropWhile p = text.dropWhile p ++ rest
  := by
  induction text with
  | nil =>
      cases rest with
      | nil => exact ⟨rfl, rfl⟩
      | cons c rest =>
          have hc : p c = false := h c rfl
          simp only [List.nil_append, List.takeWhile_cons, List.dropWhile_cons, hc,
            Bool.false_eq_true, if_false, List.takeWhile_nil, List.dropWhile_nil, and_self]
  | cons c text ih =>
      rw [List.cons_append, List.takeWhile_cons, List.dropWhile_cons, List.takeWhile_cons,
        List.dropWhile_cons, ih.1, ih.2]
      cases p c with
      | false => exact ⟨rfl, rfl⟩
      | true => exact ⟨rfl, rfl⟩

theorem Over.head_eq_false {rest : List Char} (hrest : Over rest) {p : Char → Bool}
    (h : [',', ']', '}'].any p = false) :
  ∀ c ∈ rest.head?, p c = false
  := by
  intro c hc
  rw [← Bool.not_eq_true]
  rw [List.any_eq_false] at h
  apply h
  rcases hrest c hc with rfl | rfl | rfl <;> simp

theorem Over.scanDigits {rest : List Char} (hrest : Over rest) {text digits after : List Char}
    (h : scanDigits text = some (digits, after)) :
  Json.scanDigits (text ++ rest) = some (digits, after ++ rest)
  := by
  obtain ⟨htake, hdrop⟩ := takeWhile_append_of_head
    (hrest.head_eq_false (p := isDigit) (by decide)) text
  unfold Json.scanDigits at h ⊢
  rw [htake, hdrop]
  split at h
  · cases h
  · next hempty =>
      cases h
      rw [if_neg hempty]

theorem Over.scanInteger {rest : List Char} (hrest : Over rest) {text digits after : List Char}
    (h : scanInteger text = some (digits, after)) :
  Json.scanInteger (text ++ rest) = some (digits, after ++ rest)
  := by
  unfold Json.scanInteger at h
  split at h
  · cases h
    rfl
  · next hzero =>
      rw [← hrest.scanDigits h, Json.scanInteger]
      rintro text' heq
      cases text with
      | nil => cases h
      | cons c text =>
          obtain ⟨rfl, -⟩ := List.cons.inj heq
          apply hzero text rfl

theorem Over.scanFraction {rest : List Char} (hrest : Over rest) {text digits after : List Char}
    (h : scanFraction text = some (digits, after)) :
  Json.scanFraction (text ++ rest) = some (digits, after ++ rest)
  := by
  unfold Json.scanFraction at h
  split at h
  · next text' =>
      obtain ⟨⟨digits', after'⟩, hdigits, heq⟩ := Option.map_eq_some_iff.mp h
      cases heq
      rw [List.cons_append, Json.scanFraction, hrest.scanDigits hdigits]
      rfl
  · next hpoint =>
      cases h
      rw [Json.scanFraction]
      rintro text' heq
      cases text with
      | nil =>
          rw [List.nil_append] at heq
          have := hrest '.' (by rw [heq]; rfl)
          revert this
          decide
      | cons c text =>
          obtain ⟨rfl, -⟩ := List.cons.inj heq
          apply hpoint text rfl

theorem scanExponent_over {rest : List Char} (hrest : Over rest) :
  scanExponent rest = some ([], rest)
  := by
  have hne : ∀ e ∈ rest.head?, ¬ (e = 'e' ∨ e = 'E') := by
    intro e he
    rcases hrest e he with rfl | rfl | rfl <;> decide
  match rest with
  | [] => rfl
  | [e] => rw [scanExponent, if_neg (hne e rfl)]
  | e :: sign :: rest => rw [scanExponent, if_neg (hne e rfl)]

theorem Over.scanExponent {rest : List Char} (hrest : Over rest) {text digits after : List Char}
    (h : scanExponent text = some (digits, after)) :
  Json.scanExponent (text ++ rest) = some (digits, after ++ rest)
  := by
  unfold Json.scanExponent at h
  split at h
  · next e sign text =>
      rw [List.cons_append, List.cons_append, Json.scanExponent]
      split at h
      · next he =>
          rw [if_pos he]
          split at h
          · next hsign =>
              obtain ⟨⟨digits', after'⟩, hdigits, heq⟩ := Option.map_eq_some_iff.mp h
              cases heq
              rw [if_pos hsign, hrest.scanDigits hdigits]
              rfl
          · next hsign =>
              obtain ⟨⟨digits', after'⟩, hdigits, heq⟩ := Option.map_eq_some_iff.mp h
              cases heq
              rw [if_neg hsign, ← List.cons_append, hrest.scanDigits hdigits]
              rfl
      · next he =>
          cases h
          rw [if_neg he]
          rfl
  · next e =>
      split at h
      · cases h
      · next he =>
          cases h
          cases rest with
          | nil => rw [List.append_nil, Json.scanExponent, if_neg he]
          | cons c rest =>
              rw [List.singleton_append, Json.scanExponent, if_neg he]
  · cases h
    apply scanExponent_over hrest

/-- A literal ends where nothing of it can follow. -/
theorem Over.scanNumber {rest : List Char} (hrest : Over rest) {text literal after : List Char}
    (h : scanNumber text = some (literal, after)) :
  Json.scanNumber (text ++ rest) = some (literal, after ++ rest)
  := by
  obtain ⟨htake, -⟩ := takeWhile_append_of_head
    (hrest.head_eq_false (p := fun c => c = '-') (by decide)) text
  unfold Json.scanNumber at h ⊢
  simp only [Option.bind_eq_bind, Option.bind_eq_some_iff, Option.pure_def, Option.some.injEq,
    Prod.mk.injEq, Prod.exists] at h
  obtain ⟨_, hguard, integer, text₁, hinteger, fraction, text₂, hfraction, exponent, text₃,
    hexponent, rfl, rfl⟩ := h
  have hle : (text.takeWhile (· = '-')).length ≤ text.length :=
    (List.takeWhile_prefix _).length_le
  rw [htake]
  simp only [Option.bind_eq_bind, hguard, Option.bind_some]
  rw [List.drop_append_of_le_length hle, hrest.scanInteger hinteger, Option.bind_some,
    hrest.scanFraction hfraction, Option.bind_some, hrest.scanExponent hexponent, Option.bind_some]
  rfl

/-- A literal begins with a sign or a digit. -/
theorem head_of_scanNumber {text literal after : List Char}
    (h : scanNumber text = some (literal, after)) :
  ∃ c rest, text = c :: rest ∧ (c = '-' ∨ isDigit c = true)
  := by
  cases text with
  | nil => cases h
  | cons c rest =>
      use c, rest, rfl
      by_contra hc
      rw [not_or, Bool.not_eq_true] at hc
      have hsign : (c :: rest).takeWhile (· = '-') = [] := by
        rw [List.takeWhile_cons, if_neg (by simp [hc.1])]
      have hzero : c ≠ '0' := by
        rintro rfl
        cases hc.2
      unfold scanNumber at h
      rw [hsign] at h
      have hinteger : scanInteger (c :: rest) = none := by
        rw [scanInteger]
        · simp only [scanDigits, List.takeWhile_cons, hc.2, Bool.false_eq_true, if_false,
            List.isEmpty_nil, if_true]
        · intro rest' heq
          apply hzero (List.cons.inj heq).1
      simp only [List.length_nil, List.drop_zero, hinteger, Option.bind_eq_bind, Option.bind_none,
        Option.bind_fun_none, reduceCtorEq] at h

/-! ### The order of members -/

/-- Whether a key is enumerated in front of one that is added behind it. -/
def before (key key' : JsUnits) : Bool :=
  (arrayIndex key').all fun index' => (arrayIndex key).any (· < index')

/-- Keys in the order in which those of an object are enumerated. -/
def Enumerated (keys : List JsUnits) : Prop :=
  keys.Nodup ∧ keys.Pairwise fun key key' => before key key' = true

instance (keys : List JsUnits) : Decidable (Enumerated keys) :=
  inferInstanceAs (Decidable (_ ∧ _))

theorem foldl_eq_ofDigits (digits : List ℕ) :
  digits.foldl (fun n d => n * 10 + (d - 48)) 0 =
    Nat.ofDigits 10 (digits.map (· - 48)).reverse
  := by
  rw [Nat.ofDigits_eq_foldr, List.foldr_reverse, List.foldl_map]
  congr 1
  funext n d
  rw [Nat.mul_comm n 10, Nat.add_comm]
  rfl

/-- An index has one key. -/
theorem digits_of_arrayIndex {key : JsUnits} {index : ℕ} (h : arrayIndex key = some index) :
  key.map UInt16.toNat =
    if index = 0 then [48] else (Nat.digits 10 index).reverse.map (· + 48)
  := by
  unfold arrayIndex at h
  dsimp only at h
  rw [foldl_eq_ofDigits] at h
  generalize hdigits : key.map UInt16.toNat = digits at h ⊢
  split at h
  · next hvalid =>
      obtain ⟨hne, hrange, hhead, -⟩ := hvalid
      have hindex := Option.some.inj h
      by_cases hzero : digits.head? = some 48
      · rw [hhead hzero] at hindex ⊢
        have hindex' : index = 0 := hindex.symm
        rw [if_pos hindex']
      · have hlast : ∀ hnil : (digits.map (· - 48)).reverse ≠ [],
            (digits.map (· - 48)).reverse.getLast hnil ≠ 0 := by
          intro hnil hlast
          cases digits with
          | nil => apply hne rfl
          | cons d digits =>
              rw [List.getLast_reverse, List.head_map, List.head_cons] at hlast
              obtain ⟨hlow, -⟩ := hrange d (by simp)
              apply hzero
              rw [List.head?_cons, show d = 48 by omega]
        have hsmall : ∀ d ∈ (digits.map (· - 48)).reverse, d < 10 := by
          intro d hd
          obtain ⟨d', hd', rfl⟩ := List.mem_map.mp (List.mem_reverse.mp hd)
          obtain ⟨-, hhigh⟩ := hrange d' hd'
          omega
        have hunique := Nat.digits_ofDigits 10 (by decide) _ hsmall hlast
        rw [hindex] at hunique
        have hpos : index ≠ 0 := by
          rintro rfl
          rw [Nat.digits_zero] at hunique
          apply hne
          simpa using hunique.symm
        rw [if_neg hpos, hunique, List.reverse_reverse, List.map_map]
        symm
        apply (List.map_congr_left _).trans (List.map_id digits)
        intro d hd
        obtain ⟨hlow, -⟩ := hrange d hd
        apply Nat.sub_add_cancel hlow
  · cases h

theorem arrayIndex_injective {key key' : JsUnits} {index : ℕ} (h : arrayIndex key = some index)
    (h' : arrayIndex key' = some index) :
  key = key'
  := by
  have htoNat : key.map UInt16.toNat = key'.map UInt16.toNat := by
    rw [digits_of_arrayIndex h, digits_of_arrayIndex h']
  apply List.map_injective_iff.mpr (fun u v huv => UInt16.toNat_inj.mp huv) htoNat

section Order

variable {N : Type}

theorem get_eq_none {members : List (JsUnits × Json N)} {key : JsUnits}
    (h : key ∉ members.map Prod.fst) :
  get members key = none
  := by
  rw [get, Option.map_eq_none_iff, List.find?_eq_none]
  intro member hmember heq
  apply h
  rw [← of_decide_eq_true heq]
  apply List.mem_map_of_mem hmember

theorem mem_keys_of_get {members : List (JsUnits × Json N)} {key : JsUnits}
    (h : (get members key).isSome = true) :
  key ∈ members.map Prod.fst
  := by
  by_contra hnot
  rw [get_eq_none hnot] at h
  cases h

/-- A member that belongs behind all others is added there. -/
theorem set_eq_append {members : List (JsUnits × Json N)} {key : JsUnits}
    (hnot : key ∉ members.map Prod.fst)
    (hbefore : ∀ key' ∈ members.map Prod.fst, before key' key = true) (value : Json N) :
  set members key value = members ++ [(key, value)]
  := by
  rw [set, get_eq_none hnot]
  simp only [Option.isSome_none, Bool.false_eq_true, if_false]
  cases hindex : arrayIndex key with
  | none => rfl
  | some index =>
      have hall : ∀ member ∈ members, (arrayIndex member.1).any (· < index) = true := by
        intro member hmember
        have := hbefore member.1 (List.mem_map_of_mem hmember)
        rw [before, hindex] at this
        apply this
      dsimp only
      rw [List.takeWhile_eq_self_iff.mpr hall, List.dropWhile_eq_nil_iff.mpr hall]

theorem keys_replace (members : List (JsUnits × Json N)) (key : JsUnits) (value : Json N) :
  (members.map fun member => if member.1 = key then (key, value) else member).map Prod.fst =
    members.map Prod.fst
  := by
  rw [List.map_map]
  apply List.map_congr_left
  intro member hmember
  simp only [Function.comp_apply]
  split
  · next h => exact h.symm
  · rfl

theorem before_of_index {key key' : JsUnits} {index index' : ℕ}
    (h : arrayIndex key = some index) (h' : arrayIndex key' = some index') (hlt : index < index') :
  before key key' = true
  := by
  simp [before, h, h', hlt]

/-- An index comes in front of all that is not in front of it. -/
theorem before_of_dropWhile {members : List (JsUnits × Json N)} {key key' : JsUnits} {index : ℕ}
    (hindex : arrayIndex key = some index)
    {front : JsUnits × Json N → Bool}
    (hfront : ∀ member, front member = (arrayIndex member.1).any (· < index))
    (hnot : key ∉ (members.dropWhile front).map Prod.fst)
    (hpairwise : ((members.dropWhile front).map Prod.fst).Pairwise fun key key' =>
      before key key' = true)
    (hkey' : key' ∈ (members.dropWhile front).map Prod.fst) :
  before key key' = true
  := by
  cases hindex' : arrayIndex key' with
  | none => rw [before, hindex', Option.all_none]
  | some index' =>
      apply before_of_index hindex hindex'
      have hfalse := List.head_dropWhile_not front (l := members)
      cases hdrop : members.dropWhile front with
      | nil =>
          rw [hdrop] at hkey'
          cases hkey'
      | cons first rest =>
          simp only [hdrop] at hfalse hnot hpairwise hkey'
          have hfirst := hfalse (List.cons_ne_nil _ _)
          rw [List.head_cons, hfront] at hfirst
          rw [List.map_cons, List.mem_cons, not_or] at hnot
          obtain ⟨hne, -⟩ := hnot
          have hle : ∃ least, arrayIndex first.1 = some least ∧ least ≤ index' := by
            rcases List.mem_cons.mp hkey' with rfl | hmem
            · exact ⟨index', hindex', le_rfl⟩
            · have hbefore := (List.pairwise_cons.mp hpairwise).1 key' hmem
              rw [before, hindex', Option.all_some] at hbefore
              cases hleast : arrayIndex first.1 with
              | none =>
                  rw [hleast] at hbefore
                  cases hbefore
              | some least =>
                  rw [hleast, Option.any_some, decide_eq_true_eq] at hbefore
                  exact ⟨least, rfl, hbefore.le⟩
          obtain ⟨least, hleast, hle⟩ := hle
          rw [hleast, Option.any_some, decide_eq_false_iff_not] at hfirst
          have hdistinct : least ≠ index := by
            rintro rfl
            apply hne (arrayIndex_injective hindex hleast)
          omega

/-- What is added to an object takes the place that it is enumerated at. -/
theorem Enumerated.set {members : List (JsUnits × Json N)}
    (h : Enumerated (members.map Prod.fst)) (key : JsUnits) (value : Json N) :
  Enumerated ((set members key value).map Prod.fst)
  := by
  rw [Json.set]
  split
  · rw [keys_replace]
    apply h
  · next hnone =>
      have hnot : key ∉ members.map Prod.fst := by
        intro hmem
        apply hnone
        obtain ⟨member, hmember, rfl⟩ := List.mem_map.mp hmem
        rw [get, Option.isSome_map, List.find?_isSome]
        exact ⟨member, hmember, decide_eq_true rfl⟩
      split
      · next hindex =>
          rw [List.map_append, List.map_singleton]
          constructor
          · apply List.nodup_append.mpr
            refine ⟨h.1, List.nodup_singleton _, ?_⟩
            rintro key' hkey' _ hmem rfl
            rw [List.mem_singleton] at hmem
            rw [hmem] at hkey'
            apply hnot hkey'
          · apply List.pairwise_append.mpr
            refine ⟨h.2, List.pairwise_singleton _ _, ?_⟩
            intro key' _ _ hmem
            rw [List.mem_singleton.mp hmem, before, hindex]
            rfl
      · next index hindex =>
          dsimp only
          generalize hfront : (fun member : JsUnits × Json N =>
            (arrayIndex member.1).any (· < index)) = front
          have hsplit := List.takeWhile_append_dropWhile (p := front) (l := members)
          have hkeys : members.map Prod.fst = (members.takeWhile front).map Prod.fst ++
              (members.dropWhile front).map Prod.fst := by
            rw [← List.map_append, hsplit]
          rw [hkeys] at h hnot
          rw [List.map_append, List.map_cons]
          obtain ⟨hnodup, hpairwise⟩ := h
          constructor
          · apply List.nodup_middle.mpr
            apply List.nodup_cons.mpr ⟨hnot, hnodup⟩
          · obtain ⟨htake, hdrop, hacross⟩ := List.pairwise_append.mp hpairwise
            apply List.pairwise_append.mpr
            refine ⟨htake, List.pairwise_cons.mpr ⟨?_, hdrop⟩, ?_⟩
            · intro key' hkey'
              apply before_of_dropWhile hindex (fun member => by rw [← hfront]) _ hdrop hkey'
              exact fun hmem => hnot (List.mem_append_right _ hmem)
            · intro key' hkey' key'' hkey''
              rcases List.mem_cons.mp hkey'' with rfl | hkey''
              · obtain ⟨member, hmember, rfl⟩ := List.mem_map.mp hkey'
                have := List.mem_takeWhile_imp hmember
                rw [← hfront] at this
                rw [before, hindex]
                apply this
              · apply hacross key' hkey' key'' hkey''

end Order

/-! ### Values -/

/-- Values whose objects enumerate their members in the order that ECMAScript keeps. -/
inductive Ordered {N : Type} : Json N → Prop where
  | null : Ordered .null
  | bool (value : Bool) : Ordered (.bool value)
  | number (value : N) : Ordered (.number value)
  | string (value : JsUnits) : Ordered (.string value)
  | array {items : List (Json N)} (h : ∀ item ∈ items, Ordered item) : Ordered (.array items)
  | object {members : List (JsUnits × Json N)} (henumerated : Enumerated (members.map Prod.fst))
      (h : ∀ member ∈ members, Ordered member.2) : Ordered (.object members)

section Reading

variable {N : Type} [ExactNumber N]

/-- The text of a value is read, whatever follows it, as that value. -/
def Reads (value : Json N) : Prop :=
  ∀ rest, Over rest → ∀ steps, 2 * (stringify value).length ≤ steps →
    parseValue steps (stringify value ++ rest) = some (value, rest)

theorem skipWhitespace_cons {c : Char} (h : isWhitespace c = false) (text : List Char) :
  skipWhitespace (c :: text) = c :: text
  := by
  rw [skipWhitespace, List.dropWhile_cons, if_neg (by simp [h])]

/-- The text of a value begins with a character that nothing else begins with. -/
theorem stringify_eq_cons (value : Json N) :
  ∃ c text, stringify value = c :: text ∧ isWhitespace c = false ∧ c ≠ ']' ∧ c ≠ '}'
  := by
  cases value with
  | null => exact ⟨'n', _, rfl, rfl, by decide, by decide⟩
  | bool value =>
      cases value with
      | false => exact ⟨'f', _, rfl, rfl, by decide, by decide⟩
      | true => exact ⟨'t', _, rfl, rfl, by decide, by decide⟩
  | number value =>
      obtain ⟨c, text, htext, hc⟩ := head_of_scanNumber (ExactNumber.scanNumber_toText value)
      refine ⟨c, text, htext, ?_⟩
      rcases hc with rfl | hdigit
      · exact ⟨rfl, by decide, by decide⟩
      · have hlow : 48 ≤ c.toNat ∧ c.toNat ≤ 57 := by simpa [isDigit] using hdigit
        have hne : ∀ c' : Char, c'.toNat < 48 ∨ 57 < c'.toNat → c ≠ c' := by
          rintro c' hc' rfl
          omega
        refine ⟨?_, hne ']' (by decide), hne '}' (by decide)⟩
        simp only [isWhitespace, hne ' ' (by decide), hne '\t' (by decide), hne '\n' (by decide),
          hne '\r' (by decide), decide_false, Bool.or_false]
  | string value => exact ⟨'"', _, rfl, rfl, by decide, by decide⟩
  | array items => exact ⟨'[', _, rfl, rfl, by decide, by decide⟩
  | object members => exact ⟨'{', _, rfl, rfl, by decide, by decide⟩

theorem length_stringify_pos (value : Json N) :
  0 < (stringify value).length
  := by
  obtain ⟨c, text, htext, -⟩ := stringify_eq_cons value
  rw [htext]
  apply Nat.succ_pos

theorem parseValue_scalar {c : Char} {text rest : List Char} {value : Json N}
    (hspace : isWhitespace c = false) (hobject : c ≠ '{') (harray : c ≠ '[')
    (h : parseScalar (c :: text) = some (value, rest)) {steps : ℕ} (hsteps : 0 < steps) :
  parseValue steps (c :: text) = some (value, rest)
  := by
  obtain ⟨steps, rfl⟩ := Nat.exists_eq_succ_of_ne_zero hsteps.ne'
  rw [parseValue, skipWhitespace_cons hspace]
  split
  · next heq => apply absurd (List.cons.inj heq).1 hobject
  · next heq => apply absurd (List.cons.inj heq).1 harray
  · apply h

theorem reads_number (value : N) :
  Reads (.number value)
  := by
  intro rest hrest steps hsteps
  have hscan := ExactNumber.scanNumber_toText value
  obtain ⟨c, text, htext, hc⟩ := head_of_scanNumber hscan
  have hpos := length_stringify_pos (.number value)
  have hne : ∀ c' : Char, c' ≠ '-' → isDigit c' = false → c ≠ c' := by
    rintro c' hminus hdigit rfl
    rcases hc with hc | hc
    · apply hminus hc
    · rw [hdigit] at hc
      cases hc
  have hover := hrest.scanNumber hscan
  have hscalar : parseScalar (c :: (text ++ rest)) = some (.number value, rest) := by
    rw [← List.cons_append, ← htext]
    unfold parseScalar
    rw [htext, List.cons_append]
    split
    · next heq => apply absurd (List.cons.inj heq).1 (hne '"' (by decide) (by decide))
    · next heq => apply absurd (List.cons.inj heq).1 (hne 'n' (by decide) (by decide))
    · next heq => apply absurd (List.cons.inj heq).1 (hne 't' (by decide) (by decide))
    · next heq => apply absurd (List.cons.inj heq).1 (hne 'f' (by decide) (by decide))
    · rw [← List.cons_append, ← htext, hover, Option.map_some, List.nil_append]
      dsimp only
      rw [ExactNumber.ofLiteral_toText]
  rw [stringify, htext, List.cons_append]
  apply parseValue_scalar _ (hne '{' (by decide) (by decide)) (hne '[' (by decide) (by decide))
    hscalar (by omega)
  obtain ⟨c', text', htext', hspace, -⟩ := stringify_eq_cons (.number value)
  rw [stringify, htext] at htext'
  rw [(List.cons.inj htext').1]
  apply hspace

theorem reads_string (value : JsUnits) :
  Reads (.string value : Json N)
  := by
  intro rest hrest steps hsteps
  have hpos := length_stringify_pos (.string value : Json N)
  rw [stringify, quote, List.cons_append, List.cons_append, List.append_assoc,
    List.singleton_append]
  apply parseValue_scalar rfl (by decide) (by decide) _ (by omega)
  rw [parseScalar, parseString_quoteUnits]
  rfl

theorem stringifyItems_cons (item item' : Json N) (items : List (Json N)) :
  stringifyItems (item :: item' :: items) =
    stringify item ++ ',' :: stringifyItems (item' :: items)
  := by
  rw [stringifyItems]
  apply List.cons_ne_nil

theorem stringifyMembers_cons (key : JsUnits) (value : Json N) (member : JsUnits × Json N)
    (members : List (JsUnits × Json N)) :
  stringifyMembers ((key, value) :: member :: members) =
    quote key ++ ':' :: (stringify value ++ ',' :: stringifyMembers (member :: members))
  := by
  rw [stringifyMembers, List.append_assoc, List.cons_append]
  apply List.cons_ne_nil

theorem stringifyItems_eq_cons (item : Json N) (items : List (Json N)) :
  ∃ c text, stringifyItems (item :: items) = c :: text ∧ isWhitespace c = false ∧ c ≠ ']' ∧ c ≠ '}'
  := by
  obtain ⟨c, text, htext, hc⟩ := stringify_eq_cons item
  cases items with
  | nil => exact ⟨c, text, by rw [stringifyItems, htext], hc⟩
  | cons item' items =>
      refine ⟨c, text ++ ',' :: stringifyItems (item' :: items), ?_, hc⟩
      rw [stringifyItems_cons, htext, List.cons_append]

theorem stringifyMembers_eq_cons (member : JsUnits × Json N) (members : List (JsUnits × Json N)) :
  ∃ text, stringifyMembers (member :: members) = '"' :: text
  := by
  obtain ⟨key, value⟩ := member
  cases members with
  | nil => exact ⟨_, rfl⟩
  | cons member' members =>
      rw [stringifyMembers_cons]
      exact ⟨_, rfl⟩

/-- A member is read up to its value. -/
theorem parseMembers_quote (steps : ℕ) (first : List (JsUnits × Json N)) (key : JsUnits)
    {text rest : List Char} {c : Char} {value : Json N}
    (h : parseValue steps text = some (value, c :: rest)) (hc : isWhitespace c = false) :
  parseMembers (steps + 1) first (quote key ++ ':' :: text) =
    match c :: rest with
    | ',' :: rest => parseMembers steps (set first key value) rest
    | '}' :: rest => some (.object (set first key value), rest)
    | _ => none
  := by
  rw [quote, List.cons_append, List.cons_append, List.append_assoc, List.singleton_append,
    parseMembers, skipWhitespace_cons rfl]
  simp only [parseString_quoteUnits, Option.bind_eq_bind, Option.bind_some,
    skipWhitespace_cons (c := ':') rfl, h, skipWhitespace_cons hc]
  rfl

theorem parseItems_stringifyItems {items : List (Json N)} (hne : items ≠ [])
    (h : ∀ item ∈ items, Reads item) (first : List (Json N)) (rest : List Char) (steps : ℕ)
    (hsteps : 2 * (stringifyItems items).length + 1 ≤ steps) :
  parseItems steps first (stringifyItems items ++ ']' :: rest) =
    some (.array (first.reverse ++ items), rest)
  := by
  induction items generalizing first steps with
  | nil => apply absurd rfl hne
  | cons item items ih =>
      obtain ⟨steps, rfl⟩ := Nat.exists_eq_succ_of_ne_zero (n := steps) (by omega)
      have hitem := h item (by simp)
      cases items with
      | nil =>
          rw [stringifyItems] at hsteps ⊢
          rw [parseItems, hitem _ (over_cons (by simp) rest) steps (by omega)]
          simp only [Option.bind_eq_bind, Option.bind_some]
          rw [skipWhitespace_cons rfl]
          simp
      | cons item' items =>
          rw [stringifyItems_cons] at hsteps ⊢
          rw [List.length_append, List.length_cons] at hsteps
          rw [List.append_assoc, List.cons_append, parseItems,
            hitem _ (over_cons (by simp) _) steps (by omega)]
          simp only [Option.bind_eq_bind, Option.bind_some]
          rw [skipWhitespace_cons rfl]
          apply (ih (List.cons_ne_nil _ _)
            (fun item hmem => h item (List.mem_cons_of_mem _ hmem)) (item :: first)
            steps (by omega)).trans
          simp

theorem parseMembers_stringifyMembers {members : List (JsUnits × Json N)} (hne : members ≠ [])
    (h : ∀ member ∈ members, Reads member.2) (first : List (JsUnits × Json N))
    (henumerated : Enumerated ((first ++ members).map Prod.fst)) (rest : List Char) (steps : ℕ)
    (hsteps : 2 * (stringifyMembers members).length + 1 ≤ steps) :
  parseMembers steps first (stringifyMembers members ++ '}' :: rest) =
    some (.object (first ++ members), rest)
  := by
  induction members generalizing first steps with
  | nil => apply absurd rfl hne
  | cons member members ih =>
      obtain ⟨steps, rfl⟩ := Nat.exists_eq_succ_of_ne_zero (n := steps) (by omega)
      obtain ⟨key, value⟩ := member
      have hvalue : Reads value := h (key, value) (by simp)
      have hset : set first key value = first ++ [(key, value)] := by
        rw [List.map_append, List.map_cons] at henumerated
        obtain ⟨hnodup, hpairwise⟩ := henumerated
        apply set_eq_append
        · intro hmem
          apply (List.nodup_append.mp hnodup).2.2 key hmem key (by simp) rfl
        · intro key' hkey'
          apply (List.pairwise_append.mp hpairwise).2.2 key' hkey' key (by simp)
      cases members with
      | nil =>
          rw [stringifyMembers] at hsteps ⊢
          rw [List.length_append, List.length_cons] at hsteps
          rw [List.append_assoc, List.cons_append, parseMembers_quote steps first key
            (hvalue _ (over_cons (by simp) rest) steps (by omega)) rfl, hset]
          rfl
      | cons member' members =>
          rw [stringifyMembers_cons] at hsteps ⊢
          simp only [List.length_append, List.length_cons] at hsteps
          rw [List.append_assoc, List.cons_append, List.append_assoc, List.cons_append,
            parseMembers_quote steps first key
              (hvalue _ (over_cons (by simp) _) steps (by omega)) rfl, hset]
          have hrest :
              Enumerated (((first ++ [(key, value)]) ++ member' :: members).map Prod.fst) := by
            rw [List.append_assoc, List.singleton_append]
            apply henumerated
          apply (ih (List.cons_ne_nil _ _)
            (fun member hmem => h member (List.mem_cons_of_mem _ hmem)) _ hrest
            steps (by omega)).trans
          rw [List.append_assoc, List.singleton_append]

theorem Ordered.reads {value : Json N} (h : Ordered value) :
  Reads value
  := by
  induction h with
  | null =>
      intro rest hrest steps hsteps
      have hpos := length_stringify_pos (.null : Json N)
      apply parseValue_scalar (c := 'n') rfl (by decide) (by decide) rfl (by omega)
  | bool value =>
      intro rest hrest steps hsteps
      have hpos := length_stringify_pos (.bool value : Json N)
      cases value with
      | false => apply parseValue_scalar (c := 'f') rfl (by decide) (by decide) rfl (by omega)
      | true => apply parseValue_scalar (c := 't') rfl (by decide) (by decide) rfl (by omega)
  | number value => apply reads_number
  | string value => apply reads_string
  | @array items h ih =>
      intro rest hrest steps hsteps
      rw [stringify, List.length_append, List.length_cons, List.length_singleton] at hsteps
      obtain ⟨steps, rfl⟩ := Nat.exists_eq_succ_of_ne_zero (n := steps) (by omega)
      rw [stringify, List.cons_append, List.cons_append, List.append_assoc, List.singleton_append,
        parseValue, skipWhitespace_cons rfl]
      cases items with
      | nil => rfl
      | cons item items =>
          have hparse := parseItems_stringifyItems (List.cons_ne_nil item items) ih [] rest
            steps (by omega)
          obtain ⟨c, text, htext, hspace, hend, -⟩ := stringifyItems_eq_cons item items
          rw [htext, List.cons_append] at hparse ⊢
          simp only [skipWhitespace_cons hspace]
          split
          · next heq => apply absurd (List.cons.inj heq).1 hend
          · apply hparse
  | @object members henumerated h ih =>
      intro rest hrest steps hsteps
      rw [stringify, List.length_append, List.length_cons, List.length_singleton] at hsteps
      obtain ⟨steps, rfl⟩ := Nat.exists_eq_succ_of_ne_zero (n := steps) (by omega)
      rw [stringify, List.cons_append, List.cons_append, List.append_assoc, List.singleton_append,
        parseValue, skipWhitespace_cons rfl]
      cases members with
      | nil => rfl
      | cons member members =>
          have hparse := parseMembers_stringifyMembers (List.cons_ne_nil member members) ih []
            henumerated rest steps (by omega)
          obtain ⟨text, htext⟩ := stringifyMembers_eq_cons member members
          rw [htext, List.cons_append] at hparse ⊢
          simp only [skipWhitespace_cons (c := '"') rfl]
          apply hparse

theorem parse_stringify {value : Json N} (h : Ordered value) :
  parse (stringify value) = some value
  := by
  have hread := h.reads [] over_nil (2 * (stringify value).length + 1) (by omega)
  rw [List.append_nil] at hread
  rw [parse, hread]
  rfl

end Reading

/-! ### Values that were read -/

section Values

variable {N : Type}

theorem mem_set {members : List (JsUnits × Json N)} {key : JsUnits} {value : Json N}
    {member : JsUnits × Json N} (h : member ∈ set members key value) :
  member = (key, value) ∨ member ∈ members
  := by
  unfold set at h
  split at h
  · obtain ⟨member', hmember', rfl⟩ := List.mem_map.mp h
    split
    · exact Or.inl rfl
    · exact Or.inr hmember'
  · split at h
    · rcases List.mem_append.mp h with h | h
      · exact Or.inr h
      · exact Or.inl (List.mem_singleton.mp h)
    · rcases List.mem_append.mp h with h | h
      · exact Or.inr ((List.takeWhile_sublist _).mem h)
      · rcases List.mem_cons.mp h with h | h
        · exact Or.inl h
        · exact Or.inr ((List.dropWhile_sublist _).mem h)

/-- The members of an ordered object. -/
def OrderedMembers (members : List (JsUnits × Json N)) : Prop :=
  Enumerated (members.map Prod.fst) ∧ ∀ member ∈ members, Ordered member.2

theorem OrderedMembers.set {members : List (JsUnits × Json N)} (h : OrderedMembers members)
    (key : JsUnits) {value : Json N} (hvalue : Ordered value) :
  OrderedMembers (Json.set members key value)
  := by
  constructor
  · apply h.1.set
  · intro member hmember
    rcases mem_set hmember with rfl | hmember
    · apply hvalue
    · apply h.2 member hmember

variable [JsNumber N]

theorem ordered_of_parseScalar {text rest : List Char} {value : Json N}
    (h : parseScalar text = some (value, rest)) :
  Ordered value
  := by
  unfold parseScalar at h
  split at h
  · obtain ⟨_, _, heq⟩ := Option.map_eq_some_iff.mp h
    cases heq
    apply Ordered.string
  · cases h
    apply Ordered.null
  · cases h
    apply Ordered.bool
  · cases h
    apply Ordered.bool
  · obtain ⟨_, _, heq⟩ := Option.map_eq_some_iff.mp h
    cases heq
    apply Ordered.number

theorem ordered_of_steps (steps : ℕ) :
  (∀ {text rest : List Char} {value : Json N},
      parseValue steps text = some (value, rest) → Ordered value) ∧
    (∀ {first : List (Json N)} {text rest : List Char} {value : Json N},
      (∀ item ∈ first, Ordered item) → parseItems steps first text = some (value, rest) →
        Ordered value) ∧
    ∀ {first : List (JsUnits × Json N)} {text rest : List Char} {value : Json N},
      OrderedMembers first → parseMembers steps first text = some (value, rest) → Ordered value
  := by
  induction steps with
  | zero =>
      refine ⟨?_, ?_, ?_⟩
      · intro _ _ _ h
        cases h
      · intro _ _ _ _ _ h
        cases h
      · intro _ _ _ _ _ h
        cases h
  | succ steps ih =>
      obtain ⟨ihvalue, ihitems, ihmembers⟩ := ih
      have hempty : OrderedMembers ([] : List (JsUnits × Json N)) :=
        ⟨⟨List.nodup_nil, List.Pairwise.nil⟩, fun _ hmem => by cases hmem⟩
      refine ⟨?_, ?_, ?_⟩
      · intro text rest value h
        rw [parseValue] at h
        split at h
        · split at h
          · cases h
            apply Ordered.object hempty.1 hempty.2
          · apply ihmembers hempty h
        · split at h
          · cases h
            apply Ordered.array
            intro _ hmem
            cases hmem
          · apply ihitems _ h
            intro _ hmem
            cases hmem
        · apply ordered_of_parseScalar h
      · intro first text rest value hfirst h
        rw [parseItems, Option.bind_eq_bind, Option.bind_eq_some_iff] at h
        obtain ⟨⟨item, text'⟩, hitem, h⟩ := h
        have hall : ∀ item' ∈ item :: first, Ordered item' := by
          intro item' hmem
          rcases List.mem_cons.mp hmem with rfl | hmem
          · apply ihvalue hitem
          · apply hfirst item' hmem
        dsimp only at h
        split at h
        · apply ihitems hall h
        · cases h
          apply Ordered.array
          intro item' hmem
          apply hall item' (List.mem_reverse.mp hmem)
        · cases h
      · intro first text rest value hfirst h
        rw [parseMembers] at h
        split at h
        · rw [Option.bind_eq_bind, Option.bind_eq_some_iff] at h
          obtain ⟨⟨key, text'⟩, hkey, h⟩ := h
          dsimp only at h
          split at h
          · rw [Option.bind_eq_bind, Option.bind_eq_some_iff] at h
            obtain ⟨⟨member, text'⟩, hmember, h⟩ := h
            have hset := hfirst.set key (ihvalue hmember)
            dsimp only at h
            split at h
            · apply ihmembers hset h
            · cases h
              apply Ordered.object hset.1 hset.2
            · cases h
          · cases h
        · cases h

/-- What has been read is ordered. -/
theorem Ordered.of_parse {text : List Char} {value : Json N} (h : parse text = some value) :
  Ordered value
  := by
  rw [parse, Option.bind_eq_bind, Option.bind_eq_some_iff] at h
  obtain ⟨⟨value', rest⟩, hvalue, h⟩ := h
  simp only [Option.bind_eq_bind, Option.bind_eq_some_iff, Option.pure_def, Option.some.injEq]
    at h
  obtain ⟨_, _, rfl⟩ := h
  apply (ordered_of_steps _).1 hvalue

end Values

end Json

/-! ### Natural numbers -/

theorem head_toDigits {n : ℕ} (h : 0 < n) :
  ∃ c rest, Nat.toDigits 10 n = c :: rest ∧ c ≠ '0'
  := by
  induction n using Nat.strong_induction_on with
  | _ n ih =>
      by_cases hlt : n < 10
      · refine ⟨n.digitChar, [], Nat.toDigits_of_lt_base hlt, ?_⟩
        have hall : ∀ n < 10, 0 < n → n.digitChar ≠ '0' := by decide
        apply hall n hlt h
      · obtain ⟨c, rest, hdigits, hc⟩ := ih (n / 10) (by omega) (by omega)
        rw [Nat.toDigits_of_base_le (by decide) (by omega), hdigits]
        exact ⟨c, _, rfl, hc⟩

theorem scanNumber_toDigits (n : ℕ) :
  Json.scanNumber (Nat.toDigits 10 n) = some (Nat.toDigits 10 n, [])
  := by
  have hdigits : ∀ c ∈ Nat.toDigits 10 n, Json.isDigit c = true := by
    intro c hc
    obtain ⟨hlow, hhigh⟩ := charDigit_iff.mp
      (Nat.isDigit_of_mem_toDigits (by decide) (by decide) hc)
    simp [Json.isDigit, hlow, hhigh]
  have hinteger : Json.scanInteger (Nat.toDigits 10 n) = some (Nat.toDigits 10 n, []) := by
    rcases Nat.eq_zero_or_pos n with rfl | hpos
    · rfl
    · obtain ⟨c, rest, heq, hc⟩ := head_toDigits hpos
      rw [heq] at hdigits ⊢
      rw [Json.scanInteger]
      · rw [Json.scanDigits, List.takeWhile_eq_self_iff.mpr hdigits,
          List.dropWhile_eq_nil_iff.mpr hdigits]
        rfl
      · rintro rest' hzero
        apply hc (List.cons.inj hzero).1
  have hsign : (Nat.toDigits 10 n).takeWhile (· = '-') = [] := by
    rw [List.takeWhile_eq_nil_iff]
    intro hpos hminus
    have := hdigits _ (List.get_mem _ ⟨0, hpos⟩)
    rw [of_decide_eq_true hminus] at this
    cases this
  unfold Json.scanNumber
  simp [hsign, hinteger, Json.scanFraction, Json.scanExponent]

/-- The natural numbers are read as they are written. -/
instance exactNatural : ExactNumber ℕ where
  toJsNumber := naturalNumber
  scanNumber_toText n := scanNumber_toDigits n
  ofLiteral_toText n := by
    have hfold := Nat.ofDigitChars_ten_toDigits (n := n)
    rw [Nat.ofDigitChars_eq_foldl] at hfold
    simp only [JsNumber.ofLiteral, JsNumber.toText, Nat.mul_comm _ 10]
    apply hfold
