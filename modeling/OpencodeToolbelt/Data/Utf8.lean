import Mathlib.Data.List.Basic

/-!
# UTF-8

The bytes of a text, and the decoder that reads them one after another. Where a chunk of bytes
ends makes no difference to it.
-/

/-- `new TextEncoder().encode(text)` -/
def utf8Encode (text : List Char) : List UInt8 := text.flatMap String.utf8EncodeChar

/-- The character that stands for bytes that encode none. -/
def replacementCharacter : Char := '\uFFFD'

def byteOrderMark : Char := '\uFEFF'

/-- A decoder between two bytes: how many bytes the character in progress has in all, how many of
them have been seen, what they come to, and the bounds of the next one. -/
structure Utf8Decoder where
  bytesNeeded : ℕ
  bytesSeen : ℕ
  codePoint : ℕ
  lower : ℕ
  upper : ℕ

namespace Utf8Decoder

def initial : Utf8Decoder := ⟨0, 0, 0, 0x80, 0xbf⟩

/-- The first byte of a character. -/
def start (byte : ℕ) : Utf8Decoder × List Char :=
  if byte ≤ 0x7f then (initial, [Char.ofNat byte])
  else if 0xc2 ≤ byte ∧ byte ≤ 0xdf then (⟨1, 0, byte - 0xc0, 0x80, 0xbf⟩, [])
  else if 0xe0 ≤ byte ∧ byte ≤ 0xef then
    (⟨2, 0, byte - 0xe0, if byte = 0xe0 then 0xa0 else 0x80, if byte = 0xed then 0x9f else 0xbf⟩,
      [])
  else if 0xf0 ≤ byte ∧ byte ≤ 0xf4 then
    (⟨3, 0, byte - 0xf0, if byte = 0xf0 then 0x90 else 0x80, if byte = 0xf4 then 0x8f else 0xbf⟩,
      [])
  else (initial, [replacementCharacter])

/-- One byte: the decoder after it, and the characters that it completes. -/
def step (d : Utf8Decoder) (byte : ℕ) : Utf8Decoder × List Char :=
  if d.bytesNeeded = 0 then start byte
  else if byte < d.lower ∨ d.upper < byte then
    -- the character is broken off, and the byte begins another one
    ((start byte).1, replacementCharacter :: (start byte).2)
  else
    let codePoint := d.codePoint * 0x40 + (byte - 0x80)
    if d.bytesSeen + 1 = d.bytesNeeded then (initial, [Char.ofNat codePoint])
    else (⟨d.bytesNeeded, d.bytesSeen + 1, codePoint, 0x80, 0xbf⟩, [])

/-- The characters that some bytes complete. -/
def decode (d : Utf8Decoder) : List UInt8 → Utf8Decoder × List Char
  | [] => (d, [])
  | byte :: bytes =>
      let (d, chars) := d.step byte.toNat
      let (d, rest) := d.decode bytes
      (d, chars ++ rest)

/-- What is left at the end of the bytes. -/
def finish (d : Utf8Decoder) : List Char :=
  if d.bytesNeeded = 0 then [] else [replacementCharacter]

theorem decode_append (d : Utf8Decoder) (bytes bytes' : List UInt8) :
  d.decode (bytes ++ bytes') =
    (((d.decode bytes).1.decode bytes').1,
      (d.decode bytes).2 ++ ((d.decode bytes).1.decode bytes').2)
  := by
  induction bytes generalizing d with
  | nil => rfl
  | cons byte bytes ih => simp only [List.cons_append, decode, ih, List.append_assoc]

theorem start_two {b : ℕ} (hlow : 0xc2 ≤ b) (hhigh : b ≤ 0xdf) :
  start b = (⟨1, 0, b - 0xc0, 0x80, 0xbf⟩, [])
  := by
  unfold start
  rw [if_neg (by omega), if_pos ⟨hlow, hhigh⟩]

theorem start_three {b : ℕ} (hlow : 0xe0 ≤ b) (hhigh : b ≤ 0xef) :
  start b =
    (⟨2, 0, b - 0xe0, if b = 0xe0 then 0xa0 else 0x80, if b = 0xed then 0x9f else 0xbf⟩, [])
  := by
  unfold start
  rw [if_neg (by omega), if_neg (by omega), if_pos ⟨hlow, hhigh⟩]

theorem start_four {b : ℕ} (hlow : 0xf0 ≤ b) (hhigh : b ≤ 0xf4) :
  start b =
    (⟨3, 0, b - 0xf0, if b = 0xf0 then 0x90 else 0x80, if b = 0xf4 then 0x8f else 0xbf⟩, [])
  := by
  unfold start
  rw [if_neg (by omega), if_neg (by omega), if_neg (by omega), if_pos ⟨hlow, hhigh⟩]

theorem step_initial (b : ℕ) :
  initial.step b = start b
  := by
  apply if_pos rfl

theorem step_more {d : Utf8Decoder} {b : ℕ} (hlow : d.lower ≤ b) (hhigh : b ≤ d.upper)
    (hmore : d.bytesSeen + 1 < d.bytesNeeded) :
  d.step b =
    (⟨d.bytesNeeded, d.bytesSeen + 1, d.codePoint * 0x40 + (b - 0x80), 0x80, 0xbf⟩, [])
  := by
  unfold step
  rw [if_neg (by omega), if_neg (by omega)]
  apply if_neg (by omega)

theorem step_last {d : Utf8Decoder} {b : ℕ} (hlow : d.lower ≤ b) (hhigh : b ≤ d.upper)
    (hlast : d.bytesSeen + 1 = d.bytesNeeded) :
  d.step b = (initial, [Char.ofNat (d.codePoint * 0x40 + (b - 0x80))])
  := by
  unfold step
  rw [if_neg (by omega), if_neg (by omega)]
  apply if_pos hlast

theorem toNat_byte {n : ℕ} (h : n < 256) :
  (UInt8.ofNat n).toNat = n
  := by
  rw [UInt8.toNat_ofNat']
  apply Nat.mod_eq_of_lt h

theorem decode_cons {d d' : Utf8Decoder} {n : ℕ} {chars : List Char} (hn : n < 256)
    (h : d.step n = (d', chars)) (bytes : List UInt8) :
  d.decode (.ofNat n :: bytes) = ((d'.decode bytes).1, chars ++ (d'.decode bytes).2)
  := by
  simp only [decode, toNat_byte hn, h]

/-- A character is decoded from its bytes. -/
theorem decode_utf8EncodeChar (c : Char) :
  initial.decode (String.utf8EncodeChar c) = (initial, [c])
  := by
  have hvalid : c.val.toNat < 0xd800 ∨ 0xdfff < c.val.toNat ∧ c.val.toNat < 0x110000 := c.valid
  have hchar : ∀ n, n = c.val.toNat → Char.ofNat n = c := by
    rintro n rfl
    apply Char.ofNat_toNat
  change initial.decode (if c.val.toNat ≤ 0x7f then _ else _) = _
  split
  · next hone =>
      have h₁ : initial.step c.val.toNat = (initial, [c]) := by
        rw [step_initial, start, if_pos hone, hchar _ rfl]
      rw [decode_cons (by omega) h₁]
      rfl
  split
  · have h₁ : initial.step (c.val.toNat / 64 % 0x20 + 0xc0) =
        (⟨1, 0, c.val.toNat / 64 % 0x20 + 0xc0 - 0xc0, 0x80, 0xbf⟩, []) := by
      rw [step_initial, start_two (by omega) (by omega)]
    have h₂ : step ⟨1, 0, c.val.toNat / 64 % 0x20 + 0xc0 - 0xc0, 0x80, 0xbf⟩
        (c.val.toNat % 0x40 + 0x80) = (initial, [c]) := by
      rw [step_last (Nat.le_add_left _ _) (by dsimp only; omega) rfl, hchar _ (by dsimp only; omega)]
    rw [decode_cons (by omega) h₁, decode_cons (by omega) h₂]
    rfl
  split
  · let lower := if c.val.toNat / 4096 % 0x10 + 0xe0 = 0xe0 then 0xa0 else 0x80
    let upper := if c.val.toNat / 4096 % 0x10 + 0xe0 = 0xed then 0x9f else 0xbf
    let codePoint := c.val.toNat / 4096 % 0x10 + 0xe0 - 0xe0
    let codePoint' := codePoint * 0x40 + (c.val.toNat / 64 % 0x40 + 0x80 - 0x80)
    have h₁ : initial.step (c.val.toNat / 4096 % 0x10 + 0xe0) =
        (⟨2, 0, codePoint, lower, upper⟩, []) := by
      rw [step_initial, start_three (by omega) (by omega)]
    have h₂ : step ⟨2, 0, codePoint, lower, upper⟩ (c.val.toNat / 64 % 0x40 + 0x80) =
        (⟨2, 1, codePoint', 0x80, 0xbf⟩, []) := by
      apply step_more
      · dsimp only [lower]
        split <;> omega
      · dsimp only [upper]
        split <;> omega
      · exact Nat.lt_succ_self 1
    have h₃ : step ⟨2, 1, codePoint', 0x80, 0xbf⟩ (c.val.toNat % 0x40 + 0x80) =
        (initial, [c]) := by
      rw [step_last (Nat.le_add_left _ _) (by dsimp only; omega) rfl,
        hchar _ (by dsimp only [codePoint', codePoint]; omega)]
    rw [decode_cons (by omega) h₁, decode_cons (by omega) h₂, decode_cons (by omega) h₃]
    rfl
  · let lower := if c.val.toNat / 262144 % 0x08 + 0xf0 = 0xf0 then 0x90 else 0x80
    let upper := if c.val.toNat / 262144 % 0x08 + 0xf0 = 0xf4 then 0x8f else 0xbf
    let codePoint := c.val.toNat / 262144 % 0x08 + 0xf0 - 0xf0
    let codePoint' := codePoint * 0x40 + (c.val.toNat / 4096 % 0x40 + 0x80 - 0x80)
    let codePoint'' := codePoint' * 0x40 + (c.val.toNat / 64 % 0x40 + 0x80 - 0x80)
    have h₁ : initial.step (c.val.toNat / 262144 % 0x08 + 0xf0) =
        (⟨3, 0, codePoint, lower, upper⟩, []) := by
      rw [step_initial, start_four (by omega) (by omega)]
    have h₂ : step ⟨3, 0, codePoint, lower, upper⟩ (c.val.toNat / 4096 % 0x40 + 0x80) =
        (⟨3, 1, codePoint', 0x80, 0xbf⟩, []) := by
      apply step_more
      · dsimp only [lower]
        split <;> omega
      · dsimp only [upper]
        split <;> omega
      · exact Nat.lt_succ_of_lt (Nat.lt_succ_self 1)
    have h₃ : step ⟨3, 1, codePoint', 0x80, 0xbf⟩ (c.val.toNat / 64 % 0x40 + 0x80) =
        (⟨3, 2, codePoint'', 0x80, 0xbf⟩, []) := by
      apply step_more
      · exact Nat.le_add_left _ _
      · dsimp only
        omega
      · exact Nat.lt_succ_self 2
    have h₄ : step ⟨3, 2, codePoint'', 0x80, 0xbf⟩ (c.val.toNat % 0x40 + 0x80) =
        (initial, [c]) := by
      rw [step_last (Nat.le_add_left _ _) (by dsimp only; omega) rfl,
        hchar _ (by dsimp only [codePoint'', codePoint', codePoint]; omega)]
    rw [decode_cons (by omega) h₁, decode_cons (by omega) h₂, decode_cons (by omega) h₃,
      decode_cons (by omega) h₄]
    rfl

/-- A text is decoded from its bytes. -/
theorem decode_utf8Encode (text : List Char) :
  initial.decode (utf8Encode text) = (initial, text)
  := by
  induction text with
  | nil => rfl
  | cons c text ih =>
      change initial.decode (String.utf8EncodeChar c ++ utf8Encode text) = _
      rw [decode_append, decode_utf8EncodeChar]
      dsimp only
      rw [ih]
      rfl

end Utf8Decoder

theorem utf8Encode_append (text text' : List Char) :
  utf8Encode (text ++ text') = utf8Encode text ++ utf8Encode text'
  := by
  apply List.flatMap_append

theorem utf8Encode_injective :
  Function.Injective utf8Encode
  := by
  intro text text' h
  have hdecode := Utf8Decoder.decode_utf8Encode text
  rw [h, Utf8Decoder.decode_utf8Encode text'] at hdecode
  apply (Prod.mk.inj hdecode).2.symm

/-- `new TextDecoder()` -/
structure TextDecoder where
  utf8 : Utf8Decoder
  bomSeen : Bool

namespace TextDecoder

def initial : TextDecoder := ⟨.initial, false⟩

/-- The characters that come out, without a byte order mark at their very beginning. -/
def serialize (bomSeen : Bool) (chars : List Char) : Bool × List Char :=
  match chars with
  | [] => (bomSeen, [])
  | c :: chars => (true, if !bomSeen && c = byteOrderMark then chars else c :: chars)

/-- `decoder.decode(bytes, { stream: true })` -/
def decode (d : TextDecoder) (bytes : List UInt8) : TextDecoder × List Char :=
  let (utf8, chars) := d.utf8.decode bytes
  let (bomSeen, chars) := serialize d.bomSeen chars
  (⟨utf8, bomSeen⟩, chars)

/-- `decoder.decode()` -/
def finish (d : TextDecoder) : List Char := (serialize d.bomSeen d.utf8.finish).2

theorem decode_nil (d : TextDecoder) :
  d.decode [] = (d, [])
  := rfl

/-- Where a chunk ends makes no difference to the characters that come out. -/
theorem decode_append (d : TextDecoder) (bytes bytes' : List UInt8) :
  d.decode (bytes ++ bytes') =
    (((d.decode bytes).1.decode bytes').1,
      (d.decode bytes).2 ++ ((d.decode bytes).1.decode bytes').2)
  := by
  have hserialize : ∀ bomSeen (chars chars' : List Char), serialize bomSeen (chars ++ chars') =
      ((serialize (serialize bomSeen chars).1 chars').1,
        (serialize bomSeen chars).2 ++ (serialize (serialize bomSeen chars).1 chars').2) := by
    intro bomSeen chars chars'
    cases chars with
    | nil => rfl
    | cons c chars =>
        cases chars' with
        | nil => simp [serialize]
        | cons c' chars' =>
            simp only [serialize, List.cons_append]
            split
            · rfl
            · rfl
  unfold decode
  rw [Utf8Decoder.decode_append]
  dsimp only
  rw [hserialize]

/-- A text is decoded from its bytes, but for a byte order mark at its beginning. -/
theorem decode_utf8Encode (text : List Char) :
  (initial.decode (utf8Encode text)).1.finish = [] ∧
    (initial.decode (utf8Encode text)).2 =
      if text.head? = some byteOrderMark then text.tail else text
  := by
  have hdecode := Utf8Decoder.decode_utf8Encode text
  unfold decode
  constructor
  · change (serialize _ (Utf8Decoder.decode _ _).1.finish).2 = []
    change (serialize _ (Utf8Decoder.initial.decode (utf8Encode text)).1.finish).2 = []
    rw [hdecode]
    rfl
  · change (serialize false (Utf8Decoder.initial.decode (utf8Encode text)).2).2 = _
    rw [hdecode]
    cases text with
    | nil => rfl
    | cons c text => simp [serialize]

end TextDecoder
