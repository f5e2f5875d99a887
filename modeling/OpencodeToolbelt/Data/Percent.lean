import OpencodeToolbelt.Data.Url
import OpencodeToolbelt.Data.Utf16

/-!
# Percent-encoding of strings

A string is encoded character by character: some characters are kept, the bytes of all others are
escaped. A string that is no text cannot be encoded. When it is decoded, the escapes of some
characters are kept.
-/

namespace Percent

/-! ### Encoding -/

/-- What both encodings keep. -/
def isUnreserved (c : Char) : Bool :=
  c.isAlphanum || c ∈ ['-', '_', '.', '!', '~', '*', '(', ')'] || c.toNat = 0x27

/-- What has a meaning of its own in a URI. -/
def isReserved (c : Char) : Bool := c ∈ [';', '/', '?', ':', '@', '&', '=', '+', '$', ',', '#']

/-- The encoding that keeps some characters, which fails for halves of surrogate pairs. -/
def encode (kept : Char → Bool) (s : JsUnits) : Option JsUnits :=
  if isWellFormed s then
    some (unitsOfText (Url.percentEncode (fun c => !kept c) (wellFormedText s)))
  else none

/-- `encodeURIComponent(s)` -/
def encodeURIComponent (s : JsUnits) : Option JsUnits := encode isUnreserved s

/-- `encodeURI(s)` -/
def encodeURI (s : JsUnits) : Option JsUnits := encode (fun c => isUnreserved c || isReserved c) s

/-! ### Decoding -/

/-- A piece of an encoded string: a unit, or a byte and the two digits that it is written in. -/
inductive Piece where
  | unit (u : UInt16)
  | escape (high low : UInt16) (byte : UInt8)

/-- The value of a hexadecimal digit. -/
def hexUnit (u : UInt16) : Option ℕ := Json.hexValue (Char.ofNat u.toNat)

/-- The pieces of a string, unless a percent sign is followed by anything but two digits. -/
def pieces : JsUnits → Option (List Piece)
  | [] => some []
  | u :: rest =>
      if u = 0x25 then
        match rest with
        | high :: low :: rest => do
            let byte := UInt8.ofNat ((← hexUnit high) * 16 + (← hexUnit low))
            return .escape high low byte :: (← pieces rest)
        | _ => none
      else (pieces rest).map (.unit u :: ·)

/-- How many bytes a character has that begins with a byte, which is not of ASCII. -/
def sizeFrom (byte : ℕ) : Option ℕ :=
  if byte < 0xc0 then none
  else if byte < 0xe0 then some 2
  else if byte < 0xf0 then some 3
  else if byte < 0xf8 then some 4
  else none

/-- The character that some bytes encode. -/
def characterOf (bytes : List UInt8) : Option Char :=
  match (Utf8Decoder.initial.decode bytes).2 with
  | [c] => if String.utf8EncodeChar c = bytes then some c else none
  | _ => none

/-- The string of some pieces, where some bytes of a character have been seen and as many are
still needed as the number says. -/
def decodePieces (preserved : Char → Bool) : List UInt8 → ℕ → List Piece → Option JsUnits
  | _, 0, [] => some []
  | _, _ + 1, [] => none
  | _, 0, .unit u :: rest => (decodePieces preserved [] 0 rest).map (u :: ·)
  | _, _ + 1, .unit _ :: _ => none
  | _, 0, .escape high low byte :: rest =>
      if byte.toNat < 0x80 then
        let c := Char.ofNat byte.toNat
        let s := if preserved c then [0x25, high, low] else unitsOf c
        (decodePieces preserved [] 0 rest).map (s ++ ·)
      else (sizeFrom byte.toNat).bind fun size => decodePieces preserved [byte] (size - 1) rest
  | seen, needed + 1, .escape _ _ byte :: rest =>
      if byte.toNat < 0x80 ∨ 0xbf < byte.toNat then none
      else if needed = 0 then
        (characterOf (seen ++ [byte])).bind fun c =>
          (decodePieces preserved [] 0 rest).map (unitsOf c ++ ·)
      else decodePieces preserved (seen ++ [byte]) needed rest

/-- The decoding that keeps the escapes of some characters. -/
def decode (preserved : Char → Bool) (s : JsUnits) : Option JsUnits :=
  (pieces s).bind (decodePieces preserved [] 0)

/-- `decodeURIComponent(s)` -/
def decodeURIComponent (s : JsUnits) : Option JsUnits := decode (fun _ => false) s

/-- `decodeURI(s)` -/
def decodeURI (s : JsUnits) : Option JsUnits := decode isReserved s

/-! ### Pieces of what is encoded -/

/-- The pieces of a byte's escape. -/
def escapeOf (byte : UInt8) : Piece :=
  .escape (.ofNat (Json.hexDigit (byte.toNat / 16)).toUpper.toNat)
    (.ofNat (Json.hexDigit (byte.toNat % 16)).toUpper.toNat) byte

theorem pieces_unit {u : UInt16} (h : u ≠ 0x25) (rest : JsUnits) :
  pieces (u :: rest) = (pieces rest).map (.unit u :: ·)
  := by
  conv_lhs => unfold pieces
  apply if_neg h

theorem hexDigit_upper {d : ℕ} (h : d < 16) :
  (Json.hexDigit d).toUpper.toNat < 0x80 ∧
    hexUnit (.ofNat (Json.hexDigit d).toUpper.toNat) = some d
  := by
  have hall : ∀ d < 16, (Json.hexDigit d).toUpper.toNat < 0x80 ∧
      hexUnit (.ofNat (Json.hexDigit d).toUpper.toNat) = some d := by decide
  apply hall d h

/-- An escape is one piece. -/
theorem pieces_encodeByte (byte : UInt8) (rest : JsUnits) :
  pieces (unitsOfText (Url.encodeByte byte) ++ rest) = (pieces rest).map (escapeOf byte :: ·)
  := by
  have hlt := byte.toNat_lt
  obtain ⟨hhigh, hhighValue⟩ := hexDigit_upper (d := byte.toNat / 16) (by omega)
  obtain ⟨hlow, hlowValue⟩ := hexDigit_upper (d := byte.toNat % 16) (by omega)
  have hunits : unitsOfText (Url.encodeByte byte) =
      [0x25, .ofNat (Json.hexDigit (byte.toNat / 16)).toUpper.toNat,
        .ofNat (Json.hexDigit (byte.toNat % 16)).toUpper.toNat] := by
    simp only [Url.encodeByte, unitsOfText, List.flatMap_cons, List.flatMap_nil,
      unitsOf_single (Nat.lt_of_lt_of_le hhigh (by decide)),
      unitsOf_single (Nat.lt_of_lt_of_le hlow (by decide)), List.singleton_append]
    rfl
  have hbyte : UInt8.ofNat (byte.toNat / 16 * 16 + byte.toNat % 16) = byte := by
    rw [show byte.toNat / 16 * 16 + byte.toNat % 16 = byte.toNat by omega, UInt8.ofNat_toNat]
  rw [hunits, List.cons_append, List.cons_append, List.cons_append, List.nil_append, pieces,
    if_pos rfl]
  dsimp only
  rw [hhighValue, hlowValue]
  simp only [Option.bind_eq_bind, Option.bind_some, hbyte]
  cases pieces rest with
  | none => rfl
  | some rest => rfl

/-- What is not a percent sign is a piece, or two, of its own. -/
theorem pieces_unitsOf {c : Char} (h : c ≠ '%') (rest : JsUnits) :
  pieces (unitsOf c ++ rest) = (pieces rest).map ((unitsOf c).map .unit ++ ·)
  := by
  have hvalid : c.toNat < 0xd800 ∨ 0xdfff < c.toNat ∧ c.toNat < 0x110000 := c.valid
  by_cases hsingle : c.toNat < 0x10000
  · rw [unitsOf_single hsingle, List.singleton_append, pieces_unit]
    · rfl
    · intro heq
      apply h
      have htoNat := congrArg UInt16.toNat heq
      rw [toNat_unit hsingle] at htoNat
      rw [← Char.ofNat_toNat c, htoNat]
      rfl
  · have hne : ∀ n, 0xd800 ≤ n → n < 0xe000 → UInt16.ofNat n ≠ 0x25 := by
      intro n hlow hhigh heq
      have htoNat := congrArg UInt16.toNat heq
      rw [toNat_unit (by omega)] at htoNat
      have hvalue : (0x25 : UInt16).toNat = 0x25 := rfl
      omega
    rw [unitsOf_pair hsingle, List.cons_append, List.cons_append, List.nil_append,
      pieces_unit (hne _ (by omega) (by omega)), pieces_unit (hne _ (by omega) (by omega)),
      Option.map_map]
    rfl

/-! ### Reading pieces -/

theorem characterOf_utf8EncodeChar (c : Char) :
  characterOf (String.utf8EncodeChar c) = some c
  := by
  rw [characterOf, Utf8Decoder.decode_utf8EncodeChar]
  dsimp only
  rw [if_pos rfl]

/-- Units stand for themselves. -/
theorem decodePieces_units (preserved : Char → Bool) (s : JsUnits) (rest : List Piece) :
  decodePieces preserved [] 0 (s.map .unit ++ rest) =
    (decodePieces preserved [] 0 rest).map (s ++ ·)
  := by
  induction s with
  | nil => simp
  | cons u s ih =>
      rw [List.map_cons, List.cons_append, decodePieces, ih, Option.map_map]
      rfl

/-- A byte of a character in progress. -/
theorem decodePieces_more {preserved : Char → Bool} {seen : List UInt8} {needed : ℕ} {n : ℕ}
    (hlow : 0x80 ≤ n) (hhigh : n ≤ 0xbf) (hneeded : needed ≠ 0) (rest : List Piece) :
  decodePieces preserved seen (needed + 1) (escapeOf (.ofNat n) :: rest) =
    decodePieces preserved (seen ++ [.ofNat n]) needed rest
  := by
  rw [escapeOf, decodePieces, Utf8Decoder.toNat_byte (by omega), if_neg (by omega),
    if_neg hneeded]

/-- The last byte of a character. -/
theorem decodePieces_last {preserved : Char → Bool} {seen : List UInt8} {n : ℕ}
    (hlow : 0x80 ≤ n) (hhigh : n ≤ 0xbf) (rest : List Piece) :
  decodePieces preserved seen 1 (escapeOf (.ofNat n) :: rest) =
    (characterOf (seen ++ [.ofNat n])).bind fun c =>
      (decodePieces preserved [] 0 rest).map (unitsOf c ++ ·)
  := by
  rw [escapeOf, decodePieces, Utf8Decoder.toNat_byte (by omega), if_neg (by omega), if_pos rfl]

/-- The first byte of a character of several. -/
theorem decodePieces_first {preserved : Char → Bool} {n size : ℕ} (hlow : 0x80 ≤ n)
    (hn : n < 256) (hsize : sizeFrom n = some size) (rest : List Piece) :
  decodePieces preserved [] 0 (escapeOf (.ofNat n) :: rest) =
    decodePieces preserved [.ofNat n] (size - 1) rest
  := by
  rw [escapeOf, decodePieces, Utf8Decoder.toNat_byte hn, if_neg (by omega), hsize,
    Option.bind_some]

theorem sizeFrom_two {n : ℕ} (hlow : 0xc0 ≤ n) (hhigh : n < 0xe0) :
  sizeFrom n = some 2
  := by rw [sizeFrom, if_neg (by omega), if_pos hhigh]

theorem sizeFrom_three {n : ℕ} (hlow : 0xe0 ≤ n) (hhigh : n < 0xf0) :
  sizeFrom n = some 3
  := by rw [sizeFrom, if_neg (by omega), if_neg (by omega), if_pos hhigh]

theorem sizeFrom_four {n : ℕ} (hlow : 0xf0 ≤ n) (hhigh : n < 0xf8) :
  sizeFrom n = some 4
  := by rw [sizeFrom, if_neg (by omega), if_neg (by omega), if_neg (by omega), if_pos hhigh]

/-- A character is read from its escapes, unless these are kept. -/
theorem decodePieces_escaped {preserved : Char → Bool} {c : Char} (hc : preserved c = false)
    (rest : List Piece) :
  decodePieces preserved [] 0 ((String.utf8EncodeChar c).map escapeOf ++ rest) =
    (decodePieces preserved [] 0 rest).map (unitsOf c ++ ·)
  := by
  have hvalid : c.val.toNat < 0xd800 ∨ 0xdfff < c.val.toNat ∧ c.val.toNat < 0x110000 := c.valid
  have hcharacter := characterOf_utf8EncodeChar c
  have hbytes : String.utf8EncodeChar c = if c.val.toNat ≤ 0x7f then _ else _ := rfl
  rw [hbytes] at hcharacter ⊢
  revert hcharacter
  split
  · next hone =>
      intro _
      have hchar : Char.ofNat c.val.toNat = c := Char.ofNat_toNat c
      rw [List.map_singleton, List.singleton_append, escapeOf, decodePieces,
        Utf8Decoder.toNat_byte (by omega), if_pos (by omega)]
      dsimp only
      rw [hchar, hc, if_neg (by decide)]
  split
  · simp only [List.map_cons, List.map_nil, List.cons_append, List.nil_append]
    intro hcharacter
    rw [decodePieces_first (by omega) (by omega) (sizeFrom_two (by omega) (by omega)),
      decodePieces_last (by omega) (by omega), List.singleton_append, hcharacter,
      Option.bind_some]
  split
  · simp only [List.map_cons, List.map_nil, List.cons_append, List.nil_append]
    intro hcharacter
    rw [decodePieces_first (by omega) (by omega) (sizeFrom_three (by omega) (by omega)),
      decodePieces_more (by omega) (by omega) (by decide),
      decodePieces_last (by omega) (by omega), List.singleton_append, List.cons_append,
      List.singleton_append, hcharacter, Option.bind_some]
  · simp only [List.map_cons, List.map_nil, List.cons_append, List.nil_append]
    intro hcharacter
    rw [decodePieces_first (by omega) (by omega) (sizeFrom_four (by omega) (by omega)),
      decodePieces_more (by omega) (by omega) (by decide),
      decodePieces_more (by omega) (by omega) (by decide),
      decodePieces_last (by omega) (by omega), List.singleton_append, List.cons_append,
      List.singleton_append, List.cons_append, List.cons_append, List.singleton_append, hcharacter,
      Option.bind_some]

/-! ### Round trips -/

/-- A text as it has been encoded. -/
def escaped (kept : Char → Bool) (text : List Char) : JsUnits :=
  unitsOfText (Url.percentEncode (fun c => !kept c) text)

theorem escaped_cons (kept : Char → Bool) (c : Char) (text : List Char) :
  escaped kept (c :: text) =
    (if kept c then unitsOf c
      else (String.utf8EncodeChar c).flatMap fun byte => unitsOfText (Url.encodeByte byte)) ++
      escaped kept text
  := by
  simp only [escaped, Url.percentEncode, unitsOfText, List.flatMap_cons, List.flatMap_append]
  by_cases hc : kept c = true
  · simp [hc]
  · simp [hc, utf8Encode, List.flatMap_assoc]

/-- The pieces of a character's escapes. -/
theorem pieces_escapes (bytes : List UInt8) (rest : JsUnits) :
  pieces ((bytes.flatMap fun byte => unitsOfText (Url.encodeByte byte)) ++ rest) =
    (pieces rest).map (bytes.map escapeOf ++ ·)
  := by
  induction bytes with
  | nil => simp
  | cons byte bytes ih =>
      rw [List.flatMap_cons, List.append_assoc, pieces_encodeByte, ih, Option.map_map]
      rfl

/-- What has been encoded is decoded as the text that it was, if the percent sign is not kept and
only escapes of what is kept in the encoding are kept in the decoding. -/
theorem decode_escaped {kept preserved : Char → Bool} (hpercent : kept '%' = false)
    (h : ∀ c, preserved c = true → kept c = true) (text : List Char) :
  decode preserved (escaped kept text) = some (unitsOfText text)
  := by
  have hpieces : ∃ ps, pieces (escaped kept text) = some ps ∧
      decodePieces preserved [] 0 ps = some (unitsOfText text) := by
    induction text with
    | nil => exact ⟨[], rfl, rfl⟩
    | cons c text ih =>
        obtain ⟨ps, hps, hdecode⟩ := ih
        rw [escaped_cons]
        by_cases hc : kept c = true
        · have hne : c ≠ '%' := by
            rintro rfl
            rw [hpercent] at hc
            cases hc
          rw [if_pos hc, pieces_unitsOf hne, hps, Option.map_some]
          refine ⟨_, rfl, ?_⟩
          rw [decodePieces_units, hdecode]
          rfl
        · have hpreserved : preserved c = false := by
            rw [← Bool.not_eq_true]
            exact fun htrue => hc (h c htrue)
          rw [if_neg hc, pieces_escapes, hps, Option.map_some]
          refine ⟨_, rfl, ?_⟩
          rw [decodePieces_escaped hpreserved, hdecode]
          rfl
  obtain ⟨ps, hps, hdecode⟩ := hpieces
  rw [decode, hps, Option.bind_some, hdecode]

/-- A string can be encoded exactly if it is a text, and is then decoded as what it was. -/
theorem decode_encode {kept preserved : Char → Bool} (hpercent : kept '%' = false)
    (h : ∀ c, preserved c = true → kept c = true) (s : JsUnits) :
  (encode kept s).bind (decode preserved) = if isWellFormed s then some s else none
  := by
  rw [encode]
  split
  · next hs =>
      rw [Option.bind_some]
      change decode preserved (escaped kept (wellFormedText s)) = _
      rw [decode_escaped hpercent h]
      change some (toWellFormed s) = _
      rw [toWellFormed_of_isWellFormed hs]
  · rfl

end Percent
