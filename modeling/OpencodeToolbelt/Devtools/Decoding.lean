import OpencodeToolbelt.Devtools.Codec

/-!
# What has been encoded is decoded

Each of the tools reads what it has written itself, also where others have broken it into lines,
put it in capitals or left out what fills it up.
-/

namespace Devtools

open Identifiers (hex unhex hexByte)

variable {N : Type}

/-! ### Buffers -/

/-- A buffer of a string gives the string back, but for halves of surrogate pairs. -/
theorem bufferText_bufferOf (s : JsUnits) :
  bufferText (bufferOf s) = toWellFormed s
  := by
  rw [bufferText, bufferOf, Utf8Decoder.decode_utf8Encode]
  dsimp only
  rw [show Utf8Decoder.initial.finish = [] from rfl, List.append_nil, toWellFormed]

/-! ### Hexadecimal digits -/

theorem isDigitIn_hexByte {byte : UInt8} {c : Char} (h : c ∈ hexByte byte) :
  isDigitIn 16 c = true
  := by
  have hlt := byte.toNat_lt
  have hdigit : ∀ d < 16, isDigitIn 16 (digit36 d) = true := by
    intro d hd
    rw [isDigitIn_iff]
    exact ⟨d, digitValue_digit36 (by omega), hd⟩
  simp only [hexByte, List.mem_cons, List.not_mem_nil, or_false] at h
  obtain rfl | rfl := h
  · apply hdigit _ (by omega)
  · apply hdigit _ (by omega)

theorem isDigitIn_hex {bytes : List UInt8} {c : Char} (h : c ∈ hex bytes) :
  isDigitIn 16 c = true
  := by
  obtain ⟨byte, -, hc⟩ := List.mem_flatMap.mp h
  apply isDigitIn_hexByte hc

theorem unhex_map_toLower (digits : List Char) :
  unhex (digits.map Char.toLower) = unhex digits
  := by
  induction digits using Identifiers.unhex.induct with
  | case1 high low rest ih =>
      rw [List.map_cons, List.map_cons, unhex, unhex, ih, digitValue_toLower, digitValue_toLower]
  | case2 digits h =>
      cases digits with
      | nil => rfl
      | cons high digits =>
          cases digits with
          | nil => rfl
          | cons low digits => apply absurd rfl (h high low digits)

/-- A string whose characters are digits has a unit for each of them. -/
theorem hexUnits_of_digits {s : JsUnits} (h : ∀ c ∈ wellFormedText s, isDigitIn 16 c = true) :
  s.all isHexUnit = true ∧ (wellFormedText s).length = s.length
  := by
  induction s using wellFormedText.induct with
  | case1 => exact ⟨rfl, rfl⟩
  | case2 u =>
      have hu := h (charOfUnit u) List.mem_cons_self
      exact ⟨by rw [List.all_cons, isHexUnit, hu, List.all_nil, Bool.and_self], rfl⟩
  | case3 u v rest hpair ih =>
      rw [wellFormedText, if_pos hpair] at h
      obtain ⟨d, hd, -⟩ := isDigitIn_iff.mp (h _ List.mem_cons_self)
      have hhigh := Json.isHighSurrogate_iff.mp hpair.1
      have hlow := Json.isLowSurrogate_iff.mp hpair.2
      have htoNat : (pairedChar u v).toNat =
          0x10000 + (u.toNat - 0xd800) * 0x400 + (v.toNat - 0xdc00) := Json.toNat_ofNat (by omega)
      unfold digitValue at hd
      dsimp only at hd
      rw [if_neg (by omega), if_neg (by omega), if_neg (by omega)] at hd
      cases hd
  | case4 u v rest hpair ih =>
      rw [wellFormedText, if_neg hpair] at h ⊢
      obtain ⟨hall, hlength⟩ := ih fun c hc => h c (List.mem_cons_of_mem _ hc)
      constructor
      · rw [List.all_cons, isHexUnit, h _ List.mem_cons_self, hall, Bool.and_self]
      · rw [List.length_cons, hlength, List.length_cons (a := u)]

/-! ### Bytes -/

/-- The tools that write the bytes of a text. -/
inductive ByteCoder where
  | base64
  | hex
  | gzip

namespace ByteCoder

def run [JsNumber N] (zlib : Zlib) : ByteCoder → Args N → Except String (NeutralResult N)
  | base64 => codecBase64
  | hex => codecHex
  | gzip => codecGzip zlib

/-- The mode that writes. -/
def forward : ByteCoder → String
  | gzip => "compress"
  | _ => "encode"

/-- The mode that reads. -/
def backward : ByteCoder → String
  | gzip => "decompress"
  | _ => "decode"

/-- What may become of an encoded text on its way: its digits stay, in either alphabet, while all
else may be lost or added. Between hexadecimal digits, only blanks may be added, and the digits may
be put in capitals. -/
def SameText : ByteCoder → JsUnits → JsUnits → Prop
  | hex, input, out =>
      (wellFormedText (withoutBlanks input)).map Char.toLower = wellFormedText out
  | _, input, out => Base64.SameDigits (wellFormedText input) (wellFormedText out)

/-- The options in which two calls have to agree. -/
def Alike : ByteCoder → Args N → Args N → Prop
  | gzip, args, args' => isDeflate args' = isDeflate args
  | _, _, _ => True

/-- Strings that are not too long to be read again. -/
def Fits : ByteCoder → JsUnits → Prop
  | gzip, s => (bufferOf s).length ≤ MAX_DECOMPRESSED_BYTES
  | _, _ => True

end ByteCoder

/-- The mode and the input of a call. -/
structure Asks (args : Args N) (mode : String) (input : JsUnits) : Prop where
  mode : optString args "mode" = some (unitsOfString mode)
  input : optString args "input" = some input

theorem Asks.base64_encode {args : Args N} {s : JsUnits} (h : Asks args "encode" s) :
  codecBase64 args =
    .ok (.text (unitsOfText (Base64.encode (isTrue args "urlSafe") (bufferOf s))))
  := by
  rw [codecBase64, reqString_of_some h.mode, reqString_of_some h.input]
  rfl

theorem Asks.base64_decode {args : Args N} {s : JsUnits} (h : Asks args "decode" s) :
  codecBase64 args = .ok (.text (bufferText (Base64.decode (wellFormedText s))))
  := by
  rw [codecBase64, reqString_of_some h.mode, reqString_of_some h.input]
  rfl

theorem Asks.hex_encode {args : Args N} {s : JsUnits} (h : Asks args "encode" s) :
  codecHex args = .ok (.text (unitsOfText (hex (bufferOf s))))
  := by
  rw [codecHex, reqString_of_some h.mode, reqString_of_some h.input]
  rfl

/-- Digits of some bytes are read, in capitals or not, and with blanks between them. -/
theorem Asks.hex_decode {args : Args N} {s : JsUnits} (h : Asks args "decode" s)
    {bytes : List UInt8}
    (hbytes : (wellFormedText (withoutBlanks s)).map Char.toLower = hex bytes) :
  codecHex args = .ok (.text (bufferText bytes))
  := by
  have hdigits : ∀ c ∈ wellFormedText (withoutBlanks s), isDigitIn 16 c = true := by
    intro c hc
    have hlower : isDigitIn 16 c.toLower = true := by
      apply @isDigitIn_hex bytes
      rw [← hbytes]
      apply List.mem_map_of_mem hc
    rw [isDigitIn, digitValue_toLower] at hlower
    apply hlower
  obtain ⟨hall, hlength⟩ := hexUnits_of_digits hdigits
  have heven : (withoutBlanks s).length % 2 = 0 := by
    have hlengths := congrArg List.length hbytes
    rw [List.length_map, hlength, Identifiers.length_hex] at hlengths
    omega
  have hread : unhex (wellFormedText (withoutBlanks s)) = bytes := by
    rw [← unhex_map_toLower, hbytes, Identifiers.unhex_hex]
  rw [codecHex, reqString_of_some h.mode, reqString_of_some h.input]
  change (if (withoutBlanks s).length % 2 ≠ 0 ∨ ¬(withoutBlanks s).all isHexUnit = true then _
    else _) = _
  rw [if_neg (by simp [heven, hall]), hread]
  rfl

theorem Asks.gzip_compress [JsNumber N] {zlib : Zlib} {args : Args N} {s : JsUnits}
    (h : Asks args "compress" s) :
  ∃ data, codecGzip zlib args =
    .ok (.json data (unitsOfText (Base64.encode false (zlib.compress (isDeflate args) (bufferOf s)))))
  := by
  rw [codecGzip, reqString_of_some h.mode, reqString_of_some h.input]
  exact ⟨_, rfl⟩

theorem Asks.gzip_decompress [JsNumber N] {zlib : Zlib} {args : Args N} {s : JsUnits}
    (h : Asks args "decompress" s) {bytes : List UInt8}
    (hbytes : zlib.decompress (isDeflate args) MAX_DECOMPRESSED_BYTES
      (Base64.decode (wellFormedText s)) = .ok bytes) :
  codecGzip zlib args = .ok (.text (bufferText bytes))
  := by
  rw [codecGzip, reqString_of_some h.mode, reqString_of_some h.input]
  change (do
    let out ← zlib.decompress (isDeflate args) MAX_DECOMPRESSED_BYTES
      (Base64.decode (wellFormedText s))
    return NeutralResult.text (bufferText out)) = _
  rw [hbytes]
  rfl

/-- The arguments of a call with a mode and an input. -/
def callOf (mode : String) (input : JsUnits) : Args ℕ :=
  [(unitsOfString "mode", .string (unitsOfString mode)), (unitsOfString "input", .string input)]

theorem asks_callOf (mode : String) (input : JsUnits) :
  Asks (callOf mode input) mode input
  := by
  constructor
  · rfl
  · rfl

/-- A compression that leaves bytes as they are. -/
def stored : Zlib where
  compress _ bytes := bytes
  decompress _ limit bytes := if bytes.length ≤ limit then .ok bytes else .error "ERR_BUFFER_TOO_LARGE"
  decompress_compress h := if_pos h

theorem isUnreserved_hexDigit {d : ℕ} (h : d < 16) :
  Percent.isUnreserved (Json.hexDigit d).toUpper = true
  := by
  have hall : ∀ d < 16, Percent.isUnreserved (Json.hexDigit d).toUpper = true := by decide
  apply hall d h

/-- What has been encoded is unreserved but for its percent signs. -/
theorem unreserved_of_mem_percentEncode {text : List Char} {c : Char}
    (h : c ∈ Url.percentEncode (fun c => !Percent.isUnreserved c) text) :
  c = '%' ∨ Percent.isUnreserved c = true
  := by
  obtain ⟨d, -, hc⟩ := List.mem_flatMap.mp h
  split at hc
  · obtain ⟨byte, -, hc⟩ := List.mem_flatMap.mp hc
    have hlt := byte.toNat_lt
    simp only [Url.encodeByte, List.mem_cons, List.not_mem_nil, or_false] at hc
    obtain rfl | rfl | rfl := hc
    · exact .inl rfl
    · exact .inr (isUnreserved_hexDigit (by omega))
    · exact .inr (isUnreserved_hexDigit (by omega))
  · next hkept =>
      rw [List.mem_singleton.mp hc]
      right
      rw [← Bool.not_eq_false]
      exact fun hfalse => hkept (congrArg not hfalse)

theorem Asks.url_encode {args : Args N} {s : JsUnits} (h : Asks args "encode" s) :
  codecUrl args =
    uriText (if isComponent args then Percent.encodeURIComponent s else Percent.encodeURI s)
  := by
  rw [codecUrl, reqString_of_some h.mode, reqString_of_some h.input]
  rfl

theorem Asks.url_decode {args : Args N} {s : JsUnits} (h : Asks args "decode" s) :
  codecUrl args =
    uriText (if isComponent args then Percent.decodeURIComponent s else Percent.decodeURI s)
  := by
  rw [codecUrl, reqString_of_some h.mode, reqString_of_some h.input]
  rfl

/-- A text is written so that it is read as what it was, as a component without anything that has
a meaning in a URI. A string that is no text is rejected. -/
theorem codecUrl_decode {args : Args N} {s : JsUnits} (h : Asks args "encode" s) :
  if isWellFormed s then
    ∃ out, codecUrl args = .ok (.text out) ∧
      (∀ args' : Args N, isComponent args' = isComponent args → Asks args' "decode" out →
        codecUrl args' = .ok (.text s)) ∧
      (isComponent args = true →
        ∀ c ∈ wellFormedText out, c = '%' ∨ Percent.isUnreserved c = true)
  else codecUrl args = .error "URI malformed"
  := by
  have hkept : ∀ c, Percent.isReserved c = true →
      (Percent.isUnreserved c || Percent.isReserved c) = true :=
    fun c hc => by rw [hc, Bool.or_true]
  have hcomponents := @Percent.decode_encode Percent.isUnreserved (fun _ => false) (by decide)
    nofun s
  have hwhole := Percent.decode_encode (by decide) hkept s
  rw [h.url_encode]
  split
  · next hs =>
      rw [if_pos hs] at hcomponents hwhole
      obtain ⟨out, hout, hdecode⟩ := Option.bind_eq_some_iff.mp hcomponents
      obtain ⟨out', hout', hdecode'⟩ := Option.bind_eq_some_iff.mp hwhole
      cases hmode : isComponent args with
      | true =>
          rw [if_pos rfl, Percent.encodeURIComponent, hout]
          refine ⟨out, rfl, ?_, ?_⟩
          · intro args' hcomponent hasks
            rw [hasks.url_decode, hcomponent, if_pos rfl, Percent.decodeURIComponent,
              hdecode]
            rfl
          · intro _ c hc
            rw [Percent.encode, if_pos hs] at hout
            cases hout
            rw [wellFormedText_unitsOfText] at hc
            apply unreserved_of_mem_percentEncode hc
      | false =>
          rw [if_neg (by decide), Percent.encodeURI, hout']
          refine ⟨out', rfl, ?_, fun hfalse => absurd hfalse (by decide)⟩
          intro args' hcomponent hasks
          rw [hasks.url_decode, hcomponent, if_neg (by decide), Percent.decodeURI, hdecode']
          rfl
  · next hs =>
      rw [Percent.encodeURIComponent, Percent.encodeURI, Percent.encode, Percent.encode,
        if_neg hs, if_neg hs, ite_self]
      rfl

/-- A character beyond the first plane, in a component. -/
theorem codecUrl_decode_beyond :
  ∃ out, codecUrl (callOf "encode" (unitsOfString "😀/é")) = .ok (.text out) ∧
    codecUrl (callOf "decode" out) = .ok (.text (unitsOfString "😀/é"))
  := by
  have h := codecUrl_decode (asks_callOf "encode" (unitsOfString "😀/é"))
  rw [if_pos (by decide +kernel)] at h
  obtain ⟨out, hout, hdecode, -⟩ := h
  exact ⟨out, hout, hdecode (callOf "decode" out) rfl (asks_callOf "decode" out)⟩

/-! ### Tokens -/

section Tokens

/-- A digit of base64 stands in a token for nothing else. -/
theorem sextet_of_mem_encode {bytes : List UInt8} {c : Char} (h : c ∈ Base64.encode true bytes) :
  (Base64.sextet c).isSome = true
  := by
  have hdigit : ∀ n < 64, (Base64.sextet (Base64.digit true n)).isSome = true := by
    intro n hn
    rw [Base64.sextet_digit true hn]
    rfl
  induction bytes using Base64.encode.induct with
  | case1 x y z rest ih =>
      have hx := x.toNat_lt
      have hy := y.toNat_lt
      have hz := z.toNat_lt
      simp only [Base64.encode, List.mem_cons] at h
      obtain rfl | rfl | rfl | rfl | h := h
      · apply hdigit _ (by omega)
      · apply hdigit _ (by omega)
      · apply hdigit _ (by omega)
      · apply hdigit _ (by omega)
      · apply ih h
  | case2 x y =>
      have hx := x.toNat_lt
      have hy := y.toNat_lt
      simp only [Base64.encode, Base64.padding, if_pos, List.mem_cons, List.not_mem_nil,
        or_false] at h
      obtain rfl | rfl | rfl := h
      · apply hdigit _ (by omega)
      · apply hdigit _ (by omega)
      · apply hdigit _ (by omega)
  | case3 x =>
      have hx := x.toNat_lt
      simp only [Base64.encode, Base64.padding, if_pos, List.mem_cons, List.not_mem_nil,
        or_false] at h
      obtain rfl | rfl := h
      · apply hdigit _ (by omega)
      · apply hdigit _ (by omega)
  | case4 => cases h

theorem not_blank_of_sextet {c : Char} (h : (Base64.sextet c).isSome = true) :
  isBlank c = false ∧ c ≠ '.'
  := by
  constructor
  · rw [← Bool.not_eq_true]
    intro hblank
    simp only [isBlank, List.mem_cons, List.not_mem_nil, or_false, Bool.or_eq_true,
      decide_eq_true_eq, Bool.and_eq_true] at hblank
    have hsextet : Base64.sextet c = none := by
      unfold Base64.sextet
      dsimp only
      rw [if_neg (by omega), if_neg (by omega), if_neg (by omega), if_neg, if_neg]
      · rintro (rfl | rfl) <;> revert hblank <;> decide
      · rintro (rfl | rfl) <;> revert hblank <;> decide
    rw [hsextet] at h
    cases h
  · rintro rfl
    revert h
    decide

/-- Blanks around a text without any at its ends. -/
theorem trim_between {before text after : List Char} (hbefore : ∀ c ∈ before, isBlank c = true)
    (hafter : ∀ c ∈ after, isBlank c = true) (htext : ∀ c ∈ text, isBlank c = false)
    (hne : text ≠ []) :
  trim (String.ofList (before ++ text ++ after)) = String.ofList text
  := by
  have hhead : ∀ {l rest : List Char}, l ≠ [] → (∀ c ∈ l, isBlank c = false) →
      (l ++ rest).dropWhile isBlank = l ++ rest := by
    intro l rest hl hblank
    cases l with
    | nil => apply absurd rfl hl
    | cons c l =>
        rw [List.cons_append, List.dropWhile_cons_of_neg]
        rw [hblank c List.mem_cons_self]
        decide
  rw [trim, String.toList_ofList, List.append_assoc, List.dropWhile_append_of_pos hbefore,
    hhead hne htext, List.reverse_append, List.dropWhile_append_of_pos]
  · rw [← List.append_nil text.reverse, hhead, List.append_nil, List.reverse_reverse]
    · rwa [ne_eq, List.reverse_eq_nil_iff]
    · intro c hc
      apply htext c (List.mem_reverse.mp hc)
  · intro c hc
    apply hafter c (List.mem_reverse.mp hc)

variable [ExactNumber N]

/-- A value as a segment of a token. -/
def segmentOf (value : Json N) : List Char :=
  Base64.encode true (utf8Encode (Json.stringify value))

theorem decodeSegment_segmentOf {value : Json N} (h : Json.Ordered value) :
  decodeSegment (segmentOf value) = .ok value
  := by
  have htext : bufferText (utf8Encode (Json.stringify value)) =
      unitsOfText (Json.stringify value) := by
    rw [bufferText, Utf8Decoder.decode_utf8Encode]
    dsimp only
    rw [show Utf8Decoder.initial.finish = [] from rfl, List.append_nil]
  rw [decodeSegment, segmentOf, Base64.decode_encode, htext, wellFormedText_unitsOfText,
    Json.parse_stringify h]

theorem plain_segmentOf (value : Json N) :
  ∀ c ∈ segmentOf value, isBlank c = false ∧ c ≠ '.'
  := fun _ hc => not_blank_of_sextet (sextet_of_mem_encode hc)

/-- What a token with some claims is decoded into. -/
def decodedClaims (header payload : Json N) (signed : Bool) : Json N :=
  .object [(unitsOfString "header", header), (unitsOfString "payload", payload),
    (unitsOfString "signaturePresent", .bool signed), (unitsOfString "verified", .bool false)]

theorem decodeParts_of_ok {headerPart payloadPart signature : List Char} {header payload : Json N}
    (hheader : decodeSegment headerPart = .ok header)
    (hpayload : decodeSegment payloadPart = .ok payload) :
  ∃ text, decodeParts [headerPart, payloadPart, signature] =
    .ok (.json (decodedClaims header payload (0 < signature.length)) text)
  := by
  unfold decodeParts
  dsimp only
  rw [hheader, hpayload]
  exact ⟨_, rfl⟩

theorem codecJwtDecode_of_some {args : Args N} {token : JsUnits}
    (h : optString args "token" = some token) :
  codecJwtDecode args = decodeParts (tokenParts token)
  := by
  rw [codecJwtDecode, reqString_of_some h]
  dsimp only [bind, Except.bind]

theorem tokenParts_segments {header payload : Json N} {before signature after : List Char}
    (hbefore : ∀ c ∈ before, isBlank c = true) (hafter : ∀ c ∈ after, isBlank c = true)
    (hsignature : ∀ c ∈ signature, isBlank c = false ∧ c ≠ '.') :
  tokenParts (unitsOfText
    (before ++ (segmentOf header ++ '.' :: (segmentOf payload ++ '.' :: signature)) ++ after)) =
    [segmentOf header, segmentOf payload, signature]
  := by
  have hdots : ∀ value : Json N, '.' ∉ segmentOf value :=
    fun value hdot => (plain_segmentOf value '.' hdot).2 rfl
  rw [tokenParts, wellFormedText_unitsOfText, trim_between hbefore hafter,
    String.toList_ofList, List.splitOn_append_cons_self_of_not_mem (hdots header),
    List.splitOn_append_cons_self_of_not_mem (hdots payload), List.splitOn_eq_singleton]
  · exact fun hdot => (hsignature '.' hdot).2 rfl
  · intro c hc
    simp only [List.mem_append, List.mem_cons] at hc
    obtain hc | rfl | hc | rfl | hc := hc
    · apply (plain_segmentOf header c hc).1
    · rfl
    · apply (plain_segmentOf payload c hc).1
    · rfl
    · apply (hsignature c hc).1
  · simp

/-- A token is decoded into the values that it was made of, whatever it is signed with, and never
as a verified one. -/
theorem codecJwtDecode_segments {args : Args N} {header payload : Json N}
    {before signature after : List Char} (hheader : Json.Ordered header)
    (hpayload : Json.Ordered payload) (hbefore : ∀ c ∈ before, isBlank c = true)
    (hafter : ∀ c ∈ after, isBlank c = true)
    (hsignature : ∀ c ∈ signature, isBlank c = false ∧ c ≠ '.')
    (htoken : optString args "token" = some (unitsOfText
      (before ++ (segmentOf header ++ '.' :: (segmentOf payload ++ '.' :: signature)) ++ after))) :
  ∃ text, codecJwtDecode args =
    .ok (.json (decodedClaims header payload (0 < signature.length)) text)
  := by
  rw [codecJwtDecode_of_some htoken, tokenParts_segments hbefore hafter hsignature]
  exact decodeParts_of_ok (decodeSegment_segmentOf hheader) (decodeSegment_segmentOf hpayload)

/-- A token with blanks around it and no signature. -/
theorem codecJwtDecode_segments_unsigned :
  ∃ text, codecJwtDecode [(unitsOfString "token", .string (unitsOfText ([' '] ++
      (segmentOf (.array [.number 1] : Json ℕ) ++ '.' :: (segmentOf (.null : Json ℕ) ++ ['.'])) ++
        ['\n'])))] =
    .ok (.json (decodedClaims (.array [.number 1]) (.null : Json ℕ) false) text)
  := by
  have hheader : Json.Ordered (N := ℕ) (.array [.number 1]) := by
    constructor
    intro item hitem
    rw [List.mem_singleton.mp hitem]
    constructor
  have hspace : ∀ c ∈ [' '], isBlank c = true := by
    intro c hc
    rw [List.mem_singleton.mp hc]
    rfl
  have hline : ∀ c ∈ ['\n'], isBlank c = true := by
    intro c hc
    rw [List.mem_singleton.mp hc]
    rfl
  have hnone : ∀ c ∈ ([] : List Char), isBlank c = false ∧ c ≠ '.' := by
    intro c hc
    apply absurd hc List.not_mem_nil
  apply codecJwtDecode_segments hheader .null hspace hline hnone
  simp [optString, Json.getString, Json.get]

end Tokens

end Devtools
