import OpencodeToolbelt.Data.Numerals
import OpencodeToolbelt.Data.Positional
import Mathlib.Data.List.Basic
import Mathlib.Data.Vector.Defs

/-!
# Identifiers that are ordered by time

The identifiers of the crypto tools begin with a time and go on with random bits. Identifiers of
different times are ordered lexicographically as the times are, and give back the time and the bits
that they keep.
-/

namespace Identifiers

/-! ### ULID -/

/-- The digits of a ULID, in their order. -/
def CROCKFORD : List Char := "0123456789ABCDEFGHJKMNPQRSTVWXYZ".toList

/-- `CROCKFORD[digit]` -/
def crockford (digit : ℕ) : Char := CROCKFORD.getD digit '0'

/-- The loop that writes the time, for the rounds that are left. -/
def timeLoop : ℕ → ℕ → List Char → List Char
  | 0, _, time => time
  | rounds + 1, ms, time => timeLoop rounds (ms / 32) (crockford (ms % 32) :: time)

/-- The loop that reads the random bytes into a number. -/
def readBits (bytes : List UInt8) : ℕ :=
  bytes.foldl (fun bits byte => (bits <<< 8) ||| byte.toNat) 0

/-- The loop that writes the random bits, for the rounds that are left. -/
def randLoop : ℕ → ℕ → List Char → List Char
  | 0, _, rand => rand
  | rounds + 1, bits, rand => randLoop rounds (bits >>> 5) (crockford (bits &&& 31) :: rand)

def ulid (ms : ℕ) (randomBytes : List.Vector UInt8 10) : String :=
  let time := timeLoop 10 ms []
  let rand := randLoop 16 (readBits randomBytes.toList) []
  String.ofList (time ++ rand)

/-! ### UUID -/

/-- `b.writeUIntBE`, from the last byte to the first. -/
def writeUIntBE (b : List UInt8) (value offset : ℕ) : ℕ → List UInt8
  | 0 => b
  | byteLength + 1 =>
      writeUIntBE (b.set (offset + byteLength) (UInt8.ofNat value)) (value / 256) offset byteLength

/-- A byte in hexadecimal digits. -/
def hexByte (byte : UInt8) : List Char := [digit36 (byte.toNat / 16), digit36 (byte.toNat % 16)]

/-- `b.toString("hex")` -/
def hex (b : List UInt8) : List Char := b.flatMap hexByte

/-- `h.slice`, with an end after the start. -/
def slice (h : List Char) (start stop : ℕ) : List Char := (h.drop start).take (stop - start)

def setVersion (byte : UInt8) : UInt8 := (byte &&& 0x0f) ||| 0x70

def setVariant (byte : UInt8) : UInt8 := (byte &&& 0x3f) ||| 0x80

def uuidV7 (ms : ℕ) (randomBytes : List.Vector UInt8 16) : String :=
  let b := writeUIntBE randomBytes.toList ms 0 6
  let b := (b.modify 6 setVersion).modify 8 setVariant
  let h := hex b
  String.ofList (slice h 0 8 ++ '-' :: slice h 8 12 ++ '-' :: slice h 12 16 ++
    '-' :: slice h 16 20 ++ '-' :: h.drop 20)

/-! ### What identifiers are expected to be -/

/-- An identifier of 26 digits. -/
structure IsUlid (id : String) : Prop where
  length : id.length = 26
  digits : ∀ c ∈ id.toList, c ∈ CROCKFORD

/-- Hexadecimal digits, in lower case. -/
def HEX : List Char := "0123456789abcdef".toList

/-- Groups of digits, among them the version and the two bits of the variant. -/
structure IsUuidV7 (id : String) : Prop where
  groups : ∃ a b c d e : List Char,
    id = String.ofList (a ++ '-' :: b ++ '-' :: c ++ '-' :: d ++ '-' :: e) ∧
      a.length = 8 ∧ b.length = 4 ∧ c.length = 4 ∧ d.length = 4 ∧ e.length = 12 ∧
      (∀ digit ∈ a ++ b ++ c ++ d ++ e, digit ∈ HEX) ∧
      c.head? = some '7' ∧ ∃ variant ∈ ['8', '9', 'a', 'b'], d.head? = some variant

/-- The time of a ULID, and its random bytes. -/
def decodeUlid (id : String) : ℕ × List UInt8 :=
  let ds := id.toList.map fun c => CROCKFORD.idxOf c
  (Positional.value 32 (ds.take 10),
    (Positional.digits 256 10 (Positional.value 32 (ds.drop 10))).map UInt8.ofNat)

/-- The bytes that hexadecimal digits stand for. -/
def unhex : List Char → List UInt8
  | high :: low :: rest =>
      UInt8.ofNat ((digitValue high).getD 0 * 16 + (digitValue low).getD 0) :: unhex rest
  | _ => []

/-- The random bytes of a UUID without the bits of the version and the variant. -/
def keptBits (bytes : List UInt8) : List UInt8 :=
  ((bytes.drop 6).modify 0 fun byte => byte &&& 0x0f).modify 2 fun byte => byte &&& 0x3f

/-- The time of a UUID, and the random bits that it keeps. -/
def decodeUuidV7 (id : String) : ℕ × List UInt8 :=
  let bytes := unhex (id.toList.filter (· ≠ '-'))
  (Positional.value 256 ((bytes.take 6).map UInt8.toNat), keptBits bytes)

/-! ### Digits of a ULID -/

theorem timeLoop_eq (rounds ms : ℕ) (time : List Char) :
  timeLoop rounds ms time = (Positional.digits 32 rounds ms).map crockford ++ time
  := by
  induction rounds generalizing ms time with
  | zero => rfl
  | succ rounds ih =>
      rw [timeLoop, ih, Positional.digits, List.map_append, List.append_assoc]
      rfl

theorem randLoop_eq (rounds bits : ℕ) (rand : List Char) :
  randLoop rounds bits rand = (Positional.digits 32 rounds bits).map crockford ++ rand
  := by
  induction rounds generalizing bits rand with
  | zero => rfl
  | succ rounds ih =>
      have hmod : bits &&& 31 = bits % 32 := Nat.and_two_pow_sub_one_eq_mod bits 5
      have hdiv : bits >>> 5 = bits / 32 := Nat.shiftRight_eq_div_pow bits 5
      rw [randLoop, ih, Positional.digits, List.map_append, List.append_assoc, hmod, hdiv]
      rfl

theorem readBits_eq (bytes : List UInt8) :
  readBits bytes = Positional.value 256 (bytes.map UInt8.toNat)
  := by
  rw [readBits, Positional.value, List.foldl_map]
  congr 1
  funext bits byte
  rw [← Nat.shiftLeft_add_eq_or_of_lt byte.toNat_lt, Nat.shiftLeft_eq]

theorem ulid_eq (ms : ℕ) (randomBytes : List.Vector UInt8 10) :
  (ulid ms randomBytes).toList =
    (Positional.digits 32 10 ms).map crockford ++
      (Positional.digits 32 16
        (Positional.value 256 (randomBytes.toList.map UInt8.toNat))).map crockford
  := by
  rw [ulid, String.toList_ofList, timeLoop_eq, randLoop_eq, readBits_eq, List.append_nil,
    List.append_nil]

/-- The digits are ordered as their values are, and give them back. -/
theorem crockford_digits :
  (∀ e < 32, ∀ d < e, crockford d < crockford e) ∧
    ∀ d < 32, crockford d ∈ CROCKFORD ∧ CROCKFORD.idxOf (crockford d) = d
  := by
  decide +kernel

theorem crockford_lt {d e : ℕ} (h : d < e) (he : e < 32) :
  crockford d < crockford e
  := crockford_digits.1 e he d h

theorem crockford_mem {d : ℕ} (h : d < 32) :
  crockford d ∈ CROCKFORD
  := (crockford_digits.2 d h).1

theorem idxOf_crockford {d : ℕ} (h : d < 32) :
  CROCKFORD.idxOf (crockford d) = d
  := (crockford_digits.2 d h).2

theorem map_idxOf {ds : List ℕ} (h : ∀ d ∈ ds, d < 32) :
  (ds.map crockford).map (fun c => CROCKFORD.idxOf c) = ds
  := by
  rw [List.map_map]
  conv_rhs => rw [← List.map_id ds]
  apply List.map_congr_left
  intro d hd
  apply idxOf_crockford (h d hd)

/-- ULIDs are ordered as their times are. -/
theorem ulid_lt_ulid {ms ms' : ℕ} (h : ms < ms') (hfits : ms' < 2 ^ 48)
    (randomBytes randomBytes' : List.Vector UInt8 10) :
  ulid ms randomBytes < ulid ms' randomBytes'
  := by
  rw [String.lt_iff, ulid_eq, ulid_eq]
  apply Positional.append_lt_append
  · simp
  · apply Positional.map_lt_map
    · intro d _ e he hlt
      apply crockford_lt hlt
      apply Positional.lt_of_mem_digits (by norm_num) he
    · apply Positional.digits_lt_digits h
      apply hfits.trans (by decide)

theorem isUlid_ulid (ms : ℕ) (randomBytes : List.Vector UInt8 10) :
  IsUlid (ulid ms randomBytes)
  := by
  constructor
  · rw [← String.length_toList, ulid_eq]
    simp
  · intro c hc
    rw [ulid_eq, ← List.map_append] at hc
    obtain ⟨d, hd, rfl⟩ := List.mem_map.mp hc
    apply crockford_mem
    obtain hd | hd := List.mem_append.mp hd
    · apply Positional.lt_of_mem_digits (by norm_num) hd
    · apply Positional.lt_of_mem_digits (by norm_num) hd

theorem toNat_lt_of_mem_map {bytes : List UInt8} :
  ∀ d ∈ bytes.map UInt8.toNat, d < 256
  := by
  intro d hd
  obtain ⟨byte, -, rfl⟩ := List.mem_map.mp hd
  apply byte.toNat_lt

theorem map_ofNat_map_toNat (bytes : List UInt8) :
  (bytes.map UInt8.toNat).map UInt8.ofNat = bytes
  := by
  rw [List.map_map]
  conv_rhs => rw [← List.map_id bytes]
  apply List.map_congr_left
  intro byte _
  apply UInt8.ofNat_toNat

/-- A ULID gives back its time and its random bytes. -/
theorem decodeUlid_ulid {ms : ℕ} (hfits : ms < 2 ^ 48) (randomBytes : List.Vector UInt8 10) :
  decodeUlid (ulid ms randomBytes) = (ms, randomBytes.toList)
  := by
  have hdigits : ∀ width n, ∀ d ∈ Positional.digits 32 width n, d < 32 :=
    fun width n d hd => Positional.lt_of_mem_digits (by norm_num) hd
  have htime : ms < 32 ^ 10 := hfits.trans (by decide)
  have hlength : (randomBytes.toList.map UInt8.toNat).length = 10 := by
    rw [List.length_map, List.Vector.toList_length]
  have hbytes : ∀ d ∈ randomBytes.toList.map UInt8.toNat, d < 256 := toNat_lt_of_mem_map
  have hrandom : Positional.value 256 (randomBytes.toList.map UInt8.toNat) < 32 ^ 16 := by
    have hlt := Positional.value_lt hbytes
    rw [hlength] at hlt
    apply hlt.trans_eq (by decide)
  have hvalue := Positional.digits_value hbytes
  rw [hlength] at hvalue
  rw [decodeUlid, ulid_eq, List.map_append, map_idxOf (hdigits 10 ms), map_idxOf (hdigits 16 _)]
  rw [List.take_left' (Positional.length_digits 32 10 ms),
    List.drop_left' (Positional.length_digits 32 10 ms), Positional.value_digits,
    Positional.value_digits, Nat.mod_eq_of_lt htime, Nat.mod_eq_of_lt hrandom, hvalue,
    map_ofNat_map_toNat]

/-! ### Bytes of a UUID -/

theorem drop_set {α : Type} {l : List α} {i : ℕ} (h : i < l.length) (a : α) :
  (l.set i a).drop i = a :: l.drop (i + 1)
  := by
  have hset : i < (l.set i a).length := by
    rw [List.length_set]
    apply h
  rw [List.drop_eq_getElem_cons hset, List.getElem_set_self,
    List.drop_set_of_lt (Nat.lt_succ_self i)]

theorem writeUIntBE_eq (byteLength : ℕ) {b : List UInt8} {value offset : ℕ}
    (h : offset + byteLength ≤ b.length) :
  writeUIntBE b value offset byteLength =
    b.take offset ++ (Positional.digits 256 byteLength value).map UInt8.ofNat ++
      b.drop (offset + byteLength)
  := by
  induction byteLength generalizing b value with
  | zero => simp [writeUIntBE, Positional.digits]
  | succ byteLength ih =>
      have hset : offset + byteLength ≤ (b.set (offset + byteLength) (UInt8.ofNat value)).length := by
        rw [List.length_set]
        omega
      have hbyte : UInt8.ofNat value = UInt8.ofNat (value % 256) := by
        apply UInt8.toNat.inj
        rw [UInt8.toNat_ofNat', UInt8.toNat_ofNat', Nat.mod_mod]
      rw [writeUIntBE, ih hset, drop_set (by omega), List.take_set_of_le (by omega),
        Positional.digits, List.map_append, List.append_assoc, List.append_assoc, List.append_assoc,
        hbyte]
      rfl

theorem length_hex (b : List UInt8) :
  (hex b).length = 2 * b.length
  := by
  induction b with
  | nil => rfl
  | cons byte b ih =>
      rw [hex, List.flatMap_cons, List.length_append, ← hex, ih, List.length_cons]
      change 2 + _ = _
      ring

theorem hex_append (b b' : List UInt8) :
  hex (b ++ b') = hex b ++ hex b'
  := List.flatMap_append

theorem hexByte_eq (byte : UInt8) :
  hexByte byte = (Positional.digits 16 2 byte.toNat).map digit36
  := by
  have hlt : byte.toNat / 16 < 16 := by
    have h := byte.toNat_lt
    omega
  simp [hexByte, Positional.digits, Nat.mod_eq_of_lt hlt]

/-- The bytes of a time in hexadecimal digits are the digits of the time. -/
theorem hex_time (ms : ℕ) :
  hex ((Positional.digits 256 6 ms).map UInt8.ofNat) = (Positional.digits 16 12 ms).map digit36
  := by
  have hdigits : (Positional.digits 256 6 ms).flatMap (Positional.digits 16 2) =
      Positional.digits 16 12 ms := @Positional.flatMap_digits 16 2 6 ms
  rw [← hdigits, hex, List.flatMap_map, List.map_flatMap]
  apply List.flatMap_congr
  intro d hd
  have hlt : d < 256 := Positional.lt_of_mem_digits (by decide) hd
  rw [hexByte_eq, UInt8.toNat_ofNat', Nat.mod_eq_of_lt hlt]

/-- Hexadecimal digits are ordered as their values are, and no dashes. -/
theorem hex_digits :
  (∀ e < 16, ∀ d < e, digit36 d < digit36 e) ∧ (∀ d < 16, digit36 d ∈ HEX) ∧
    HEX.all (· ≠ '-') = true
  := by
  decide +kernel

theorem digit36_mem {d : ℕ} (h : d < 16) :
  digit36 d ∈ HEX
  := hex_digits.2.1 d h

theorem digit36_lt {d e : ℕ} (h : d < e) (he : e < 16) :
  digit36 d < digit36 e
  := hex_digits.1 e he d h

theorem hexByte_mem (byte : UInt8) :
  ∀ digit ∈ hexByte byte, digit ∈ HEX
  := by
  intro digit hdigit
  rw [hexByte_eq] at hdigit
  obtain ⟨d, hd, rfl⟩ := List.mem_map.mp hdigit
  apply digit36_mem
  apply Positional.lt_of_mem_digits (by decide) hd

theorem hex_mem (b : List UInt8) :
  ∀ digit ∈ hex b, digit ∈ HEX
  := by
  intro digit hdigit
  obtain ⟨byte, -, hbyte⟩ := List.mem_flatMap.mp hdigit
  apply hexByte_mem byte digit hbyte

theorem unhex_hex (b : List UInt8) :
  unhex (hex b) = b
  := by
  induction b with
  | nil => rfl
  | cons byte b ih =>
      have hlt := byte.toNat_lt
      have hhigh : digitValue (digit36 (byte.toNat / 16)) = some (byte.toNat / 16) := by
        apply digitValue_digit36
        omega
      have hlow : digitValue (digit36 (byte.toNat % 16)) = some (byte.toNat % 16) := by
        apply digitValue_digit36
        omega
      change UInt8.ofNat _ :: unhex (hex b) = byte :: b
      rw [ih, hhigh, hlow, Option.getD_some, Option.getD_some, Nat.div_add_mod',
        UInt8.ofNat_toNat]

/-! ### Version and variant -/

theorem forall_byte {p : UInt8 → Prop} (h : ∀ n < 256, p (UInt8.ofNat n)) (byte : UInt8) :
  p byte
  := by
  have hbyte := h byte.toNat byte.toNat_lt
  rwa [UInt8.ofNat_toNat] at hbyte

/-- The digit of the version and that of the variant take the place of the first bits. -/
theorem version_variant (byte : UInt8) :
  ((hexByte (setVersion byte)).head? = some '7' ∧
      (hexByte (setVariant byte)).head?.any (· ∈ ['8', '9', 'a', 'b']) = true) ∧
    setVersion byte &&& 0x0f = byte &&& 0x0f ∧ setVariant byte &&& 0x3f = byte &&& 0x3f
  := by
  apply forall_byte (p := fun byte => ((hexByte (setVersion byte)).head? = some '7' ∧
      (hexByte (setVariant byte)).head?.any (· ∈ ['8', '9', 'a', 'b']) = true) ∧
    setVersion byte &&& 0x0f = byte &&& 0x0f ∧ setVariant byte &&& 0x3f = byte &&& 0x3f)
  decide +kernel

theorem hexByte_setVersion (byte : UInt8) :
  (hexByte (setVersion byte)).head? = some '7'
  := (version_variant byte).1.1

theorem hexByte_setVariant (byte : UInt8) :
  ∃ variant ∈ ['8', '9', 'a', 'b'], (hexByte (setVariant byte)).head? = some variant
  := by
  obtain ⟨variant, hhead, hmem⟩ := (Option.any_eq_true _ _).mp (version_variant byte).1.2
  use variant, of_decide_eq_true hmem

/-! ### The form of a UUID -/

/-- A UUID is written in the digits of its time and of ten random bytes, two of them changed. -/
structure Written (ms : ℕ) (randomBytes : List UInt8) (id : String) where
  version : UInt8
  second : UInt8
  variant : UInt8
  fourth : UInt8
  rest : List UInt8
  random : randomBytes.drop 6 = version :: second :: variant :: fourth :: rest
  length : rest.length = 6
  eq : id.toList =
    (hex ((Positional.digits 256 6 ms).map UInt8.ofNat)).take 8 ++
      '-' :: (hex ((Positional.digits 256 6 ms).map UInt8.ofNat)).drop 8 ++
      '-' :: (hexByte (setVersion version) ++ hexByte second) ++
      '-' :: (hexByte (setVariant variant) ++ hexByte fourth) ++ '-' :: hex rest

theorem exists_written (ms : ℕ) (randomBytes : List.Vector UInt8 16) :
  Nonempty (Written ms randomBytes.toList (uuidV7 ms randomBytes))
  := by
  have hlength : (randomBytes.toList.drop 6).length = 10 := by
    rw [List.length_drop, List.Vector.toList_length]
  have hwritten : writeUIntBE randomBytes.toList ms 0 6 =
      (Positional.digits 256 6 ms).map UInt8.ofNat ++ randomBytes.toList.drop 6 := by
    have h : 0 + 6 ≤ randomBytes.toList.length := by
      rw [List.Vector.toList_length]
      decide
    rw [writeUIntBE_eq 6 h]
    rfl
  match hrandom : randomBytes.toList.drop 6, hlength with
  | version :: second :: variant :: fourth :: rest, hlength =>
      have htime : ((Positional.digits 256 6 ms).map UInt8.ofNat).length = 6 := by simp
      rw [hrandom] at hwritten
      have hrest : rest.length = 6 := by simpa using hlength
      refine ⟨⟨version, second, variant, fourth, rest, hrandom, hrest, ?_⟩⟩
      rw [uuidV7, hwritten, String.toList_ofList]
      match (Positional.digits 256 6 ms).map UInt8.ofNat, htime with
      | [_, _, _, _, _, _], _ => rfl

/-- UUIDs are ordered as their times are. -/
theorem uuidV7_lt_uuidV7 {ms ms' : ℕ} (h : ms < ms') (hfits : ms' < 2 ^ 48)
    (randomBytes randomBytes' : List.Vector UInt8 16) :
  uuidV7 ms randomBytes < uuidV7 ms' randomBytes'
  := by
  obtain ⟨w⟩ := exists_written ms randomBytes
  obtain ⟨w'⟩ := exists_written ms' randomBytes'
  have htime : hex ((Positional.digits 256 6 ms).map UInt8.ofNat) <
      hex ((Positional.digits 256 6 ms').map UInt8.ofNat) := by
    rw [hex_time, hex_time]
    apply Positional.map_lt_map
    · intro d _ e he hlt
      apply digit36_lt hlt
      apply Positional.lt_of_mem_digits (by decide) he
    · apply Positional.digits_lt_digits h
      apply hfits.trans_eq (by decide)
  rw [String.lt_iff, w.eq, w'.eq]
  apply Positional.append_lt_append
  · simp [hexByte, length_hex]
  · apply Positional.append_lt_append
    · simp [hexByte, length_hex]
    · apply Positional.append_lt_append
      · simp [length_hex]
      · apply Positional.insert_lt_insert _ htime
        simp [length_hex]

theorem isUuidV7_uuidV7 (ms : ℕ) (randomBytes : List.Vector UInt8 16) :
  IsUuidV7 (uuidV7 ms randomBytes)
  := by
  obtain ⟨w⟩ := exists_written ms randomBytes
  have htime : (hex ((Positional.digits 256 6 ms).map UInt8.ofNat)).length = 12 := by
    simp [length_hex]
  refine ⟨⟨(hex ((Positional.digits 256 6 ms).map UInt8.ofNat)).take 8,
    (hex ((Positional.digits 256 6 ms).map UInt8.ofNat)).drop 8,
    hexByte (setVersion w.version) ++ hexByte w.second,
    hexByte (setVariant w.variant) ++ hexByte w.fourth, hex w.rest,
    ?_, ?_, ?_, rfl, rfl, ?_, ?_, ?_, ?_⟩⟩
  · rw [← w.eq, String.ofList_toList]
  · rw [List.length_take, htime]
    decide
  · rw [List.length_drop, htime]
  · rw [length_hex, w.length]
  · rw [List.take_append_drop]
    intro digit hdigit
    simp only [List.mem_append] at hdigit
    obtain (((h | h | h) | h | h) | h) := hdigit
    · apply hex_mem _ digit h
    · apply hexByte_mem _ digit h
    · apply hexByte_mem _ digit h
    · apply hexByte_mem _ digit h
    · apply hexByte_mem _ digit h
    · apply hex_mem _ digit h
  · apply hexByte_setVersion w.version
  · apply hexByte_setVariant w.variant

theorem filter_dash {digits : List Char} (h : ∀ digit ∈ digits, digit ∈ HEX) :
  digits.filter (· ≠ '-') = digits
  := by
  apply List.filter_eq_self.mpr
  intro digit hdigit
  apply List.all_eq_true.mp hex_digits.2.2 digit (h digit hdigit)

/-- A UUID gives back its time and the random bits that it keeps. -/
theorem decodeUuidV7_uuidV7 {ms : ℕ} (hfits : ms < 2 ^ 48)
    (randomBytes : List.Vector UInt8 16) :
  decodeUuidV7 (uuidV7 ms randomBytes) = (ms, keptBits randomBytes.toList)
  := by
  obtain ⟨w⟩ := exists_written ms randomBytes
  generalize htime : (Positional.digits 256 6 ms).map UInt8.ofNat = time
  have heq := w.eq
  rw [htime] at heq
  have hdash : ∀ l : List Char, ('-' :: l).filter (· ≠ '-') = l.filter (· ≠ '-') := by simp
  have hdigits : (uuidV7 ms randomBytes).toList.filter (· ≠ '-') = hex (time ++
      setVersion w.version :: w.second :: setVariant w.variant :: w.fourth :: w.rest) := by
    rw [heq, List.filter_append, List.filter_append, List.filter_append, List.filter_append,
      hdash, hdash, hdash, hdash, ← List.filter_append, List.take_append_drop, List.filter_append,
      List.filter_append, filter_dash (hex_mem _), filter_dash (hexByte_mem _),
      filter_dash (hexByte_mem _), filter_dash (hexByte_mem _), filter_dash (hexByte_mem _),
      filter_dash (hex_mem _), hex_append]
    simp [hex]
  have hlength : time.length = 6 := by simp [← htime]
  have hvalue : Positional.value 256 (time.map UInt8.toNat) = ms := by
    have hsame : time.map UInt8.toNat = Positional.digits 256 6 ms := by
      rw [← htime, List.map_map]
      conv_rhs => rw [← List.map_id (Positional.digits 256 6 ms)]
      apply List.map_congr_left
      intro d hd
      have hlt : d < 256 := Positional.lt_of_mem_digits (by decide) hd
      apply Nat.mod_eq_of_lt hlt
    rw [hsame, Positional.value_digits]
    apply Nat.mod_eq_of_lt
    apply hfits.trans_eq (by decide)
  rw [decodeUuidV7, hdigits, unhex_hex]
  simp only [List.take_left' hlength, hvalue, keptBits, List.drop_left' hlength, w.random,
    List.modify_zero_cons, List.modify_succ_cons, (version_variant _).2.1, (version_variant _).2.2]

/-! ### Identifiers -/

/-- Identifiers of both kinds have their form, give back their time and what they keep of the
random bytes, and are ordered as their times are. -/
theorem identifiers_spec {ms : ℕ} (hfits : ms < 2 ^ 48) (randomBytes : List.Vector UInt8 10)
    (randomBytes' : List.Vector UInt8 16) :
  (IsUlid (ulid ms randomBytes) ∧ IsUuidV7 (uuidV7 ms randomBytes')) ∧
    (decodeUlid (ulid ms randomBytes) = (ms, randomBytes.toList) ∧
      decodeUuidV7 (uuidV7 ms randomBytes') = (ms, keptBits randomBytes'.toList)) ∧
    ∀ earlier < ms, (∀ bytes, ulid earlier bytes < ulid ms randomBytes) ∧
      ∀ bytes, uuidV7 earlier bytes < uuidV7 ms randomBytes'
  := by
  refine ⟨⟨isUlid_ulid ms randomBytes, isUuidV7_uuidV7 ms randomBytes'⟩,
    ⟨decodeUlid_ulid hfits randomBytes, decodeUuidV7_uuidV7 hfits randomBytes'⟩, ?_⟩
  intro earlier hlt
  constructor
  · intro bytes
    apply ulid_lt_ulid hlt hfits
  · intro bytes
    apply uuidV7_lt_uuidV7 hlt hfits

/-- Identifiers of the last millisecond, after those of the first. -/
theorem identifiers_spec_last :
  ulid 0 (List.Vector.replicate 10 255) < ulid (2 ^ 48 - 1) (List.Vector.replicate 10 0) ∧
    (decodeUuidV7 (uuidV7 (2 ^ 48 - 1) (List.Vector.replicate 16 255))).1 = 2 ^ 48 - 1
  := by
  have h := identifiers_spec (by decide : 2 ^ 48 - 1 < 2 ^ 48) (List.Vector.replicate 10 0)
    (List.Vector.replicate 16 255)
  constructor
  · apply (h.2.2 0 (by decide)).1
  · rw [h.2.1.2]

end Identifiers
