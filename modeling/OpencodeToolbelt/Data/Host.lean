import OpencodeToolbelt.Data.Json

/-!
# Hosts

The hosts of URLs, as their parser leaves them, and how they are written.
-/

/-- The code points that cannot be in a domain. -/
def isForbiddenDomainChar (c : Char) : Bool :=
  c.toNat ≤ 0x20 || c.toNat = 0x7f || c ∈ ['#', '%', '/', ':', '<', '>', '?', '@', '[', '\\', ']',
    '^', '|']

/-- A domain, after its conversion to ASCII. -/
structure Domain where
  name : List Char
  allowed : ∀ c ∈ name, isForbiddenDomainChar c = false
  lower : ∀ c ∈ name, c.toNat < 0x80 ∧ c.isUpper = false

structure Ipv4 where
  byte₁ : Fin 256
  byte₂ : Fin 256
  byte₃ : Fin 256
  byte₄ : Fin 256
  deriving DecidableEq, Repr

structure Ipv6 where
  pieces : List (Fin 65536)
  length_eq : pieces.length = 8
  deriving DecidableEq, Repr

inductive Host where
  | domain (domain : Domain)
  | ipv4 (address : Ipv4)
  | ipv6 (address : Ipv6)
  /-- The host of a URL whose scheme is not special. -/
  | raw (text : List Char)

/-! ### Numbers -/

/-- The digits of a number in decimal, without leading zeros. -/
def decimalDigits (n : ℕ) : List Char := Nat.toDigits 10 n

/-- A piece of an IPv6 address in hexadecimal, without leading zeros. -/
def hexPiece (n : ℕ) : List Char :=
  if n < 16 then [Json.hexDigit n]
  else if n < 256 then [Json.hexDigit (n / 16), Json.hexDigit (n % 16)]
  else if n < 4096 then [Json.hexDigit (n / 256), Json.hexDigit (n / 16 % 16), Json.hexDigit (n % 16)]
  else
    [Json.hexDigit (n / 4096), Json.hexDigit (n / 256 % 16), Json.hexDigit (n / 16 % 16), Json.hexDigit (n % 16)]

/-! ### Serialization -/

/-- The items with separators between them. -/
def joinWith (separator : Char) : List (List Char) → List Char
  | [] => []
  | [item] => item
  | item :: items => item ++ separator :: joinWith separator items

def Ipv4.serialize (address : Ipv4) : List Char :=
  joinWith '.' [decimalDigits address.byte₁, decimalDigits address.byte₂,
    decimalDigits address.byte₃, decimalDigits address.byte₄]

namespace Ipv6

/-- How many pieces at the start are zero. -/
def zeroRun (pieces : List (Fin 65536)) : ℕ := (pieces.takeWhile (· = 0)).length

/-- Where the first of the longest runs of two or more zeros starts, and how long it is. -/
def longestRun : ℕ → List (Fin 65536) → ℕ × ℕ
  | _, [] => (0, 0)
  | start, piece :: pieces =>
      let later := longestRun (start + 1) pieces
      let here := zeroRun (piece :: pieces)
      if 1 < here ∧ later.2 ≤ here then (start, here) else later

/-- The pieces, the longest run of zeros compressed. -/
def serialize (address : Ipv6) : List Char :=
  let run := longestRun 0 address.pieces
  let hex := fun pieces : List (Fin 65536) => joinWith ':' (pieces.map fun piece : Fin 65536 => hexPiece piece.val)
  if run.2 = 0 then hex address.pieces
  else hex (address.pieces.take run.1) ++ ':' :: ':' :: hex (address.pieces.drop (run.1 + run.2))

end Ipv6

/-- The `hostname` of a URL. -/
def Host.serialize : Host → List Char
  | .domain d => d.name
  | .ipv4 address => address.serialize
  | .ipv6 address => '[' :: address.serialize ++ [']']
  | .raw text => text

/-! ### Joining and splitting -/

/-- The texts between the separators. -/
def splitAtChar (separator : Char) : List Char → List (List Char)
  | [] => [[]]
  | c :: text =>
      if c = separator then [] :: splitAtChar separator text
      else
        match splitAtChar separator text with
        | [] => [[c]]
        | item :: items => (c :: item) :: items

theorem splitAtChar_of_notMem {separator : Char} {item : List Char} (h : separator ∉ item) :
  splitAtChar separator item = [item]
  := by
  induction item with
  | nil => rfl
  | cons c item ih =>
      rw [List.mem_cons, not_or] at h
      rw [splitAtChar, if_neg (Ne.symm h.1), ih h.2]

theorem splitAtChar_append {separator : Char} {item : List Char} (h : separator ∉ item)
    (rest : List Char) :
  splitAtChar separator (item ++ separator :: rest) = item :: splitAtChar separator rest
  := by
  induction item with
  | nil => simp [splitAtChar]
  | cons c item ih =>
      rw [List.mem_cons, not_or] at h
      rw [List.cons_append, splitAtChar, if_neg (Ne.symm h.1), ih h.2]

/-- Items without the separator are found again. -/
theorem splitAtChar_joinWith {separator : Char} {items : List (List Char)} (hne : items ≠ [])
    (h : ∀ item ∈ items, separator ∉ item) :
  splitAtChar separator (joinWith separator items) = items
  := by
  induction items with
  | nil => apply absurd rfl hne
  | cons item items ih =>
      cases items with
      | nil => apply splitAtChar_of_notMem (h item List.mem_cons_self)
      | cons next items =>
          rw [joinWith, splitAtChar_append (h item List.mem_cons_self), ih (by simp)]
          · intro other hother
            apply h other (List.mem_cons_of_mem _ hother)
          · simp

/-- A character of a text is a separator, or one of an item. -/
theorem mem_splitAtChar {separator c : Char} {text : List Char} (h : c ∈ text) :
  c = separator ∨ ∃ item ∈ splitAtChar separator text, c ∈ item
  := by
  induction text with
  | nil => cases h
  | cons d text ih =>
      rw [splitAtChar]
      by_cases hd : d = separator
      · rw [if_pos hd]
        rcases List.mem_cons.mp h with rfl | hmem
        · apply Or.inl hd
        · rcases ih hmem with hsep | ⟨item, hitem, hc⟩
          · apply Or.inl hsep
          · exact Or.inr ⟨item, List.mem_cons_of_mem _ hitem, hc⟩
      · rw [if_neg hd]
        cases hsplit : splitAtChar separator text with
        | nil =>
            rcases List.mem_cons.mp h with rfl | hmem
            · exact Or.inr ⟨[c], by simp, by simp⟩
            · rcases ih hmem with hsep | ⟨item, hitem, -⟩
              · apply Or.inl hsep
              · rw [hsplit] at hitem
                cases hitem
        | cons first items =>
            rcases List.mem_cons.mp h with rfl | hmem
            · exact Or.inr ⟨c :: first, List.mem_cons_self, List.mem_cons_self⟩
            · rcases ih hmem with hsep | ⟨item, hitem, hc⟩
              · apply Or.inl hsep
              · rw [hsplit] at hitem
                rcases List.mem_cons.mp hitem with rfl | hlater
                · exact Or.inr ⟨d :: item, List.mem_cons_self, List.mem_cons_of_mem _ hc⟩
                · exact Or.inr ⟨item, List.mem_cons_of_mem _ hlater, hc⟩

theorem mem_joinWith {separator c : Char} {items : List (List Char)}
    (h : c ∈ joinWith separator items) :
  c = separator ∨ ∃ item ∈ items, c ∈ item
  := by
  induction items with
  | nil => cases h
  | cons item items ih =>
      cases items with
      | nil => exact Or.inr ⟨item, List.mem_cons_self, h⟩
      | cons next items =>
          rw [joinWith, List.mem_append, List.mem_cons] at h
          · rcases h with hitem | hsep | hrest
            · exact Or.inr ⟨item, List.mem_cons_self, hitem⟩
            · apply Or.inl hsep
            · rcases ih hrest with hsep | ⟨other, hother, hc⟩
              · apply Or.inl hsep
              · exact Or.inr ⟨other, List.mem_cons_of_mem _ hother, hc⟩
          · simp

/-! ### Digits -/

/-- The number that digits stand for. -/
def readDigits (base : ℕ) (digits : List Char) : ℕ :=
  digits.foldl (fun n c => n * base + (Json.hexValue c).getD 0) 0

/-- One to three decimal digits. -/
def isByteText (text : List Char) : Bool :=
  1 ≤ text.length && text.length ≤ 3 && text.all Char.isDigit

/-- One to four hexadecimal digits, in lower case. -/
def isPieceText (text : List Char) : Bool :=
  1 ≤ text.length && text.length ≤ 4 &&
    text.all fun c => c.isDigit || (0x61 ≤ c.toNat && c.toNat ≤ 0x66)

theorem decimalDigits_byte (byte : Fin 256) :
  isByteText (decimalDigits byte) = true ∧ readDigits 10 (decimalDigits byte) = byte
  := by
  revert byte
  decide +kernel

theorem hexDigit_digit (d : Fin 16) :
  Json.hexValue (Json.hexDigit d) = some d.val ∧ isPieceText [Json.hexDigit d] = true ∧
    (Json.hexDigit d).toNat < 0x80 ∧ (Json.hexDigit d).isUpper = false ∧ Json.hexDigit d ≠ ':'
  := by
  revert d
  decide +kernel

theorem hexPiece_digits (piece : Fin 65536) :
  ∃ digits : List (Fin 16), hexPiece piece = digits.map (fun d : Fin 16 => Json.hexDigit d.val) ∧
    (1 ≤ digits.length ∧ digits.length ≤ 4) ∧
    digits.foldl (fun n d => n * 16 + d.val) 0 = piece.val
  := by
  have hlt := piece.isLt
  by_cases h₁ : piece.val < 16
  · refine ⟨[⟨piece, h₁⟩], ?_, by simp, ?_⟩
    · simp [hexPiece, h₁]
    · simp
  · by_cases h₂ : piece.val < 256
    · refine ⟨[⟨piece / 16, by omega⟩, ⟨piece % 16, by omega⟩], ?_, by simp, ?_⟩
      · simp [hexPiece, h₁, h₂]
      · simp only [List.foldl_cons, List.foldl_nil]
        omega
    · by_cases h₃ : piece.val < 4096
      · refine ⟨[⟨piece / 256, by omega⟩, ⟨piece / 16 % 16, by omega⟩, ⟨piece % 16, by omega⟩],
          ?_, by simp, ?_⟩
        · simp [hexPiece, h₁, h₂, h₃]
        · simp only [List.foldl_cons, List.foldl_nil]
          omega
      · refine ⟨[⟨piece / 4096, by omega⟩, ⟨piece / 256 % 16, by omega⟩,
          ⟨piece / 16 % 16, by omega⟩, ⟨piece % 16, by omega⟩], ?_, by simp, ?_⟩
        · simp [hexPiece, h₁, h₂, h₃]
        · simp only [List.foldl_cons, List.foldl_nil]
          omega

theorem isPieceText_hexPiece (piece : Fin 65536) :
  isPieceText (hexPiece piece) = true
  := by
  obtain ⟨digits, hdigits, ⟨hlow, hhigh⟩, -⟩ := hexPiece_digits piece
  have hall : ∀ d ∈ digits, (Json.hexDigit d.val).isDigit = true ∨
      (0x61 ≤ (Json.hexDigit d.val).toNat ∧ (Json.hexDigit d.val).toNat ≤ 0x66) := by
    intro d _
    have hd := (hexDigit_digit d).2.1
    simp only [isPieceText, List.all_cons, List.all_nil, Bool.and_true, Bool.and_eq_true,
      Bool.or_eq_true, decide_eq_true_eq] at hd
    apply hd.2
  simp only [isPieceText, hdigits, List.length_map, List.all_map, Bool.and_eq_true,
    decide_eq_true_eq, List.all_eq_true, Function.comp_apply, Bool.or_eq_true]
  exact ⟨⟨hlow, hhigh⟩, hall⟩

theorem readDigits_hexPiece (piece : Fin 65536) :
  readDigits 16 (hexPiece piece) = piece
  := by
  obtain ⟨digits, hdigits, -, hvalue⟩ := hexPiece_digits piece
  rw [hdigits, readDigits, List.foldl_map, ← hvalue]
  congr 1
  funext n d
  rw [(hexDigit_digit d).1]
  rfl

theorem hexPiece_chars (piece : Fin 65536) :
  ∀ c ∈ hexPiece piece, c.toNat < 0x80 ∧ c.isUpper = false ∧ c ≠ ':'
  := by
  obtain ⟨digits, hdigits, -⟩ := hexPiece_digits piece
  rw [hdigits]
  intro c hc
  obtain ⟨d, -, rfl⟩ := List.mem_map.mp hc
  apply (hexDigit_digit d).2.2

/-- A piece of four digits starts with its two highest ones. -/
theorem hexPiece_of_le {n : ℕ} (h : 4096 ≤ n) :
  hexPiece n =
    [Json.hexDigit (n / 4096), Json.hexDigit (n / 256 % 16), Json.hexDigit (n / 16 % 16),
      Json.hexDigit (n % 16)]
  := by
  rw [hexPiece, if_neg (by omega), if_neg (by omega), if_neg (by omega)]

/-! ### Addresses -/

namespace Ipv4

theorem splitAtChar_serialize (address : Ipv4) :
  splitAtChar '.' address.serialize =
    [decimalDigits address.byte₁, decimalDigits address.byte₂, decimalDigits address.byte₃,
      decimalDigits address.byte₄]
  := by
  have hdot : ∀ byte : Fin 256, '.' ∉ decimalDigits byte := by
    intro byte hmem
    have htext := (decimalDigits_byte byte).1
    simp only [isByteText, Bool.and_eq_true, List.all_eq_true] at htext
    have hdigit := htext.2 '.' hmem
    revert hdigit
    decide
  apply splitAtChar_joinWith (by simp)
  simp [hdot]

theorem serialize_chars (address : Ipv4) :
  ∀ c ∈ address.serialize, c = '.' ∨ c.isDigit = true
  := by
  intro c hc
  have hbyte : ∀ byte : Fin 256, c ∈ decimalDigits byte → c.isDigit = true := by
    intro byte hmem
    have htext := (decimalDigits_byte byte).1
    simp only [isByteText, Bool.and_eq_true, List.all_eq_true] at htext
    apply htext.2 c hmem
  rcases mem_joinWith hc with hdot | ⟨item, hitem, hmem⟩
  · apply Or.inl hdot
  · right
    simp only [List.mem_cons, List.not_mem_nil, or_false] at hitem
    rcases hitem with rfl | rfl | rfl | rfl
    · apply hbyte _ hmem
    · apply hbyte _ hmem
    · apply hbyte _ hmem
    · apply hbyte _ hmem

end Ipv4

namespace Ipv6

/-- The pieces with colons between them. -/
def hexPieces (pieces : List (Fin 65536)) : List Char :=
  joinWith ':' (pieces.map fun piece : Fin 65536 => hexPiece piece.val)

theorem hexPieces_chars (pieces : List (Fin 65536)) :
  ∀ c ∈ hexPieces pieces, c.toNat < 0x80 ∧ c.isUpper = false
  := by
  intro c hc
  rcases mem_joinWith hc with rfl | ⟨item, hitem, hmem⟩
  · decide
  · obtain ⟨piece, -, rfl⟩ := List.mem_map.mp hitem
    obtain ⟨hascii, hlower, -⟩ := hexPiece_chars piece c hmem
    exact ⟨hascii, hlower⟩

theorem serialize_eq (address : Ipv6) :
  address.serialize =
    if (longestRun 0 address.pieces).2 = 0 then hexPieces address.pieces
    else
      hexPieces (address.pieces.take (longestRun 0 address.pieces).1) ++
        ':' :: ':' :: hexPieces (address.pieces.drop
          ((longestRun 0 address.pieces).1 + (longestRun 0 address.pieces).2))
  := rfl

theorem serialize_chars (address : Ipv6) :
  ∀ c ∈ address.serialize, c.toNat < 0x80 ∧ c.isUpper = false
  := by
  intro c hc
  rw [serialize_eq] at hc
  split at hc
  · apply hexPieces_chars _ c hc
  · rw [List.mem_append, List.mem_cons, List.mem_cons] at hc
    rcases hc with hbefore | rfl | rfl | hafter
    · apply hexPieces_chars _ c hbefore
    · decide
    · decide
    · apply hexPieces_chars _ c hafter

theorem colon_mem_serialize (address : Ipv6) :
  ':' ∈ address.serialize
  := by
  rw [serialize_eq]
  split
  · obtain ⟨pieces, hlength⟩ := address
    rcases pieces with - | ⟨a, - | ⟨b, pieces⟩⟩
    · cases hlength
    · cases hlength
    · simp [hexPieces, joinWith]
  · simp

theorem not_dot_mem_hexPieces (pieces : List (Fin 65536)) :
  '.' ∉ hexPieces pieces
  := by
  have hdot : ∀ d : Fin 16, Json.hexDigit d ≠ '.' := by decide +kernel
  intro hmem
  rcases mem_joinWith hmem with heq | ⟨item, hitem, hmem⟩
  · revert heq
    decide
  · obtain ⟨piece, -, rfl⟩ := List.mem_map.mp hitem
    obtain ⟨digits, hdigits, -⟩ := hexPiece_digits piece
    rw [hdigits] at hmem
    obtain ⟨d, -, hd⟩ := List.mem_map.mp hmem
    apply hdot d hd

theorem not_dot_mem_serialize (address : Ipv6) :
  '.' ∉ address.serialize
  := by
  rw [serialize_eq]
  split
  · apply not_dot_mem_hexPieces
  · simp [not_dot_mem_hexPieces]

theorem le_longestRun (start : ℕ) (pieces : List (Fin 65536))
    (h : (longestRun start pieces).2 ≠ 0) :
  start ≤ (longestRun start pieces).1
  := by
  induction pieces generalizing start with
  | nil => simp [longestRun] at h
  | cons piece pieces ih =>
      rw [longestRun] at h ⊢
      split
      · apply le_refl
      · next hnot =>
          rw [if_neg hnot] at h
          have hle := ih (start + 1) h
          omega

/-- An address whose first piece is not zero starts with that piece. -/
theorem serialize_of_first {address : Ipv6} {piece : Fin 65536} {pieces : List (Fin 65536)}
    (hpieces : address.pieces = piece :: pieces) (hne : piece ≠ 0) :
  ∃ rest, address.serialize = hexPiece piece ++ rest
  := by
  have hfirst : ∀ others, ∃ rest, hexPieces (piece :: others) = hexPiece piece ++ rest := by
    intro others
    cases others with
    | nil => exact ⟨[], (List.append_nil _).symm⟩
    | cons next others =>
        use ':' :: hexPieces (next :: others)
        rfl
  rw [serialize_eq, hpieces]
  split
  · apply hfirst
  · next hrun =>
      have hlater : longestRun 0 (piece :: pieces) = longestRun 1 pieces := by
        rw [longestRun]
        simp [zeroRun, hne]
      have hle := le_longestRun 1 pieces (by rw [← hlater]; apply hrun)
      rw [hlater]
      obtain ⟨before, hbefore⟩ := Nat.exists_eq_add_of_le hle
      obtain ⟨rest, hrest⟩ := hfirst (pieces.take before)
      rw [hbefore, Nat.add_comm 1 before, List.take_succ_cons, hrest, List.append_assoc]
      exact ⟨_, rfl⟩

end Ipv6
