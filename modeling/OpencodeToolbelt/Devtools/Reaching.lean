import OpencodeToolbelt.Devtools.Http
import Mathlib.Tactic.Use

/-!
# Reaching private networks

Which hosts are private, which of them the guard of the HTTP tools does not know for private, and
which calls therefore make requests to them.
-/

/-! ### Private hosts -/

namespace Ipv4

/-- The address as one number. -/
def value (address : Ipv4) : ℕ :=
  ((address.byte₁ * 256 + address.byte₂) * 256 + address.byte₃) * 256 + address.byte₄

/-- The address has its first bits in common with a network. -/
def InNetwork (a b : ℕ) (bits : ℕ) (address : Ipv4) : Prop :=
  address.value / 2 ^ (32 - bits) = (a * 2 ^ 24 + b * 2 ^ 16) / 2 ^ (32 - bits)

/-- 0/8, 10/8, 100.64/10, 127/8, 169.254/16, 172.16/12 and 192.168/16 -/
def IsPrivate (address : Ipv4) : Prop :=
  InNetwork 0 0 8 address ∨ InNetwork 10 0 8 address ∨ InNetwork 100 64 10 address ∨
    InNetwork 127 0 8 address ∨ InNetwork 169 254 16 address ∨ InNetwork 172 16 12 address ∨
    InNetwork 192 168 16 address

/-- The address in the last two pieces of an IPv6 address. -/
def ofPieces (hi lo : Fin 65536) : Ipv4 where
  byte₁ := ⟨hi / 256, by omega⟩
  byte₂ := ⟨hi % 256, by omega⟩
  byte₃ := ⟨lo / 256, by omega⟩
  byte₄ := ⟨lo % 256, by omega⟩

end Ipv4

namespace Ipv6

/-- The pieces as numbers. -/
def values (address : Ipv6) : List ℕ := address.pieces.map Fin.val

def IsUnspecified (address : Ipv6) : Prop := address.values = [0, 0, 0, 0, 0, 0, 0, 0]

def IsLoopback (address : Ipv6) : Prop := address.values = [0, 0, 0, 0, 0, 0, 0, 1]

/-- The first piece is in a range. -/
def StartsIn (low high : ℕ) (address : Ipv6) : Prop :=
  ∃ piece ∈ address.pieces.head?, low ≤ piece.val ∧ piece.val ≤ high

/-- fc00::/7 -/
def IsUniqueLocal (address : Ipv6) : Prop := StartsIn 0xfc00 0xfdff address

/-- fe80::/10 -/
def IsLinkLocal (address : Ipv6) : Prop := StartsIn 0xfe80 0xfebf address

/-- ff00::/8 -/
def IsMulticast (address : Ipv6) : Prop := StartsIn 0xff00 0xffff address

/-- The pieces before the two of the embedded address. -/
def Embeds (before : List ℕ) (inner : Ipv4) (address : Ipv6) : Prop :=
  ∃ hi lo : Fin 65536, address.values = before ++ [hi.val, lo.val] ∧ inner = Ipv4.ofPieces hi lo

def IsMappedOf : Ipv4 → Ipv6 → Prop := Embeds [0, 0, 0, 0, 0, 0xffff]

def IsCompatibleOf : Ipv4 → Ipv6 → Prop := Embeds [0, 0, 0, 0, 0, 0]

def IsNat64Of : Ipv4 → Ipv6 → Prop := Embeds [0x64, 0xff9b, 0, 0, 0, 0]

def IsPrivate (address : Ipv6) : Prop :=
  IsUnspecified address ∨ IsLoopback address ∨ IsUniqueLocal address ∨ IsLinkLocal address ∨
    IsMulticast address ∨ ∃ inner, inner.IsPrivate ∧
      (IsMappedOf inner address ∨ IsCompatibleOf inner address ∨ IsNat64Of inner address)

end Ipv6

/-- `localhost` or a subdomain of it, with or without a dot at the end. -/
def Domain.IsLocal (domain : Domain) : Prop :=
  ∃ name, (domain.name = name ∨ domain.name = name ++ ['.']) ∧
    (name = "localhost".toList ∨ ∃ sub, name = sub ++ ".localhost".toList)

namespace Host

/-- The hosts that the tools are not to reach. -/
def IsPrivate : Host → Prop
  | domain d => d.IsLocal
  | ipv4 address => address.IsPrivate
  | ipv6 address => address.IsPrivate
  | raw _ => False

/-- The private hosts that the guard does not know: local names with a dot at the end, and the
private IPv4 addresses in the IPv4-compatible and in the NAT64 form. -/
def IsOverlooked : Host → Prop
  | domain d => ∃ name, d.name = name ++ ['.'] ∧
      (name = "localhost".toList ∨ ∃ sub, name = sub ++ ".localhost".toList)
  | ipv4 _ => False
  | ipv6 address => ∃ inner, inner.IsPrivate ∧
      ((address.IsCompatibleOf inner ∧ ¬address.IsUnspecified ∧ ¬address.IsLoopback) ∨
        address.IsNat64Of inner)
  | raw _ => False

end Host

/-! ### Texts of hosts -/

theorem toLower_eq_self {c : Char} (h : c.toNat < 0x80 ∧ c.isUpper = false) :
  (if c.toNat = 0x212a then 'k' else c.toLower) = c
  := by
  obtain ⟨hascii, hlower⟩ := h
  rw [if_neg (by omega)]
  apply dif_neg (of_decide_eq_false hlower)

theorem not_isUpper_of_isDigit {c : Char} (h : c.isDigit = true) :
  c.toNat < 0x80 ∧ c.isUpper = false
  := by
  rw [charDigit_iff] at h
  rw [← Bool.not_eq_true, charUpper_iff]
  omega

theorem toLowerCase_eq_self {text : List Char}
    (h : ∀ c ∈ text, c.toNat < 0x80 ∧ c.isUpper = false) :
  toLowerCase text = text
  := by
  have hself : ∀ c ∈ text, (if c.toNat = 0x212a then 'k' else c.toLower) = id c := by
    intro c hc
    apply toLower_eq_self (h c hc)
  rw [toLowerCase, List.map_congr_left hself, List.map_id]

theorem length_splitAtChar (separator : Char) (text : List Char) :
  (splitAtChar separator text).length = text.count separator + 1
  := by
  induction text with
  | nil => rfl
  | cons c text ih =>
      rw [splitAtChar]
      by_cases hc : c = separator
      · rw [if_pos hc, hc, List.count_cons_self, List.length_cons, ih]
      · rw [if_neg hc, List.count_cons_of_ne hc, ← ih]
        cases hsplit : splitAtChar separator text with
        | nil => simp [hsplit] at ih
        | cons item items => rfl

namespace HttpTools

theorem stripBrackets_of_notMem {text : List Char} (hopen : '[' ∉ text) (hclose : ']' ∉ text) :
  stripBrackets text = text
  := by
  have hlast : text.getLast? ≠ some ']' := fun h => hclose (List.mem_of_getLast? h)
  cases text with
  | nil => rfl
  | cons c text =>
      rw [List.mem_cons, not_or] at hopen
      rw [stripBrackets, if_neg hlast]
      intro rest heq
      injection heq with hc
      apply hopen.1 hc.symm

theorem stripBrackets_brackets (text : List Char) :
  stripBrackets ('[' :: text ++ [']']) = text
  := by simp [stripBrackets]

/-- Dotted numbers have digits and three dots. -/
theorem chars_of_dottedQuad {text : List Char} (h : (dottedQuad text).isSome = true) :
  text.count '.' = 3 ∧ ∀ c ∈ text, c = '.' ∨ c.isDigit = true
  := by
  rw [dottedQuad] at h
  split at h
  · next a b c d hsplit =>
      split at h
      · next hbytes =>
          simp only [isByteText, Bool.and_eq_true, List.all_eq_true] at hbytes
          constructor
          · have hlength := length_splitAtChar '.' text
            rw [hsplit] at hlength
            simp at hlength
            omega
          · intro x hx
            rcases mem_splitAtChar hx with hdot | ⟨item, hitem, hmem⟩
            · apply Or.inl hdot
            · right
              rw [hsplit] at hitem
              simp only [List.mem_cons, List.not_mem_nil, or_false] at hitem
              rcases hitem with rfl | rfl | rfl | rfl
              · apply hbytes.1.1.1.2 x hmem
              · apply hbytes.1.1.2.2 x hmem
              · apply hbytes.1.2.2 x hmem
              · apply hbytes.2.2 x hmem
      · cases h
  · cases h

theorem dottedQuad_eq_none {text : List Char} {c : Char} (hc : c ∈ text) (hdot : c ≠ '.')
    (hdigit : c.isDigit = false) :
  dottedQuad text = none
  := by
  rw [← Option.not_isSome_iff_eq_none]
  intro hsome
  rcases (chars_of_dottedQuad hsome).2 c hc with heq | hisDigit
  · apply hdot heq
  · rw [hdigit] at hisDigit
    cases hisDigit

/-- An IPv4-mapped literal has a dot, or four colons. -/
theorem count_of_mappedIpv4 {h mapped : List Char} (hmapped : mappedIpv4 h = some mapped) :
  '.' ∈ h ∨ h.count ':' = 4
  := by
  rw [mappedIpv4] at hmapped
  cases hafter : afterMapped h with
  | none => simp [hafter] at hmapped
  | some rest =>
      have hrest : h = "::ffff:".toList ++ rest := by
        rw [afterMapped.eq_def] at hafter
        split at hafter
        · injection hafter with heq
          rw [heq]
          rfl
        · cases hafter
      rw [hafter, Option.bind_eq_bind, Option.bind_some] at hmapped
      split at hmapped
      · next hdotted =>
          left
          have hcount := (chars_of_dottedQuad hdotted).1
          rw [hrest, List.mem_append]
          right
          rw [← List.count_pos_iff]
          omega
      · split at hmapped
        · next hi lo hsplit =>
            right
            have hlength := length_splitAtChar ':' rest
            rw [hsplit] at hlength
            rw [hrest, List.count_append]
            simp at hlength ⊢
            omega
        · cases hmapped

end HttpTools

namespace Ipv4

theorem isPrivate_iff (address : Ipv4) :
  address.IsPrivate ↔
    (address.byte₁.val = 10 ∨ address.byte₁.val = 127 ∨ address.byte₁.val = 0) ∨
    (address.byte₁.val = 169 ∧ address.byte₂.val = 254) ∨
    (address.byte₁.val = 172 ∧ 16 ≤ address.byte₂.val ∧ address.byte₂.val ≤ 31) ∨
    (address.byte₁.val = 192 ∧ address.byte₂.val = 168) ∨
    (address.byte₁.val = 100 ∧ 64 ≤ address.byte₂.val ∧ address.byte₂.val ≤ 127)
  := by
  have h₁ := address.byte₁.isLt
  have h₂ := address.byte₂.isLt
  have h₃ := address.byte₃.isLt
  have h₄ := address.byte₄.isLt
  have hbyte : ∀ a < 256, InNetwork a 0 8 address ↔ address.byte₁.val = a := by
    intro a ha
    rw [InNetwork, value]
    omega
  have hbytes : ∀ a b, a < 256 → b < 256 →
      (InNetwork a b 16 address ↔ address.byte₁.val = a ∧ address.byte₂.val = b) := by
    intro a b ha hb
    rw [InNetwork, value]
    omega
  have hcgnat : InNetwork 100 64 10 address ↔
      address.byte₁.val = 100 ∧ 64 ≤ address.byte₂.val ∧ address.byte₂.val ≤ 127 := by
    rw [InNetwork, value]
    omega
  have hmiddle : InNetwork 172 16 12 address ↔
      address.byte₁.val = 172 ∧ 16 ≤ address.byte₂.val ∧ address.byte₂.val ≤ 31 := by
    rw [InNetwork, value]
    omega
  rw [IsPrivate, hbyte 0 (by decide), hbyte 10 (by decide), hbyte 127 (by decide),
    hbytes 169 254 (by decide) (by decide), hbytes 192 168 (by decide) (by decide), hcgnat,
    hmiddle]
  generalize address.byte₁.val = a
  generalize address.byte₂.val = b
  omega

open HttpTools

theorem dottedQuad_serialize (address : Ipv4) :
  dottedQuad address.serialize =
    some (address.byte₁.val, address.byte₂.val, address.byte₃.val, address.byte₄.val)
  := by
  rw [dottedQuad, splitAtChar_serialize]
  simp [decimalDigits_byte]

theorem isPrivateIpv4_serialize (address : Ipv4) :
  isPrivateIpv4 address.serialize = true ↔ address.IsPrivate
  := by
  rw [isPrivateIpv4, dottedQuad_serialize, isPrivate_iff]
  simp only [Bool.if_true_left, Bool.or_eq_true, decide_eq_true_eq, Bool.if_false_right,
    Bool.and_true]

end Ipv4

namespace Ipv6

theorem pieces_of_values {address : Ipv6} {pieces : List (Fin 65536)}
    (h : address.values = pieces.map Fin.val) :
  address.pieces = pieces
  := List.map_injective_iff.mpr (fun _ _ => Fin.ext) h

theorem serialize_unspecified {address : Ipv6} (h : address.IsUnspecified) :
  address.serialize = "::".toList
  := by
  have hpieces : address.pieces = [0, 0, 0, 0, 0, 0, 0, 0] := pieces_of_values h
  rw [serialize_eq, hpieces]
  decide +kernel

theorem serialize_loopback {address : Ipv6} (h : address.IsLoopback) :
  address.serialize = "::1".toList
  := by
  have hpieces : address.pieces = [0, 0, 0, 0, 0, 0, 0, 1] := pieces_of_values h
  rw [serialize_eq, hpieces]
  decide +kernel

theorem serialize_mapped {address : Ipv6} {hi lo : Fin 65536}
    (h : address.values = [0, 0, 0, 0, 0, 0xffff, hi.val, lo.val]) :
  address.serialize = "::ffff:".toList ++ (hexPiece hi ++ ':' :: hexPiece lo)
  := by
  have hrun : longestRun 0 [0, 0, 0, 0, 0, 0xffff, hi, lo] = (0, 5) := by
    by_cases hhi : hi = 0 <;> by_cases hlo : lo = 0 <;> simp [longestRun, zeroRun, hhi, hlo]
  have hpieces : address.pieces = [0, 0, 0, 0, 0, 0xffff, hi, lo] := pieces_of_values h
  rw [serialize_eq, hpieces, hrun]
  rfl

/-- The pieces that are written of an IPv4-compatible address. -/
theorem serialize_compatible {address : Ipv6} {hi lo : Fin 65536}
    (h : address.values = [0, 0, 0, 0, 0, 0, hi.val, lo.val]) (hne : hi ≠ 0 ∨ lo ≠ 0) :
  address.serialize = "::".toList ++ (if hi = 0 then hexPiece lo else hexPiece hi ++ ':' :: hexPiece lo)
  := by
  have hpieces : address.pieces = [0, 0, 0, 0, 0, 0, hi, lo] := pieces_of_values h
  rw [serialize_eq, hpieces]
  by_cases hhi : hi = 0
  · have hlo : lo ≠ 0 := hne.resolve_left (not_not.mpr hhi)
    have hrun : longestRun 0 [0, 0, 0, 0, 0, 0, hi, lo] = (0, 7) := by
      simp [longestRun, zeroRun, hhi, hlo]
    rw [hrun, if_pos hhi]
    rfl
  · have hrun : longestRun 0 [0, 0, 0, 0, 0, 0, hi, lo] = (0, 6) := by
      by_cases hlo : lo = 0 <;> simp [longestRun, zeroRun, hhi, hlo]
    rw [hrun, if_neg hhi]
    rfl

theorem serialize_nat64 {address : Ipv6} {hi lo : Fin 65536}
    (h : address.values = [0x64, 0xff9b, 0, 0, 0, 0, hi.val, lo.val]) :
  ∃ rest, address.serialize = '6' :: rest
  := by
  have hpieces : address.pieces = [0x64, 0xff9b, 0, 0, 0, 0, hi, lo] := pieces_of_values h
  obtain ⟨rest, hrest⟩ := serialize_of_first hpieces (by decide)
  use '4' :: rest
  rw [hrest]
  rfl

/-- An address whose first piece has four digits starts with them. -/
theorem serialize_of_range {address : Ipv6} {piece : Fin 65536}
    (h : piece ∈ address.pieces.head?) (hle : 4096 ≤ piece.val) :
  ∃ rest, address.serialize =
    Json.hexDigit (piece / 4096) :: Json.hexDigit (piece / 256 % 16) ::
      Json.hexDigit (piece / 16 % 16) :: rest
  := by
  obtain ⟨pieces, hpieces⟩ : ∃ pieces, address.pieces = piece :: pieces := by
    apply List.head?_eq_some_iff.mp h
  have hne : piece ≠ 0 := by
    rintro rfl
    simp at hle
  obtain ⟨rest, hrest⟩ := serialize_of_first hpieces hne
  use Json.hexDigit (piece % 16) :: rest
  rw [hrest, hexPiece_of_le hle]
  rfl

end Ipv6

/-! ### The guard and the hosts -/

namespace HttpTools

theorem normalized_of_text {text : List Char} (hopen : '[' ∉ text) (hclose : ']' ∉ text)
    (hchars : ∀ c ∈ text, c.toNat < 0x80 ∧ c.isUpper = false) :
  stripBrackets (toLowerCase text) = text
  := by rw [toLowerCase_eq_self hchars, stripBrackets_of_notMem hopen hclose]

section

variable {hostname h : List Char} (hnormalized : stripBrackets (toLowerCase hostname) = h)

include hnormalized

theorem isBlockedHost_of_name (hcolon : ':' ∉ h) (hquad : dottedQuad h = none) :
  isBlockedHost hostname = true ↔
    h = "localhost".toList ∨ ∃ sub, h = sub ++ ".localhost".toList
  := by
  rw [isBlockedHost, hnormalized, if_pos (by simp [hcolon, hquad]), Bool.or_eq_true, decide_eq_true_eq,
    List.isSuffixOf_iff_suffix]
  apply or_congr_right
  constructor
  · rintro ⟨sub, hsub⟩
    exact ⟨sub, hsub.symm⟩
  · rintro ⟨sub, hsub⟩
    exact ⟨sub, hsub.symm⟩

theorem isBlockedHost_of_quad (hquad : (dottedQuad h).isSome = true) :
  isBlockedHost hostname = isPrivateIpv4 h
  := by
  rw [isBlockedHost, hnormalized, if_neg (by simp [hquad]), if_pos hquad]

theorem isBlockedHost_of_colon (hcolon : ':' ∈ h) (hquad : dottedQuad h = none) :
  isBlockedHost hostname =
    if h = "::1".toList ∨ h = "::".toList then true
    else
      match mappedIpv4 h with
      | some mapped => isPrivateIpv4 mapped
      | none =>
          if ['f', 'c'].isPrefixOf h ∨ ['f', 'd'].isPrefixOf h then true
          else if isLinkLocalText h then true
          else ['f', 'f'].isPrefixOf h
  := by
  rw [isBlockedHost, hnormalized, if_neg (by simp [hcolon])]
  apply if_neg (by simp [hquad])

end

/-- A name with a letter is blocked only in the family of `localhost`. -/
theorem isBlockedHost_domain (domain : Domain) (ht : 't' ∈ domain.name) :
  isBlockedHost domain.name = true ↔
    domain.name = "localhost".toList ∨ ∃ sub, domain.name = sub ++ ".localhost".toList
  := by
  have hnot : ∀ c, isForbiddenDomainChar c = true → c ∉ domain.name := by
    intro c hforbidden hmem
    rw [domain.allowed c hmem] at hforbidden
    cases hforbidden
  apply isBlockedHost_of_name
  · apply normalized_of_text (hnot _ (by decide)) (hnot _ (by decide)) domain.lower
  · apply hnot _ (by decide)
  · apply dottedQuad_eq_none ht (by decide) (by decide)

theorem isBlockedHost_ipv4 (address : Ipv4) :
  isBlockedHost address.serialize = true ↔ address.IsPrivate
  := by
  have hnot : ∀ c, c ≠ '.' → c.isDigit = false → c ∉ address.serialize := by
    intro c hdot hdigit hmem
    rcases address.serialize_chars c hmem with heq | hisDigit
    · apply hdot heq
    · rw [hdigit] at hisDigit
      cases hisDigit
  have hchars : ∀ c ∈ address.serialize, c.toNat < 0x80 ∧ c.isUpper = false := by
    intro c hmem
    rcases address.serialize_chars c hmem with rfl | hdigit
    · decide
    · apply not_isUpper_of_isDigit hdigit
  have hnormalized := normalized_of_text (hnot _ (by decide) (by decide))
    (hnot _ (by decide) (by decide)) hchars
  rw [isBlockedHost_of_quad hnormalized (by rw [Ipv4.dottedQuad_serialize]; rfl),
    Ipv4.isPrivateIpv4_serialize]

/-- The text of an IPv6 address is classified without its brackets. -/
theorem isBlockedHost_ipv6 (address : Ipv6) :
  isBlockedHost (Host.ipv6 address).serialize =
    if address.serialize = "::1".toList ∨ address.serialize = "::".toList then true
    else
      match mappedIpv4 address.serialize with
      | some mapped => isPrivateIpv4 mapped
      | none =>
          if ['f', 'c'].isPrefixOf address.serialize ∨ ['f', 'd'].isPrefixOf address.serialize then
            true
          else if isLinkLocalText address.serialize then true
          else ['f', 'f'].isPrefixOf address.serialize
  := by
  have hlower : toLowerCase (Host.ipv6 address).serialize = '[' :: address.serialize ++ [']'] := by
    apply toLowerCase_eq_self
    intro c hc
    rw [Host.serialize, List.cons_append, List.mem_cons, List.mem_append, List.mem_singleton] at hc
    rcases hc with rfl | hmem | rfl
    · decide
    · apply address.serialize_chars c hmem
    · decide
  apply isBlockedHost_of_colon
  · rw [hlower, stripBrackets_brackets]
  · apply address.colon_mem_serialize
  · apply dottedQuad_eq_none address.colon_mem_serialize (by decide) (by decide)

/-- An address that starts with a digit other than zero is not mapped. -/
theorem mappedIpv4_cons {c : Char} {text : List Char} (hc : c ≠ ':') :
  mappedIpv4 (c :: text) = none
  := by
  have hafter : afterMapped (c :: text) = none := by
    rw [afterMapped]
    intro rest heq
    injection heq with hcolon
    apply hc hcolon
  rw [mappedIpv4, hafter]
  rfl

theorem mappedIpv4_mapped (hi lo : Fin 65536) :
  mappedIpv4 ("::ffff:".toList ++ (hexPiece hi ++ ':' :: hexPiece lo)) =
    some (Ipv4.ofPieces hi lo).serialize
  := by
  have hcolon : ∀ piece : Fin 65536, ':' ∉ hexPiece piece := by
    intro piece hmem
    apply (hexPiece_chars piece ':' hmem).2.2 rfl
  have hquad : dottedQuad (hexPiece hi ++ ':' :: hexPiece lo) = none :=
    dottedQuad_eq_none (List.mem_append_right _ List.mem_cons_self) (by decide) (by decide)
  have hsplit : splitAtChar ':' (hexPiece hi ++ ':' :: hexPiece lo) =
      [hexPiece hi, hexPiece lo] := by
    rw [splitAtChar_append (hcolon hi), splitAtChar_of_notMem (hcolon lo)]
  have hafter : afterMapped ("::ffff:".toList ++ (hexPiece hi ++ ':' :: hexPiece lo)) =
      some (hexPiece hi ++ ':' :: hexPiece lo) := rfl
  rw [mappedIpv4, hafter, Option.bind_eq_bind, Option.bind_some, hquad, if_neg (by simp), hsplit]
  dsimp only
  rw [isPieceText_hexPiece, isPieceText_hexPiece, Bool.and_true, if_pos rfl, readDigits_hexPiece,
    readDigits_hexPiece, Nat.mod_eq_of_lt (show hi.val / 256 < 256 by omega),
    Nat.mod_eq_of_lt (show lo.val / 256 < 256 by omega)]
  rfl

end HttpTools

namespace Ipv6

open HttpTools

theorem blocked_of_unspecified {address : Ipv6} (h : address.IsUnspecified) :
  isBlockedHost (Host.ipv6 address).serialize = true
  := by rw [isBlockedHost_ipv6, if_pos (Or.inr (serialize_unspecified h))]

theorem blocked_of_loopback {address : Ipv6} (h : address.IsLoopback) :
  isBlockedHost (Host.ipv6 address).serialize = true
  := by rw [isBlockedHost_ipv6, if_pos (Or.inl (serialize_loopback h))]

/-- A mapped address is classified by the IPv4 address in it. -/
theorem blocked_mapped_iff {address : Ipv6} {inner : Ipv4} (h : address.IsMappedOf inner) :
  isBlockedHost (Host.ipv6 address).serialize = true ↔ inner.IsPrivate
  := by
  obtain ⟨hi, lo, hvalues, rfl⟩ := h
  have htext := serialize_mapped hvalues
  have hne : address.serialize ≠ "::1".toList ∧ address.serialize ≠ "::".toList := by
    rw [htext]
    constructor
    · intro heq
      injection heq with _ heq
      injection heq with _ heq
      injection heq with heq
      revert heq
      decide
    · intro heq
      injection heq with _ heq
      injection heq with _ heq
      cases heq
  rw [isBlockedHost_ipv6, if_neg (not_or.mpr hne), htext, mappedIpv4_mapped]
  apply Ipv4.isPrivateIpv4_serialize

theorem blocked_of_letter {address : Ipv6} {b c : Char} {rest : List Char}
    (h : address.serialize = 'f' :: b :: c :: rest)
    (hkind : b = 'c' ∨ b = 'd' ∨ b = 'f' ∨ (b = 'e' ∧ c ∈ ['8', '9', 'a', 'b'])) :
  isBlockedHost (Host.ipv6 address).serialize = true
  := by
  rw [isBlockedHost_ipv6, h, if_neg, mappedIpv4_cons (by decide)]
  · rcases hkind with rfl | rfl | rfl | ⟨rfl, hc⟩
    · simp
    · simp
    · simp
    · simp [isLinkLocalText] at hc ⊢
      simp [hc]
  · rintro (heq | heq)
    · injection heq with heq
      revert heq
      decide
    · injection heq with heq
      revert heq
      decide

theorem blocked_of_range {address : Ipv6}
    (h : address.IsUniqueLocal ∨ address.IsLinkLocal ∨ address.IsMulticast) :
  isBlockedHost (Host.ipv6 address).serialize = true
  := by
  have hdigit : ∀ d : Fin 16, (d.val = 8 ∨ d.val = 9 ∨ d.val = 10 ∨ d.val = 11) →
      Json.hexDigit d ∈ ['8', '9', 'a', 'b'] := by decide
  rcases h with ⟨piece, hpiece, hlow, hhigh⟩ | ⟨piece, hpiece, hlow, hhigh⟩ |
    ⟨piece, hpiece, hlow, hhigh⟩
  · obtain ⟨rest, hrest⟩ := serialize_of_range hpiece (by omega)
    rw [show piece.val / 4096 = 15 by omega] at hrest
    apply blocked_of_letter hrest
    rcases (by omega : piece.val / 256 % 16 = 12 ∨ piece.val / 256 % 16 = 13) with heq | heq
    · left
      rw [heq]
      rfl
    · right
      left
      rw [heq]
      rfl
  · obtain ⟨rest, hrest⟩ := serialize_of_range hpiece (by omega)
    rw [show piece.val / 4096 = 15 by omega] at hrest
    apply blocked_of_letter hrest
    right
    right
    right
    constructor
    · rw [show piece.val / 256 % 16 = 14 by omega]
      rfl
    · apply hdigit ⟨piece / 16 % 16, by omega⟩
      dsimp only
      omega
  · obtain ⟨rest, hrest⟩ := serialize_of_range hpiece (by omega)
    rw [show piece.val / 4096 = 15 by omega] at hrest
    apply blocked_of_letter hrest
    right
    right
    left
    rw [show piece.val / 256 % 16 = 15 by omega]
    rfl

/-- What starts with neither an `f` nor a mapped address is not blocked, but for two addresses. -/
theorem not_blocked_of {address : Ipv6} (hloopback : address.serialize ≠ "::1".toList)
    (hunspecified : address.serialize ≠ "::".toList)
    (hmapped : mappedIpv4 address.serialize = none) (hfirst : address.serialize.head? ≠ some 'f') :
  isBlockedHost (Host.ipv6 address).serialize = false
  := by
  rw [isBlockedHost_ipv6, if_neg (not_or.mpr ⟨hloopback, hunspecified⟩), hmapped]
  cases htext : address.serialize with
  | nil => rfl
  | cons c text =>
      rw [htext, List.head?_cons, ne_eq, Option.some.injEq] at hfirst
      have hlocal : isLinkLocalText (c :: text) = false := by
        rw [isLinkLocalText]
        intro _ _ heq
        injection heq with hc
        apply hfirst hc
      simp [hlocal, Ne.symm hfirst, List.isPrefixOf]

theorem not_blocked_of_compatible {address : Ipv6} {inner : Ipv4}
    (h : address.IsCompatibleOf inner) (hunspecified : ¬address.IsUnspecified)
    (hloopback : ¬address.IsLoopback) :
  isBlockedHost (Host.ipv6 address).serialize = false
  := by
  obtain ⟨hi, lo, hvalues, -⟩ := h
  have hcolon : ∀ piece : Fin 65536, (hexPiece piece).count ':' = 0 := by
    intro piece
    rw [List.count_eq_zero]
    intro hmem
    apply (hexPiece_chars piece ':' hmem).2.2 rfl
  have hne : hi ≠ 0 ∨ lo ≠ 0 := by
    by_contra hzero
    rw [not_or, not_not, not_not] at hzero
    apply hunspecified
    rw [IsUnspecified, hvalues, hzero.1, hzero.2]
    rfl
  have htext := serialize_compatible hvalues hne
  have hcount : address.serialize.count ':' = if hi = 0 then 2 else 3 := by
    rw [htext]
    split
    · simp [hcolon]
    · simp [hcolon]
  apply not_blocked_of
  · intro heq
    by_cases hhi : hi = 0
    · rw [htext, if_pos hhi] at heq
      have hone : hexPiece lo = ['1'] :=
        List.append_cancel_left (show "::".toList ++ _ = "::".toList ++ _ from heq)
      have hlo := readDigits_hexPiece lo
      rw [hone] at hlo
      have hlo' : lo = 1 := Fin.ext hlo.symm
      apply hloopback
      rw [IsLoopback, hvalues, hhi, hlo']
      rfl
    · rw [heq, if_neg hhi] at hcount
      revert hcount
      decide
  · intro heq
    by_cases hhi : hi = 0
    · rw [htext, if_pos hhi] at heq
      have hnil : hexPiece lo = [] :=
        List.append_cancel_left (show "::".toList ++ _ = "::".toList ++ _ from heq)
      have hpiece := isPieceText_hexPiece lo
      rw [hnil] at hpiece
      cases hpiece
    · rw [heq, if_neg hhi] at hcount
      revert hcount
      decide
  · rw [Option.eq_none_iff_forall_ne_some]
    intro mapped hmapped
    rcases count_of_mappedIpv4 hmapped with hdot | hfour
    · apply not_dot_mem_serialize address hdot
    · rw [hfour] at hcount
      split at hcount
      · cases hcount
      · cases hcount
  · rw [htext]
    simp

theorem not_blocked_of_nat64 {address : Ipv6} {inner : Ipv4} (h : address.IsNat64Of inner) :
  isBlockedHost (Host.ipv6 address).serialize = false
  := by
  obtain ⟨hi, lo, hvalues, -⟩ := h
  obtain ⟨rest, hrest⟩ := serialize_nat64 hvalues
  apply not_blocked_of
  · rw [hrest]
    intro heq
    injection heq with heq
    revert heq
    decide
  · rw [hrest]
    intro heq
    injection heq with heq
    revert heq
    decide
  · rw [hrest]
    apply mappedIpv4_cons (by decide)
  · rw [hrest]
    simp

end Ipv6

namespace Host

open HttpTools

theorem IsOverlooked.isPrivate {host : Host} (h : host.IsOverlooked) :
  host.IsPrivate
  := by
  cases host with
  | domain d =>
      obtain ⟨name, hname, hlocal⟩ := h
      exact ⟨name, Or.inr hname, hlocal⟩
  | ipv4 address => cases h
  | ipv6 address =>
      obtain ⟨inner, hinner, hform⟩ := h
      right
      right
      right
      right
      right
      use inner, hinner
      right
      apply hform.imp_left And.left
  | raw text => cases h

theorem t_mem_of_local {name : List Char}
    (h : name = "localhost".toList ∨ ∃ sub, name = sub ++ ".localhost".toList) :
  't' ∈ name
  := by
  rcases h with rfl | ⟨sub, rfl⟩
  · decide
  · apply List.mem_append_right
    decide

/-- The private hosts that the guard lets through are the overlooked ones. -/
theorem isPrivate_and_not_blocked_iff (host : Host) :
  host.IsPrivate ∧ isBlockedHost host.serialize = false ↔ host.IsOverlooked
  := by
  constructor
  · rintro ⟨hprivate, hnot⟩
    cases host with
    | domain d =>
        obtain ⟨name, hname | hname, hlocal⟩ := hprivate
        · have hblocked := (isBlockedHost_domain d (hname ▸ t_mem_of_local hlocal)).mpr
            (hname ▸ hlocal)
          rw [Host.serialize, hblocked] at hnot
          cases hnot
        · exact ⟨name, hname, hlocal⟩
    | ipv4 address =>
        rw [Host.serialize, (isBlockedHost_ipv4 address).mpr hprivate] at hnot
        cases hnot
    | ipv6 address =>
        rcases hprivate with h | h | h | h | h | ⟨inner, hinner, hform⟩
        · rw [Ipv6.blocked_of_unspecified h] at hnot
          cases hnot
        · rw [Ipv6.blocked_of_loopback h] at hnot
          cases hnot
        · rw [Ipv6.blocked_of_range (Or.inl h)] at hnot
          cases hnot
        · rw [Ipv6.blocked_of_range (Or.inr (Or.inl h))] at hnot
          cases hnot
        · rw [Ipv6.blocked_of_range (Or.inr (Or.inr h))] at hnot
          cases hnot
        · use inner, hinner
          rcases hform with hmapped | hcompatible | hnat64
          · rw [(Ipv6.blocked_mapped_iff hmapped).mpr hinner] at hnot
            cases hnot
          · left
            refine ⟨hcompatible, ?_, ?_⟩
            · intro h
              rw [Ipv6.blocked_of_unspecified h] at hnot
              cases hnot
            · intro h
              rw [Ipv6.blocked_of_loopback h] at hnot
              cases hnot
          · apply Or.inr hnat64
    | raw text => cases hprivate
  · intro h
    use h.isPrivate
    cases host with
    | domain d =>
        obtain ⟨name, hname, hlocal⟩ := h
        have ht : 't' ∈ d.name := by
          rw [hname]
          apply List.mem_append_left _ (t_mem_of_local hlocal)
        rw [← Bool.not_eq_true, Host.serialize, isBlockedHost_domain d ht, hname]
        rintro (heq | ⟨sub, heq⟩)
        · have hlast := congrArg List.getLast? heq
          rw [List.getLast?_concat] at hlast
          revert hlast
          decide
        · have hlast := congrArg List.getLast? heq
          rw [List.getLast?_concat, List.getLast?_append] at hlast
          revert hlast
          simp
    | ipv4 address => cases h
    | ipv6 address =>
        obtain ⟨inner, -, ⟨hcompatible, hunspecified, hloopback⟩ | hnat64⟩ := h
        · apply Ipv6.not_blocked_of_compatible hcompatible hunspecified hloopback
        · apply Ipv6.not_blocked_of_nat64 hnat64
    | raw text => cases h

end Host

/-! ### Runs -/

def Url.IsPrivate (url : Url) : Prop := ∃ host, url.host = some host ∧ host.IsPrivate

def Url.IsOverlooked (url : Url) : Prop := ∃ host, url.host = some host ∧ host.IsOverlooked

namespace HttpTools

variable {hosts : HostParser}

/-- A URL that the guard accepts while private networks are closed. -/
def accepts (url : Url) : Bool := isHttp url && !isBlockedHost url.hostname

/-- The options that keep the tools out of private networks. -/
def guarded : HttpOptions := ⟨false⟩

theorem assertAllowed_of_accepts {rawUrl : List Char} {url : Url}
    (hparse : Url.parse hosts rawUrl = some url) (h : accepts url = true) :
  assertAllowed hosts guarded rawUrl = .ok url
  := by
  rw [accepts, Bool.and_eq_true, Bool.not_eq_true'] at h
  simp [assertAllowed, hparse, guarded, h.1, h.2]

theorem assertAllowed_of_not_accepts {rawUrl : List Char} {url : Url}
    (hparse : Url.parse hosts rawUrl = some url) (h : accepts url = false) :
  ∃ message, assertAllowed hosts guarded rawUrl = .error message
  := by
  rw [accepts, Bool.and_eq_false_iff, Bool.not_eq_false'] at h
  rw [assertAllowed, hparse]
  cases hhttp : isHttp url with
  | false => simp [hhttp]
  | true =>
      rw [hhttp] at h
      have hblocked := h.resolve_left (Ne.symm Bool.false_ne_true)
      simp [hhttp, hblocked, guarded]

theorem accepts_of_assertAllowed {rawUrl : List Char} {url : Url}
    (h : assertAllowed hosts guarded rawUrl = .ok url) :
  accepts url = true
  := by
  cases hparse : Url.parse hosts rawUrl with
  | none => simp [assertAllowed, hparse] at h
  | some parsed =>
      cases haccepts : accepts parsed with
      | false =>
          obtain ⟨message, herror⟩ := assertAllowed_of_not_accepts hparse haccepts
          rw [h] at herror
          cases herror
      | true =>
          rw [assertAllowed_of_accepts hparse haccepts] at h
          injection h with heq
          rw [← heq, haccepts]

/-- An accepted URL is private where the guard overlooks its host. -/
theorem isPrivate_iff_of_accepts {url : Url} (h : accepts url = true) :
  url.IsPrivate ↔ url.IsOverlooked
  := by
  rw [accepts, Bool.and_eq_true, Bool.not_eq_true', Url.hostname] at h
  constructor
  · rintro ⟨host, hhost, hprivate⟩
    rw [hhost] at h
    exact ⟨host, hhost, (Host.isPrivate_and_not_blocked_iff host).mp ⟨hprivate, h.2⟩⟩
  · rintro ⟨host, hhost, hoverlooked⟩
    exact ⟨host, hhost, hoverlooked.isPrivate⟩

section Chain

variable (redirects : Redirects hosts) (responses : ℕ → Except String Response)

/-- Where the response at a hop leads from a URL. -/
def target (hop : ℕ) (url : Url) : Option Url :=
  match responses hop with
  | .error _ => none
  | .ok res => res.redirect.bind fun location => redirects.resolve location url

/-- The URL that so many redirects lead to, from a URL at a hop. -/
def chain : ℕ → Url → ℕ → Option Url
  | _, url, 0 => some url
  | hop, url, n + 1 => (target redirects responses hop url).bind fun next => chain (hop + 1) next n

variable {N : Type}

/-- The first request goes to the URL, and the others to what its response leads to. -/
theorem fetchFrom_requests (hop : ℕ) (url : Url) (init : Init N) :
  ∃ init' : Init N, (fetchFrom redirects guarded responses hop url init).requests =
    { init with url } ::
      match target redirects responses hop url with
      | none => []
      | some next =>
          if hop < maxRedirects ∧ accepts next = true then
            (fetchFrom redirects guarded responses (hop + 1) next init').requests
          else []
  := by
  rw [fetchFrom, target]
  cases responses hop with
  | error message => exact ⟨init, rfl⟩
  | ok res =>
      dsimp only
      cases res.redirect with
      | none => exact ⟨init, rfl⟩
      | some location =>
          rw [Option.bind_some]
          dsimp only
          by_cases hhop : maxRedirects ≤ hop
          · use init
            rw [if_pos hhop]
            cases redirects.resolve location url with
            | none => rfl
            | some next =>
                dsimp only
                rw [if_neg]
                rintro ⟨hlt, -⟩
                apply absurd hlt (Nat.not_lt.mpr hhop)
          · rw [if_neg hhop]
            cases hresolve : redirects.resolve location url with
            | none => exact ⟨init, rfl⟩
            | some next =>
                have hparse := redirects.parse_href _ _ _ hresolve
                dsimp only
                cases haccepts : accepts next with
                | false =>
                    obtain ⟨message, herror⟩ := assertAllowed_of_not_accepts hparse haccepts
                    use init
                    rw [herror]
                    simp
                | true =>
                    rw [assertAllowed_of_accepts hparse haccepts]
                    use if res.status = 303 ∨ ((res.status = 301 ∨ res.status = 302) ∧
                        init.method ≠ "GET" ∧ init.method ≠ "HEAD") then
                      { init with method := "GET", body := none }
                    else init
                    simp [Nat.lt_of_not_le hhop]

/-- The URLs that are reached are those of the chain up to the last hop, as long as the guard
accepts what comes after the first one. -/
theorem mem_urls_fetchFrom {u : Url} (left : ℕ) :
  ∀ (hop : ℕ) (url : Url) (init : Init N), maxRedirects = hop + left →
    (u ∈ (fetchFrom redirects guarded responses hop url init).requests.map Request.url ↔
      ∃ n ≤ left, chain redirects responses hop url n = some u ∧
        ∀ m < n, ∀ later, chain redirects responses hop url (m + 1) = some later →
          accepts later = true)
  := by
  induction left with
  | zero =>
      intro hop url init hleft
      obtain ⟨init', hrequests⟩ := fetchFrom_requests redirects responses hop url init
      have hlast : ¬hop < maxRedirects := by omega
      have hmap : (fetchFrom redirects guarded responses hop url init).requests.map Request.url =
          [url] := by
        rw [hrequests]
        cases target redirects responses hop url with
        | none => rfl
        | some next => simp [hlast]
      rw [hmap, List.mem_singleton]
      constructor
      · rintro rfl
        exact ⟨0, le_refl _, rfl, fun m hm => absurd hm (Nat.not_lt_zero m)⟩
      · rintro ⟨n, hn, hchain, -⟩
        rw [Nat.le_zero.mp hn] at hchain
        injection hchain with heq
        apply heq.symm
  | succ left ih =>
      intro hop url init hleft
      obtain ⟨init', hrequests⟩ := fetchFrom_requests redirects responses hop url init
      have hhop : hop < maxRedirects := by omega
      rw [hrequests, List.map_cons, List.mem_cons]
      constructor
      · rintro (rfl | hlater)
        · exact ⟨0, Nat.zero_le _, rfl, fun m hm => absurd hm (Nat.not_lt_zero m)⟩
        · cases htarget : target redirects responses hop url with
          | none => simp [htarget] at hlater
          | some next =>
              rw [htarget] at hlater
              dsimp only at hlater
              by_cases haccepts : accepts next = true
              · rw [if_pos ⟨hhop, haccepts⟩, ih (hop + 1) next init' (by omega)] at hlater
                obtain ⟨n, hn, hchain, hbefore⟩ := hlater
                refine ⟨n + 1, Nat.succ_le_succ hn, ?_, ?_⟩
                · rw [chain, htarget, Option.bind_some, hchain]
                · intro m hm later hm'
                  rw [chain, htarget, Option.bind_some] at hm'
                  cases m with
                  | zero =>
                      injection hm' with heq
                      rw [← heq, haccepts]
                  | succ m => apply hbefore m (Nat.lt_of_succ_lt_succ hm) later hm'
              · simp [haccepts] at hlater
      · rintro ⟨n, hn, hchain, hbefore⟩
        cases n with
        | zero =>
            injection hchain with heq
            apply Or.inl heq.symm
        | succ n =>
            right
            rw [chain] at hchain
            obtain ⟨next, htarget, hchain⟩ := Option.bind_eq_some_iff.mp hchain
            have hfirst : chain redirects responses hop url 1 = some next := by
              rw [chain, htarget]
              rfl
            have haccepts := hbefore 0 (Nat.succ_pos n) next hfirst
            rw [htarget]
            dsimp only
            rw [if_pos ⟨hhop, haccepts⟩, ih (hop + 1) next init' (by omega)]
            refine ⟨n, Nat.le_of_succ_le_succ hn, hchain, ?_⟩
            intro m hm later hlater
            apply hbefore (m + 1) (Nat.succ_lt_succ hm) later
            rw [chain, htarget]
            apply hlater

end Chain

variable {N : Type}

theorem ok_of_bind {ε α β : Type} {x : Except ε α} {f : α → Except ε β} {b : β}
    (h : x >>= f = .ok b) :
  ∃ a, x = .ok a ∧ f a = .ok b
  := by
  cases x with
  | error e => cases h
  | ok a => exact ⟨a, rfl, h⟩

theorem accepts_of_prepare [JsNumber N] {text : Json N → JsUnits} {call : Call N} {start : Url} {init : Init N}
    (h : call.prepare text guarded hosts = .ok (start, init)) :
  accepts start = true
  := by
  cases call with
  | httpRequest args =>
      obtain ⟨raw, -, h⟩ := ok_of_bind h
      obtain ⟨url, hallowed, h⟩ := ok_of_bind h
      obtain ⟨headers, -, h⟩ := ok_of_bind h
      cases h
      apply accepts_of_assertAllowed hallowed
  | httpGraphql args =>
      obtain ⟨raw, -, h⟩ := ok_of_bind h
      obtain ⟨url, hallowed, h⟩ := ok_of_bind h
      obtain ⟨query, -, h⟩ := ok_of_bind h
      obtain ⟨headers, -, h⟩ := ok_of_bind h
      cases h
      apply accepts_of_assertAllowed hallowed

/-- The calls that lead, before they lead to a URL that the guard refuses, to a host that it
overlooks. -/
def LeadsAstray (redirects : Redirects hosts) (responses : ℕ → Except String Response)
    (start : Url) : Prop :=
  ∃ n ≤ maxRedirects, (∃ url, chain redirects responses 0 start n = some url ∧ url.IsOverlooked) ∧
    ∀ m ≤ n, ∀ url, chain redirects responses 0 start m = some url → accepts url = true

theorem fetchGuarded_no_private_iff {redirects : Redirects hosts}
    {responses : ℕ → Except String Response} {start : Url} (hstart : accepts start = true)
    (init : Init N) :
  (∀ request ∈ (fetchGuarded redirects guarded responses start init).requests,
    ¬request.url.IsPrivate) ↔ ¬LeadsAstray redirects responses start
  := by
  have hurls : ∀ u, u ∈ (fetchGuarded redirects guarded responses start init).requests.map
      Request.url ↔ ∃ n ≤ maxRedirects, chain redirects responses 0 start n = some u ∧
        ∀ m < n, ∀ later, chain redirects responses 0 start (m + 1) = some later →
          accepts later = true :=
    fun u => mem_urls_fetchFrom redirects responses maxRedirects 0 start init (Nat.zero_add _).symm
  constructor
  · rintro hno ⟨n, hn, ⟨url, hchain, hoverlooked⟩, hbefore⟩
    have hmem := (hurls url).mpr ⟨n, hn, hchain, fun m hm => hbefore (m + 1) hm⟩
    obtain ⟨request, hrequest, rfl⟩ := List.mem_map.mp hmem
    apply hno request hrequest
    rw [isPrivate_iff_of_accepts (hbefore n (le_refl n) _ hchain)]
    apply hoverlooked
  · intro hnot request hrequest hprivate
    obtain ⟨n, hn, hchain, hbefore⟩ := (hurls request.url).mp (List.mem_map_of_mem hrequest)
    have haccepts : ∀ m ≤ n, ∀ url, chain redirects responses 0 start m = some url →
        accepts url = true := by
      intro m hm url hurl
      cases m with
      | zero =>
          injection hurl with heq
          rw [← heq, hstart]
      | succ m => apply hbefore m hm url hurl
    apply hnot
    refine ⟨n, hn, ⟨request.url, hchain, ?_⟩, haccepts⟩
    rw [← isPrivate_iff_of_accepts (haccepts n (le_refl n) _ hchain)]
    apply hprivate

/-- While private networks are closed, a call makes no request to a private host if and only if
its redirects do not lead it to a host that the guard overlooks. -/
theorem reaches_no_private_iff [JsNumber N] (text : Json N → JsUnits) (redirects : Redirects hosts)
    (responses : ℕ → Except String Response) (call : Call N) :
  (∀ request ∈ (call.run text guarded redirects responses).requests, ¬request.url.IsPrivate) ↔
    ∀ start init, call.prepare text guarded hosts = .ok (start, init) →
      ¬LeadsAstray redirects responses start
  := by
  rw [Call.run]
  cases hprepare : call.prepare text guarded hosts with
  | error message => simp
  | ok prepared =>
      obtain ⟨start, init⟩ := prepared
      dsimp only
      rw [fetchGuarded_no_private_iff (accepts_of_prepare hprepare)]
      constructor
      · intro hnot _ _ heq
        cases heq
        apply hnot
      · intro hnot
        apply hnot start init rfl

def isNameLetter (c : Char) : Bool := c.isLower || c = '.'

theorem nameLetter_lower {c : Char} (h : isNameLetter c = true) :
  isForbiddenDomainChar c = false ∧ c.toNat < 0x80 ∧ c.isUpper = false ∧ c ≠ '@'
  := by
  rw [isNameLetter, Bool.or_eq_true, decide_eq_true_eq] at h
  rcases h with hlower | rfl
  · rw [charLower_iff] at hlower
    have hne : ∀ d : Char, d.toNat < 97 ∨ 122 < d.toNat → c ≠ d := by
      rintro d hd rfl
      omega
    refine ⟨?_, by omega, ?_, hne '@' (by decide)⟩
    · simp only [isForbiddenDomainChar, Bool.or_eq_false_iff, decide_eq_false_iff_not,
        List.mem_cons, List.not_mem_nil, or_false, not_or]
      refine ⟨⟨by omega, by omega⟩, ?_⟩
      repeat' constructor
      all_goals exact hne _ (by decide)
    · rw [← Bool.not_eq_true, charUpper_iff]
      omega
  · decide

/-- A parser that knows only names, of small letters and dots. -/
def nameHosts : HostParser where
  parse _ text :=
    if h : text.all isNameLetter = true then
      have hletter := fun c hc => nameLetter_lower (List.all_eq_true.mp h c hc)
      if text.isEmpty then none
      else
        some (.domain
          ⟨text, fun c hc => (hletter c hc).1, fun c hc => ⟨(hletter c hc).2.1, (hletter c hc).2.2.1⟩⟩)
    else none
  parse_at := by
    intro _ text hat
    apply dif_neg
    intro hall
    apply (nameLetter_lower (List.all_eq_true.mp hall _ hat)).2.2.2 rfl
  parse_nonempty := by
    intro _ text host hne hparse
    split at hparse
    · split at hparse
      · cases hparse
      · injection hparse with heq
        rw [← heq]
        apply hne
    · cases hparse

/-- No redirect is followed. -/
def noRedirects : Redirects nameHosts where
  resolve _ _ := none
  parse_href := by
    intro _ _ _ h
    cases h

/-- The local host, with a dot at the end of its name. -/
def isDottedLocalhost (url : Url) : Bool :=
  match url.host with
  | some (.domain d) => d.name = "localhost.".toList
  | _ => false

theorem isPrivate_of_dottedLocalhost {url : Url} (h : isDottedLocalhost url = true) :
  url.IsPrivate
  := by
  rw [isDottedLocalhost] at h
  split at h
  · next d hhost =>
      exact ⟨_, hhost, "localhost".toList, Or.inr (of_decide_eq_true h), Or.inl rfl⟩
  · cases h

def dottedLocalhost : List Char := "http://localhost./".toList

/-- The machine itself is reached under its name with a dot at the end. -/
theorem reaches_localhost :
  ¬∀ (hosts : HostParser) (redirects : Redirects hosts)
      (responses : ℕ → Except String Response) (call : Call ℕ),
    ∀ request ∈ (call.run (fun _ => []) guarded redirects responses).requests,
      ¬request.url.IsPrivate
  := by
  intro h
  have hparsed : (Url.parse nameHosts dottedLocalhost).any
      (fun url => accepts url && isDottedLocalhost url) = true := by decide +kernel
  obtain ⟨url, hparse, hurl⟩ := (Option.any_eq_true _ _).mp hparsed
  rw [Bool.and_eq_true] at hurl
  have hprepare : (Call.httpRequest ⟨some dottedLocalhost, none, none, none⟩ : Call ℕ).prepare
      (fun _ => []) guarded nameHosts = .ok (url, ⟨"GET", [], none⟩) := by
    have hallowed := assertAllowed_of_accepts hparse hurl.1
    simp only [Call.prepare, httpRequest, reqString, bind, Except.bind, hallowed]
    rfl
  obtain ⟨init, hrequests⟩ := fetchFrom_requests noRedirects (fun _ => .error "")
    0 url (⟨"GET", [], none⟩ : Init ℕ)
  apply h nameHosts noRedirects (fun _ => .error "") _ ⟨⟨"GET", [], none⟩, url⟩ _
    (isPrivate_of_dottedLocalhost hurl.2)
  · exact .httpRequest ⟨some dottedLocalhost, none, none, none⟩
  · rw [Call.run, hprepare]
    dsimp only
    rw [fetchGuarded, hrequests]
    apply List.mem_cons_self

end HttpTools
