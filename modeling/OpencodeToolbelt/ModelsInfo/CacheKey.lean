import OpencodeToolbelt.Data.JsMap
import OpencodeToolbelt.Data.Rereading
import Mathlib.Data.List.Lex
import Mathlib.Data.List.Sort

/-!
# Keys of the catalog cache

Under which key the catalog of a provider is kept, and when two providers share one.
-/

namespace ModelsInfo

/-- The headers that are configured for requests for a catalog. -/
abbrev HeaderMap := JsMap String String

/-- What strings are ordered by. -/
def codeUnits (s : String) : List ℕ := (unitsOfString s).map UInt16.toNat

/-- The headers in the order of `Object.keys(headers).sort()`. -/
def sortedHeaders (headers : HeaderMap) : List (String × String) :=
  headers.entries.insertionSort fun header header' => codeUnits header.1 ≤ codeUnits header'.1

/-- A header under its name in lower case. -/
def lowerCased (header : String × String) : String × String :=
  (.ofList (toLowerCase header.1.toList), header.2)

/-- An array of two strings. -/
def headerJson (header : String × String) : Json ℕ :=
  .array [.string (unitsOfString header.1), .string (unitsOfString header.2)]

def stableStringify (headers : HeaderMap) : List Char :=
  Json.stringify (.array ((sortedHeaders headers).map fun header => headerJson (lowerCased header)))

/-- What decides which catalog a provider gets. -/
structure CatalogSource where
  providerId : String
  url : String
  headers : Option HeaderMap

def headerPart (headers : Option HeaderMap) : List Char :=
  match headers with
  | some headers => stableStringify headers
  | none => []

/-- The text that is hashed. -/
def keyText (source : CatalogSource) : List Char :=
  source.providerId.toList ++ ("::".toList ++ (source.url.toList ++
    ("::".toList ++ headerPart source.headers)))

def cacheKey {Digest : Type} (hash : List Char → Digest) (source : CatalogSource) : Digest :=
  hash (keyText source)

/-! ### Texts of headers -/

/-- Where a text of JSON without numbers and literals is read: outside of strings, inside of one,
or behind a backslash. -/
inductive Lexing where
  | outside
  | inside
  | escaped
deriving DecidableEq

namespace Lexing

/-- What a character leads to, and `none` where it must not stand. -/
def step : Lexing → Char → Option Lexing
  | .outside, c => if c = '"' then some .inside else if c ∈ ['[', ']', ','] then some .outside else none
  | .inside, c => if c = '"' then some .outside else if c = '\\' then some .escaped else some .inside
  | .escaped, _ => some .inside

def run : Lexing → List Char → Option Lexing
  | state, [] => some state
  | state, c :: text => (state.step c).bind fun state => run state text

theorem run_outside_cons (c : Char) (text : List Char) :
  run .outside (c :: text) =
    if c = '"' then run .inside text
    else if c ∈ ['[', ']', ','] then run .outside text else none
  := by
  change (if c = '"' then some inside else if c ∈ ['[', ']', ','] then some outside
    else none).bind _ = _
  split
  · rfl
  · split <;> rfl

theorem run_inside_cons (c : Char) (text : List Char) :
  run .inside (c :: text) =
    if c = '"' then run .outside text
    else if c = '\\' then run .escaped text else run .inside text
  := by
  change (if c = '"' then some outside else if c = '\\' then some escaped
    else some inside).bind _ = _
  split
  · rfl
  · split <;> rfl

theorem run_append (state : Lexing) (text text' : List Char) :
  run state (text ++ text') = (run state text).bind fun state => run state text'
  := by
  induction text generalizing state with
  | nil => rfl
  | cons c text ih =>
      rw [List.cons_append, run, run]
      cases state.step c with
      | none => rfl
      | some state' => apply ih

/-- A text that leads from outside of strings back there does not do so from inside of one. -/
theorem run_inside_ne {text : List Char} (houtside : run .outside text = some .outside) :
  run .inside text ≠ some .outside
  := by
  intro hinside
  induction text with
  | nil => cases hinside
  | cons c text ih =>
      rw [run_outside_cons] at houtside
      rw [run_inside_cons] at hinside
      by_cases hquote : c = '"'
      · rw [if_pos hquote] at houtside hinside
        apply ih hinside houtside
      · rw [if_neg hquote] at houtside hinside
        split at houtside
        · next hmem =>
            have hbackslash : c ≠ '\\' := by
              rintro rfl
              revert hmem
              decide
            rw [if_neg hbackslash] at hinside
            apply ih houtside hinside
        · cases houtside

theorem run_outside (c : Char) (h : c ∈ ['[', ']', ',']) (text : List Char) :
  run .outside (c :: text) = run .outside text
  := by
  have hquote : c ≠ '"' := by
    rintro rfl
    revert h
    decide
  rw [run_outside_cons, if_neg hquote, if_pos h]

theorem run_plain {c : Char} (hquote : c ≠ '"') (hbackslash : c ≠ '\\') (text : List Char) :
  run .inside (c :: text) = run .inside text
  := by
  rw [run_inside_cons, if_neg hquote, if_neg hbackslash]

theorem run_escape (c : Char) (text : List Char) :
  run .inside ('\\' :: c :: text) = run .inside text
  := rfl

theorem run_quoteUnit (u : UInt16) (text : List Char) :
  run .inside (Json.quoteUnit u ++ text) = run .inside text
  := by
  have hdigit : ∀ n, Json.hexDigit (n % 16) ≠ '"' ∧ Json.hexDigit (n % 16) ≠ '\\' := by
    intro n
    have hall : ∀ d < 16, Json.hexDigit d ≠ '"' ∧ Json.hexDigit d ≠ '\\' := by decide
    apply hall _ (Nat.mod_lt n (by decide))
  unfold Json.quoteUnit
  repeat' split
  any_goals apply run_escape
  · simp only [Json.escapeUnit, List.cons_append, List.nil_append]
    rw [run_escape]
    repeat rw [run_plain (hdigit _).1 (hdigit _).2]
  · next hquote hbackslash hplain =>
      rw [Json.isHighSurrogate_iff, Json.isLowSurrogate_iff] at hplain
      have hlt := u.toNat_lt
      have htoNat := Json.toNat_ofNat (n := u.toNat) (by omega)
      rw [List.singleton_append, run_plain]
      · intro heq
        rw [heq] at htoNat
        exact hquote (UInt16.toNat_inj.mp htoNat.symm)
      · intro heq
        rw [heq] at htoNat
        exact hbackslash (UInt16.toNat_inj.mp htoNat.symm)

theorem run_quoteUnits (s : JsUnits) (text : List Char) :
  run .inside (Json.quoteUnits s ++ text) = run .inside text
  := by
  induction s using Json.quoteUnits.induct with
  | case1 => rfl
  | case2 u =>
      rw [Json.quoteUnits, run_quoteUnit]
  | case3 u v s hpair ih =>
      rw [Json.quoteUnits, if_pos hpair, List.cons_append]
      rw [Json.isHighSurrogate_iff, Json.isLowSurrogate_iff] at hpair
      generalize hn : 0x10000 + (u.toNat - 0xd800) * 0x400 + (v.toNat - 0xdc00) = n
      have htoNat : (Char.ofNat n).toNat = n := Json.toNat_ofNat (by omega)
      have hne : ∀ c : Char, c.toNat < 0x10000 → Char.ofNat n ≠ c := by
        rintro c hc rfl
        omega
      rw [run_plain (hne '"' (by decide)) (hne '\\' (by decide)), ih]
  | case4 u v s hpair ih =>
      rw [Json.quoteUnits, if_neg hpair, List.append_assoc, run_quoteUnit, ih]

theorem run_quote (s : JsUnits) (text : List Char) :
  run .outside (Json.quote s ++ text) = run .outside text
  := by
  rw [Json.quote, List.cons_append, List.cons_append, List.append_assoc, List.singleton_append]
  apply run_quoteUnits s ('"' :: text)

theorem run_header (header : String × String) (text : List Char) :
  run .outside (Json.stringify (headerJson header) ++ text) = run .outside text
  := by
  simp only [headerJson, Json.stringify, Json.stringifyItems, List.cons_append, List.append_assoc,
    List.nil_append]
  rw [run_outside '[' (by decide), run_quote, run_outside ',' (by decide), run_quote,
    run_outside ']' (by decide)]

theorem run_headers (headers : List (String × String)) (text : List Char) :
  run .outside (Json.stringifyItems (headers.map headerJson) ++ text) = run .outside text
  := by
  induction headers with
  | nil => rfl
  | cons header headers ih =>
      cases headers with
      | nil => apply run_header
      | cons header' headers =>
          rw [List.map_cons, List.map_cons, Json.stringifyItems_cons, List.append_assoc, run_header,
            List.cons_append, run_outside ',' (by decide), ← List.map_cons, ih]

end Lexing

theorem stableStringify_array (headers : HeaderMap) :
  stableStringify headers =
    Json.stringify (.array (((sortedHeaders headers).map lowerCased).map headerJson))
  := by
  rw [List.map_map]
  rfl

/-- The texts of headers in a row. -/
theorem stableStringify_eq (headers : HeaderMap) :
  stableStringify headers = '[' ::
    (Json.stringifyItems (((sortedHeaders headers).map lowerCased).map headerJson) ++ [']'])
  := by
  rw [stableStringify_array, Json.stringify, List.cons_append]

theorem run_stableStringify (headers : HeaderMap) :
  Lexing.run .outside (stableStringify headers) = some .outside
  := by
  rw [stableStringify_eq, Lexing.run_outside '[' (by decide), Lexing.run_headers]
  rfl

/-- A text of headers does not end in another one behind a separator. -/
theorem headerPart_ne (headers headers' : Option HeaderMap) (text : List Char) :
  headerPart headers ≠ text ++ ("::".toList ++ headerPart headers')
  := by
  intro h
  have hcolon : ∀ state text', Lexing.run state ("::".toList ++ text') = some .outside →
      Lexing.run .inside text' = some .outside := by
    intro state text' hrun
    cases state with
    | outside => cases hrun
    | inside => apply hrun
    | escaped => apply hrun
  cases headers with
  | none =>
      have hlength := congr_arg List.length h
      rw [headerPart, List.length_append, List.length_append] at hlength
      have : "::".toList.length = 2 := rfl
      rw [List.length_nil] at hlength
      omega
  | some headers =>
      have hrun := run_stableStringify headers
      rw [headerPart] at h
      rw [h, Lexing.run_append, Option.bind_eq_some_iff] at hrun
      obtain ⟨state, -, hrest⟩ := hrun
      have hinside := hcolon state _ hrest
      cases headers' with
      | none => cases hinside
      | some headers' => apply Lexing.run_inside_ne (run_stableStringify headers') hinside

theorem headerPart_ne_colon (headers : Option HeaderMap) (text : List Char) :
  headerPart headers ≠ ':' :: text
  := by
  intro h
  cases headers with
  | none => cases h
  | some headers =>
      rw [headerPart, stableStringify_eq] at h
      apply absurd (List.cons.inj h).1 (by decide)

theorem eq_nil_of_separated {headers headers' : Option HeaderMap} {text : List Char}
    (h : "::".toList ++ headerPart headers = text ++ ("::".toList ++ headerPart headers')) :
  text = []
  := by
  have hseparator : "::".toList = [':', ':'] := rfl
  match text with
  | [] => rfl
  | [c] =>
      rw [hseparator] at h
      obtain ⟨-, htail⟩ := List.cons.inj h
      obtain ⟨-, htail⟩ := List.cons.inj htail
      apply absurd htail (headerPart_ne_colon headers _)
  | c :: c' :: text =>
      obtain ⟨-, htail⟩ := List.cons.inj h
      obtain ⟨-, htail⟩ := List.cons.inj htail
      apply absurd htail (headerPart_ne headers headers' text)

/-- Where the text of the headers begins can be told from its end. -/
theorem separated_inj {headers headers' : Option HeaderMap} {text text' : List Char} :
  text ++ ("::".toList ++ headerPart headers) = text' ++ ("::".toList ++ headerPart headers') ↔
    text = text' ∧ headerPart headers = headerPart headers'
  := by
  constructor
  · intro h
    rcases List.append_eq_append_iff.mp h with ⟨between, rfl, hrest⟩ | ⟨between, rfl, hrest⟩
    · have hnil := eq_nil_of_separated hrest
      rw [hnil, List.nil_append] at hrest
      rw [hnil, List.append_nil]
      exact ⟨rfl, List.append_cancel_left hrest⟩
    · have hnil := eq_nil_of_separated hrest
      rw [hnil, List.nil_append] at hrest
      rw [hnil, List.append_nil]
      exact ⟨rfl, (List.append_cancel_left hrest).symm⟩
  · rintro ⟨rfl, hpart⟩
    rw [hpart]

/-! ### Orders of headers -/

/-- Headers of two maps that can be paired, each with one of the same value and the same name but
for its case, in such a way that the spellings of the names have the same order in both. -/
def InOneOrder (headers headers' : HeaderMap) : Prop :=
  ∃ pairs : List ((String × String) × (String × String)),
    (pairs.map Prod.fst).Perm headers.entries ∧ (pairs.map Prod.snd).Perm headers'.entries ∧
      (∀ pair ∈ pairs, lowerCased pair.1 = lowerCased pair.2) ∧
      pairs.Pairwise fun pair pair' =>
        codeUnits pair.1.1 < codeUnits pair'.1.1 ∧ codeUnits pair.2.1 < codeUnits pair'.2.1

theorem codeUnits_injective :
  Function.Injective codeUnits
  := by
  intro s s' h
  apply unitsOfString_injective
  apply List.map_injective_iff.mpr (fun u v huv => UInt16.toNat_inj.mp huv) h

theorem eq_of_name {headers : HeaderMap} {header header' : String × String}
    (h : header ∈ headers.entries) (h' : header' ∈ headers.entries)
    (hname : codeUnits header.1 = codeUnits header'.1) :
  header = header'
  := List.inj_on_of_nodup_map headers.nodup h h' (codeUnits_injective hname)

theorem sortedHeaders_perm (headers : HeaderMap) :
  (sortedHeaders headers).Perm headers.entries
  := List.perm_insertionSort _ _

theorem pairwise_sortedHeaders (headers : HeaderMap) :
  (sortedHeaders headers).Pairwise fun header header' => codeUnits header.1 < codeUnits header'.1
  := by
  have hnodup : (sortedHeaders headers).Pairwise fun header header' => header.1 ≠ header'.1 := by
    rw [← List.pairwise_map (R := fun name name' : String => name ≠ name')]
    apply ((sortedHeaders_perm headers).map Prod.fst).nodup_iff.mpr headers.nodup
  have hsorted : (sortedHeaders headers).Pairwise fun header header' =>
      codeUnits header.1 ≤ codeUnits header'.1 := by
    have := List.pairwise_insertionSort
      (fun header header' : String × String => codeUnits header.1 ≤ codeUnits header'.1)
      headers.entries
    apply this
  apply (hsorted.and hnodup).imp
  rintro header header' ⟨hle, hne⟩
  apply lt_of_le_of_ne hle
  exact fun heq => hne (codeUnits_injective heq)

/-- There is one way to sort the headers. -/
theorem sortedHeaders_eq {headers : HeaderMap} {list : List (String × String)}
    (hperm : list.Perm headers.entries)
    (hpairwise : list.Pairwise fun header header' => codeUnits header.1 < codeUnits header'.1) :
  sortedHeaders headers = list
  := by
  have hsorted : (sortedHeaders headers).Pairwise fun header header' =>
      codeUnits header.1 ≤ codeUnits header'.1 :=
    (pairwise_sortedHeaders headers).imp fun h => h.le
  have hlist : list.Pairwise fun header header' => codeUnits header.1 ≤ codeUnits header'.1 :=
    hpairwise.imp fun h => h.le
  apply List.Perm.eq_of_pairwise _ hsorted hlist
  · apply (sortedHeaders_perm headers).trans hperm.symm
  · intro header header' hmem hmem' hle hge
    apply eq_of_name ((sortedHeaders_perm headers).mem_iff.mp hmem) (hperm.mem_iff.mp hmem')
    apply le_antisymm hle hge

theorem eq_of_mem_zip {α β γ : Type} {f : α → γ} {g : β → γ} {l : List α} {l' : List β}
    (h : l.map f = l'.map g) {pair : α × β} (hpair : pair ∈ l.zip l') :
  f pair.1 = g pair.2
  := by
  induction l generalizing l' with
  | nil => cases hpair
  | cons a l ih =>
      cases l' with
      | nil => cases hpair
      | cons b l' =>
          obtain ⟨hhead, htail⟩ := List.cons.inj h
          rcases List.mem_cons.mp hpair with rfl | hpair
          · apply hhead
          · apply ih htail hpair

theorem inOneOrder_iff {headers headers' : HeaderMap} :
  InOneOrder headers headers' ↔
    (sortedHeaders headers).map lowerCased = (sortedHeaders headers').map lowerCased
  := by
  constructor
  · rintro ⟨pairs, hperm, hperm', hlower, hpairwise⟩
    have hfst : sortedHeaders headers = pairs.map Prod.fst := by
      apply sortedHeaders_eq hperm
      apply List.pairwise_map.mpr
      apply hpairwise.imp
      exact fun h => h.1
    have hsnd : sortedHeaders headers' = pairs.map Prod.snd := by
      apply sortedHeaders_eq hperm'
      apply List.pairwise_map.mpr
      apply hpairwise.imp
      exact fun h => h.2
    rw [hfst, hsnd, List.map_map, List.map_map]
    apply List.map_congr_left
    apply hlower
  · intro h
    have hlength : (sortedHeaders headers).length = (sortedHeaders headers').length := by
      simpa using congr_arg List.length h
    have hfst : ((sortedHeaders headers).zip (sortedHeaders headers')).map Prod.fst =
        sortedHeaders headers := List.map_fst_zip hlength.le
    have hsnd : ((sortedHeaders headers).zip (sortedHeaders headers')).map Prod.snd =
        sortedHeaders headers' := List.map_snd_zip hlength.ge
    use (sortedHeaders headers).zip (sortedHeaders headers')
    refine ⟨?_, ?_, fun pair hpair => eq_of_mem_zip h hpair, ?_⟩
    · rw [hfst]
      apply sortedHeaders_perm
    · rw [hsnd]
      apply sortedHeaders_perm
    · have hleft := pairwise_sortedHeaders headers
      have hright := pairwise_sortedHeaders headers'
      rw [← hfst, List.pairwise_map] at hleft
      rw [← hsnd, List.pairwise_map] at hright
      apply hleft.and hright

theorem headerJson_injective :
  Function.Injective headerJson
  := by
  intro header header' h
  simp only [headerJson, Json.array.injEq, List.cons.injEq, Json.string.injEq, and_true] at h
  apply Prod.ext
  · apply unitsOfString_injective h.1
  · apply unitsOfString_injective h.2

theorem ordered_headers (headers : List (String × String)) :
  Json.Ordered (.array (headers.map headerJson))
  := by
  apply Json.Ordered.array
  intro item hitem
  obtain ⟨header, -, rfl⟩ := List.mem_map.mp hitem
  apply Json.Ordered.array
  intro item hitem
  simp only [List.mem_cons, List.not_mem_nil, or_false] at hitem
  rcases hitem with rfl | rfl
  · apply Json.Ordered.string
  · apply Json.Ordered.string

theorem stableStringify_inj {headers headers' : HeaderMap} :
  stableStringify headers = stableStringify headers' ↔ InOneOrder headers headers'
  := by
  rw [inOneOrder_iff, stableStringify_array, stableStringify_array]
  constructor
  · intro h
    have hparse := congr_arg (Json.parse (N := ℕ)) h
    rw [Json.parse_stringify (ordered_headers _), Json.parse_stringify (ordered_headers _)]
      at hparse
    apply List.map_injective_iff.mpr headerJson_injective
    apply Json.array.inj (Option.some.inj hparse)
  · intro h
    rw [h]

/-! ### Sources that share a key -/

/-- Headers that are the same where cases are not told apart. No headers are an empty map. -/
def SameHeaders (headers headers' : Option HeaderMap) : Prop :=
  ((headers.getD .empty).entries.map lowerCased).Perm
    ((headers'.getD .empty).entries.map lowerCased)

/-- Sources that are to share a catalog. -/
def Same (source source' : CatalogSource) : Prop :=
  source.providerId = source'.providerId ∧ source.url = source'.url ∧
    SameHeaders source.headers source'.headers

/-- Headers that are given for both sources, with names in one order, or for neither. -/
def SpelledAlike : Option HeaderMap → Option HeaderMap → Prop
  | some headers, some headers' => InOneOrder headers headers'
  | none, none => True
  | _, _ => False

/-- A source whose id and URL are divided elsewhere: its id takes from the URL of the other one
a separator, or the half of one, and what stands in front of it. -/
def Shifted (source source' : CatalogSource) : Prop :=
  ∃ text : List Char, text ≠ [] ∧ source'.providerId.toList = source.providerId.toList ++ text ∧
    "::".toList ++ source.url.toList = text ++ ("::".toList ++ source'.url.toList)

theorem headerPart_inj {headers headers' : Option HeaderMap} :
  headerPart headers = headerPart headers' ↔ SpelledAlike headers headers'
  := by
  cases headers with
  | none =>
      cases headers' with
      | none => exact ⟨fun _ => trivial, fun _ => rfl⟩
      | some headers' =>
          constructor
          · intro h
            rw [headerPart, headerPart, stableStringify_eq] at h
            cases h
          · exact False.elim
  | some headers =>
      cases headers' with
      | none =>
          constructor
          · intro h
            rw [headerPart, headerPart, stableStringify_eq] at h
            cases h
          · exact False.elim
      | some headers' => apply stableStringify_inj

theorem keyText_inj {source source' : CatalogSource} :
  keyText source = keyText source' ↔
    SpelledAlike source.headers source'.headers ∧
      (source.providerId = source'.providerId ∧ source.url = source'.url ∨
        Shifted source source' ∨ Shifted source' source)
  := by
  have hassoc : ∀ source, keyText source =
      (source.providerId.toList ++ ("::".toList ++ source.url.toList)) ++
        ("::".toList ++ headerPart source.headers) := by
    intro source
    rw [keyText, List.append_assoc, List.append_assoc]
  rw [hassoc, hassoc, separated_inj, headerPart_inj, and_comm]
  apply and_congr_right'
  rw [List.append_eq_append_iff]
  constructor
  · rintro (⟨text, hid, hurl⟩ | ⟨text, hid, hurl⟩)
    · by_cases hnil : text = []
      · left
        rw [hnil, List.append_nil] at hid
        rw [hnil, List.nil_append] at hurl
        use String.toList_injective hid.symm
        apply String.toList_injective (List.append_cancel_left hurl)
      · right
        left
        use text
    · by_cases hnil : text = []
      · left
        rw [hnil, List.append_nil] at hid
        rw [hnil, List.nil_append] at hurl
        use String.toList_injective hid
        apply String.toList_injective (List.append_cancel_left hurl.symm)
      · right
        right
        use text
  · rintro (⟨hid, hurl⟩ | ⟨text, -, hid, hurl⟩ | ⟨text, -, hid, hurl⟩)
    · left
      use []
      rw [hid, hurl, List.append_nil]
      use rfl
      rfl
    · left
      use text
    · right
      use text

theorem SpelledAlike.sameHeaders {headers headers' : Option HeaderMap}
    (h : SpelledAlike headers headers') :
  SameHeaders headers headers'
  := by
  cases headers with
  | none =>
      cases headers' with
      | none => apply List.Perm.refl
      | some headers' => apply False.elim h
  | some headers =>
      cases headers' with
      | none => apply False.elim h
      | some headers' =>
          have hsorted := inOneOrder_iff.mp h
          rw [SameHeaders, Option.getD_some, Option.getD_some]
          apply ((sortedHeaders_perm headers).map lowerCased).symm.trans
          rw [hsorted]
          apply (sortedHeaders_perm headers').map lowerCased

/-- A source whose id takes a text from a URL has another id. -/
theorem Shifted.providerId_ne {source source' : CatalogSource} (h : Shifted source source') :
  source.providerId ≠ source'.providerId
  := by
  obtain ⟨text, hne, hid, -⟩ := h
  intro heq
  rw [heq] at hid
  have hlength := congr_arg List.length hid
  rw [List.length_append] at hlength
  apply hne (List.eq_nil_of_length_eq_zero (by omega))

/-- A source with two headers. -/
def sourceWith (name name' : String) (hne : name ≠ name') : CatalogSource where
  providerId := "acme"
  url := "https://acme.test/models"
  headers := some ⟨[some (name, "1"), some (name', "2")], by simp [hne]⟩

end ModelsInfo
