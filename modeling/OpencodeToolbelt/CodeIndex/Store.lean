import OpencodeToolbelt.CodeIndex.Extract
import Mathlib.Data.Prod.Lex
import Mathlib.Data.List.Perm.Subperm
import Mathlib.Data.List.Dedup
import Mathlib.Data.String.Basic
import Mathlib.Data.Set.Basic

/-!
# The store of the code index

The tables of the index and its queries. Symbols and references are kept for blobs, whatever
branches they are on; a manifest says which blobs a branch has, and at which paths. The queries
resolve names against the manifest of one branch.
-/

structure BlobRow where
  blobSha : String
  lang : String
  deriving DecidableEq

structure SymbolRow where
  blobSha : String
  symbol : SymbolDef
  deriving DecidableEq

structure RefRow where
  srcBlob : String
  edge : RefEdge
  deriving DecidableEq

structure ManifestEntry where
  path : String
  blobSha : String
  deriving DecidableEq

structure ManifestRow where
  branch : String
  root : String
  entry : ManifestEntry
  deriving DecidableEq

structure SymbolHit where
  name : String
  kind : SymbolKind
  path : String
  line : ℕ
  deriving DecidableEq

structure RefHit where
  caller : String
  path : String
  line : ℕ
  kind : RefKind
  confidence : EdgeConfidence
  deriving DecidableEq

/-- The tables. -/
structure CodeIndexStore where
  blob : List BlobRow
  symbols : List SymbolRow
  ref : List RefRow
  manifest : List ManifestRow

namespace CodeIndexStore

/-! ### Changes -/

/-- The store without rows. -/
def empty : CodeIndexStore := ⟨[], [], [], []⟩

def hasBlob (store : CodeIndexStore) (blobSha : String) : Bool :=
  store.blob.any fun row => row.blobSha = blobSha

/-- A blob entered that has not been there. -/
def insertBlob (store : CodeIndexStore) (blobSha lang : String) (extraction : Extraction) :
    CodeIndexStore :=
  { store with
    blob := store.blob ++ [⟨blobSha, lang⟩]
    symbols := store.symbols ++ extraction.defs.map (SymbolRow.mk blobSha)
    ref := store.ref ++ extraction.refs.map (RefRow.mk blobSha) }

def replaceManifest (store : CodeIndexStore) (branch root : String)
    (entries : List ManifestEntry) : CodeIndexStore :=
  { store with
    manifest := (store.manifest.filter fun row => ¬(row.branch = branch ∧ row.root = root)) ++
      entries.map (ManifestRow.mk branch root) }

/-! ### Queries -/

/-- The answers of `ORDER BY`: the rows in the order of their keys, and in any order where these
are the same. -/
def orderBy {α κ : Type} [LE κ] (key : α → κ) (rows : List α) : Set (List α) :=
  { answer | answer.Perm rows ∧ answer.Pairwise fun row row' => key row ≤ key row' }

def SymbolHit.key (hit : SymbolHit) : String ×ₗ ℕ := toLex (hit.path, hit.line)

def RefHit.key (hit : RefHit) : String ×ₗ ℕ := toLex (hit.path, hit.line)

section Queries

variable (store : CodeIndexStore) (branch : String)

/-- The files of a branch. -/
def manifestOf : List ManifestEntry :=
  (store.manifest.filter fun row => row.branch = branch).map ManifestRow.entry

/-- The symbols of a blob. -/
def symbolsOf (blobSha : String) : List SymbolDef :=
  (store.symbols.filter fun row => row.blobSha = blobSha).map SymbolRow.symbol

/-- The references in a blob. -/
def refsOf (blobSha : String) : List RefEdge :=
  (store.ref.filter fun row => row.srcBlob = blobSha).map RefRow.edge

/-- The symbols of a branch with the files they are in. -/
def symbolSites : List (ManifestEntry × SymbolDef) :=
  (store.manifestOf branch).flatMap fun file => (store.symbolsOf file.blobSha).map fun s => (file, s)

/-- The references of a branch with the files they are in, each with a definition of its target
on the branch. -/
def resolved : List ((ManifestEntry × RefEdge) × (ManifestEntry × SymbolDef)) :=
  (store.manifestOf branch).flatMap fun file =>
    (store.refsOf file.blobSha).flatMap fun r =>
      ((store.symbolSites branch).filter fun site => site.2.name = r.dstName).map fun site =>
        ((file, r), site)

def hitOf (site : ManifestEntry × SymbolDef) : SymbolHit :=
  ⟨site.2.name, site.2.kind, site.1.path, site.2.line⟩

/-- The rows of a query for the symbols of a name. -/
def symbolRows (name : String) : List SymbolHit :=
  ((store.symbolSites branch).filter fun site => site.2.name = name).map hitOf

def callerRows (name : String) : List SymbolHit :=
  (((store.resolved branch).filter fun row =>
      row.1.2.dstName = name ∧ row.1.2.caller ≠ CodeIndex.MODULE).flatMap fun row =>
    ((store.symbolsOf row.1.1.blobSha).filter fun s => s.name = row.1.2.caller).map fun s =>
      hitOf (row.1.1, s)).dedup

def calleeRows (name : String) : List SymbolHit :=
  (((store.resolved branch).filter fun row => row.1.2.caller = name).map fun row =>
    hitOf row.2).dedup

def referenceRows (name : String) : List RefHit :=
  ((store.resolved branch).filter fun row => row.1.2.dstName = name).map fun row =>
    ⟨row.1.2.caller, row.1.1.path, row.1.2.line, row.1.2.kind, row.1.2.confidence⟩

/-- `active`: the callers and callees of the references of a branch. -/
def active : List (String × String) :=
  (store.resolved branch).map fun row => (row.1.2.caller, row.1.2.dstName)

/-- The callers of some names, among the edges given. -/
def callersOf (edges : List (String × String)) (names : List String) : List String :=
  (edges.filter fun edge => edge.1 ≠ CodeIndex.MODULE ∧ edge.2 ∈ names).map Prod.fst

/-- `WITH RECURSIVE … UNION`: the new names found last are what the next round starts from, until
a round finds none. The number given bounds the rounds. -/
def recursiveUnion (edges : List (String × String)) :
    ℕ → List String → List String → List String
  | 0, found, _ => found
  | rounds + 1, found, last =>
      let new := ((callersOf edges last).filter fun name => name ∉ found).dedup
      if new = [] then found else recursiveUnion edges rounds (found ++ new) new

def blastRadiusRows (name : String) : List String :=
  let edges := store.active branch
  let direct := (callersOf edges [name]).dedup
  recursiveUnion edges edges.length direct direct

def symbol (name : String) : Set (List SymbolHit) :=
  orderBy SymbolHit.key (store.symbolRows branch name)

def callers (name : String) : Set (List SymbolHit) :=
  orderBy SymbolHit.key (store.callerRows branch name)

def callees (name : String) : Set (List SymbolHit) :=
  orderBy SymbolHit.key (store.calleeRows branch name)

def references (name : String) : Set (List RefHit) :=
  orderBy RefHit.key (store.referenceRows branch name)

def blastRadius (name : String) : Set (List String) :=
  orderBy id (store.blastRadiusRows branch name)

end Queries

/-! ### Rounds -/

theorem mem_callersOf {edges : List (String × String)} {names : List String} {caller : String} :
  caller ∈ callersOf edges names ↔
    caller ≠ CodeIndex.MODULE ∧ ∃ callee ∈ names, (caller, callee) ∈ edges
  := by
  simp only [callersOf, List.mem_map, List.mem_filter, decide_eq_true_eq, Prod.exists,
    exists_and_right, exists_eq_right]
  constructor
  · rintro ⟨callee, hmem, hmodule, hcallee⟩
    use hmodule, callee
  · rintro ⟨hmodule, callee, hcallee, hmem⟩
    use callee

theorem callersOf_subset (edges : List (String × String)) (names : List String) :
  callersOf edges names ⊆ edges.map Prod.fst
  := by
  intro caller hmem
  obtain ⟨-, callee, -, hedge⟩ := mem_callersOf.mp hmem
  apply List.mem_map_of_mem hedge

/-- Distinct callers that are as many as there are edges are all the callers. -/
theorem mem_of_length_le {edges : List (String × String)} {found : List String}
    (hnodup : found.Nodup) (hsubset : found ⊆ edges.map Prod.fst)
    (hlength : edges.length ≤ found.length) {edge : String × String} (h : edge ∈ edges) :
  edge.1 ∈ found
  := by
  have hperm := (List.subperm_of_subset hnodup hsubset).perm_of_length_le (by rwa [List.length_map])
  apply hperm.mem_iff.mpr (List.mem_map_of_mem h)

/-- What has been found is among the callers, and only the callers of the names found last may be
missing. -/
structure Searching (edges : List (String × String)) (found last : List String) : Prop where
  nodup : found.Nodup
  subset : found ⊆ edges.map Prod.fst
  closed : ∀ caller ∈ callersOf edges found, caller ∈ found ∨ caller ∈ callersOf edges last

theorem Searching.step {edges : List (String × String)} {found last : List String}
    (h : Searching edges found last) :
  let new := ((callersOf edges last).filter fun name => name ∉ found).dedup
  Searching edges (found ++ new) new
  := by
  intro new
  have hnew : ∀ name, name ∈ new ↔ name ∈ callersOf edges last ∧ name ∉ found := by
    intro name
    rw [List.mem_dedup, List.mem_filter, decide_eq_true_eq]
  constructor
  · apply h.nodup.append (List.nodup_dedup _)
    intro name hfound hmem
    apply ((hnew name).mp hmem).2 hfound
  · apply List.append_subset.mpr ⟨h.subset, _⟩
    intro name hmem
    apply callersOf_subset edges last ((hnew name).mp hmem).1
  · intro caller hmem
    obtain ⟨hmodule, callee, hcallee, hedge⟩ := mem_callersOf.mp hmem
    rcases List.mem_append.mp hcallee with hcallee | hcallee
    · left
      rw [List.mem_append, hnew]
      have hcaller := h.closed caller (mem_callersOf.mpr ⟨hmodule, callee, hcallee, hedge⟩)
      tauto
    · right
      apply mem_callersOf.mpr ⟨hmodule, callee, hcallee, hedge⟩

/-- As many rounds as there are edges find every caller of what they find. -/
theorem recursiveUnion_closed (edges : List (String × String)) (rounds : ℕ)
    {found last : List String} (h : Searching edges found last)
    (hrounds : edges.length ≤ found.length + rounds) :
  callersOf edges (recursiveUnion edges rounds found last) ⊆
    recursiveUnion edges rounds found last
  := by
  induction rounds generalizing found last with
  | zero =>
      intro caller hmem
      obtain ⟨-, callee, -, hedge⟩ := mem_callersOf.mp hmem
      apply mem_of_length_le h.nodup h.subset hrounds hedge
  | succ rounds ih =>
      rw [recursiveUnion]
      split
      · next hnew =>
          intro caller hmem
          rcases h.closed caller hmem with hfound | hlast
          · apply hfound
          · by_contra hnot
            have hmem : caller ∈ ((callersOf edges last).filter fun name => name ∉ found).dedup := by
              rw [List.mem_dedup, List.mem_filter, decide_eq_true_eq]
              use hlast
            rw [hnew] at hmem
            cases hmem
      · next hnew =>
          apply ih h.step
          have hpos := List.length_pos_iff.mpr hnew
          rw [List.length_append]
          omega

/-- The blast radius of a name holds its callers, and the callers of all the names it holds. -/
theorem blastRadiusRows_closed (store : CodeIndexStore) (branch name : String) :
  callersOf (store.active branch) (store.blastRadiusRows branch name) ⊆
    store.blastRadiusRows branch name
  := by
  apply recursiveUnion_closed
  · constructor
    · apply List.nodup_dedup
    · intro caller hmem
      apply callersOf_subset _ _ (List.mem_dedup.mp hmem)
    · intro caller hmem
      right
      obtain ⟨hmodule, callee, hcallee, hedge⟩ := mem_callersOf.mp hmem
      apply mem_callersOf.mpr ⟨hmodule, callee, hcallee, hedge⟩
  · apply Nat.le_add_left

end CodeIndexStore
