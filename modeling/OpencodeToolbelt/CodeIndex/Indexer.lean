import OpencodeToolbelt.CodeIndex.Store
import Mathlib.Data.List.Induction

/-!
# Indexing

The indexing of a branch: every indexable blob of its tree that the store does not have is read
and entered with what is extracted from it, and then the manifest of the branch is replaced. A
blob that cannot be read or parsed is entered without symbols and references, so that it is not
tried again.
-/

/-- What does not change between the runs that share a store: the options, what the blobs of the
repository contain and how tree-sitter parses. -/
structure Indexing where
  extensions : List String
  root : String
  contents : String → String
  parse : Grammar → String → Option SyntaxNode

/-- The current branch of the repository in a run, its tree, and the blobs whose reading fails. -/
structure IndexRun where
  branch : String
  tree : List ManifestEntry
  failing : String → Bool

structure IndexResult where
  branch : String
  root : String
  indexedBlobs : ℕ
  skippedBlobs : ℕ
  files : ℕ
  deriving DecidableEq

namespace CodeIndex

/-- `extname` of a path: the last component from its last dot on, unless that dot is its first
character or the component is `..`. -/
def extname (path : List Char) : List Char :=
  let base := (path.reverse.dropWhile (· = '/')).takeWhile (· ≠ '/')
  match base.dropWhile (· ≠ '.') with
  | [] | [_] => []
  | _ :: _ :: _ => if base = ['.', '.'] then [] else '.' :: (base.takeWhile (· ≠ '.')).reverse

def extOf (path : String) : String :=
  match extname path.toList with
  | '.' :: ext => .ofList (toLowerCase ext)
  | ext => .ofList (toLowerCase ext)

section Runs

variable (indexing : Indexing)

def indexable (tree : List ManifestEntry) : List ManifestEntry :=
  tree.filter fun entry =>
    extOf entry.path ∈ indexing.extensions.map fun ext => String.ofList (toLowerCase ext.toList)

def readBlob (run : IndexRun) (blobSha : String) : Option String :=
  if run.failing blobSha then none else some (indexing.contents blobSha)

/-- Where a run stands: the store, the blobs it has come to, and its counts. -/
structure Progress where
  store : CodeIndexStore
  processed : List String
  indexed : ℕ
  skipped : ℕ

/-- What a file gives for its blob, with `none` when reading or parsing fails. -/
def readAndExtract (run : IndexRun) (entry : ManifestEntry) : Option Extraction :=
  (readBlob indexing run entry.blobSha).bind fun source =>
    extractFromSource indexing.parse source (extOf entry.path)

def indexEntry (run : IndexRun) (p : Progress) (entry : ManifestEntry) : Progress :=
  if entry.blobSha ∈ p.processed then p
  else
    let p := { p with processed := p.processed ++ [entry.blobSha] }
    if p.store.hasBlob entry.blobSha then { p with skipped := p.skipped + 1 }
    else
      let lang := extOf entry.path
      match readAndExtract indexing run entry with
      | none => { p with store := p.store.insertBlob entry.blobSha lang ⟨[], []⟩ }
      | some extraction =>
          { p with
            store := p.store.insertBlob entry.blobSha lang extraction
            indexed := p.indexed + 1 }

def indexRepo (store : CodeIndexStore) (run : IndexRun) : CodeIndexStore × IndexResult :=
  let files := indexable indexing run.tree
  let p := files.foldl (indexEntry indexing run) ⟨store, [], 0, 0⟩
  (p.store.replaceManifest run.branch indexing.root files,
    ⟨run.branch, indexing.root, p.indexed, p.skipped, files.length⟩)

/-- The store after some runs. -/
def after (history : List IndexRun) : CodeIndexStore :=
  history.foldl (fun store run => (indexRepo indexing store run).1) .empty

/-! ### Readings -/

/-- A file that a run comes to: its blob and path, and whether reading the blob fails. -/
structure Reading where
  blobSha : String
  path : String
  failing : Bool
  deriving DecidableEq

/-- The reading of a file in a run. -/
def readingOf (run : IndexRun) (entry : ManifestEntry) : Reading :=
  ⟨entry.blobSha, entry.path, run.failing entry.blobSha⟩

def readingsOf (run : IndexRun) : List Reading :=
  (indexable indexing run.tree).map (readingOf run)

def readings (history : List IndexRun) : List Reading := history.flatMap (readingsOf indexing)

/-- The first file with a blob that any run comes to. -/
def firstReading (rs : List Reading) (blobSha : String) : Option Reading :=
  rs.find? fun r => r.blobSha = blobSha

/-- What a reading enters for its blob. -/
def entered (r : Reading) : Extraction :=
  if r.failing then ⟨[], []⟩
  else
    (extractFromSource indexing.parse (indexing.contents r.blobSha) (extOf r.path)).getD ⟨[], []⟩

/-- What has been entered for a blob. -/
def extractionOf (rs : List Reading) (blobSha : String) : Extraction :=
  ((firstReading rs blobSha).map (entered indexing)).getD ⟨[], []⟩

/-! ### What is in the store -/

/-- A store holds, for every blob, what the first reading of the blob gave. -/
structure Holds (store : CodeIndexStore) (rs : List Reading) : Prop where
  blobs : ∀ blobSha, store.hasBlob blobSha = (firstReading rs blobSha).isSome
  symbols : ∀ blobSha, store.symbolsOf blobSha = (extractionOf indexing rs blobSha).defs
  refs : ∀ blobSha, store.refsOf blobSha = (extractionOf indexing rs blobSha).refs

theorem symbolsOf_insertBlob (store : CodeIndexStore) (blobSha lang : String)
    (extraction : Extraction) (blobSha' : String) :
  (store.insertBlob blobSha lang extraction).symbolsOf blobSha' =
    store.symbolsOf blobSha' ++ if blobSha' = blobSha then extraction.defs else []
  := by
  rw [CodeIndexStore.symbolsOf, CodeIndexStore.insertBlob, List.filter_append, List.map_append]
  congr 1
  by_cases h : blobSha' = blobSha
  · simp [h, List.filter_map, Function.comp_def]
  · have hne : blobSha ≠ blobSha' := fun heq => h heq.symm
    simp [h, hne]

theorem refsOf_insertBlob (store : CodeIndexStore) (blobSha lang : String)
    (extraction : Extraction) (blobSha' : String) :
  (store.insertBlob blobSha lang extraction).refsOf blobSha' =
    store.refsOf blobSha' ++ if blobSha' = blobSha then extraction.refs else []
  := by
  rw [CodeIndexStore.refsOf, CodeIndexStore.insertBlob, List.filter_append, List.map_append]
  congr 1
  by_cases h : blobSha' = blobSha
  · simp [h, List.filter_map, Function.comp_def]
  · have hne : blobSha ≠ blobSha' := fun heq => h heq.symm
    simp [h, hne]

theorem hasBlob_insertBlob (store : CodeIndexStore) (blobSha lang : String)
    (extraction : Extraction) (blobSha' : String) :
  (store.insertBlob blobSha lang extraction).hasBlob blobSha' =
    (store.hasBlob blobSha' || decide (blobSha = blobSha'))
  := by
  simp [CodeIndexStore.hasBlob, CodeIndexStore.insertBlob]

theorem firstReading_append (rs rs' : List Reading) (blobSha : String) :
  firstReading (rs ++ rs') blobSha =
    (firstReading rs blobSha).or (firstReading rs' blobSha)
  := List.find?_append

theorem firstReading_singleton (r : Reading) (blobSha : String) :
  firstReading [r] blobSha = if r.blobSha = blobSha then some r else none
  := by
  rw [firstReading, List.find?_singleton]
  simp only [decide_eq_true_eq]

/-- A reading of a blob that has been read before enters nothing. -/
theorem Holds.seen {store : CodeIndexStore} {rs : List Reading} (h : Holds indexing store rs)
    {r : Reading} (hseen : (firstReading rs r.blobSha).isSome) :
  Holds indexing store (rs ++ [r])
  := by
  have hsame : ∀ blobSha, firstReading (rs ++ [r]) blobSha = firstReading rs blobSha := by
    intro blobSha
    rw [firstReading_append, firstReading_singleton]
    split
    · next heq =>
        obtain ⟨first, hfirst⟩ := Option.isSome_iff_exists.mp (heq ▸ hseen)
        rw [hfirst, Option.some_or]
    · rw [Option.or_none]
  constructor
  · intro blobSha
    rw [hsame, h.blobs]
  · intro blobSha
    rw [h.symbols, extractionOf, extractionOf, hsame]
  · intro blobSha
    rw [h.refs, extractionOf, extractionOf, hsame]

theorem extractionOf_append_of_ne (rs : List Reading) {r : Reading} {blobSha : String}
    (h : blobSha ≠ r.blobSha) :
  extractionOf indexing (rs ++ [r]) blobSha = extractionOf indexing rs blobSha
  := by
  rw [extractionOf, extractionOf, firstReading_append, firstReading_singleton,
    if_neg fun heq => h heq.symm, Option.or_none]

/-- The first reading of a blob enters what it gives. -/
theorem Holds.unseen {store : CodeIndexStore} {rs : List Reading} (h : Holds indexing store rs)
    {r : Reading} (hunseen : firstReading rs r.blobSha = none) (lang : String) :
  Holds indexing (store.insertBlob r.blobSha lang (entered indexing r)) (rs ++ [r])
  := by
  have hnone : extractionOf indexing rs r.blobSha = ⟨[], []⟩ := by
    rw [extractionOf, hunseen, Option.map_none, Option.getD_none]
  have hnew : extractionOf indexing (rs ++ [r]) r.blobSha = entered indexing r := by
    rw [extractionOf, firstReading_append, hunseen, Option.none_or, firstReading_singleton,
      if_pos rfl, Option.map_some, Option.getD_some]
  constructor
  · intro blobSha
    rw [hasBlob_insertBlob, h.blobs, firstReading_append, firstReading_singleton]
    by_cases heq : r.blobSha = blobSha
    · simp [heq]
    · simp [heq]
  · intro blobSha
    rw [symbolsOf_insertBlob, h.symbols]
    by_cases heq : blobSha = r.blobSha
    · rw [if_pos heq, heq, hnone, hnew, List.nil_append]
    · rw [if_neg heq, List.append_nil, extractionOf_append_of_ne _ _ heq]
  · intro blobSha
    rw [refsOf_insertBlob, h.refs]
    by_cases heq : blobSha = r.blobSha
    · rw [if_pos heq, heq, hnone, hnew, List.nil_append]
    · rw [if_neg heq, List.append_nil, extractionOf_append_of_ne _ _ heq]

/-! ### Runs -/

theorem entered_readingOf (run : IndexRun) (entry : ManifestEntry) :
  entered indexing (readingOf run entry) = (readAndExtract indexing run entry).getD ⟨[], []⟩
  := by
  rw [entered, readAndExtract, readBlob, readingOf]
  by_cases h : run.failing entry.blobSha = true
  · rw [if_pos h, if_pos h, Option.bind_none, Option.getD_none]
  · rw [if_neg h, if_neg h, Option.bind_some]

theorem store_indexEntry (run : IndexRun) (p : Progress) (entry : ManifestEntry) :
  (indexEntry indexing run p entry).store =
    if entry.blobSha ∈ p.processed ∨ p.store.hasBlob entry.blobSha = true then p.store
    else p.store.insertBlob entry.blobSha (extOf entry.path)
      (entered indexing (readingOf run entry))
  := by
  rw [indexEntry, entered_readingOf]
  by_cases hprocessed : entry.blobSha ∈ p.processed
  · rw [if_pos hprocessed, if_pos (.inl hprocessed)]
  · rw [if_neg hprocessed]
    dsimp only
    by_cases hhas : p.store.hasBlob entry.blobSha = true
    · rw [if_pos hhas, if_pos (.inr hhas)]
    · rw [if_neg hhas, if_neg (not_or.mpr ⟨hprocessed, hhas⟩)]
      cases readAndExtract indexing run entry with
      | none => rfl
      | some extraction => rfl

theorem processed_indexEntry (run : IndexRun) (p : Progress) (entry : ManifestEntry) :
  (indexEntry indexing run p entry).processed =
    if entry.blobSha ∈ p.processed then p.processed else p.processed ++ [entry.blobSha]
  := by
  rw [indexEntry]
  by_cases hprocessed : entry.blobSha ∈ p.processed
  · rw [if_pos hprocessed, if_pos hprocessed]
  · rw [if_neg hprocessed, if_neg hprocessed]
    dsimp only
    split
    · rfl
    · split <;> rfl

/-- The store of a run holds what the readings so far have given, and the blobs that the run has
come to. -/
structure Indexed (p : Progress) (rs : List Reading) : Prop extends
    Holds indexing p.store rs where
  processed : ∀ blobSha ∈ p.processed, p.store.hasBlob blobSha = true

theorem indexed_indexEntry (run : IndexRun) {p : Progress} {rs : List Reading}
    (h : Indexed indexing p rs) (entry : ManifestEntry) :
  Indexed indexing (indexEntry indexing run p entry) (rs ++ [readingOf run entry])
  := by
  have hprocessed : entry.blobSha ∈ p.processed → p.store.hasBlob entry.blobSha = true :=
    h.processed entry.blobSha
  have hstore := store_indexEntry indexing run p entry
  by_cases hhas : p.store.hasBlob entry.blobSha = true
  · rw [if_pos (.inr hhas)] at hstore
    have hseen : (firstReading rs (readingOf run entry).blobSha).isSome = true := by
      rw [← h.blobs]
      apply hhas
    constructor
    · rw [hstore]
      apply h.toHolds.seen _ hseen
    · intro blobSha hmem
      rw [hstore]
      rw [processed_indexEntry] at hmem
      split at hmem
      · apply h.processed _ hmem
      · rcases List.mem_append.mp hmem with hmem | hmem
        · apply h.processed _ hmem
        · rw [List.mem_singleton.mp hmem]
          apply hhas
  · have hnot : entry.blobSha ∉ p.processed := mt hprocessed hhas
    rw [if_neg (not_or.mpr ⟨hnot, hhas⟩)] at hstore
    have hunseen : firstReading rs (readingOf run entry).blobSha = none := by
      rw [← Option.not_isSome_iff_eq_none, ← h.blobs]
      apply hhas
    constructor
    · rw [hstore]
      apply h.toHolds.unseen _ hunseen
    · intro blobSha hmem
      rw [hstore, hasBlob_insertBlob, Bool.or_eq_true, decide_eq_true_eq]
      rw [processed_indexEntry, if_neg hnot, List.mem_append, List.mem_singleton] at hmem
      rcases hmem with hmem | hmem
      · left
        apply h.processed _ hmem
      · right
        apply hmem.symm

theorem indexed_foldl (run : IndexRun) (entries : List ManifestEntry) {p : Progress}
    {rs : List Reading} (h : Indexed indexing p rs) :
  Indexed indexing (entries.foldl (indexEntry indexing run) p)
    (rs ++ entries.map (readingOf run))
  := by
  induction entries generalizing p rs with
  | nil =>
      rw [List.map_nil, List.append_nil]
      apply h
  | cons entry entries ih =>
      rw [List.foldl_cons, List.map_cons, List.append_cons]
      apply ih (indexed_indexEntry indexing run h entry)

theorem holds_indexRepo {store : CodeIndexStore} {rs : List Reading}
    (h : Holds indexing store rs) (run : IndexRun) :
  Holds indexing (indexRepo indexing store run).1 (rs ++ readingsOf indexing run)
  := by
  have hstart : Indexed indexing ⟨store, [], 0, 0⟩ rs := by
    apply Indexed.mk h
    intro blobSha hmem
    cases hmem
  have hend := indexed_foldl indexing run (indexable indexing run.tree) hstart
  constructor
  · apply hend.blobs
  · apply hend.symbols
  · apply hend.refs

theorem holds_empty :
  Holds indexing .empty []
  := by
  constructor <;> intro blobSha <;> rfl

theorem after_concat (history : List IndexRun) (run : IndexRun) :
  after indexing (history ++ [run]) = (indexRepo indexing (after indexing history) run).1
  := by
  rw [after, List.foldl_append]
  rfl

/-- After any runs, the store holds what the first reading of every blob gave. -/
theorem holds_after (history : List IndexRun) :
  Holds indexing (after indexing history) (readings indexing history)
  := by
  induction history using List.reverseRecOn with
  | nil => apply holds_empty
  | append_singleton history run ih =>
      rw [after_concat, readings, List.flatMap_append, List.flatMap_singleton]
      apply holds_indexRepo indexing ih

/-! ### Manifests -/

theorem manifest_indexEntry (run : IndexRun) (p : Progress) (entry : ManifestEntry) :
  (indexEntry indexing run p entry).store.manifest = p.store.manifest
  := by
  rw [store_indexEntry]
  split <;> rfl

theorem manifest_foldl (run : IndexRun) (entries : List ManifestEntry) (p : Progress) :
  (entries.foldl (indexEntry indexing run) p).store.manifest = p.store.manifest
  := by
  induction entries generalizing p with
  | nil => rfl
  | cons entry entries ih => rw [List.foldl_cons, ih, manifest_indexEntry]

theorem manifest_indexRepo (store : CodeIndexStore) (run : IndexRun) :
  (indexRepo indexing store run).1.manifest =
    (store.manifest.filter fun row =>
      ¬(row.branch = run.branch ∧ row.root = indexing.root)) ++
      (indexable indexing run.tree).map (ManifestRow.mk run.branch indexing.root)
  := by
  rw [indexRepo]
  dsimp only
  rw [CodeIndexStore.replaceManifest, manifest_foldl]

/-- All manifests are for the one root. -/
theorem root_after (history : List IndexRun) :
  ∀ row ∈ (after indexing history).manifest, row.root = indexing.root
  := by
  induction history using List.reverseRecOn with
  | nil =>
      intro row hmem
      cases hmem
  | append_singleton history run ih =>
      intro row hmem
      rw [after_concat, manifest_indexRepo, List.mem_append, List.mem_filter, List.mem_map] at hmem
      rcases hmem with ⟨hmem, -⟩ | ⟨entry, -, rfl⟩
      · apply ih row hmem
      · rfl

theorem manifestOf_indexRepo {store : CodeIndexStore} (run : IndexRun)
    (h : ∀ row ∈ store.manifest, row.root = indexing.root) (branch : String) :
  (indexRepo indexing store run).1.manifestOf branch =
    if branch = run.branch then indexable indexing run.tree else store.manifestOf branch
  := by
  rw [CodeIndexStore.manifestOf, manifest_indexRepo, List.filter_append, List.map_append,
    List.filter_filter]
  by_cases hbranch : branch = run.branch
  · rw [if_pos hbranch, hbranch]
    have hold : (store.manifest.filter fun row => decide (row.branch = run.branch) &&
        decide ¬(row.branch = run.branch ∧ row.root = indexing.root)) = [] := by
      rw [List.filter_eq_nil_iff]
      intro row hmem
      simp [h row hmem]
    rw [hold, List.map_nil, List.nil_append]
    simp [List.filter_map, Function.comp_def]
  · have hne : run.branch ≠ branch := fun heq => hbranch heq.symm
    have hold : (store.manifest.filter fun row => decide (row.branch = branch) &&
        decide ¬(row.branch = run.branch ∧ row.root = indexing.root)) =
        store.manifest.filter fun row => decide (row.branch = branch) := by
      apply List.filter_congr
      intro row _
      by_cases hrow : row.branch = branch
      · simp [hrow, hbranch]
      · simp [hrow]
    rw [if_neg hbranch, hold, CodeIndexStore.manifestOf]
    simp [List.filter_map, Function.comp_def, hne]

/-- The manifest of a branch is the tree of its latest run. -/
theorem manifestOf_after (earlier : List IndexRun) (run : IndexRun) {later : List IndexRun}
    (h : ∀ other ∈ later, other.branch ≠ run.branch) :
  (after indexing (earlier ++ run :: later)).manifestOf run.branch =
    indexable indexing run.tree
  := by
  induction later using List.reverseRecOn with
  | nil =>
      rw [after_concat, manifestOf_indexRepo indexing run (root_after indexing earlier),
        if_pos rfl]
  | append_singleton later other ih =>
      rw [← List.cons_append, ← List.append_assoc, after_concat,
        manifestOf_indexRepo indexing other (root_after indexing _)]
      have hother : run.branch ≠ other.branch := by
        intro heq
        apply h other (List.mem_append_right _ (List.mem_singleton_self other)) heq.symm
      rw [if_neg hother]
      apply ih fun other hmem => h other (List.mem_append_left _ hmem)

end Runs

end CodeIndex
