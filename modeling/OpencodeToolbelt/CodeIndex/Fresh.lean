import OpencodeToolbelt.CodeIndex.Indexer

/-!
# Reused blobs

The answers for a branch depend on the files of the branch and on what has been entered for their
blobs. They are those of a store in which nothing else has been indexed, unless a blob of the
branch was entered by a run that could not read it or that found it under an extension of another
grammar.
-/

namespace CodeIndexStore

variable {store store' : CodeIndexStore} {branch : String}

/-- Two stores have the same files on a branch, and the same symbols and references in them. -/
structure SameFiles (store store' : CodeIndexStore) (branch : String) : Prop where
  manifest : store.manifestOf branch = store'.manifestOf branch
  symbols : ∀ file ∈ store.manifestOf branch,
    store.symbolsOf file.blobSha = store'.symbolsOf file.blobSha
  refs : ∀ file ∈ store.manifestOf branch,
    store.refsOf file.blobSha = store'.refsOf file.blobSha

/-- Two stores answer all queries for a branch alike. -/
structure SameAnswers (store store' : CodeIndexStore) (branch : String) : Prop where
  symbol : ∀ name, store.symbol branch name = store'.symbol branch name
  callers : ∀ name, store.callers branch name = store'.callers branch name
  callees : ∀ name, store.callees branch name = store'.callees branch name
  references : ∀ name, store.references branch name = store'.references branch name
  blastRadius : ∀ name, store.blastRadius branch name = store'.blastRadius branch name

theorem SameFiles.symbolSites (h : SameFiles store store' branch) :
  store.symbolSites branch = store'.symbolSites branch
  := by
  rw [CodeIndexStore.symbolSites, CodeIndexStore.symbolSites, ← h.manifest]
  apply List.flatMap_congr
  intro file hfile
  rw [h.symbols file hfile]

theorem SameFiles.resolved (h : SameFiles store store' branch) :
  store.resolved branch = store'.resolved branch
  := by
  rw [CodeIndexStore.resolved, CodeIndexStore.resolved, ← h.manifest, h.symbolSites]
  apply List.flatMap_congr
  intro file hfile
  rw [h.refs file hfile]

/-- The file of a resolved reference is one of the branch. -/
theorem mem_manifestOf_of_resolved {row : (ManifestEntry × RefEdge) × (ManifestEntry × SymbolDef)}
    (h : row ∈ store.resolved branch) :
  row.1.1 ∈ store.manifestOf branch
  := by
  obtain ⟨file, hfile, h⟩ := List.mem_flatMap.mp h
  obtain ⟨r, -, h⟩ := List.mem_flatMap.mp h
  obtain ⟨site, -, rfl⟩ := List.mem_map.mp h
  apply hfile

theorem SameFiles.callerRows (h : SameFiles store store' branch) (name : String) :
  store.callerRows branch name = store'.callerRows branch name
  := by
  rw [CodeIndexStore.callerRows, CodeIndexStore.callerRows, ← h.resolved]
  congr 1
  apply List.flatMap_congr
  intro row hrow
  rw [h.symbols row.1.1 (mem_manifestOf_of_resolved (List.mem_filter.mp hrow).1)]

theorem SameFiles.answers (h : SameFiles store store' branch) :
  SameAnswers store store' branch
  := by
  constructor
  · intro name
    rw [symbol, symbol, symbolRows, symbolRows, h.symbolSites]
  · intro name
    rw [callers, callers, h.callerRows]
  · intro name
    rw [callees, callees, calleeRows, calleeRows, h.resolved]
  · intro name
    rw [references, references, referenceRows, referenceRows, h.resolved]
  · intro name
    rw [blastRadius, blastRadius, blastRadiusRows, blastRadiusRows, active, active, h.resolved]

end CodeIndexStore

namespace CodeIndex

variable (indexing : Indexing)

/-- The same run with no reading failing. -/
def unfailing (run : IndexRun) : IndexRun := { run with failing := fun _ => false }

/-- Every blob of a run was entered by a run that could read it, under an extension of the grammar
that the run by itself would parse it with. -/
def ReadAlike (history : List IndexRun) (run : IndexRun) : Prop :=
  ∀ entry ∈ indexable indexing run.tree, ∀ first own,
    firstReading (readings indexing history) entry.blobSha = some first →
    firstReading (readingsOf indexing (unfailing run)) entry.blobSha = some own →
    first.failing = false ∧
      grammarForExtension (extOf first.path) = grammarForExtension (extOf own.path)

theorem firstReading_isSome {rs : List Reading} {r : Reading} (h : r ∈ rs) :
  ∃ first, firstReading rs r.blobSha = some first
  := by
  apply Option.isSome_iff_exists.mp
  rw [firstReading, List.find?_isSome]
  use r, h
  simp

theorem firstReading_blobSha {rs : List Reading} {blobSha : String} {first : Reading}
    (h : firstReading rs blobSha = some first) :
  first.blobSha = blobSha
  := by
  have hfound := List.find?_some h
  apply of_decide_eq_true hfound

/-- Two readings of a blob give the same when neither fails and both are for one grammar. -/
theorem entered_congr {r r' : Reading} (hblob : r.blobSha = r'.blobSha)
    (h : r.failing = false) (h' : r'.failing = false)
    (hgrammar : grammarForExtension (extOf r.path) = grammarForExtension (extOf r'.path)) :
  entered indexing r = entered indexing r'
  := by
  rw [entered, entered, h, h', hblob, extractFromSource_congr _ _ hgrammar]

theorem extractionOf_alike {history : List IndexRun} {run : IndexRun} (hrun : run ∈ history)
    (halike : ReadAlike indexing history run) {entry : ManifestEntry}
    (hentry : entry ∈ indexable indexing run.tree) :
  extractionOf indexing (readings indexing history) entry.blobSha =
    extractionOf indexing (readingsOf indexing (unfailing run)) entry.blobSha
  := by
  have hmem : readingOf run entry ∈ readings indexing history :=
    List.mem_flatMap.mpr ⟨run, hrun, List.mem_map_of_mem hentry⟩
  have hmem' : readingOf (unfailing run) entry ∈ readingsOf indexing (unfailing run) :=
    List.mem_map_of_mem hentry
  obtain ⟨first, hfirst⟩ : ∃ first, firstReading (readings indexing history) entry.blobSha =
    some first := firstReading_isSome hmem
  obtain ⟨own, hown⟩ : ∃ own, firstReading (readingsOf indexing (unfailing run)) entry.blobSha =
    some own := firstReading_isSome hmem'
  obtain ⟨hfailing, hgrammar⟩ := halike entry hentry first own hfirst hown
  obtain ⟨other, -, hreading⟩ := List.mem_map.mp (List.mem_of_find?_eq_some hown)
  have hread : own.failing = false := by
    rw [← hreading, readingOf, unfailing]
  have hblob : first.blobSha = own.blobSha :=
    (firstReading_blobSha hfirst).trans (firstReading_blobSha hown).symm
  rw [extractionOf, extractionOf, hfirst, hown, Option.map_some, Option.map_some,
    entered_congr indexing hblob hfailing hread hgrammar]

/-- After any runs, the answers for a branch are those of a store in which only its latest run has
taken place, when the blobs of the run were read alike. -/
theorem answers_of_readAlike (earlier later : List IndexRun) (run : IndexRun)
    (hlatest : ∀ other ∈ later, other.branch ≠ run.branch)
    (halike : ReadAlike indexing (earlier ++ run :: later) run) :
  (after indexing (earlier ++ run :: later)).SameAnswers (after indexing [unfailing run])
    run.branch
  := by
  have hholds := holds_after indexing (earlier ++ run :: later)
  have hfresh := holds_after indexing [unfailing run]
  have hrun : run ∈ earlier ++ run :: later := List.mem_append_right _ List.mem_cons_self
  have hmanifest := manifestOf_after indexing earlier run hlatest
  have hfiles : (after indexing [unfailing run]).manifestOf run.branch =
      indexable indexing run.tree := by
    apply manifestOf_after indexing [] (unfailing run)
    intro other hmem
    cases hmem
  have hreadings : readings indexing [unfailing run] = readingsOf indexing (unfailing run) :=
    List.flatMap_singleton _ _
  apply CodeIndexStore.SameFiles.answers
  constructor
  · rw [hmanifest, hfiles]
  · intro file hfile
    rw [hmanifest] at hfile
    rw [hholds.symbols, hfresh.symbols, hreadings,
      extractionOf_alike indexing hrun halike hfile]
  · intro file hfile
    rw [hmanifest] at hfile
    rw [hholds.refs, hfresh.refs, hreadings, extractionOf_alike indexing hrun halike hfile]

/-! ### A blob that could not be read -/

/-- One kind of source, in which a function is defined. -/
def sampleIndexing : Indexing where
  extensions := ["ts"]
  root := "."
  contents := fun _ => "function f() \x7b\x7d"
  parse := fun _ _ =>
    let name := SyntaxNode.mk "identifier" "f" 0 [] []
    let parameters := SyntaxNode.mk "formal_parameters" "()" 0 [] []
    let body := SyntaxNode.mk "statement_block" "\x7b\x7d" 0 [] []
    let function := SyntaxNode.mk "function_declaration" "function f() \x7b\x7d" 0
      [("name", name), ("parameters", parameters), ("body", body)] [name, parameters, body]
    some (.mk "program" "function f() \x7b\x7d" 0 [] [function])

/-- A run over one file. -/
def sampleRun (branch : String) (failing : Bool) : IndexRun :=
  ⟨branch, [⟨"f.ts", "blob"⟩], fun _ => failing⟩

theorem answers_of_readAlike_shared :
  (after sampleIndexing [sampleRun "feature" false, sampleRun "main" false]).SameAnswers
    (after sampleIndexing [unfailing (sampleRun "main" false)]) "main"
  := by
  have hindexable : indexable sampleIndexing (sampleRun "main" false).tree =
      [⟨"f.ts", "blob"⟩] := by
    decide +kernel
  apply answers_of_readAlike sampleIndexing [sampleRun "feature" false] [] (sampleRun "main" false)
  · intro other hmem
    cases hmem
  · intro entry hentry first own hfirst hown
    rw [hindexable, List.mem_singleton] at hentry
    have hread : firstReading (readings sampleIndexing
        [sampleRun "feature" false, sampleRun "main" false]) "blob" =
        some ⟨"blob", "f.ts", false⟩ := by
      decide +kernel
    have hread' : firstReading (readingsOf sampleIndexing (unfailing (sampleRun "main" false)))
        "blob" = some ⟨"blob", "f.ts", false⟩ := by
      decide +kernel
    rw [hentry] at hfirst hown
    obtain rfl := Option.some.inj (hread.symm.trans hfirst)
    obtain rfl := Option.some.inj (hread'.symm.trans hown)
    exact ⟨rfl, rfl⟩

/-- A run that cannot read a blob enters it without symbols, and later runs leave it so. -/
theorem keeps_empty_blob :
  ¬∀ (indexing : Indexing) (earlier later : List IndexRun) (run : IndexRun),
    (∀ other ∈ later, other.branch ≠ run.branch) →
    (∀ entry ∈ indexable indexing run.tree, run.failing entry.blobSha = false) →
    (after indexing (earlier ++ run :: later)).SameAnswers (after indexing [unfailing run])
      run.branch
  := by
  intro h
  have hsame := h sampleIndexing [sampleRun "main" true] [] (sampleRun "main" false)
    (fun _ hmem => by cases hmem) fun _ _ => rfl
  have hsymbol := hsame.symbol "f"
  have hrows : (after sampleIndexing
      [sampleRun "main" true, sampleRun "main" false]).symbolRows "main" "f" = [] := by
    decide +kernel
  have hfresh : (after sampleIndexing [unfailing (sampleRun "main" false)]).symbolRows "main" "f" =
      [⟨"f", .function, "f.ts", 1⟩] := by
    decide +kernel
  have hanswer : [] ∈ CodeIndexStore.orderBy CodeIndexStore.SymbolHit.key ([] : List SymbolHit) :=
    ⟨.nil, .nil⟩
  rw [CodeIndexStore.symbol, CodeIndexStore.symbol] at hsymbol
  change CodeIndexStore.orderBy _ ((after sampleIndexing
    [sampleRun "main" true, sampleRun "main" false]).symbolRows "main" "f") =
    CodeIndexStore.orderBy _ ((after sampleIndexing
      [unfailing (sampleRun "main" false)]).symbolRows "main" "f") at hsymbol
  rw [hrows, hfresh] at hsymbol
  rw [hsymbol] at hanswer
  cases hanswer.1.length_eq

end CodeIndex
