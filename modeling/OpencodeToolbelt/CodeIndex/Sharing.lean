import OpencodeToolbelt.Async.Transactions
import OpencodeToolbelt.CodeIndex.Fresh

/-!
# Runs of indexing that share a connection

The indexing of a branch, statement by statement. Any number of runs share the connection of a
store, while the repository moves from one head to the next, and the process may end at any
statement. A run may find a blob that another run has not committed yet, or its own statements
refused because another run has a transaction open.
-/

/-- What is checked out: a branch and its tree. -/
structure Head where
  branch : String
  tree : List ManifestEntry

/-- What a run asks the repository and the store. -/
inductive RepoOp where
  | currentBranch
  | lsTree
  | hasBlob (blobSha : String)
  | readBlob (blobSha : String)

/-- The answers, with `none` for an error. -/
def RepoAns : RepoOp → Type
  | .currentBranch => Option String
  | .lsTree => Option (List ManifestEntry)
  | .hasBlob _ => Option Bool
  | .readBlob _ => Option String

/-- What runs of indexing may do. They throw no value that anything reads. -/
abbrev IndexProgram := Program (DbOp CodeIndexStore RepoOp) (DbAns RepoAns) Unit

namespace CodeIndex.Sharing

/-! ### The programs -/

/-- An answer, or an error. -/
def orThrow {α : Type} : Option α → IndexProgram α
  | some a => .done a
  | none => .fail ()

def insertBlobStatements (blobSha lang : String) (extraction : Extraction) :
    List (CodeIndexStore → Option CodeIndexStore) :=
  (fun store =>
      if store.hasBlob blobSha then none
      else some { store with blob := store.blob ++ [⟨blobSha, lang⟩] }) ::
    (extraction.defs.map fun d store =>
      some { store with symbols := store.symbols ++ [⟨blobSha, d⟩] }) ++
    extraction.refs.map fun e store => some { store with ref := store.ref ++ [⟨blobSha, e⟩] }

def insertBlob (blobSha lang : String) (extraction : Extraction) : IndexProgram Unit :=
  Transactions.transaction () (insertBlobStatements blobSha lang extraction)

def replaceManifestStatements (branch root : String) (entries : List ManifestEntry) :
    List (CodeIndexStore → Option CodeIndexStore) :=
  (fun store =>
      some { store with
        manifest := store.manifest.filter fun row => ¬(row.branch = branch ∧ row.root = root) }) ::
    entries.map fun entry store =>
      some { store with manifest := store.manifest ++ [⟨branch, root, entry⟩] }

def replaceManifest (branch root : String) (entries : List ManifestEntry) : IndexProgram Unit :=
  Transactions.transaction () (replaceManifestStatements branch root entries)

section Runs

variable (indexing : Indexing)

/-- What a source gives for its blob, with `none` when reading or parsing fails. -/
def extract (source : Option String) (lang : String) : Option Extraction :=
  source.bind fun source => extractFromSource indexing.parse source lang

/-- The loop over the files, with the blobs it has come to and its counts. -/
def indexEntries : List ManifestEntry → List String → ℕ → ℕ → IndexProgram (ℕ × ℕ)
  | [], _, indexed, skipped => .done (indexed, skipped)
  | entry :: entries, processed, indexed, skipped =>
      if entry.blobSha ∈ processed then indexEntries entries processed indexed skipped
      else
        let processed := processed ++ [entry.blobSha]
        .call (.other (.hasBlob entry.blobSha)) fun (known : Option Bool) =>
          (orThrow known).bind fun known =>
            if known then indexEntries entries processed indexed (skipped + 1)
            else
              .call (.other (.readBlob entry.blobSha)) fun (source : Option String) =>
                match extract indexing source (extOf entry.path) with
                | none =>
                    (insertBlob entry.blobSha (extOf entry.path) ⟨[], []⟩).attempt.bind fun _ =>
                      indexEntries entries processed indexed skipped
                | some extraction =>
                    (insertBlob entry.blobSha (extOf entry.path) extraction).bind fun _ =>
                      indexEntries entries processed (indexed + 1) skipped

def indexRepo : IndexProgram IndexResult :=
  .call (.other .currentBranch) fun (branch : Option String) =>
    (orThrow branch).bind fun branch =>
      .call (.other .lsTree) fun (tree : Option (List ManifestEntry)) =>
        (orThrow tree).bind fun tree =>
          let files := indexable indexing tree
          (indexEntries indexing files [] 0 0).bind fun counts =>
            (replaceManifest branch indexing.root files).bind fun _ =>
              .done ⟨branch, indexing.root, counts.1, counts.2, files.length⟩

/-! ### The repository -/

/-- The answer, if it is not an error, is right. -/
def Right {α : Type} (P : α → Prop) (a : Option α) : Prop := ∀ x ∈ a, P x

/-- The repository, with all heads it has had so far, the latest first. -/
def repository : Surroundings CodeIndexStore RepoOp RepoAns (List Head) Head where
  allows c heads
    | .currentBranch, a => Right (fun branch => heads.head?.map Head.branch = some branch) a
    | .lsTree, a => Right (fun tree => heads.head?.map Head.tree = some tree) a
    | .hasBlob blobSha, a => Right (fun known => c.visible.hasBlob blobSha = known) a
    | .readBlob blobSha, a => Right (fun source => indexing.contents blobSha = source) a
  post heads _ _ := heads
  envAllows _ _ := True
  envPost heads head := head :: heads

/-- What one process leaves of a store and the heads of its repository, whenever it ends: any of
its threads may run the indexing, in any order. -/
def Process (before after : CodeIndexStore × List Head) : Prop :=
  ∃ c : Config _ _ _ _ _,
    (repository indexing).machine.Run
        ⟨(.fresh before.1, before.2), fun _ => indexRepo indexing⟩ c ∧
      after = (c.world.1.committed, c.world.2)

end Runs

/-! ### Whole transactions -/

theorem whole_symbols (blobSha : String) (defs : List SymbolDef)
    (body : List (CodeIndexStore → Option CodeIndexStore)) (store : CodeIndexStore) :
  Transactions.whole
      ((defs.map fun d (store : CodeIndexStore) =>
        some { store with symbols := store.symbols ++ [⟨blobSha, d⟩] }) ++ body) store =
    Transactions.whole body
      { store with symbols := store.symbols ++ defs.map (SymbolRow.mk blobSha) }
  := by
  induction defs generalizing store with
  | nil => simp
  | cons d defs ih =>
      rw [List.map_cons, List.cons_append, Transactions.whole, Option.bind_some, ih]
      simp

theorem whole_refs (blobSha : String) (refs : List RefEdge) (store : CodeIndexStore) :
  Transactions.whole
      (refs.map fun e (store : CodeIndexStore) =>
        some { store with ref := store.ref ++ [⟨blobSha, e⟩] }) store =
    some { store with ref := store.ref ++ refs.map (RefRow.mk blobSha) }
  := by
  induction refs generalizing store with
  | nil => simp [Transactions.whole]
  | cons e refs ih =>
      rw [List.map_cons, Transactions.whole, Option.bind_some, ih]
      simp

/-- The statements enter a new blob with all that was extracted from it. -/
theorem whole_insertBlob (blobSha lang : String) (extraction : Extraction)
    (store : CodeIndexStore) :
  Transactions.whole (insertBlobStatements blobSha lang extraction) store =
    if store.hasBlob blobSha then none else some (store.insertBlob blobSha lang extraction)
  := by
  rw [insertBlobStatements, List.cons_append, Transactions.whole]
  split
  · rfl
  · rw [Option.bind_some, whole_symbols, whole_refs]
    rfl

theorem whole_manifest (branch root : String) (entries : List ManifestEntry)
    (store : CodeIndexStore) :
  Transactions.whole
      (entries.map fun entry (store : CodeIndexStore) =>
        some { store with manifest := store.manifest ++ [⟨branch, root, entry⟩] }) store =
    some { store with manifest := store.manifest ++ entries.map (ManifestRow.mk branch root) }
  := by
  induction entries generalizing store with
  | nil => simp [Transactions.whole]
  | cons entry entries ih =>
      rw [List.map_cons, Transactions.whole, Option.bind_some, ih]
      simp

theorem whole_replaceManifest (branch root : String) (entries : List ManifestEntry)
    (store : CodeIndexStore) :
  Transactions.whole (replaceManifestStatements branch root entries) store =
    some (store.replaceManifest branch root entries)
  := by
  rw [replaceManifestStatements, Transactions.whole, Option.bind_some, whole_manifest]
  rfl

/-! ### What is committed -/

section Committed

variable (indexing : Indexing)

/-- A file in a tree that was checked out. -/
def Listed (heads : List Head) (entry : ManifestEntry) : Prop :=
  ∃ head ∈ heads, entry ∈ indexable indexing head.tree

/-- The store has of each blob nothing, or once all that one reading gave, and of each branch
nothing, or the files of one tree. -/
structure Sound (heads : List Head) (store : CodeIndexStore) : Prop where
  once : (store.blob.map BlobRow.blobSha).Nodup
  absent : ∀ blobSha, store.hasBlob blobSha = false →
    store.symbolsOf blobSha = [] ∧ store.refsOf blobSha = []
  entered : ∀ blobSha, store.hasBlob blobSha = true →
    ∃ entry failing, Listed indexing heads entry ∧ entry.blobSha = blobSha ∧
      store.symbolsOf blobSha = (entered indexing ⟨blobSha, entry.path, failing⟩).defs ∧
        store.refsOf blobSha = (entered indexing ⟨blobSha, entry.path, failing⟩).refs
  root : ∀ row ∈ store.manifest, row.root = indexing.root
  manifests : ∀ branch, store.manifestOf branch = [] ∨
    ∃ head ∈ heads, store.manifestOf branch = indexable indexing head.tree

variable {indexing}

theorem sound_empty (heads : List Head) :
  Sound indexing heads .empty
  where
  once := List.nodup_nil
  absent _ _ := ⟨rfl, rfl⟩
  entered _ h := by cases h
  root _ h := by cases h
  manifests _ := .inl rfl

theorem Listed.mono {heads heads' : List Head} (h : heads ⊆ heads') {entry : ManifestEntry}
    (hlisted : Listed indexing heads entry) :
  Listed indexing heads' entry
  := by
  obtain ⟨head, hmem, hentry⟩ := hlisted
  use head, h hmem

theorem Sound.mono {heads heads' : List Head} (h : heads ⊆ heads') {store : CodeIndexStore}
    (hsound : Sound indexing heads store) :
  Sound indexing heads' store
  where
  once := hsound.once
  absent := hsound.absent
  entered blobSha hhas := by
    obtain ⟨entry, failing, hlisted, hentered⟩ := hsound.entered blobSha hhas
    use entry, failing, hlisted.mono h
  root := hsound.root
  manifests branch := by
    obtain hnone | ⟨head, hmem, htree⟩ := hsound.manifests branch
    · exact .inl hnone
    · exact .inr ⟨head, h hmem, htree⟩

theorem sound_insertBlob {heads : List Head} {store : CodeIndexStore}
    (hsound : Sound indexing heads store) {entry : ManifestEntry}
    (hlisted : Listed indexing heads entry) (hnew : store.hasBlob entry.blobSha = false)
    (lang : String) (failing : Bool) :
  Sound indexing heads
    (store.insertBlob entry.blobSha lang (entered indexing ⟨entry.blobSha, entry.path, failing⟩))
  := by
  have hnothing := hsound.absent entry.blobSha hnew
  constructor
  · rw [CodeIndexStore.insertBlob, List.map_append, List.map_singleton]
    apply hsound.once.append (List.nodup_singleton _)
    intro blobSha hmem hnew'
    obtain ⟨row, hrow, rfl⟩ := List.mem_map.mp hmem
    have hhas : store.hasBlob row.blobSha = true := by
      rw [CodeIndexStore.hasBlob, List.any_eq_true]
      use row, hrow
      simp
    rw [List.mem_singleton.mp hnew', hnew] at hhas
    cases hhas
  · intro blobSha habsent
    rw [hasBlob_insertBlob, Bool.or_eq_false_iff, decide_eq_false_iff_not] at habsent
    rw [symbolsOf_insertBlob, refsOf_insertBlob, if_neg (Ne.symm habsent.2),
      if_neg (Ne.symm habsent.2), List.append_nil, List.append_nil]
    apply hsound.absent blobSha habsent.1
  · intro blobSha hhas
    rw [symbolsOf_insertBlob, refsOf_insertBlob]
    by_cases heq : blobSha = entry.blobSha
    · use entry, failing, hlisted, heq.symm
      rw [if_pos heq, if_pos heq, heq, hnothing.1, hnothing.2, List.nil_append, List.nil_append]
      exact ⟨rfl, rfl⟩
    · rw [if_neg heq, if_neg heq, List.append_nil, List.append_nil]
      rw [hasBlob_insertBlob, Bool.or_eq_true, decide_eq_true_eq] at hhas
      apply hsound.entered blobSha (hhas.resolve_right (Ne.symm heq))
  · apply hsound.root
  · apply hsound.manifests

theorem manifestOf_replaceManifest {store : CodeIndexStore} {root : String}
    (h : ∀ row ∈ store.manifest, row.root = root) (branch' : String)
    (entries : List ManifestEntry) (branch : String) :
  (store.replaceManifest branch' root entries).manifestOf branch =
    if branch = branch' then entries else store.manifestOf branch
  := by
  rw [CodeIndexStore.manifestOf, CodeIndexStore.replaceManifest, List.filter_append,
    List.map_append, List.filter_filter]
  by_cases hbranch : branch = branch'
  · have hold : (store.manifest.filter fun row => decide (row.branch = branch) &&
        decide ¬(row.branch = branch' ∧ row.root = root)) = [] := by
      rw [List.filter_eq_nil_iff]
      intro row hmem
      simp [h row hmem, hbranch]
    rw [if_pos hbranch, hold, List.map_nil, List.nil_append]
    simp [List.filter_map, Function.comp_def, hbranch]
  · have hold : (store.manifest.filter fun row => decide (row.branch = branch) &&
        decide ¬(row.branch = branch' ∧ row.root = root)) =
        store.manifest.filter fun row => decide (row.branch = branch) := by
      apply List.filter_congr
      intro row _
      by_cases hrow : row.branch = branch
      · simp [hrow, hbranch]
      · simp [hrow]
    rw [if_neg hbranch, hold, CodeIndexStore.manifestOf]
    simp [List.filter_map, Function.comp_def, Ne.symm hbranch]

theorem sound_replaceManifest {heads : List Head} {store : CodeIndexStore}
    (hsound : Sound indexing heads store) {head : Head} (hmem : head ∈ heads) (branch : String) :
  Sound indexing heads (store.replaceManifest branch indexing.root (indexable indexing head.tree))
  where
  once := hsound.once
  absent := hsound.absent
  entered := hsound.entered
  root row hrow := by
    rw [CodeIndexStore.replaceManifest] at hrow
    obtain hrow | hrow := List.mem_append.mp hrow
    · apply hsound.root row (List.mem_filter.mp hrow).1
    · obtain ⟨entry, -, rfl⟩ := List.mem_map.mp hrow
      rfl
  manifests branch' := by
    rw [manifestOf_replaceManifest hsound.root]
    split
    · exact .inr ⟨head, hmem, rfl⟩
    · apply hsound.manifests branch'

end Committed

/-! ### The runs -/

section Triples

variable (indexing : Indexing)

/-- What is committed is sound, and heads are added. -/
def discipline : Discipline (Connection CodeIndexStore × List Head) :=
  Transactions.discipline (Sound indexing) (fun heads heads' => heads ⊆ heads')
    (fun heads => List.Subset.refl heads) List.Subset.trans

variable {indexing} {i : ℕ}

/-- A tree that was checked out. -/
def CheckedOut (tree : List ManifestEntry) (heads : List Head) : Prop :=
  ∃ head ∈ heads, head.tree = tree

theorem lasting_checkedOut (tree : List ManifestEntry) :
  Transactions.Lasting (fun heads heads' => heads ⊆ heads') (CheckedOut tree)
  := by
  rintro heads heads' hsub ⟨head, hmem, htree⟩
  use head, hsub hmem

/-- A query or a reading leaves everything as it is. -/
theorem triple_ask {α : Type} {P : List Head → Prop} {o : RepoOp}
    {k : RepoAns o → IndexProgram α} {q : RepoAns o → List Head → Prop}
    {Q : Except Unit α → Connection CodeIndexStore × List Head → Prop}
    (hP : Transactions.Lasting (fun heads heads' => heads ⊆ heads') P)
    (hq : ∀ c heads a, (repository indexing).allows c heads o a → q a heads)
    (hk : ∀ a, (discipline indexing).Triple (repository indexing).machine i
      (fun w => P w.2 ∧ q a w.2) (k a) Q) :
  (discipline indexing).Triple (repository indexing).machine i (fun w => P w.2)
    (.call (.other o) k) Q
  := by
  apply Transactions.triple_other hP (R := fun a heads => P heads ∧ q a heads) _ hk
  intro c heads a hI hPheads hallows
  exact ⟨hI, List.Subset.refl _, hPheads, hq c heads a hallows⟩

/-- An error ends the run with what it knows. -/
theorem triple_orThrow {α β : Type} {P : Connection CodeIndexStore × List Head → Prop}
    {a : Option α} {f : α → IndexProgram β}
    {Q : Except Unit β → Connection CodeIndexStore × List Head → Prop}
    (hthrow : ∀ w, P w → Q (.error ()) w)
    (hf : ∀ x, a = some x → (discipline indexing).Triple (repository indexing).machine i P (f x) Q) :
  (discipline indexing).Triple (repository indexing).machine i P ((orThrow a).bind f) Q
  := by
  cases a with
  | none => exact fun w _ h => hthrow w h
  | some x => apply hf x rfl

/-- Entering what a reading has given. -/
theorem triple_insertBlob {tree : List ManifestEntry} {entry : ManifestEntry}
    (hentry : entry ∈ indexable indexing tree) (lang : String) {failing : Bool}
    {extraction : Extraction}
    (hextraction : extraction = entered indexing ⟨entry.blobSha, entry.path, failing⟩) :
  (discipline indexing).Triple (repository indexing).machine i (fun w => CheckedOut tree w.2)
    (insertBlob entry.blobSha lang extraction) fun _ w => CheckedOut tree w.2
  := by
  apply Transactions.triple_transaction (lasting_checkedOut tree)
  rintro heads store store' ⟨head, hmem, rfl⟩ hsound hwhole
  rw [whole_insertBlob] at hwhole
  split at hwhole
  · cases hwhole
  · next hnew =>
      rw [← Option.some.inj hwhole, hextraction]
      apply sound_insertBlob hsound ⟨head, hmem, hentry⟩ (by simpa using hnew)

/-- What a file gives, or nothing, is what one of its readings enters. -/
theorem extract_entered {source : Option String} {entry : ManifestEntry}
    (hsource : ∀ text ∈ source, indexing.contents entry.blobSha = text) :
  ∃ failing, (extract indexing source (extOf entry.path)).getD ⟨[], []⟩ =
    entered indexing ⟨entry.blobSha, entry.path, failing⟩
  := by
  cases source with
  | none => exact ⟨true, rfl⟩
  | some text =>
      use false
      rw [entered, if_neg Bool.false_ne_true, extract, hsource text rfl, Option.bind_some]

theorem triple_indexEntries {tree entries : List ManifestEntry}
    (hsub : entries ⊆ indexable indexing tree) (processed : List String) (indexed skipped : ℕ) :
  (discipline indexing).Triple (repository indexing).machine i (fun w => CheckedOut tree w.2)
    (indexEntries indexing entries processed indexed skipped)
    fun _ w => CheckedOut tree w.2
  := by
  induction entries generalizing processed indexed skipped with
  | nil => exact fun _ _ h => h
  | cons entry entries ih =>
      have hmem := hsub List.mem_cons_self
      have ih := fun processed indexed skipped =>
        ih (List.cons_subset.mp hsub).2 processed indexed skipped
      rw [indexEntries]
      split
      · apply ih
      · apply triple_ask (lasting_checkedOut tree) (q := fun _ _ => True) fun _ _ _ _ => trivial
        intro known
        apply triple_orThrow fun _ h => h.1
        intro known hknown
        apply Discipline.Triple.weaken (P := fun w => CheckedOut tree w.2) _ fun _ _ h => h.1
        split
        · apply ih
        · apply triple_ask (o := .readBlob entry.blobSha) (lasting_checkedOut tree)
            (q := fun a _ => Right (fun source => indexing.contents entry.blobSha = source) a)
            fun _ _ _ h => h
          intro source
          apply (Discipline.Triple.assume (P := fun w => CheckedOut tree w.2) _).weaken
            fun _ _ h => ⟨h.2, h.1⟩
          intro hsource
          obtain ⟨failing, hentered⟩ := extract_entered hsource
          split
          · next hnone =>
              rw [hnone] at hentered
              apply Discipline.Triple.attempt_bind (triple_insertBlob hmem _ hentered)
              exact fun _ => ih _ _ _
          · next extraction hsome =>
              rw [hsome] at hentered
              apply Discipline.Triple.bind (triple_insertBlob hmem _ hentered)
              · exact fun _ => ih _ _ _
              · exact fun _ _ _ h => h

theorem triple_replaceManifest {tree : List ManifestEntry} (branch : String) :
  (discipline indexing).Triple (repository indexing).machine i (fun w => CheckedOut tree w.2)
    (replaceManifest branch indexing.root (indexable indexing tree))
    fun _ w => CheckedOut tree w.2
  := by
  apply Transactions.triple_transaction (lasting_checkedOut tree)
  rintro heads store store' ⟨head, hmem, rfl⟩ hsound hwhole
  rw [whole_replaceManifest] at hwhole
  rw [← Option.some.inj hwhole]
  apply sound_replaceManifest hsound hmem

/-- A run keeps the committed store sound, whatever runs next to it. -/
theorem triple_indexRepo :
  (discipline indexing).Triple (repository indexing).machine i (fun _ => True)
    (indexRepo indexing) fun _ _ => True
  := by
  apply triple_ask (P := fun _ => True) (o := .currentBranch) (q := fun _ _ => True)
    (fun _ _ _ h => h) fun _ _ _ _ => trivial
  intro branch
  apply triple_orThrow fun _ _ => trivial
  intro branch _
  apply Discipline.Triple.weaken (P := fun _ => True) _ fun _ _ _ => trivial
  apply triple_ask (P := fun _ => True) (o := .lsTree)
    (q := fun a heads => Right (fun tree => CheckedOut tree heads) a)
    (fun _ _ _ h => h)
  · intro c heads a hallows tree hmem
    obtain ⟨head, hhead, htree⟩ := Option.map_eq_some_iff.mp (hallows tree hmem)
    use head, List.mem_of_head? hhead
  · intro tree
    apply triple_orThrow fun _ _ => trivial
    intro tree htree
    apply Discipline.Triple.weaken (P := fun w => CheckedOut tree w.2) _
      fun _ _ h => h.2 tree htree
    apply Discipline.Triple.bind (triple_indexEntries (List.Subset.refl _) [] 0 0)
    · intro counts
      apply Discipline.Triple.bind (triple_replaceManifest branch)
      · exact fun _ _ _ _ => trivial
      · exact fun _ _ _ _ => trivial
    · exact fun _ _ _ _ => trivial

/-- A process leaves a sound store, at whichever statements it ends. -/
theorem sound_of_process {before after : CodeIndexStore × List Head}
    (h : Process indexing before after) (hsound : Sound indexing before.2 before.1) :
  Sound indexing after.2 after.1
  := by
  obtain ⟨c, hrun, rfl⟩ := h
  have hcheckout : ∀ w head, (discipline indexing).Inv w →
      (repository indexing).machine.envAllows w head →
        (discipline indexing).Inv ((repository indexing).machine.envPost w head) ∧
          ∀ i, (discipline indexing).Rely i w ((repository indexing).machine.envPost w head) := by
    rintro w head ⟨hsound, hopen⟩ -
    have hsub : w.2 ⊆ head :: w.2 := List.subset_cons_self head w.2
    exact ⟨⟨hsound.mono hsub, hopen⟩, fun i => ⟨fun _ => rfl, fun h => h, hsub⟩⟩
  have hend := Discipline.settled_of_run (D := discipline indexing) (P := fun _ _ => True)
    (Q := fun _ _ _ => True) (fun _ => triple_indexRepo) (fun _ _ => Discipline.Stable.const True)
    hcheckout ⟨hsound, by simp [Connection.fresh]⟩ (fun _ => trivial) hrun
  apply hend.1.1

/-- After any processes one after the other, each with any number of runs that share its
connection, whichever statements fail, the store is sound. -/
theorem store_sound {heads : List Head} {after : CodeIndexStore × List Head}
    (h : Relation.ReflTransGen (Process indexing) (.empty, heads) after) :
  Sound indexing after.2 after.1
  := by
  induction h with
  | refl => apply sound_empty
  | tail _ hprocess ih => apply sound_of_process hprocess ih

end Triples

/-! ### A run by itself -/

section Alone

variable (indexing : Indexing) (run : IndexRun)

/-- What a program comes to by itself, in a repository that does not change and with a connection
whose statements only fail if they are errors. -/
def runAlone {α : Type} : IndexProgram α → Connection CodeIndexStore →
    Except Unit α × Connection CodeIndexStore
  | .done a, c => (.ok a, c)
  | .fail e, c => (.error e, c)
  | .call (.statement s) k, c =>
      runAlone (k (c.exec 0 s).isSome) (c.answer 0 s (c.exec 0 s).isSome)
  | .call (.other .currentBranch) k, c => runAlone (k (some run.branch)) c
  | .call (.other .lsTree) k, c => runAlone (k (some run.tree)) c
  | .call (.other (.hasBlob blobSha)) k, c => runAlone (k (some (c.visible.hasBlob blobSha))) c
  | .call (.other (.readBlob blobSha)) k, c => runAlone (k (readBlob indexing run blobSha)) c

theorem runAlone_ask {α : Type} (o : RepoOp) (k : RepoAns o → IndexProgram α)
    (c : Connection CodeIndexStore) :
  runAlone indexing run (.call (.other o) k) c =
    runAlone indexing run
      (k (match o with
        | .currentBranch => some run.branch
        | .lsTree => some run.tree
        | .hasBlob blobSha => some (c.visible.hasBlob blobSha)
        | .readBlob blobSha => readBlob indexing run blobSha)) c
  := by cases o <;> rfl

/-- A program and then another one, by themselves. -/
theorem runAlone_bind {α β : Type} (p : IndexProgram α) (f : α → IndexProgram β)
    (c : Connection CodeIndexStore) :
  runAlone indexing run (p.bind f) c =
    match runAlone indexing run p c with
    | (.ok a, c') => runAlone indexing run (f a) c'
    | (.error e, c') => (.error e, c')
  := by
  induction p generalizing c with
  | done a => rfl
  | fail e => rfl
  | call o k ih =>
      cases o with
      | statement s => apply ih
      | other o =>
          cases o with
          | currentBranch => apply ih
          | lsTree => apply ih
          | hasBlob blobSha => apply ih
          | readBlob blobSha => apply ih

theorem runAlone_attempt {α : Type} (p : IndexProgram α) (c : Connection CodeIndexStore) :
  runAlone indexing run p.attempt c =
    (.ok (runAlone indexing run p c).1, (runAlone indexing run p c).2)
  := by
  induction p generalizing c with
  | done a => rfl
  | fail e => rfl
  | call o k ih =>
      cases o with
      | statement s => apply ih
      | other o =>
          cases o with
          | currentBranch => apply ih
          | lsTree => apply ih
          | hasBlob blobSha => apply ih
          | readBlob blobSha => apply ih

theorem runAlone_execAll (body : List (CodeIndexStore → Option CodeIndexStore))
    (committed working : CodeIndexStore) :
  ∃ r working', runAlone indexing run (Transactions.execAll () body)
      ⟨committed, some working, some 0⟩ = (r, ⟨committed, some working', some 0⟩) ∧
    match Transactions.whole body working with
    | some store => r = .ok () ∧ working' = store
    | none => r = .error ()
  := by
  induction body generalizing working with
  | nil => exact ⟨.ok (), working, rfl, rfl, rfl⟩
  | cons f body ih =>
      cases hf : f working with
      | none =>
          refine ⟨.error (), working, ?_, ?_⟩
          · simp [Transactions.execAll, Transactions.exec, Program.bind, runAlone,
              Connection.exec, Connection.answer, hf]
          · simp [Transactions.whole, hf]
      | some store =>
          obtain ⟨r, working', hrun, hwhole⟩ := ih store
          refine ⟨r, working', ?_, ?_⟩
          · simpa [Transactions.execAll, Transactions.exec, Program.bind, runAlone,
              Connection.exec, Connection.answer, hf] using hrun
          · simpa [Transactions.whole, hf] using hwhole

/-- A transaction by itself does what its statements do together, or nothing. -/
theorem runAlone_transaction (body : List (CodeIndexStore → Option CodeIndexStore))
    (store : CodeIndexStore) :
  runAlone indexing run (Transactions.transaction () body) (.fresh store) =
    match Transactions.whole body store with
    | some store' => (.ok (), .fresh store')
    | none => (.error (), .fresh store)
  := by
  obtain ⟨r, working', hrun, hwhole⟩ := runAlone_execAll indexing run body store store
  have hbegin : runAlone indexing run (Transactions.exec () .begin) (.fresh store) =
      (.ok (), ⟨store, some store, some 0⟩) := rfl
  rw [Transactions.transaction, runAlone_bind, hbegin]
  dsimp only
  rw [Program.tryCatch, runAlone_bind, runAlone_attempt, runAlone_bind, hrun]
  cases hbody : Transactions.whole body store with
  | none =>
      rw [hbody] at hwhole
      subst hwhole
      rfl
  | some store' =>
      rw [hbody] at hwhole
      obtain ⟨rfl, rfl⟩ := hwhole
      rfl

theorem runAlone_insertBlob {blobSha : String} {store : CodeIndexStore}
    (hnew : store.hasBlob blobSha = false) (lang : String) (extraction : Extraction) :
  runAlone indexing run (insertBlob blobSha lang extraction) (.fresh store) =
    (.ok (), .fresh (store.insertBlob blobSha lang extraction))
  := by
  rw [insertBlob, runAlone_transaction, whole_insertBlob, hnew, if_neg Bool.false_ne_true]

/-- The loop by itself is that over whole operations. -/
theorem runAlone_indexEntries (entries : List ManifestEntry) (p : Progress) :
  runAlone indexing run (indexEntries indexing entries p.processed p.indexed p.skipped)
      (.fresh p.store) =
    let p' := entries.foldl (indexEntry indexing run) p
    (.ok (p'.indexed, p'.skipped), .fresh p'.store)
  := by
  induction entries generalizing p with
  | nil => rfl
  | cons entry entries ih =>
      rw [List.foldl_cons, ← ih, indexEntries, indexEntry]
      split
      · rfl
      · dsimp only
        apply (runAlone_ask indexing run (.hasBlob entry.blobSha) _ _).trans
        have hvisible : (Connection.fresh p.store).visible = p.store := rfl
        dsimp only
        rw [hvisible, orThrow, Program.bind]
        cases hhas : p.store.hasBlob entry.blobSha with
        | true => rfl
        | false =>
            rw [if_neg Bool.false_ne_true, if_neg Bool.false_ne_true]
            apply (runAlone_ask indexing run (.readBlob entry.blobSha) _ _).trans
            have hextract : extract indexing (readBlob indexing run entry.blobSha)
                (extOf entry.path) = readAndExtract indexing run entry := rfl
            dsimp only
            rw [hextract]
            cases readAndExtract indexing run entry with
            | none =>
                dsimp only
                rw [runAlone_bind, runAlone_attempt, runAlone_insertBlob indexing run hhas]
            | some extraction =>
                dsimp only
                rw [runAlone_bind, runAlone_insertBlob indexing run hhas]

/-- A run by itself does what the run of whole operations does. -/
theorem runAlone_indexRepo (store : CodeIndexStore) :
  runAlone indexing run (indexRepo indexing) (.fresh store) =
    (.ok (CodeIndex.indexRepo indexing store run).2,
      .fresh (CodeIndex.indexRepo indexing store run).1)
  := by
  rw [indexRepo]
  apply (runAlone_ask indexing run .currentBranch _ _).trans
  dsimp only
  rw [orThrow, Program.bind]
  apply (runAlone_ask indexing run .lsTree _ _).trans
  dsimp only
  rw [orThrow, Program.bind]
  have hloop := runAlone_indexEntries indexing run (indexable indexing run.tree) ⟨store, [], 0, 0⟩
  dsimp only at hloop ⊢
  rw [runAlone_bind, hloop]
  dsimp only
  rw [runAlone_bind, replaceManifest, runAlone_transaction, whole_replaceManifest]
  rfl

end Alone

/-! ### Two runs on one connection -/

def decideRight {α : Type} (P : α → Prop) [DecidablePred P] (a : Option α) :
    Decidable (Right P a) :=
  inferInstanceAs (Decidable (∀ x ∈ a, P x))

def decideSuccess (ok succeeds : Bool) : Decidable (ok = true → succeeds = true) := inferInstance

instance (i : ℕ) (w : Connection CodeIndexStore × List Head) (o : DbOp CodeIndexStore RepoOp)
    (a : DbAns RepoAns o) : Decidable ((repository sampleIndexing).machine.allows i w o a) :=
  match o, a with
  | .statement s, ok => decideSuccess ok (w.1.exec i s).isSome
  | .other .currentBranch, a =>
      decideRight (α := String) (fun branch => w.2.head?.map Head.branch = some branch) a
  | .other .lsTree, a =>
      decideRight (α := List ManifestEntry) (fun tree => w.2.head?.map Head.tree = some tree) a
  | .other (.hasBlob blobSha), a =>
      decideRight (α := Bool) (fun known => w.1.visible.hasBlob blobSha = known) a
  | .other (.readBlob blobSha), a =>
      decideRight (α := String) (fun source => sampleIndexing.contents blobSha = source) a

instance (w : Connection CodeIndexStore × List Head) (head : Head) :
    Decidable ((repository sampleIndexing).machine.envAllows w head) :=
  inferInstanceAs (Decidable True)

/-- Answers without errors, but for a statement that cannot succeed. -/
def sampleAnswer (w : Connection CodeIndexStore × List Head) :
    (o : DbOp CodeIndexStore RepoOp) → Option (DbAns RepoAns o)
  | .statement s => some (w.1.exec 0 s).isSome
  | .other .currentBranch => some (w.2.head?.map Head.branch)
  | .other .lsTree => some (w.2.head?.map Head.tree)
  | .other (.hasBlob blobSha) => some (some (w.1.visible.hasBlob blobSha))
  | .other (.readBlob blobSha) => some (some (sampleIndexing.contents blobSha))

/-- A second run comes to the blob of the first, which has not committed it. -/
def sampleSchedule :
    List (Machine.Move (DbOp CodeIndexStore RepoOp) (DbAns RepoAns)
      (Connection CodeIndexStore × List Head) Head) :=
  [0, 0, 0, 0, 1, 1, 1, 1, 0, 1, 0, 0, 0, 0, 0, 0, 0].map fun i => .act i sampleAnswer

/-- One file is checked out. -/
def sampleHead : Head := ⟨"main", [⟨"f.ts", "blob"⟩]⟩

theorem store_sound_two :
  ∃ store heads, Relation.ReflTransGen (Process sampleIndexing) (.empty, [sampleHead])
      (store, heads) ∧ store.manifestOf "main" ≠ [] ∧ Sound sampleIndexing heads store
  := by
  obtain ⟨c, hrun, hc⟩ := Machine.exists_run_of_play (repository sampleIndexing).machine
    sampleSchedule
    (⟨(.fresh .empty, [sampleHead]), fun _ => indexRepo sampleIndexing⟩ :
      Config _ _ Unit IndexResult _)
    (fun c => c.world.1.committed.manifestOf "main" ≠ []) (by decide +kernel)
  have hprocess : Relation.ReflTransGen (Process sampleIndexing) (.empty, [sampleHead])
      (c.world.1.committed, c.world.2) :=
    .single ⟨c, hrun, rfl⟩
  use c.world.1.committed, c.world.2, hprocess, of_decide_eq_true hc
  apply store_sound hprocess

end CodeIndex.Sharing
