import OpencodeToolbelt.CodeIndex.Fresh
import Mathlib.Order.Bounds.Defs

/-!
# Dependents

The blast radius of a name is the least set of names that has its callers and is closed under
callers. The callers of a name are those that `callers` lists, as a reference stands under a symbol
that is defined in the same blob.
-/

namespace CodeIndexStore

/-! ### Calls -/

section Calls

variable (store : CodeIndexStore) (branch : String)

/-- A name refers to another one on a branch: the reference is in a blob of the branch, outside
the module scope, and its target is defined in a blob of the branch. -/
def Calls (caller callee : String) : Prop :=
  caller ≠ CodeIndex.MODULE ∧
    (∃ file ∈ store.manifestOf branch, ∃ r ∈ store.refsOf file.blobSha,
      r.caller = caller ∧ r.dstName = callee) ∧
    ∃ file ∈ store.manifestOf branch, ∃ s ∈ store.symbolsOf file.blobSha, s.name = callee

/-- The names that depend on a name are closed under callers. -/
def Closed (name : String) (names : Set String) : Prop :=
  ∀ caller callee, store.Calls branch caller callee → callee = name ∨ callee ∈ names →
    caller ∈ names

variable {store branch}

theorem mem_resolved {row : (ManifestEntry × RefEdge) × (ManifestEntry × SymbolDef)} :
  row ∈ store.resolved branch ↔
    row.1.1 ∈ store.manifestOf branch ∧ row.1.2 ∈ store.refsOf row.1.1.blobSha ∧
      row.2 ∈ store.symbolSites branch ∧ row.2.2.name = row.1.2.dstName
  := by
  unfold resolved
  rw [List.mem_flatMap]
  constructor
  · rintro ⟨file, hfile, hrow⟩
    obtain ⟨r, hr, hrow⟩ := List.mem_flatMap.mp hrow
    obtain ⟨site, hsite, rfl⟩ := List.mem_map.mp hrow
    obtain ⟨hsite, hname⟩ := List.mem_filter.mp hsite
    exact ⟨hfile, hr, hsite, by simpa using hname⟩
  · obtain ⟨⟨file, r⟩, site⟩ := row
    rintro ⟨hfile, hr, hsite, hname⟩
    use file, hfile
    apply List.mem_flatMap.mpr
    use r, hr
    apply List.mem_map_of_mem
    apply List.mem_filter.mpr
    exact ⟨hsite, by simpa using hname⟩

theorem mem_symbolSites {site : ManifestEntry × SymbolDef} :
  site ∈ store.symbolSites branch ↔
    site.1 ∈ store.manifestOf branch ∧ site.2 ∈ store.symbolsOf site.1.blobSha
  := by
  unfold symbolSites
  rw [List.mem_flatMap]
  constructor
  · rintro ⟨file, hfile, hsite⟩
    obtain ⟨s, hs, rfl⟩ := List.mem_map.mp hsite
    exact ⟨hfile, hs⟩
  · obtain ⟨file, s⟩ := site
    rintro ⟨hfile, hs⟩
    use file, hfile
    apply List.mem_map_of_mem hs

/-- The edges outside the module scope are the calls. -/
theorem calls_iff_mem_active {caller callee : String} :
  store.Calls branch caller callee ↔
    caller ≠ CodeIndex.MODULE ∧ (caller, callee) ∈ store.active branch
  := by
  unfold active
  rw [List.mem_map]
  constructor
  · rintro ⟨hmodule, ⟨file, hfile, r, hr, rfl, rfl⟩, file', hfile', s, hs, hname⟩
    use hmodule, ((file, r), (file', s))
    constructor
    · apply mem_resolved.mpr
      exact ⟨hfile, hr, mem_symbolSites.mpr ⟨hfile', hs⟩, hname⟩
    · rfl
  · rintro ⟨hmodule, ⟨⟨file, r⟩, file', s⟩, hrow, heq⟩
    obtain ⟨rfl, rfl⟩ := Prod.mk.inj heq
    obtain ⟨hfile, hr, hsite, hname⟩ := mem_resolved.mp hrow
    obtain ⟨hfile', hs⟩ := mem_symbolSites.mp hsite
    exact ⟨hmodule, ⟨file, hfile, r, hr, rfl, rfl⟩, file', hfile', s, hs, hname⟩

theorem mem_callersOf_active {names : List String} {caller : String} :
  caller ∈ callersOf (store.active branch) names ↔
    ∃ callee ∈ names, store.Calls branch caller callee
  := by
  rw [mem_callersOf]
  constructor
  · rintro ⟨hmodule, callee, hcallee, hedge⟩
    use callee, hcallee
    apply calls_iff_mem_active.mpr ⟨hmodule, hedge⟩
  · rintro ⟨callee, hcallee, hcalls⟩
    obtain ⟨hmodule, hedge⟩ := calls_iff_mem_active.mp hcalls
    exact ⟨hmodule, callee, hcallee, hedge⟩

end Calls

/-! ### Least sets -/

section Rounds

variable {edges : List (String × String)} {found last : List String}

theorem subset_recursiveUnion (rounds : ℕ) :
  found ⊆ recursiveUnion edges rounds found last
  := by
  induction rounds generalizing found last with
  | zero => apply List.Subset.refl
  | succ rounds ih =>
      rw [recursiveUnion]
      split
      · apply List.Subset.refl
      · apply List.Subset.trans (List.subset_append_left _ _) ih

theorem nodup_recursiveUnion (rounds : ℕ) (h : Searching edges found last) :
  (recursiveUnion edges rounds found last).Nodup
  := by
  induction rounds generalizing found last with
  | zero => apply h.nodup
  | succ rounds ih =>
      rw [recursiveUnion]
      split
      · apply h.nodup
      · apply ih h.step

/-- Nothing is found but what a closed set has. -/
theorem recursiveUnion_subset (rounds : ℕ) {names : Set String}
    (hnames : ∀ callees : List String, (∀ callee ∈ callees, callee ∈ names) →
      ∀ caller ∈ callersOf edges callees, caller ∈ names)
    (hfound : ∀ name ∈ found, name ∈ names) (hlast : ∀ name ∈ last, name ∈ names) :
  ∀ name ∈ recursiveUnion edges rounds found last, name ∈ names
  := by
  induction rounds generalizing found last with
  | zero => apply hfound
  | succ rounds ih =>
      rw [recursiveUnion]
      split
      · apply hfound
      · have hnew : ∀ name ∈ ((callersOf edges last).filter fun name => name ∉ found).dedup,
            name ∈ names := by
          intro name hmem
          apply hnames last hlast
          apply List.mem_of_mem_filter (List.mem_dedup.mp hmem)
        apply ih _ hnew
        intro name hmem
        rcases List.mem_append.mp hmem with hmem | hmem
        · apply hfound name hmem
        · apply hnew name hmem

theorem recursiveUnion_of_eq_nil (rounds : ℕ)
    (h : ((callersOf edges last).filter fun name => name ∉ found).dedup = []) :
  recursiveUnion edges rounds found last = found
  := by
  cases rounds with
  | zero => rfl
  | succ rounds => rw [recursiveUnion, if_pos h]

/-- One round more than there are edges finds nothing. -/
theorem recursiveUnion_succ (rounds : ℕ) (h : Searching edges found last)
    (hrounds : edges.length ≤ found.length + rounds) :
  recursiveUnion edges (rounds + 1) found last = recursiveUnion edges rounds found last
  := by
  induction rounds generalizing found last with
  | zero =>
      have hnone : ((callersOf edges last).filter fun name => name ∉ found).dedup = [] := by
        rw [List.dedup_eq_nil, List.filter_eq_nil_iff]
        intro caller hmem hnot
        obtain ⟨-, callee, -, hedge⟩ := mem_callersOf.mp hmem
        rw [decide_eq_true_eq] at hnot
        apply hnot (mem_of_length_le h.nodup h.subset hrounds hedge)
      rw [recursiveUnion_of_eq_nil _ hnone, recursiveUnion_of_eq_nil _ hnone]
  | succ rounds ih =>
      by_cases hnew : ((callersOf edges last).filter fun name => name ∉ found).dedup = []
      · rw [recursiveUnion_of_eq_nil _ hnew, recursiveUnion_of_eq_nil _ hnew]
      · have hpos := List.length_pos_iff.mpr hnew
        have hrounds' : edges.length ≤
            (found ++ ((callersOf edges last).filter fun name => name ∉ found).dedup).length +
              rounds := by
          rw [List.length_append]
          omega
        have hnext := ih h.step hrounds'
        have hstep : ∀ rounds, recursiveUnion edges (rounds + 1) found last =
            recursiveUnion edges rounds
              (found ++ ((callersOf edges last).filter fun name => name ∉ found).dedup)
              ((callersOf edges last).filter fun name => name ∉ found).dedup := by
          intro rounds
          rw [recursiveUnion, if_neg hnew]
        rw [hstep (rounds + 1), hstep rounds, hnext]

/-- More rounds than there are edges find the same. -/
theorem recursiveUnion_eq_of_le {rounds rounds' : ℕ} (h : Searching edges found last)
    (hrounds : edges.length ≤ found.length + rounds) (hle : rounds ≤ rounds') :
  recursiveUnion edges rounds' found last = recursiveUnion edges rounds found last
  := by
  induction rounds', hle using Nat.le_induction with
  | base => rfl
  | succ rounds' hle ih =>
      rw [recursiveUnion_succ rounds' h (by omega)]
      apply ih

theorem searching_direct (edges : List (String × String)) (name : String) :
  Searching edges (callersOf edges [name]).dedup (callersOf edges [name]).dedup
  := by
  constructor
  · apply List.nodup_dedup
  · intro caller hmem
    apply callersOf_subset _ _ (List.mem_dedup.mp hmem)
  · intro caller hmem
    right
    apply hmem

end Rounds

/-- The rows of the blast radius are the least closed set. -/
theorem isLeast_blastRadiusRows (store : CodeIndexStore) (branch name : String) :
  IsLeast {names | store.Closed branch name names} {x | x ∈ store.blastRadiusRows branch name}
  := by
  constructor
  · intro caller callee hcalls hcallee
    rcases hcallee with rfl | hcallee
    · apply subset_recursiveUnion
      rw [List.mem_dedup, mem_callersOf_active]
      exact ⟨callee, List.mem_singleton_self callee, hcalls⟩
    · apply blastRadiusRows_closed
      rw [mem_callersOf_active]
      exact ⟨callee, hcallee, hcalls⟩
  · intro names hnames
    have hdirect : ∀ x ∈ (callersOf (store.active branch) [name]).dedup, x ∈ names := by
      intro x hx
      obtain ⟨callee, hcallee, hcalls⟩ := mem_callersOf_active.mp (List.mem_dedup.mp hx)
      apply hnames x callee hcalls (Or.inl (List.mem_singleton.mp hcallee))
    apply recursiveUnion_subset _ _ hdirect hdirect
    intro callees hcallees caller hmem
    obtain ⟨callee, hcallee, hcalls⟩ := mem_callersOf_active.mp hmem
    apply hnames caller callee hcalls (Or.inr (hcallees callee hcallee))

end CodeIndexStore

namespace CodeIndex

/-! ### Enclosing symbols -/

theorem reference_caller {node : SyntaxNode} {outer : String} {r : RefEdge}
    (h : reference node outer = some r) :
  r.caller = outer
  := by
  unfold reference at h
  split at h
  · obtain ⟨fn, -, h⟩ := Option.bind_eq_some_iff.mp h
    split at h
    · cases h
      rfl
    · split at h
      · split at h
        · split at h
          · cases h
            rfl
          · cases h
        · cases h
      · cases h
  · split at h
    · obtain ⟨ctor, -, h⟩ := Option.bind_eq_some_iff.mp h
      split at h
      · cases h
        rfl
      · cases h
    · cases h

theorem enclosing_cases (node : SyntaxNode) (outer : String) :
  enclosing node outer = outer ∨
    ∃ d, definition node = some d ∧ d.name = enclosing node outer
  := by
  unfold enclosing
  split
  · left
    rfl
  · next name kind line _ hdefinition =>
      right
      exact ⟨_, hdefinition, rfl⟩
  · left
    rfl

/-- A reference stands under the name around it, or under that of a symbol defined with it. -/
def CallersDefined (outer : String) (extraction : Extraction) : Prop :=
  ∀ r ∈ extraction.refs, r.caller = outer ∨ ∃ d ∈ extraction.defs, d.name = r.caller

mutual

theorem walk_callersDefined (outer : String) (node : SyntaxNode) :
  CallersDefined outer (walk outer node)
  := by
  cases node with
  | mk type text row fields namedChildren =>
      intro r hr
      rw [walk] at hr ⊢
      dsimp only at hr ⊢
      rcases List.mem_append.mp hr with hr | hr
      · left
        apply reference_caller (Option.mem_toList.mp hr)
      · rcases walkAll_callersDefined _ namedChildren r hr with hcaller | ⟨d, hd, hname⟩
        · rcases enclosing_cases (.mk type text row fields namedChildren) outer with
            hsame | ⟨d, hd, hname⟩
          · left
            rw [hcaller, hsame]
          · right
            use d
            constructor
            · apply List.mem_append_left
              apply Option.mem_toList.mpr hd
            · rw [hname, hcaller]
        · right
          exact ⟨d, List.mem_append_right _ hd, hname⟩

theorem walkAll_callersDefined (outer : String) (nodes : List SyntaxNode) :
  CallersDefined outer (walkAll outer nodes)
  := by
  cases nodes with
  | nil =>
      intro r hr
      cases hr
  | cons node nodes =>
      intro r hr
      rw [walkAll] at hr ⊢
      dsimp only at hr ⊢
      rcases List.mem_append.mp hr with hr | hr
      · rcases walk_callersDefined outer node r hr with hcaller | ⟨d, hd, hname⟩
        · left
          apply hcaller
        · right
          exact ⟨d, List.mem_append_left _ hd, hname⟩
      · rcases walkAll_callersDefined outer nodes r hr with hcaller | ⟨d, hd, hname⟩
        · left
          apply hcaller
        · right
          exact ⟨d, List.mem_append_right _ hd, hname⟩

end

variable (indexing : Indexing)

theorem entered_callersDefined (r : Reading) :
  CallersDefined MODULE (entered indexing r)
  := by
  have hnil : CallersDefined MODULE ⟨[], []⟩ := by
    intro r hr
    cases hr
  unfold entered extractFromSource
  split
  · apply hnil
  · split
    · apply hnil
    · next grammar _ =>
        cases indexing.parse grammar (indexing.contents r.blobSha) with
        | none => apply hnil
        | some node => apply walk_callersDefined

theorem extractionOf_callersDefined (rs : List Reading) (blobSha : String) :
  CallersDefined MODULE (extractionOf indexing rs blobSha)
  := by
  unfold extractionOf
  cases firstReading rs blobSha with
  | none =>
      intro r hr
      cases hr
  | some r => apply entered_callersDefined

/-- A caller outside the module scope is a symbol of the blob that its reference is in. -/
theorem exists_symbol_of_caller {history : List IndexRun} {blobSha : String} {r : RefEdge}
    (hr : r ∈ (after indexing history).refsOf blobSha) (hmodule : r.caller ≠ MODULE) :
  ∃ s ∈ (after indexing history).symbolsOf blobSha, s.name = r.caller
  := by
  have hholds := holds_after indexing history
  rw [hholds.refs] at hr
  rw [hholds.symbols]
  apply (extractionOf_callersDefined indexing _ blobSha r hr).resolve_left hmodule

/-- `callers` lists the callers of a name. -/
theorem mem_callers_iff {history : List IndexRun} {branch name : String} {hits : List SymbolHit}
    (hhits : hits ∈ (after indexing history).callers branch name) (caller : String) :
  (∃ hit ∈ hits, hit.name = caller) ↔ (after indexing history).Calls branch caller name
  := by
  have hmem : ∀ hit, hit ∈ hits ↔ hit ∈ (after indexing history).callerRows branch name :=
    fun hit => hhits.1.mem_iff
  simp only [hmem, CodeIndexStore.callerRows, List.mem_dedup, List.mem_flatMap, List.mem_map,
    List.mem_filter, decide_eq_true_eq]
  constructor
  · rintro ⟨hit, ⟨row, ⟨hrow, hname, hmodule⟩, s, ⟨-, hs⟩, rfl⟩, rfl⟩
    change CodeIndexStore.Calls _ _ s.name _
    rw [hs, ← hname, CodeIndexStore.calls_iff_mem_active]
    use hmodule
    apply List.mem_map_of_mem hrow
  · intro hcalls
    obtain ⟨hmodule, ⟨file, hfile, r, hr, rfl, rfl⟩, file', hfile', s', hs', hname⟩ := hcalls
    obtain ⟨s, hs, hcaller⟩ := exists_symbol_of_caller indexing hr hmodule
    have hrow : ((file, r), (file', s')) ∈ (after indexing history).resolved branch := by
      apply CodeIndexStore.mem_resolved.mpr
      exact ⟨hfile, hr, CodeIndexStore.mem_symbolSites.mpr ⟨hfile', hs'⟩, hname⟩
    exact ⟨CodeIndexStore.hitOf (file, s), ⟨_, ⟨hrow, rfl, hmodule⟩, s, ⟨hs, hcaller⟩, rfl⟩, hcaller⟩

/-! ### Other branches -/

/-- Every file of a manifest has been come to. -/
theorem reading_of_manifest (history : List IndexRun) :
  ∀ row ∈ (after indexing history).manifest,
    (firstReading (readings indexing history) row.entry.blobSha).isSome = true
  := by
  induction history using List.reverseRecOn with
  | nil =>
      intro row hmem
      cases hmem
  | append_singleton history run ih =>
      intro row hmem
      rw [after_concat, manifest_indexRepo, List.mem_append, List.mem_filter, List.mem_map] at hmem
      rw [readings, List.flatMap_append, List.flatMap_singleton, firstReading_append,
        Option.isSome_or, Bool.or_eq_true]
      rcases hmem with ⟨hmem, -⟩ | ⟨entry, hentry, rfl⟩
      · left
        apply ih row hmem
      · right
        apply Option.isSome_iff_exists.mpr
        apply firstReading_isSome (r := readingOf run entry)
        apply List.mem_map_of_mem hentry

/-- Runs on other branches leave the files of a branch and what is in them as they are. -/
theorem sameFiles_of_later (history : List IndexRun) {later : List IndexRun} {branch : String}
    (hlater : ∀ run ∈ later, run.branch ≠ branch) :
  CodeIndexStore.SameFiles (after indexing (history ++ later)) (after indexing history) branch
  := by
  have hmanifest : (after indexing (history ++ later)).manifestOf branch =
      (after indexing history).manifestOf branch := by
    induction later using List.reverseRecOn with
    | nil => rw [List.append_nil]
    | append_singleton later run ih =>
        rw [← List.append_assoc, after_concat,
          manifestOf_indexRepo indexing run (root_after indexing _), if_neg, ih]
        · intro other hother
          apply hlater other (List.mem_append_left _ hother)
        · apply (hlater run (List.mem_append_right _ (List.mem_singleton_self run))).symm
  have hextraction : ∀ file ∈ (after indexing (history ++ later)).manifestOf branch,
      extractionOf indexing (readings indexing (history ++ later)) file.blobSha =
        extractionOf indexing (readings indexing history) file.blobSha := by
    intro file hfile
    rw [hmanifest] at hfile
    obtain ⟨row, hrow, rfl⟩ := List.mem_map.mp hfile
    obtain ⟨first, hfirst⟩ := Option.isSome_iff_exists.mp
      (reading_of_manifest indexing history row (List.mem_filter.mp hrow).1)
    rw [extractionOf, extractionOf, readings, List.flatMap_append, firstReading_append]
    rw [readings] at hfirst
    rw [hfirst, Option.some_or, readings, hfirst]
  have hholds := holds_after indexing (history ++ later)
  have hholds' := holds_after indexing history
  constructor
  · apply hmanifest
  · intro file hfile
    rw [hholds.symbols, hholds'.symbols, hextraction file hfile]
  · intro file hfile
    rw [hholds.refs, hholds'.refs, hextraction file hfile]

theorem exists_answer {α κ : Type} [LinearOrder κ] (key : α → κ) (rows : List α) :
  (CodeIndexStore.orderBy key rows).Nonempty
  := by
  use rows.mergeSort fun a b => key a ≤ key b
  constructor
  · apply List.mergeSort_perm
  · have htrans : ∀ a b c : α, decide (key a ≤ key b) = true → decide (key b ≤ key c) = true →
        decide (key a ≤ key c) = true := by
      intro a b c hab hbc
      rw [decide_eq_true_eq] at *
      apply hab.trans hbc
    have htotal : ∀ a b : α, (decide (key a ≤ key b) || decide (key b ≤ key a)) = true := by
      intro a b
      rw [Bool.or_eq_true, decide_eq_true_eq, decide_eq_true_eq]
      apply le_total
    have hpairwise := List.pairwise_mergeSort htrans htotal rows
    simpa using hpairwise

/-- The blast radius of a name, once the rounds of its search have come to an end, is the least
set of names that is closed under callers; the first level of it are the callers, and runs on
other branches do not change it. -/
theorem blastRadius_spec (history : List IndexRun) (branch name : String) :
  let store := after indexing history
  let direct := (CodeIndexStore.callersOf (store.active branch) [name]).dedup
  (store.blastRadius branch name).Nonempty ∧
    (∀ rounds, (store.active branch).length ≤ rounds →
      CodeIndexStore.recursiveUnion (store.active branch) rounds direct direct =
        store.blastRadiusRows branch name) ∧
    (∀ answer ∈ store.blastRadius branch name, answer.Nodup ∧
      IsLeast {names | store.Closed branch name names} {x | x ∈ answer}) ∧
    (∀ hits ∈ store.callers branch name, ∀ caller,
      (∃ hit ∈ hits, hit.name = caller) ↔ store.Calls branch caller name) ∧
    ∀ later : List IndexRun, (∀ run ∈ later, run.branch ≠ branch) →
      (after indexing (history ++ later)).blastRadius branch name = store.blastRadius branch name
  := by
  intro store direct
  have hsearching := CodeIndexStore.searching_direct (store.active branch) name
  refine ⟨exists_answer id _, ?_, ?_, ?_, ?_⟩
  · intro rounds hrounds
    apply CodeIndexStore.recursiveUnion_eq_of_le hsearching _ hrounds
    apply Nat.le_add_left
  · intro answer hanswer
    have hmem : {x | x ∈ answer} = {x | x ∈ store.blastRadiusRows branch name} := by
      ext x
      apply hanswer.1.mem_iff
    constructor
    · apply hanswer.1.nodup_iff.mpr
      apply CodeIndexStore.nodup_recursiveUnion _ hsearching
    · rw [hmem]
      apply CodeIndexStore.isLeast_blastRadiusRows
  · intro hits hhits
    apply mem_callers_iff indexing hhits
  · intro later hlater
    apply (sameFiles_of_later indexing history hlater).answers.blastRadius

end CodeIndex
