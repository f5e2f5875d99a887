import OpencodeToolbelt.CodeIndex.Radius
import Mathlib.Data.List.Flatten

/-!
# Repeated hits

`references` has a hit for a reference with every definition of its target, in every file that has
the definition. Each reference of a name is listed once only where the name has one definition.
-/

/-! ### Lists -/

section Lists

variable {α β : Type} {g : α → List β}

/-- A sublist that gives as much is the whole list, where every element gives something. -/
theorem eq_of_length_flatMap {D F : List α} (h : D.Sublist F) (hg : ∀ a ∈ F, g a ≠ [])
    (hlength : (F.flatMap g).length ≤ (D.flatMap g).length) :
  D = F
  := by
  induction h with
  | slnil => rfl
  | @cons D F a h _ =>
      exfalso
      have hpos := List.length_pos_iff.mpr (hg a List.mem_cons_self)
      have hle := (h.flatMap g).length_le
      rw [List.flatMap_cons, List.length_append] at hlength
      omega
  | @cons_cons D F a h ih =>
      rw [ih fun b hb => hg b (List.mem_cons_of_mem a hb)]
      rw [List.flatMap_cons, List.flatMap_cons, List.length_append, List.length_append] at hlength
      omega

/-- Elements that give nothing make no difference. -/
theorem flatMap_filter_ne_nil (F : List α) [DecidableEq β] :
  (F.filter fun a => g a ≠ []).flatMap g = F.flatMap g
  := by
  induction F with
  | nil => rfl
  | cons a F ih =>
      rw [List.filter_cons]
      split
      · rw [List.flatMap_cons, List.flatMap_cons, ih]
      · next h =>
          rw [decide_eq_true_eq, not_not] at h
          rw [List.flatMap_cons, h, List.nil_append, ih]

end Lists

namespace CodeIndexStore

section Mentions

variable (store : CodeIndexStore) (branch name : String)

/-- The definitions of a name on a branch, with the files they are in. -/
def sites : List (ManifestEntry × SymbolDef) :=
  (store.symbolSites branch).filter fun site => site.2.name = name

/-- The stored references to a name in a file. -/
def refsTo (file : ManifestEntry) : List RefEdge :=
  (store.refsOf file.blobSha).filter fun r => r.dstName = name

/-- The hit for a reference in a file. -/
def refHit (file : ManifestEntry) (r : RefEdge) : RefHit :=
  ⟨r.caller, file.path, r.line, r.kind, r.confidence⟩

/-- One hit for each pair of a stored reference to a name and a path at which its blob is. -/
def mentions : List RefHit :=
  (store.manifestOf branch).dedup.flatMap fun file =>
    (store.refsTo name file).map (refHit file)

/-- The hits of a file, with every definition of the name. -/
def repeated (file : ManifestEntry) : List RefHit :=
  (store.refsTo name file).flatMap fun r => (store.sites branch name).map fun _ => refHit file r

theorem referenceRows_eq :
  store.referenceRows branch name = (store.manifestOf branch).flatMap (store.repeated branch name)
  := by
  unfold referenceRows resolved
  rw [List.filter_flatMap, List.map_flatMap]
  apply List.flatMap_congr
  intro file _
  unfold repeated refsTo
  induction store.refsOf file.blobSha with
  | nil => rfl
  | cons r refs ih =>
      rw [List.flatMap_cons, List.filter_append, List.map_append, ih, List.filter_cons]
      by_cases h : r.dstName = name
      · rw [if_pos (decide_eq_true h), List.flatMap_cons]
        congr 1
        unfold sites
        rw [List.filter_eq_self.mpr, List.map_map, h]
        · rfl
        · intro row hrow
          obtain ⟨site, -, rfl⟩ := List.mem_map.mp hrow
          simpa using h
      · rw [if_neg (by simpa using h), List.filter_eq_nil_iff.mpr, List.map_nil, List.nil_append]
        intro row hrow
        obtain ⟨site, -, rfl⟩ := List.mem_map.mp hrow
        simpa using h

variable {store branch name}

theorem length_repeated (file : ManifestEntry) :
  (store.repeated branch name file).length =
    (store.refsTo name file).length * (store.sites branch name).length
  := by
  simp [repeated, List.length_flatMap]

theorem length_flatMap_repeated (files : List ManifestEntry) :
  (files.flatMap (store.repeated branch name)).length =
    (files.flatMap (store.refsTo name)).length * (store.sites branch name).length
  := by
  induction files with
  | nil => simp
  | cons file files ih =>
      rw [List.flatMap_cons, List.flatMap_cons, List.length_append, List.length_append, ih,
        length_repeated, Nat.add_mul]

/-- The files with a reference to a name. -/
theorem mem_referring {files : List ManifestEntry} {file : ManifestEntry} :
  (file ∈ files.filter fun file => store.refsTo name file ≠ []) ↔
    file ∈ files ∧ store.refsTo name file ≠ []
  := by
  rw [List.mem_filter, decide_eq_true_eq]

theorem length_eq_of_perm (h : (store.referenceRows branch name).Perm (store.mentions branch name)) :
  ((store.manifestOf branch).flatMap (store.refsTo name)).length *
      (store.sites branch name).length =
    ((store.manifestOf branch).dedup.flatMap (store.refsTo name)).length
  := by
  have hlength := h.length_eq
  rw [referenceRows_eq, length_flatMap_repeated] at hlength
  rw [hlength, mentions]
  simp only [List.length_flatMap, List.length_map]

theorem once_of_perm (hdefined : store.sites branch name ≠ [])
    (h : (store.referenceRows branch name).Perm (store.mentions branch name))
    {file : ManifestEntry} (hfile : file ∈ store.manifestOf branch)
    (hrefs : store.refsTo name file ≠ []) :
  (store.sites branch name).length = 1 ∧ (store.manifestOf branch).count file = 1
  := by
  have hlength := length_eq_of_perm h
  have hsublist := List.dedup_sublist (store.manifestOf branch)
  have hle := (hsublist.flatMap (store.refsTo name)).length_le
  have hpos : 0 < ((store.manifestOf branch).flatMap (store.refsTo name)).length := by
    apply List.length_pos_iff.mpr
    intro hnil
    apply hrefs (List.flatMap_eq_nil_iff.mp hnil file hfile)
  have hone : (store.sites branch name).length = 1 := by
    have hsites := List.length_pos_iff.mpr hdefined
    apply Nat.le_antisymm _ hsites
    apply Nat.le_of_mul_le_mul_left _ hpos
    omega
  use hone
  rw [hone, Nat.mul_one] at hlength
  have heq := eq_of_length_flatMap (g := store.refsTo name)
    (hsublist.filter fun file => store.refsTo name file ≠ [])
    (fun a ha => (mem_referring.mp ha).2)
    (by
      rw [flatMap_filter_ne_nil, flatMap_filter_ne_nil]
      apply hlength.le)
  have hcount := congr_arg (List.count file) heq
  rw [List.count_filter (by simpa using hrefs), List.count_filter (by simpa using hrefs),
    List.count_dedup, if_pos hfile] at hcount
  apply hcount.symm

theorem repeated_of_length_eq_one (h : (store.sites branch name).length = 1)
    (file : ManifestEntry) :
  store.repeated branch name file = (store.refsTo name file).map (refHit file)
  := by
  obtain ⟨site, hsite⟩ := List.length_eq_one_iff.mp h
  rw [repeated, hsite, List.map_eq_flatMap]
  rfl

theorem perm_of_once
    (h : ∀ file ∈ store.manifestOf branch, store.refsTo name file ≠ [] →
      (store.sites branch name).length = 1 ∧ (store.manifestOf branch).count file = 1) :
  (store.referenceRows branch name).Perm (store.mentions branch name)
  := by
  have hrepeated : (store.manifestOf branch).flatMap (store.repeated branch name) =
      (store.manifestOf branch).flatMap fun file => (store.refsTo name file).map (refHit file) := by
    apply List.flatMap_congr
    intro file hfile
    by_cases hrefs : store.refsTo name file = []
    · rw [repeated, hrefs]
      rfl
    · apply repeated_of_length_eq_one (h file hfile hrefs).1
  rw [referenceRows_eq, hrepeated, mentions, ← flatMap_filter_ne_nil,
    ← flatMap_filter_ne_nil (store.manifestOf branch).dedup]
  apply List.Perm.flatMap_right
  have hne : ∀ file, ((store.refsTo name file).map (refHit file) ≠ []) ↔
      store.refsTo name file ≠ [] := by
    intro file
    rw [Ne, List.map_eq_nil_iff]
  simp only [hne]
  rw [List.perm_ext_iff_of_nodup]
  · intro file
    rw [mem_referring, mem_referring, List.mem_dedup]
  · rw [List.nodup_iff_count_eq_one]
    intro file hmem
    obtain ⟨hfile, hrefs⟩ := mem_referring.mp hmem
    rw [List.count_filter (by simpa using hrefs)]
    apply (h file hfile hrefs).2
  · apply (List.nodup_dedup _).filter

/-- The references of a name are listed once exactly when it has one definition and no file with a
reference to it is listed twice, unless there is no reference. -/
theorem references_perm_iff (hdefined : store.sites branch name ≠ []) :
  (∀ answer ∈ store.references branch name, answer.Perm (store.mentions branch name)) ↔
    ∀ file ∈ store.manifestOf branch, store.refsTo name file ≠ [] →
      (store.sites branch name).length = 1 ∧ (store.manifestOf branch).count file = 1
  := by
  constructor
  · intro h file hfile hrefs
    obtain ⟨answer, hanswer⟩ := CodeIndex.exists_answer RefHit.key (store.referenceRows branch name)
    apply once_of_perm hdefined _ hfile hrefs
    apply hanswer.1.symm.trans (h answer hanswer)
  · intro h answer hanswer
    apply hanswer.1.trans (perm_of_once h)

end Mentions

/-- A file with a function, and another one that defines and calls it. -/
def sampleStore (defs : List SymbolDef) : CodeIndexStore :=
  (((empty.insertBlob "a" "ts" ⟨[⟨"f", .function, 1⟩], []⟩).insertBlob "b" "ts"
    ⟨defs, [⟨CodeIndex.MODULE, "f", .call, 2, .name⟩]⟩).replaceManifest "main" "."
      [⟨"a.ts", "a"⟩, ⟨"b.ts", "b"⟩])

theorem references_perm_iff_once :
  (sampleStore []).sites "main" "f" ≠ [] ∧
    ((∀ answer ∈ (sampleStore []).references "main" "f",
        answer.Perm ((sampleStore []).mentions "main" "f")) ↔
      ∀ file ∈ (sampleStore []).manifestOf "main", (sampleStore []).refsTo "f" file ≠ [] →
        ((sampleStore []).sites "main" "f").length = 1 ∧
          ((sampleStore []).manifestOf "main").count file = 1)
  := by
  have hdefined : (sampleStore []).sites "main" "f" ≠ [] := by decide +kernel
  exact ⟨hdefined, references_perm_iff hdefined⟩

/-- The call of a function that two files define is listed twice. -/
theorem listed_twice :
  (sampleStore [⟨"f", .function, 1⟩]).sites "main" "f" ≠ [] ∧
    ¬ ∀ answer ∈ (sampleStore [⟨"f", .function, 1⟩]).references "main" "f",
      answer.Perm ((sampleStore [⟨"f", .function, 1⟩]).mentions "main" "f")
  := by
  constructor
  · decide +kernel
  · intro h
    obtain ⟨answer, hanswer⟩ := CodeIndex.exists_answer RefHit.key
      ((sampleStore [⟨"f", .function, 1⟩]).referenceRows "main" "f")
    have hlength := (hanswer.1.symm.trans (h answer hanswer)).length_eq
    revert hlength
    decide +kernel

end CodeIndexStore
