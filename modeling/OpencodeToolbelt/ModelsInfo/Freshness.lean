import OpencodeToolbelt.ModelsInfo.Catalogs

/-!
# How old a catalog is

Whatever a provider is enriched with was served by its origin at a time that lies no further back
than the lifetime of the record it comes from, unless the request for a newer one has failed. This
holds for all processes that share the cache files, whatever they do at the same time.
-/

namespace ModelsInfo

section Discipline

variable {Key : Type}

/-- An origin has served a catalog at a time. -/
def HeldAt (w : CatalogWorld Key) (key : Key) (catalog : Catalog) (time : ℕ) : Prop :=
  ∃ later since earlier, w.published key = later ++ (since, catalog) :: earlier ∧ since ≤ time ∧
    ∀ newer ∈ later, time ≤ newer.1

/-- The models of a record were served at a time after the one it is stamped with, and its lifetime
is that of a call. -/
def Traced (calls : ℕ → CatalogCall Key) (w : CatalogWorld Key) (key : Key)
    (record : CachedModelsRecord) : Prop :=
  (∃ catalog time, HeldAt w key catalog time ∧ record.fetchedAt ≤ time ∧ time ≤ w.clock ∧
      normalizeResponse catalog.body = some record.models ∧ catalog.etag = record.etag) ∧
    ∃ i, (calls i).key = key ∧ (calls i).opts.modelsInfoTtlSeconds = record.ttlSeconds

structure Consistent (calls : ℕ → CatalogCall Key) (w : CatalogWorld Key) : Prop where
  files : ∀ key record, w.files key = some record → Traced calls w key record
  memory : ∀ p key record, w.memory p key = some record → Traced calls w key record
  since : ∀ key, ∀ served ∈ w.published key, served.1 ≤ w.clock
  validators : ∀ key, ∀ served ∈ w.published key, ∀ served' ∈ w.published key,
    served.2.etag.isSome → served.2.etag = served'.2.etag → served.2.body = served'.2.body

/-- Time passes, catalogs are published and requests are refused. -/
structure Grows (w w' : CatalogWorld Key) : Prop where
  clock : w.clock ≤ w'.clock
  published : ∀ key, ∃ later, w'.published key = later ++ w.published key ∧
    ∀ newer ∈ later, w.clock ≤ newer.1
  refused : w.refused ⊆ w'.refused

/-- Nothing is published. -/
theorem grows_of_eq {w w' : CatalogWorld Key} (hclock : w.clock ≤ w'.clock)
    (hpublished : w'.published = w.published) (hrefused : w.refused ⊆ w'.refused) :
  Grows w w'
  where
  clock := hclock
  published key := by
    use []
    constructor
    · rw [hpublished, List.nil_append]
    · intro newer hmem
      cases hmem
  refused := hrefused

theorem Grows.refl (w : CatalogWorld Key) :
  Grows w w
  := grows_of_eq le_rfl rfl (List.Subset.refl _)

theorem Grows.trans {w w' w'' : CatalogWorld Key} (h : Grows w w') (h' : Grows w' w'') :
  Grows w w''
  where
  clock := h.clock.trans h'.clock
  published key := by
    obtain ⟨later, heq, hlater⟩ := h.published key
    obtain ⟨later', heq', hlater'⟩ := h'.published key
    use later' ++ later
    constructor
    · rw [heq', heq, List.append_assoc]
    · intro newer hmem
      obtain hmem | hmem := List.mem_append.mp hmem
      · apply h.clock.trans (hlater' newer hmem)
      · apply hlater newer hmem
  refused := List.Subset.trans h.refused h'.refused

/-- All threads rely on the same. -/
def freshness (calls : ℕ → CatalogCall Key) : Discipline (CatalogWorld Key) where
  Inv := Consistent calls
  Rely _ := Grows
  refl _ := Grows.refl
  trans := Grows.trans

variable {calls : ℕ → CatalogCall Key} {w w' : CatalogWorld Key} {key : Key}

theorem HeldAt.mono (h : Grows w w') {catalog : Catalog} {time : ℕ} (hle : time ≤ w.clock)
    (hheld : HeldAt w key catalog time) :
  HeldAt w' key catalog time
  := by
  obtain ⟨later, since, earlier, heq, hsince, hlater⟩ := hheld
  obtain ⟨later', heq', hlater'⟩ := h.published key
  use later' ++ later, since, earlier
  refine ⟨by rw [heq', heq, List.append_assoc], hsince, ?_⟩
  intro newer hmem
  obtain hmem | hmem := List.mem_append.mp hmem
  · apply hle.trans (hlater' newer hmem)
  · apply hlater newer hmem

theorem Traced.mono (h : Grows w w') {record : CachedModelsRecord}
    (htraced : Traced calls w key record) :
  Traced calls w' key record
  := by
  obtain ⟨⟨catalog, time, hheld, hstamp, hclock, hmodels⟩, hcall⟩ := htraced
  exact ⟨⟨catalog, time, hheld.mono h hclock, hstamp, hclock.trans h.clock, hmodels⟩, hcall⟩

/-- What an origin serves now. -/
theorem heldAt_head (hw : Consistent calls w) {served : ℕ × Catalog}
    (h : served ∈ (w.published key).head?) :
  HeldAt w key served.2 w.clock
  := by
  obtain ⟨earlier, heq⟩ := List.head?_eq_some_iff.mp h
  use [], served.1, earlier
  refine ⟨heq, hw.since key served ?_, fun _ h => by cases h⟩
  rw [heq]
  apply List.mem_cons_self

/-- Nothing is cached or served yet. -/
def CatalogWorld.start : CatalogWorld Key := ⟨0, fun _ => none, fun _ _ => none, fun _ => [], []⟩

theorem consistent_start :
  Consistent calls .start
  where
  files _ _ h := by cases h
  memory _ _ _ h := by cases h
  since _ _ h := by cases h
  validators _ _ h := by cases h

/-- Nothing is published or cached. -/
theorem consistent_of_eq (hw : Consistent calls w) (hgrows : Grows w w')
    (hpublished : w'.published = w.published) (hfiles : w'.files = w.files)
    (hmemory : w'.memory = w.memory) :
  Consistent calls w'
  where
  files key record h := by
    rw [hfiles] at h
    apply (hw.files key record h).mono hgrows
  memory p key record h := by
    rw [hmemory] at h
    apply (hw.memory p key record h).mono hgrows
  since key served hmem := by
    rw [hpublished] at hmem
    apply (hw.since key served hmem).trans hgrows.clock
  validators := by
    rw [hpublished]
    apply hw.validators

variable {i : ℕ}

/-- A step that only reads. -/
theorem keeps_refl (hw : Consistent calls w) :
  (freshness calls).Keeps i w w
  := ⟨hw, fun _ _ => Grows.refl w⟩

theorem stable_of_mono {P : CatalogWorld Key → Prop} (h : ∀ w w', Grows w w' → P w → P w') :
  (freshness calls).Stable i P
  := fun w w' _ _ hgrows hP => h w w' hgrows hP

/-- A thread that has read the clock, and what it has found in the cache since. -/
def Found (calls : ℕ → CatalogCall Key) (key : Key) (now : ℕ)
    (cached : Option CachedModelsRecord) (w : CatalogWorld Key) : Prop :=
  now ≤ w.clock ∧ ∀ record ∈ cached, Traced calls w key record

theorem Found.mono (h : Grows w w') {now : ℕ} {cached : Option CachedModelsRecord}
    (hfound : Found calls key now cached w) :
  Found calls key now cached w'
  := ⟨hfound.1.trans h.clock, fun record hrecord => (hfound.2 record hrecord).mono h⟩

theorem stable_found (now : ℕ) (cached : Option CachedModelsRecord) :
  (freshness calls).Stable i (Found calls key now cached)
  := stable_of_mono fun _ _ h hfound => hfound.mono h

/-- What a request has brought to a thread. -/
def Fetched (calls : ℕ → CatalogCall Key) (i now : ℕ) (cached : Option CachedModelsRecord)
    (result : FetchModelsResult) (w : CatalogWorld Key) : Prop :=
  Found calls (calls i).key now cached w ∧
    match result with
    | .ok models etag =>
        Traced calls w (calls i).key ⟨now, (calls i).opts.modelsInfoTtlSeconds, etag, models⟩
    | .notModified =>
        ∃ record ∈ cached, Traced calls w (calls i).key
          ⟨now, (calls i).opts.modelsInfoTtlSeconds, record.etag, record.models⟩
    | .error => i ∈ w.refused

/-- What a thread has loaded. -/
def Loaded (calls : ℕ → CatalogCall Key) (i now : ℕ) (w : CatalogWorld Key) :
    Option CachedModelsRecord → Prop
  | none => i ∈ w.refused
  | some record =>
      Traced calls w (calls i).key record ∧
        (now ≤ record.fetchedAt + record.ttlSeconds * 1000 ∨ i ∈ w.refused)

theorem Loaded.mono (h : Grows w w') {now : ℕ} {record : Option CachedModelsRecord}
    (hloaded : Loaded calls i now w record) :
  Loaded calls i now w' record
  := by
  cases record with
  | none => apply h.refused hloaded
  | some record => exact ⟨hloaded.1.mono h, hloaded.2.imp_right fun hmem => h.refused hmem⟩

/-! ### Requests -/

/-- What a response comes to. -/
def resultOf : CatalogResponse → FetchModelsResult
  | .failed => .error
  | .status _ => .error
  | .notModified => .notModified
  | .ok body etag =>
      match normalizeResponse body with
      | none => .error
      | some models => .ok models etag

theorem resultOf_of_not_serves {response : CatalogResponse} (h : Serves response = false) :
  resultOf response = .error
  := by
  cases response with
  | failed => rfl
  | status status => rfl
  | notModified => cases h
  | ok body etag =>
      have hnone : normalizeResponse body = none := by simpa [Serves] using h
      rw [resultOf, hnone]

/-- A record with the validator of what its origin serves has the models of that. -/
theorem Traced.models_eq (hw : Consistent calls w) {record : CachedModelsRecord}
    (htraced : Traced calls w key record) {served : ℕ × Catalog}
    (hserved : served ∈ (w.published key).head?) (hsome : served.2.etag.isSome)
    (hetag : served.2.etag = record.etag) :
  normalizeResponse served.2.body = some record.models
  := by
  obtain ⟨⟨catalog, time, ⟨later, since, earlier, heq, -⟩, -, -, hmodels, hcatalog⟩, -⟩ := htraced
  have hmem : (since, catalog) ∈ w.published key := by simp [heq]
  have hbody := hw.validators key served (List.mem_of_head? hserved) _ hmem hsome
    (hetag.trans hcatalog.symm)
  rw [hbody, hmodels]

/-- What an origin serves now, in a record of a call that has begun before. -/
theorem traced_now (hw : Consistent calls w) {now : ℕ} (hnow : now ≤ w.clock)
    {served : ℕ × Catalog} (hserved : served ∈ (w.published (calls i).key).head?)
    {models : List OpenRouterModel} (hmodels : normalizeResponse served.2.body = some models) :
  Traced calls w (calls i).key
    ⟨now, (calls i).opts.modelsInfoTtlSeconds, served.2.etag, models⟩
  := ⟨⟨served.2, w.clock, heldAt_head hw hserved, hnow, le_rfl, hmodels, rfl⟩, i, rfl, rfl⟩

theorem fetched_of_responds (hw : Consistent calls w) {now : ℕ}
    {cached : Option CachedModelsRecord} (hfound : Found calls (calls i).key now cached w)
    {response : CatalogResponse}
    (hresponds : Responds w (calls i).key (nonEmpty (cached.bind CachedModelsRecord.etag)) response)
    (hserves : Serves response) :
  Fetched calls i now cached (resultOf response) w
  := by
  use hfound
  cases response with
  | failed => cases hserves
  | status status => cases hserves
  | notModified =>
      obtain ⟨served, hserved, hsome, hetag⟩ := hresponds
      obtain ⟨etag, hvalidator⟩ := Option.isSome_iff_exists.mp hsome
      have hcached : cached.bind CachedModelsRecord.etag = some etag := by
        rw [hetag, nonEmpty] at hvalidator
        apply (Option.filter_eq_some_iff.mp hvalidator).1
      obtain ⟨record, hrecord, hrecordEtag⟩ := Option.bind_eq_some_iff.mp hcached
      have heq : served.2.etag = record.etag := by rw [hvalidator, hrecordEtag]
      use record, hrecord
      rw [← heq]
      apply traced_now hw hfound.1 hserved
      apply (hfound.2 record hrecord).models_eq hw hserved hsome heq
  | ok body etag =>
      obtain ⟨served, hserved, hcatalog⟩ := hresponds
      obtain ⟨models, hmodels⟩ := Option.isSome_iff_exists.mp hserves
      have hbody : normalizeResponse served.2.body = some models := by rw [hcatalog, hmodels]
      have htraced := traced_now hw hfound.1 hserved hbody
      rw [hcatalog] at htraced
      simpa only [resultOf, hmodels] using htraced

/-- The thread is refused when the response brings no catalog. -/
theorem post_request (hw : Consistent calls w) {now : ℕ} {cached : Option CachedModelsRecord}
    (hfound : Found calls (calls i).key now cached w) {response : CatalogResponse}
    (hresponds :
      Responds w (calls i).key (nonEmpty (cached.bind CachedModelsRecord.etag)) response) :
  let w' := if Serves response then w else { w with refused := i :: w.refused }
  (freshness calls).Keeps i w w' ∧ Fetched calls i now cached (resultOf response) w'
  := by
  cases hserves : Serves response with
  | true => exact ⟨keeps_refl hw, fetched_of_responds hw hfound hresponds hserves⟩
  | false =>
      have hgrows : Grows w { w with refused := i :: w.refused } :=
        grows_of_eq le_rfl rfl (List.subset_cons_self i w.refused)
      refine ⟨⟨consistent_of_eq hw hgrows rfl rfl rfl, fun _ _ => hgrows⟩, ?_⟩
      rw [resultOf_of_not_serves hserves]
      exact ⟨hfound.mono hgrows, List.mem_cons_self⟩

/-! ### Steps -/

variable [DecidableEq Key]

theorem consistent_memory (hw : Consistent calls w) {record : CachedModelsRecord}
    (htraced : Traced calls w key record) (p : ℕ) :
  Consistent calls
    { w with
      memory := Function.update w.memory p (Function.update (w.memory p) key (some record)) }
  where
  files := hw.files
  memory p' key' record' h := by
    dsimp only at h
    by_cases hp : p' = p
    · subst hp
      rw [Function.update_self] at h
      by_cases hkey : key' = key
      · subst hkey
        rw [Function.update_self] at h
        rw [← Option.some.inj h]
        apply htraced
      · rw [Function.update_of_ne hkey] at h
        apply hw.memory p' key' record' h
    · rw [Function.update_of_ne hp] at h
      apply hw.memory p' key' record' h
  since := hw.since
  validators := hw.validators

theorem consistent_files (hw : Consistent calls w) {record : CachedModelsRecord}
    (htraced : Traced calls w key record) :
  Consistent calls { w with files := Function.update w.files key (some record) }
  where
  files key' record' h := by
    dsimp only at h
    by_cases hkey : key' = key
    · subst hkey
      rw [Function.update_self] at h
      rw [← Option.some.inj h]
      apply htraced
    · rw [Function.update_of_ne hkey] at h
      apply hw.files key' record' h
  memory := hw.memory
  since := hw.since
  validators := hw.validators

theorem published_publish (w : CatalogWorld Key) (key : Key) (catalog : Catalog) (key' : Key) :
  Function.update w.published key ((w.clock, catalog) :: w.published key) key' =
    (if key' = key then [(w.clock, catalog)] else []) ++ w.published key'
  := by
  by_cases hkey : key' = key
  · subst hkey
    simp
  · simp [hkey]

theorem mem_published_publish {catalog : Catalog} {key' : Key} {served : ℕ × Catalog}
    (h : served ∈ Function.update w.published key ((w.clock, catalog) :: w.published key) key') :
  key' = key ∧ served = (w.clock, catalog) ∨ served ∈ w.published key'
  := by
  rw [published_publish] at h
  split at h
  · next hkey =>
      obtain h | h := List.mem_cons.mp h
      · exact .inl ⟨hkey, h⟩
      · exact .inr h
  · exact .inr h

theorem grows_publish (w : CatalogWorld Key) (key : Key) (catalog : Catalog) :
  Grows w
    { w with
      published := Function.update w.published key ((w.clock, catalog) :: w.published key) }
  where
  clock := le_rfl
  published key' := by
    refine ⟨_, published_publish w key catalog key', ?_⟩
    intro newer hmem
    split at hmem
    · rw [List.mem_singleton.mp hmem]
    · cases hmem
  refused := List.Subset.refl _

/-- A catalog is published that has its validator for itself. -/
theorem consistent_publish (hw : Consistent calls w) {catalog : Catalog}
    (hcatalog : ∀ served ∈ w.published key, served.2.etag.isSome →
      served.2.etag = catalog.etag → served.2.body = catalog.body) :
  Consistent calls
    { w with
      published := Function.update w.published key ((w.clock, catalog) :: w.published key) }
  where
  files key' record h := (hw.files key' record h).mono (grows_publish w key catalog)
  memory p key' record h := (hw.memory p key' record h).mono (grows_publish w key catalog)
  since key' served hmem := by
    obtain ⟨-, rfl⟩ | hmem := mem_published_publish hmem
    · apply le_rfl
    · apply hw.since key' served hmem
  validators key' served hmem served' hmem' hsome hetag := by
    obtain ⟨rfl, rfl⟩ | hmem := mem_published_publish hmem <;>
      obtain ⟨hkey, rfl⟩ | hmem' := mem_published_publish hmem'
    · rfl
    · apply Eq.symm
      apply hcatalog served' hmem' (hetag ▸ hsome) hetag.symm
    · apply hcatalog served (hkey ▸ hmem) hsome hetag
    · apply hw.validators key' served hmem served' hmem' hsome hetag

/-- The environment keeps what the threads rely on. -/
theorem freshness_env {process : ℕ → ℕ} (hw : Consistent calls w) {e : CatalogEvent Key}
    (he : (catalogMachine Key process).envAllows w e) :
  Consistent calls ((catalogMachine Key process).envPost w e) ∧
    Grows w ((catalogMachine Key process).envPost w e)
  := by
  cases e with
  | tick =>
      have hgrows : Grows w { w with clock := w.clock + 1 } :=
        grows_of_eq (Nat.le_succ _) rfl (List.Subset.refl _)
      exact ⟨consistent_of_eq hw hgrows rfl rfl rfl, hgrows⟩
  | publish key catalog => exact ⟨consistent_publish hw he, grows_publish w key catalog⟩

variable {process : ℕ → ℕ}

/-- A record that has been traced is put into the map of a process. -/
theorem keeps_memory (hw : Consistent calls w) {record : CachedModelsRecord}
    (htraced : Traced calls w key record) (p : ℕ) :
  (freshness calls).Keeps i w
    { w with
      memory := Function.update w.memory p (Function.update (w.memory p) key (some record)) }
  := ⟨consistent_memory hw htraced p, fun _ _ => grows_of_eq le_rfl rfl (List.Subset.refl _)⟩

theorem keeps_files (hw : Consistent calls w) {record : CachedModelsRecord}
    (htraced : Traced calls w key record) :
  (freshness calls).Keeps i w { w with files := Function.update w.files key (some record) }
  := ⟨consistent_files hw htraced, fun _ _ => grows_of_eq le_rfl rfl (List.Subset.refl _)⟩

/-! ### Programs -/

theorem triple_perform {α : Type} {P : CatalogWorld Key → Prop} {o : CatalogOp Key}
    {k : CatalogAns o → CatalogProgram Key α} {R : CatalogAns o → CatalogWorld Key → Prop}
    {Q : Except Unit α → CatalogWorld Key → Prop} (hP : (freshness calls).Stable i P)
    (hstep : ∀ w a, Consistent calls w → P w → (catalogMachine Key process).allows i w o a →
      (freshness calls).Keeps i w ((catalogMachine Key process).post i w o a) ∧
        R a ((catalogMachine Key process).post i w o a))
    (hk : ∀ a, (freshness calls).Triple (catalogMachine Key process) i (R a) (k a) Q) :
  (freshness calls).Triple (catalogMachine Key process) i P ((CatalogProgram.perform o).bind k) Q
  := Discipline.Triple.perform_bind hP hstep hk

theorem triple_get (now : ℕ) :
  (freshness calls).Triple (catalogMachine Key process) i (Found calls key now none)
    (CatalogProgram.get key) fun r w => ∃ cached, r = .ok cached ∧ Found calls key now cached w
  := by
  simp only [CatalogProgram.get, Program.bind_eq, Program.pure_eq]
  apply triple_perform (o := .memoryGet key) (stable_found now none)
    (R := fun (memHit : Option CachedModelsRecord) => Found calls key now memHit)
  · rintro w record hw ⟨hnow, -⟩ rfl
    exact ⟨keeps_refl hw, hnow, hw.memory _ _⟩
  intro memHit
  cases memHit with
  | some memHit => apply Discipline.Triple.done fun _ _ h => ⟨_, rfl, h⟩
  | none =>
      apply triple_perform (o := .mkdir) (stable_found now none)
        (R := fun _ => Found calls key now none)
      · exact fun w _ hw h _ => ⟨keeps_refl hw, h⟩
      intro ready
      cases ready with
      | false => apply Discipline.Triple.done fun _ _ h => ⟨_, rfl, h⟩
      | true =>
          apply triple_perform (o := .readFile key) (stable_found now none)
            (R := fun (parsed : Option CachedModelsRecord) => Found calls key now parsed)
          · rintro w parsed hw ⟨hnow, -⟩ (rfl | rfl)
            · exact ⟨keeps_refl hw, hnow, fun _ h => by cases h⟩
            · exact ⟨keeps_refl hw, hnow, hw.files key⟩
          intro parsed
          cases parsed with
          | none => apply Discipline.Triple.done fun _ _ h => ⟨_, rfl, h⟩
          | some parsed =>
              apply triple_perform (o := .memorySet key parsed)
                (stable_found now _) (R := fun _ => Found calls key now (some parsed))
              · intro w _ hw h _
                exact ⟨keeps_memory hw (h.2 parsed rfl) _, h⟩
              · exact fun _ => Discipline.Triple.done fun _ _ h => ⟨_, rfl, h⟩

theorem triple_put (now : ℕ) (record : CachedModelsRecord) :
  (freshness calls).Triple (catalogMachine Key process) i (Found calls key now (some record))
    (CatalogProgram.put key record) fun _ => Found calls key now (some record)
  := by
  have hstable : (freshness calls).Stable i (Found calls key now (some record)) :=
    stable_found now (some record)
  simp only [CatalogProgram.put, Program.bind_eq, Program.pure_eq]
  apply triple_perform (o := .memorySet key record) hstable
    (R := fun _ => Found calls key now (some record))
  · intro w _ hw h _
    exact ⟨keeps_memory hw (h.2 record rfl) _, h⟩
  intro _
  apply triple_perform (o := .mkdir) hstable (R := fun _ => Found calls key now (some record))
  · exact fun w _ hw h _ => ⟨keeps_refl hw, h⟩
  intro ready
  cases ready with
  | false => exact Discipline.Triple.fail fun _ _ h => h
  | true =>
      apply triple_perform (o := .writeFile) hstable
        (R := fun _ => Found calls key now (some record))
      · exact fun w _ hw h _ => ⟨keeps_refl hw, h⟩
      intro written
      cases written with
      | false => exact Discipline.Triple.fail fun _ _ h => h
      | true =>
          apply triple_perform (o := .rename key record) hstable
            (R := fun _ => Found calls key now (some record))
          · intro w renamed hw h _
            cases renamed with
            | false => exact ⟨keeps_refl hw, h⟩
            | true => exact ⟨keeps_files hw (h.2 record rfl), h⟩
          · intro renamed
            cases renamed with
            | false => exact Discipline.Triple.fail fun _ _ h => h
            | true => exact Discipline.Triple.done fun _ _ h => h

theorem triple_safePut (now : ℕ) (record : CachedModelsRecord) :
  (freshness calls).Triple (catalogMachine Key process) i (Found calls key now (some record))
    (CatalogProgram.safePut key record)
    fun r w => r = .ok () ∧ Found calls key now (some record) w
  := by
  apply Discipline.Triple.tryCatch (triple_put now record)
  · exact fun _ _ _ h => ⟨rfl, h⟩
  · exact fun _ => Discipline.Triple.done fun _ _ h => ⟨rfl, h⟩

theorem triple_fetchOpenRouterModels (now : ℕ) (cached : Option CachedModelsRecord) :
  (freshness calls).Triple (catalogMachine Key process) i (Found calls (calls i).key now cached)
    (CatalogProgram.fetchOpenRouterModels (calls i).key (cached.bind CachedModelsRecord.etag))
    fun r w => ∃ result, r = .ok result ∧ Fetched calls i now cached result w
  := by
  simp only [CatalogProgram.fetchOpenRouterModels, Program.bind_eq, Program.pure_eq]
  apply triple_perform (o := .request (calls i).key _) (stable_found now cached)
    (R := fun (response : CatalogResponse) => Fetched calls i now cached (resultOf response))
  · intro w response hw hfound hresponds
    apply post_request hw hfound hresponds
  · intro response
    cases response with
    | failed => apply Discipline.Triple.done fun _ _ h => ⟨_, rfl, h⟩
    | status status => apply Discipline.Triple.done fun _ _ h => ⟨_, rfl, h⟩
    | notModified => apply Discipline.Triple.done fun _ _ h => ⟨_, rfl, h⟩
    | ok body etag =>
        simp only [resultOf]
        cases normalizeResponse body with
        | none => apply Discipline.Triple.done fun _ _ h => ⟨_, rfl, h⟩
        | some models => apply Discipline.Triple.done fun _ _ h => ⟨_, rfl, h⟩

/-- A record is stored and returned. -/
theorem triple_storing (now : ℕ) (record : CachedModelsRecord) (h : record.fetchedAt = now) :
  (freshness calls).Triple (catalogMachine Key process) i
    (Found calls (calls i).key now (some record))
    ((CatalogProgram.safePut (calls i).key record).bind fun _ => .done (some record))
    fun r w => ∃ record, r = .ok record ∧ Loaded calls i now w record
  := by
  apply Discipline.Triple.bind (triple_safePut now record)
  · intro _
    apply Discipline.Triple.done
    rintro w - ⟨-, hfound⟩
    refine ⟨_, rfl, hfound.2 record rfl, .inl ?_⟩
    rw [h]
    apply Nat.le_add_right
  · rintro e w - ⟨⟨⟩, -⟩

theorem triple_fetchAndCache (now : ℕ) (cached : Option CachedModelsRecord) :
  (freshness calls).Triple (catalogMachine Key process) i (Found calls (calls i).key now cached)
    (CatalogProgram.fetchAndCache (calls i).key (calls i).opts cached now)
    fun r w => ∃ record, r = .ok record ∧ Loaded calls i now w record
  := by
  simp only [CatalogProgram.fetchAndCache, Program.bind_eq, Program.pure_eq]
  apply Discipline.Triple.bind (triple_fetchOpenRouterModels now cached)
  · intro result
    apply Discipline.Triple.weaken (P := Fetched calls i now cached result)
    · cases result with
      | ok models etag =>
          apply (triple_storing now ⟨now, (calls i).opts.modelsInfoTtlSeconds, etag, models⟩
            rfl).weaken
          rintro w - ⟨hfound, htraced⟩
          exact ⟨hfound.1, by rintro record ⟨⟩; apply htraced⟩
      | notModified =>
          cases cached with
          | none =>
              apply Discipline.Triple.absurd
              rintro w - ⟨-, record, ⟨⟩, -⟩
          | some cached =>
              apply (triple_storing now ⟨now, (calls i).opts.modelsInfoTtlSeconds, cached.etag,
                cached.models⟩ rfl).weaken
              rintro w - ⟨hfound, record, ⟨⟩, htraced⟩
              exact ⟨hfound.1, by rintro record ⟨⟩; apply htraced⟩
      | error =>
          cases cached with
          | none => exact Discipline.Triple.done fun _ _ h => ⟨_, rfl, h.2⟩
          | some cached =>
              exact Discipline.Triple.done fun _ _ h => ⟨_, rfl, h.1.2 cached rfl, .inr h.2⟩
    · rintro w - ⟨_, ⟨⟩, h⟩
      apply h
  · rintro e w - ⟨_, ⟨⟩, -⟩

/-- The time is read, and then the cache. -/
theorem triple_begin
    {k : ℕ → Option CachedModelsRecord → CatalogProgram Key (ℕ × Option CachedModelsRecord)}
    {Q : Except Unit (ℕ × Option CachedModelsRecord) → CatalogWorld Key → Prop}
    (hk : ∀ now cached, (freshness calls).Triple (catalogMachine Key process) i
      (Found calls (calls i).key now cached) (k now cached) Q) :
  (freshness calls).Triple (catalogMachine Key process) i (fun _ => True)
    ((CatalogProgram.perform .now).bind fun now =>
      (CatalogProgram.get (calls i).key).bind fun cached => k now cached) Q
  := by
  apply triple_perform (o := .now) (Discipline.Stable.const True)
    (R := fun (now : ℕ) => Found calls (calls i).key now none)
  · rintro w now hw - rfl
    exact ⟨keeps_refl hw, le_rfl, fun _ h => by cases h⟩
  · intro now
    apply Discipline.Triple.bind (triple_get now)
    · intro cached
      apply (hk now cached).weaken
      rintro w - ⟨_, ⟨⟩, h⟩
      apply h
    · rintro e w - ⟨_, ⟨⟩, -⟩

/-- A catalog is requested, and returned with the time that was read. -/
theorem triple_requesting (now : ℕ) (cached : Option CachedModelsRecord) :
  (freshness calls).Triple (catalogMachine Key process) i (Found calls (calls i).key now cached)
    ((CatalogProgram.fetchAndCache (calls i).key (calls i).opts cached now).bind fun record =>
      .done (now, record))
    fun r w => ∃ now record, r = .ok (now, record) ∧ Loaded calls i now w record
  := by
  apply Discipline.Triple.bind (triple_fetchAndCache now cached)
  · intro record
    apply Discipline.Triple.done
    rintro w - ⟨_, ⟨⟩, h⟩
    exact ⟨now, record, rfl, h⟩
  · rintro e w - ⟨_, ⟨⟩, -⟩

/-- A record that has not expired is returned as it is. -/
theorem triple_loadRecord :
  (freshness calls).Triple (catalogMachine Key process) i (fun _ => True)
    (CatalogProgram.loadRecord (calls i).key (calls i).opts)
    fun r w => ∃ now record, r = .ok (now, record) ∧ Loaded calls i now w record
  := by
  simp only [CatalogProgram.loadRecord, Program.bind_eq, Program.pure_eq]
  apply triple_begin
  intro now cached
  cases hfresh : cached.filter fun cached => !isExpired cached now with
  | none => apply triple_requesting
  | some fresh =>
      obtain ⟨hcached, hexpired⟩ := Option.filter_eq_some_iff.mp hfresh
      apply Discipline.Triple.done
      rintro w - ⟨-, htraced⟩
      refine ⟨now, _, rfl, htraced fresh hcached, .inl ?_⟩
      simpa [isExpired] using hexpired

theorem triple_refreshProviderCache :
  (freshness calls).Triple (catalogMachine Key process) i (fun _ => True)
    (CatalogProgram.refreshProviderCache (calls i).key (calls i).opts)
    fun r w => ∃ now record, r = .ok (now, record) ∧ Loaded calls i now w record
  := by
  simp only [CatalogProgram.refreshProviderCache, Program.bind_eq, Program.pure_eq]
  apply triple_begin triple_requesting

theorem triple_program :
  (freshness calls).Triple (catalogMachine Key process) i (fun _ => True) (calls i).program
    fun r w => ∃ now record, r = .ok (now, record) ∧ Loaded calls i now w record
  := by
  rw [CatalogCall.program]
  split
  · apply triple_refreshProviderCache
  · apply triple_loadRecord

/-! ### Runs -/

/-- What a call returns is what its origin served at some time, and that is no further back than the
lifetime of the record unless its request has brought nothing. It returns nothing only then. -/
theorem loaded_of_run {c : Config _ _ Unit (ℕ × Option CachedModelsRecord) (CatalogWorld Key)}
    (hrun : (catalogMachine Key process).Run ⟨.start, fun i => (calls i).program⟩ c) (i : ℕ) :
  (∀ e, c.pool i ≠ .fail e) ∧ ∀ now record, c.pool i = .done (now, record) →
    match record with
    | none => i ∈ c.world.refused
    | some record =>
        ∃ catalog time, HeldAt c.world (calls i).key catalog time ∧ time ≤ c.world.clock ∧
          normalizeResponse catalog.body = some record.models ∧
          (now ≤ time + record.ttlSeconds * 1000 ∨ i ∈ c.world.refused) ∧
          ∃ j, (calls j).key = (calls i).key ∧
            (calls j).opts.modelsInfoTtlSeconds = record.ttlSeconds
  := by
  have hend := Discipline.settled_of_run (D := freshness calls) (P := fun _ _ => True)
    (c := ⟨.start, fun i => (calls i).program⟩)
    (Q := fun i r w => ∃ now record, r = .ok (now, record) ∧ Loaded calls i now w record)
    (fun _ => triple_program)
    (fun _ _ => stable_of_mono fun _ _ h ⟨now, record, heq, hloaded⟩ =>
      ⟨now, record, heq, hloaded.mono h⟩)
    (fun _ _ hw he => ⟨(freshness_env hw he).1, fun _ => (freshness_env hw he).2⟩)
    consistent_start (fun _ => trivial) hrun
  constructor
  · intro e hfail
    obtain ⟨_, _, ⟨⟩, -⟩ := hend.2 i (.error e) hfail
  · intro now record hdone
    obtain ⟨_, _, ⟨⟩, hloaded⟩ := hend.2 i (.ok (now, record)) hdone
    cases record with
    | none => apply hloaded
    | some record =>
        obtain ⟨⟨⟨catalog, time, hheld, hstamp, hclock, hmodels, -⟩, hcall⟩, hfresh⟩ := hloaded
        refine ⟨catalog, time, hheld, hclock, hmodels, hfresh.imp_left fun h => h.trans ?_, hcall⟩
        apply Nat.add_le_add_right hstamp

end Discipline

/-! ### A run -/

instance (w : CatalogWorld String) (key : String) (ifNoneMatch : Option String)
    (response : CatalogResponse) : Decidable (Responds w key ifNoneMatch response) :=
  match response with
  | .failed => inferInstanceAs (Decidable True)
  | .status _ => inferInstanceAs (Decidable True)
  | .notModified => inferInstanceAs (Decidable (∃ served ∈ (w.published key).head?,
      served.2.etag.isSome ∧ served.2.etag = ifNoneMatch))
  | .ok body etag =>
      inferInstanceAs (Decidable (∃ served ∈ (w.published key).head?, served.2 = ⟨body, etag⟩))

instance (process : ℕ → ℕ) (i : ℕ) (w : CatalogWorld String) (o : CatalogOp String)
    (a : CatalogAns o) : Decidable ((catalogMachine String process).allows i w o a) :=
  match o, a with
  | .now, now => inferInstanceAs (Decidable (now = w.clock))
  | .memoryGet key, record => inferInstanceAs (Decidable (record = w.memory (process i) key))
  | .memorySet _ _, _ => inferInstanceAs (Decidable True)
  | .mkdir, _ => inferInstanceAs (Decidable True)
  | .readFile key, record => inferInstanceAs (Decidable (record = none ∨ record = w.files key))
  | .writeFile, _ => inferInstanceAs (Decidable True)
  | .rename _ _, _ => inferInstanceAs (Decidable True)
  | .request key ifNoneMatch, response =>
      inferInstanceAs (Decidable (Responds w key ifNoneMatch response))

instance (process : ℕ → ℕ) (w : CatalogWorld String) (e : CatalogEvent String) :
    Decidable ((catalogMachine String process).envAllows w e) :=
  match e with
  | .tick => inferInstanceAs (Decidable True)
  | .publish key catalog => inferInstanceAs (Decidable (∀ served ∈ w.published key,
      served.2.etag.isSome → served.2.etag = catalog.etag → served.2.body = catalog.body))

/-- All effects take place, and the origins respond with what they serve. -/
def sampleAnswer (w : CatalogWorld String) : (o : CatalogOp String) → Option (CatalogAns o)
  | .now => some w.clock
  | .memoryGet key => some (w.memory 0 key)
  | .memorySet _ _ => some ()
  | .mkdir => some true
  | .readFile key => some (w.files key)
  | .writeFile => some true
  | .rename _ _ => some true
  | .request key _ =>
      (w.published key).head?.map fun served => CatalogResponse.ok served.2.body served.2.etag

def sampleEntry : OpenRouterModel := ⟨"m", none, some 8, none, none, none, none, none⟩

def sampleCatalog : Catalog := ⟨.data [some sampleEntry, none], some "v1"⟩

def sampleRecord : CachedModelsRecord := ⟨0, 1, some "v1", [sampleEntry]⟩

/-- All threads load the catalog of one source, and keep it for a second. -/
def sampleCalls (_ : ℕ) : CatalogCall String :=
  ⟨"k", ⟨"https://models.test", 1, DEFAULT_TIMEOUT_MS, none, none, false, false, false⟩, false⟩

/-- A thread requests the catalog, and another one finds it later. -/
def sampleLoading :
    List (Machine.Move (CatalogOp String) CatalogAns (CatalogWorld String) (CatalogEvent String)) :=
  .env (.publish "k" sampleCatalog) :: List.replicate 9 (.act 0 sampleAnswer) ++
    [.env .tick, .act 1 sampleAnswer, .act 1 sampleAnswer]

/-- Whether a thread has returned what was read of the catalog. -/
def loadedSample (c : Config (CatalogOp String) CatalogAns Unit (ℕ × Option CachedModelsRecord)
    (CatalogWorld String)) : Bool :=
  match c.pool 1 with
  | .done r => r = (1, some sampleRecord)
  | _ => false

theorem loaded_of_run_sample :
  ∃ c, (catalogMachine String fun _ => 0).Run ⟨.start, fun i => (sampleCalls i).program⟩ c ∧
    c.world.refused = [] ∧ ∃ record catalog time, c.pool 1 = .done (1, some record) ∧
      HeldAt c.world "k" catalog time ∧ normalizeResponse catalog.body = some record.models
  := by
  obtain ⟨c, hrun, hc⟩ := Machine.exists_run_of_play (catalogMachine String fun _ => 0)
    sampleLoading ⟨.start, fun i => (sampleCalls i).program⟩
    (fun c => loadedSample c && c.world.refused.isEmpty) (by decide +kernel)
  obtain ⟨hloaded, hrefused⟩ := (Bool.and_eq_true _ _).mp hc
  have hdone : c.pool 1 = .done (1, some sampleRecord) := by
    rw [loadedSample] at hloaded
    split at hloaded
    · next r hr => rw [hr, of_decide_eq_true hloaded]
    · cases hloaded
  obtain ⟨catalog, time, hheld, -, hmodels, -⟩ := (loaded_of_run hrun 1).2 1 _ hdone
  exact ⟨c, hrun, List.isEmpty_iff.mp hrefused, _, catalog, time, hdone, hheld, hmodels⟩

end ModelsInfo
