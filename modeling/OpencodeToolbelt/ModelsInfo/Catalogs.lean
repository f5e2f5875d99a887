import OpencodeToolbelt.Async.RelyGuarantee
import OpencodeToolbelt.ModelsInfo.Enriching

/-!
# Loading and caching catalogs

Where the catalogs come from that a configuration is enriched with: the memory of a process, the
cache files that all processes share, or a request that is conditional on what has been cached.
Providers are enriched at the same time, a scheduler revalidates the catalogs in the background, and
the catalogs change at their origins meanwhile. Sources with the same cache key are taken to be
answered alike.
-/

namespace ModelsInfo

deriving instance DecidableEq for OpenRouterPricing, OpenRouterArchitecture, OpenRouterTopProvider,
  OpenRouterModel

structure CachedModelsRecord where
  fetchedAt : ℕ
  ttlSeconds : ℕ
  etag : Option String
  models : List OpenRouterModel
deriving DecidableEq

/-- `now - record.fetchedAt > record.ttlSeconds * 1000` -/
def isExpired (record : CachedModelsRecord) (now : ℕ) : Bool :=
  record.fetchedAt + record.ttlSeconds * 1000 < now

/-- The body of a response, its entries with `none` for one that has no string as its id. -/
inductive CatalogBody where
  | array (input : List (Option OpenRouterModel))
  /-- An object whose `data` is an array. -/
  | data (input : List (Option OpenRouterModel))
  | other
deriving DecidableEq

def validateFiltered (input : List (Option OpenRouterModel)) : Option (List OpenRouterModel) :=
  let filtered := input.filterMap id
  if 0 < input.length ∧ filtered.length = 0 then none else some filtered

def normalizeResponse : CatalogBody → Option (List OpenRouterModel)
  | .array input => validateFiltered input
  | .data input => validateFiltered input
  | .other => none

inductive CatalogResponse where
  /-- No response, or one whose body cannot be read. -/
  | failed
  | status (status : ℕ)
  | notModified
  | ok (body : CatalogBody) (etag : Option String)

inductive FetchModelsResult where
  | ok (models : List OpenRouterModel) (etag : Option String)
  | notModified
  | error

/-! ### Programs -/

/-- What the loading of a catalog does. -/
inductive CatalogOp (Key : Type) where
  /-- `Date.now()` -/
  | now
  | memoryGet (key : Key)
  | memorySet (key : Key) (record : CachedModelsRecord)
  | mkdir
  /-- The file is read and parsed. -/
  | readFile (key : Key)
  /-- A file with a name of its own is written. -/
  | writeFile
  /-- That file is renamed. -/
  | rename (key : Key) (record : CachedModelsRecord)
  | request (key : Key) (ifNoneMatch : Option String)

/-- The answers. A boolean answer tells whether the effect took place, and what is read of a file is
`none` if it is not a record. -/
@[reducible]
def CatalogAns {Key : Type} : CatalogOp Key → Type
  | .now => ℕ
  | .memoryGet _ => Option CachedModelsRecord
  | .memorySet _ _ => Unit
  | .mkdir => Bool
  | .readFile _ => Option CachedModelsRecord
  | .writeFile => Bool
  | .rename _ _ => Bool
  | .request _ _ => CatalogResponse

abbrev CatalogProgram (Key : Type) := Program (CatalogOp Key) (@CatalogAns Key) Unit

namespace CatalogProgram

variable {Key : Type}

def perform (o : CatalogOp Key) : CatalogProgram Key (CatalogAns o) := Program.perform o

/-- `FileCacheStore.get` -/
def get (key : Key) : CatalogProgram Key (Option CachedModelsRecord) := do
  match ← perform (.memoryGet key) with
  | some memHit => pure (some memHit)
  | none =>
      if ← perform .mkdir then
        match ← perform (.readFile key) with
        | none => pure none
        | some parsed => do
            perform (.memorySet key parsed)
            pure (some parsed)
      else pure none

/-- `FileCacheStore.put` -/
def put (key : Key) (record : CachedModelsRecord) : CatalogProgram Key Unit := do
  perform (.memorySet key record)
  if ← perform .mkdir then
    if ← perform .writeFile then
      if ← perform (.rename key record) then pure () else .fail ()
    else .fail ()
  else .fail ()

def safePut (key : Key) (record : CachedModelsRecord) : CatalogProgram Key Unit :=
  (put key record).tryCatch fun _ => pure ()

def fetchOpenRouterModels (key : Key) (etag : Option String) :
    CatalogProgram Key FetchModelsResult := do
  match ← perform (.request key (nonEmpty etag)) with
  | .notModified => pure .notModified
  | .failed => pure .error
  | .status _ => pure .error
  | .ok body etag =>
      match normalizeResponse body with
      | none => pure .error
      | some models => pure (.ok models etag)

def fetchAndCache (key : Key) (opts : MetaProviderOptions) (cached : Option CachedModelsRecord)
    (now : ℕ) : CatalogProgram Key (Option CachedModelsRecord) := do
  match ← fetchOpenRouterModels key (cached.bind CachedModelsRecord.etag), cached with
  | .ok models etag, _ => do
      let next : CachedModelsRecord := ⟨now, opts.modelsInfoTtlSeconds, etag, models⟩
      safePut key next
      pure (some next)
  | .notModified, some cached => do
      let refreshed : CachedModelsRecord :=
        { cached with
          fetchedAt := now
          ttlSeconds := opts.modelsInfoTtlSeconds }
      safePut key refreshed
      pure (some refreshed)
  | _, cached => pure cached

def loadRecord (key : Key) (opts : MetaProviderOptions) :
    CatalogProgram Key (ℕ × Option CachedModelsRecord) := do
  let now ← perform .now
  let cached ← get key
  match cached.filter fun cached => !isExpired cached now with
  | some fresh => pure (now, some fresh)
  | none => do
      let record ← fetchAndCache key opts cached now
      pure (now, record)

def refreshProviderCache (key : Key) (opts : MetaProviderOptions) :
    CatalogProgram Key (ℕ × Option CachedModelsRecord) := do
  let now ← perform .now
  let cached ← get key
  let record ← fetchAndCache key opts cached now
  pure (now, record)

end CatalogProgram

/-- What a thread does for a provider: the configuration hook loads a catalog, and a scheduler
refreshes one. -/
structure CatalogCall (Key : Type) where
  key : Key
  opts : MetaProviderOptions
  scheduled : Bool

/-- The program of a call. It returns the time that it has read as well. -/
def CatalogCall.program {Key : Type} (call : CatalogCall Key) :
    CatalogProgram Key (ℕ × Option CachedModelsRecord) :=
  if call.scheduled then CatalogProgram.refreshProviderCache call.key call.opts
  else CatalogProgram.loadRecord call.key call.opts

/-! ### Origins, files and processes -/

/-- What an origin serves. -/
structure Catalog where
  body : CatalogBody
  etag : Option String
deriving DecidableEq

structure CatalogWorld (Key : Type) where
  clock : ℕ
  files : Key → Option CachedModelsRecord
  /-- The maps of the processes. -/
  memory : ℕ → Key → Option CachedModelsRecord
  /-- What the origins have served, and since when, the latest first. -/
  published : Key → List (ℕ × Catalog)
  /-- The threads that have got no catalog for a request. -/
  refused : List ℕ

inductive CatalogEvent (Key : Type) where
  | tick
  | publish (key : Key) (catalog : Catalog)

section Machine

variable {Key : Type} [DecidableEq Key]

/-- Whether an origin may respond so. It leaves the body out only for the validator of what it
serves. -/
def Responds (w : CatalogWorld Key) (key : Key) (ifNoneMatch : Option String) :
    CatalogResponse → Prop
  | .failed => True
  | .status _ => True
  | .notModified =>
      ∃ served ∈ (w.published key).head?, served.2.etag.isSome ∧ served.2.etag = ifNoneMatch
  | .ok body etag => ∃ served ∈ (w.published key).head?, served.2 = ⟨body, etag⟩

/-- Whether a response brings a catalog. -/
def Serves : CatalogResponse → Bool
  | .failed => false
  | .status _ => false
  | .notModified => true
  | .ok body _ => (normalizeResponse body).isSome

/-- Threads of processes that share the cache files, and their origins. An origin uses a validator
for one body only. -/
def catalogMachine (Key : Type) [DecidableEq Key] (process : ℕ → ℕ) :
    Machine (CatalogOp Key) CatalogAns (CatalogWorld Key) (CatalogEvent Key) where
  allows i w
    | .now, now => now = w.clock
    | .memoryGet key, record => record = w.memory (process i) key
    | .memorySet _ _, _ => True
    | .mkdir, _ => True
    | .readFile key, record => record = none ∨ record = w.files key
    | .writeFile, _ => True
    | .rename _ _, _ => True
    | .request key ifNoneMatch, response => Responds w key ifNoneMatch response
  post i w
    | .memorySet key record, _ =>
        { w with
          memory := Function.update w.memory (process i)
            (Function.update (w.memory (process i)) key (some record)) }
    | .rename key record, true => { w with files := Function.update w.files key (some record) }
    | .request _ _, response =>
        if Serves response then w else { w with refused := i :: w.refused }
    | _, _ => w
  envAllows w
    | .tick => True
    | .publish key catalog => ∀ served ∈ w.published key, served.2.etag.isSome →
        served.2.etag = catalog.etag → served.2.body = catalog.body
  envPost w
    | .tick => { w with clock := w.clock + 1 }
    | .publish key catalog =>
        { w with
          published :=
            Function.update w.published key ((w.clock, catalog) :: w.published key) }

end Machine

end ModelsInfo
