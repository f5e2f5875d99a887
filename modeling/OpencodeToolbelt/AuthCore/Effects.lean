import OpencodeToolbelt.Async.Program
import OpencodeToolbelt.AuthCore.Types

/-!
# The effects of the token runtimes

The operations at which the functions of the token runtimes touch something they share:
files, the network, the slots in which concurrent calls of a process join each other, and
the memory of the engines. The code between two of them runs without interruption.
-/

/-- A promise slot of an object: the `inFlight` of a token runtime, or the
`inFlightExchange` of a runtime that exchanges tokens. -/
inductive Slot where
  | refresh (runtime : ℕ)
  | exchange (runtime : ℕ)
  deriving DecidableEq, Repr

/-- What a call finds in a slot: a promise to join, or nothing, in which case the promise it
starts is put there. -/
inductive Claim where
  | join (flight : ℕ)
  | lead (flight : ℕ)
  deriving DecidableEq, Repr

inductive LockUnavailable where
  | unwritable
  | timeout
  deriving DecidableEq, Repr

/-- Why a lock file is removed. -/
inductive UnlinkReason where
  | stale
  | release
  deriving DecidableEq, Repr

/-- The outcome of an exclusive create. -/
inductive OpenResult where
  | created (inode : ℕ)
  | exists
  | failed
  deriving DecidableEq, Repr

/-- The outcome of reading a lock file: its content is the `acquiredAt` it parses to, if it
does. -/
inductive ReadResult where
  | missing
  | failed
  | content (acquiredAt : Option ℕ)
  deriving DecidableEq, Repr

inductive StatResult where
  | missing
  | failed
  | mtime (mtime : ℕ)
  deriving DecidableEq, Repr

inductive Op where
  /-- `Date.now()` -/
  | now
  /-- A timer that fires at a time. -/
  | sleepUntil (time : ℕ)
  /-- `FileCacheStore.load` -/
  | load (loc : Loc)
  /-- `FileCacheStore.save`, whose effect is the final rename. -/
  | save (loc : Loc) (entry : Entry)
  /-- `FileCacheStore.remove` -/
  | remove (loc : Loc)
  /-- `FileCacheStore.listKeys` -/
  | listKeys (dir pre : String)
  | mkdirLocks (path : Loc)
  | openLock (path : Loc)
  | writeLock (path : Loc) (inode acquiredAt : ℕ)
  | closeLock (inode : ℕ)
  | readLock (path : Loc)
  | statLock (path : Loc)
  | unlinkLock (path : Loc) (reason : UnlinkReason)
  /-- The refresh goes on without the lock: `token_lock_unavailable`. -/
  | proceedUnlocked (reason : LockUnavailable)
  /-- A request to the token endpoint, the discovery of the endpoint included. -/
  | postToken (server : AuthServerConfig) (request : TokenRequest)
  | resolveSubjectToken (source : SubjectTokenSource)
  /-- The browser is opened, or the device code shown. -/
  | promptLogin (server : AuthServerConfig)
  /-- The user completes the login, and its code is redeemed. -/
  | awaitLogin (server : AuthServerConfig)
  | fetchModels (serverId : String) (token : TokenSet)
  | claimFlight (slot : Slot)
  | joinFlight (flight : ℕ)
  | publishFlight (flight : ℕ) (result : Except AuthError TokenSet)
  | clearSlot (slot : Slot) (flight : ℕ)
  /-- The `runtime.state` of an engine, together with `Date.now()`. -/
  | peekState (engine : ℕ)
  /-- The comparison of `runtime.state` with a state read from disk, and its adoption. -/
  | adoptState (engine : ℕ) (persisted : Option CachedServerState)
  /-- An assignment to `runtime.state`. -/
  | assignState (engine : ℕ) (state : CachedServerState)
  /-- Whether the migration of a lightbridge runtime is still to be started, by this call. -/
  | claimMigration (runtime : ℕ)
  | awaitMigration (runtime : ℕ)
  | endMigration (runtime : ℕ)
  /-- A loop that runs longer than is considered. -/
  | spin

/-- The answers to an operation. A boolean answer tells whether the effect took place. -/
@[reducible]
def Ans : Op → Type
  | .now => ℕ
  | .sleepUntil _ => Unit
  | .load _ => Option Entry
  | .save _ _ => Bool
  | .remove _ => Bool
  | .listKeys _ _ => List String
  | .mkdirLocks _ => Bool
  | .openLock _ => OpenResult
  | .writeLock _ _ _ => Bool
  | .closeLock _ => Bool
  | .readLock _ => ReadResult
  | .statLock _ => StatResult
  | .unlinkLock _ _ => Bool
  | .proceedUnlocked _ => Unit
  | .postToken _ _ => TokenResponse
  | .resolveSubjectToken _ => Option String
  | .promptLogin _ => Unit
  | .awaitLogin _ => TokenResponse
  | .fetchModels _ _ => Option (List RawModel)
  | .claimFlight _ => Claim
  | .joinFlight _ => Except AuthError TokenSet
  | .publishFlight _ _ => Unit
  | .clearSlot _ _ => Unit
  | .peekState _ => CachedServerState × ℕ
  | .adoptState _ _ => Option TokenSet
  | .assignState _ _ => Unit
  | .claimMigration _ => Bool
  | .awaitMigration _ => Unit
  | .endMigration _ => Unit
  | .spin => Empty

/-- The asynchronous functions of the token runtimes. -/
abbrev Auth (α : Type) : Type := Program Op Ans AuthError α

namespace Auth

variable {α : Type}

/-- The program that performs one effect. -/
@[reducible]
def perform (o : Op) : Auth (Ans o) := Program.perform o

def now : Auth ℕ := perform .now

def sleep (ms : ℕ) : Auth Unit := do
  let start ← now
  perform (.sleepUntil (start + ms))

/-- `FileCacheStore.load`, which returns nothing for a file that is missing or unreadable. -/
def load (loc : Loc) : Auth (Option Entry) := perform (.load loc)

/-- `FileCacheStore.save` -/
def save (loc : Loc) (entry : Entry) : Auth Unit := do
  if ← perform (.save loc entry) then pure () else .fail .storage

/-- `FileCacheStore.remove`, which swallows errors. -/
def remove (loc : Loc) : Auth Unit := do
  let _ ← perform (.remove loc)
  pure ()

/-- `FileCacheStore.listKeys`, which returns no keys when the directory cannot be read. -/
def listKeys (dir pre : String) : Auth (List String) := perform (.listKeys dir pre)

def postToken (server : AuthServerConfig) (request : TokenRequest) : Auth TokenResponse :=
  perform (.postToken server request)

def claimFlight (slot : Slot) : Auth Claim := perform (.claimFlight slot)

/-- `await` of a promise that another call started. -/
def joinFlight (flight : ℕ) : Auth TokenSet := do
  let result ← perform (.joinFlight flight)
  .settle result

/-- The slot is emptied if it still holds the promise. -/
def clearSlot (slot : Slot) (flight : ℕ) : Auth Unit := perform (.clearSlot slot flight)

/-- The promise settles. -/
def publishFlight (flight : ℕ) (result : Except AuthError TokenSet) : Auth Unit :=
  perform (.publishFlight flight result)

/-- A loop that runs longer than is considered. -/
def spin : Auth α := .call .spin Empty.elim

end Auth
