import OpencodeToolbelt.Async.Machine
import OpencodeToolbelt.AuthCore.Effects
import OpencodeToolbelt.Data.JsMap
import OpencodeToolbelt.ProviderSync.State

/-!
# The machine that runs the token runtimes

The processes share the files and the clock of one machine. Each operation takes effect at
once. Reads and writes of files may fail, and what the network and the user answer is
arbitrary: the theorems restrict it where they depend on it.
-/

/-- A lock file. Who created it, and when, is not part of its content. -/
structure LockFile where
  inode : ℕ
  creator : ℕ
  createdAt : ℕ
  /-- The `acquiredAt` of the payload, once it has been written. -/
  acquiredAt : Option ℕ
  mtime : ℕ
  deriving DecidableEq

structure World where
  now : ℕ
  entries : JsMap Loc Entry
  locks : Loc → Option LockFile
  nextInode : ℕ
  slots : Slot → Option ℕ
  /-- How a promise has settled. -/
  flights : ℕ → Option (Except AuthError TokenSet)
  nextFlight : ℕ
  engines : ℕ → CachedServerState
  /-- The migrations that have been started, and whether they have ended. -/
  migrations : ℕ → Option Bool

namespace World

/-- A machine without files, on which nothing has run. -/
def blank (now : ℕ) : World where
  now
  entries := .empty
  locks _ := none
  nextInode := 0
  slots _ := none
  flights _ := none
  nextFlight := 0
  engines _ := default
  migrations _ := none

/-- The keys of a directory that start with `pre`. A key with a `/` names a file of another
directory. -/
def keysWithPrefix (w : World) (dir pre : String) : List String :=
  (w.entries.keys.filter fun loc =>
    loc.dir = dir && '/' ∉ loc.key.toList && pre.toList.isPrefixOf loc.key.toList).map Loc.key

def setEntry (w : World) (loc : Loc) (entry : Entry) : World :=
  { w with entries := w.entries.set loc entry }

def deleteEntry (w : World) (loc : Loc) : World :=
  { w with entries := w.entries.delete loc }

def setLock (w : World) (path : Loc) (file : Option LockFile) : World :=
  { w with locks := Function.update w.locks path file }

@[simp]
theorem locks_setLock (w : World) (path : Loc) (file : Option LockFile) :
  (w.setLock path file).locks path = file
  := Function.update_self _ _ _

/-- The empty file that an exclusive create leaves. -/
def createdFile (w : World) (i inode : ℕ) : LockFile :=
  { inode
    creator := i
    createdAt := w.now
    acquiredAt := none
    mtime := w.now }

/-- An exclusive create by a thread. -/
def createLock (w : World) (i : ℕ) (path : Loc) (inode : ℕ) : World :=
  { w.setLock path (some (w.createdFile i inode)) with nextInode := w.nextInode + 1 }

@[simp]
theorem locks_createLock (w : World) (i : ℕ) (path : Loc) (inode : ℕ) :
  (w.createLock i path inode).locks path = some (w.createdFile i inode)
  := w.locks_setLock path _

/-- The payload is written through the handle of a file, which may have been unlinked. -/
def writeLock (w : World) (path : Loc) (inode acquiredAt : ℕ) : World :=
  match w.locks path with
  | none => w
  | some file =>
      if file.inode = inode then
        w.setLock path (some { file with acquiredAt := some acquiredAt, mtime := w.now })
      else w

def setEngine (w : World) (engine : ℕ) (state : CachedServerState) : World :=
  { w with engines := Function.update w.engines engine state }

end World

open World

/-- The answers an operation may get. -/
def hostAllows (w : World) : (o : Op) → Ans o → Prop
  | .now, t => t = w.now
  | .sleepUntil t, _ => t ≤ w.now
  | .load loc, entry => entry = w.entries.get loc ∨ entry = none
  | .save _ _, _ => True
  | .remove _, _ => True
  | .listKeys dir pre, keys => keys.Perm (w.keysWithPrefix dir pre) ∨ keys = []
  | .mkdirLocks _, _ => True
  | .openLock path, .created inode => w.locks path = none ∧ inode = w.nextInode
  | .openLock path, .exists => w.locks path ≠ none
  | .openLock _, .failed => True
  | .writeLock _ _ _, _ => True
  | .closeLock _, _ => True
  | .readLock path, .missing => w.locks path = none
  | .readLock _, .failed => True
  | .readLock path, .content c => (w.locks path).map LockFile.acquiredAt = some c
  | .statLock path, .missing => w.locks path = none
  | .statLock _, .failed => True
  | .statLock path, .mtime t => (w.locks path).map LockFile.mtime = some t
  | .unlinkLock path _, removed => removed = true → w.locks path ≠ none
  | .proceedUnlocked _, _ => True
  | .postToken _ _, _ => True
  | .resolveSubjectToken _, _ => True
  | .promptLogin _, _ => True
  | .awaitLogin _, _ => True
  | .fetchModels _ _, _ => True
  | .claimFlight slot, .join flight => w.slots slot = some flight
  | .claimFlight slot, .lead flight => w.slots slot = none ∧ flight = w.nextFlight
  | .joinFlight flight, result => w.flights flight = some result
  | .publishFlight _ _, _ => True
  | .clearSlot _ _, _ => True
  | .peekState engine, answer => answer = (w.engines engine, w.now)
  | .adoptState engine persisted, token =>
      token = ((w.engines engine).adopt persisted).token
  | .assignState _ _, _ => True
  | .claimMigration runtime, first => first = (w.migrations runtime).isNone
  | .awaitMigration runtime, _ => w.migrations runtime = some true
  | .endMigration _, _ => True

/-- The world after an operation. -/
def hostPost (i : ℕ) (w : World) : (o : Op) → Ans o → World
  | .save loc entry, true => w.setEntry loc entry
  | .remove loc, true => w.deleteEntry loc
  | .openLock path, .created inode => w.createLock i path inode
  | .writeLock path inode acquiredAt, true => w.writeLock path inode acquiredAt
  | .unlinkLock path _, true => w.setLock path none
  | .claimFlight slot, .lead flight =>
      { w with
        slots := Function.update w.slots slot (some flight)
        nextFlight := w.nextFlight + 1 }
  | .publishFlight flight result, _ =>
      { w with flights := Function.update w.flights flight (some result) }
  | .clearSlot slot flight, _ =>
      if w.slots slot = some flight then
        { w with slots := Function.update w.slots slot none }
      else w
  | .adoptState engine persisted, _ =>
      w.setEngine engine ((w.engines engine).adopt persisted)
  | .assignState engine state, _ => w.setEngine engine state
  | .claimMigration runtime, true =>
      { w with migrations := Function.update w.migrations runtime (some false) }
  | .endMigration runtime, _ =>
      { w with migrations := Function.update w.migrations runtime (some true) }
  | _, _ => w

/-- The machine: its events are the passing of a number of milliseconds. -/
def host : Machine Op Ans World ℕ where
  allows _ := hostAllows
  post := hostPost
  envAllows _ _ := True
  envPost w ms := { w with now := w.now + ms }

instance (w : World) (o : Op) (a : Ans o) : Decidable (hostAllows w o a) :=
  match o, a with
  | .now, t => inferInstanceAs (Decidable (t = w.now))
  | .sleepUntil t, _ => inferInstanceAs (Decidable (t ≤ w.now))
  | .load loc, entry => inferInstanceAs (Decidable (entry = w.entries.get loc ∨ entry = none))
  | .save _ _, _ => inferInstanceAs (Decidable True)
  | .remove _, _ => inferInstanceAs (Decidable True)
  | .listKeys dir pre, keys =>
      inferInstanceAs (Decidable (keys.Perm (w.keysWithPrefix dir pre) ∨ keys = []))
  | .mkdirLocks _, _ => inferInstanceAs (Decidable True)
  | .openLock path, .created inode =>
      inferInstanceAs (Decidable (w.locks path = none ∧ inode = w.nextInode))
  | .openLock path, .exists => inferInstanceAs (Decidable (w.locks path ≠ none))
  | .openLock _, .failed => inferInstanceAs (Decidable True)
  | .writeLock _ _ _, _ => inferInstanceAs (Decidable True)
  | .closeLock _, _ => inferInstanceAs (Decidable True)
  | .readLock path, .missing => inferInstanceAs (Decidable (w.locks path = none))
  | .readLock _, .failed => inferInstanceAs (Decidable True)
  | .readLock path, .content c =>
      inferInstanceAs (Decidable ((w.locks path).map LockFile.acquiredAt = some c))
  | .statLock path, .missing => inferInstanceAs (Decidable (w.locks path = none))
  | .statLock _, .failed => inferInstanceAs (Decidable True)
  | .statLock path, .mtime t =>
      inferInstanceAs (Decidable ((w.locks path).map LockFile.mtime = some t))
  | .unlinkLock path _, removed =>
      inferInstanceAs (Decidable (removed = true → w.locks path ≠ none))
  | .proceedUnlocked _, _ => inferInstanceAs (Decidable True)
  | .postToken _ _, _ => inferInstanceAs (Decidable True)
  | .resolveSubjectToken _, _ => inferInstanceAs (Decidable True)
  | .promptLogin _, _ => inferInstanceAs (Decidable True)
  | .awaitLogin _, _ => inferInstanceAs (Decidable True)
  | .fetchModels _ _, _ => inferInstanceAs (Decidable True)
  | .claimFlight slot, .join flight => inferInstanceAs (Decidable (w.slots slot = some flight))
  | .claimFlight slot, .lead flight =>
      inferInstanceAs (Decidable (w.slots slot = none ∧ flight = w.nextFlight))
  | .joinFlight flight, result => inferInstanceAs (Decidable (w.flights flight = some result))
  | .publishFlight _ _, _ => inferInstanceAs (Decidable True)
  | .clearSlot _ _, _ => inferInstanceAs (Decidable True)
  | .peekState engine, answer =>
      inferInstanceAs (Decidable (answer = (w.engines engine, w.now)))
  | .adoptState engine persisted, token =>
      inferInstanceAs (Decidable (token = ((w.engines engine).adopt persisted).token))
  | .assignState _ _, _ => inferInstanceAs (Decidable True)
  | .claimMigration runtime, first =>
      inferInstanceAs (Decidable (first = (w.migrations runtime).isNone))
  | .awaitMigration runtime, _ =>
      inferInstanceAs (Decidable (w.migrations runtime = some true))
  | .endMigration _, _ => inferInstanceAs (Decidable True)

instance (i : ℕ) (w : World) (o : Op) (a : Ans o) : Decidable (host.allows i w o a) :=
  inferInstanceAs (Decidable (hostAllows w o a))

instance (w : World) (ms : ℕ) : Decidable (host.envAllows w ms) :=
  inferInstanceAs (Decidable True)

/-! ### Schedules -/

/-- The answer of the host to an operation that does not depend on the network, when nothing
fails. -/
def hostAnswer (w : World) : (o : Op) → Option (Ans o)
  | .now => some w.now
  | .sleepUntil _ => some ()
  | .load loc => some (w.entries.get loc)
  | .save _ _ => some true
  | .remove _ => some true
  | .listKeys dir pre => some (w.keysWithPrefix dir pre)
  | .mkdirLocks _ => some true
  | .openLock path => some (if (w.locks path).isSome then .exists else .created w.nextInode)
  | .writeLock _ _ _ => some true
  | .closeLock _ => some true
  | .readLock path =>
      some
        (match w.locks path with
        | none => .missing
        | some file => .content file.acquiredAt)
  | .statLock path =>
      some
        (match w.locks path with
        | none => .missing
        | some file => .mtime file.mtime)
  | .unlinkLock path _ => some (w.locks path).isSome
  | .proceedUnlocked _ => some ()
  | .promptLogin _ => some ()
  | .claimFlight slot =>
      some
        (match w.slots slot with
        | none => .lead w.nextFlight
        | some flight => .join flight)
  | .joinFlight flight => w.flights flight
  | .publishFlight _ _ => some ()
  | .clearSlot _ _ => some ()
  | .peekState engine => some (w.engines engine, w.now)
  | .adoptState engine persisted => some ((w.engines engine).adopt persisted).token
  | .assignState _ _ => some ()
  | .claimMigration runtime => some (w.migrations runtime).isNone
  | .awaitMigration _ => some ()
  | .endMigration _ => some ()
  | .postToken _ _ => none
  | .resolveSubjectToken _ => none
  | .awaitLogin _ => none
  | .fetchModels _ _ => none
  | .spin => none

/-- The next operations of a thread, in which nothing fails. -/
def proceed {G : Type} (i count : ℕ) : List (Machine.Move Op Ans (World × G) ℕ) :=
  List.replicate count (.act i fun w o => hostAnswer w.1 o)

/-- The next operation of a thread, with an answer that the host leaves open. -/
def proceedWith {G : Type} (i : ℕ) (answer : (o : Op) → Option (Ans o)) :
    List (Machine.Move Op Ans (World × G) ℕ) :=
  [.act i fun _ o => answer o]

/-- Time passes. -/
def wait {G : Type} (ms : ℕ) : List (Machine.Move Op Ans (World × G) ℕ) := [.env ms]
