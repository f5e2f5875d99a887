import OpencodeToolbelt.AuthCore.Types

/-!
# The state of a server in memory and on disk

The part of `readCachedToken` that runs once the state file has been read: the decision
between the state in memory and the persisted one.
-/

namespace CachedServerState

/-- Whether the persisted state is adopted: it carries a token, and memory is not strictly
newer. -/
def adopts (memory : CachedServerState) : Option CachedServerState → Bool
  | none => false
  | some persisted => persisted.token.isSome && memory.updatedAt ≤ persisted.updatedAt

/-- The state kept in memory, after a persisted state has been read. -/
def adopt (memory : CachedServerState) (persisted : Option CachedServerState) :
    CachedServerState :=
  if memory.adopts persisted then persisted.getD memory else memory

end CachedServerState
