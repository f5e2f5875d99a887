import OpencodeToolbelt.Data.JsMap
import OpencodeToolbelt.Async.EventSystem

/-!
# The group registry of the extension

The registry maps the names of groups to their tabs. An operation on a group holds what it has
read while it awaits the browser, and then writes a whole record.
-/

namespace Extension

structure GroupRecord where
  name : String
  tabIds : List ℕ
  activeTabId : Option ℕ
  tabGroupId : Option ℕ
  createdAt : ℕ

/-- What an operation on the registry awaits, with what it goes on with. -/
inductive RegistryAwait where
  /-- `open` awaits the new tab. -/
  | creating (name : String)
  /-- `groupTab` awaits the tab group. -/
  | grouping (name : String) (tabId : ℕ) (existing : Option GroupRecord)
  /-- `open` awaits the loading of its tab. -/
  | loading (name : String) (tabId : ℕ) (tabGroupId : Option ℕ)
  /-- A navigation awaits the order it has given to the tab. -/
  | directing (name : String) (target : ℕ)
  /-- A navigation awaits the loading of the tab. -/
  | completing (name : String) (target : ℕ)
  /-- `activate` awaits the order it has given to the tab. -/
  | selecting (name : String) (target : ℕ)
  /-- `activate` awaits what the tab is. -/
  | inspecting (name : String) (target : ℕ)
  /-- `activate` awaits the window of the tab. -/
  | focusing (name : String) (target : ℕ)
  /-- `close` awaits the executor's release of a tab, with the tabs after it. -/
  | releasing (group : GroupRecord) (toClose rest : List ℕ)
  /-- `close` awaits the removal of a tab, with the tabs after it. -/
  | removing (group : GroupRecord) (toClose rest : List ℕ)
  /-- `forget` awaits the executor's release of the tab. -/
  | forgetting (group : GroupRecord) (tabId : ℕ)
  /-- The record has been written, and its copy in the database is awaited. -/
  | mirroring

/-- What a call to group a tab comes to. -/
inductive GroupedTab where
  /-- The browser has no tab groups. -/
  | unsupported
  | grouped (groupId : ℕ)
  | failed

/-- What the promise that an operation awaits settles with. -/
inductive RegistryReply where
  | rejected
  | resolved
  | created (tabId : Option ℕ)
  | grouped (result : GroupedTab)
  /-- The tab has been looked at: `waitForComplete` is done with it or looks again later. -/
  | polled (done : Bool) (now : ℕ)
  /-- The tab is known, and whether it has a window. -/
  | inspected (window : Bool)

/-- The registry with the operations in progress, the tabs that it has been asked to create, and
what has become of them. -/
structure GroupRegistry where
  groups : JsMap String GroupRecord
  operations : JsMap ℕ RegistryAwait
  operationSeq : ℕ
  /-- The tabs the browser has created. -/
  created : List ℕ
  /-- The tabs opened so far, each with its group. -/
  opened : List (String × ℕ)
  /-- The tabs that have been closed or forgotten. -/
  gone : List ℕ

inductive RegistryEvent where
  | open (name : String)
  | navigate (name : String) (tabId : Option ℕ)
  | back (name : String) (tabId : Option ℕ)
  | forward (name : String) (tabId : Option ℕ)
  | reload (name : String) (tabId : Option ℕ)
  | activate (name : String) (tabId : Option ℕ)
  | close (name : String) (tabId : Option ℕ)
  | forget (tabId : ℕ)
  /-- What an operation awaits settles. -/
  | settle (i : ℕ) (reply : RegistryReply)

namespace GroupRegistry

def initial : GroupRegistry where
  groups := .empty
  operations := .empty
  operationSeq := 0
  created := []
  opened := []
  gone := []

variable (s : GroupRegistry)

/-- The tabs of a group. -/
def tabsOf (name : String) : List ℕ := (s.groups.get name).elim [] GroupRecord.tabIds

/-- An operation awaits something. -/
def awaits (i : ℕ) (await : RegistryAwait) : GroupRegistry :=
  { s with operations := s.operations.set i await }

/-- An operation is over. -/
def returns (i : ℕ) : GroupRegistry := { s with operations := s.operations.delete i }

/-- An operation begins and awaits something. -/
def begins (await : RegistryAwait) : GroupRegistry :=
  { s.awaits s.operationSeq await with operationSeq := s.operationSeq + 1 }

def persist (i : ℕ) (record : GroupRecord) : GroupRegistry :=
  { s with groups := s.groups.set record.name record }.awaits i .mirroring

/-- `resolveTab`, with `none` for an error. -/
def resolveTab (name : String) (tabId : Option ℕ) : Option ℕ :=
  let group := s.groups.get name
  match tabId with
  | some tabId => if (group.any fun group => tabId ∈ group.tabIds) then some tabId else none
  | none => (group.bind GroupRecord.activeTabId).or (group.bind fun group => group.tabIds.head?)

/-- What is left of `open` once the tab has been loaded. -/
def opens (i : ℕ) (name : String) (tabId : ℕ) (tabGroupId : Option ℕ) (now : ℕ) :
    GroupRegistry :=
  let existing := s.groups.get name
  { s with opened := (name, tabId) :: s.opened }.persist i
    { name
      tabIds := existing.elim [tabId] fun existing => (existing.tabIds ++ [tabId]).eraseDups
      activeTabId := some tabId
      tabGroupId
      createdAt := existing.elim now GroupRecord.createdAt }

/-- What a navigation or an activation ends with. -/
def setActive (i : ℕ) (name : String) (target : ℕ) : GroupRegistry :=
  (s.groups.get name).elim (s.returns i) fun group =>
    s.persist i { group with activeTabId := some target }

/-- What `close` and `forget` end with. -/
def leave (i : ℕ) (group : GroupRecord) (remaining : List ℕ) (activeTabId : Option ℕ) :
    GroupRegistry :=
  if remaining.length = 0 then
    { s with groups := s.groups.delete group.name }.awaits i .mirroring
  else s.persist i { group with tabIds := remaining, activeTabId }

/-- `close`, from a tab on. -/
def closes (i : ℕ) (group : GroupRecord) (toClose : List ℕ) : List ℕ → GroupRegistry
  | [] =>
      let remaining := group.tabIds.filter (· ∉ toClose)
      s.leave i group remaining
        (if group.activeTabId.any (· ∈ remaining) then group.activeTabId else remaining.head?)
  | _ :: rest => s.awaits i (.releasing group toClose rest)

/-- What is left of `forget` once the executor has released the tab. -/
def forgets (i : ℕ) (group : GroupRecord) (tabId : ℕ) : GroupRegistry :=
  let remaining := group.tabIds.filter (· ≠ tabId)
  s.leave i group remaining
    (if group.activeTabId = some tabId then remaining.head? else group.activeTabId)

def «open» (name : String) : GroupRegistry := s.begins (.creating name)

/-- A navigation, up to its first wait. -/
def direct (name : String) (tabId : Option ℕ) : GroupRegistry :=
  (s.resolveTab name tabId).elim s fun target => s.begins (.directing name target)

def navigate (name : String) (tabId : Option ℕ) : GroupRegistry := s.direct name tabId

def back (name : String) (tabId : Option ℕ) : GroupRegistry := s.direct name tabId

def forward (name : String) (tabId : Option ℕ) : GroupRegistry := s.direct name tabId

def reload (name : String) (tabId : Option ℕ) : GroupRegistry := s.direct name tabId

def activate (name : String) (tabId : Option ℕ) : GroupRegistry :=
  (s.resolveTab name tabId).elim s fun target => s.begins (.selecting name target)

def close (name : String) (tabId : Option ℕ) : GroupRegistry :=
  (s.groups.get name).elim s fun group =>
    if tabId.all (· ∈ group.tabIds) then
      let toClose := tabId.elim group.tabIds fun tabId => [tabId]
      { s with gone := toClose ++ s.gone, operationSeq := s.operationSeq + 1 }.closes
        s.operationSeq group toClose toClose
    else s

def forget (tabId : ℕ) : GroupRegistry :=
  let s := { s with gone := tabId :: s.gone }
  (s.groups.values.find? fun group => tabId ∈ group.tabIds).elim s fun group =>
    s.begins (.forgetting group tabId)

/-- An operation goes on, from what it awaits and the reply to it. -/
def resume (i : ℕ) : RegistryAwait → RegistryReply → GroupRegistry
  | .creating name, .created (some tabId) =>
      { s with created := tabId :: s.created }.awaits i
        (.grouping name tabId (s.groups.get name))
  | .grouping name tabId _, .grouped .unsupported => s.awaits i (.loading name tabId none)
  | .grouping name tabId _, .grouped (.grouped groupId) =>
      s.awaits i (.loading name tabId (some groupId))
  | .grouping name tabId existing, .grouped .failed =>
      s.awaits i (.loading name tabId (existing.bind GroupRecord.tabGroupId))
  | .loading name tabId tabGroupId, .polled true now => s.opens i name tabId tabGroupId now
  | .loading _ _ _, .polled false _ => s
  | .directing name target, .resolved => s.awaits i (.completing name target)
  | .completing name target, .polled true _ => s.setActive i name target
  | .completing _ _, .polled false _ => s
  | .selecting name target, .resolved => s.awaits i (.inspecting name target)
  | .inspecting name target, .inspected true => s.awaits i (.focusing name target)
  | .inspecting name target, .inspected false => s.setActive i name target
  | .focusing name target, .resolved => s.setActive i name target
  | .releasing group toClose rest, .resolved => s.awaits i (.removing group toClose rest)
  | .removing group toClose rest, .resolved => s.closes i group toClose rest
  | .forgetting group tabId, .resolved => s.forgets i group tabId
  -- the tab has no id or the promise is rejected, or nothing is left to do
  | _, _ => s.returns i

/-- Which replies an operation may get. A tab that is created has an id of its own. -/
def accepts : RegistryAwait → RegistryReply → Bool
  | .creating _, .created tabId => tabId.all fun tabId => tabId ∉ s.created ∧ tabId ∉ s.gone
  | .creating _, .rejected => true
  | .grouping _ _ _, .grouped _ => true
  | .loading _ _ _, .polled _ _ | .completing _ _, .polled _ _ => true
  | .loading _ _ _, .rejected | .completing _ _, .rejected => true
  | .directing _ _, .resolved | .selecting _ _, .resolved | .focusing _ _, .resolved => true
  | .directing _ _, .rejected | .selecting _ _, .rejected => true
  | .inspecting _ _, .inspected _ | .inspecting _ _, .rejected => true
  | .releasing _ _ _, .resolved | .removing _ _ _, .resolved | .forgetting _ _, .resolved => true
  | .mirroring, .resolved => true
  | _, _ => false

def handle : RegistryEvent → GroupRegistry
  | .open name => s.open name
  | .navigate name tabId => s.navigate name tabId
  | .back name tabId => s.back name tabId
  | .forward name tabId => s.forward name tabId
  | .reload name tabId => s.reload name tabId
  | .activate name tabId => s.activate name tabId
  | .close name tabId => s.close name tabId
  | .forget tabId => s.forget tabId
  | .settle i reply => (s.operations.get i).elim s fun await => s.resume i await reply

/-- Which events may occur. -/
def enabled : RegistryEvent → Bool
  | .settle i reply => (s.operations.get i).any fun await => s.accepts await reply
  | _ => true

def system : EventSystem GroupRegistry RegistryEvent where
  enabled s e := s.enabled e = true
  next := handle

instance (s : GroupRegistry) (e : RegistryEvent) : Decidable (system.enabled s e) :=
  inferInstanceAs (Decidable (s.enabled e = true))

end GroupRegistry

end Extension
