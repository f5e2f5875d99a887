import OpencodeToolbelt.Data.JsString
import Mathlib.Data.Nat.Notation
import Mathlib.Algebra.Order.Ring.Unbundled.Rat

/-!
# The protocol of the browser bridge

The frames that agents, executors and the broker between them exchange, once they have been
decoded.
-/

namespace Browser

/-- What an agent can ask a browser to do. -/
inductive BrowserAction where
  | «open»
  | navigate
  | click
  | doubleClick
  | type
  | fill
  | select
  | scroll
  | pressKey
  | screenshot
  | snapshot
  | getText
  | wait
  | tabs
  | close
  | back
  | forward
  | reload
  | hover
  | activate
  | drag
  | upload
  | getHtml
  | getAttribute
  | query
  | eval
  | console
  | network
  | handleDialog
  | setViewport
  | cookies
  | targets
  | release
  | requestFeedback
  deriving DecidableEq, Repr

/-- The actions as they are spelled on the wire. -/
def BrowserAction.name : BrowserAction → String
  | .open => "open"
  | .navigate => "navigate"
  | .click => "click"
  | .doubleClick => "double_click"
  | .type => "type"
  | .fill => "fill"
  | .select => "select"
  | .scroll => "scroll"
  | .pressKey => "press_key"
  | .screenshot => "screenshot"
  | .snapshot => "snapshot"
  | .getText => "get_text"
  | .wait => "wait"
  | .tabs => "tabs"
  | .close => "close"
  | .back => "back"
  | .forward => "forward"
  | .reload => "reload"
  | .hover => "hover"
  | .activate => "activate"
  | .drag => "drag"
  | .upload => "upload"
  | .getHtml => "get_html"
  | .getAttribute => "get_attribute"
  | .query => "query"
  | .eval => "eval"
  | .console => "console"
  | .network => "network"
  | .handleDialog => "handle_dialog"
  | .setViewport => "set_viewport"
  | .cookies => "cookies"
  | .targets => "targets"
  | .release => "release"
  | .requestFeedback => "request_feedback"

/-- The actions that are not scoped to a group. -/
def GLOBAL_ACTIONS : List BrowserAction := [.cookies]

inductive ClientRole where
  | agent
  | extension
  deriving DecidableEq, Repr

/-- A command, without its id. The parameters are passed on as they are. -/
structure Command where
  action : BrowserAction
  group : String
  params : String
  target : Option String
  timeoutMs : Option ℚ
  deriving DecidableEq, Repr

/-- A group of tabs that an executor reports: its name, and whatever else is said of it. -/
structure TabGroup where
  name : Option String
  details : String
  deriving DecidableEq, Repr

/-- The data of a result: the groups it may list, and whatever else it holds. -/
structure ResultData where
  groups : Option (List TabGroup)
  details : String
  deriving DecidableEq, Repr

/-- What a failed command reports. -/
structure ResultError where
  message : String
  code : Option String
  deriving DecidableEq, Repr

inductive BrowserEventName where
  | tabClosed
  | navigated
  | groupRemoved
  | tabCreated
  deriving DecidableEq, Repr

structure EventFrame where
  name : BrowserEventName
  group : Option String
  data : Option String
  deriving DecidableEq, Repr

structure HelloFrame where
  token : String
  role : Option ClientRole
  id : Option String
  label : Option String
  browser : Option String
  deriving DecidableEq, Repr

/-- The frames a broker receives. -/
inductive ClientFrame where
  | hello (frame : HelloFrame)
  | command (id : String) (cmd : Command)
  | result (id : String) (ok : Bool) (data : Option ResultData) (error : Option ResultError)
  | event (frame : EventFrame)
  | ping
  /-- A frame that a broker has no use for. -/
  | ignored
  deriving DecidableEq, Repr

/-- What `targets` lists of an executor. -/
structure TargetInfo where
  id : String
  label : String
  browser : String
  groups : List String
  deriving DecidableEq, Repr

/-- The result of a command that went well. -/
inductive Reply where
  /-- The data of the executor's result. -/
  | data (data : Option ResultData)
  /-- `{ ok: true }` -/
  | released
  | targets (targets : List TargetInfo)
  /-- Groups of several executors, each with the id of its executor. -/
  | tabs (groups : List (TabGroup × String))
  deriving DecidableEq, Repr

inductive ExecutorPreference where
  | auto
  | cdp
  | content
  deriving DecidableEq, Repr

/-- The frames a broker sends. -/
inductive ServerFrame where
  | ready (role : ClientRole) (clientId : String) (executor : Option ExecutorPreference)
  | command (id : String) (action : BrowserAction) (group params : String)
  | result (id : String) (outcome : Except ResultError Reply)
  | event (frame : EventFrame)
  | release
  | cancel (id : String)
  | rejected (reason : String)
  | pong

/-! ### Correlation ids -/

/-- `Number.MAX_SAFE_INTEGER` -/
def MAX_SAFE_INTEGER : ℕ := 9007199254740991

/-- The counter of correlation ids after the next one has been taken. -/
def nextIdCounter (idCounter : ℕ) : ℕ := (idCounter + 1) % MAX_SAFE_INTEGER

/-- The id that belongs to a value of the counter. -/
def correlationId (idCounter : ℕ) : String := String.ofList ('c' :: base36 11 idCounter)

end Browser
