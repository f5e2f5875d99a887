import OpencodeToolbelt.Data.JsMap
import OpencodeToolbelt.Async.EventSystem

/-!
# Feedback requests

The background of the extension asks the user for feedback: in an overlay of the page or, where
that cannot be shown, in the side panel. The calls to the browser are not awaited by what settles
a request. `A` is the type of the annotations.
-/

namespace Extension

inductive FeedbackMode where
  | confirm
  | choose
  | point
  | element
  | region
  | comment
  deriving DecidableEq

structure FeedbackRequest where
  mode : FeedbackMode
  prompt : Option String
  options : Option (List String)
  timeoutMs : ℕ
  deriving DecidableEq

structure FeedbackResult (A : Type) where
  responded : Bool
  timedOut : Bool
  error : Option String
  annotations : List A

structure FeedbackSession where
  id : String
  mode : FeedbackMode
  prompt : Option String
  options : Option (List String)
  screenshot : String
  deriving DecidableEq

/-- The panels of a browser. -/
inductive PanelApi where
  | none
  /-- `chrome.sidePanel`, and whether it has `setPanelBehavior`. -/
  | sidePanel (setPanelBehavior : Bool)
  /-- `sidebarAction` -/
  | sidebar
  deriving DecidableEq

/-- A request that has been made, with its timer and its listener. -/
structure StartedFeedback where
  tabId : ℕ
  req : FeedbackRequest
  done : Bool
  timer : Bool
  listening : Bool

/-- A call to the browser, with what goes on after it. -/
inductive BrowserCall where
  /-- `showFeedbackOverlay` -/
  | showing (id : String)
  /-- The fallback, after the error of the overlay: `chrome.tabs.get` -/
  | locating (id : String) (reason : Option String)
  /-- `chrome.tabs.update` -/
  | activating (id : String) (reason : Option String)
  /-- `chrome.tabs.captureVisibleTab` -/
  | capturing (id : String) (reason : Option String)
  /-- `setOptions` with `enabled`, or `setPanel` -/
  | enabling (id : String) (reason : Option String)
  /-- `setPanelBehavior` with `openPanelOnActionClick` -/
  | routing (id : String) (reason : Option String)
  /-- `setBadgeBackgroundColor` -/
  | coloring (tabId : ℕ)
  /-- `setBadgeText` with a question mark -/
  | flagging (tabId : ℕ)
  | inspecting (tabId : ℕ)
  | selecting (tabId : ℕ) (window : Bool)
  | focusing
  /-- `hideFeedbackOverlay` -/
  | removing (id : String)
  /-- `setBadgeText` with no text -/
  | unflagging
  /-- `setPanelBehavior` without `openPanelOnActionClick` -/
  | restoring
  /-- `setOptions` without `enabled` -/
  | retiring (tabId : ℕ)
  deriving DecidableEq

/-- What a call to the browser comes to. -/
inductive BrowserReply where
  | resolved
  /-- The call fails, with the message of an `Error`. -/
  | rejected (reason : Option String)
  /-- A tab, and whether it has a window. -/
  | tab (window : Bool)
  | image (screenshot : String)

/-- The background with its requests, and what its calls have done to the browser. -/
structure Feedback (A : Type) where
  requests : JsMap String StartedFeedback
  attentionCount : ℕ
  activeSession : Option FeedbackSession
  activeTabId : Option ℕ
  calls : JsMap ℕ BrowserCall
  callSeq : ℕ
  /-- How often a result has settled, with what. -/
  results : List (String × FeedbackResult A)
  badge : String
  openPanelOnActionClick : Bool
  /-- The overlays in the pages. -/
  overlays : List String

inductive FeedbackEvent (A : Type) where
  | start (tabId : ℕ) (id : String) (req : FeedbackRequest)
  /-- A message with the answer to a request, of its overlay or of the side panel. -/
  | message (id : String) (responded : Bool) (annotations : Option (List A))
  | timeout (id : String)
  | cancel (id : String)
  /-- The page removes an overlay: the user has used it, or the page is left. -/
  | dismiss (id : String)
  /-- A call to the browser completes or fails. -/
  | settle (i : ℕ) (reply : BrowserReply)

namespace Feedback

variable {A : Type}

def initial : Feedback A where
  requests := .empty
  attentionCount := 0
  activeSession := none
  activeTabId := none
  calls := .empty
  callSeq := 0
  results := []
  badge := ""
  openPanelOnActionClick := false
  overlays := []

variable (api : PanelApi) (s : Feedback A)

/-- A call to the browser is made. -/
def call (c : BrowserCall) : Feedback A :=
  { s with calls := s.calls.set s.callSeq c, callSeq := s.callSeq + 1 }

/-- Whether a request is done. -/
def done (id : String) : Bool := (s.requests.get id).any StartedFeedback.done

/-- Raise the badge, up to the first call. -/
def flagAttention (tabId : ℕ) : Feedback A :=
  { s with attentionCount := s.attentionCount + 1 }.call (.coloring tabId)

def clearAttention : Feedback A :=
  let s := { s with attentionCount := s.attentionCount - 1 }
  if 0 < s.attentionCount then s else s.call .unflagging

def clearFeedbackSession (id : String) : Feedback A :=
  if s.activeSession.all fun session => session.id ≠ id then s
  else
    let cleared := { s with activeSession := none, activeTabId := none }
    match api with
    | .sidePanel setPanelBehavior =>
        let restored := if setPanelBehavior then cleared.call .restoring else cleared
        s.activeTabId.elim restored fun tabId => restored.call (.retiring tabId)
    | _ => cleared

/-- The timer and the listener of a request are removed, and its promise is resolved. -/
def settles (id : String) (p : StartedFeedback) (r : FeedbackResult A) : Feedback A :=
  { s with
    requests := s.requests.set id { p with done := true, timer := false, listening := false }
    results := s.results ++ [(id, r)] }

def finish (id : String) (r : FeedbackResult A) : Feedback A :=
  match s.requests.get id with
  | none => s
  | some p =>
      if p.done then s
      else
        (((s.settles id p r).call (.removing id)).clearFeedbackSession api id).clearAttention

def startFeedback (tabId : ℕ) (id : String) (req : FeedbackRequest) : Feedback A :=
  let started : StartedFeedback := ⟨tabId, req, false, true, true⟩
  ({ s with requests := s.requests.set id started }.flagAttention tabId).call (.showing id)

/-- The fallback could not be set up. -/
def unavailable (id : String) (reason : Option String) : Feedback A :=
  if s.done id then s
  else s.finish api id ⟨false, false, some (reason.getD "the overlay could not be shown"), []⟩

/-- `openSidePanelFallback`, up to its first call. -/
def openSidePanelFallback (id : String) (reason : Option String) : Feedback A :=
  if api = .none then s.unavailable api id reason else s.call (.locating id reason)

/-- The session of a request is the one that the side panel shows. -/
def stash (id : String) (screenshot : String) : Feedback A :=
  match s.requests.get id with
  | none => s
  | some p =>
      { s with
        activeSession := some ⟨id, p.req.mode, p.req.prompt, p.req.options, screenshot⟩
        activeTabId := some p.tabId }

/-- The set-up of the side panel fails. -/
def dropSession (id : String) (reason : Option String) : Feedback A :=
  { s with activeSession := none, activeTabId := none }.unavailable api id reason

/-- What happens once a call has completed or failed. -/
def resume : BrowserCall → BrowserReply → Feedback A
  | .showing id, .resolved => { s with overlays := id :: s.overlays }
  | .showing id, .rejected reason =>
      if s.done id then s else s.openSidePanelFallback api id reason
  | .locating id reason, .tab _ => s.call (.activating id reason)
  | .locating id reason, .rejected _ => s.unavailable api id reason
  | .activating id reason, .resolved => s.call (.capturing id reason)
  | .activating id reason, .rejected _ => s.unavailable api id reason
  | .capturing id reason, .image screenshot => (s.stash id screenshot).call (.enabling id reason)
  | .capturing id reason, .rejected _ => s.unavailable api id reason
  | .enabling id reason, .resolved =>
      if api = .sidePanel true then s.call (.routing id reason) else s
  | .enabling id reason, .rejected _ => s.dropSession api id reason
  | .routing _ _, .resolved => { s with openPanelOnActionClick := true }
  | .routing id reason, .rejected _ => s.dropSession api id reason
  | .coloring tabId, .resolved => s.call (.flagging tabId)
  | .coloring tabId, .rejected _ => s.call (.inspecting tabId)
  | .flagging tabId, .resolved => { s with badge := "?" }.call (.inspecting tabId)
  | .flagging tabId, .rejected _ => s.call (.inspecting tabId)
  | .inspecting tabId, .tab window => s.call (.selecting tabId window)
  | .selecting _ true, .resolved => s.call .focusing
  | .removing id, .resolved => { s with overlays := s.overlays.filter (· ≠ id) }
  | .unflagging, .resolved => { s with badge := "" }
  | .restoring, .resolved => { s with openPanelOnActionClick := false }
  -- the call has failed, or nothing is left to do
  | _, _ => s

/-- Which replies a call may get. -/
def accepts : BrowserCall → BrowserReply → Bool
  | _, .rejected _ => true
  | .locating _ _, .tab _ | .inspecting _, .tab _ => true
  | .capturing _ _, .image _ => true
  | .locating _ _, _ | .inspecting _, _ | .capturing _ _, _ => false
  | _, .resolved => true
  | _, _ => false

def handle : FeedbackEvent A → Feedback A
  | .start tabId id req => s.startFeedback tabId id req
  | .message id responded annotations =>
      if (s.requests.get id).any StartedFeedback.listening then
        s.finish api id ⟨responded, false, none, annotations.getD []⟩
      else s
  | .timeout id => s.finish api id ⟨false, true, none, []⟩
  | .cancel id => s.finish api id ⟨false, false, none, []⟩
  | .dismiss id => { s with overlays := s.overlays.filter (· ≠ id) }
  | .settle i reply =>
      (s.calls.get i).elim s fun c =>
        { s with calls := s.calls.delete i }.resume api c reply

/-- Which events may occur. The ids of requests are distinct. -/
def enabled : FeedbackEvent A → Bool
  | .start _ id _ => !s.requests.has id
  | .timeout id => (s.requests.get id).any StartedFeedback.timer
  | .cancel id => s.requests.has id
  | .settle i reply => (s.calls.get i).any fun c => accepts c reply
  | _ => true

def system : EventSystem (Feedback A) (FeedbackEvent A) where
  enabled s e := s.enabled e = true
  next := handle api

instance (s : Feedback A) (e : FeedbackEvent A) : Decidable ((system api).enabled s e) :=
  inferInstanceAs (Decidable (s.enabled e = true))

end Feedback

end Extension
