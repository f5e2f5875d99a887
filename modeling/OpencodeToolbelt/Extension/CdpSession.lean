import OpencodeToolbelt.Data.JsMap
import OpencodeToolbelt.Async.EventSystem

/-!
# Sessions of the debugger

The background attaches the debugger of the browser to tabs, and keeps a set of those it has
attached. A tab is in the set once the browser has answered, and out of it before the browser is
asked to detach it.
-/

namespace Extension

/-- The domains of the protocol that are enabled in a tab. -/
inductive CdpDomain where
  | page
  | dom
  | runtime
  | log
  | network
  deriving DecidableEq

/-- The domains after `Page`, in the order in which they are enabled. -/
def LATER_DOMAINS : List CdpDomain := [.dom, .runtime, .log, .network]

/-- A tab with a debugger: the call that has attached it, and the domains enabled since. -/
structure Debuggee where
  attachedBy : ℕ
  domains : List CdpDomain

/-- A call to `chrome.debugger` that is awaited. -/
inductive DebuggerCall where
  | attaching (tabId : ℕ)
  /-- `send` with the `enable` of a domain, and the domains after it. -/
  | enabling (tabId : ℕ) (domain : CdpDomain) (rest : List CdpDomain)
  | detaching (tabId : ℕ)
  deriving DecidableEq

def DebuggerCall.isAttaching : DebuggerCall → Bool
  | .attaching _ => true
  | _ => false

/-- The session with the calls that it awaits, and the tabs as they are in the browser. A call of
`attach` keeps its number from one of its calls to the browser to the next. The buffers of the
events that come from a tab are left out. -/
structure CdpSession where
  attached : JsMap ℕ Unit
  calls : JsMap ℕ DebuggerCall
  callSeq : ℕ
  browser : JsMap ℕ Debuggee

inductive CdpEvent where
  | attach (tabId : ℕ)
  | detach (tabId : ℕ)
  | detachAll
  /-- The user dismisses the banner, or the tab crashes: `onDetach`. -/
  | dismissed (tabId : ℕ)
  /-- The browser carries out an awaited call, or fails to. -/
  | settle (i : ℕ) (ok : Bool)

namespace CdpSession

def initial : CdpSession := ⟨.empty, .empty, 0, .empty⟩

/-- The browser is called. -/
def call (s : CdpSession) (c : DebuggerCall) : CdpSession :=
  { s with calls := s.calls.set s.callSeq c, callSeq := s.callSeq + 1 }

def attach (s : CdpSession) (tabId : ℕ) : CdpSession :=
  if s.attached.has tabId then s else s.call (.attaching tabId)

def detach (s : CdpSession) (tabId : ℕ) : CdpSession :=
  if s.attached.has tabId then
    { s with attached := s.attached.delete tabId }.call (.detaching tabId)
  else s

def detachAll (s : CdpSession) : CdpSession := s.attached.keys.foldl detach s

def onDetach (s : CdpSession) (tabId : ℕ) : CdpSession :=
  { s with attached := s.attached.delete tabId, browser := s.browser.delete tabId }

/-- A call of `attach` or `detach` is over. -/
def ended (s : CdpSession) (i : ℕ) : CdpSession := { s with calls := s.calls.delete i }

/-- A tab is attached, and its domains are enabled one after the other. -/
def added (s : CdpSession) (i tabId : ℕ) : CdpSession :=
  { s with
    attached := s.attached.set tabId ()
    calls := s.calls.set i (.enabling tabId .page LATER_DOMAINS)
    browser := s.browser.set tabId ⟨i, []⟩ }

/-- A domain of a tab is enabled. -/
def enabled (s : CdpSession) (i tabId : ℕ) (debuggee : Debuggee) (domain : CdpDomain)
    (rest : List CdpDomain) : CdpSession :=
  let s := { s with
    browser := s.browser.set tabId { debuggee with domains := domain :: debuggee.domains } }
  match rest with
  | [] => s.ended i
  | domain :: rest => { s with calls := s.calls.set i (.enabling tabId domain rest) }

/-- What goes on after an awaited call. The browser does not attach a tab that is attached, and
enables no domain of one that is not. -/
def settle (s : CdpSession) (i : ℕ) (ok : Bool) : CdpSession :=
  match s.calls.get i with
  | none => s
  | some (.attaching tabId) =>
      if ok = true ∧ s.browser.has tabId = false then s.added i tabId else s.ended i
  | some (.enabling tabId domain rest) =>
      match ok, s.browser.get tabId with
      | true, some debuggee => s.enabled i tabId debuggee domain rest
      | _, _ => s.ended i
  | some (.detaching tabId) =>
      if ok then { s.ended i with browser := s.browser.delete tabId } else s.ended i

def handle (s : CdpSession) : CdpEvent → CdpSession
  | .attach tabId => s.attach tabId
  | .detach tabId => s.detach tabId
  | .detachAll => s.detachAll
  | .dismissed tabId => s.onDetach tabId
  | .settle i ok => s.settle i ok

/-- A session with the browser. -/
def system : EventSystem CdpSession CdpEvent where
  enabled s
    | .dismissed tabId => s.browser.has tabId = true
    | .settle i _ => s.calls.has i = true
    | _ => True
  next := handle

instance (s : CdpSession) (e : CdpEvent) :
  Decidable (system.enabled s e)
  := by
  cases e with
  | dismissed tabId => exact inferInstanceAs (Decidable (s.browser.has tabId = true))
  | settle i ok => exact inferInstanceAs (Decidable (s.calls.has i = true))
  | _ => exact inferInstanceAs (Decidable True)

/-! ### What a run is expected to keep -/

abbrev History := List (CdpSession × CdpEvent)

/-- All calls have settled. -/
def AtRest (s : CdpSession) : Prop := ∀ i, s.calls.get i = none

/-- A call of `attach` for a tab is running. -/
def Attaches (s : CdpSession) (i tabId : ℕ) : Prop :=
  s.calls.get i = some (.attaching tabId) ∨
    ∃ domain rest, s.calls.get i = some (.enabling tabId domain rest)

/-- The browser refuses to attach a tab, as it is attached, after another call for it has been
running at the same time. -/
def Clashes (before : History) (s : CdpSession) (e : CdpEvent) : Prop :=
  ∃ i ok tabId, e = .settle i ok ∧ s.calls.get i = some (.attaching tabId) ∧
    s.browser.has tabId = true ∧
    ∃ step ∈ before ++ [(s, e)], step.1.Attaches i tabId ∧ ∃ j ≠ i, step.1.Attaches j tabId

/-- The set has the tabs of the browser, with all domains enabled, no call clashes with another,
and `detachAll` leaves no tab behind. -/
structure Agrees (before : History) (s : CdpSession) : Prop where
  set : s.AtRest → ∀ tabId, s.attached.has tabId = s.browser.has tabId
  domains : s.AtRest → ∀ tabId debuggee, s.attached.has tabId = true →
    s.browser.get tabId = some debuggee → ∀ domain, domain ∈ debuggee.domains
  clashes : ∀ earlier t e later, before = earlier ++ (t, e) :: later → ¬ Clashes earlier t e
  released : s.AtRest → ∀ earlier t later, before = earlier ++ (t, .detachAll) :: later →
    (∀ step ∈ later, ∀ tabId, step.2 ≠ .attach tabId) → ∀ tabId, s.browser.has tabId = false

end CdpSession

end Extension
