import OpencodeToolbelt.Data.JsMap
import OpencodeToolbelt.Data.WebSocket
import OpencodeToolbelt.Async.EventSystem

/-!
# The bridge client of the extension

The client dials the bridge and dials again when the link is lost. An opening of a socket reads
the configuration and writes the status before it creates its socket.
-/

namespace Extension

def INITIAL_BACKOFF_MS : ℕ := 1000

def MAX_BACKOFF_MS : ℕ := 30000

def REJECTED_RETRY_MS : ℕ := 60000

/-- What a call of `openSocket` awaits. -/
inductive OpeningAwait where
  | getConfig
  /-- The status that tells of a missing token. -/
  | noToken
  /-- The status before the socket is created. -/
  | connecting
  /-- The status that `fail` writes. -/
  | fail
  deriving DecidableEq

/-- A call of `openSocket`. -/
structure Opening where
  await : OpeningAwait
  /-- Whether `connect`, `disconnect` or `reconnect` has been called since. -/
  overtaken : Bool

/-- What `getConfig` comes to. -/
inductive ConfigResult where
  | error
  | noToken
  | token
  deriving DecidableEq

inductive BridgeFrame where
  | ready
  | command (id : ℕ)
  | rejected
  /-- A frame that changes nothing here: `release`, `cancel` or `ping`. -/
  | other
  deriving DecidableEq

/-- The state of the client, with its sockets and timers and the commands it has executed. -/
structure BridgeClient where
  ws : Option ℕ
  backoff : ℕ
  reconnectTimer : Option ℕ
  heartbeatTimer : Bool
  stopped : Bool
  handshakeRejected : Bool
  /-- The timers that are armed, with their delays. -/
  timers : JsMap ℕ ℕ
  timerSeq : ℕ
  openings : JsMap ℕ Opening
  openingSeq : ℕ
  sockets : JsMap ℕ SocketState
  socketSeq : ℕ
  executed : List ℕ

inductive BridgeEvent where
  | connect
  | disconnect
  | reconnect
  /-- The configuration that an opening awaits arrives. -/
  | config (i : ℕ) (result : ConfigResult)
  /-- The status before the socket is written or not, and the URL is valid or not. -/
  | status (i : ℕ) (written urlValid : Bool)
  /-- The status of an opening without a socket is written or not. -/
  | settle (i : ℕ) (written : Bool)
  | timer (t : ℕ)
  | socketOpen (k : ℕ)
  | frame (k : ℕ) (frame : BridgeFrame)
  | socketClose (k : ℕ)
  deriving DecidableEq

namespace BridgeClient

def initial : BridgeClient where
  ws := none
  backoff := INITIAL_BACKOFF_MS
  reconnectTimer := none
  heartbeatTimer := false
  stopped := true
  handshakeRejected := false
  timers := .empty
  timerSeq := 0
  openings := .empty
  openingSeq := 0
  sockets := .empty
  socketSeq := 0
  executed := []

variable (s : BridgeClient)

def clearReconnect : BridgeClient :=
  { s with
    timers := s.reconnectTimer.elim s.timers s.timers.delete
    reconnectTimer := none }

/-- `setTimeout(() => void this.openSocket(), delay)` -/
def setReconnect (delay : ℕ) : BridgeClient :=
  { s with
    reconnectTimer := some s.timerSeq
    timers := s.timers.set s.timerSeq delay
    timerSeq := s.timerSeq + 1 }

def scheduleReconnect : BridgeClient :=
  let s := s.clearReconnect
  if s.handshakeRejected then s.setReconnect REJECTED_RETRY_MS
  else { s with backoff := min (s.backoff * 2) MAX_BACKOFF_MS }.setReconnect s.backoff

/-- `openSocket`, up to its first wait. -/
def openSocket : BridgeClient :=
  { s with
    openings := s.openings.set s.openingSeq { await := .getConfig, overtaken := false }
    openingSeq := s.openingSeq + 1 }

/-- The openings in progress are not the last word any more. -/
def overtake : BridgeClient :=
  { s with openings := s.openings.mapValues fun _ opening => { opening with overtaken := true } }

/-- `this.ws?.close(); this.ws = null` -/
def closeSocket : BridgeClient :=
  { s with
    ws := none
    sockets := s.sockets.mapValues fun k state => if s.ws = some k then state.close else state }

def connect : BridgeClient :=
  BridgeClient.openSocket
    (BridgeClient.clearReconnect
      { s.overtake with
        stopped := false
        handshakeRejected := false
        backoff := INITIAL_BACKOFF_MS })

def disconnect : BridgeClient :=
  { { s.overtake with stopped := true }.clearReconnect with heartbeatTimer := false }.closeSocket

def reconnect : BridgeClient := s.closeSocket.connect

/-- An opening awaits something else. -/
def awaits (i : ℕ) (opening : Opening) (await : OpeningAwait) : BridgeClient :=
  { s with openings := s.openings.set i { opening with await } }

/-- An opening is over. -/
def returns (i : ℕ) : BridgeClient := { s with openings := s.openings.delete i }

/-- An opening creates its socket. -/
def createSocket : BridgeClient :=
  { s with
    ws := some s.socketSeq
    sockets := s.sockets.set s.socketSeq .connecting
    socketSeq := s.socketSeq + 1 }

def onMessage (k : ℕ) (frame : BridgeFrame) : BridgeClient :=
  if s.ws = some k then
    match frame with
    | .ready =>
        { s with
          backoff := INITIAL_BACKOFF_MS
          handshakeRejected := false
          heartbeatTimer := true }
    | .command id => { s with executed := s.executed ++ [id] }
    | .rejected => { s with handshakeRejected := true, heartbeatTimer := false }
    | .other => s
  else s

def onClose (k : ℕ) : BridgeClient :=
  if s.ws = some k then
    let s := { s with heartbeatTimer := false }
    if s.stopped then s else s.scheduleReconnect
  else s

/-- The state with what an opening does, if there is such an opening. -/
def withOpening (i : ℕ) (f : Opening → BridgeClient) : BridgeClient := (s.openings.get i).elim s f

def handle : BridgeEvent → BridgeClient
  | .connect => s.connect
  | .disconnect => s.disconnect
  | .reconnect => s.reconnect
  | .config i result => s.withOpening i fun opening =>
      match result with
      | .error => s.awaits i opening .fail
      | .noToken => s.awaits i opening .noToken
      | .token => s.awaits i opening .connecting
  | .status i written urlValid => s.withOpening i fun opening =>
      if !written then s.returns i
      else if urlValid then (s.returns i).createSocket
      else s.awaits i opening .fail
  | .settle i written => s.withOpening i fun opening =>
      if opening.await = .fail ∧ written ∧ !s.stopped then (s.returns i).scheduleReconnect
      else s.returns i
  | .timer t => { s with timers := s.timers.delete t }.openSocket
  | .socketOpen k => { s with sockets := s.sockets.set k .open }
  | .frame k frame => s.onMessage k frame
  | .socketClose k => { s with sockets := s.sockets.set k .closed }.onClose k

/-- Whether an opening awaits one of some things. -/
def awaiting (i : ℕ) (p : OpeningAwait → Bool) : Bool :=
  (s.openings.get i).any fun opening => p opening.await

/-- Which events may occur. -/
def enabled : BridgeEvent → Bool
  | .connect | .disconnect | .reconnect => true
  | .config i _ => s.awaiting i (· = .getConfig)
  | .status i _ _ => s.awaiting i (· = .connecting)
  | .settle i _ => s.awaiting i fun await => await = .noToken || await = .fail
  | .timer t => s.timers.has t
  | .socketOpen k => s.sockets.get k = some .connecting
  | .frame k _ => s.sockets.get k = some .open || s.sockets.get k = some .closing
  | .socketClose k => (s.sockets.get k).any fun state => !(state = .closed)

def system : EventSystem BridgeClient BridgeEvent where
  enabled s e := s.enabled e = true
  next := handle

instance (s : BridgeClient) (e : BridgeEvent) : Decidable (system.enabled s e) :=
  inferInstanceAs (Decidable (s.enabled e = true))

end BridgeClient

end Extension
