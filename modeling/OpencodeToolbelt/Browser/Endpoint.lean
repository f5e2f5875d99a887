import OpencodeToolbelt.Data.JsMap
import OpencodeToolbelt.Data.WebSocket
import OpencodeToolbelt.Async.EventSystem

/-!
# The endpoint of the bridge

An endpoint hosts the broker if it can bind the port, and joins the broker of another process
as a guest if it cannot. When it loses the host it elects again, until it is shut down. An
election is known by its number, and so are the transport and the client that it creates.
-/

namespace Browser

inductive EndpointMode where
  | host
  | guest
  | electing
  deriving DecidableEq

/-- The server of a transport. -/
inductive TransportState where
  | starting
  | listening
  | stopped
  deriving DecidableEq

/-- The connection of an `AgentClient`. -/
structure AgentConnection where
  socket : SocketState
  ready : Bool
  /-- Whether the promise of `connect` has settled. -/
  settled : Bool
  /-- `stop` has been called. -/
  closed : Bool

/-- Where a call of `elect` is. -/
inductive Election where
  /-- It awaits the start of its candidate. -/
  | binding
  | bindWon
  | bindLost
  /-- It awaits the connection of its client. -/
  | connecting
  | connected
  | connectFailed
  deriving DecidableEq

/-- Where commands are sent to. -/
inductive CurrentAgent where
  | local (broker : ℕ)
  | client (client : ℕ)
  deriving DecidableEq

/-- The state of an endpoint, with the servers and the sockets that it has created. -/
structure Endpoint where
  mode : EndpointMode
  broker : Option ℕ
  agentClient : Option ℕ
  current : Option CurrentAgent
  closed : Bool
  reelectTimer : Bool
  elections : JsMap ℕ Election
  electionSeq : ℕ
  transports : JsMap ℕ TransportState
  clients : JsMap ℕ AgentConnection

inductive EndpointEvent where
  /-- `createEndpoint` is called. The transport and the socket may throw when created. -/
  | create (transportThrows socketThrows : Bool)
  /-- The timer of a re-election fires. -/
  | timer (transportThrows socketThrows : Bool)
  /-- The server of a transport listens. -/
  | listening (x : ℕ)
  | bindFails (x : ℕ)
  /-- A call of `elect` goes on after its wait. -/
  | goOn (x : ℕ) (socketThrows : Bool)
  | socketOpen (x : ℕ)
  /-- The `ready` frame of the host arrives. -/
  | ready (x : ℕ)
  | socketClose (x : ℕ)
  | shutdown

namespace AgentConnection

/-- The connection after `stop`. -/
def stop (c : AgentConnection) : AgentConnection :=
  { c with
    closed := true
    socket := c.socket.close }

end AgentConnection

namespace Endpoint

def initial : Endpoint where
  mode := .electing
  broker := none
  agentClient := none
  current := none
  closed := false
  reelectTimer := false
  elections := .empty
  electionSeq := 0
  transports := .empty
  clients := .empty

variable (s : Endpoint)

def scheduleReelect : Endpoint :=
  { s with
    broker := none
    agentClient := none
    current := none
    mode := .electing
    reelectTimer := s.reelectTimer || !s.closed }

/-- The second part of an election: the endpoint joins as a guest. -/
def joinAsGuest (x : ℕ) (socketThrows : Bool) : Endpoint :=
  if socketThrows then { s with elections := s.elections.set x .connectFailed }
  else
    { s with
      clients := s.clients.set x
        { socket := .connecting, ready := false, settled := false, closed := false }
      elections := s.elections.set x .connecting }

/-- `elect`, up to its first wait. -/
def elect (transportThrows socketThrows : Bool) : Endpoint :=
  if s.closed then s
  else
    let x := s.electionSeq
    let s := { s with mode := .electing, electionSeq := s.electionSeq + 1 }
    if transportThrows then s.joinAsGuest x socketThrows
    else
      { s with
        transports := s.transports.set x .starting
        elections := s.elections.set x .binding }

/-- A call of `elect` goes on with what its wait has ended with. -/
def goOn (x : ℕ) (election : Election) (socketThrows : Bool) : Endpoint :=
  match election with
  | .bindWon =>
      { s with
        broker := some x
        current := some (.local x)
        mode := .host
        elections := s.elections.delete x }
  | .bindLost =>
      { s with transports := s.transports.set x .stopped }.joinAsGuest x socketThrows
  | .connected =>
      { s with
        agentClient := some x
        current := some (.client x)
        mode := .guest
        elections := s.elections.delete x }
  | .connectFailed => { s.scheduleReelect with elections := s.elections.delete x }
  | .binding | .connecting => s

/-- The handler of a `ready` frame. -/
def onReady (x : ℕ) (c : AgentConnection) : Endpoint :=
  { s with
    clients := s.clients.set x { c with ready := true, settled := true }
    elections := if c.settled then s.elections else s.elections.set x .connected }

/-- The `onClose` that the endpoint passes to its clients. -/
def onClose : Endpoint := if s.closed then s else s.scheduleReelect

/-- The handler of a closed socket. -/
def onSocketClose (x : ℕ) (c : AgentConnection) : Endpoint :=
  let s :=
    { s with
      clients := s.clients.set x { c with socket := .closed, ready := false, settled := true }
      elections := if c.settled then s.elections else s.elections.set x .connectFailed }
  if c.closed then s else s.onClose

def shutdown : Endpoint :=
  { s with
    closed := true
    reelectTimer := false
    transports := s.broker.elim s.transports fun b => s.transports.set b .stopped
    clients := s.agentClient.elim s.clients fun a =>
      (s.clients.get a).elim s.clients fun c => s.clients.set a c.stop }

def handle : EndpointEvent → Endpoint
  | .create transportThrows socketThrows => s.elect transportThrows socketThrows
  | .timer transportThrows socketThrows =>
      { s with reelectTimer := false }.elect transportThrows socketThrows
  | .listening x =>
      { s with
        transports := s.transports.set x .listening
        elections := s.elections.set x .bindWon }
  | .bindFails x => { s with elections := s.elections.set x .bindLost }
  | .goOn x socketThrows =>
      (s.elections.get x).elim s fun election => s.goOn x election socketThrows
  | .socketOpen x =>
      (s.clients.get x).elim s fun c =>
        { s with clients := s.clients.set x { c with socket := .open } }
  | .ready x => (s.clients.get x).elim s (s.onReady x)
  | .socketClose x => (s.clients.get x).elim s (s.onSocketClose x)
  | .shutdown => s.shutdown

/-- Whether an election waits for something outside of the process. -/
def Election.waits : Election → Bool
  | .binding | .connecting => true
  | _ => false

/-- Whether no election is about to go on: timers and sockets come after that. -/
def calm : Bool := s.elections.values.all Election.waits

/-- Which events may occur. The endpoint can be shut down when `createEndpoint` has returned
it. -/
def enabled : EndpointEvent → Bool
  | .create _ _ => s.electionSeq = 0
  | .timer _ _ => s.calm && s.reelectTimer
  | .listening x => s.calm && s.elections.get x = some .binding
  | .bindFails x => s.calm && s.elections.get x = some .binding
  | .goOn x _ => (s.elections.get x).any fun election => !Election.waits election
  | .socketOpen x => s.calm && (s.clients.get x).any fun c => c.socket = .connecting
  | .ready x => s.calm && (s.clients.get x).any fun c => c.socket = .open
  | .socketClose x => s.calm && (s.clients.get x).any fun c => !(c.socket = .closed)
  | .shutdown => decide (0 < s.electionSeq) && !s.elections.has 0

def system : EventSystem Endpoint EndpointEvent where
  enabled s e := s.enabled e = true
  next := handle

instance (s : Endpoint) (e : EndpointEvent) : Decidable (system.enabled s e) :=
  inferInstanceAs (Decidable (s.enabled e = true))

end Endpoint

end Browser
