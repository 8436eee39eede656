import JustProxy.Component.Client
import JustProxy.Component.Server
import JustProxy.Foundation.Transition
import JustProxy.Socks.Codec
import JustProxy.Socks.Session

/-! # The whole system

One client process, one server process and the tunnel between them, with any
number of SOCKS applications and targets. Every mailbox and both directions of
the tunnel are queues; which of them moves next is up to the sequence of events.
The server gives each tunnel an arbiter of its own: its process is that arbiter,
with the actor and the tasks that run in it.

Messages carry a tag that no handler sees: the session whose request has caused
them, and the target they were read from.
-/

namespace JustProxy

open StreamDecoder

/-! ## State -/

structure Tag where
  cause : Option Nat
  source : Option Nat
  deriving DecidableEq, Repr

/-- The tag of what no session has caused. -/
def Tag.none : Tag := ⟨Option.none, Option.none⟩

structure Tagged (Message : Type) where
  message : Message
  tag : Tag
  deriving DecidableEq

/-- The messages in the dispatcher's mailbox. -/
inductive ClientMail where
  | proxyRequest (request : ProxyRequest)
  | heartbeat
  deriving DecidableEq

/-- A SOCKS connection: its actor, its decoder with the unread bytes, what the
actor has to handle, and what the application has been answered. -/
structure Session where
  client : SocksClient
  codec : Socks5RequestCodecState
  buffer : List UInt8
  inbox : List ConnectorResponse
  written : List SocksResponse
  running : Bool
  deriving DecidableEq

def Session.new (port : UInt16) : Session where
  client := .new port
  codec := .negotiation
  buffer := []
  inbox := []
  written := []
  running := true

/-- A target connection, with the chunks its reader has read. -/
structure Target where
  uuid : UInt16
  openedFor : Option Nat
  reading : Bool
  chunks : List (List UInt8)
  deriving DecidableEq

/-- A response handed to the actor of a session. -/
structure Delivery where
  session : Nat
  response : ConnectorResponse
  tag : Tag
  deriving DecidableEq

structure System where
  clock : Nat
  /-- The client process. -/
  dispatcher : Server Nat
  dispatcherUp : Bool
  clientMail : List (Tagged ClientMail)
  sessions : List Session
  /-- The tunnel. -/
  upstream : List (Tagged ProxyRequest)
  downstream : List (Tagged ProxyResponse)
  /-- The server process, which is the arbiter of the tunnel. Sockets are numbered like
  the targets. -/
  server : ProxyClient Nat
  serverUp : Bool
  serverMail : List (Tagged (ServerMail Nat))
  resolving : List (Tagged (UInt16 × String))
  targets : List Target
  socketBytes : Nat → List UInt8
  outQueue : List (Tagged ProxyResponse)
  /-- Everything the dispatcher has delivered. -/
  deliveries : List Delivery

def System.init : System where
  clock := 0
  dispatcher := .create 0
  dispatcherUp := true
  clientMail := []
  sessions := []
  upstream := []
  downstream := []
  server := ⟨true, fun _ => none⟩
  serverUp := true
  serverMail := []
  resolving := []
  targets := []
  socketBytes _ := []
  outQueue := []
  deliveries := []

/-! ## Events -/

inductive Event where
  /-- An application connects from a port; no port is zero. -/
  | connect (port : UInt16)
  /-- Bytes of an application arrive. -/
  | appBytes (index : Nat) (bytes : List UInt8)
  /-- The decoder of a session returns an item, which its actor handles. -/
  | appPoll (index : Nat)
  | appClose (index : Nat)
  | socksMail (index : Nat)
  | tick
  | clientMail
  /-- The dispatcher handles a response from the tunnel. -/
  | clientRecv
  /-- The server handles a request from the tunnel. -/
  | serverRecv (result : WriteResult)
  | serverMail
  | resolved (index : Nat) (result : ConnectResult Unit)
  | read (target : Nat) (event : ReadEvent)
  | forward
  /-- The task that writes into the tunnel ends. -/
  | forwardEnds
  | wait (millis : Nat)
  deriving DecidableEq

/-- The port of an event that is a new connection. -/
def Event.port : Event → Option UInt16
  | .connect port => some port
  | _ => none

/-- An application connects and asks for 127.0.0.1:80. -/
def Event.asks (port : UInt16) (index : Nat) : List Event :=
  [.connect port, .appBytes index [5, 1, 0], .appPoll index,
    .appBytes index [5, 1, 0, 1, 127, 0, 0, 1, 0, 80], .appPoll index]

namespace System

variable (s : System)

def updateSession (index : Nat) (session : Session) : System :=
  { s with sessions := s.sessions.set index session }

/-- What the actor of a session does besides changing its state. -/
def socksEffect (index : Nat) (session : Session) : SocksEffect → System
  | .write response =>
      s.updateSession index { session with written := session.written ++ [response] }
  | .doSend request =>
      { s.updateSession index session with
        clientMail := s.clientMail ++ [⟨.proxyRequest request, ⟨some index, none⟩⟩] }
  | .stop => s.updateSession index { session with running := false }

/-- What the server's actor does besides changing its state. -/
def serverEffect (tag : Tag) (s : System) : ServerEffect Nat → System
  | .send response => { s with outQueue := s.outQueue ++ [⟨response, tag⟩] }
  | .resolve uuid addr => { s with resolving := s.resolving ++ [⟨(uuid, addr), tag⟩] }
  | .write writer bytes =>
      let taken := s.socketBytes writer ++ bytes
      { s with socketBytes := Function.update s.socketBytes writer taken }

/-! ## Steps of the client process -/

def connect (port : UInt16) : Option System :=
  if s.dispatcherUp ∧ port ≠ 0 then
    some { s with
      dispatcher := s.dispatcher.handleSocksConnected port s.sessions.length
      sessions := s.sessions ++ [.new port] }
  else none

/-- The session of an index, while its actor runs. -/
def runningSession (index : Nat) : Option Session :=
  (s.sessions[index]?).filter Session.running

def appBytes (index : Nat) (bytes : List UInt8) : Option System :=
  (s.runningSession index).map fun session =>
    s.updateSession index { session with buffer := session.buffer ++ bytes }

/-- An error or a panic of the decoder ends the session. -/
def appPoll (index : Nat) : Option System :=
  (s.runningSession index).bind fun session =>
    match Socks5RequestCodec.decode session.codec session.buffer with
    | (.item item, codec, rest) =>
        let (client, effect) := session.client.handleSocksRequest item s.clock
        some (s.socksEffect index
          { session with client := client, codec := codec, buffer := rest } effect)
    | (.more, _, _) => none
    | (.fail _, _, _) => some (s.updateSession index { session with running := false })
    | (.panic, _, _) => some (s.updateSession index { session with running := false })

def appClose (index : Nat) : Option System :=
  (s.runningSession index).map fun session =>
    s.updateSession index { session with running := false }

def socksMail (index : Nat) : Option System :=
  (s.runningSession index).bind fun session =>
    match session.inbox with
    | [] => none
    | msg :: rest =>
        match session.client.handleConnectorResponse msg s.clock with
        | none => some (s.updateSession index { session with running := false })
        | some (client, effect) =>
            some (s.socksEffect index { session with client := client, inbox := rest } effect)

def tick : Option System :=
  if s.dispatcherUp then
    if s.dispatcher.hbTick s.clock then
      some { s with clientMail := s.clientMail ++ [⟨.heartbeat, .none⟩] }
    else some s
  else none

def handleClientMail : Option System :=
  if s.dispatcherUp then
    match s.clientMail with
    | [] => none
    | ⟨.proxyRequest request, tag⟩ :: rest =>
        some { s with
          clientMail := rest
          upstream := s.upstream ++ [⟨s.dispatcher.handleProxyRequest request, tag⟩] }
    | ⟨.heartbeat, _⟩ :: rest =>
        let (dispatcher, request) := s.dispatcher.handleHeartbeat s.clock
        some { s with
          dispatcher := dispatcher
          clientMail := rest
          upstream := s.upstream ++ [⟨request, .none⟩] }
  else none

/-- A message for a stopped actor is dropped. -/
def pushInbox (index : Nat) (response : ConnectorResponse) : System :=
  match s.runningSession index with
  | none => s
  | some session => s.updateSession index { session with inbox := session.inbox ++ [response] }

/-- A panic leaves the message in the tunnel and ends the dispatcher. -/
def clientRecv : Option System :=
  if s.dispatcherUp then
    match s.downstream with
    | [] => none
    | ⟨response, tag⟩ :: rest =>
        match s.dispatcher.handleProxyResponse response s.clock with
        | none => some { s with dispatcherUp := false }
        | some (dispatcher, .heartbeat _ _) =>
            some { s with dispatcher := dispatcher, downstream := rest }
        | some (dispatcher, .deliver index response) =>
            some { s.pushInbox index response with
              dispatcher := dispatcher
              downstream := rest
              deliveries := s.deliveries ++ [⟨index, response, tag⟩] }
  else none

/-! ## Steps of the server process -/

/-- A panic leaves the message where it is and ends the arbiter. -/
def react (tag : Tag) (next : System) : ProxyClient.Reaction Nat → System
  | none => { s with serverUp := false }
  | some (server, effects) => effects.foldl (serverEffect tag) { next with server := server }

def serverRecv (result : WriteResult) : Option System :=
  if s.serverUp then
    match s.upstream with
    | [] => none
    | ⟨request, tag⟩ :: rest =>
        some (s.react tag { s with upstream := rest }
          (s.server.handleProxyRequest request result))
  else none

def handleServerMail : Option System :=
  if s.serverUp then
    match s.serverMail with
    | [] => none
    | ⟨mail, tag⟩ :: rest =>
        some (s.react tag { s with serverMail := rest } (s.server.handleMail mail))
  else none

/-- A successful connect opens the next target. -/
def resolved (index : Nat) (result : ConnectResult Unit) : Option System :=
  if s.serverUp then
    match s.resolving.splitAt index with
    | (before, ⟨(uuid, _), tag⟩ :: after) =>
        some { s with
          resolving := before ++ after
          targets := if result.isConnected then s.targets ++ [⟨uuid, tag.cause, true, []⟩]
            else s.targets
          serverMail := s.serverMail ++
            [⟨resolverCallback uuid (result.map fun _ => s.targets.length),
              ⟨tag.cause, none⟩⟩] }
    | _ => none
  else none

/-- A reader keeps reading until its stream ends; chunks are not empty. -/
def readTarget (target : Target) : ReadEvent → Option Target
  | .chunk bytes =>
      if bytes = [] then none else some { target with chunks := target.chunks ++ [bytes] }
  | .finished => some { target with reading := false }
  | .failed => some { target with reading := false }

def read (index : Nat) (event : ReadEvent) : Option System :=
  if s.serverUp then
    ((s.targets[index]?).filter Target.reading).bind fun target =>
      (readTarget target event).map fun next =>
        { s with
          targets := s.targets.set index next
          serverMail := s.serverMail ++ ((readerFuture target.uuid event).map fun mail =>
            ⟨mail, ⟨target.openedFor, some index⟩⟩).toList }
  else none

/-- The forwarding task moves on as long as it has not ended. -/
def forward : Option System :=
  if s.serverUp ∧ s.server.receiving then
    match s.outQueue with
    | [] => none
    | response :: rest =>
        some { s with outQueue := rest, downstream := s.downstream ++ [response] }
  else none

def forwardEnds : Option System :=
  some { s with server := { s.server with receiving := false } }

def step : Event → Option System
  | .connect port => s.connect port
  | .appBytes index bytes => s.appBytes index bytes
  | .appPoll index => s.appPoll index
  | .appClose index => s.appClose index
  | .socksMail index => s.socksMail index
  | .tick => s.tick
  | .clientMail => s.handleClientMail
  | .clientRecv => s.clientRecv
  | .serverRecv result => s.serverRecv result
  | .serverMail => s.handleServerMail
  | .resolved index result => s.resolved index result
  | .read index event => s.read index event
  | .forward => s.forward
  | .forwardEnds => s.forwardEnds
  | .wait millis => some { s with clock := s.clock + millis }

/-- The state after a sequence of events from the start. -/
def run (events : List Event) : Option System := Transition.run System.step .init events

end System

end JustProxy
