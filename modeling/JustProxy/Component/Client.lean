import Mathlib.Logic.Function.Basic
import JustProxy.Message

/-! # The client's dispatcher

`Server` accepts SOCKS connections, forwards their requests into the tunnel and
hands the tunnel's responses to the session of their uuid. Instants are numbers
of milliseconds. `none` is a panic.
-/

namespace JustProxy

/-- `HEARTBEAT_INTERVAL` is the pace of `hb`; a silence longer than this stops it. -/
def heartbeatTimeout : Nat := 15000

structure Server (Session : Type) where
  clients : UInt16 → Option Session
  hb : Nat
  hbIndex : UInt32
  lastHbInstant : Nat

namespace Server

variable {Session : Type} (self : Server Session)

/-- The state that `connect_callback` starts the actor with. -/
def create (now : Nat) : Server Session where
  clients _ := none
  hb := now
  hbIndex := 0
  lastHbInstant := now

/-- One tick of the interval: whether the actor sends itself a `Heartbeat`. -/
def hbTick (now : Nat) : Bool := ¬ heartbeatTimeout < now - self.hb

def handleHeartbeat (now : Nat) : Server Session × ProxyRequest :=
  ({ self with lastHbInstant := now, hbIndex := self.hbIndex + 1 },
    .new 0 (.heartbeat (self.hbIndex + 1)))

/-- Every request is passed on to the writer as it is. -/
def handleProxyRequest (_self : Server Session) (msg : ProxyRequest) : ProxyRequest := msg

/-- A new session takes the place of an older one with the same port. -/
def handleSocksConnected (port : UInt16) (session : Session) : Server Session :=
  { self with clients := Function.update self.clients port (some session) }

/-- What a session is told of a transfer; `none` is a panic. -/
def connectorResponse : ProxyTransfer → Option ConnectorResponse
  | .data data => some (.data data)
  | .requestAddr _ => none
  | .response .succeeded => some .succeeded
  | .response .connectionRefused => some .failed
  | .response .timeout => some .failed
  | .response .abort => some .abort
  | .heartbeat _ => none

/-- What the dispatcher does with a response. -/
inductive Dispatch (Session : Type) where
  | heartbeat (rtt : Nat) (index : UInt32)
  | deliver (session : Session) (response : ConnectorResponse)
  deriving DecidableEq

def handleProxyResponse (item : ProxyResponse) (now : Nat) :
    Option (Server Session × Dispatch Session) :=
  if item.uuid = 0 then
    match item.response with
    | .heartbeat i => some ({ self with hb := now }, .heartbeat (now - self.lastHbInstant) i)
    | _ => none
  else
    match self.clients item.uuid with
    | none => none
    | some socksClient =>
        (connectorResponse item.response).map fun response =>
          (self, .deliver socksClient response)

variable {self}

/-- A response that is handled is an echo, which sets the instant of the last one, or it
is for a known uuid and tells its session something. -/
theorem handleProxyResponse_eq_some {item : ProxyResponse} {now : Nat} {next : Server Session}
    {dispatch : Dispatch Session}
    (hhandle : self.handleProxyResponse item now = some (next, dispatch)) :
    (item.uuid = 0 ∧ ∃ index, item.response = .heartbeat index ∧
        next = { self with hb := now } ∧
        dispatch = .heartbeat (now - self.lastHbInstant) index) ∨
      (item.uuid ≠ 0 ∧ ∃ session response, self.clients item.uuid = some session ∧
        connectorResponse item.response = some response ∧ next = self ∧
        dispatch = .deliver session response) := by
  unfold handleProxyResponse at hhandle
  split at hhandle
  next hzero =>
    split at hhandle
    next index hindex =>
      cases hhandle
      exact .inl ⟨hzero, index, hindex, rfl, rfl⟩
    next => cases hhandle
  next hzero =>
    cases hclient : self.clients item.uuid with
    | none => simp [hclient] at hhandle
    | some session =>
        rw [hclient] at hhandle
        obtain ⟨response, hresponse, heq⟩ := Option.map_eq_some_iff.mp hhandle
        cases heq
        exact .inr ⟨hzero, session, response, rfl, hresponse, rfl, rfl⟩

end Server

end JustProxy
