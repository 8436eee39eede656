import Mathlib.Logic.Function.Basic
import JustProxy.Message

/-! # The server's actor

`ProxyClient` serves one tunnel. It keeps the write halves of its target
connections by uuid and answers into an unbounded queue. A handler returns the
actor after it and what it did; `none` is a panic.
-/

namespace JustProxy

/-- What one `write` on a non-blocking socket answers. -/
inductive WriteResult where
  | accepted (count : Nat)
  | wouldBlock
  | hardError
  deriving DecidableEq, Repr

def WriteResult.isErr : WriteResult → Bool
  | .accepted _ => false
  | .wouldBlock => true
  | .hardError => true

/-- The bytes of a buffer that the socket has taken. -/
def WriteResult.taken (data : List UInt8) : WriteResult → List UInt8
  | .accepted count => data.take count
  | .wouldBlock => []
  | .hardError => []

/-- How a resolver's connect ends. -/
inductive ConnectResult (Writer : Type) where
  | connected (writer : Writer)
  | timeout
  | ioError
  | otherError
  | mailboxError
  deriving DecidableEq

namespace ConnectResult

variable {Writer Other : Type}

def map (f : Writer → Other) : ConnectResult Writer → ConnectResult Other
  | .connected writer => .connected (f writer)
  | .timeout => .timeout
  | .ioError => .ioError
  | .otherError => .otherError
  | .mailboxError => .mailboxError

def isConnected : ConnectResult Writer → Bool
  | .connected _ => true
  | _ => false

@[simp] theorem isConnected_map (f : Writer → Other) (result : ConnectResult Writer) :
    (result.map f).isConnected = result.isConnected := by
  cases result <;> rfl

end ConnectResult

/-- The messages in the actor's mailbox. -/
inductive ServerMail (Writer : Type) where
  | proxyResponse (response : ProxyResponse)
  | connectionDead (uuid : UInt16)
  | connectionEstablished (uuid : UInt16) (writer : Writer)
  deriving DecidableEq

inductive ServerEffect (Writer : Type) where
  /-- A response goes into the output queue. -/
  | send (response : ProxyResponse)
  /-- A connect is started. -/
  | resolve (uuid : UInt16) (addr : String)
  /-- A target socket has taken bytes. -/
  | write (writer : Writer) (bytes : List UInt8)
  deriving DecidableEq

structure ProxyClient (Writer : Type) where
  /-- The receiving end of `write_sender` exists. -/
  receiving : Bool
  connections : UInt16 → Option Writer

namespace ProxyClient

variable {Writer : Type} (self : ProxyClient Writer)

/-- An actor's answer: its next state and its effects. -/
abbrev Reaction (Writer : Type) := Option (ProxyClient Writer × List (ServerEffect Writer))

/-- `write_sender.unbounded_send(response).unwrap()` -/
def unboundedSend (response : ProxyResponse) : Reaction Writer :=
  if self.receiving then some (self, [.send response]) else none

def removeConnection (uuid : UInt16) : ProxyClient Writer :=
  { self with connections := Function.update self.connections uuid none }

def insertConnection (uuid : UInt16) (writer : Writer) : ProxyClient Writer :=
  { self with connections := Function.update self.connections uuid (some writer) }

/-! ## Mailbox -/

def handleProxyResponse (msg : ProxyResponse) : Reaction Writer :=
  self.unboundedSend msg

def handleConnectionDead (uuid : UInt16) : Reaction Writer :=
  (self.removeConnection uuid).unboundedSend (.new uuid (.response .abort))

def handleConnectionEstablished (uuid : UInt16) (writer : Writer) : Reaction Writer :=
  (self.insertConnection uuid writer).unboundedSend (.new uuid (.response .succeeded))

def handleMail : ServerMail Writer → Reaction Writer
  | .proxyResponse msg => self.handleProxyResponse msg
  | .connectionDead uuid => self.handleConnectionDead uuid
  | .connectionEstablished uuid writer => self.handleConnectionEstablished uuid writer

/-! ## Requests -/

/-- The number of bytes that the result of a write reports is not looked at, and
every error removes the connection. -/
def handleData (uuid : UInt16) (data : List UInt8) (r : WriteResult) : Reaction Writer :=
  match self.connections uuid with
  | some conn =>
      some (if r.isErr then self.removeConnection uuid else self, [.write conn (r.taken data)])
  | none => none

/-- `r` is the answer of the target socket, should the request be written to one. -/
def handleProxyRequest (item : ProxyRequest) (r : WriteResult) : Reaction Writer :=
  match item.request with
  | .requestAddr addr => some (self, [.resolve item.uuid addr])
  | .data data => self.handleData item.uuid data r
  | .response _ => none
  | .heartbeat index => self.unboundedSend (.new item.uuid (.heartbeat index))

@[simp] theorem connections_removeConnection (uuid : UInt16) :
    (self.removeConnection uuid).connections uuid = none := by
  simp [removeConnection]

variable {self}

theorem handleProxyRequest_data {uuid : UInt16} {writer : Writer}
    (hconn : self.connections uuid = some writer) (data : List UInt8) (r : WriteResult) :
    self.handleProxyRequest (.new uuid (.data data)) r =
      some (if r.isErr then self.removeConnection uuid else self,
        [.write writer (r.taken data)]) := by
  simp [handleProxyRequest, ProxyRequest.new, handleData, hconn]

theorem handleProxyRequest_data_none {uuid : UInt16}
    (hconn : self.connections uuid = none) (data : List UInt8) (r : WriteResult) :
    self.handleProxyRequest (.new uuid (.data data)) r = none := by
  simp [handleProxyRequest, ProxyRequest.new, handleData, hconn]

/-! ## The queue

No handler touches the receiving end of the output queue. -/

section Receiving

variable {next : ProxyClient Writer} {effects : List (ServerEffect Writer)}

theorem receiving_of_unboundedSend {response : ProxyResponse}
    (hsend : self.unboundedSend response = some (next, effects)) :
    next.receiving = self.receiving := by
  unfold unboundedSend at hsend
  split at hsend
  next =>
    cases hsend
    rfl
  next => cases hsend

theorem receiving_of_handleMail {mail : ServerMail Writer}
    (hmail : self.handleMail mail = some (next, effects)) :
    next.receiving = self.receiving := by
  cases mail with
  | proxyResponse response => exact receiving_of_unboundedSend hmail
  | connectionDead uuid =>
      calc next.receiving
          = (self.removeConnection uuid).receiving := receiving_of_unboundedSend hmail
        _ = self.receiving := rfl
  | connectionEstablished uuid writer =>
      calc next.receiving
          = (self.insertConnection uuid writer).receiving := receiving_of_unboundedSend hmail
        _ = self.receiving := rfl

theorem receiving_of_handleProxyRequest {item : ProxyRequest} {r : WriteResult}
    (hrequest : self.handleProxyRequest item r = some (next, effects)) :
    next.receiving = self.receiving := by
  unfold handleProxyRequest at hrequest
  split at hrequest
  next =>
    cases hrequest
    rfl
  next =>
    unfold handleData at hrequest
    split at hrequest
    next conn hconn =>
      cases hrequest
      split <;> rfl
    next => cases hrequest
  next => cases hrequest
  next => exact receiving_of_unboundedSend hrequest

end Receiving

end ProxyClient

/-! ## Futures -/

/-- What the resolver's callback puts into the mailbox. After the message of a
new connection it spawns the connection's reader. -/
def resolverCallback {Writer : Type} (uuid : UInt16) : ConnectResult Writer → ServerMail Writer
  | .connected writer => .connectionEstablished uuid writer
  | .timeout => .proxyResponse (.new uuid (.response .timeout))
  | .ioError => .proxyResponse (.new uuid (.response .connectionRefused))
  | .otherError => .proxyResponse (.new uuid (.response .connectionRefused))
  | .mailboxError => .proxyResponse (.new uuid (.response .connectionRefused))

/-- A connect that has not succeeded is answered with one of two refusals. -/
theorem resolverCallback_refused {Writer : Type} (uuid : UInt16)
    (result : ConnectResult Writer) (hresult : result.isConnected = false) :
    ∃ kind, (kind = .timeout ∨ kind = .connectionRefused) ∧
      resolverCallback uuid result = .proxyResponse (.new uuid (.response kind)) := by
  cases result with
  | connected writer => cases hresult
  | timeout => exact ⟨_, .inl rfl, rfl⟩
  | ioError => exact ⟨_, .inr rfl, rfl⟩
  | otherError => exact ⟨_, .inr rfl, rfl⟩
  | mailboxError => exact ⟨_, .inr rfl, rfl⟩

/-- What a reader hears from its target. -/
inductive ReadEvent where
  | chunk (bytes : List UInt8)
  | finished
  | failed
  deriving DecidableEq

/-- What a reader puts into the mailbox: the end of the stream is not reported,
only a read error is. -/
def readerFuture {Writer : Type} (uuid : UInt16) : ReadEvent → Option (ServerMail Writer)
  | .chunk bytes => some (.proxyResponse (.new uuid (.data bytes)))
  | .finished => none
  | .failed => some (.connectionDead uuid)

end JustProxy
