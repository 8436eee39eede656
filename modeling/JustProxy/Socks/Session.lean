import JustProxy.Message
import JustProxy.Socks.Message

/-! # The SOCKS session

`SocksClient` serves one SOCKS connection: it turns what the application sends
into tunnel requests, and what the dispatcher tells it into replies.
-/

namespace JustProxy

/-- The bytes sent and received are counted with 64 bits. -/
structure SocksClient where
  uuid : UInt16
  connectRequestRecord : Option Nat
  connectRtt : Option Nat
  sendBytes : UInt64
  recvBytes : UInt64
  targetAddress : Option String
  deriving DecidableEq

/-- What an actor logs when it has stopped. -/
structure StoppedLog where
  address : String
  traffic : String
  connectRtt : String
  deriving DecidableEq

inductive SocksEffect where
  /-- A reply goes to the application. -/
  | write (response : SocksResponse)
  /-- A request goes to the dispatcher. -/
  | doSend (request : ProxyRequest)
  | stop
  deriving DecidableEq

namespace SocksClient

variable (self : SocksClient)

def new (uuid : UInt16) : SocksClient := ⟨uuid, none, none, 0, 0, none⟩

def succeededResponse : TargetResponse where
  version := 5
  response := .succeeded
  reserved := 0
  responseType := .domain
  address := .domain "123"
  port := 0

def failedResponse : TargetResponse where
  version := 5
  response := .connectionRefused
  reserved := 0
  responseType := .domain
  address := .domain ""
  port := 0

/-- `none` is the `unwrap` of a request instant, or of an address, that was
never recorded. -/
def handleConnectorResponse (msg : ConnectorResponse) (now : Nat) :
    Option (SocksClient × SocksEffect) :=
  match msg with
  | .succeeded => do
      let start ← self.connectRequestRecord
      return ({ self with connectRtt := some (now - start) },
        .write (.targetResponse succeededResponse))
  | .failed => do
      let start ← self.connectRequestRecord
      let _address ← self.targetAddress
      return ({ self with connectRtt := some (now - start) },
        .write (.targetResponse failedResponse))
  | .data data =>
      some ({ self with recvBytes := self.recvBytes + UInt64.ofNat data.length },
        .write (.data data))
  | .abort => some (self, .stop)

def handleSocksRequest (item : SocksRequest) (now : Nat) : SocksClient × SocksEffect :=
  match item with
  | .negotiation _ => (self, .write (.negotiation ⟨5, 0⟩))
  | .targetRequest targetRequest =>
      ({ self with
          connectRequestRecord := some now
          targetAddress := some targetRequest.toAddressString },
        .doSend (.new self.uuid (.requestAddr targetRequest.toAddressString)))
  | .data data =>
      ({ self with sendBytes := self.sendBytes + UInt64.ofNat data.length },
        .doSend (.new self.uuid (.data data)))

def stopped : StoppedLog where
  address := self.targetAddress.getD "unavailable"
  traffic := s!"traffic send:{self.sendBytes} bytes, recv:{self.recvBytes} bytes"
  connectRtt := (self.connectRtt.map fun rtt => s!"{rtt} millis").getD "unavailable"

/-- A response of the dispatcher is only ever answered to the application. -/
theorem handleConnectorResponse_eq_some {self client : SocksClient} {msg : ConnectorResponse}
    {now : Nat} {effect : SocksEffect}
    (hhandle : self.handleConnectorResponse msg now = some (client, effect)) :
    client.uuid = self.uuid ∧ ((∃ response, effect = .write response) ∨ effect = .stop) := by
  cases msg with
  | succeeded =>
      simp only [handleConnectorResponse, Option.bind_eq_bind, Option.bind_eq_some_iff] at hhandle
      obtain ⟨start, -, hhandle⟩ := hhandle
      cases hhandle
      exact ⟨rfl, .inl ⟨_, rfl⟩⟩
  | failed =>
      simp only [handleConnectorResponse, Option.bind_eq_bind, Option.bind_eq_some_iff] at hhandle
      obtain ⟨start, -, address, -, hhandle⟩ := hhandle
      cases hhandle
      exact ⟨rfl, .inl ⟨_, rfl⟩⟩
  | data bytes =>
      cases hhandle
      exact ⟨rfl, .inl ⟨_, rfl⟩⟩
  | abort =>
      cases hhandle
      exact ⟨rfl, .inr rfl⟩

end SocksClient

end JustProxy
