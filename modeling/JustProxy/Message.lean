import JustProxy.Foundation.Bytes

/-! # Messages

The messages that the two tunnel endpoints exchange, and the answers a SOCKS
session receives from its dispatcher.
-/

namespace JustProxy

open Bytes

/-- The kinds of I/O errors that the codecs construct. -/
inductive IoErrorKind where
  | invalidInput
  deriving DecidableEq, Repr

structure IoError where
  kind : IoErrorKind
  message : String
  deriving DecidableEq, Repr

/-- What the dispatcher tells a SOCKS session. -/
inductive ConnectorResponse where
  | succeeded
  | failed
  | data (bytes : List UInt8)
  | abort
  deriving DecidableEq, Repr

inductive ProxyTransferType where
  | data
  | requestAddr
  | response
  | heartbeat
  deriving DecidableEq, Repr

inductive ProxyResponseType where
  | succeeded
  | connectionRefused
  | timeout
  | abort
  deriving DecidableEq, Repr

inductive ProxyTransfer where
  | data (bytes : List UInt8)
  | requestAddr (addr : String)
  | response (kind : ProxyResponseType)
  | heartbeat (index : UInt32)
  deriving DecidableEq

/-- The discriminant written by `transfer_type as u8`. -/
def ProxyTransferType.toU8 : ProxyTransferType → UInt8
  | .data => 0x0
  | .requestAddr => 0x1
  | .response => 0x2
  | .heartbeat => 0x3

/-- The discriminant written by `response as u8`. -/
def ProxyResponseType.toU8 : ProxyResponseType → UInt8
  | .succeeded => 0x0
  | .connectionRefused => 0x1
  | .timeout => 0x2
  | .abort => 0x3

/-- The response kinds a decoder recognises by their byte. -/
def ProxyResponseType.ofU8? (byte : UInt8) : Option ProxyResponseType :=
  if byte = 0x0 then some .succeeded
  else if byte = 0x1 then some .connectionRefused
  else if byte = 0x2 then some .timeout
  else if byte = 0x3 then some .abort
  else none

/-- Length and type that both message constructors compute for a transfer. -/
def ProxyTransfer.header : ProxyTransfer → Nat × ProxyTransferType
  | .response _ => (1, .response)
  | .requestAddr addr => ((utf8 addr).length, .requestAddr)
  | .data bytes => (bytes.length, .data)
  | .heartbeat _ => (4, .heartbeat)

/-- The payload bytes both encoders write for a transfer. -/
def ProxyTransfer.payload : ProxyTransfer → List UInt8
  | .data bytes => bytes
  | .requestAddr addr => utf8 addr
  | .response kind => [kind.toU8]
  | .heartbeat index => beBytes 4 index.toNat

structure ProxyRequest where
  uuid : UInt16
  transferLen : Nat
  transferType : ProxyTransferType
  request : ProxyTransfer
  deriving DecidableEq

structure ProxyResponse where
  uuid : UInt16
  transferLen : Nat
  transferType : ProxyTransferType
  response : ProxyTransfer
  deriving DecidableEq

def ProxyRequest.new (uuid : UInt16) (request : ProxyTransfer) : ProxyRequest :=
  ⟨uuid, request.header.1, request.header.2, request⟩

def ProxyResponse.new (uuid : UInt16) (response : ProxyTransfer) : ProxyResponse :=
  ⟨uuid, response.header.1, response.header.2, response⟩

/-- The declared length is the number of payload bytes that get written. -/
@[simp] theorem ProxyTransfer.length_payload (transfer : ProxyTransfer) :
    transfer.payload.length = transfer.header.1 := by
  cases transfer <;> simp [payload, header]

@[simp] theorem ProxyResponseType.ofU8?_toU8 (kind : ProxyResponseType) :
    ProxyResponseType.ofU8? kind.toU8 = some kind := by
  cases kind <;> rfl

end JustProxy
