import JustProxy.Foundation.StreamDecoder
import JustProxy.Message
import JustProxy.Opt

/-! # The tunnel codecs

Both codecs have the same fields, the same frame layout and the same bodies:
`ProxyRequestCodec` carries requests, `ProxyResponseCodec` carries responses.
A frame is two sealed segments. The first seals uuid, four random bytes, payload
length and payload type; the second seals the payload, with the first segment
as associated data.
-/

namespace JustProxy

open Bytes StreamDecoder

def decError : IoError := ⟨.invalidInput, "dec error"⟩

def encError : IoError := ⟨.invalidInput, "enc error"⟩

/-- The fields of either codec. They are only set by `new`, from one
configuration: both keys are the same, and the tag length is the algorithm's. -/
structure TunnelCodec (Key : Type) where
  cryptoAlgorithm : Aead Key Nonce
  openingKey : Key
  sealingKey : Key
  nonceBytes : Nonce
  tagLen : Nat
  sealingKey_eq : sealingKey = openingKey
  tagLen_eq : tagLen = cryptoAlgorithm.tagLen

/-- The body of both constructors. `none` is the `unwrap` of a refused key. -/
def TunnelCodec.new (ring : Ring) (config : ConvertedCryptoConfig) :
    Option (TunnelCodec AeadKey) :=
  let keyBytes := ring.pbkdf2 config.digestMethod config.digestIteration config.salt config.key 32
  (AeadKey.new config.cryptoMethod keyBytes).map fun key =>
    { cryptoAlgorithm := ring.aead
      openingKey := key
      sealingKey := key
      nonceBytes := Vector.replicate 12 1
      tagLen := ring.aead.tagLen
      sealingKey_eq := rfl
      tagLen_eq := rfl }

abbrev ProxyRequestCodec := TunnelCodec

abbrev ProxyResponseCodec := TunnelCodec

def ProxyRequestCodec.new (ring : Ring) (config : ConvertedCryptoConfig) :
    Option (ProxyRequestCodec AeadKey) :=
  TunnelCodec.new ring config

def ProxyResponseCodec.new (ring : Ring) (config : ConvertedCryptoConfig) :
    Option (ProxyResponseCodec AeadKey) :=
  TunnelCodec.new ring config

namespace TunnelCodec

variable {Key : Type} (codec : TunnelCodec Key)

/-! ## Encoding -/

inductive EncodeOutcome where
  | ok
  | err (error : IoError)
  | panic
  deriving DecidableEq

/-- What one call of `encode` does: its answer, the output buffer after it, and
the calls to `seal_in_place` that it made. -/
structure EncodeRun (Key : Type) where
  outcome : EncodeOutcome
  dst : BytesMut
  seals : List (SealCall Key Nonce)

/-- One call to `seal_in_place` on a buffer that ends with room for the tag. -/
def sealCall (aad place : List UInt8) : SealCall Key Nonce where
  key := codec.sealingKey
  nonce := codec.nonceBytes
  aad := aad
  plain := place.take (place.length - codec.tagLen)
  output := codec.cryptoAlgorithm.sealInPlace codec.sealingKey codec.nonceBytes aad place
    codec.tagLen

/-- The body of both `encode` functions. `transferLen as u32` keeps the low 32
bits; each `put` panics when the reserved capacity is used up. -/
def encodeWith (uuid : UInt16) (transferLen : Nat) (transferType : ProxyTransferType)
    (transfer : ProxyTransfer) (random : Vector UInt8 4) (dst : BytesMut) : EncodeRun Key :=
  let room := List.replicate codec.tagLen [(0 : UInt8)]
  match (BytesMut.empty.reserve (6 + 4 + 1 + codec.tagLen)).putAll
      ([beBytes 2 uuid.toNat, random.toList, beBytes 4 (transferLen % 2 ^ 32),
        [transferType.toU8]] ++ room) with
  | none => ⟨.panic, dst, []⟩
  | some parse1Buf =>
      let seal1 := codec.sealCall [] parse1Buf.bytes
      match seal1.output with
      | none => ⟨.err encError, dst, [seal1]⟩
      | some parse1Place =>
          match (BytesMut.empty.reserve (transferLen + codec.tagLen)).putAll
              (transfer.payload :: room) with
          | none => ⟨.panic, dst, [seal1]⟩
          | some parse2Buf =>
              let seal2 := codec.sealCall parse1Place parse2Buf.bytes
              match seal2.output with
              | none => ⟨.err encError, dst, [seal1, seal2]⟩
              | some parse2Place =>
                  let reserved := dst.reserve
                    (6 + 4 + 1 + codec.tagLen + transferLen + codec.tagLen)
                  match reserved.putAll [parse1Place, parse2Place] with
                  | none => ⟨.panic, reserved, [seal1, seal2]⟩
                  | some dst => ⟨.ok, dst, [seal1, seal2]⟩

/-! ## Decoding -/

/-- What `decode` reads from the opened first segment. -/
structure Header where
  uuid : UInt16
  transferLen : Nat
  transferTypeByte : UInt8
  deriving DecidableEq

/-- `none` is a failed `unwrap` of `get`, or a `read_u16` past the end. -/
def readHeader (parse1DecBytes : List UInt8) : Option Header := do
  let len0 ← parse1DecBytes[6]?
  let len1 ← parse1DecBytes[7]?
  let len2 ← parse1DecBytes[8]?
  let len3 ← parse1DecBytes[9]?
  let transferTypeByte ← parse1DecBytes[10]?
  let uuid0 ← parse1DecBytes[0]?
  let uuid1 ← parse1DecBytes[1]?
  return ⟨UInt16.ofNat (beNat [uuid0, uuid1]), beNat [len0, len1, len2, len3],
    transferTypeByte⟩

/-- The `match` on the type byte. `none` is a panic: an unknown type, text that
is not UTF-8, a response of the wrong length or value, a short heartbeat. -/
def readTransfer (transferTypeByte : UInt8) (parse2 : Opened) :
    Option (ProxyTransferType × ProxyTransfer) :=
  if transferTypeByte = 0x0 then
    -- the packet was opened in place; cutting off the tag leaves the plaintext
    some (.data, .data (parse2.place.take (parse2.place.length - codec.tagLen)))
  else if transferTypeByte = 0x1 then
    (fromUtf8 parse2.plain).map fun addr => (.requestAddr, .requestAddr addr)
  else if transferTypeByte = 0x2 then
    match parse2.plain with
    | [byte] => (ProxyResponseType.ofU8? byte).map fun kind => (.response, .response kind)
    | _ => none
  else if transferTypeByte = 0x3 then
    if parse2.plain.length < 4 then none
    else some (.heartbeat, .heartbeat (UInt32.ofNat (beNat (parse2.plain.take 4))))
  else none

/-- The body of both `decode` functions, with the buffer after the call. The
result is built by the codec's own constructor `build`. -/
def decodeWith {Item : Type} (build : UInt16 → Nat → ProxyTransferType → ProxyTransfer → Item)
    (src : List UInt8) : Verdict Item IoError × List UInt8 :=
  if src.length < 6 + 4 + 1 + codec.tagLen then (.more, src)
  else
    let parse1DecPlace := src.take (11 + codec.tagLen)
    match codec.cryptoAlgorithm.openInPlace codec.openingKey codec.nonceBytes []
        parse1DecPlace with
    | none => (.fail decError, src)
    | some parse1 =>
        match readHeader parse1.plain with
        | none => (.panic, src)
        | some header =>
            let total := 6 + 4 + 1 + codec.tagLen + header.transferLen + codec.tagLen
            if src.length < total then (.more, src)
            else
              let packet := src.take total
              let parse1Bytes := packet.take (11 + codec.tagLen)
              let parse2Bytes := packet.drop (11 + codec.tagLen)
              match codec.cryptoAlgorithm.openInPlace codec.openingKey codec.nonceBytes
                  parse1Bytes parse2Bytes with
              -- unlike a refused first segment, a refused second one is already removed
              | none => (.fail decError, src.drop total)
              | some parse2 =>
                  match codec.readTransfer header.transferTypeByte parse2 with
                  | none => (.panic, src.drop total)
                  | some (transferType, transfer) =>
                      (.item (build header.uuid header.transferLen transferType transfer),
                        src.drop total)

end TunnelCodec

def ProxyRequestCodec.encode {Key : Type} (codec : ProxyRequestCodec Key) (item : ProxyRequest)
    (random : Vector UInt8 4) (dst : BytesMut) : TunnelCodec.EncodeRun Key :=
  codec.encodeWith item.uuid item.transferLen item.transferType item.request random dst

def ProxyResponseCodec.encode {Key : Type} (codec : ProxyResponseCodec Key)
    (item : ProxyResponse) (random : Vector UInt8 4) (dst : BytesMut) :
    TunnelCodec.EncodeRun Key :=
  codec.encodeWith item.uuid item.transferLen item.transferType item.response random dst

def ProxyRequestCodec.decode {Key : Type} (codec : ProxyRequestCodec Key) (src : List UInt8) :
    Verdict ProxyRequest IoError × List UInt8 :=
  codec.decodeWith ProxyRequest.mk src

def ProxyResponseCodec.decode {Key : Type} (codec : ProxyResponseCodec Key)
    (src : List UInt8) : Verdict ProxyResponse IoError × List UInt8 :=
  codec.decodeWith ProxyResponse.mk src

/-! ## Both codecs at once -/

/-- The two directions of the tunnel. The client encodes requests and decodes
responses, the server the other way round. -/
inductive Direction where
  | request
  | response
  deriving DecidableEq, Repr

namespace Direction

def Item : Direction → Type
  | .request => ProxyRequest
  | .response => ProxyResponse

instance : (direction : Direction) → DecidableEq direction.Item
  | .request => inferInstanceAs (DecidableEq ProxyRequest)
  | .response => inferInstanceAs (DecidableEq ProxyResponse)

/-- The record constructor that `decode` uses. -/
def build : (direction : Direction) →
    UInt16 → Nat → ProxyTransferType → ProxyTransfer → direction.Item
  | .request => ProxyRequest.mk
  | .response => ProxyResponse.mk

def new : (direction : Direction) → UInt16 → ProxyTransfer → direction.Item
  | .request => ProxyRequest.new
  | .response => ProxyResponse.new

variable {Key : Type}

/-- The codec whose frames travel in a direction. -/
def codec : Direction → ProxyRequestCodec Key → ProxyResponseCodec Key → TunnelCodec Key
  | .request, requestCodec, _ => requestCodec
  | .response, _, responseCodec => responseCodec

@[simp] theorem codec_self (direction : Direction) (codec : TunnelCodec Key) :
    direction.codec codec codec = codec := by
  cases direction <;> rfl

def encode : (direction : Direction) → TunnelCodec Key → direction.Item → Vector UInt8 4 →
    BytesMut → TunnelCodec.EncodeRun Key
  | .request => ProxyRequestCodec.encode
  | .response => ProxyResponseCodec.encode

def decode : (direction : Direction) → TunnelCodec Key → List UInt8 →
    Verdict direction.Item IoError × List UInt8
  | .request => ProxyRequestCodec.decode
  | .response => ProxyResponseCodec.decode

theorem new_eq (direction : Direction) (uuid : UInt16) (transfer : ProxyTransfer) :
    direction.new uuid transfer =
      direction.build uuid transfer.header.1 transfer.header.2 transfer := by
  cases direction <;> rfl

theorem encode_new (direction : Direction) (codec : TunnelCodec Key) (uuid : UInt16)
    (transfer : ProxyTransfer) (random : Vector UInt8 4) (dst : BytesMut) :
    direction.encode codec (direction.new uuid transfer) random dst =
      codec.encodeWith uuid transfer.header.1 transfer.header.2 transfer random dst := by
  cases direction <;> rfl

theorem decode_eq (direction : Direction) (codec : TunnelCodec Key) (src : List UInt8) :
    direction.decode codec src = codec.decodeWith direction.build src := by
  cases direction <;> rfl

end Direction

end JustProxy
