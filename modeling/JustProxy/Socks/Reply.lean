import JustProxy.Socks.Layout
import JustProxy.Socks.Session

/-! # Replies to an application

`Socks5ResponseCodec` writes what an application is answered. A reply has the
layout of a request except for its second byte, so it is read here by the rules
that the request decoder uses.
-/

namespace JustProxy

open Bytes Socks5RequestCodec

/-- The discriminant written by `response as u8`. -/
def TargetResponseType.toU8 : TargetResponseType → UInt8
  | .succeeded => 0
  | .generalFailure => 1
  | .notAllowedByRuleset => 2
  | .networkUnreachable => 3
  | .hostUnreachable => 4
  | .connectionRefused => 5
  | .ttlExpired => 6
  | .commandNotSupported => 7
  | .addressTypeNotSupported => 8
  | .unassigned => 9

namespace Socks5ResponseCodec

/-! ## Encoding -/

def encodeMethodSelection (item : MethodSelectionResponse) (dst : BytesMut) : Option BytesMut :=
  (dst.reserve 2).putAll [[item.version], [item.method]]

/-- The first `match` of `encode_targetresponse`: the address field and the
type. `none` is a panic, by a type that is not the address's. -/
def addressBytes : SocksRequestType → SocksAddr → Option (BytesMut × SocksRequestType)
  | .domain, .domain domain =>
      let domainBytes := utf8 domain
      let len := domainBytes.length
      ((BytesMut.empty.reserve (len + 1)).putAll [[UInt8.ofNat len], domainBytes]).map
        fun bytesmut => (bytesmut, .domain)
  | .ipV4, .ipv4 ipv4 =>
      ((BytesMut.empty.reserve 4).putAll [ipv4.octets]).map fun bytesmut => (bytesmut, .ipV4)
  | .ipV6, .ipv6 ipv6 =>
      ((BytesMut.empty.reserve 16).putAll [ipv6.octets]).map fun bytesmut => (bytesmut, .ipV6)
  | _, _ => none

/-- The second `match` of `encode_targetresponse`. -/
def responseTypeByte : SocksRequestType → UInt8
  | .ipV4 => 0
  | .ipV6 => 4
  | .domain => 3

/-- `none` is a panic; there is no error. -/
def encodeTargetResponse (item : TargetResponse) (dst : BytesMut) : Option BytesMut :=
  (addressBytes item.responseType item.address).bind fun (addressBytes, responseType) =>
    let len := 6 + addressBytes.bytes.length
    (dst.reserve len).putAll
      [[5], [item.response.toU8], [0], [responseTypeByte responseType], addressBytes.bytes,
        beBytes 2 item.port.toUInt16.toNat]

def encode (item : SocksResponse) (dst : BytesMut) : Option BytesMut :=
  match item with
  | .negotiation i => encodeMethodSelection i dst
  | .targetResponse i => encodeTargetResponse i dst
  | .data data => (dst.reserve data.length).putAll [data]

end Socks5ResponseCodec

namespace TargetResponse

variable (response : TargetResponse)

/-- The reply of RFC 1928 for a response. -/
def reply : List UInt8 :=
  [5, response.response.toU8, 0, response.address.typeByte] ++ response.address.field ++
    beBytes 2 response.port.toUInt16.toNat

/-- The type is the address's, and a domain can be counted by one byte. -/
structure WellFormed : Prop where
  responseType : response.responseType = response.address.requestType
  short : ∀ name, response.address = .domain name → (utf8 name).length ≤ 255

/-- The encoder appends the reply and nothing else, and reading the reply by the
rules for requests takes all of it and gives back type, address and port. -/
def RoundTrips (dst : BytesMut) : Prop :=
  ∃ next written, Socks5ResponseCodec.encode (.targetResponse response) dst = some next ∧
    next.bytes = dst.bytes ++ written ∧ written = response.reply ∧
    requestLen written = some written.length ∧
    (written[3]?.bind fun typeByte => readTarget typeByte written) =
      some (response.responseType, response.address, response.port)

variable {response}

/-! ## Reading a reply -/

theorem WellFormed.exists_reply_eq (hwell : response.WellFormed) :
    ∃ hi lo, AddressField response.address.typeByte response.address.field ∧
      portOf hi lo = response.port ∧
      response.reply = [5, response.response.toU8, 0, response.address.typeByte] ++
        response.address.field ++ [hi, lo] := by
  obtain ⟨hi, lo, hport, hread⟩ := portOf_toUInt16 response.port
  exact ⟨hi, lo, response.address.addressField hwell.short, hread, by rw [reply, hport]⟩

theorem WellFormed.requestLen_reply (hwell : response.WellFormed) :
    requestLen response.reply = some response.reply.length := by
  obtain ⟨hi, lo, hfield, -, hreply⟩ := hwell.exists_reply_eq
  have hlen := hfield.requestLen 5 response.response.toU8 0 hi lo []
  rw [List.append_nil] at hlen
  rw [hreply, hlen]
  simp only [List.length_append, List.length_cons, List.length_nil]
  congr 1
  omega

theorem WellFormed.readTarget_reply (hwell : response.WellFormed) :
    (response.reply[3]?.bind fun typeByte => readTarget typeByte response.reply) =
      some (response.responseType, response.address, response.port) := by
  obtain ⟨hi, lo, hfield, hport, hreply⟩ := hwell.exists_reply_eq
  have htype : response.reply[3]? = some response.address.typeByte := by
    rw [hreply]
    rfl
  rw [htype, Option.bind_some, hreply, hfield.readTarget rfl, SocksAddr.ofField_field,
    Option.map_some, hport, hwell.responseType]

/-! ## Writing a reply -/

theorem addressBytes_eq (htype : response.responseType = response.address.requestType) :
    ∃ bytesmut, Socks5ResponseCodec.addressBytes response.responseType response.address =
        some (bytesmut, response.address.requestType) ∧
      bytesmut.bytes = response.address.field := by
  rw [htype]
  cases response.address with
  | ipv4 address =>
      obtain ⟨next, hnext, hbytes, -⟩ :=
        (BytesMut.empty.reserve 4).putAll_of_fits [address.octets] (by simp)
      exact ⟨next, by simp [Socks5ResponseCodec.addressBytes, SocksAddr.requestType, hnext],
        by simpa [SocksAddr.field] using hbytes⟩
  | ipv6 address =>
      obtain ⟨next, hnext, hbytes, -⟩ :=
        (BytesMut.empty.reserve 16).putAll_of_fits [address.octets] (by simp)
      exact ⟨next, by simp [Socks5ResponseCodec.addressBytes, SocksAddr.requestType, hnext],
        by simpa [SocksAddr.field] using hbytes⟩
  | domain name =>
      obtain ⟨next, hnext, hbytes, -⟩ :=
        (BytesMut.empty.reserve ((utf8 name).length + 1)).putAll_of_fits
          [[UInt8.ofNat (utf8 name).length], utf8 name] (by simp)
      exact ⟨next, by simp [Socks5ResponseCodec.addressBytes, SocksAddr.requestType, hnext],
        by simpa [SocksAddr.field] using hbytes⟩

/-- The encoder does not panic; what it appends is a reply but for the type. -/
theorem encode_eq (htype : response.responseType = response.address.requestType)
    (dst : BytesMut) :
    ∃ next, Socks5ResponseCodec.encode (.targetResponse response) dst = some next ∧
      next.bytes = dst.bytes ++ ([5, response.response.toU8, 0,
        Socks5ResponseCodec.responseTypeByte response.address.requestType] ++
          response.address.field ++ beBytes 2 response.port.toUInt16.toNat) := by
  obtain ⟨bytesmut, haddress, hfield⟩ := addressBytes_eq htype
  obtain ⟨next, hnext, hbytes, -⟩ :=
    (dst.reserve (6 + bytesmut.bytes.length)).putAll_of_fits
      [[5], [response.response.toU8], [0],
        [Socks5ResponseCodec.responseTypeByte response.address.requestType], bytesmut.bytes,
        beBytes 2 response.port.toUInt16.toNat] (by simp; omega)
  refine ⟨next, ?_, ?_⟩
  · rw [Socks5ResponseCodec.encode, Socks5ResponseCodec.encodeTargetResponse, haddress,
      Option.bind_some]
    exact hnext
  · simpa [hfield] using hbytes

theorem responseTypeByte_eq_iff (address : SocksAddr) :
    Socks5ResponseCodec.responseTypeByte address.requestType = address.typeByte ↔
      ∀ ipv4, address ≠ .ipv4 ipv4 := by
  cases address <;> simp [Socks5ResponseCodec.responseTypeByte, SocksAddr.requestType,
    SocksAddr.typeByte]

/-- Reply round trip. Every well-formed response is written as its reply and
read back from it exactly when its address is not an IPv4 address, whose type
the encoder writes as 0. -/
theorem roundTrips_iff (hwell : response.WellFormed) (dst : BytesMut) :
    response.RoundTrips dst ↔ ∀ ipv4, response.address ≠ .ipv4 ipv4 := by
  obtain ⟨next, hnext, hbytes⟩ := encode_eq hwell.responseType dst
  rw [← responseTypeByte_eq_iff]
  constructor
  · rintro ⟨next', written, hnext', hwritten, hreply, -, -⟩
    rw [hnext] at hnext'
    cases hnext'
    rw [hbytes, hreply] at hwritten
    have hlayout := List.append_cancel_left hwritten
    simpa [reply] using hlayout
  · intro htype
    rw [htype] at hbytes
    exact ⟨next, response.reply, hnext, hbytes, rfl, hwell.requestLen_reply,
      hwell.readTarget_reply⟩

theorem roundTrips_iff_succeeded :
    SocksClient.succeededResponse.RoundTrips .empty ↔
      ∀ ipv4, SocksClient.succeededResponse.address ≠ .ipv4 ipv4 :=
  roundTrips_iff ⟨rfl, fun name hname => by cases hname; decide⟩ .empty

/-- A reply with the address 127.0.0.1 announces address type 0. -/
theorem ipv4_not_roundTrips :
    ¬ (⟨5, .succeeded, 0, .ipV4, .ipv4 ⟨0x7f000001⟩, 80⟩ : TargetResponse).RoundTrips .empty := by
  rintro ⟨next, written, hencode, hbytes, hreply, -, -⟩
  have hencoded : (Socks5ResponseCodec.encode (.targetResponse
      ⟨5, .succeeded, 0, .ipV4, .ipv4 ⟨0x7f000001⟩, 80⟩) .empty).map BytesMut.bytes =
        some [5, 0, 0, 0, 127, 0, 0, 1, 0, 80] := by decide
  rw [hencode] at hencoded
  obtain rfl : written = [5, 0, 0, 0, 127, 0, 0, 1, 0, 80] := by simpa [hbytes] using hencoded
  exact absurd hreply (by decide)

end TargetResponse

end JustProxy
