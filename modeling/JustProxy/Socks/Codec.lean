import JustProxy.Foundation.StreamDecoder
import JustProxy.Message
import JustProxy.Socks.Message

/-! # The SOCKS decoder

`Socks5RequestCodec` decodes a greeting, then one request, then payload. Index
panics, cuts past the end and failed `unwrap`s are the verdict `panic`.
-/

namespace JustProxy

open Bytes StreamDecoder

inductive Socks5RequestCodecState where
  | negotiation
  | working
  | ready
  deriving DecidableEq, Repr

namespace Socks5RequestCodec

def decodeData (src : List UInt8) : Verdict SocksRequest IoError × List UInt8 :=
  if src.length = 0 then (.more, src) else (.item (.data src), [])

def decodeMethodSelection (src : List UInt8) : Verdict SocksRequest IoError × List UInt8 :=
  if src.length < 2 then (.more, src)
  else
    match src[1]? with
    | none => (.panic, src)
    | some nM =>
        -- the cast keeps the low eight bits of the number of waiting bytes
        let len := UInt8.ofNat (src.length - 2)
        if len < nM then (.more, src)
        else
          match splitTo src 2 with
          | some ([version, nMethods], rest) =>
              match splitTo rest nMethods.toNat with
              | some (methods, rest) =>
                  (.item (.negotiation ⟨version, nMethods, methods⟩), rest)
              | none => (.panic, rest)
          | _ => (.panic, src)

def readCommand (command : UInt8) : Option SocksRequestCommand :=
  if command = 0x01 then some .connect
  else if command = 0x02 then some .bind
  else if command = 0x03 then some .udpAssociate
  else none

/-- `BigEndian::read_i16` of a range of two bytes. -/
def readI16 (packet : List UInt8) (start : Nat) : Option Int16 :=
  (slice packet start (start + 2)).map fun bytes => (UInt16.ofNat (beNat bytes)).toInt16

/-- The address and the port, by address type; `none` is a panic. -/
def readTarget (requestType : UInt8) (packet : List UInt8) :
    Option (SocksRequestType × SocksAddr × Int16) :=
  if requestType = 0x01 then do
    let ipv4Bytes ← slice packet 4 8
    let port ← readI16 packet 8
    return (.ipV4, .ipv4 ⟨UInt32.ofNat (beNat ipv4Bytes)⟩, port)
  else if requestType = 0x03 then do
    let domainLen ← packet[4]?
    let domainBytes ← slice packet 5 (5 + domainLen.toNat)
    let domainString ← fromUtf8 domainBytes
    let port ← readI16 packet (5 + domainLen.toNat)
    return (.domain, .domain domainString, port)
  else if requestType = 0x04 then do
    let ipv6Bytes ← slice packet 4 20
    let port ← readI16 packet 20
    return (.ipV6, .ipv6 ⟨BitVec.ofNat 128 (beNat ipv6Bytes)⟩, port)
  else none

/-- The whole packet; version and reserved byte are not looked at. -/
def readTargetRequest (packet : List UInt8) : Option TargetRequest := do
  let _version ← packet[0]?
  let command ← packet[1]?
  let _reserved ← packet[2]?
  let requestType ← packet[3]?
  let typedCommand ← readCommand command
  let (typedRequestType, typedAddr, port) ← readTarget requestType packet
  return ⟨5, typedCommand, 0, typedRequestType, typedAddr, port⟩

/-- The length of the whole request, by address type; `none` is a panic. -/
def requestLen (src : List UInt8) : Option Nat := do
  let requestType ← src[3]?
  if requestType = 0x01 then return 10
  else if requestType = 0x03 then
    let domainLen ← src[4]?
    return 7 + domainLen.toNat
  else if requestType = 0x04 then return 22
  else none

def decodeTargetRequest (src : List UInt8) : Verdict SocksRequest IoError × List UInt8 :=
  if src.length < 5 then (.more, src)
  else
    match requestLen src with
    | none => (.panic, src)
    | some len =>
        if src.length < len then (.more, src)
        else
          match splitTo src len with
          | none => (.panic, src)
          | some (packet, rest) =>
              match readTargetRequest packet with
              | none => (.panic, rest)
              | some request => (.item (.targetRequest request), rest)

/-- The state after a call: it moves on when an item is returned. -/
def advance (next state : Socks5RequestCodecState) :
    Verdict SocksRequest IoError → Socks5RequestCodecState
  | .item _ => next
  | _ => state

def decode (state : Socks5RequestCodecState) (src : List UInt8) :
    Verdict SocksRequest IoError × Socks5RequestCodecState × List UInt8 :=
  match state with
  | .negotiation =>
      let r := decodeMethodSelection src
      (r.1, advance .working state r.1, r.2)
  | .working =>
      let r := decodeTargetRequest src
      (r.1, advance .ready state r.1, r.2)
  | .ready =>
      let r := decodeData src
      (r.1, state, r.2)

/-! ## What one call does -/

/-- The truncated length is at most the length, so the cut stays in the buffer. -/
theorem toNat_le_of_not_lt {length : Nat} {nMethods : UInt8}
    (henough : ¬ UInt8.ofNat length < nMethods) : nMethods.toNat ≤ length := by
  have hmod := UInt8.le_iff_toNat_le.mp (UInt8.not_lt.mp henough)
  rw [UInt8.toNat_ofNat'] at hmod
  exact hmod.trans (Nat.mod_le _ _)

theorem decodeMethodSelection_cons (version nMethods : UInt8) (rest : List UInt8) :
    decodeMethodSelection (version :: nMethods :: rest) =
      if UInt8.ofNat rest.length < nMethods then (.more, version :: nMethods :: rest)
      else (.item (.negotiation ⟨version, nMethods, rest.take nMethods.toNat⟩),
        rest.drop nMethods.toNat) := by
  have hlong : ¬ (version :: nMethods :: rest).length < 2 := by simp
  have hlen : (version :: nMethods :: rest).length - 2 = rest.length := by simp
  have hsplit : splitTo (version :: nMethods :: rest) 2 = some ([version, nMethods], rest) :=
    splitTo_append [version, nMethods] rest
  simp only [decodeMethodSelection, if_neg hlong, List.getElem?_cons_succ,
    List.getElem?_cons_zero, hlen, hsplit]
  split
  · rfl
  next henough => simp [splitTo, if_pos (toNat_le_of_not_lt henough)]

theorem decodeMethodSelection_short {src : List UInt8} (hshort : src.length < 2) :
    decodeMethodSelection src = (.more, src) := by
  rw [decodeMethodSelection, if_pos hshort]

theorem decodeMethodSelection_item {src rest : List UInt8} {item : SocksRequest}
    (hdecode : decodeMethodSelection src = (.item item, rest)) :
    ∃ version nMethods methods, src = version :: nMethods :: (methods ++ rest) ∧
      methods.length = nMethods.toNat ∧ item = .negotiation ⟨version, nMethods, methods⟩ := by
  rcases src with _ | ⟨version, _ | ⟨nMethods, tail⟩⟩
  · simp [decodeMethodSelection_short] at hdecode
  · simp [decodeMethodSelection_short] at hdecode
  · rw [decodeMethodSelection_cons] at hdecode
    split at hdecode
    · cases hdecode
    next henough =>
      cases hdecode
      have hbound := toNat_le_of_not_lt henough
      exact ⟨version, nMethods, tail.take nMethods.toNat, by simp, by simp [hbound], rfl⟩

theorem decodeTargetRequest_item {src rest : List UInt8} {item : SocksRequest}
    (hdecode : decodeTargetRequest src = (.item item, rest)) :
    ∃ packet request, src = packet ++ rest ∧ 5 ≤ src.length ∧
      requestLen src = some packet.length ∧ readTargetRequest packet = some request ∧
      item = .targetRequest request := by
  unfold decodeTargetRequest at hdecode
  split at hdecode
  · cases hdecode
  next hlong =>
    split at hdecode
    · cases hdecode
    next len hlen =>
      split at hdecode
      · cases hdecode
      · split at hdecode
        · cases hdecode
        next packet rest' hsplit =>
          split at hdecode
          · cases hdecode
          next request hread =>
            cases hdecode
            obtain ⟨hsrc, hpacket⟩ := splitTo_eq_some hsplit
            exact ⟨packet, request, hsrc, by omega, hpacket ▸ hlen, hread, rfl⟩

/-- The items come in order: the greeting, the request, then payload. -/
theorem decode_item {state state' : Socks5RequestCodecState} {src rest : List UInt8}
    {item : SocksRequest} (hdecode : decode state src = (.item item, state', rest)) :
    (state = .negotiation ∧ state' = .working ∧ ∃ greeting, item = .negotiation greeting) ∨
    (state = .working ∧ state' = .ready ∧ ∃ request, item = .targetRequest request) ∨
    (state = .ready ∧ state' = .ready ∧ ∃ bytes, item = .data bytes) := by
  have hverdict := congrArg Prod.fst hdecode
  have hstate := congrArg (fun answer => answer.2.1) hdecode
  have hrest := congrArg (fun answer => answer.2.2) hdecode
  cases state with
  | negotiation =>
      obtain ⟨version, nMethods, methods, -, -, hitem⟩ :=
        decodeMethodSelection_item (Prod.ext hverdict hrest)
      simp only [decode] at hverdict hstate
      rw [hverdict] at hstate
      exact .inl ⟨rfl, hstate.symm, _, hitem⟩
  | working =>
      obtain ⟨packet, request, -, -, -, -, hitem⟩ :=
        decodeTargetRequest_item (Prod.ext hverdict hrest)
      simp only [decode] at hverdict hstate
      rw [hverdict] at hstate
      exact .inr (.inl ⟨rfl, hstate.symm, request, hitem⟩)
  | ready =>
      simp only [decode, decodeData] at hverdict
      split at hverdict
      · cases hverdict
      · cases hverdict
        exact .inr (.inr ⟨rfl, hstate.symm, src, rfl⟩)

/-- Every item uses up at least one byte. -/
theorem length_decode_lt {state state' : Socks5RequestCodecState} {src rest : List UInt8}
    {item : SocksRequest} (hdecode : decode state src = (.item item, state', rest)) :
    rest.length < src.length := by
  have hverdict := congrArg Prod.fst hdecode
  have hrest := congrArg (fun answer => answer.2.2) hdecode
  cases state with
  | negotiation =>
      obtain ⟨version, nMethods, methods, hsrc, -⟩ :=
        decodeMethodSelection_item (Prod.ext hverdict hrest)
      simp only [hsrc, List.length_cons, List.length_append]
      omega
  | working =>
      obtain ⟨packet, request, hsrc, -, -, hread, -⟩ :=
        decodeTargetRequest_item (Prod.ext hverdict hrest)
      have hpacket : packet ≠ [] := by
        rintro rfl
        simp [readTargetRequest] at hread
      have hpos := List.length_pos_iff.mpr hpacket
      rw [hsrc, List.length_append]
      omega
  | ready =>
      simp only [decode, decodeData] at hverdict hrest
      split at hverdict
      · cases hverdict
      next hlong =>
        rw [if_neg hlong] at hrest
        rw [← hrest, List.length_nil]
        omega

/-- The decoder as the reading loop drives it. -/
def decoder : Decoder Socks5RequestCodecState SocksRequest IoError where
  decode := decode
  consumes := length_decode_lt

end Socks5RequestCodec

end JustProxy
