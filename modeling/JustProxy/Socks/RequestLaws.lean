import JustProxy.Foundation.Text
import JustProxy.Socks.Layout
import JustProxy.Socks.Session

/-! # What the request decoder accepts

Which waiting requests the decoder has an answer for, what an accepted request
says about the bytes that were removed for it, and which port is asked for in
its name.
-/

namespace JustProxy

open Bytes StreamDecoder Text

/-- Host part of the text that a session asks the tunnel for. -/
def SocksAddr.text : SocksAddr → String
  | .domain name => name
  | .ipv6 address => address.toString
  | .ipv4 address => address.toString

def SocksRequestType.toU8 : SocksRequestType → UInt8
  | .ipV4 => 0x01
  | .domain => 0x03
  | .ipV6 => 0x04

/-- A request as its sender lays it out. -/
def TargetRequest.layout (request : TargetRequest) : List UInt8 :=
  [request.version, request.command.toU8, request.reserved, request.requestType.toU8] ++
    request.address.field ++ beBytes 2 request.port.toUInt16.toNat

namespace Socks5RequestCodec

/-! ## Panics -/

/-- The whole request stands in the buffer. -/
def Complete (src : List UInt8) : Prop := ∃ len, requestLen src = some len ∧ len ≤ src.length

/-- What a waiting request must be for the decoder to have an answer: its
address type is known, and once it is complete its command is known and its
domain, if it has one, is UTF-8. -/
structure Supported (src : List UInt8) : Prop where
  requestType : 5 ≤ src.length →
    src[3]? = some 0x01 ∨ src[3]? = some 0x03 ∨ src[3]? = some 0x04
  command : Complete src → src[1]? = some 0x01 ∨ src[1]? = some 0x02 ∨ src[1]? = some 0x03
  domain : Complete src → src[3]? = some 0x03 → ∀ domainLen, src[4]? = some domainLen →
    (fromUtf8 ((src.drop 5).take domainLen.toNat)).isSome

theorem readCommand_isSome_iff {command : UInt8} :
    (readCommand command).isSome ↔ command = 0x01 ∨ command = 0x02 ∨ command = 0x03 := by
  unfold readCommand
  split
  · simp_all
  · split
    · simp_all
    · split <;> simp_all

theorem toU8_of_readCommand {command : UInt8} {typedCommand : SocksRequestCommand}
    (hread : readCommand command = some typedCommand) : command = typedCommand.toU8 := by
  unfold readCommand at hread
  split at hread
  next hconnect => cases hread; exact hconnect
  next =>
    split at hread
    next hbind => cases hread; exact hbind
    next =>
      split at hread
      next hassociate => cases hread; exact hassociate
      next => cases hread

/-- The decoder's answer to a complete request. -/
theorem decodeTargetRequest_whole {typeByte : UInt8} {bytes : List UInt8}
    (hfield : AddressField typeByte bytes) (version command reserved hi lo : UInt8)
    (rest : List UInt8) :
    decodeTargetRequest ([version, command, reserved, typeByte] ++ bytes ++ [hi, lo] ++ rest) =
      (((readCommand command).bind fun typedCommand =>
        (SocksAddr.ofField typeByte bytes).map fun address =>
          (⟨5, typedCommand, 0, address.requestType, address, portOf hi lo⟩ :
            TargetRequest)).elim .panic fun request => .item (.targetRequest request),
        rest) := by
  have hlength : ([version, command, reserved, typeByte] ++ bytes ++ [hi, lo]).length =
      6 + bytes.length := by
    simp only [List.length_append, List.length_cons, List.length_nil]
    omega
  have hlong : 6 + bytes.length ≤
      ([version, command, reserved, typeByte] ++ bytes ++ [hi, lo] ++ rest).length := by
    rw [List.length_append, hlength]
    omega
  rw [← hfield.readTargetRequest version, decodeTargetRequest, if_neg (by omega),
    hfield.requestLen]
  simp only [if_neg (Nat.not_lt.mpr hlong)]
  rw [← hlength, splitTo_append]
  cases hread : readTargetRequest ([version, command, reserved, typeByte] ++ bytes ++ [hi, lo]) <;>
    simp only [hread, Option.elim]

/-- Every buffer is too short to tell, of an unknown address type, a part of a
request, or a whole request with something behind it. -/
theorem request_cases (src : List UInt8) :
    src.length < 5 ∨ (5 ≤ src.length ∧ requestLen src = none) ∨
      (5 ≤ src.length ∧ ∃ len, requestLen src = some len ∧ src.length < len) ∨
      ∃ version command reserved typeByte bytes hi lo rest, AddressField typeByte bytes ∧
        src = [version, command, reserved, typeByte] ++ bytes ++ [hi, lo] ++ rest := by
  by_cases hfive : src.length < 5
  · exact .inl hfive
  rw [Nat.not_lt] at hfive
  cases hlen : requestLen src with
  | none => exact .inr (.inl ⟨hfive, rfl⟩)
  | some len =>
      by_cases hshort : src.length < len
      · exact .inr (.inr (.inl ⟨hfive, len, rfl, hshort⟩))
      · -- the first `len` bytes announce their own length
        rw [Nat.not_lt] at hshort
        have hlength : (src.take len).length = len := List.length_take_of_le hshort
        have hfront : requestLen (src.take len) = some (src.take len).length := by
          have hseven := seven_le_requestLen hlen
          rw [requestLen_eq_of_front (List.take_prefix len src) (by omega), hlen, hlength]
        obtain ⟨version, command, reserved, typeByte, bytes, hi, lo, hfield, hpacket⟩ :=
          exists_addressField hfront
        refine .inr (.inr (.inr ⟨version, command, reserved, typeByte, bytes, hi, lo,
          src.drop len, hfield, ?_⟩))
        rw [← hpacket, List.take_append_drop]

theorem requestLen_eq_none_iff {src : List UInt8} (hfive : 5 ≤ src.length) :
    requestLen src = none ↔
      ¬ (src[3]? = some 0x01 ∨ src[3]? = some 0x03 ∨ src[3]? = some 0x04) := by
  rcases src with _ | ⟨version, _ | ⟨command, _ | ⟨reserved, _ | ⟨typeByte, _ | ⟨next, tail⟩⟩⟩⟩⟩
  iterate 5 · simp at hfive
  by_cases hipv4 : typeByte = 0x01
  · simp [requestLen, hipv4]
  by_cases hdomain : typeByte = 0x03
  · simp [requestLen, hdomain]
  by_cases hipv6 : typeByte = 0x04
  · simp [requestLen, hipv6]
  · simp [requestLen, hipv4, hdomain, hipv6]

theorem ofField_isSome_iff {typeByte : UInt8} {bytes : List UInt8}
    (hfield : AddressField typeByte bytes) :
    (SocksAddr.ofField typeByte bytes).isSome ↔
      (typeByte = 0x03 → (fromUtf8 bytes.tail).isSome) := by
  cases hfield <;> simp [SocksAddr.ofField]

theorem supported_whole_iff {typeByte : UInt8} {bytes : List UInt8}
    (hfield : AddressField typeByte bytes) (version command reserved hi lo : UInt8)
    (rest : List UInt8) :
    Supported ([version, command, reserved, typeByte] ++ bytes ++ [hi, lo] ++ rest) ↔
      (readCommand command).isSome ∧ (SocksAddr.ofField typeByte bytes).isSome := by
  have hlen := hfield.requestLen version command reserved hi lo rest
  have hcomplete :
      Complete ([version, command, reserved, typeByte] ++ bytes ++ [hi, lo] ++ rest) := by
    refine ⟨_, hlen, ?_⟩
    simp only [List.length_append, List.length_cons, List.length_nil]
    omega
  rw [readCommand_isSome_iff, ofField_isSome_iff hfield]
  constructor
  · intro hsupported
    refine ⟨by simpa using hsupported.command hcomplete, fun htype => ?_⟩
    cases hfield with
    | ipv4 hlength => simp at htype
    | domain hlength =>
        have hname := hsupported.domain hcomplete rfl _ rfl
        simpa [← hlength] using hname
    | ipv6 hlength => simp at htype
  · rintro ⟨hcommand, hname⟩
    refine ⟨fun _ => ?_, fun _ => by simpa using hcommand, fun _ htype domainLen hdomain => ?_⟩
    · cases hfield <;> simp
    · cases hfield with
      | ipv4 hlength => simp at htype
      | domain hlength =>
          obtain rfl : _ = domainLen := by simpa using hdomain
          simpa [← hlength] using hname rfl
      | ipv6 hlength => simp at htype

/-- The decoder panics on exactly those waiting requests that are not supported. -/
theorem decodeTargetRequest_panic_iff (src : List UInt8) :
    (decodeTargetRequest src).1 = .panic ↔ ¬ Supported src := by
  rcases request_cases src with hshort | ⟨hfive, hnone⟩ | ⟨hfive, len, hlen, hshort⟩ |
    ⟨version, command, reserved, typeByte, bytes, hi, lo, rest, hfield, rfl⟩
  · have hcomplete : ¬ Complete src := by
      rintro ⟨len, hlen, hle⟩
      have hseven := seven_le_requestLen hlen
      omega
    have hsupported : Supported src := by
      refine ⟨fun hfive => absurd hfive (by omega), fun hwhole => absurd hwhole hcomplete,
        fun hwhole => absurd hwhole hcomplete⟩
    simp [decodeTargetRequest, hshort, hsupported]
  · have hunsupported : ¬ Supported src := fun hsupported =>
      (requestLen_eq_none_iff hfive).mp hnone (hsupported.requestType hfive)
    simp [decodeTargetRequest, hnone, Nat.not_lt.mpr hfive, hunsupported]
  · have hcomplete : ¬ Complete src := by
      rintro ⟨len', hlen', hle⟩
      rw [hlen] at hlen'
      cases hlen'
      omega
    have htype : ¬ requestLen src = none := by simp [hlen]
    have hsupported : Supported src := by
      refine ⟨fun _ => ?_, fun hwhole => absurd hwhole hcomplete,
        fun hwhole => absurd hwhole hcomplete⟩
      exact not_not.mp (mt (requestLen_eq_none_iff hfive).mpr htype)
    simp [decodeTargetRequest, hlen, Nat.not_lt.mpr hfive, hshort, hsupported]
  · rw [supported_whole_iff hfield, decodeTargetRequest_whole hfield]
    cases readCommand command <;> cases SocksAddr.ofField typeByte bytes <;> simp

/-- No other state can panic. -/
theorem decode_panic_iff (state : Socks5RequestCodecState) (src : List UInt8) :
    (decode state src).1 = .panic ↔ state = .working ∧ ¬ Supported src := by
  cases state with
  | negotiation =>
      rcases src with _ | ⟨version, _ | ⟨nMethods, rest⟩⟩
      · simp [decode, decodeMethodSelection_short]
      · simp [decode, decodeMethodSelection_short]
      · simp only [decode, decodeMethodSelection_cons]
        split <;> simp
  | working => simp [decode, decodeTargetRequest_panic_iff]
  | ready =>
      simp only [decode, decodeData]
      split <;> simp

/-- Malformed input. The reading loop never stops by a panic exactly when every
waiting request that the decoder is called with is supported. -/
theorem not_panicked_iff (state : Socks5RequestCodecState) (buffer : List UInt8)
    (chunks : List (List UInt8)) :
    (decoder.feedAll (.reading state buffer) chunks).2 ≠ .panicked ↔
      ∀ call ∈ decoder.calls (.reading state buffer) chunks,
        call.1 = .working → Supported call.2 := by
  have hcall (call : Socks5RequestCodecState × List UInt8) :
      (decoder.decode call.1 call.2).1 = .panic ↔ call.1 = .working ∧ ¬ Supported call.2 :=
    decode_panic_iff call.1 call.2
  rw [Ne, Decoder.feedAll_panicked_iff]
  constructor
  · intro hnever call hmem hworking
    by_contra hunsupported
    exact hnever (.inr ⟨call, hmem, (hcall call).mpr ⟨hworking, hunsupported⟩⟩)
  · rintro hsupported (hstage | ⟨call, hmem, hpanic⟩)
    · cases hstage
    · obtain ⟨hworking, hunsupported⟩ := (hcall call).mp hpanic
      exact hunsupported (hsupported call hmem hworking)

/-- A request with an unknown address type. -/
theorem unknown_requestType_panics :
    (decoder.feedAll (.reading .negotiation []) [[5, 1, 0], [5, 1, 0, 2, 0]]).2 = .panicked := by
  decide

/-! ## Accepted requests -/

/-- Everything a decoded request tells of its bytes, and the two bytes it does
not tell. -/
theorem decodeTargetRequest_accepts {src rest : List UInt8} {request : TargetRequest}
    (hdecode : decodeTargetRequest src = (.item (.targetRequest request), rest)) :
    ∃ version reserved hi lo,
      src = [version, request.command.toU8, reserved, request.address.typeByte] ++
        request.address.field ++ [hi, lo] ++ rest ∧
      request.version = 5 ∧ request.reserved = 0 ∧
      request.requestType = request.address.requestType ∧ request.port = portOf hi lo := by
  rcases request_cases src with hshort | ⟨hfive, hnone⟩ | ⟨hfive, len, hlen, hshort⟩ |
    ⟨version, command, reserved, typeByte, bytes, hi, lo, behind, hfield, rfl⟩
  · simp [decodeTargetRequest, hshort] at hdecode
  · simp [decodeTargetRequest, hnone, Nat.not_lt.mpr hfive] at hdecode
  · simp [decodeTargetRequest, hlen, Nat.not_lt.mpr hfive, hshort] at hdecode
  · rw [decodeTargetRequest_whole hfield] at hdecode
    cases hcommand : readCommand command with
    | none => simp [hcommand] at hdecode
    | some typedCommand =>
        cases haddress : SocksAddr.ofField typeByte bytes with
        | none => simp [hcommand, haddress] at hdecode
        | some address =>
            rw [hcommand, haddress] at hdecode
            cases hdecode
            obtain ⟨htype, hbytes⟩ := hfield.eq_field haddress
            refine ⟨version, reserved, hi, lo, ?_, rfl, rfl, rfl, rfl⟩
            rw [toU8_of_readCommand hcommand, htype, hbytes]

theorem SocksAddr.toU8_requestType (address : SocksAddr) :
    address.requestType.toU8 = address.typeByte := by
  cases address <;> rfl

/-- Exact decoding. Writing an accepted request back gives the bytes that were
removed for it, in front of the rest, exactly when the version byte was 5 and
the reserved byte was 0. -/
theorem decodeTargetRequest_layout_iff {src rest : List UInt8} {request : TargetRequest}
    (hdecode : decodeTargetRequest src = (.item (.targetRequest request), rest)) :
    src = request.layout ++ rest ↔ src[0]? = some 5 ∧ src[2]? = some 0 := by
  obtain ⟨version, reserved, hi, lo, rfl, hversion, hreserved, htype, hport⟩ :=
    decodeTargetRequest_accepts hdecode
  have hlayout : request.layout = [5, request.command.toU8, 0, request.address.typeByte] ++
      request.address.field ++ [hi, lo] := by
    rw [TargetRequest.layout, hversion, hreserved, htype, SocksAddr.toU8_requestType, hport,
      beBytes_portOf]
  rw [hlayout]
  simp

theorem decodeTargetRequest_layout_iff_loopback :
    [5, 1, 0, 1, 127, 0, 0, 1, 0, 80, 71] =
        (⟨5, .connect, 0, .ipV4, .ipv4 ⟨0x7f000001⟩, 80⟩ : TargetRequest).layout ++ [71] ↔
      ([5, 1, 0, 1, 127, 0, 0, 1, 0, 80, 71] : List UInt8)[0]? = some 5 ∧
        ([5, 1, 0, 1, 127, 0, 0, 1, 0, 80, 71] : List UInt8)[2]? = some 0 :=
  decodeTargetRequest_layout_iff (by decide)

/-- A version 4 packet with a reserved byte is decoded to the same request as a
version 5 packet without. -/
theorem other_version_not_written_back :
    ∃ request,
      decodeTargetRequest [4, 1, 7, 1, 127, 0, 0, 1, 0, 80] =
        (.item (.targetRequest request), []) ∧
      decodeTargetRequest [5, 1, 0, 1, 127, 0, 0, 1, 0, 80] =
        (.item (.targetRequest request), []) ∧
      [4, 1, 7, 1, 127, 0, 0, 1, 0, 80] ≠ request.layout ++ [] :=
  ⟨⟨5, .connect, 0, .ipV4, .ipv4 ⟨0x7f000001⟩, 80⟩, by decide, by decide, by decide⟩

end Socks5RequestCodec

/-! ## The requested port -/

theorem TargetRequest.toAddressString_eq (request : TargetRequest) :
    request.toAddressString = request.address.text ++ ":" ++ toString request.port.toInt := by
  cases haddress : request.address <;>
    simp [toAddressString, haddress, SocksAddr.text, toString]

/-- The decoder reads a signed port. -/
theorem toInt_portOf_eq_iff (hi lo : UInt8) :
    (portOf hi lo).toInt = (256 * hi.toNat + lo.toNat : Nat) ↔ hi < 128 := by
  have hhi := hi.toNat_lt
  have hlo := lo.toNat_lt
  have hvalue : (portOf hi lo).toBitVec.toNat = 256 * hi.toNat + lo.toNat := by
    have hbytes : beNat [hi, lo] = 256 * hi.toNat + lo.toNat := by
      simp only [beNat, List.length_cons, List.length_nil]
      omega
    rw [portOf, UInt16.toBitVec_toInt16, UInt16.toNat_toBitVec, UInt16.toNat_ofNat', hbytes,
      Nat.mod_eq_of_lt (by omega)]
  rw [← Int16.toInt_toBitVec, BitVec.toInt_eq_toNat_cond, hvalue, UInt8.lt_iff_toNat_lt]
  change _ ↔ hi.toNat < 128
  split <;> omega

/-- Port fidelity. The text that a session asks for ends with the decimal text
of the two port bytes exactly when the number they make is not taken for a
negative one. -/
theorem requestAddr_port_iff (self : SocksClient) (now : Nat) {front rest : List UInt8}
    {hi lo : UInt8} {request : TargetRequest}
    (hdecode : Socks5RequestCodec.decodeTargetRequest (front ++ [hi, lo] ++ rest) =
      (.item (.targetRequest request), rest)) :
    (self.handleSocksRequest (.targetRequest request) now).2 =
        .doSend (.new self.uuid (.requestAddr
          (request.address.text ++ ":" ++ toString (256 * hi.toNat + lo.toNat)))) ↔
      hi < 128 := by
  obtain ⟨version, reserved, hi', lo', hsrc, -, -, -, hport⟩ :=
    Socks5RequestCodec.decodeTargetRequest_accepts hdecode
  obtain ⟨rfl, rfl⟩ : hi = hi' ∧ lo = lo' := by
    have hpacket := List.append_cancel_right hsrc
    simpa using (List.append_inj' hpacket rfl).2
  rw [← toInt_portOf_eq_iff, ← hport, ← toString_int_eq_iff]
  constructor
  · intro hsend
    have htransfer := congrArg ProxyRequest.request (SocksEffect.doSend.inj hsend)
    have htext := ProxyTransfer.requestAddr.inj htransfer
    rw [request.toAddressString_eq] at htext
    have hchars := congrArg String.toList htext
    simp only [String.toList_append] at hchars
    exact String.toList_injective (List.append_cancel_left hchars)
  · intro htext
    rw [SocksClient.handleSocksRequest, request.toAddressString_eq, htext]

/-- Port 80 of 127.0.0.1. -/
theorem requestAddr_port_iff_loopback :
    ((SocksClient.new 5000).handleSocksRequest
        (.targetRequest ⟨5, .connect, 0, .ipV4, .ipv4 ⟨0x7f000001⟩, 80⟩) 0).2 =
        .doSend (.new 5000 (.requestAddr ((SocksAddr.ipv4 ⟨0x7f000001⟩).text ++ ":" ++
          toString (256 * (0 : UInt8).toNat + (80 : UInt8).toNat)))) ↔
      (0 : UInt8) < 128 :=
  have hdecode : Socks5RequestCodec.decodeTargetRequest
      ([5, 1, 0, 1, 127, 0, 0, 1] ++ [0, 80] ++ []) =
        (.item (.targetRequest ⟨5, .connect, 0, .ipV4, .ipv4 ⟨0x7f000001⟩, 80⟩), []) := by decide
  requestAddr_port_iff (SocksClient.new 5000) 0 hdecode

/-- Port 32768 of 127.0.0.1 is asked for as port -32768. -/
theorem high_port_negative :
    ∃ request,
      Socks5RequestCodec.decodeTargetRequest [5, 1, 0, 1, 127, 0, 0, 1, 128, 0] =
        (.item (.targetRequest request), []) ∧
      ((SocksClient.new 5000).handleSocksRequest (.targetRequest request) 0).2 ≠
        .doSend (.new 5000 (.requestAddr (request.address.text ++ ":" ++
          toString (256 * (128 : UInt8).toNat + (0 : UInt8).toNat)))) := by
  refine ⟨⟨5, .connect, 0, .ipV4, .ipv4 ⟨0x7f000001⟩, -32768⟩, by decide, ?_⟩
  decide

end JustProxy
