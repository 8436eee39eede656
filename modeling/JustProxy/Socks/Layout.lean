import JustProxy.Socks.Codec

/-! # The layout of requests and replies

Four bytes, the last of which is the type of an address, then the address and a
port. The address has the length that its type announces; a domain announces its
own length first.
-/

namespace JustProxy

open Bytes StreamDecoder Socks5RequestCodec

def SocksRequestCommand.toU8 : SocksRequestCommand → UInt8
  | .connect => 0x01
  | .bind => 0x02
  | .udpAssociate => 0x03

namespace SocksAddr

def requestType : SocksAddr → SocksRequestType
  | .ipv4 _ => .ipV4
  | .ipv6 _ => .ipV6
  | .domain _ => .domain

def typeByte : SocksAddr → UInt8
  | .ipv4 _ => 0x01
  | .ipv6 _ => 0x04
  | .domain _ => 0x03

/-- The address field of a request; a domain is preceded by its length. -/
def field : SocksAddr → List UInt8
  | .ipv4 address => address.octets
  | .ipv6 address => address.octets
  | .domain name => UInt8.ofNat (utf8 name).length :: utf8 name

/-- The address with the given type byte and field, unless it is a domain that
is not UTF-8. -/
def ofField (typeByte : UInt8) (bytes : List UInt8) : Option SocksAddr :=
  if typeByte = 0x01 then some (.ipv4 ⟨UInt32.ofNat (beNat bytes)⟩)
  else if typeByte = 0x04 then some (.ipv6 ⟨BitVec.ofNat 128 (beNat bytes)⟩)
  else (fromUtf8 bytes.tail).map .domain

end SocksAddr

/-- A field has the length that its type byte announces. -/
inductive AddressField : UInt8 → List UInt8 → Prop where
  | ipv4 {octets : List UInt8} (hlength : octets.length = 4) : AddressField 0x01 octets
  | domain {domainLen : UInt8} {name : List UInt8} (hlength : name.length = domainLen.toNat) :
      AddressField 0x03 (domainLen :: name)
  | ipv6 {octets : List UInt8} (hlength : octets.length = 16) : AddressField 0x04 octets

/-- The port of two bytes, as the decoder reads it. -/
def portOf (hi lo : UInt8) : Int16 := (UInt16.ofNat (beNat [hi, lo])).toInt16

/-! ## Fields -/

theorem ofNat_beNat_octets4 {octets : List UInt8} (hlength : octets.length = 4) :
    Ipv4Addr.octets ⟨UInt32.ofNat (beNat octets)⟩ = octets := by
  have hbound : beNat octets < 2 ^ 32 := by
    have hlt := beNat_lt octets
    rwa [hlength] at hlt
  have hvalue : (UInt32.ofNat (beNat octets)).toNat = beNat octets := by
    rw [UInt32.toNat_ofNat', Nat.mod_eq_of_lt hbound]
  rw [Ipv4Addr.octets, hvalue, ← hlength, beBytes_beNat]

theorem ofNat_beNat_octets16 {octets : List UInt8} (hlength : octets.length = 16) :
    Ipv6Addr.octets ⟨BitVec.ofNat 128 (beNat octets)⟩ = octets := by
  have hbound : beNat octets < 2 ^ 128 := by
    have hlt := beNat_lt octets
    rwa [hlength] at hlt
  have hvalue : (BitVec.ofNat 128 (beNat octets)).toNat = beNat octets := by
    rw [BitVec.toNat_ofNat, Nat.mod_eq_of_lt hbound]
  rw [Ipv6Addr.octets, hvalue, ← hlength, beBytes_beNat]

/-- An address is read from no other field than its own. -/
theorem AddressField.eq_field {typeByte : UInt8} {bytes : List UInt8} {address : SocksAddr}
    (hfield : AddressField typeByte bytes)
    (haddress : SocksAddr.ofField typeByte bytes = some address) :
    typeByte = address.typeByte ∧ bytes = address.field := by
  cases hfield with
  | ipv4 hlength =>
      cases haddress
      exact ⟨rfl, (ofNat_beNat_octets4 hlength).symm⟩
  | domain hlength =>
      obtain ⟨text, htext, rfl⟩ := Option.map_eq_some_iff.mp haddress
      rw [List.tail_cons] at htext
      rw [SocksAddr.field, utf8_of_fromUtf8 htext, hlength, UInt8.ofNat_toNat]
      exact ⟨rfl, rfl⟩
  | ipv6 hlength =>
      cases haddress
      exact ⟨rfl, (ofNat_beNat_octets16 hlength).symm⟩

/-- Every address has a field, except a domain that its length byte cannot count. -/
theorem SocksAddr.addressField (address : SocksAddr)
    (hshort : ∀ name, address = .domain name → (utf8 name).length ≤ 255) :
    AddressField address.typeByte address.field := by
  cases address with
  | ipv4 address => exact .ipv4 address.length_octets
  | ipv6 address => exact .ipv6 address.length_octets
  | domain name =>
      refine .domain ?_
      have hname := hshort name rfl
      rw [UInt8.toNat_ofNat', Nat.mod_eq_of_lt (by omega)]

@[simp] theorem SocksAddr.ofField_field (address : SocksAddr) :
    ofField address.typeByte address.field = some address := by
  cases address <;> simp [ofField, typeByte, field]

/-! ## Ports -/

theorem portOf_toUInt16 (port : Int16) :
    ∃ hi lo, beBytes 2 port.toUInt16.toNat = [hi, lo] ∧ portOf hi lo = port := by
  refine ⟨_, _, rfl, ?_⟩
  change (UInt16.ofNat (beNat (beBytes 2 port.toUInt16.toNat))).toInt16 = port
  rw [beNat_beBytes_uint16, UInt16.ofNat_toNat]
  rfl

theorem beBytes_portOf (hi lo : UInt8) : beBytes 2 (portOf hi lo).toUInt16.toNat = [hi, lo] := by
  have hbound : beNat [hi, lo] < 2 ^ 16 := by simpa using beNat_lt [hi, lo]
  rw [portOf, UInt16.toUInt16_toInt16, UInt16.toNat_ofNat', Nat.mod_eq_of_lt hbound]
  exact beBytes_beNat [hi, lo]

theorem readI16_append (before : List UInt8) (hi lo : UInt8) :
    readI16 (before ++ [hi, lo]) before.length = some (portOf hi lo) := by
  have hslice := slice_append before [hi, lo] []
  rw [List.append_nil] at hslice
  rw [readI16, show before.length + 2 = before.length + [hi, lo].length from rfl, hslice]
  rfl

/-! ## Whole packets -/

/-- The length of a request is settled by its first five bytes. -/
theorem requestLen_eq_of_front {front src : List UInt8} (hfront : front <+: src)
    (hlong : 5 ≤ front.length) : Socks5RequestCodec.requestLen front =
      Socks5RequestCodec.requestLen src := by
  obtain ⟨rest, rfl⟩ := hfront
  have hthree : (front ++ rest)[3]? = front[3]? := List.getElem?_append_left (by omega)
  have hfour : (front ++ rest)[4]? = front[4]? := List.getElem?_append_left (by omega)
  simp only [Socks5RequestCodec.requestLen, hthree, hfour]

theorem seven_le_requestLen {src : List UInt8} {len : Nat}
    (hlen : Socks5RequestCodec.requestLen src = some len) : 7 ≤ len := by
  simp only [Socks5RequestCodec.requestLen, Option.bind_eq_bind, Option.bind_eq_some_iff] at hlen
  obtain ⟨typeByte, -, hlen⟩ := hlen
  split at hlen
  · cases hlen
    decide
  split at hlen
  · obtain ⟨domainLen, -, hlen⟩ := Option.bind_eq_some_iff.mp hlen
    cases hlen
    exact Nat.le_add_right 7 _
  split at hlen
  · cases hlen
    decide
  · cases hlen

/-- Bytes behind a request that is as long as it announces do not change its length. -/
theorem requestLen_append {packet : List UInt8}
    (hlen : Socks5RequestCodec.requestLen packet = some packet.length) (rest : List UInt8) :
    Socks5RequestCodec.requestLen (packet ++ rest) = some packet.length := by
  have hseven := seven_le_requestLen hlen
  rw [← requestLen_eq_of_front (List.prefix_append packet rest) (by omega), hlen]

/-- A request that is cut off at the length it announces still announces it. -/
theorem requestLen_of_append {packet rest : List UInt8}
    (hlen : Socks5RequestCodec.requestLen (packet ++ rest) = some packet.length) :
    Socks5RequestCodec.requestLen packet = some packet.length := by
  have hseven := seven_le_requestLen hlen
  rw [requestLen_eq_of_front (List.prefix_append packet rest) (by omega), hlen]

/-- The length of a packet is the one its type byte announces. -/
theorem AddressField.requestLen {typeByte : UInt8} {bytes : List UInt8}
    (hfield : AddressField typeByte bytes) (first second third hi lo : UInt8)
    (rest : List UInt8) :
    requestLen ([first, second, third, typeByte] ++ bytes ++ [hi, lo] ++ rest) =
      some (6 + bytes.length) := by
  cases hfield with
  | ipv4 hlength => simp [Socks5RequestCodec.requestLen, hlength]
  | domain hlength =>
      simp [Socks5RequestCodec.requestLen, hlength]
      omega
  | ipv6 hlength => simp [Socks5RequestCodec.requestLen, hlength]

/-- Address and port are read back from a packet that has them. -/
theorem AddressField.readTarget {typeByte : UInt8} {bytes : List UInt8}
    (hfield : AddressField typeByte bytes) {front : List UInt8} (hfront : front.length = 4)
    (hi lo : UInt8) :
    readTarget typeByte (front ++ bytes ++ [hi, lo]) =
      (SocksAddr.ofField typeByte bytes).map fun address =>
        (address.requestType, address, portOf hi lo) := by
  have hslice := slice_append front bytes [hi, lo]
  have hport := readI16_append (front ++ bytes) hi lo
  rw [List.length_append, hfront] at hport
  rw [hfront] at hslice
  cases hfield with
  | ipv4 hlength =>
      rw [hlength] at hslice hport
      simp only [Socks5RequestCodec.readTarget, hslice, hport]
      rfl
  | domain hlength =>
      rename_i domainLen name
      have hlen : (front ++ domainLen :: name ++ [hi, lo])[4]? = some domainLen := by
        rw [List.append_assoc, List.getElem?_append_right (by omega), hfront]
        rfl
      have hname : slice (front ++ domainLen :: name ++ [hi, lo]) 5 (5 + domainLen.toNat) =
          some name := by
        have hcut := slice_append (front ++ [domainLen]) name [hi, lo]
        rw [List.length_append, hfront, hlength] at hcut
        simpa using hcut
      have hstop : 4 + (domainLen :: name).length = 5 + domainLen.toNat := by
        rw [List.length_cons, hlength]
        omega
      rw [hstop] at hport
      have htype : (0x03 : UInt8) ≠ 0x01 := by decide
      simp only [Socks5RequestCodec.readTarget, if_neg htype, if_true, Option.bind_eq_bind, hlen,
        Option.bind_some, hname, hport]
      cases htext : fromUtf8 name <;> simp [SocksAddr.ofField, htext, SocksAddr.requestType]
  | ipv6 hlength =>
      rw [hlength] at hslice hport
      simp only [Socks5RequestCodec.readTarget, hslice, hport]
      rfl

/-- What the decoder reads from a whole packet. -/
theorem AddressField.readTargetRequest {typeByte : UInt8} {bytes : List UInt8}
    (hfield : AddressField typeByte bytes) (version command reserved hi lo : UInt8) :
    readTargetRequest ([version, command, reserved, typeByte] ++ bytes ++ [hi, lo]) =
      (readCommand command).bind fun typedCommand =>
        (SocksAddr.ofField typeByte bytes).map fun address =>
          ⟨5, typedCommand, 0, address.requestType, address, portOf hi lo⟩ := by
  have hfront : [version, command, reserved, typeByte].length = 4 := rfl
  have htarget := hfield.readTarget hfront hi lo
  simp only [Socks5RequestCodec.readTargetRequest, List.cons_append, List.nil_append,
    List.getElem?_cons_zero, List.getElem?_cons_succ, Option.bind_eq_bind,
    Option.bind_some] at htarget ⊢
  rw [htarget]
  cases readCommand command <;> cases SocksAddr.ofField typeByte bytes <;> rfl

/-- A packet of the length it announces is laid out as it announces. -/
theorem exists_addressField {packet : List UInt8}
    (hlen : Socks5RequestCodec.requestLen packet = some packet.length) :
    ∃ version command reserved typeByte bytes hi lo, AddressField typeByte bytes ∧
      packet = [version, command, reserved, typeByte] ++ bytes ++ [hi, lo] := by
  rcases packet with _ | ⟨version, _ | ⟨command, _ | ⟨reserved, _ | ⟨typeByte, tail⟩⟩⟩⟩
  iterate 4 · simp [Socks5RequestCodec.requestLen] at hlen
  refine ⟨version, command, reserved, typeByte, ?_⟩
  by_cases hipv4 : typeByte = 0x01
  · subst hipv4
    obtain ⟨octets, hi, lo, rfl, hlength⟩ : ∃ before hi lo, tail = before ++ [hi, lo] ∧
        before.length = 4 := by
      apply exists_append_two
      simp [Socks5RequestCodec.requestLen] at hlen
      omega
    exact ⟨octets, hi, lo, .ipv4 hlength, rfl⟩
  by_cases hdomain : typeByte = 0x03
  · subst hdomain
    cases tail with
    | nil => simp [Socks5RequestCodec.requestLen] at hlen
    | cons domainLen tail =>
        obtain ⟨name, hi, lo, rfl, hlength⟩ : ∃ before hi lo, tail = before ++ [hi, lo] ∧
            before.length = domainLen.toNat := by
          apply exists_append_two
          simp [Socks5RequestCodec.requestLen] at hlen
          omega
        exact ⟨domainLen :: name, hi, lo, .domain hlength, rfl⟩
  by_cases hipv6 : typeByte = 0x04
  · subst hipv6
    obtain ⟨octets, hi, lo, rfl, hlength⟩ : ∃ before hi lo, tail = before ++ [hi, lo] ∧
        before.length = 16 := by
      apply exists_append_two
      simp [Socks5RequestCodec.requestLen] at hlen
      omega
    exact ⟨octets, hi, lo, .ipv6 hlength, rfl⟩
  · simp [Socks5RequestCodec.requestLen, hipv4, hdomain, hipv6] at hlen

end JustProxy
