import JustProxy.Foundation.Bytes

/-! # SOCKS messages

What a SOCKS application sends and is answered, and the text of the address a
session asks the tunnel for.
-/

namespace JustProxy

open Bytes

/-! ## Addresses -/

structure Ipv4Addr where
  bits : UInt32
  deriving DecidableEq, Repr

structure Ipv6Addr where
  bits : BitVec 128
  deriving DecidableEq, Repr

def Ipv4Addr.octets (address : Ipv4Addr) : List UInt8 := beBytes 4 address.bits.toNat

def Ipv6Addr.octets (address : Ipv6Addr) : List UInt8 := beBytes 16 address.bits.toNat

@[simp] theorem Ipv4Addr.length_octets (address : Ipv4Addr) : address.octets.length = 4 :=
  length_beBytes 4 _

@[simp] theorem Ipv6Addr.length_octets (address : Ipv6Addr) : address.octets.length = 16 :=
  length_beBytes 16 _

/-- `Ipv4Addr::from` undoes `octets`. -/
@[simp] theorem Ipv4Addr.ofNat_octets (address : Ipv4Addr) :
    UInt32.ofNat (beNat address.octets) = address.bits := by
  rw [octets, beNat_beBytes_uint32, UInt32.ofNat_toNat]

@[simp] theorem Ipv6Addr.ofNat_octets (address : Ipv6Addr) :
    BitVec.ofNat 128 (beNat address.octets) = address.bits := by
  rw [octets, beNat_beBytes_of_lt address.bits.isLt, BitVec.ofNat_toNat, BitVec.setWidth_eq]

/-- The dotted text of four bytes. -/
def dotted (octets : List UInt8) : String :=
  String.intercalate "." (octets.map fun octet => toString octet.toNat)

def Ipv4Addr.toString (address : Ipv4Addr) : String := dotted address.octets

/-- The eight 16-bit groups of an address, first group first. -/
def Ipv6Addr.segments (address : Ipv6Addr) : List Nat :=
  (List.range 8).map fun index => address.bits.toNat / 65536 ^ (7 - index) % 65536

/-- Start and length of the first longest run of zero groups. `run` is the run
that ends before `index`, `best` the longest one so far. -/
def findZeroSlice : List Nat → Nat → Nat × Nat → Nat × Nat → Nat × Nat
  | [], _, _, best => best
  | segment :: rest, index, run, best =>
      if segment = 0 then
        let run := if run.2 = 0 then (index, 1) else (run.1, run.2 + 1)
        findZeroSlice rest (index + 1) run (if best.2 < run.2 then run else best)
      else findZeroSlice rest (index + 1) (0, 0) best

def fmtSubslice (segments : List Nat) : String :=
  String.intercalate ":" (segments.map fun segment => String.ofList (Nat.toDigits 16 segment))

/-- The standard library's text of an IPv6 address: addresses that embed an
IPv4 address are written with its dotted text, otherwise the first longest run
of at least two zero groups is left out. -/
def Ipv6Addr.toString (address : Ipv6Addr) : String :=
  let segments := address.segments
  match segments with
  | [0, 0, 0, 0, 0, 0, 0, 0] => "::"
  | [0, 0, 0, 0, 0, 0, 0, 1] => "::1"
  | [0, 0, 0, 0, 0, 0, _, _] => "::" ++ dotted (address.octets.drop 12)
  | [0, 0, 0, 0, 0, 0xffff, _, _] => "::ffff:" ++ dotted (address.octets.drop 12)
  | _ =>
      let (zerosAt, zerosLen) := findZeroSlice segments 0 (0, 0) (0, 0)
      if 1 < zerosLen then
        fmtSubslice (segments.take zerosAt) ++ "::" ++
          fmtSubslice (segments.drop (zerosAt + zerosLen))
      else fmtSubslice segments

inductive SocksAddr where
  | ipv4 (address : Ipv4Addr)
  | ipv6 (address : Ipv6Addr)
  | domain (name : String)
  deriving DecidableEq, Repr

/-! ## Requests -/

inductive SocksRequestCommand where
  | connect
  | bind
  | udpAssociate
  deriving DecidableEq, Repr

inductive SocksRequestType where
  | ipV4
  | domain
  | ipV6
  deriving DecidableEq, Repr

structure MethodSelectionRequest where
  version : UInt8
  nMethods : UInt8
  methods : List UInt8
  deriving DecidableEq, Repr

structure TargetRequest where
  version : UInt8
  command : SocksRequestCommand
  reserved : UInt8
  requestType : SocksRequestType
  address : SocksAddr
  port : Int16
  deriving DecidableEq

inductive SocksRequest where
  | negotiation (request : MethodSelectionRequest)
  | targetRequest (request : TargetRequest)
  | data (bytes : List UInt8)
  deriving DecidableEq

def TargetRequest.toAddressString (request : TargetRequest) : String :=
  let host := match request.address with
    | .domain name => name
    | .ipv6 address => address.toString
    | .ipv4 address => address.toString
  s!"{host}:{request.port.toInt}"

/-! ## Replies -/

structure MethodSelectionResponse where
  version : UInt8
  method : UInt8
  deriving DecidableEq, Repr

inductive TargetResponseType where
  | succeeded
  | generalFailure
  | notAllowedByRuleset
  | networkUnreachable
  | hostUnreachable
  | connectionRefused
  | ttlExpired
  | commandNotSupported
  | addressTypeNotSupported
  | unassigned
  deriving DecidableEq, Repr

structure TargetResponse where
  version : UInt8
  response : TargetResponseType
  reserved : UInt8
  responseType : SocksRequestType
  address : SocksAddr
  port : Int16
  deriving DecidableEq

inductive SocksResponse where
  | negotiation (response : MethodSelectionResponse)
  | targetResponse (response : TargetResponse)
  | data (bytes : List UInt8)
  deriving DecidableEq

end JustProxy
