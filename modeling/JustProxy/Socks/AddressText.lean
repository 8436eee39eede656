import JustProxy.Foundation.Text
import JustProxy.Socks.Message

/-! # Addresses read from text

How the standard library reads an address and a port: four octets, or the groups
of an IPv6 address in brackets, with a colon before the port. The whole text must
be used up.
-/

namespace JustProxy

open Bytes Text

inductive IpAddr where
  | v4 (address : Ipv4Addr)
  | v6 (address : Ipv6Addr)
  deriving DecidableEq

inductive SocketAddr where
  | v4 (ip : Ipv4Addr) (port : UInt16)
  | v6 (ip : Ipv6Addr) (port : UInt16) (scopeId : UInt32)
  deriving DecidableEq

def SocketAddr.ip : SocketAddr → IpAddr
  | .v4 ip _ => .v4 ip
  | .v6 ip _ _ => .v6 ip

/-! ## Numbers -/

/-- `char::to_digit` -/
def toDigit (radix : Nat) (c : Char) : Option Nat :=
  let value :=
    if '0' ≤ c ∧ c ≤ '9' then some (c.toNat - 48)
    else if 'a' ≤ c ∧ c ≤ 'z' then some (c.toNat - 87)
    else if 'A' ≤ c ∧ c ≤ 'Z' then some (c.toNat - 55)
    else none
  value.filter (· < radix)

/-- A number below `limit`, of at least one and at most `maxDigits` digits. -/
def readNumber (radix limit : Nat) (maxDigits : Option Nat) (allowZeroPrefix : Bool)
    (text : List Char) : Option Nat :=
  if text = [] ∨ maxDigits.any (· < text.length) then none
  else if allowZeroPrefix = false ∧ text.head? = some '0' ∧ 1 < text.length then none
  else
    ((text.mapM (toDigit radix)).map fun digits =>
      digits.foldl (fun value digit => value * radix + digit) 0).filter (· < limit)

def readOctet (text : List Char) : Option UInt8 :=
  (readNumber 10 256 (some 3) false text).map UInt8.ofNat

def readGroup (text : List Char) : Option Nat := readNumber 16 65536 (some 4) true text

def readPort (text : List Char) : Option UInt16 :=
  (readNumber 10 65536 none true text).map UInt16.ofNat

/-! ## Addresses -/

def readIpv4Addr (text : List Char) : Option Ipv4Addr :=
  match text.splitOn '.' with
  | [first, second, third, fourth] => do
      let octets ← [first, second, third, fourth].mapM readOctet
      return ⟨UInt32.ofNat (beNat octets)⟩
  | _ => none

/-- The groups of an address or of its end. In the place of the last two groups
may stand an IPv4 address. -/
def readGroups : List (List Char) → Option (List Nat)
  | [] => some []
  | [last] =>
      match readIpv4Addr last with
      | some ipv4 => some [ipv4.bits.toNat / 65536, ipv4.bits.toNat % 65536]
      | none => (readGroup last).map fun group => [group]
  | group :: rest => do
      let group ← readGroup group
      let groups ← readGroups rest
      return group :: groups

/-- The text before and behind the first double colon. -/
def cutDoubleColon : List Char → Option (List Char × List Char)
  | ':' :: ':' :: rest => some ([], rest)
  | c :: rest => (cutDoubleColon rest).map fun (before, behind) => (c :: before, behind)
  | [] => none

/-- The parts between single colons. An empty text has none. -/
def groupTexts (text : List Char) : List (List Char) :=
  if text = [] then [] else text.splitOn ':'

/-- A double colon stands for at least one zero group. -/
def readIpv6Groups (text : List Char) : Option (List Nat) :=
  match cutDoubleColon text with
  | none => (readGroups (groupTexts text)).filter fun groups => groups.length = 8
  | some (before, behind) => do
      let head ← (groupTexts before).mapM readGroup
      let tail ← readGroups (groupTexts behind)
      if head.length + tail.length ≤ 7 then
        return head ++ List.replicate (8 - head.length - tail.length) 0 ++ tail
      else none

def readIpv6Addr (text : List Char) : Option Ipv6Addr :=
  (readIpv6Groups text).map fun groups =>
    ⟨BitVec.ofNat 128 (groups.foldl (fun value group => value * 65536 + group) 0)⟩

/-! ## Socket addresses -/

def readSocketAddrV4 (text : List Char) : Option SocketAddr :=
  match text.splitOn ':' with
  | [ip, port] => do
      let ip ← readIpv4Addr ip
      let port ← readPort port
      return .v4 ip port
  | _ => none

/-- The address between the brackets may be followed by a scope. -/
def readSocketAddrV6 (text : List Char) : Option SocketAddr :=
  match text with
  | '[' :: rest =>
      match rest.splitOn ']' with
      | [inside, ':' :: port] =>
          match inside.splitOn '%' with
          | [ip] => do
              let ip ← readIpv6Addr ip
              let port ← readPort port
              return .v6 ip port 0
          | [ip, scopeId] => do
              let ip ← readIpv6Addr ip
              let scopeId ← readNumber 10 (2 ^ 32) none true scopeId
              let port ← readPort port
              return .v6 ip port (UInt32.ofNat scopeId)
          | _ => none
      | _ => none
  | _ => none

/-- `SocketAddr::from_str` -/
def readSocketAddr (text : List Char) : Option SocketAddr :=
  (readSocketAddrV4 text).or (readSocketAddrV6 text)

/-! ## Characters of printed addresses -/

theorem toList_dotted (octets : List UInt8) :
    (dotted octets).toList =
      ['.'].intercalate (octets.map fun octet => Nat.toDigits 10 octet.toNat) := by
  have hparts : (octets.map fun octet => toString octet.toNat).map String.toList =
      octets.map fun octet => Nat.toDigits 10 octet.toNat := by
    simp [Nat.toString_eq_repr, Nat.toList_repr, Function.comp_def]
  rw [dotted, String.toList_intercalate, hparts]
  rfl

theorem isDigit_of_mem_dotted {octets : List UInt8} {c : Char}
    (hmem : c ∈ (dotted octets).toList) : c = '.' ∨ c.isDigit := by
  rw [toList_dotted] at hmem
  rcases mem_intercalate hmem with hdot | ⟨part, hpart, hmem⟩
  · exact .inl (List.mem_singleton.mp hdot)
  · obtain ⟨octet, -, rfl⟩ := List.mem_map.mp hpart
    exact .inr (Nat.isDigit_of_mem_toDigits (by decide) (by decide) hmem)

/-! ## IPv4 -/

theorem readOctet_toDigits (octet : UInt8) :
    readOctet (Nat.toDigits 10 octet.toNat) = some octet := by
  have hall : ∀ n < 256, readOctet (Nat.toDigits 10 n) = some (UInt8.ofNat n) := by decide +kernel
  rw [hall octet.toNat octet.toNat_lt, UInt8.ofNat_toNat]

/-- The text of an IPv4 address is read back as this address. -/
theorem readIpv4Addr_toString (address : Ipv4Addr) :
    readIpv4Addr address.toString.toList = some address := by
  obtain ⟨first, second, third, fourth, hoctets⟩ :
      ∃ first second third fourth, address.octets = [first, second, third, fourth] :=
    ⟨_, _, _, _, rfl⟩
  have hsplit : address.toString.toList.splitOn '.' =
      address.octets.map fun octet => Nat.toDigits 10 octet.toNat := by
    rw [Ipv4Addr.toString, toList_dotted]
    apply List.splitOn_intercalate
    · intro part hpart hdot
      obtain ⟨octet, -, rfl⟩ := List.mem_map.mp hpart
      have hdigit := Nat.isDigit_of_mem_toDigits (by decide) (by decide) hdot
      exact absurd hdigit (by decide)
    · simp [hoctets]
  have hbits := address.ofNat_octets
  rw [hoctets] at hsplit hbits
  simp only [readIpv4Addr, hsplit, List.map_cons, List.map_nil, List.mapM_cons, List.mapM_nil,
    readOctet_toDigits]
  simp [hbits]

theorem colon_notMem_ipv4 (address : Ipv4Addr) : ':' ∉ address.toString.toList := by
  intro hmem
  rcases isDigit_of_mem_dotted hmem with hdot | hdigit
  · exact absurd hdot (by decide)
  · exact absurd hdigit (by decide)

/-! ## IPv6 -/

theorem cutDoubleColon_eq_none {text : List Char} (hcolon : ':' ∉ text) :
    cutDoubleColon text = none := by
  induction text with
  | nil => rfl
  | cons c rest ih =>
      have hc : c ≠ ':' := fun heq => hcolon (heq ▸ List.mem_cons_self)
      have hrest := ih fun hmem => hcolon (List.mem_cons_of_mem c hmem)
      cases rest with
      | nil => simp [cutDoubleColon]
      | cons next rest => simp [cutDoubleColon, hc, hrest]

/-- A text without a colon is at most two groups. -/
theorem readIpv6Addr_eq_none {text : List Char} (hcolon : ':' ∉ text) :
    readIpv6Addr text = none := by
  have hshort : ∀ groups, readGroups (groupTexts text) = some groups → groups.length ≤ 2 := by
    intro groups hgroups
    unfold groupTexts at hgroups
    split at hgroups
    · cases hgroups
      exact Nat.zero_le 2
    · rw [List.splitOn_eq_singleton hcolon, readGroups] at hgroups
      split at hgroups
      · cases hgroups
        exact Nat.le_refl 2
      · obtain ⟨group, -, rfl⟩ := Option.map_eq_some_iff.mp hgroups
        exact Nat.le_succ 1
  rw [readIpv6Addr, readIpv6Groups, cutDoubleColon_eq_none hcolon]
  cases hgroups : readGroups (groupTexts text) with
  | none => simp
  | some groups =>
      have hlength := hshort groups hgroups
      have height : groups.length ≠ 8 := by omega
      simp [height]

theorem toList_fmtSubslice (segments : List Nat) :
    (fmtSubslice segments).toList =
      [':'].intercalate (segments.map fun segment => Nat.toDigits 16 segment) := by
  rw [fmtSubslice, String.toList_intercalate, List.map_map]
  simp [Function.comp_def]

theorem bracket_notMem_fmtSubslice (segments : List Nat) :
    '[' ∉ (fmtSubslice segments).toList := by
  intro hmem
  rw [toList_fmtSubslice] at hmem
  rcases mem_intercalate hmem with hcolon | ⟨part, hpart, hmem⟩
  · exact absurd (List.mem_singleton.mp hcolon) (by decide)
  · obtain ⟨segment, -, rfl⟩ := List.mem_map.mp hpart
    obtain ⟨digit, hdigit, heq⟩ := exists_digitChar_of_mem_toDigits (by decide) hmem
    have hall : ∀ digit < 16, '[' ≠ Nat.digitChar digit := by decide
    exact hall digit hdigit heq

/-- The text of an IPv6 address has a colon, and no bracket before it. -/
theorem ipv6_toString_eq (address : Ipv6Addr) :
    ∃ before behind, address.toString = before ++ ":" ++ behind ∧ '[' ∉ before.toList := by
  unfold Ipv6Addr.toString
  dsimp only
  split
  · exact ⟨"", ":", rfl, by decide⟩
  · exact ⟨"", ":1", rfl, by decide⟩
  · refine ⟨"", ":" ++ dotted (address.octets.drop 12), ?_, by decide⟩
    rw [← String.append_assoc]
    rfl
  · refine ⟨"", ":ffff:" ++ dotted (address.octets.drop 12), ?_, by decide⟩
    rw [← String.append_assoc]
    rfl
  · rcases findZeroSlice address.segments 0 (0, 0) (0, 0) with ⟨zerosAt, zerosLen⟩
    dsimp only
    split
    · refine ⟨fmtSubslice (address.segments.take zerosAt),
        ":" ++ fmtSubslice (address.segments.drop (zerosAt + zerosLen)), ?_,
        bracket_notMem_fmtSubslice _⟩
      have hdouble : "::" = ":" ++ ":" := rfl
      simp only [hdouble, String.append_assoc]
    · obtain ⟨first, second, rest, hsegments⟩ :
          ∃ first second rest, address.segments = first :: second :: rest := ⟨_, _, _, rfl⟩
      refine ⟨fmtSubslice [first], fmtSubslice (second :: rest), ?_,
        bracket_notMem_fmtSubslice _⟩
      rw [hsegments]
      simp [fmtSubslice]

end JustProxy
