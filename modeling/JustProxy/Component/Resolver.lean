import Mathlib.Data.List.TakeWhile
import JustProxy.Component.Server
import JustProxy.Socks.AddressText
import JustProxy.Socks.RequestLaws

/-! # Where the server connects to

A session sends address and port of its request as one text, and the server
hands this text to its resolver. The resolver first tries to read a socket
address from it; otherwise it looks up what stands before the first colon.
-/

namespace JustProxy

open Text

/-- What is connected to: an address as it is, or a name to look up. -/
inductive Host where
  | addr (address : IpAddr)
  | name (text : String)
  deriving DecidableEq

/-- The host of `Connect::host(text)`. -/
def connectHost (text : String) : Host :=
  match readSocketAddr text.toList with
  | some address => .addr address.ip
  | none => .name (String.ofList (text.toList.takeWhile (· ≠ ':')))

/-- The host is the one that was requested: the address itself or its text to
look up, or the domain. A domain may be the text of an IPv4 address. -/
inductive Requested : SocksAddr → Host → Prop where
  | ipv4 (address : Ipv4Addr) : Requested (.ipv4 address) (.addr (.v4 address))
  | ipv4Text (address : Ipv4Addr) : Requested (.ipv4 address) (.name address.toString)
  | ipv6 (address : Ipv6Addr) : Requested (.ipv6 address) (.addr (.v6 address))
  | ipv6Text (address : Ipv6Addr) : Requested (.ipv6 address) (.name address.toString)
  | domain (name : String) : Requested (.domain name) (.name name)
  | domainText {name : String} {address : Ipv4Addr}
      (hname : readIpv4Addr name.toList = some address) :
      Requested (.domain name) (.addr (.v4 address))

/-- The request of a session is sent, and the server starts a connect to the
requested host for it. -/
def ConnectsToRequested {Writer : Type} (client : SocksClient) (server : ProxyClient Writer)
    (now : Nat) (result : WriteResult) (request : TargetRequest) : Prop :=
  ∃ message addr, (client.handleSocksRequest (.targetRequest request) now).2 = .doSend message ∧
    server.handleProxyRequest message result = some (server, [.resolve client.uuid addr]) ∧
    Requested request.address (connectHost addr)

/-! ## Reading host and port -/

theorem colon_notMem_port (port : Int) : ':' ∉ (toString port).toList := by
  have hdigits (n : Nat) : ':' ∉ Nat.toDigits 10 n := by
    intro hmem
    have hdigit := Nat.isDigit_of_mem_toDigits (by decide) (by decide) hmem
    exact absurd hdigit (by decide)
  cases port <;> simp [Int.toString_eq_repr, Int.repr_eq_if, hdigits]

variable {host port : List Char}

theorem readSocketAddrV4_eq (hhost : ':' ∉ host) (hport : ':' ∉ port) :
    readSocketAddrV4 (host ++ ':' :: port) =
      (readIpv4Addr host).bind fun ip => (readPort port).map fun port => .v4 ip port := by
  have hsplit : (host ++ ':' :: port).splitOn ':' = [host, port] := by
    rw [List.splitOn_append_cons_self_of_not_mem hhost, List.splitOn_eq_singleton hport]
  simp only [readSocketAddrV4, hsplit]
  cases readIpv4Addr host <;> cases readPort port <;> rfl

/-- Only one colon is not enough for an IPv6 address and a port. -/
theorem readSocketAddrV6_eq_none (hhost : ':' ∉ host) (hport : ':' ∉ port) :
    readSocketAddrV6 (host ++ ':' :: port) = none := by
  have hcount : (host ++ ':' :: port).count ':' = 1 := by
    rw [List.count_append, List.count_cons_self, List.count_eq_zero.mpr hhost,
      List.count_eq_zero.mpr hport]
  unfold readSocketAddrV6
  split
  next rest htext =>
    split
    next inside behind hsplit =>
      have hrest : [']'].intercalate (rest.splitOn ']') = rest := List.intercalate_splitOn ']'
      have hinside : ':' ∉ inside := by
        rw [htext, ← hrest, hsplit] at hcount
        simp [List.count_append] at hcount
        exact List.count_eq_zero.mp (by omega)
      have hnone : ∀ ip ∈ inside.splitOn '%', readIpv6Addr ip = none := fun ip hip =>
        readIpv6Addr_eq_none fun hcolon => hinside (mem_of_mem_splitOn hip hcolon)
      split
      next ip hscope => simp [hnone ip (by simp [hscope])]
      next ip scopeId hscope => simp [hnone ip (by simp [hscope])]
      next => rfl
    next => rfl
  next => rfl

/-- With one colon the host is what stands before it, unless this is an IPv4
address and a port follows. -/
theorem connectHost_eq {text : String} (htext : text.toList = host ++ ':' :: port)
    (hhost : ':' ∉ host) (hport : ':' ∉ port) :
    connectHost text = .name (String.ofList host) ∨
      ∃ ip, readIpv4Addr host = some ip ∧ connectHost text = .addr (.v4 ip) := by
  have hread : readSocketAddr text.toList =
      (readIpv4Addr host).bind fun ip => (readPort port).map fun port => .v4 ip port := by
    rw [readSocketAddr, htext, readSocketAddrV4_eq hhost hport,
      readSocketAddrV6_eq_none hhost hport, Option.or_none]
  have hname : text.toList.takeWhile (· ≠ ':') = host := by
    have hall : ∀ c ∈ host, decide (c ≠ ':') = true := by
      intro c hc
      have hne : c ≠ ':' := ne_of_mem_of_not_mem hc hhost
      simpa using hne
    rw [htext, List.takeWhile_append_of_pos hall]
    simp
  rw [connectHost, hread, hname]
  cases hip : readIpv4Addr host with
  | none => exact .inl rfl
  | some ip =>
      cases readPort port with
      | none => exact .inl rfl
      | some port => exact .inr ⟨ip, rfl, rfl⟩

/-- The text of an IPv6 address and a port is cut at its first colon. -/
theorem connectHost_ipv6 (address : Ipv6Addr) {text : String}
    (htext : text.toList = address.toString.toList ++ ':' :: port) :
    ∃ name, connectHost text = .name name ∧ name ≠ address.toString := by
  obtain ⟨before, behind, haddress, hbefore⟩ := ipv6_toString_eq address
  have hcolon : ':' ∈ address.toString.toList := by simp [haddress]
  have hchars : text.toList = before.toList ++ ':' :: (behind.toList ++ ':' :: port) := by
    rw [htext, haddress]
    simp
  have hv4 : readSocketAddrV4 text.toList = none := by
    -- there are two colons, so three parts
    have hparts : 3 ≤ (text.toList.splitOn ':').length := by
      have hpos (part : List Char) : 1 ≤ (part.splitOn ':').length :=
        List.length_pos_iff.mpr (List.splitOn_ne_nil ':' part)
      rw [hchars, List.splitOn_append_cons_self, List.splitOn_append_cons_self,
        List.length_append, List.length_append]
      have hfirst := hpos before.toList
      have hsecond := hpos behind.toList
      have hthird := hpos port
      omega
    unfold readSocketAddrV4
    split
    next ip port' hsplit =>
      rw [hsplit] at hparts
      exact absurd hparts (by simp)
    next => rfl
  have hv6 : readSocketAddrV6 text.toList = none := by
    unfold readSocketAddrV6
    split
    next rest hbracket =>
      rw [hchars] at hbracket
      cases hlist : before.toList with
      | nil => simp [hlist] at hbracket
      | cons first rest' =>
          rw [hlist, List.cons_append, List.cons.injEq] at hbracket
          exact absurd (hlist ▸ hbracket.1 ▸ List.mem_cons_self) hbefore
    next => rfl
  refine ⟨String.ofList (text.toList.takeWhile (· ≠ ':')), ?_, ?_⟩
  · rw [connectHost, readSocketAddr, hv4, hv6]
    rfl
  · intro hname
    have hmem : ':' ∈ text.toList.takeWhile (· ≠ ':') := by
      rw [← String.toList_ofList (l := text.toList.takeWhile _), hname]
      exact hcolon
    simpa using List.mem_takeWhile_imp hmem

/-- The text that a session sends, as its characters. -/
theorem toList_toAddressString (request : TargetRequest) : request.toAddressString.toList =
    request.address.text.toList ++ ':' :: (toString request.port.toInt).toList := by
  rw [request.toAddressString_eq, String.toList_append, String.toList_append, List.append_assoc]
  rfl

theorem requested_iff (request : TargetRequest)
    (hname : ∀ name, request.address = .domain name → ':' ∉ name.toList) :
    Requested request.address (connectHost request.toAddressString) ↔
      ∀ ipv6, request.address ≠ .ipv6 ipv6 := by
  have htext := toList_toAddressString request
  have hport := colon_notMem_port request.port.toInt
  cases haddress : request.address with
  | ipv4 address =>
      rw [haddress] at htext
      have hrequested : Requested (.ipv4 address) (connectHost request.toAddressString) := by
        rcases connectHost_eq htext (colon_notMem_ipv4 address) hport with hhost | ⟨ip, hip, hhost⟩
        · rw [hhost, SocksAddr.text, String.ofList_toList]
          exact .ipv4Text address
        · rw [SocksAddr.text, readIpv4Addr_toString] at hip
          cases hip
          rw [hhost]
          exact .ipv4 address
      simp [hrequested]
  | ipv6 address =>
      rw [haddress] at htext
      obtain ⟨name, hhost, hne⟩ := connectHost_ipv6 address htext
      have hmissed : ¬ Requested (.ipv6 address) (connectHost request.toAddressString) := by
        rw [hhost]
        rintro ⟨⟩
        exact hne rfl
      simp [hmissed]
  | domain name =>
      rw [haddress] at htext
      have hrequested : Requested (.domain name) (connectHost request.toAddressString) := by
        rcases connectHost_eq htext (hname name haddress) hport with hhost | ⟨ip, hip, hhost⟩
        · rw [hhost, SocksAddr.text, String.ofList_toList]
          exact .domain name
        · rw [hhost]
          exact .domainText hip
      simp [hrequested]

/-- Host fidelity. The server connects to the requested host exactly when this is
not an IPv6 address, whose text is sent without the brackets around it. -/
theorem connectsToRequested_iff {Writer : Type} (client : SocksClient)
    (server : ProxyClient Writer) (now : Nat) (result : WriteResult) (request : TargetRequest)
    (hname : ∀ name, request.address = .domain name → ':' ∉ name.toList) :
    ConnectsToRequested client server now result request ↔
      ∀ ipv6, request.address ≠ .ipv6 ipv6 := by
  rw [← requested_iff request hname]
  constructor
  · rintro ⟨message, addr, hsend, hresolve, hrequested⟩
    cases hsend
    cases hresolve
    exact hrequested
  · intro hrequested
    exact ⟨_, _, rfl, rfl, hrequested⟩

theorem connectsToRequested_iff_domain :
    ConnectsToRequested (SocksClient.new 5000) (⟨true, fun _ => none⟩ : ProxyClient Nat) 0
        (.accepted 0) ⟨5, .connect, 0, .domain, .domain "localhost", 80⟩ ↔
      ∀ ipv6, SocksAddr.domain "localhost" ≠ .ipv6 ipv6 :=
  connectsToRequested_iff _ _ _ _ ⟨5, .connect, 0, .domain, .domain "localhost", 80⟩
    fun name hname => by cases hname; decide

/-- For the IPv6 address ::1 the server looks up the empty name. -/
theorem ipv6_loopback_missed :
    connectHost "::1:80" = .name "" ∧
      ¬ ConnectsToRequested (SocksClient.new 5000) (⟨true, fun _ => none⟩ : ProxyClient Nat) 0
        (.accepted 0) ⟨5, .connect, 0, .ipV6, .ipv6 ⟨1⟩, 80⟩ := by
  have hhost : connectHost "::1:80" = .name "" := by decide +kernel
  refine ⟨hhost, ?_⟩
  rintro ⟨message, addr, hsend, hresolve, hrequested⟩
  cases hsend
  cases hresolve
  have htext : (⟨5, .connect, 0, .ipV6, .ipv6 ⟨1⟩, 80⟩ : TargetRequest).toAddressString =
      "::1:80" := by decide +kernel
  have hname : "" ≠ Ipv6Addr.toString ⟨1⟩ := by decide +kernel
  rw [htext, hhost] at hrequested
  generalize hempty : "" = name at hrequested hname
  cases hrequested
  exact hname rfl

end JustProxy
