import JustProxy.System.State

/-! # The relay

What the two actors and the tunnel amount to: one queue of requests to the
server, one queue of responses back, the connects that are pending in between,
and the targets. Mailboxes, the output queue and the tunnel's bytes are not
visible any more; every step of the system is a step of the relay or leaves the
relay as it is.
-/

namespace JustProxy

/-! ## State -/

/-- What the relay knows of a SOCKS connection. It has asked for its target once
its decoder has returned the request. -/
structure Peer where
  uuid : UInt16
  asked : Bool
  running : Bool
  deriving DecidableEq

structure Relay where
  peers : List Peer
  clients : UInt16 → Option Nat
  requests : List (Tagged ProxyRequest)
  resolving : List (Tagged UInt16)
  connections : UInt16 → Option Nat
  targets : List Target
  responses : List (Tagged ProxyResponse)
  deliveries : List Delivery

/-- What matters of a step besides the states around it. -/
inductive Action where
  | connect (port : UInt16)
  /-- A session forwards payload. -/
  | send (uuid : UInt16)
  /-- The server forgets a connection that it could not write to. -/
  | writeFails (uuid : UInt16)
  /-- The server forgets a connection that has died. -/
  | deregister (uuid : UInt16)
  | other
  deriving DecidableEq

namespace Relay

/-- The steps of the relay. Heartbeats take a shorter way than other messages,
so they may enter the queues anywhere. -/
inductive Step (r : Relay) : Action → Relay → Prop where
  | connect {port : UInt16} (hport : port ≠ 0) :
      Step r (.connect port) { r with
        peers := r.peers ++ [⟨port, false, true⟩]
        clients := Function.update r.clients port (some r.peers.length) }
  | ask {index : Nat} {peer : Peer} (addr : String) (hpeer : r.peers[index]? = some peer)
      (hrunning : peer.running = true) (hasked : peer.asked = false) :
      Step r .other { r with
        peers := r.peers.set index { peer with asked := true }
        requests := r.requests ++
          [⟨.new peer.uuid (.requestAddr addr), ⟨some index, none⟩⟩] }
  | send {index : Nat} {peer : Peer} (data : List UInt8) (hpeer : r.peers[index]? = some peer)
      (hasked : peer.asked = true) :
      Step r (.send peer.uuid) { r with
        requests := r.requests ++ [⟨.new peer.uuid (.data data), ⟨some index, none⟩⟩] }
  | stop {index : Nat} {peer : Peer} (hpeer : r.peers[index]? = some peer) :
      Step r .other { r with peers := r.peers.set index { peer with running := false } }
  | ping {before after : List (Tagged ProxyRequest)} (index : UInt32)
      (hrequests : r.requests = before ++ after) :
      Step r .other { r with
        requests := before ++ ⟨.new 0 (.heartbeat index), .none⟩ :: after }
  | dial {request : ProxyRequest} {tag : Tag} {rest : List (Tagged ProxyRequest)} {addr : String}
      (hrequests : r.requests = ⟨request, tag⟩ :: rest)
      (haddr : request.request = .requestAddr addr) :
      Step r .other { r with
        requests := rest
        resolving := r.resolving ++ [⟨request.uuid, tag⟩] }
  | write {request : ProxyRequest} {tag : Tag} {rest : List (Tagged ProxyRequest)}
      {data : List UInt8} (hrequests : r.requests = ⟨request, tag⟩ :: rest)
      (hdata : request.request = .data data) :
      Step r .other { r with requests := rest }
  | writeFails {request : ProxyRequest} {tag : Tag} {rest : List (Tagged ProxyRequest)}
      {data : List UInt8} (hrequests : r.requests = ⟨request, tag⟩ :: rest)
      (hdata : request.request = .data data) :
      Step r (.writeFails request.uuid) { r with
        requests := rest
        connections := Function.update r.connections request.uuid none }
  | pong {request : ProxyRequest} {tag : Tag} {rest : List (Tagged ProxyRequest)}
      {index : UInt32} {before after : List (Tagged ProxyResponse)}
      (hrequests : r.requests = ⟨request, tag⟩ :: rest)
      (hindex : request.request = .heartbeat index) (hresponses : r.responses = before ++ after) :
      Step r .other { r with
        requests := rest
        responses := before ++ ⟨.new request.uuid (.heartbeat index), tag⟩ :: after }
  | opened {uuid : UInt16} {tag : Tag} {before after : List (Tagged UInt16)}
      (hresolving : r.resolving = before ++ ⟨uuid, tag⟩ :: after) :
      Step r .other { r with
        resolving := before ++ after
        targets := r.targets ++ [⟨uuid, tag.cause, true, []⟩]
        responses := r.responses ++
          [⟨.new uuid (.response .succeeded), ⟨tag.cause, none⟩⟩] }
  | refused {uuid : UInt16} {tag : Tag} {before after : List (Tagged UInt16)}
      {kind : ProxyResponseType} (hkind : kind = .timeout ∨ kind = .connectionRefused)
      (hresolving : r.resolving = before ++ ⟨uuid, tag⟩ :: after) :
      Step r .other { r with
        resolving := before ++ after
        responses := r.responses ++ [⟨.new uuid (.response kind), ⟨tag.cause, none⟩⟩] }
  | chunk {index : Nat} {target : Target} (bytes : List UInt8)
      (htarget : r.targets[index]? = some target) (hreading : target.reading = true) :
      Step r .other { r with
        targets := r.targets.set index { target with chunks := target.chunks ++ [bytes] }
        responses := r.responses ++
          [⟨.new target.uuid (.data bytes), ⟨target.openedFor, some index⟩⟩] }
  | finish {index : Nat} {target : Target} (htarget : r.targets[index]? = some target)
      (hreading : target.reading = true) :
      Step r .other { r with targets := r.targets.set index { target with reading := false } }
  | fail {index : Nat} {target : Target} (htarget : r.targets[index]? = some target)
      (hreading : target.reading = true) :
      Step r .other { r with
        targets := r.targets.set index { target with reading := false }
        responses := r.responses ++
          [⟨.new target.uuid (.response .abort), ⟨target.openedFor, some index⟩⟩] }
  | register (uuid : UInt16) (writer : Nat) :
      Step r .other { r with connections := Function.update r.connections uuid (some writer) }
  | deregister (uuid : UInt16) :
      Step r (.deregister uuid) { r with connections := Function.update r.connections uuid none }
  | pass {response : ProxyResponse} {tag : Tag} {rest : List (Tagged ProxyResponse)}
      (hresponses : r.responses = ⟨response, tag⟩ :: rest) (huuid : response.uuid = 0)
      {index : UInt32} (hindex : response.response = .heartbeat index) :
      Step r .other { r with responses := rest }
  | deliver {response : ProxyResponse} {tag : Tag} {rest : List (Tagged ProxyResponse)}
      {index : Nat} {answer : ConnectorResponse}
      (hresponses : r.responses = ⟨response, tag⟩ :: rest) (huuid : response.uuid ≠ 0)
      (hclient : r.clients response.uuid = some index)
      (hanswer : Server.connectorResponse response.response = some answer) :
      Step r .other { r with
        responses := rest
        deliveries := r.deliveries ++ [⟨index, answer, tag⟩] }
  | idle : Step r .other r

/-! ## What a step adds to the queues -/

variable {r next : Relay} {action : Action}

/-- A request is an old one, a heartbeat, or what a session has just sent. -/
theorem mem_requests (hstep : Step r action next) {request : Tagged ProxyRequest}
    (hmem : request ∈ next.requests) :
    request ∈ r.requests ∨ (∃ index, request.message = .new 0 (.heartbeat index)) ∨
      ∃ index peer transfer, r.peers[index]? = some peer ∧
        ((∃ addr, transfer = .requestAddr addr) ∨ ∃ data, transfer = .data data) ∧
        request = ⟨.new peer.uuid transfer, ⟨some index, none⟩⟩ := by
  have hrest {head : Tagged ProxyRequest} {rest : List (Tagged ProxyRequest)}
      (hrequests : r.requests = head :: rest) (hmem : request ∈ rest) : request ∈ r.requests :=
    hrequests ▸ List.mem_cons_of_mem _ hmem
  cases hstep with
  | @ask index peer addr hpeer hrunning hasked =>
      rcases List.mem_append.mp hmem with hold | hnew
      · exact .inl hold
      · exact .inr (.inr ⟨index, peer, _, hpeer, .inl ⟨addr, rfl⟩, List.mem_singleton.mp hnew⟩)
  | @send index peer data hpeer hasked =>
      rcases List.mem_append.mp hmem with hold | hnew
      · exact .inl hold
      · exact .inr (.inr ⟨index, peer, _, hpeer, .inr ⟨data, rfl⟩, List.mem_singleton.mp hnew⟩)
  | ping heartbeat hrequests =>
      rw [hrequests]
      rcases List.mem_append.mp hmem with hbefore | hafter
      · exact .inl (List.mem_append_left _ hbefore)
      · rcases List.mem_cons.mp hafter with rfl | hafter
        · exact .inr (.inl ⟨heartbeat, rfl⟩)
        · exact .inl (List.mem_append_right _ hafter)
  | dial hrequests haddr => exact .inl (hrest hrequests hmem)
  | write hrequests hdata => exact .inl (hrest hrequests hmem)
  | writeFails hrequests hdata => exact .inl (hrest hrequests hmem)
  | pong hrequests hindex hresponses => exact .inl (hrest hrequests hmem)
  | _ => exact .inl hmem

/-- A connect is an old one, or what a request has asked for. -/
theorem mem_resolving (hstep : Step r action next) {connect : Tagged UInt16}
    (hmem : connect ∈ next.resolving) :
    connect ∈ r.resolving ∨ ∃ request ∈ r.requests, ∃ addr,
      request.message.request = .requestAddr addr ∧
        connect = ⟨request.message.uuid, request.tag⟩ := by
  have hothers {before after : List (Tagged UInt16)} {done : Tagged UInt16}
      (hresolving : r.resolving = before ++ done :: after) (hmem : connect ∈ before ++ after) :
      connect ∈ r.resolving := by
    rw [hresolving]
    exact List.mem_append.mpr ((List.mem_append.mp hmem).imp_right (List.mem_cons_of_mem _))
  cases hstep with
  | dial hrequests haddr =>
      rcases List.mem_append.mp hmem with hold | hnew
      · exact .inl hold
      · exact .inr ⟨_, hrequests ▸ List.mem_cons_self, _, haddr, List.mem_singleton.mp hnew⟩
  | opened hresolving => exact .inl (hothers hresolving hmem)
  | refused hkind hresolving => exact .inl (hothers hresolving hmem)
  | _ => exact .inl hmem

/-- A target was there for the same session before, or a connect has opened it. -/
theorem mem_targets (hstep : Step r action next) {target : Target}
    (hmem : target ∈ next.targets) :
    (∃ old ∈ r.targets, target.uuid = old.uuid ∧ target.openedFor = old.openedFor) ∨
      ∃ connect ∈ r.resolving, target.uuid = connect.message ∧
        target.openedFor = connect.tag.cause := by
  have hset {index : Nat} {old changed : Target} (hold : r.targets[index]? = some old)
      (hmem : target ∈ r.targets.set index changed) (huuid : changed.uuid = old.uuid)
      (hopened : changed.openedFor = old.openedFor) :
      ∃ old ∈ r.targets, target.uuid = old.uuid ∧ target.openedFor = old.openedFor := by
    rcases List.mem_or_eq_of_mem_set hmem with hsame | rfl
    · exact ⟨target, hsame, rfl, rfl⟩
    · exact ⟨old, List.mem_of_getElem? hold, huuid, hopened⟩
  cases hstep with
  | opened hresolving =>
      rcases List.mem_append.mp hmem with hold | hnew
      · exact .inl ⟨target, hold, rfl, rfl⟩
      · obtain rfl := List.mem_singleton.mp hnew
        exact .inr ⟨_, hresolving ▸ List.mem_append_cons_self, rfl, rfl⟩
  | chunk bytes htarget hreading => exact .inl (hset htarget hmem rfl rfl)
  | finish htarget hreading => exact .inl (hset htarget hmem rfl rfl)
  | fail htarget hreading => exact .inl (hset htarget hmem rfl rfl)
  | _ => exact .inl ⟨target, hmem, rfl, rfl⟩

/-- A response is an old one, the echo of a heartbeat, the answer to a connect, or
what a target's reader has to say. -/
theorem mem_responses (hstep : Step r action next) {response : Tagged ProxyResponse}
    (hmem : response ∈ next.responses) :
    response ∈ r.responses ∨
      (∃ request ∈ r.requests, ∃ index, request.message.request = .heartbeat index ∧
        response = ⟨.new request.message.uuid (.heartbeat index), request.tag⟩) ∨
      (∃ connect ∈ r.resolving, ∃ kind,
        response = ⟨.new connect.message (.response kind), ⟨connect.tag.cause, none⟩⟩) ∨
      ∃ index target transfer, r.targets[index]? = some target ∧
        ((∃ bytes, transfer = .data bytes) ∨ transfer = .response .abort) ∧
        response = ⟨.new target.uuid transfer, ⟨target.openedFor, some index⟩⟩ := by
  have hrest {head : Tagged ProxyResponse} {rest : List (Tagged ProxyResponse)}
      (hresponses : r.responses = head :: rest) (hmem : response ∈ rest) :
      response ∈ r.responses := hresponses ▸ List.mem_cons_of_mem _ hmem
  cases hstep with
  | pong hrequests hindex hresponses =>
      rw [hresponses]
      rcases List.mem_append.mp hmem with hbefore | hafter
      · exact .inl (List.mem_append_left _ hbefore)
      · rcases List.mem_cons.mp hafter with rfl | hafter
        · exact .inr (.inl ⟨_, hrequests ▸ List.mem_cons_self, _, hindex, rfl⟩)
        · exact .inl (List.mem_append_right _ hafter)
  | opened hresolving =>
      rcases List.mem_append.mp hmem with hold | hnew
      · exact .inl hold
      · exact .inr (.inr (.inl ⟨_, hresolving ▸ List.mem_append_cons_self, _,
          List.mem_singleton.mp hnew⟩))
  | refused hkind hresolving =>
      rcases List.mem_append.mp hmem with hold | hnew
      · exact .inl hold
      · exact .inr (.inr (.inl ⟨_, hresolving ▸ List.mem_append_cons_self, _,
          List.mem_singleton.mp hnew⟩))
  | chunk bytes htarget hreading =>
      rcases List.mem_append.mp hmem with hold | hnew
      · exact .inl hold
      · exact .inr (.inr (.inr ⟨_, _, _, htarget, .inl ⟨bytes, rfl⟩, List.mem_singleton.mp hnew⟩))
  | fail htarget hreading =>
      rcases List.mem_append.mp hmem with hold | hnew
      · exact .inl hold
      · exact .inr (.inr (.inr ⟨_, _, _, htarget, .inr rfl, List.mem_singleton.mp hnew⟩))
  | pass hresponses huuid hindex => exact .inl (hrest hresponses hmem)
  | deliver hresponses huuid hclient hanswer => exact .inl (hrest hresponses hmem)
  | _ => exact .inl hmem

end Relay

/-! ## The relay of a system -/

def Session.peer (session : Session) : Peer :=
  ⟨session.client.uuid, session.codec = .ready, session.running⟩

/-- The request that a message of the dispatcher's mailbox will become. -/
def ClientMail.toRequest (mail : Tagged ClientMail) : Option (Tagged ProxyRequest) :=
  match mail.message with
  | .proxyRequest request => some ⟨request, mail.tag⟩
  | .heartbeat => none

@[simp] theorem ClientMail.toRequest_proxyRequest (request : ProxyRequest) (tag : Tag) :
    toRequest ⟨.proxyRequest request, tag⟩ = some ⟨request, tag⟩ := rfl

@[simp] theorem ClientMail.toRequest_heartbeat (tag : Tag) : toRequest ⟨.heartbeat, tag⟩ = none :=
  rfl

/-- The response that a message of the server's mailbox will become. -/
def ServerMail.toResponse : ServerMail Nat → ProxyResponse
  | .proxyResponse response => response
  | .connectionDead uuid => .new uuid (.response .abort)
  | .connectionEstablished uuid _ => .new uuid (.response .succeeded)

namespace System

variable (s : System)

/-- The requests between the sessions and the server. -/
def requests : List (Tagged ProxyRequest) :=
  s.upstream ++ s.clientMail.filterMap ClientMail.toRequest

/-- The responses between the server's mailbox and the sessions. -/
def responses : List (Tagged ProxyResponse) :=
  s.downstream ++ s.outQueue ++ s.serverMail.map fun mail => ⟨mail.message.toResponse, mail.tag⟩

def relay : Relay where
  peers := s.sessions.map Session.peer
  clients := s.dispatcher.clients
  requests := s.requests
  resolving := s.resolving.map fun connect => ⟨connect.message.1, connect.tag⟩
  connections := s.server.connections
  targets := s.targets
  responses := s.responses
  deliveries := s.deliveries

end System

end JustProxy
