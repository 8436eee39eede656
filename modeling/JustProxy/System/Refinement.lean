import JustProxy.System.Inversion
import JustProxy.System.Relay

/-! # The system refines the relay

Every step of the system is a step of its relay. A handler that panics leaves
its message where it is, so the relay stays as it is too.
-/

namespace JustProxy

open StreamDecoder

namespace System

variable {s next : System}

/-- Which events stand behind the actions of the relay. -/
def Corresponds (s : System) (event : Event) : Action → Prop
  | .connect port => event = .connect port
  | .send uuid => ∃ index session, event = .appPoll index ∧
      s.sessions[index]? = some session ∧ session.codec = .ready ∧ session.client.uuid = uuid
  | .writeFails uuid => ∃ result request tag rest data, event = .serverRecv result ∧
      result.isErr = true ∧ s.upstream = ⟨request, tag⟩ :: rest ∧
      request.request = .data data ∧ request.uuid = uuid
  | .deregister uuid => event = .serverMail ∧
      ∃ tag rest, s.serverMail = ⟨.connectionDead uuid, tag⟩ :: rest
  | .other => True

/-- The system took an event as a step of the relay. -/
def Refines (s : System) (event : Event) (next : System) : Prop :=
  ∃ action, s.Corresponds event action ∧ Relay.Step s.relay action next.relay

theorem refines_of_relay_eq {event : Event} (hrelay : next.relay = s.relay) :
    s.Refines event next :=
  ⟨.other, trivial, hrelay ▸ .idle⟩

theorem refines_other {event : Event} (hstep : Relay.Step s.relay .other next.relay) :
    s.Refines event next :=
  ⟨.other, trivial, hstep⟩

/-! ## Sessions -/

theorem relay_updateSession (s : System) (index : Nat) (session : Session) :
    (s.updateSession index session).relay =
      { s.relay with peers := s.relay.peers.set index session.peer } := by
  simp [relay, updateSession, requests, responses, List.map_set]

theorem relay_peer {index : Nat} {session : Session}
    (hsession : s.sessions[index]? = some session) :
    s.relay.peers[index]? = some session.peer := by
  simp [relay, hsession]

/-- A request of a session's actor enters the queue at its end. -/
theorem relay_doSend (s : System) (index : Nat) (session : Session) (request : ProxyRequest) :
    (s.socksEffect index session (.doSend request)).relay =
      { s.relay with
        peers := s.relay.peers.set index session.peer
        requests := s.relay.requests ++ [⟨request, ⟨some index, none⟩⟩] } := by
  simp [socksEffect, relay, updateSession, requests, responses, List.map_set]

theorem peers_set_same {index : Nat} {session session' : Session}
    (hsession : s.sessions[index]? = some session) (hpeer : session'.peer = session.peer) :
    s.relay.peers.set index session'.peer = s.relay.peers := by
  apply List.ext_getElem?
  intro other
  rw [List.getElem?_set]
  split
  next hother =>
    subst hother
    rw [relay_peer hsession, hpeer]
    have hlength : index < s.relay.peers.length :=
      (List.getElem?_eq_some_iff.mp (relay_peer hsession)).1
    simp [hlength]
  next => rfl

/-- A session that looks the same to the relay leaves the relay as it is. -/
theorem relay_updateSession_same {index : Nat} {session session' : Session}
    (hsession : s.sessions[index]? = some session) (hpeer : session'.peer = session.peer) :
    (s.updateSession index session').relay = s.relay := by
  rw [relay_updateSession, peers_set_same hsession hpeer]

theorem runningSession_eq_some {index : Nat} {session : Session}
    (hsession : s.runningSession index = some session) :
    s.sessions[index]? = some session ∧ session.running = true := by
  simpa [runningSession, Option.filter_eq_some_iff] using hsession

theorem refines_stop {event : Event} {index : Nat} {session : Session}
    (hsession : s.sessions[index]? = some session) :
    s.Refines event (s.updateSession index { session with running := false }) := by
  apply refines_other
  rw [relay_updateSession]
  exact .stop (relay_peer hsession)

theorem connect_refines {port : UInt16} (hstep : s.connect port = some next) :
    s.Refines (.connect port) next := by
  obtain ⟨-, hport, rfl⟩ := connect_eq_some hstep
  refine ⟨.connect port, rfl, ?_⟩
  have hpeers : s.relay.peers.length = s.sessions.length := by simp [relay]
  have hnext := Relay.Step.connect (r := s.relay) hport
  simpa [relay, requests, responses, Server.handleSocksConnected, Session.peer, Session.new,
    SocksClient.new, hpeers] using hnext

theorem appBytes_refines {index : Nat} {bytes : List UInt8}
    (hstep : s.appBytes index bytes = some next) : s.Refines (.appBytes index bytes) next := by
  obtain ⟨session, hsession, rfl⟩ := Option.map_eq_some_iff.mp hstep
  exact refines_of_relay_eq (relay_updateSession_same (runningSession_eq_some hsession).1 rfl)

theorem appClose_refines {index : Nat} (hstep : s.appClose index = some next) :
    s.Refines (.appClose index) next := by
  obtain ⟨session, hsession, rfl⟩ := Option.map_eq_some_iff.mp hstep
  exact refines_stop (runningSession_eq_some hsession).1

theorem appPoll_refines {index : Nat} (hstep : s.appPoll index = some next) :
    s.Refines (.appPoll index) next := by
  obtain ⟨session, hsession, hstep⟩ := Option.bind_eq_some_iff.mp hstep
  obtain ⟨hsession, hrunning⟩ := runningSession_eq_some hsession
  split at hstep
  next item codec rest hdecode =>
    cases hstep
    -- the relay sees nothing of a greeting, a request as `ask`, payload as `send`
    rcases Socks5RequestCodec.decode_item hdecode with
      ⟨hcodec, rfl, greeting, rfl⟩ | ⟨hcodec, rfl, request, rfl⟩ | ⟨hcodec, rfl, bytes, rfl⟩
    · exact refines_of_relay_eq (relay_updateSession_same hsession (by
        simp [Session.peer, hcodec]))
    · apply refines_other
      have hpeer : session.peer = ⟨session.client.uuid, false, session.running⟩ := by
        simp [Session.peer, hcodec]
      have hask := Relay.Step.ask request.toAddressString (relay_peer hsession)
        (by simp [hpeer, hrunning]) (by simp [hpeer])
      simpa [SocksClient.handleSocksRequest, relay_doSend, hpeer, Session.peer] using hask
    · refine ⟨.send session.client.uuid, ⟨index, session, rfl, hsession, hcodec, rfl⟩, ?_⟩
      have hsend := Relay.Step.send bytes (relay_peer hsession) (by simp [Session.peer, hcodec])
      simp only [relay_doSend]
      rw [peers_set_same hsession (by simp [Session.peer, hcodec])]
      exact hsend
  next => cases hstep
  next =>
    cases hstep
    exact refines_stop hsession
  next =>
    cases hstep
    exact refines_stop hsession

theorem socksMail_refines {index : Nat} (hstep : s.socksMail index = some next) :
    s.Refines (.socksMail index) next := by
  obtain ⟨session, hsession, hstep⟩ := Option.bind_eq_some_iff.mp hstep
  obtain ⟨hsession, hrunning⟩ := runningSession_eq_some hsession
  split at hstep
  next => cases hstep
  next msg rest hinbox =>
    split at hstep
    next =>
      cases hstep
      exact refines_stop hsession
    next client effect hhandle =>
      cases hstep
      obtain ⟨huuid, ⟨response, rfl⟩ | rfl⟩ :=
        SocksClient.handleConnectorResponse_eq_some hhandle
      · exact refines_of_relay_eq (relay_updateSession_same hsession (by
          simp [Session.peer, huuid]))
      · apply refines_other
        have hstop := Relay.Step.stop (relay_peer hsession)
        simpa [socksEffect, relay_updateSession, Session.peer, huuid] using hstop

/-! ## The dispatcher -/

theorem tick_refines (hstep : s.tick = some next) : s.Refines .tick next := by
  obtain ⟨-, ⟨-, rfl⟩ | ⟨-, rfl⟩⟩ := tick_eq_some hstep
  · apply refines_of_relay_eq
    simp [relay, requests, responses]
  · exact refines_of_relay_eq rfl

theorem handleClientMail_refines (hstep : s.handleClientMail = some next) :
    s.Refines .clientMail next := by
  cases handleClientMail_cases hstep with
  | request hup hmail =>
      apply refines_of_relay_eq
      simp [relay, requests, responses, hmail]
  | @heartbeat tag rest hup hmail =>
      apply refines_other
      have hrequests : s.relay.requests = s.upstream ++ rest.filterMap ClientMail.toRequest := by
        simp [relay, requests, hmail, List.filterMap_cons]
      have hping := Relay.Step.ping (s.dispatcher.hbIndex + 1) hrequests
      simpa [relay, requests, responses, Server.handleHeartbeat] using hping

/-- Filling an inbox changes nothing that the relay sees. -/
theorem peers_pushInbox (s : System) (index : Nat) (response : ConnectorResponse) :
    (s.pushInbox index response).sessions.map Session.peer = s.sessions.map Session.peer := by
  unfold pushInbox
  split
  next => rfl
  next session hsession =>
    have hpeer : ({ session with inbox := session.inbox ++ [response] } : Session).peer =
        session.peer := rfl
    exact congrArg Relay.peers
      (relay_updateSession_same (runningSession_eq_some hsession).1 hpeer)

theorem clientRecv_refines (hstep : s.clientRecv = some next) : s.Refines .clientRecv next := by
  have hresponses {response : ProxyResponse} {tag : Tag} {rest : List (Tagged ProxyResponse)}
      (hdownstream : s.downstream = ⟨response, tag⟩ :: rest) :
      s.relay.responses = ⟨response, tag⟩ :: (rest ++ (s.outQueue ++
        s.serverMail.map fun mail => ⟨mail.message.toResponse, mail.tag⟩)) := by
    simp [relay, responses, hdownstream]
  cases clientRecv_cases hstep with
  | panic hup hdownstream hhandle => exact refines_of_relay_eq rfl
  | echo hup hdownstream hzero hindex hhandle =>
      apply refines_other
      have hpass := Relay.Step.pass (hresponses hdownstream) hzero hindex
      simpa [relay, requests, responses] using hpass
  | @deliver response tag rest index answer hup hdownstream hzero hclient hanswer hhandle =>
      apply refines_other
      have hdeliver := Relay.Step.deliver (hresponses hdownstream) hzero hclient hanswer
      simpa [relay, requests, responses, s.peers_pushInbox index answer] using hdeliver

/-! ## The server -/

/-- A panic changes nothing that the relay sees. -/
theorem relay_react_none (s : System) (tag : Tag) (waiting : System) :
    (s.react tag waiting none).relay = s.relay := rfl

/-- A response enters the queue behind the tunnel and the output queue. -/
theorem relay_react_send (s waiting : System) (tag : Tag) (server : ProxyClient Nat)
    (response : ProxyResponse) :
    (s.react tag waiting (some (server, [.send response]))).relay =
      { waiting.relay with
        connections := server.connections
        responses := waiting.downstream ++ waiting.outQueue ++ ⟨response, tag⟩ ::
          waiting.serverMail.map fun mail => ⟨mail.message.toResponse, mail.tag⟩ } := by
  simp [react, serverEffect, relay, requests, responses]

theorem unboundedSend_eq (self : ProxyClient Nat) (response : ProxyResponse) :
    self.unboundedSend response = none ∨
      self.unboundedSend response = some (self, [.send response]) := by
  unfold ProxyClient.unboundedSend
  split
  · exact .inr rfl
  · exact .inl rfl

theorem serverRecv_refines {result : WriteResult} (hstep : s.serverRecv result = some next) :
    s.Refines (.serverRecv result) next := by
  obtain ⟨-, request, tag, rest, hupstream, rfl⟩ := serverRecv_eq_some hstep
  have hrequests : s.relay.requests =
      ⟨request, tag⟩ :: (rest ++ s.clientMail.filterMap ClientMail.toRequest) := by
    simp [relay, requests, hupstream]
  obtain ⟨uuid, transferLen, transferType, transfer⟩ := request
  cases transfer with
  | requestAddr addr =>
      apply refines_other
      have hdial := Relay.Step.dial hrequests rfl
      simpa [ProxyClient.handleProxyRequest, react, serverEffect, relay, requests,
        responses] using hdial
  | data data =>
      cases hconn : s.server.connections uuid with
      | none =>
          apply refines_of_relay_eq
          simp [ProxyClient.handleProxyRequest, ProxyClient.handleData, hconn,
            relay_react_none]
      | some writer =>
          by_cases herr : result.isErr = true
          · refine ⟨.writeFails uuid, ⟨result, _, tag, rest, data, rfl, herr, hupstream,
              rfl, rfl⟩, ?_⟩
            have hfails := Relay.Step.writeFails hrequests rfl
            simpa [ProxyClient.handleProxyRequest, ProxyClient.handleData, hconn, herr,
              react, serverEffect, ProxyClient.removeConnection, relay, requests,
              responses] using hfails
          · apply refines_other
            have hwrite := Relay.Step.write hrequests rfl
            simpa [ProxyClient.handleProxyRequest, ProxyClient.handleData, hconn, herr,
              react, serverEffect, relay, requests, responses] using hwrite
  | response kind => exact refines_of_relay_eq rfl
  | heartbeat index =>
      rcases unboundedSend_eq s.server (.new uuid (.heartbeat index)) with hsend | hsend
      · apply refines_of_relay_eq
        simp [ProxyClient.handleProxyRequest, hsend, relay_react_none]
      · apply refines_other
        have hresponses : s.relay.responses = (s.downstream ++ s.outQueue) ++
            s.serverMail.map fun mail => ⟨mail.message.toResponse, mail.tag⟩ := rfl
        have hpong := Relay.Step.pong hrequests rfl hresponses
        simp only [ProxyClient.handleProxyRequest, hsend, relay_react_send]
        exact hpong

theorem handleServerMail_refines (hstep : s.handleServerMail = some next) :
    s.Refines .serverMail next := by
  obtain ⟨-, mail, tag, rest, hmail, rfl⟩ := handleServerMail_eq_some hstep
  have hresponses : s.relay.responses = s.downstream ++ s.outQueue ++
      ⟨mail.toResponse, tag⟩ :: rest.map fun mail => ⟨mail.message.toResponse, mail.tag⟩ := by
    simp [relay, responses, hmail]
  -- whichever mail, its response takes the place of the mail in the queue
  have hmoved (server : ProxyClient Nat) :
      (s.react tag { s with serverMail := rest }
        (some (server, [.send mail.toResponse]))).relay =
        { s.relay with connections := server.connections } := by
    rw [relay_react_send]
    simp only [← hresponses]
    rfl
  cases mail with
  | proxyResponse response =>
      rcases unboundedSend_eq s.server response with hsend | hsend
      · apply refines_of_relay_eq
        simp [ProxyClient.handleMail, ProxyClient.handleProxyResponse, hsend,
          relay_react_none]
      · apply refines_of_relay_eq
        simp only [ProxyClient.handleMail, ProxyClient.handleProxyResponse, hsend]
        exact hmoved s.server
  | connectionDead uuid =>
      obtain hsend | hsend := unboundedSend_eq (s.server.removeConnection uuid)
        (.new uuid (.response .abort))
      · apply refines_of_relay_eq
        simp [ProxyClient.handleMail, ProxyClient.handleConnectionDead, hsend,
          relay_react_none]
      · refine ⟨.deregister uuid, ⟨rfl, tag, rest, hmail⟩, ?_⟩
        simp only [ProxyClient.handleMail, ProxyClient.handleConnectionDead, hsend]
        have hnext := hmoved (s.server.removeConnection uuid)
        simp only [ServerMail.toResponse] at hnext
        rw [hnext]
        exact .deregister uuid
  | connectionEstablished uuid writer =>
      obtain hsend | hsend := unboundedSend_eq (s.server.insertConnection uuid writer)
        (.new uuid (.response .succeeded))
      · apply refines_of_relay_eq
        simp [ProxyClient.handleMail, ProxyClient.handleConnectionEstablished, hsend,
          relay_react_none]
      · apply refines_other
        simp only [ProxyClient.handleMail, ProxyClient.handleConnectionEstablished, hsend]
        have hnext := hmoved (s.server.insertConnection uuid writer)
        simp only [ServerMail.toResponse] at hnext
        rw [hnext]
        exact .register uuid writer

theorem resolved_refines {index : Nat} {result : ConnectResult Unit}
    (hstep : s.resolved index result = some next) : s.Refines (.resolved index result) next := by
  obtain ⟨-, before, uuid, addr, tag, after, hresolving, rfl⟩ := resolved_eq_some hstep
  have hrelay : s.relay.resolving = before.map (fun connect => ⟨connect.message.1,
      connect.tag⟩) ++ ⟨uuid, tag⟩ :: after.map fun connect => ⟨connect.message.1,
      connect.tag⟩ := by
    simp [relay, hresolving]
  apply refines_other
  cases hresult : result.isConnected with
  | true =>
      obtain ⟨writer, rfl⟩ : ∃ writer, result = .connected writer := by
        cases result with
        | connected writer => exact ⟨writer, rfl⟩
        | _ => cases hresult
      have hopened := Relay.Step.opened hrelay
      simpa [relay, requests, responses, ConnectResult.isConnected, ConnectResult.map,
        resolverCallback, ServerMail.toResponse] using hopened
  | false =>
      obtain ⟨kind, hkind, hcallback⟩ := resolverCallback_refused uuid
        (result.map fun _ => s.targets.length) (by simp [hresult])
      have hrefused := Relay.Step.refused hkind hrelay
      simpa [relay, requests, responses, hcallback, ServerMail.toResponse] using hrefused

theorem read_refines {index : Nat} {event : ReadEvent} (hstep : s.read index event = some next) :
    s.Refines (.read index event) next := by
  obtain ⟨-, target, changed, htarget, hreading, hchanged, rfl⟩ := read_eq_some hstep
  apply refines_other
  cases event with
  | chunk bytes =>
      simp only [readTarget] at hchanged
      split at hchanged
      next => cases hchanged
      next =>
        cases hchanged
        have hchunk := Relay.Step.chunk (r := s.relay) bytes htarget hreading
        simpa [relay, requests, responses, readerFuture, ServerMail.toResponse] using hchunk
  | finished =>
      cases hchanged
      have hfinish := Relay.Step.finish (r := s.relay) htarget hreading
      simpa [relay, requests, responses, readerFuture] using hfinish
  | failed =>
      cases hchanged
      have hfail := Relay.Step.fail (r := s.relay) htarget hreading
      simpa [relay, requests, responses, readerFuture, ServerMail.toResponse] using hfail

theorem forward_refines (hstep : s.forward = some next) : s.Refines .forward next := by
  obtain ⟨-, -, response, rest, hout, rfl⟩ := forward_eq_some hstep
  apply refines_of_relay_eq
  simp [relay, requests, responses, hout]

/-- Every step of the system is a step of its relay. -/
theorem step_refines {event : Event} (hstep : s.step event = some next) :
    s.Refines event next := by
  cases event with
  | connect port => exact connect_refines hstep
  | appBytes index bytes => exact appBytes_refines hstep
  | appPoll index => exact appPoll_refines hstep
  | appClose index => exact appClose_refines hstep
  | socksMail index => exact socksMail_refines hstep
  | tick => exact tick_refines hstep
  | clientMail => exact handleClientMail_refines hstep
  | clientRecv => exact clientRecv_refines hstep
  | serverRecv result => exact serverRecv_refines hstep
  | serverMail => exact handleServerMail_refines hstep
  | resolved index result => exact resolved_refines hstep
  | read index event => exact read_refines hstep
  | forward => exact forward_refines hstep
  | forwardEnds =>
      cases hstep
      exact refines_of_relay_eq rfl
  | wait millis =>
      cases hstep
      exact refines_of_relay_eq rfl

end System

end JustProxy
