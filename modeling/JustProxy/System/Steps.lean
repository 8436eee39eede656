import JustProxy.Component.Reader
import JustProxy.System.Refinement

/-! # What single steps leave alone

The two processes only meet in the tunnel: a step of one leaves the other as it
is. A session's step changes its own session and may ask the dispatcher to send.
-/

namespace JustProxy

/-! ## What a mailbox carries -/

/-- What a session asks the dispatcher to send. -/
def ProxyTransfer.fromSession : ProxyTransfer → Bool
  | .requestAddr _ => true
  | .data _ => true
  | _ => false

/-- What a refused connect or a reader asks the server to send. -/
def ProxyTransfer.fromTarget : ProxyTransfer → Bool
  | .data _ => true
  | .response .connectionRefused => true
  | .response .timeout => true
  | _ => false

/-- A message that a session, or the dispatcher's clock, has put into the mailbox. -/
def ClientMail.Plain : ClientMail → Prop
  | .proxyRequest request => request.request.fromSession = true
  | .heartbeat => True

/-- A message that a resolver's callback or a reader has put into the mailbox. -/
def ServerMail.Plain {Writer : Type} : ServerMail Writer → Prop
  | .proxyResponse response => response.response.fromTarget = true
  | .connectionDead _ => True
  | .connectionEstablished _ _ => True

theorem resolverCallback_plain {Writer : Type} (uuid : UInt16) (result : ConnectResult Writer) :
    (resolverCallback uuid result).Plain := by
  cases result with
  | connected writer => trivial
  | _ => rfl

theorem readerFuture_plain {Writer : Type} {uuid : UInt16} {event : ReadEvent}
    {mail : ServerMail Writer} (hmail : readerFuture uuid event = some mail) : mail.Plain := by
  cases event with
  | chunk bytes =>
      cases hmail
      rfl
  | finished => cases hmail
  | failed =>
      cases hmail
      trivial

/-! ## Sessions -/

/-- The session whose application or actor an event belongs to. -/
def Event.session : Event → Option Nat
  | .appBytes index _ => some index
  | .appPoll index => some index
  | .appClose index => some index
  | .socksMail index => some index
  | _ => none

/-- A session after its own step keeps its port. While it runs, it has handled at
most one message, and no `Abort`. -/
structure Session.Goes (session session' : Session) : Prop where
  uuid : session'.client.uuid = session.client.uuid
  inbox : session'.running = false ∨ session'.inbox = session.inbox ∨
    ∃ msg, msg ≠ .abort ∧ session.inbox = msg :: session'.inbox

/-- The part of the state that belongs to the client's process. -/
structure ClientProcess where
  dispatcher : Server Nat
  dispatcherUp : Bool
  clientMail : List (Tagged ClientMail)
  sessions : List Session
  deliveries : List Delivery

/-- The part of the state that belongs to the server's process. -/
structure ServerProcess where
  server : ProxyClient Nat
  serverUp : Bool
  serverMail : List (Tagged (ServerMail Nat))
  resolving : List (Tagged (UInt16 × String))
  targets : List Target
  outQueue : List (Tagged ProxyResponse)

def System.clientProcess (s : System) : ClientProcess where
  dispatcher := s.dispatcher
  dispatcherUp := s.dispatcherUp
  clientMail := s.clientMail
  sessions := s.sessions
  deliveries := s.deliveries

def System.serverProcess (s : System) : ServerProcess where
  server := s.server
  serverUp := s.serverUp
  serverMail := s.serverMail
  resolving := s.resolving
  targets := s.targets
  outQueue := s.outQueue

def Event.isServer : Event → Bool
  | .serverRecv _ => true
  | .serverMail => true
  | .resolved _ _ => true
  | .read _ _ => true
  | .forward => true
  | .forwardEnds => true
  | _ => false

namespace System

variable {s next : System}

/-- The step of a session changes the session, and puts plain mail into the
dispatcher's mailbox. -/
def SessionStep (s : System) (index : Nat) (next : System) : Prop :=
  ∃ session session' mails, s.runningSession index = some session ∧ session.Goes session' ∧
    (∀ mail ∈ mails, ClientMail.Plain mail.message) ∧
    next = { s with
      sessions := s.sessions.set index session'
      clientMail := s.clientMail ++ mails }

theorem sessionStep_update {index : Nat} {session session' : Session}
    (hsession : s.runningSession index = some session) (hgoes : session.Goes session') :
    s.SessionStep index (s.updateSession index session') := by
  refine ⟨session, session', [], hsession, hgoes, nofun, ?_⟩
  rw [List.append_nil]
  rfl

theorem sessionStep_stop {index : Nat} {session : Session}
    (hsession : s.runningSession index = some session) :
    s.SessionStep index (s.updateSession index { session with running := false }) :=
  sessionStep_update hsession ⟨rfl, .inl rfl⟩

theorem sessionStep_doSend {index : Nat} {session session' : Session} {request : ProxyRequest}
    (hsession : s.runningSession index = some session) (hgoes : session.Goes session')
    (hplain : request.request.fromSession = true) :
    s.SessionStep index (s.socksEffect index session' (.doSend request)) :=
  ⟨session, session', [⟨.proxyRequest request, ⟨some index, none⟩⟩], hsession, hgoes,
    List.forall_mem_singleton.mpr hplain, rfl⟩

theorem appPoll_sessionStep {index : Nat} (hstep : s.appPoll index = some next) :
    s.SessionStep index next := by
  obtain ⟨session, hsession, hstep⟩ := Option.bind_eq_some_iff.mp hstep
  split at hstep
  next item codec rest hdecode =>
    cases hstep
    cases item with
    | negotiation greeting => exact sessionStep_update hsession ⟨rfl, .inr (.inl rfl)⟩
    | targetRequest request =>
        exact sessionStep_doSend hsession ⟨rfl, .inr (.inl rfl)⟩ rfl
    | data bytes =>
        exact sessionStep_doSend hsession ⟨rfl, .inr (.inl rfl)⟩ rfl
  next => cases hstep
  next =>
    cases hstep
    exact sessionStep_stop hsession
  next =>
    cases hstep
    exact sessionStep_stop hsession

theorem socksMail_sessionStep {index : Nat} (hstep : s.socksMail index = some next) :
    s.SessionStep index next := by
  obtain ⟨session, hsession, hstep⟩ := Option.bind_eq_some_iff.mp hstep
  split at hstep
  next => cases hstep
  next msg rest hinbox =>
    split at hstep
    next =>
      cases hstep
      exact sessionStep_stop hsession
    next client effect hhandle =>
      cases hstep
      obtain ⟨huuid, ⟨response, rfl⟩ | rfl⟩ :=
        SocksClient.handleConnectorResponse_eq_some hhandle
      · -- an answer to the application is not what an `Abort` leads to
        have hmsg : msg ≠ .abort := by
          rintro rfl
          cases hhandle
        exact sessionStep_update hsession ⟨huuid, .inr (.inr ⟨msg, hmsg, hinbox⟩)⟩
      · exact sessionStep_update hsession ⟨huuid, .inl rfl⟩

/-- What a step of a session does. -/
theorem step_session {event : Event} {index : Nat} (hstep : s.step event = some next)
    (hsession : event.session = some index) : s.SessionStep index next := by
  cases event with
  | appBytes other bytes =>
      cases hsession
      obtain ⟨session, hrunning, rfl⟩ := Option.map_eq_some_iff.mp hstep
      exact sessionStep_update hrunning ⟨rfl, .inr (.inl rfl)⟩
  | appPoll other =>
      cases hsession
      exact appPoll_sessionStep hstep
  | appClose other =>
      cases hsession
      obtain ⟨session, hrunning, rfl⟩ := Option.map_eq_some_iff.mp hstep
      exact sessionStep_stop hrunning
  | socksMail other =>
      cases hsession
      exact socksMail_sessionStep hstep
  | _ => cases hsession

/-! ## Processes -/

theorem toResponse_eq_queued (mail : ServerMail Nat) : mail.toResponse = mail.queued := by
  cases mail <;> rfl

/-- Whatever the mail, the server either panics, or it queues the mail's response
and changes the entry of the mail's connection. -/
theorem handleMail_toResponse (self : ProxyClient Nat) (mail : ServerMail Nat) :
    self.handleMail mail = none ∨
      ∃ server, self.handleMail mail = some (server, [.send mail.toResponse]) ∧
        ∀ uuid, server.connections uuid =
          if mail.uuid = uuid then mail.entryAfter (self.connections uuid)
          else self.connections uuid := by
  cases hreceiving : self.receiving with
  | true =>
      obtain ⟨server, hmail, -, hentries⟩ := ProxyClient.handleMail_eq hreceiving mail
      rw [← toResponse_eq_queued] at hmail
      exact .inr ⟨server, hmail, hentries⟩
  | false =>
      apply Or.inl
      cases mail with
      | proxyResponse response =>
          simp [ProxyClient.handleMail, ProxyClient.handleProxyResponse,
            ProxyClient.unboundedSend, hreceiving]
      | connectionDead uuid =>
          simp [ProxyClient.handleMail, ProxyClient.handleConnectionDead,
            ProxyClient.unboundedSend, ProxyClient.removeConnection, hreceiving]
      | connectionEstablished uuid writer =>
          simp [ProxyClient.handleMail, ProxyClient.handleConnectionEstablished,
            ProxyClient.unboundedSend, ProxyClient.insertConnection, hreceiving]

/-- The steps of the server's process. -/
inductive ServerStep (s : System) : System → Prop where
  | mail {mail : ServerMail Nat} {tag : Tag} {rest : List (Tagged (ServerMail Nat))}
      {server : ProxyClient Nat} (hmail : s.serverMail = ⟨mail, tag⟩ :: rest)
      (hentries : ∀ uuid, server.connections uuid =
        if mail.uuid = uuid then mail.entryAfter (s.server.connections uuid)
        else s.server.connections uuid) :
      ServerStep s { s with
        server := server
        serverMail := rest
        outQueue := s.outQueue ++ [⟨mail.toResponse, tag⟩] }
  | echo {request : ProxyRequest} {tag : Tag} {rest : List (Tagged ProxyRequest)}
      {index : UInt32} (hupstream : s.upstream = ⟨request, tag⟩ :: rest)
      (hindex : request.request = .heartbeat index) :
      ServerStep s { s with
        upstream := rest
        outQueue := s.outQueue ++ [⟨.new request.uuid (.heartbeat index), tag⟩] }
  /-- A request that is not answered at once may take an entry away. -/
  | request {request : ProxyRequest} {tag : Tag} {rest : List (Tagged ProxyRequest)}
      {server : ProxyClient Nat} {resolving : List (Tagged (UInt16 × String))}
      {socketBytes : Nat → List UInt8} (hupstream : s.upstream = ⟨request, tag⟩ :: rest)
      (hplain : request.request.fromSession = true)
      (hentries : ∀ uuid, server.connections uuid ≠ none → s.server.connections uuid ≠ none) :
      ServerStep s { s with
        upstream := rest
        server := server
        resolving := resolving
        socketBytes := socketBytes }
  /-- A resolver's callback or a reader puts mail into the mailbox. -/
  | post {mails : List (Tagged (ServerMail Nat))}
      {resolving : List (Tagged (UInt16 × String))} {targets : List Target}
      (hmails : ∀ mail ∈ mails, mail.message.Plain) :
      ServerStep s { s with
        serverMail := s.serverMail ++ mails
        resolving := resolving
        targets := targets }
  | forward {response : Tagged ProxyResponse} {rest : List (Tagged ProxyResponse)}
      (hout : s.outQueue = response :: rest) :
      ServerStep s { s with outQueue := rest, downstream := s.downstream ++ [response] }
  /-- A handler panics, or the forwarding task ends. -/
  | quiet {server : ProxyClient Nat} {serverUp : Bool}
      (hconnections : server.connections = s.server.connections) :
      ServerStep s { s with server := server, serverUp := serverUp }

theorem serverRecv_serverStep {result : WriteResult} (hstep : s.serverRecv result = some next) :
    s.ServerStep next := by
  obtain ⟨-, request, tag, rest, hupstream, rfl⟩ := serverRecv_eq_some hstep
  obtain ⟨uuid, transferLen, transferType, transfer⟩ := request
  cases transfer with
  | requestAddr addr => exact .request hupstream rfl fun _ => id
  | data data =>
      cases hconn : s.server.connections uuid with
      | none =>
          simp only [ProxyClient.handleProxyRequest, ProxyClient.handleData, hconn]
          exact .quiet rfl
      | some writer =>
          simp only [ProxyClient.handleProxyRequest, ProxyClient.handleData, hconn]
          refine .request hupstream rfl fun other hentry => ?_
          split at hentry
          next =>
            by_cases hother : other = uuid
            · simp [hother] at hentry
            · simpa [ProxyClient.removeConnection, hother] using hentry
          next => exact hentry
  | response kind => exact .quiet rfl
  | heartbeat index =>
      rcases unboundedSend_eq s.server (.new uuid (.heartbeat index)) with hsend | hsend
      · simp only [ProxyClient.handleProxyRequest, hsend]
        exact .quiet rfl
      · simp only [ProxyClient.handleProxyRequest, hsend]
        exact .echo hupstream rfl

theorem handleServerMail_serverStep (hstep : s.handleServerMail = some next) :
    s.ServerStep next := by
  obtain ⟨-, mail, tag, rest, hmail, rfl⟩ := handleServerMail_eq_some hstep
  rcases handleMail_toResponse s.server mail with hpanic | ⟨server, hsend, hentries⟩
  · rw [hpanic]
    exact .quiet rfl
  · rw [hsend]
    exact .mail hmail hentries

theorem resolved_serverStep {index : Nat} {result : ConnectResult Unit}
    (hstep : s.resolved index result = some next) : s.ServerStep next := by
  obtain ⟨-, before, uuid, addr, tag, after, -, rfl⟩ := resolved_eq_some hstep
  exact .post (List.forall_mem_singleton.mpr (resolverCallback_plain uuid _))

theorem read_serverStep {index : Nat} {event : ReadEvent} (hstep : s.read index event = some next) :
    s.ServerStep next := by
  obtain ⟨-, target, changed, -, -, -, rfl⟩ := read_eq_some hstep
  apply ServerStep.post
  intro mail hmem
  obtain ⟨message, hmessage, rfl⟩ := Option.map_eq_some_iff.mp (Option.mem_toList.mp hmem)
  exact readerFuture_plain hmessage

theorem step_serverStep {event : Event} (hstep : s.step event = some next)
    (hserver : event.isServer = true) : s.ServerStep next := by
  cases event with
  | serverRecv result => exact serverRecv_serverStep hstep
  | serverMail => exact handleServerMail_serverStep hstep
  | resolved index result => exact resolved_serverStep hstep
  | read index event => exact read_serverStep hstep
  | forward =>
      obtain ⟨-, -, response, rest, hout, rfl⟩ := forward_eq_some hstep
      exact .forward hout
  | forwardEnds =>
      cases hstep
      exact .quiet rfl
  | _ => cases hserver

/-- A step of the server leaves the client as it is. -/
theorem step_server {event : Event} (hstep : s.step event = some next)
    (hserver : event.isServer = true) : next.clientProcess = s.clientProcess := by
  cases step_serverStep hstep hserver <;> rfl

/-- The steps of the client's process. -/
inductive ClientStep (s : System) : System → Prop where
  | session {index : Nat} {next : System} (hsession : s.SessionStep index next) :
      ClientStep s next
  | connect {port : UInt16} (hport : port ≠ 0) :
      ClientStep s { s with
        dispatcher := s.dispatcher.handleSocksConnected port s.sessions.length
        sessions := s.sessions ++ [.new port] }
  | deliver {response : ProxyResponse} {tag : Tag} {rest : List (Tagged ProxyResponse)}
      {index : Nat} {answer : ConnectorResponse}
      (hdownstream : s.downstream = ⟨response, tag⟩ :: rest)
      (hclient : s.dispatcher.clients response.uuid = some index)
      (hanswer : Server.connectorResponse response.response = some answer) :
      ClientStep s { s with
        sessions := (s.pushInbox index answer).sessions
        downstream := rest
        deliveries := s.deliveries ++ [⟨index, answer, tag⟩] }
  | echo {response : ProxyResponse} {tag : Tag} {rest : List (Tagged ProxyResponse)}
      {index : UInt32} {dispatcher : Server Nat}
      (hdownstream : s.downstream = ⟨response, tag⟩ :: rest)
      (hindex : response.response = .heartbeat index)
      (hclients : dispatcher.clients = s.dispatcher.clients) :
      ClientStep s { s with dispatcher := dispatcher, downstream := rest }
  /-- The dispatcher goes down on a response that it cannot handle. -/
  | panic {response : ProxyResponse} {tag : Tag} {rest : List (Tagged ProxyResponse)}
      (hdownstream : s.downstream = ⟨response, tag⟩ :: rest)
      (hhandle : s.dispatcher.handleProxyResponse response s.clock = none) :
      ClientStep s { s with dispatcherUp := false }
  /-- The dispatcher sends something, or time passes. -/
  | quiet {clock : Nat} {dispatcher : Server Nat} {clientMail : List (Tagged ClientMail)}
      {upstream : List (Tagged ProxyRequest)}
      (hclients : dispatcher.clients = s.dispatcher.clients) :
      ClientStep s { s with
        clock := clock
        dispatcher := dispatcher
        clientMail := clientMail
        upstream := upstream }

theorem clientRecv_clientStep (hstep : s.clientRecv = some next) : s.ClientStep next := by
  cases clientRecv_cases hstep with
  | panic hup hdownstream hhandle => exact .panic hdownstream hhandle
  | echo hup hdownstream hzero hindex hhandle => exact .echo hdownstream hindex rfl
  | deliver hup hdownstream hzero hclient hanswer hhandle =>
      exact .deliver hdownstream hclient hanswer

theorem step_clientStep {event : Event} (hstep : s.step event = some next)
    (hclient : event.isServer = false) : s.ClientStep next := by
  cases event with
  | connect port =>
      obtain ⟨-, hport, rfl⟩ := connect_eq_some hstep
      exact .connect hport
  | appBytes index bytes => exact .session (step_session hstep rfl)
  | appPoll index => exact .session (step_session hstep rfl)
  | appClose index => exact .session (step_session hstep rfl)
  | socksMail index => exact .session (step_session hstep rfl)
  | tick =>
      obtain ⟨-, ⟨-, rfl⟩ | ⟨-, rfl⟩⟩ := tick_eq_some hstep
      · exact .quiet rfl
      · exact .quiet rfl
  | clientMail => cases handleClientMail_cases hstep <;> exact .quiet rfl
  | clientRecv => exact clientRecv_clientStep hstep
  | wait millis =>
      cases hstep
      exact .quiet rfl
  | _ => cases hclient

/-- A step of a session or of the dispatcher leaves the server as it is. -/
theorem step_client {event : Event} (hstep : s.step event = some next)
    (hclient : event.isServer = false) : next.serverProcess = s.serverProcess := by
  cases step_clientStep hstep hclient with
  | session hsession =>
      obtain ⟨session, session', mails, -, -, -, rfl⟩ := hsession
      rfl
  | _ => rfl

end System

end JustProxy
