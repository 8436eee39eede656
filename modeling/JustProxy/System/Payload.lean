import JustProxy.Component.Upstream
import JustProxy.Socks.Layout
import JustProxy.System.Histories

/-! # Payload on its way to the server

The bytes of an application are its greeting, its request and then payload, and
what its decoder has not returned yet. The payload leaves the session in order,
and nothing of it is lost or doubled before the server writes it to a socket.
-/

namespace JustProxy

open Bytes StreamDecoder

/-- The payload that an item carries. -/
def SocksEvent.payload : SocksEvent → Option (List UInt8)
  | .item (.data bytes) _ => some bytes
  | _ => none

/-- The payload of a session that a request carries. -/
def Tagged.payloadOf (index : Nat) (request : Tagged ProxyRequest) : Option (List UInt8) :=
  if request.tag.cause = some index then
    match request.message.request with
    | .data bytes => some bytes
    | _ => none
  else none

/-- The request that an effect hands to the dispatcher. -/
def SocksEffect.request? : SocksEffect → Option ProxyRequest
  | .doSend request => some request
  | _ => none

/-- A session's request carries the payload of the event behind it. -/
theorem payloadOf_effect (index other : Nat) (uuid : UInt16) (event : SocksEvent) :
    ((event.effect uuid).request?.map fun request =>
        (⟨request, ⟨some other, none⟩⟩ : Tagged ProxyRequest)).toList.filterMap
      (Tagged.payloadOf index) =
        if other = index then event.payload.toList else [] := by
  by_cases hother : other = index
  · subst hother
    rw [if_pos rfl]
    rcases event with ⟨_ | _ | _, now⟩ | ⟨_ | _ | _ | _, now⟩ <;>
      simp [SocksEvent.effect, SocksEffect.request?, SocksEvent.payload, Tagged.payloadOf,
        ProxyRequest.new]
  · rw [if_neg hother]
    rcases event with ⟨_ | _ | _, now⟩ | ⟨_ | _ | _ | _, now⟩ <;>
      simp [SocksEvent.effect, SocksEffect.request?, Tagged.payloadOf, hother]

/-- What a session's decoder has used up before the payload: a greeting with as many
methods as it announces, and a request of the length that it announces. -/
inductive Socks5RequestCodecState.Opening : Socks5RequestCodecState → List UInt8 → Prop where
  | none : Opening .negotiation []
  | greeting {version nMethods : UInt8} {methods : List UInt8}
      (hmethods : methods.length = nMethods.toNat) :
      Opening .working (version :: nMethods :: methods)
  | request {greeting packet : List UInt8} {request : TargetRequest}
      (hgreeting : Opening .working greeting)
      (hlen : Socks5RequestCodec.requestLen packet = some packet.length)
      (hread : Socks5RequestCodec.readTargetRequest packet = some request) :
      Opening .ready (greeting ++ packet)

/-- The bytes of an application have one opening, so what stands behind it is settled. -/
theorem Socks5RequestCodecState.Opening.unique {state : Socks5RequestCodecState}
    {first second rest rest' : List UInt8} (hfirst : state.Opening first)
    (hsecond : state.Opening second) (hbytes : first ++ rest = second ++ rest') :
    first = second ∧ rest = rest' := by
  induction hfirst generalizing second rest rest' with
  | none =>
      cases hsecond
      exact ⟨rfl, hbytes⟩
  | greeting hmethods =>
      cases hsecond with
      | greeting hmethods' =>
          simp only [List.cons_append, List.cons.injEq] at hbytes
          obtain ⟨rfl, rfl, hbytes⟩ := hbytes
          obtain ⟨rfl, rfl⟩ := List.append_inj hbytes (hmethods.trans hmethods'.symm)
          exact ⟨rfl, rfl⟩
  | @request greeting packet request hgreeting hlen hread ih =>
      cases hsecond with
      | @request greeting' packet' request' hgreeting' hlen' hread' =>
          rw [List.append_assoc, List.append_assoc] at hbytes
          obtain ⟨rfl, hpackets⟩ := ih hgreeting' hbytes
          -- the first five bytes of what follows settle the length of the request
          have hfront := requestLen_append hlen rest
          rw [hpackets, requestLen_append hlen' rest', Option.some.injEq] at hfront
          obtain ⟨rfl, rfl⟩ := List.append_inj hpackets hfront.symm
          exact ⟨rfl, rfl⟩

namespace System

variable {s next : System}

/-! ## What a step moves -/

/-- The payload that a session hands to the dispatcher in a step. -/
def forwards (index : Nat) (s : System) (event : Event) : List (List UInt8) :=
  (s.handled index event).filterMap SocksEvent.payload

/-- The payload of a session that the server writes in a step, with the answer of
the socket. -/
def writes (index : Nat) (s : System) : Event → List ProxyClient.UpstreamWrite
  | .serverRecv result =>
      match s.upstream with
      | [] => []
      | request :: _ =>
          if s.serverUp ∧ (s.server.connections request.message.uuid).isSome then
            ((request.payloadOf index).map fun data => ⟨data, result⟩).toList
          else []
  | _ => []

/-- The payload of a session between its actor and the server. -/
def inTransit (s : System) (index : Nat) : List (List UInt8) :=
  s.requests.filterMap (Tagged.payloadOf index)

def arrived (index : Nat) (events : List Event) : List UInt8 :=
  Transition.record step (arrives index) .init events

def forwarded (index : Nat) (events : List Event) : List (List UInt8) :=
  Transition.record step (forwards index) .init events

def written (index : Nat) (events : List Event) : List ProxyClient.UpstreamWrite :=
  Transition.record step (writes index) .init events

/-! ## From the session to the server -/

/-- A step forwards payload into the queue and writes payload from its front. -/
def Carries (s : System) (index : Nat) (event : Event) (next : System) : Prop :=
  s.inTransit index ++ s.forwards index event =
    (s.writes index event).map ProxyClient.UpstreamWrite.data ++ next.inTransit index

theorem carries_of_requests_eq {index : Nat} {event : Event}
    (hrequests : next.requests = s.requests) (hforwards : s.forwards index event = [])
    (hwrites : s.writes index event = []) : s.Carries index event next := by
  rw [Carries, hforwards, hwrites, inTransit, inTransit, hrequests, List.append_nil]
  rfl

theorem requests_socksEffect (index : Nat) (session : Session) (effect : SocksEffect) :
    (s.socksEffect index session effect).requests =
      s.requests ++ (effect.request?.map fun request =>
        (⟨request, ⟨some index, none⟩⟩ : Tagged ProxyRequest)).toList := by
  cases effect <;> simp [requests, socksEffect, updateSession, SocksEffect.request?]

/-- The events that a session handles in its own step decide on what it sends. -/
theorem carries_of_effect {index other : Nat} {event : Event} {handled : SocksEvent}
    {uuid : UInt16} {session : Session}
    (hnext : next = s.socksEffect other session (handled.effect uuid))
    (hhandled : s.handled index event = if other = index then [handled] else [])
    (hwrites : s.writes index event = []) : s.Carries index event next := by
  have hforwards : s.forwards index event =
        if other = index then handled.payload.toList else [] := by
    rw [forwards, hhandled]
    split
    · cases hpayload : handled.payload <;> simp [hpayload]
    · rfl
  rw [Carries, hwrites, hforwards, hnext, inTransit, inTransit, requests_socksEffect,
    List.filterMap_append, payloadOf_effect]
  rfl

theorem appPoll_carries {index other : Nat} (hstep : s.appPoll other = some next) :
    s.Carries index (.appPoll other) next := by
  obtain ⟨session, hrunning, hstep⟩ := Option.bind_eq_some_iff.mp hstep
  -- another session's step is none of this one's
  have hhandled (item : Option SocksRequest) (hitem : session.item? = item) :
      s.handled index (.appPoll other) =
        if other = index then (item.map fun item => SocksEvent.item item s.clock).toList
        else [] := by
    by_cases hother : other = index
    · subst hother
      simp [handled, hrunning, hitem]
    · simp [handled, hother]
  split at hstep
  next item codec rest hdecode =>
    have hitem : session.item? = some item := by rw [Session.item?, hdecode]
    have heffect : (session.client.handleSocksRequest item s.clock).2 =
        (SocksEvent.item item s.clock).effect session.client.uuid := by
      cases item <;> rfl
    let handling : Session := { session with
      client := (session.client.handleSocksRequest item s.clock).1
      codec := codec
      buffer := rest }
    have hnext : next = s.socksEffect other handling
        ((SocksEvent.item item s.clock).effect session.client.uuid) := by
      rw [← heffect]
      exact (Option.some.inj hstep).symm
    exact carries_of_effect hnext (hhandled _ hitem) rfl
  next => cases hstep
  next error codec rest hdecode =>
    have hitem : session.item? = none := by rw [Session.item?, hdecode]
    cases hstep
    refine carries_of_requests_eq rfl ?_ rfl
    rw [forwards, hhandled _ hitem]
    split <;> rfl
  next codec rest hdecode =>
    have hitem : session.item? = none := by rw [Session.item?, hdecode]
    cases hstep
    refine carries_of_requests_eq rfl ?_ rfl
    rw [forwards, hhandled _ hitem]
    split <;> rfl

/-- What a session hears is never payload of its application. -/
theorem forwards_socksMail (index other : Nat) : s.forwards index (.socksMail other) = [] := by
  rw [forwards, List.filterMap_eq_nil_iff]
  intro event hevent
  rw [handled] at hevent
  split at hevent
  · obtain ⟨session, -, hmsg⟩ := Option.bind_eq_some_iff.mp (Option.mem_toList.mp hevent)
    obtain ⟨msg, -, rfl⟩ := Option.map_eq_some_iff.mp hmsg
    rfl
  · cases hevent

theorem socksMail_carries {index other : Nat} (hstep : s.socksMail other = some next) :
    s.Carries index (.socksMail other) next := by
  have hforwards := forwards_socksMail (s := s) index other
  obtain ⟨session, hrunning, hstep⟩ := Option.bind_eq_some_iff.mp hstep
  split at hstep
  next => cases hstep
  next msg rest hinbox =>
    split at hstep
    next =>
      cases hstep
      exact carries_of_requests_eq rfl hforwards rfl
    next client effect hhandle =>
      cases hstep
      refine carries_of_requests_eq ?_ hforwards rfl
      obtain ⟨-, ⟨response, rfl⟩ | rfl⟩ := SocksClient.handleConnectorResponse_eq_some hhandle
      · exact (requests_socksEffect _ _ _).trans (List.append_nil _)
      · exact (requests_socksEffect _ _ _).trans (List.append_nil _)

theorem handleClientMail_carries {index : Nat} (hstep : s.handleClientMail = some next) :
    s.Carries index .clientMail next := by
  cases handleClientMail_cases hstep with
  | request hup hmail =>
      refine carries_of_requests_eq ?_ rfl rfl
      simp [requests, hmail]
  | @heartbeat tag rest hup hmail =>
      -- a heartbeat may pass payload that still waits
      have hrest : List.filterMap ClientMail.toRequest (⟨.heartbeat, tag⟩ :: rest) =
          List.filterMap ClientMail.toRequest rest := rfl
      simp [hrest, Carries, inTransit, requests, hmail, forwards, handled, writes, Tagged.payloadOf,
        Tag.none, Server.handleHeartbeat]

theorem serverRecv_carries {index : Nat} {result : WriteResult}
    (hstep : s.serverRecv result = some next) : s.Carries index (.serverRecv result) next := by
  obtain ⟨hup, request, tag, rest, hupstream, rfl⟩ := serverRecv_eq_some hstep
  obtain ⟨uuid, transferLen, transferType, transfer⟩ := request
  cases transfer with
  | requestAddr addr =>
      simp [Carries, inTransit, requests, hupstream, forwards, handled, writes,
        Tagged.payloadOf, ProxyClient.handleProxyRequest, react, serverEffect]
  | data data =>
      cases hconn : s.server.connections uuid with
      | none =>
          -- the server panics, and the payload stays where it is
          refine carries_of_requests_eq ?_ rfl ?_
          · simp [ProxyClient.handleProxyRequest, ProxyClient.handleData, hconn, react,
              requests]
          · simp [writes, hupstream, hconn]
      | some writer =>
          by_cases hindex : tag.cause = some index <;>
            simp [Carries, inTransit, requests, hupstream, forwards, handled, writes,
              Tagged.payloadOf, ProxyClient.handleProxyRequest, ProxyClient.handleData, hconn,
              react, serverEffect, hindex, hup]
  | response kind =>
      refine carries_of_requests_eq ?_ rfl ?_
      · simp [ProxyClient.handleProxyRequest, react, requests]
      · simp [writes, hupstream, Tagged.payloadOf]
  | heartbeat heartbeat =>
      rcases unboundedSend_eq s.server (.new uuid (.heartbeat heartbeat)) with hsend | hsend
      · refine carries_of_requests_eq ?_ rfl ?_
        · simp [ProxyClient.handleProxyRequest, hsend, react, requests]
        · simp [writes, hupstream, Tagged.payloadOf]
      · simp [Carries, inTransit, requests, hupstream, forwards, handled, writes,
          Tagged.payloadOf, ProxyClient.handleProxyRequest, hsend, react, serverEffect]

theorem requests_of_serverStep {event : Event} (hstep : s.step event = some next)
    (hserver : event.isServer = true) (hupstream : next.upstream = s.upstream) :
    next.requests = s.requests := by
  have hmail : next.clientMail = s.clientMail :=
    congrArg ClientProcess.clientMail (step_server hstep hserver)
  rw [requests, requests, hmail, hupstream]

theorem upstream_handleServerMail (hstep : s.handleServerMail = some next) :
    next.upstream = s.upstream := by
  obtain ⟨-, mail, tag, rest, hmail, rfl⟩ := handleServerMail_eq_some hstep
  rcases handleMail_toResponse s.server mail with hpanic | ⟨server, hsend, -⟩
  · rw [hpanic]
    rfl
  · rw [hsend]
    rfl

theorem requests_clientRecv (hstep : s.clientRecv = some next) : next.requests = s.requests := by
  cases clientRecv_cases hstep <;> rfl

theorem step_carries {event : Event} (hstep : s.step event = some next) (index : Nat) :
    s.Carries index event next := by
  cases event with
  | connect port =>
      obtain ⟨-, -, rfl⟩ := connect_eq_some hstep
      exact carries_of_requests_eq rfl rfl rfl
  | appBytes other bytes =>
      obtain ⟨session, -, rfl⟩ := Option.map_eq_some_iff.mp hstep
      exact carries_of_requests_eq rfl rfl rfl
  | appPoll other => exact appPoll_carries hstep
  | appClose other =>
      obtain ⟨session, -, rfl⟩ := Option.map_eq_some_iff.mp hstep
      exact carries_of_requests_eq rfl rfl rfl
  | socksMail other => exact socksMail_carries hstep
  | tick =>
      obtain ⟨-, ⟨-, rfl⟩ | ⟨-, rfl⟩⟩ := tick_eq_some hstep
      · refine carries_of_requests_eq ?_ rfl rfl
        simp [requests]
      · exact carries_of_requests_eq rfl rfl rfl
  | clientMail => exact handleClientMail_carries hstep
  | clientRecv => exact carries_of_requests_eq (requests_clientRecv hstep) rfl rfl
  | serverRecv result => exact serverRecv_carries hstep
  | serverMail =>
      exact carries_of_requests_eq
        (requests_of_serverStep hstep rfl (upstream_handleServerMail hstep)) rfl rfl
  | resolved other result =>
      refine carries_of_requests_eq (requests_of_serverStep hstep rfl ?_) rfl rfl
      obtain ⟨-, before, uuid, addr, tag, after, -, rfl⟩ := resolved_eq_some hstep
      rfl
  | read target result =>
      refine carries_of_requests_eq (requests_of_serverStep hstep rfl ?_) rfl rfl
      obtain ⟨-, old, changed, -, -, -, rfl⟩ := read_eq_some hstep
      rfl
  | forward =>
      refine carries_of_requests_eq (requests_of_serverStep hstep rfl ?_) rfl rfl
      obtain ⟨-, -, response, rest, -, rfl⟩ := forward_eq_some hstep
      rfl
  | forwardEnds =>
      cases hstep
      exact carries_of_requests_eq rfl rfl rfl
  | wait millis =>
      cases hstep
      exact carries_of_requests_eq rfl rfl rfl

/-- Payload reaches the server in the order in which it leaves the session, each
piece once. -/
theorem forwarded_eq {events : List Event} (hrun : run events = some s) (index : Nat) :
    forwarded index events =
      (written index events).map ProxyClient.UpstreamWrite.data ++ s.inTransit index := by
  refine Transition.run_induction
    (motive := fun (events : List Event) (s : System) => forwarded index events =
      (written index events).map ProxyClient.UpstreamWrite.data ++ s.inTransit index)
    rfl ?_ hrun
  intro past state event next hpast ih hstep
  have hcarries := step_carries hstep index
  have hforwarded := Transition.record_concat (forwards index) hpast hstep
  have hwritten := Transition.record_concat (writes index) hpast hstep
  rw [forwarded] at ih ⊢
  rw [written] at ih ⊢
  rw [hforwarded, hwritten, ih, List.map_append, List.append_assoc, List.append_assoc, ← hcarries]

/-! ## From the application to the session -/

/-- The bytes of an application that have arrived, and what its session has made of
them: its opening, these pieces of payload, and what its decoder has not returned. There
is no payload before the opening is whole. -/
structure Parses (session : Session) (bytes : List UInt8) (chunks : List (List UInt8)) :
    Prop where
  waits : session.codec ≠ .ready → chunks = []
  split : ∃ opening, session.codec.Opening opening ∧
    bytes = opening ++ (chunks.flatten ++ session.buffer)

theorem parses_new (port : UInt16) : Parses (.new port) [] [] where
  waits _ := rfl
  split := ⟨[], .none, rfl⟩

/-- Returning an item moves bytes from the buffer to the opening or the payload. -/
theorem Parses.decode {session session' : Session} {bytes : List UInt8}
    {chunks : List (List UInt8)} (hparses : Parses session bytes chunks) {item : SocksRequest}
    (hdecode : Socks5RequestCodec.decode session.codec session.buffer =
      (.item item, session'.codec, session'.buffer)) (now : Nat) :
    Parses session' bytes (chunks ++ [SocksEvent.item item now].filterMap SocksEvent.payload) := by
  obtain ⟨opening, hopening, hbytes⟩ := hparses.split
  have hverdict := congrArg Prod.fst hdecode
  have hrest := congrArg (fun answer => answer.2.2) hdecode
  rcases Socks5RequestCodec.decode_item hdecode with ⟨hstate, hstate', greeting, rfl⟩ |
    ⟨hstate, hstate', request, rfl⟩ | ⟨hstate, hstate', data, rfl⟩
  · rw [hstate] at hverdict hrest hopening
    have hnone := hparses.waits (by rw [hstate]; exact nofun)
    obtain ⟨version, nMethods, methods, hsrc, hmethods, -⟩ :=
      Socks5RequestCodec.decodeMethodSelection_item (Prod.ext hverdict hrest)
    cases hopening
    subst hnone
    refine ⟨fun _ => rfl, version :: nMethods :: methods, ?_, ?_⟩
    · rw [hstate']
      exact .greeting hmethods
    · rw [hbytes, hsrc]
      rfl
  · rw [hstate] at hverdict hrest hopening
    have hnone := hparses.waits (by rw [hstate]; exact nofun)
    obtain ⟨packet, read, hsrc, -, hlen, hread, -⟩ :=
      Socks5RequestCodec.decodeTargetRequest_item (Prod.ext hverdict hrest)
    rw [hsrc] at hlen
    subst hnone
    refine ⟨fun _ => rfl, opening ++ packet, ?_, ?_⟩
    · rw [hstate']
      exact .request hopening (requestLen_of_append hlen) hread
    · rw [hbytes, hsrc, List.append_assoc]
      rfl
  · rw [hstate] at hverdict hrest hopening
    simp only [Socks5RequestCodec.decode, Socks5RequestCodec.decodeData] at hverdict hrest
    split at hverdict
    · cases hverdict
    next hlong =>
      cases hverdict
      rw [if_neg hlong] at hrest
      refine ⟨fun hcodec => absurd hstate' hcodec, opening, ?_, ?_⟩
      · rw [hstate']
        exact hopening
      · rw [hbytes, ← hrest]
        simp [SocksEvent.payload]

section Parses

variable {index : Nat} {session session' : Session} {bytes : List UInt8}
  {chunks : List (List UInt8)}

theorem Parses.of_same (hparses : Parses session bytes chunks)
    (hcodec : session'.codec = session.codec) (hbuffer : session'.buffer = session.buffer) :
    Parses session' bytes chunks := by
  obtain ⟨hwaits, hsplit⟩ := hparses
  rw [← hcodec] at hwaits hsplit
  rw [← hbuffer] at hsplit
  exact ⟨hwaits, hsplit⟩

theorem Parses.changes {now : Nat} {more : List UInt8} {events : List SocksEvent}
    {answers : List ConnectorResponse} (hparses : Parses session bytes chunks)
    (hchanges : session.Changes now more events answers session') :
    Parses session' (bytes ++ more) (chunks ++ events.filterMap SocksEvent.payload) := by
  have hsame : Parses session (bytes ++ []) (chunks ++ []) := by
    rwa [List.append_nil, List.append_nil]
  cases hchanges with
  | stay => exact hsame
  | told answer =>
      rw [Session.push]
      split
      · exact hsame.of_same rfl rfl
      · exact hsame
  | bytes bytes' hrunning =>
      obtain ⟨opening, hopening, hbytes⟩ := hparses.split
      rw [List.filterMap_nil, List.append_nil]
      refine ⟨hparses.waits, opening, hopening, ?_⟩
      rw [hbytes, List.append_assoc, List.append_assoc]
  | @item item codec rest hrunning hdecode =>
      rw [List.append_nil]
      have hdecoded : Parses { session with codec := codec, buffer := rest } bytes
          (chunks ++ [SocksEvent.item item now].filterMap SocksEvent.payload) :=
        hparses.decode hdecode now
      exact hdecoded.of_same (Session.codec_after _ _) (Session.buffer_after _ _)
  | @answer msg rest client effect hrunning hinbox hhandle =>
      exact hsame.of_same (Session.codec_after _ _) (Session.buffer_after _ _)
  | panic hrunning hinbox hhandle => exact hsame.of_same rfl rfl
  | stop hrunning => exact hsame.of_same rfl rfl

end Parses

/-- The payload that a session has forwarded, by what its actor has handled. -/
theorem forwarded_eq_history (index : Nat) (events : List Event) :
    forwarded index events = (history index events).filterMap SocksEvent.payload :=
  Transition.record_filterMap (handled index) SocksEvent.payload _ _

/-- In every run the bytes of an application are its opening, its payload and what
its decoder has not returned. -/
theorem parses_of_run {events : List Event} (hrun : run events = some s) {index : Nat}
    {session : Session} (hsession : s.sessions[index]? = some session) :
    Parses session (arrived index events) (forwarded index events) := by
  refine session_induction
    (motive := fun (events : List Event) (_ : System) (session : Session) =>
      Parses session (arrived index events) (forwarded index events))
    ?new ?changes hrun hsession
  case new =>
    intro events s port _ _ hhistory harrived
    rw [forwarded_eq_history, hhistory, arrived, harrived]
    exact parses_new port
  case changes =>
    intro past state event next session session' answers hpast hstep _ hparses _ hchanges
    have harrived : arrived index (past ++ [event]) =
        arrived index past ++ state.arrives index event :=
      Transition.record_concat (arrives index) hpast hstep
    have hforwarded : forwarded index (past ++ [event]) =
        forwarded index past ++ state.forwards index event :=
      Transition.record_concat (forwards index) hpast hstep
    rw [harrived, hforwarded]
    exact hparses.changes hchanges

end System

end JustProxy
