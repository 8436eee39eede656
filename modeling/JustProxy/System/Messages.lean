import JustProxy.System.Steps

/-! # Messages in the tunnel

A step looks at no message in the tunnel but the first one, and puts a new one behind
all others. Every message has been built by its constructor, so it declares the length
and the type of its transfer.
-/

namespace JustProxy

/-- The same processes with other messages between them. -/
def System.withTunnel (s : System) (upstream : List (Tagged ProxyRequest))
    (downstream : List (Tagged ProxyResponse)) : System :=
  { s with upstream := upstream, downstream := downstream }

/-- Events that neither put a message into the tunnel nor take one from it. -/
def Event.isLocal : Event → Bool
  | .clientMail => false
  | .clientRecv => false
  | .serverRecv _ => false
  | .forward => false
  | _ => true

namespace System

/-! ## Messages in the tunnel -/

section Tunnel

variable {s : System} (upstream : List (Tagged ProxyRequest))
  (downstream : List (Tagged ProxyResponse))

@[simp] theorem clock_withTunnel : (s.withTunnel upstream downstream).clock = s.clock := rfl

theorem socksEffect_withTunnel (index : Nat) (session : Session) (effect : SocksEffect) :
    (s.withTunnel upstream downstream).socksEffect index session effect =
      (s.socksEffect index session effect).withTunnel upstream downstream := by
  cases effect <;> rfl

theorem foldl_serverEffect_withTunnel (tag : Tag) (effects : List (ServerEffect Nat))
    (s : System) : effects.foldl (serverEffect tag) (s.withTunnel upstream downstream) =
      (effects.foldl (serverEffect tag) s).withTunnel upstream downstream := by
  induction effects generalizing s with
  | nil => rfl
  | cons effect rest ih =>
      rw [List.foldl_cons, List.foldl_cons, ← ih]
      cases effect <;> rfl

/-- A local step happens in the same way whatever is in the tunnel, and leaves it there. -/
theorem step_local {event : Event} (hlocal : event.isLocal = true) :
    (s.withTunnel upstream downstream).step event =
      (s.step event).map (withTunnel · upstream downstream) := by
  -- with the fields of the state at hand, both sides branch on the same ones
  obtain ⟨clock, dispatcher, dispatcherUp, clientMail, sessions, up, down, server, serverUp,
    serverMail, resolving, targets, socketBytes, outQueue, deliveries⟩ := s
  cases event with
  | connect port =>
      by_cases hopen : dispatcherUp = true ∧ port ≠ 0
      · simp [step, connect, withTunnel, hopen]
      · simp [step, connect, withTunnel, hopen]
  | appBytes index bytes =>
      simp only [step, appBytes, Option.map_map]
      rfl
  | appPoll index =>
      simp only [step, appPoll, Option.map_bind]
      refine Option.bind_congr fun session _ => ?_
      simp only [Function.comp]
      split
      next item codec rest hdecode => exact congrArg some (socksEffect_withTunnel ..)
      all_goals rfl
  | appClose index =>
      simp only [step, appClose, Option.map_map]
      rfl
  | socksMail index =>
      simp only [step, socksMail, Option.map_bind]
      refine Option.bind_congr fun session _ => ?_
      simp only [Function.comp]
      cases session.inbox with
      | nil => rfl
      | cons msg rest =>
          simp only [clock_withTunnel]
          cases session.client.handleConnectorResponse msg clock with
          | none => rfl
          | some answer => exact congrArg some (socksEffect_withTunnel ..)
  | tick =>
      cases dispatcherUp with
      | false => rfl
      | true =>
          by_cases htick : dispatcher.hbTick clock = true
          · simp [step, tick, withTunnel, htick]
          · simp [step, tick, withTunnel, htick]
  | serverMail =>
      cases serverUp with
      | false => rfl
      | true =>
          cases serverMail with
          | nil => rfl
          | cons mail rest =>
              simp only [step, handleServerMail, withTunnel, if_true, react]
              cases server.handleMail mail.message with
              | none => rfl
              | some reaction =>
                  exact congrArg some (foldl_serverEffect_withTunnel upstream downstream _ _
                    ⟨clock, dispatcher, dispatcherUp, clientMail, sessions, up, down, _, _, _, _,
                      _, _, _, _⟩)
  | resolved index result =>
      cases serverUp with
      | false => rfl
      | true =>
          simp only [step, resolved, withTunnel, if_true]
          rcases resolving.splitAt index with ⟨before, _ | ⟨connect, after⟩⟩ <;> rfl
  | read index event =>
      cases serverUp with
      | false => rfl
      | true =>
          simp only [step, read, if_true, Option.map_bind]
          refine Option.bind_congr fun target _ => ?_
          simp only [Function.comp, Option.map_map]
          rfl
  | forwardEnds => rfl
  | wait millis => rfl
  | clientMail => cases hlocal
  | forward => cases hlocal
  | clientRecv => cases hlocal
  | serverRecv result => cases hlocal

/-- The dispatcher sends behind what is in the tunnel. -/
theorem handleClientMail_withTunnel :
    (s.withTunnel upstream downstream).handleClientMail =
      (s.withTunnel [] []).handleClientMail.map fun next =>
        next.withTunnel (upstream ++ next.upstream) downstream := by
  cases hup : s.dispatcherUp with
  | false => simp [handleClientMail, withTunnel, hup]
  | true =>
      rcases hmail : s.clientMail with _ | ⟨⟨mail, tag⟩, rest⟩
      · simp [handleClientMail, withTunnel, hup, hmail]
      · cases mail <;> simp [handleClientMail, withTunnel, hup, hmail]

/-- So does the forwarding task. -/
theorem forward_withTunnel :
    (s.withTunnel upstream downstream).forward =
      (s.withTunnel [] []).forward.map fun next =>
        next.withTunnel upstream (downstream ++ next.downstream) := by
  by_cases hopen : s.serverUp = true ∧ s.server.receiving = true
  · cases hout : s.outQueue with
    | nil => simp [forward, withTunnel, hout]
    | cons response rest => simp [forward, withTunnel, hopen, hout]
  · simp [forward, withTunnel, hopen]

/-- The server only looks at the first message. -/
theorem serverRecv_withTunnel (message : Tagged ProxyRequest) (result : WriteResult) :
    (s.withTunnel (message :: upstream) downstream).serverRecv result =
      ((s.withTunnel [message] []).serverRecv result).map fun next =>
        next.withTunnel (next.upstream ++ upstream) downstream := by
  cases hup : s.serverUp with
  | false => simp [serverRecv, withTunnel, hup]
  | true =>
      have hsome (later : List (Tagged ProxyRequest)) (down : List (Tagged ProxyResponse)) :
          (s.withTunnel (message :: later) down).serverRecv result =
            some ((s.withTunnel (message :: later) down).react message.tag
              (s.withTunnel later down)
              (s.server.handleProxyRequest message.message result)) := if_pos hup
      rw [hsome, hsome, Option.map_some]
      cases s.server.handleProxyRequest message.message result with
      | none => rfl
      | some reaction =>
          have hfold := fun up down => foldl_serverEffect_withTunnel up down message.tag
            reaction.2 { s with server := reaction.1 }
          refine congrArg some ((hfold upstream downstream).trans ?_)
          -- no effect goes into the tunnel
          exact (congrArg (fun next => next.withTunnel (next.upstream ++ upstream) downstream)
            (hfold [] [])).symm

/-- The dispatcher only looks at the first message. -/
theorem clientRecv_withTunnel (message : Tagged ProxyResponse) :
    (s.withTunnel upstream (message :: downstream)).clientRecv =
      (s.withTunnel [] [message]).clientRecv.map fun next =>
        next.withTunnel upstream (next.downstream ++ downstream) := by
  obtain ⟨clock, dispatcher, dispatcherUp, clientMail, sessions, up, down, server, serverUp,
    serverMail, resolving, targets, socketBytes, outQueue, deliveries⟩ := s
  cases dispatcherUp with
  | false => rfl
  | true =>
    simp only [clientRecv, withTunnel, if_true]
    rcases dispatcher.handleProxyResponse message.message clock with
      _ | ⟨dispatcher', _ | ⟨index, response⟩⟩
    · rfl
    · rfl
    · simp only [pushInbox, runningSession]
      cases (sessions[index]?).filter Session.running <;> rfl

end Tunnel

end System

/-! ## Messages as they are built

Every message in the system has been built by its constructor, so that it declares the
length and the type of its transfer. Only such messages survive the codecs.
-/

def ProxyRequest.Built (request : ProxyRequest) : Prop :=
  request = .new request.uuid request.request

def ProxyResponse.Built (response : ProxyResponse) : Prop :=
  response = .new response.uuid response.response

def ClientMail.Built : ClientMail → Prop
  | .proxyRequest request => request.Built
  | .heartbeat => True

def ServerMail.Built {Writer : Type} : ServerMail Writer → Prop
  | .proxyResponse response => response.Built
  | .connectionDead _ => True
  | .connectionEstablished _ _ => True

theorem resolverCallback_built {Writer : Type} (uuid : UInt16) (result : ConnectResult Writer) :
    (resolverCallback uuid result).Built := by
  cases result with
  | connected writer => trivial
  | _ => rfl

theorem readerFuture_built {Writer : Type} {uuid : UInt16} {event : ReadEvent}
    {mail : ServerMail Writer} (hmail : readerFuture uuid event = some mail) : mail.Built := by
  cases event with
  | chunk bytes =>
      cases hmail
      rfl
  | finished => cases hmail
  | failed =>
      cases hmail
      trivial

theorem ServerMail.toResponse_built {mail : ServerMail Nat} (hbuilt : mail.Built) :
    mail.toResponse.Built := by
  cases mail with
  | proxyResponse response => exact hbuilt
  | _ => rfl

namespace System

variable {s next : System}

structure Built (s : System) : Prop where
  clientMail : ∀ mail ∈ s.clientMail, mail.message.Built
  serverMail : ∀ mail ∈ s.serverMail, mail.message.Built
  outQueue : ∀ response ∈ s.outQueue, response.message.Built

theorem Built.socksEffect (hbuilt : s.Built) (index : Nat) (session : Session)
    {effect : SocksEffect} (heffect : ∀ request, effect = .doSend request → request.Built) :
    (s.socksEffect index session effect).Built := by
  obtain ⟨hclient, hserver, hout⟩ := hbuilt
  cases effect with
  | write response => exact ⟨hclient, hserver, hout⟩
  | doSend request =>
      refine ⟨fun mail hmail => ?_, hserver, hout⟩
      rcases List.mem_append.mp hmail with hold | hnew
      · exact hclient mail hold
      · obtain rfl := List.mem_singleton.mp hnew
        exact heffect request rfl
  | stop => exact ⟨hclient, hserver, hout⟩

theorem Built.foldl (hbuilt : s.Built) (tag : Tag) {effects : List (ServerEffect Nat)}
    (heffects : ∀ response, .send response ∈ effects → response.Built) :
    (effects.foldl (serverEffect tag) s).Built := by
  induction effects generalizing s with
  | nil => exact hbuilt
  | cons effect rest ih =>
      rw [List.foldl_cons]
      refine ih ?_ fun response hresponse => heffects response (List.mem_cons_of_mem _ hresponse)
      obtain ⟨hclient, hserver, hout⟩ := hbuilt
      cases effect with
      | send response =>
          refine ⟨hclient, hserver, fun other hother => ?_⟩
          rcases List.mem_append.mp hother with hold | hnew
          · exact hout other hold
          · obtain rfl := List.mem_singleton.mp hnew
            exact heffects response List.mem_cons_self
      | resolve uuid addr => exact ⟨hclient, hserver, hout⟩
      | write writer bytes => exact ⟨hclient, hserver, hout⟩

theorem Built.react (hbuilt : s.Built) (hnext : next.Built) (tag : Tag)
    {reaction : ProxyClient.Reaction Nat}
    (hreaction : ∀ server effects, reaction = some (server, effects) →
      ∀ response, .send response ∈ effects → response.Built) :
    (s.react tag next reaction).Built := by
  cases reaction with
  | none => exact ⟨hbuilt.clientMail, hbuilt.serverMail, hbuilt.outQueue⟩
  | some reaction =>
      have hstart : ({ next with server := reaction.1 } : System).Built :=
        ⟨hnext.clientMail, hnext.serverMail, hnext.outQueue⟩
      exact hstart.foldl tag (hreaction reaction.1 reaction.2 rfl)

theorem Built.handleServerMail (hbuilt : s.Built) (hstep : s.handleServerMail = some next) :
    next.Built := by
  obtain ⟨-, mail, tag, rest, hmail, rfl⟩ := handleServerMail_eq_some hstep
  have hserver := hbuilt.serverMail
  rw [hmail] at hserver
  have hrest : ({ s with serverMail := rest } : System).Built :=
    ⟨hbuilt.clientMail, fun other hother => hserver other (List.mem_cons_of_mem _ hother),
      hbuilt.outQueue⟩
  refine hbuilt.react hrest tag ?_
  intro server effects hreaction response hresponse
  rcases handleMail_toResponse s.server mail with hpanic | ⟨server', hsend, -⟩
  · rw [hpanic] at hreaction
    cases hreaction
  · rw [hsend] at hreaction
    cases hreaction
    cases List.mem_singleton.mp hresponse
    exact ServerMail.toResponse_built (hserver _ List.mem_cons_self)

theorem Built.serverRecv (hbuilt : s.Built) {result : WriteResult}
    (hstep : s.serverRecv result = some next) : next.Built := by
  obtain ⟨-, request, tag, rest, hupstream, rfl⟩ := serverRecv_eq_some hstep
  have hrest : ({ s with upstream := rest } : System).Built :=
    ⟨hbuilt.clientMail, hbuilt.serverMail, hbuilt.outQueue⟩
  refine hbuilt.react hrest tag ?_
  intro server effects hreaction response hresponse
  -- only an echo is sent
  cases htransfer : request.request with
  | requestAddr addr =>
      rw [ProxyClient.handleProxyRequest, htransfer] at hreaction
      cases hreaction
      simp at hresponse
  | data data =>
      simp only [ProxyClient.handleProxyRequest, htransfer, ProxyClient.handleData] at hreaction
      split at hreaction
      · cases hreaction
        simp at hresponse
      · cases hreaction
  | response kind =>
      rw [ProxyClient.handleProxyRequest, htransfer] at hreaction
      cases hreaction
  | heartbeat index =>
      simp only [ProxyClient.handleProxyRequest, htransfer, ProxyClient.unboundedSend] at hreaction
      split at hreaction
      · cases hreaction
        cases List.mem_singleton.mp hresponse
        rfl
      · cases hreaction

theorem Built.step (hbuilt : s.Built) {event : Event} (hstep : s.step event = some next) :
    next.Built := by
  have hparts := hbuilt
  obtain ⟨hclient, hserver, hout⟩ := hparts
  cases event with
  | connect port =>
      obtain ⟨-, -, rfl⟩ := connect_eq_some hstep
      exact ⟨hclient, hserver, hout⟩
  | appBytes index bytes =>
      obtain ⟨session, -, rfl⟩ := Option.map_eq_some_iff.mp hstep
      exact ⟨hclient, hserver, hout⟩
  | appPoll index =>
      obtain ⟨session, -, hpoll⟩ := Option.bind_eq_some_iff.mp hstep
      split at hpoll
      next item codec rest hdecode =>
        cases hpoll
        refine hbuilt.socksEffect _ _ fun request hrequest => ?_
        cases item <;> cases hrequest <;> rfl
      next => cases hpoll
      all_goals
        cases hpoll
        exact ⟨hclient, hserver, hout⟩
  | appClose index =>
      obtain ⟨session, -, rfl⟩ := Option.map_eq_some_iff.mp hstep
      exact ⟨hclient, hserver, hout⟩
  | socksMail index =>
      obtain ⟨session, -, hmail⟩ := Option.bind_eq_some_iff.mp hstep
      split at hmail
      next => cases hmail
      next msg rest hinbox =>
        split at hmail
        next =>
          cases hmail
          exact ⟨hclient, hserver, hout⟩
        next client effect hhandle =>
          cases hmail
          refine hbuilt.socksEffect _ _ fun request hrequest => ?_
          rcases (SocksClient.handleConnectorResponse_eq_some hhandle).2 with
            ⟨response, rfl⟩ | rfl <;> cases hrequest
  | tick =>
      obtain ⟨-, ⟨-, rfl⟩ | ⟨-, rfl⟩⟩ := tick_eq_some hstep
      · refine ⟨fun mail hmail => ?_, hserver, hout⟩
        rcases List.mem_append.mp hmail with hold | hnew
        · exact hclient mail hold
        · obtain rfl := List.mem_singleton.mp hnew
          trivial
      · exact hbuilt
  | clientMail =>
      cases handleClientMail_cases hstep with
      | request hup hmail =>
          rw [hmail] at hclient
          exact ⟨fun other hother => hclient other (List.mem_cons_of_mem _ hother), hserver, hout⟩
      | heartbeat hup hmail =>
          rw [hmail] at hclient
          exact ⟨fun other hother => hclient other (List.mem_cons_of_mem _ hother), hserver, hout⟩
  | clientRecv => cases clientRecv_cases hstep <;> exact ⟨hclient, hserver, hout⟩
  | serverRecv result => exact hbuilt.serverRecv hstep
  | serverMail => exact hbuilt.handleServerMail hstep
  | resolved index result =>
      obtain ⟨-, before, uuid, addr, tag, after, -, rfl⟩ := resolved_eq_some hstep
      refine ⟨hclient, fun mail hmail => ?_, hout⟩
      rcases List.mem_append.mp hmail with hold | hnew
      · exact hserver mail hold
      · obtain rfl := List.mem_singleton.mp hnew
        exact resolverCallback_built uuid _
  | read index event =>
      obtain ⟨-, target, changed, -, -, -, rfl⟩ := read_eq_some hstep
      refine ⟨hclient, fun mail hmail => ?_, hout⟩
      rcases List.mem_append.mp hmail with hold | hnew
      · exact hserver mail hold
      · obtain ⟨message, hmessage, rfl⟩ := Option.map_eq_some_iff.mp (Option.mem_toList.mp hnew)
        exact readerFuture_built hmessage
  | forward =>
      obtain ⟨-, -, response, rest, hqueue, rfl⟩ := forward_eq_some hstep
      rw [hqueue] at hout
      exact ⟨hclient, hserver, fun other hother => hout other (List.mem_cons_of_mem _ hother)⟩
  | forwardEnds =>
      cases hstep
      exact ⟨hclient, hserver, hout⟩
  | wait millis =>
      cases hstep
      exact ⟨hclient, hserver, hout⟩

/-- What the dispatcher encodes. -/
theorem Built.handleClientMail (hbuilt : s.Built) (hstep : s.handleClientMail = some next) :
    ∃ message : Tagged ProxyRequest, message.message.Built ∧
      next.upstream = s.upstream ++ [message] := by
  cases handleClientMail_cases hstep with
  | @request request tag rest hup hmail =>
      have hrequest := hbuilt.clientMail ⟨.proxyRequest request, tag⟩ (by rw [hmail]; simp)
      exact ⟨⟨request, tag⟩, hrequest, rfl⟩
  | heartbeat hup hmail =>
      refine ⟨⟨_, .none⟩, ?_, rfl⟩
      exact (rfl : (s.dispatcher.handleHeartbeat s.clock).2.Built)

/-- What the forwarding task encodes. -/
theorem Built.forward (hbuilt : s.Built) (hstep : s.forward = some next) :
    ∃ message : Tagged ProxyResponse, message.message.Built ∧
      next.downstream = s.downstream ++ [message] := by
  obtain ⟨-, -, response, rest, hqueue, rfl⟩ := forward_eq_some hstep
  exact ⟨response, hbuilt.outQueue response (by rw [hqueue]; simp), rfl⟩

/-- The server takes the message off, or it panics. -/
theorem serverRecv_upstream {result : WriteResult} {message : Tagged ProxyRequest}
    (hupstream : s.upstream = [message]) (hstep : s.serverRecv result = some next) :
    next.upstream = [] ∨ next.upstream = [message] := by
  obtain ⟨-, request, tag, rest, hhead, rfl⟩ := serverRecv_eq_some hstep
  rw [hupstream] at hhead
  cases hhead
  cases s.server.handleProxyRequest request result with
  | none => exact .inr hupstream
  | some reaction =>
      exact .inl (congrArg upstream (foldl_serverEffect_withTunnel [] s.downstream tag
        reaction.2 { s with server := reaction.1 }))

theorem clientRecv_downstream {message : Tagged ProxyResponse}
    (hdownstream : s.downstream = [message]) (hstep : s.clientRecv = some next) :
    next.downstream = [] ∨ next.downstream = [message] := by
  cases clientRecv_cases hstep with
  | panic hup hhead hhandle => exact .inr hdownstream
  | echo hup hhead hzero hindex hhandle =>
      rw [hdownstream] at hhead
      exact .inl (List.cons.inj hhead).2.symm
  | deliver hup hhead hzero hclient hanswer hhandle =>
      rw [hdownstream] at hhead
      exact .inl (List.cons.inj hhead).2.symm

/-! ## Short messages -/

/-- The transfers that a step puts into the tunnel. -/
def transmits (s : System) : Event → List ProxyTransfer
  | .clientMail =>
      ((s.withTunnel [] []).handleClientMail.elim [] upstream).map (·.message.request)
  | .forward => ((s.withTunnel [] []).forward.elim [] downstream).map (·.message.response)
  | _ => []

/-- Every transfer is shorter than what the length field of a frame can say. -/
def Short (s : System) (event : Event) : Prop :=
  ∀ transfer ∈ s.transmits event, transfer.payload.length < 2 ^ 32

instance (s : System) (event : Event) : Decidable (s.Short event) :=
  inferInstanceAs (Decidable (∀ transfer ∈ s.transmits event, transfer.payload.length < 2 ^ 32))

end System

end JustProxy
