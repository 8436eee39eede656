import JustProxy.System.State

/-! # Steps, by cases

What has happened in a step that was possible: what was there, and what the step has
made of it. Proofs about steps start from these lemmas and leave the definitions of the
steps alone.
-/

namespace JustProxy

namespace System

variable {s next : System}

/-! ## The client process -/

theorem connect_eq_some {port : UInt16} (hstep : s.connect port = some next) :
    s.dispatcherUp = true ∧ port ≠ 0 ∧
      next = { s with
        dispatcher := s.dispatcher.handleSocksConnected port s.sessions.length
        sessions := s.sessions ++ [.new port] } := by
  obtain ⟨⟨hup, hport⟩, heq⟩ := Option.ite_none_right_eq_some.mp hstep
  exact ⟨hup, hport, (Option.some.inj heq).symm⟩

/-- A tick sends a heartbeat, or it is skipped. -/
theorem tick_eq_some (hstep : s.tick = some next) :
    s.dispatcherUp = true ∧
      (s.dispatcher.hbTick s.clock = true ∧
          next = { s with clientMail := s.clientMail ++ [⟨.heartbeat, .none⟩] } ∨
        s.dispatcher.hbTick s.clock = false ∧ next = s) := by
  obtain ⟨hup, hticked⟩ := Option.ite_none_right_eq_some.mp hstep
  refine ⟨hup, ?_⟩
  split at hticked
  next htick => exact .inl ⟨htick, (Option.some.inj hticked).symm⟩
  next htick => exact .inr ⟨Bool.eq_false_iff.mpr htick, (Option.some.inj hticked).symm⟩

/-- What the dispatcher does with the first message in its mailbox. -/
inductive ClientMailStep (s : System) : System → Prop where
  | request {request : ProxyRequest} {tag : Tag} {rest : List (Tagged ClientMail)}
      (hup : s.dispatcherUp = true)
      (hmail : s.clientMail = ⟨.proxyRequest request, tag⟩ :: rest) :
      ClientMailStep s { s with
        clientMail := rest
        upstream := s.upstream ++ [⟨request, tag⟩] }
  | heartbeat {tag : Tag} {rest : List (Tagged ClientMail)} (hup : s.dispatcherUp = true)
      (hmail : s.clientMail = ⟨.heartbeat, tag⟩ :: rest) :
      ClientMailStep s { s with
        dispatcher := (s.dispatcher.handleHeartbeat s.clock).1
        clientMail := rest
        upstream := s.upstream ++ [⟨(s.dispatcher.handleHeartbeat s.clock).2, .none⟩] }

/-- What the dispatcher does with the first response in the tunnel. -/
inductive ClientRecvStep (s : System) : System → Prop where
  | panic {response : ProxyResponse} {tag : Tag} {rest : List (Tagged ProxyResponse)}
      (hup : s.dispatcherUp = true) (hdownstream : s.downstream = ⟨response, tag⟩ :: rest)
      (hhandle : s.dispatcher.handleProxyResponse response s.clock = none) :
      ClientRecvStep s { s with dispatcherUp := false }
  | echo {response : ProxyResponse} {tag : Tag} {rest : List (Tagged ProxyResponse)}
      {index : UInt32} (hup : s.dispatcherUp = true)
      (hdownstream : s.downstream = ⟨response, tag⟩ :: rest) (hzero : response.uuid = 0)
      (hindex : response.response = .heartbeat index)
      (hhandle : s.dispatcher.handleProxyResponse response s.clock =
        some ({ s.dispatcher with hb := s.clock },
          .heartbeat (s.clock - s.dispatcher.lastHbInstant) index)) :
      ClientRecvStep s { s with
        dispatcher := { s.dispatcher with hb := s.clock }
        downstream := rest }
  | deliver {response : ProxyResponse} {tag : Tag} {rest : List (Tagged ProxyResponse)}
      {index : Nat} {answer : ConnectorResponse} (hup : s.dispatcherUp = true)
      (hdownstream : s.downstream = ⟨response, tag⟩ :: rest) (hzero : response.uuid ≠ 0)
      (hclient : s.dispatcher.clients response.uuid = some index)
      (hanswer : Server.connectorResponse response.response = some answer)
      (hhandle : s.dispatcher.handleProxyResponse response s.clock =
        some (s.dispatcher, .deliver index answer)) :
      ClientRecvStep s { s with
        sessions := (s.pushInbox index answer).sessions
        downstream := rest
        deliveries := s.deliveries ++ [⟨index, answer, tag⟩] }

theorem handleClientMail_cases (hstep : s.handleClientMail = some next) :
    s.ClientMailStep next := by
  unfold handleClientMail at hstep
  split at hstep
  next hup =>
    split at hstep
    next => cases hstep
    next request tag rest hmail =>
      cases hstep
      exact .request hup hmail
    next tag rest hmail =>
      cases hstep
      exact .heartbeat hup hmail
  next => cases hstep

/-- Filling an inbox changes nothing but the sessions. -/
theorem pushInbox_eq (s : System) (index : Nat) (response : ConnectorResponse) :
    s.pushInbox index response = { s with sessions := (s.pushInbox index response).sessions } := by
  unfold pushInbox
  split <;> rfl

theorem clientRecv_cases (hstep : s.clientRecv = some next) : s.ClientRecvStep next := by
  unfold clientRecv at hstep
  split at hstep
  next hup =>
    split at hstep
    next => cases hstep
    next response tag rest hdownstream =>
      split at hstep
      next hhandle =>
        cases hstep
        exact .panic hup hdownstream hhandle
      next dispatcher rtt index hhandle =>
        cases hstep
        rcases Server.handleProxyResponse_eq_some hhandle with
          ⟨hzero, index', hindex, rfl, heq⟩ | ⟨-, session, answer, -, -, -, heq⟩
        · cases heq
          exact .echo hup hdownstream hzero hindex hhandle
        · cases heq
      next dispatcher index answer hhandle =>
        cases hstep
        rcases Server.handleProxyResponse_eq_some hhandle with
          ⟨-, index', -, -, heq⟩ | ⟨hzero, session, answer', hclient, hanswer, rfl, heq⟩
        · cases heq
        · cases heq
          rw [pushInbox_eq]
          exact .deliver hup hdownstream hzero hclient hanswer hhandle
  next => cases hstep

/-! ## The server process -/

theorem serverRecv_eq_some {result : WriteResult} (hstep : s.serverRecv result = some next) :
    s.serverUp = true ∧ ∃ request tag rest, s.upstream = ⟨request, tag⟩ :: rest ∧
      next = s.react tag { s with upstream := rest }
        (s.server.handleProxyRequest request result) := by
  obtain ⟨hup, hhandled⟩ := Option.ite_none_right_eq_some.mp hstep
  refine ⟨hup, ?_⟩
  split at hhandled
  next => cases hhandled
  next request tag rest hupstream =>
    exact ⟨request, tag, rest, hupstream, (Option.some.inj hhandled).symm⟩

theorem handleServerMail_eq_some (hstep : s.handleServerMail = some next) :
    s.serverUp = true ∧ ∃ mail tag rest, s.serverMail = ⟨mail, tag⟩ :: rest ∧
      next = s.react tag { s with serverMail := rest } (s.server.handleMail mail) := by
  obtain ⟨hup, hhandled⟩ := Option.ite_none_right_eq_some.mp hstep
  refine ⟨hup, ?_⟩
  split at hhandled
  next => cases hhandled
  next mail tag rest hmail =>
    exact ⟨mail, tag, rest, hmail, (Option.some.inj hhandled).symm⟩

theorem resolved_eq_some {index : Nat} {result : ConnectResult Unit}
    (hstep : s.resolved index result = some next) :
    s.serverUp = true ∧ ∃ before uuid addr tag after,
      s.resolving = before ++ ⟨(uuid, addr), tag⟩ :: after ∧
      next = { s with
        resolving := before ++ after
        targets := if result.isConnected then s.targets ++ [⟨uuid, tag.cause, true, []⟩]
          else s.targets
        serverMail := s.serverMail ++
          [⟨resolverCallback uuid (result.map fun _ => s.targets.length),
            ⟨tag.cause, none⟩⟩] } := by
  obtain ⟨hup, hresolved⟩ := Option.ite_none_right_eq_some.mp hstep
  refine ⟨hup, ?_⟩
  split at hresolved
  next before uuid addr tag after hsplit =>
    rw [List.splitAt_eq, Prod.mk.injEq] at hsplit
    have happend := List.take_append_drop index s.resolving
    rw [hsplit.1, hsplit.2] at happend
    exact ⟨before, uuid, addr, tag, after, happend.symm, (Option.some.inj hresolved).symm⟩
  next => cases hresolved

theorem read_eq_some {index : Nat} {event : ReadEvent} (hstep : s.read index event = some next) :
    s.serverUp = true ∧ ∃ target changed, s.targets[index]? = some target ∧
      target.reading = true ∧ readTarget target event = some changed ∧
      next = { s with
        targets := s.targets.set index changed
        serverMail := s.serverMail ++ ((readerFuture target.uuid event).map fun mail =>
          ⟨mail, ⟨target.openedFor, some index⟩⟩).toList } := by
  obtain ⟨hup, hread⟩ := Option.ite_none_right_eq_some.mp hstep
  obtain ⟨target, htarget, hread⟩ := Option.bind_eq_some_iff.mp hread
  obtain ⟨changed, hchanged, rfl⟩ := Option.map_eq_some_iff.mp hread
  obtain ⟨htarget, hreading⟩ := Option.filter_eq_some_iff.mp htarget
  exact ⟨hup, target, changed, htarget, hreading, hchanged, rfl⟩

theorem forward_eq_some (hstep : s.forward = some next) :
    s.serverUp = true ∧ s.server.receiving = true ∧ ∃ response rest,
      s.outQueue = response :: rest ∧
      next = { s with outQueue := rest, downstream := s.downstream ++ [response] } := by
  obtain ⟨⟨hup, hreceiving⟩, hforward⟩ := Option.ite_none_right_eq_some.mp hstep
  refine ⟨hup, hreceiving, ?_⟩
  split at hforward
  next => cases hforward
  next response rest hout =>
    exact ⟨response, rest, hout, (Option.some.inj hforward).symm⟩

end System

end JustProxy
