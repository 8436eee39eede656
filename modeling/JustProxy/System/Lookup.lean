import JustProxy.System.Steps

/-! # The server's lookup

`ProxyClient` panics on payload for a uuid that it has no connection for. A
session forwards payload as soon as it has asked, whatever the server has. The
lookup succeeds as long as every session waits until its connection is there,
and no connection goes while payload for it is on the way.
-/

namespace JustProxy

def ProxyTransfer.isData : ProxyTransfer → Bool
  | .data _ => true
  | _ => false

/-- Payload for a uuid is among some requests. -/
def CarriesData (requests : List (Tagged ProxyRequest)) (uuid : UInt16) : Prop :=
  ∃ request ∈ requests, request.message.request.isData = true ∧ request.message.uuid = uuid

theorem carriesData_append {first second : List (Tagged ProxyRequest)} {uuid : UInt16} :
    CarriesData (first ++ second) uuid ↔ CarriesData first uuid ∨ CarriesData second uuid := by
  simp [CarriesData, or_and_right, exists_or]

theorem carriesData_cons {request : Tagged ProxyRequest} {rest : List (Tagged ProxyRequest)}
    {uuid : UInt16} : CarriesData (request :: rest) uuid ↔
      (request.message.request.isData = true ∧ request.message.uuid = uuid) ∨
        CarriesData rest uuid := by
  simp [CarriesData]

namespace Relay

variable {r next : Relay} {action : Action}

/-- The server has a connection for all payload that is on the way to it. -/
def Provided (r : Relay) : Prop :=
  ∀ uuid, CarriesData r.requests uuid → r.connections uuid ≠ none

/-- Payload is sent to a connection that is there, and a connection only goes
when no payload for it is on the way. -/
def KeepsEntries (r : Relay) : Action → Prop
  | .send uuid => r.connections uuid ≠ none
  | .writeFails uuid => ¬ CarriesData r.requests.tail uuid
  | .deregister uuid => ¬ CarriesData r.requests uuid
  | _ => True

theorem Provided.step (hprovided : r.Provided) (hkeeps : r.KeepsEntries action)
    (hstep : Step r action next) : next.Provided := by
  -- requests that leave the queue take nothing away
  have hrest {head : Tagged ProxyRequest} {rest : List (Tagged ProxyRequest)}
      (hrequests : r.requests = head :: rest) (uuid : UInt16) (hcarries : CarriesData rest uuid) :
      r.connections uuid ≠ none :=
    hprovided uuid (hrequests ▸ carriesData_cons.mpr (.inr hcarries))
  -- a connection that goes is not asked for
  have hupdate {requests : List (Tagged ProxyRequest)} {gone : UInt16}
      (hknown : ∀ uuid, CarriesData requests uuid → r.connections uuid ≠ none)
      (hgone : ¬ CarriesData requests gone) (uuid : UInt16)
      (hcarries : CarriesData requests uuid) :
      Function.update r.connections gone none uuid ≠ none := by
    have hother : uuid ≠ gone := fun heq => hgone (heq ▸ hcarries)
    rw [Function.update_of_ne hother]
    exact hknown uuid hcarries
  cases hstep with
  | ask addr hpeer hrunning hasked =>
      intro uuid hcarries
      rcases carriesData_append.mp hcarries with hold | hnew
      · exact hprovided uuid hold
      · simp [CarriesData, ProxyRequest.new, ProxyTransfer.isData] at hnew
  | @send sender peer data hpeer hasked =>
      intro uuid hcarries
      rcases carriesData_append.mp hcarries with hold | hnew
      · exact hprovided uuid hold
      · obtain rfl : peer.uuid = uuid := by
          simpa [CarriesData, ProxyRequest.new, ProxyTransfer.isData] using hnew
        exact hkeeps
  | ping index hrequests =>
      intro uuid hcarries
      apply hprovided uuid
      rw [hrequests]
      simpa [carriesData_append, carriesData_cons, ProxyRequest.new, ProxyTransfer.isData]
        using hcarries
  | dial hrequests haddr => exact hrest hrequests
  | write hrequests hdata => exact hrest hrequests
  | writeFails hrequests hdata =>
      have hgone : ¬ CarriesData r.requests.tail _ := hkeeps
      rw [hrequests] at hgone
      exact hupdate (hrest hrequests) hgone
  | pong hrequests hindex hresponses => exact hrest hrequests
  | register uuid writer =>
      intro other hcarries
      by_cases hother : other = uuid
      · simp [hother]
      · simpa [hother] using hprovided other hcarries
  | deregister uuid => exact hupdate hprovided hkeeps
  | _ => exact hprovided

/-- No request is a response. -/
def Honest (r : Relay) : Prop :=
  ∀ request ∈ r.requests, ∀ kind, request.message.request ≠ .response kind

theorem Honest.step (hhonest : r.Honest) (hstep : Step r action next) : next.Honest := by
  intro request hmem kind
  rcases mem_requests hstep hmem with
    hold | ⟨index, hheartbeat⟩ | ⟨index, peer, transfer, -, ⟨addr, rfl⟩ | ⟨data, rfl⟩, rfl⟩
  · exact hhonest request hold kind
  · rw [hheartbeat]
    exact nofun
  · exact nofun
  · exact nofun

end Relay

namespace System

variable {s next : System}

/-- The server can look up the connection of the payload that it is about to
handle. -/
def HandlesKnown (s : System) : Prop :=
  s.serverUp = true → ∀ request tag rest, s.upstream = ⟨request, tag⟩ :: rest →
    request.request.isData = true → s.server.connections request.uuid ≠ none

/-- What an event must not do as long as the server runs. A decoder that is ready
only returns payload to a session whose connection the server has; and neither a
dead connection nor a failed write takes an entry that payload still needs. -/
def KeepsEntries (s : System) (event : Event) : Prop :=
  s.serverUp = true → match event with
    | .appPoll index => ∀ session, s.sessions[index]? = some session → session.codec = .ready →
        s.server.connections session.client.uuid ≠ none
    | .serverRecv result => ∀ request tag rest, s.upstream = ⟨request, tag⟩ :: rest →
        request.request.isData = true → result.isErr = true →
        ¬ CarriesData s.requests.tail request.uuid
    | .serverMail => ∀ uuid tag rest, s.serverMail = ⟨.connectionDead uuid, tag⟩ :: rest →
        ¬ CarriesData s.requests uuid
    | _ => True

theorem KeepsEntries.relay {event : Event} {action : Action} (hkeeps : s.KeepsEntries event)
    (hup : s.serverUp = true) (hcorresponds : s.Corresponds event action) :
    s.relay.KeepsEntries action := by
  have hevent := hkeeps hup
  cases action with
  | send uuid =>
      obtain ⟨index, session, rfl, hsession, hcodec, rfl⟩ := hcorresponds
      exact hevent session hsession hcodec
  | writeFails uuid =>
      obtain ⟨result, request, tag, rest, data, rfl, herr, hupstream, hdata, rfl⟩ := hcorresponds
      exact hevent request tag rest hupstream (by rw [hdata]; rfl) herr
  | deregister uuid =>
      obtain ⟨rfl, tag, rest, hmail⟩ := hcorresponds
      exact hevent uuid tag rest hmail
  | connect port => trivial
  | other => trivial

/-! ## A server that has panicked -/

/-- A server that has panicked stays down. -/
theorem serverUp_of_step {event : Event} (hstep : s.step event = some next)
    (hup : next.serverUp = true) : s.serverUp = true := by
  cases hserver : event.isServer with
  | false =>
      rw [← hup]
      exact (congrArg ServerProcess.serverUp (step_client hstep hserver)).symm
  | true =>
      by_contra hdown
      cases event with
      | serverRecv result => simp [step, serverRecv, hdown] at hstep
      | serverMail => simp [step, handleServerMail, hdown] at hstep
      | resolved index result => simp [step, resolved, hdown] at hstep
      | read index event => simp [step, read, hdown] at hstep
      | forward => simp [step, forward, hdown] at hstep
      | forwardEnds =>
          cases hstep
          exact hdown hup
      | _ => cases hserver

/-! ## Runs -/

theorem handlesKnown_of_provided (hprovided : s.serverUp = true → s.relay.Provided) :
    s.HandlesKnown := by
  intro hup request tag rest hupstream hdata
  apply hprovided hup
  change CarriesData s.requests _
  rw [requests, hupstream]
  exact carriesData_append.mpr (.inl (carriesData_cons.mpr (.inl ⟨hdata, rfl⟩)))

/-- The server never receives payload for a connection that it does not have, in
every run in which payload waits for its connection and no connection goes in
front of payload for it. -/
theorem handlesKnown_of_keepsEntries (events : List Event) (s : System)
    (hkeeps : Transition.Meets System.step KeepsEntries .init events)
    (hrun : System.run events = some s) : s.HandlesKnown := by
  apply handlesKnown_of_provided
  refine hkeeps.invariant (fun s => s.serverUp = true → s.relay.Provided) ?_ ?_ hrun
  · intro state event next hprovided hevent hstep hup
    have hrunning := serverUp_of_step hstep hup
    obtain ⟨action, hcorresponds, hrelay⟩ := step_refines hstep
    exact (hprovided hrunning).step (hevent.relay hrunning hcorresponds) hrelay
  · rintro - uuid ⟨request, hmem, -⟩
    simp [init, relay, requests] at hmem

/-- An application sends payload right behind its request. -/
def eager : List Event := Event.asks 5000 0 ++
  [.appBytes 0 [71], .appPoll 0, .clientMail, .clientMail, .serverRecv (.accepted 0)]

/-- The payload arrives while the connect is pending, and the server panics. -/
theorem eager_payload_panics : ∃ s next, System.run eager = some s ∧ ¬ s.HandlesKnown ∧
    s.step (.serverRecv (.accepted 1)) = some next ∧ next.serverUp = false := by
  refine ⟨_, _, rfl, fun hknown => ?_, rfl, rfl⟩
  exact hknown rfl _ _ _ rfl rfl rfl

/-- An application sends payload once it has its connection. -/
def patient : List Event := Event.asks 5000 0 ++
  [.clientMail, .serverRecv (.accepted 0), .resolved 0 (.connected ()), .serverMail,
    .appBytes 0 [71], .appPoll 0, .clientMail]

theorem handlesKnown_of_keepsEntries_patient : ∃ s, System.run patient = some s ∧
    s.upstream.map (fun request => request.message.request) = [.data [71]] ∧
    s.HandlesKnown := by
  refine ⟨_, rfl, by decide, handlesKnown_of_keepsEntries patient _ ?_ rfl⟩
  -- three polls and the two messages of the server; the other events need nothing
  refine .cons (fun _ => trivial) rfl <| .cons (fun _ => trivial) rfl <|
    .cons ?greeting rfl <| .cons (fun _ => trivial) rfl <| .cons ?request rfl <|
    .cons (fun _ => trivial) rfl <| .cons ?dial rfl <| .cons (fun _ => trivial) rfl <|
    .cons ?established rfl <| .cons (fun _ => trivial) rfl <| .cons ?payload rfl <|
    .cons (fun _ => trivial) rfl trivial
  case greeting =>
    rintro - session hsession hcodec
    cases hsession
    cases hcodec
  case request =>
    rintro - session hsession hcodec
    cases hsession
    cases hcodec
  case dial =>
    rintro - request tag rest hupstream hdata
    cases hupstream
    cases hdata
  case established =>
    rintro - uuid tag rest hmail
    cases hmail
  case payload =>
    rintro - session hsession - hmissing
    cases hsession
    cases hmissing

/-! ## Broken conditions -/

/-- Both actors run, and requests are all that is on the way to the server. -/
structure Working (s : System) : Prop where
  serverUp : s.serverUp = true
  dispatcherUp : s.dispatcherUp = true
  receiving : s.server.receiving = true
  honest : s.relay.Honest

/-- Payload is on its way to a connection that the server does not have. -/
structure Doomed (s : System) (uuid : UInt16) : Prop extends s.Working where
  carries : CarriesData s.requests uuid
  missing : s.server.connections uuid = none

/-- The messages in front of the server; one in the mailbox still has to be passed
on. -/
def distance (s : System) : Nat := 2 * s.clientMail.length + s.upstream.length

theorem honest_of_step {event : Event} (hhonest : s.relay.Honest)
    (hstep : s.step event = some next) : next.relay.Honest := by
  obtain ⟨action, -, hrelay⟩ := step_refines hstep
  exact hhonest.step hrelay

/-- The dispatcher passes its next message on. -/
theorem Doomed.passOn {uuid : UInt16} (hdoomed : s.Doomed uuid) (hupstream : s.upstream = []) :
    ∃ event next, s.step event = some next ∧ next.Doomed uuid ∧
      next.distance < s.distance := by
  have hcarries := hdoomed.carries
  rw [requests, hupstream, List.nil_append] at hcarries
  cases hmail : s.clientMail with
  | nil =>
      rw [hmail] at hcarries
      simp [CarriesData] at hcarries
  | cons mail rest =>
      obtain ⟨mail, tag⟩ := mail
      rw [hmail] at hcarries
      cases mail with
      | proxyRequest request =>
          have hstep : s.step .clientMail = some { s with
              clientMail := rest, upstream := [⟨request, tag⟩] } := by
            simp [step, handleClientMail, hdoomed.dispatcherUp, hmail, hupstream,
              Server.handleProxyRequest]
          refine ⟨.clientMail, _, hstep, { hdoomed with
            honest := honest_of_step hdoomed.honest hstep
            carries := ?_ }, ?_⟩
          · simpa [requests] using hcarries
          · simp [distance, hmail, hupstream]
            omega
      | heartbeat =>
          have hstep : s.step .clientMail = some { s with
              dispatcher := (s.dispatcher.handleHeartbeat s.clock).1
              clientMail := rest
              upstream := [⟨(s.dispatcher.handleHeartbeat s.clock).2, .none⟩] } := by
            simp [step, handleClientMail, hdoomed.dispatcherUp, hmail, hupstream]
          refine ⟨.clientMail, _, hstep, { hdoomed with
            honest := honest_of_step hdoomed.honest hstep
            carries := ?_ }, ?_⟩
          · exact carriesData_cons.mpr (.inr hcarries)
          · simp [distance, hmail, hupstream]
            omega

/-- The server handles what is in front of the payload. -/
theorem Doomed.handle {uuid : UInt16} {request : ProxyRequest} {tag : Tag}
    {rest : List (Tagged ProxyRequest)} (hdoomed : s.Doomed uuid)
    (hupstream : s.upstream = ⟨request, tag⟩ :: rest) (hknown : s.HandlesKnown) :
    ∃ event next, s.step event = some next ∧ next.Doomed uuid ∧
      next.distance < s.distance := by
  have hhead := hknown hdoomed.serverUp request tag rest hupstream
  -- the head cannot be the payload itself, whose lookup would fail
  have hbehind : CarriesData (rest ++ s.clientMail.filterMap ClientMail.toRequest) uuid := by
    have hcarries := hdoomed.carries
    rw [requests, hupstream, List.cons_append, carriesData_cons] at hcarries
    rcases hcarries with ⟨hdata, rfl⟩ | hbehind
    · exact absurd hdoomed.missing (hhead hdata)
    · exact hbehind
  have hshorter : 2 * s.clientMail.length + rest.length < s.distance := by
    rw [distance, hupstream, List.length_cons]
    omega
  obtain ⟨other, transferLen, transferType, transfer⟩ := request
  have hrecv (reaction : ProxyClient.Reaction Nat)
      (hreaction : s.server.handleProxyRequest ⟨other, transferLen, transferType, transfer⟩
        (.accepted 0) = reaction) :
      s.step (.serverRecv (.accepted 0)) =
        some (s.react tag { s with upstream := rest } reaction) := by
    simp [step, serverRecv, hdoomed.serverUp, hupstream, hreaction]
  cases transfer with
  | requestAddr addr =>
      have hstep := hrecv _ rfl
      exact ⟨_, _, hstep, { hdoomed with
        honest := honest_of_step hdoomed.honest hstep
        carries := hbehind }, hshorter⟩
  | data data =>
      obtain ⟨writer, hwriter⟩ := Option.ne_none_iff_exists'.mp (hhead rfl)
      have hstep := hrecv (some (s.server, [.write writer []])) (by
        simp [ProxyClient.handleProxyRequest, ProxyClient.handleData, hwriter,
          WriteResult.isErr, WriteResult.taken])
      exact ⟨_, _, hstep, { hdoomed with
        honest := honest_of_step hdoomed.honest hstep
        carries := hbehind }, hshorter⟩
  | response kind =>
      have hmem : ⟨⟨other, transferLen, transferType, .response kind⟩, tag⟩ ∈ s.requests := by
        simp [requests, hupstream]
      exact absurd rfl (hdoomed.honest _ hmem kind)
  | heartbeat index =>
      have hstep := hrecv (some (s.server, [.send (.new other (.heartbeat index))])) (by
        simp [ProxyClient.handleProxyRequest, ProxyClient.unboundedSend, hdoomed.receiving])
      exact ⟨_, _, hstep, { hdoomed with
        honest := honest_of_step hdoomed.honest hstep
        carries := hbehind }, hshorter⟩

/-- Some order of steps takes the payload to the server's lookup. -/
theorem Doomed.fails {uuid : UInt16} (hdoomed : s.Doomed uuid) :
    ∃ events final, Transition.run System.step s events = some final ∧ ¬ final.HandlesKnown := by
  induction hdistance : s.distance using Nat.strong_induction_on generalizing s with
  | _ distance ih =>
      by_cases hknown : s.HandlesKnown
      · obtain ⟨event, next, hstep, hnext, hcloser⟩ : ∃ event next, s.step event = some next ∧
            next.Doomed uuid ∧ next.distance < s.distance := by
          cases hupstream : s.upstream with
          | nil => exact hdoomed.passOn hupstream
          | cons request rest => exact hdoomed.handle hupstream hknown
        obtain ⟨events, final, hrun, hfails⟩ := ih _ (hdistance ▸ hcloser) hnext rfl
        exact ⟨event :: events, final, Transition.run_cons.mpr ⟨next, hstep, hrun⟩, hfails⟩
      · exact ⟨[], s, rfl, hknown⟩

/-- Payload that a session sends to a missing connection. -/
theorem doomed_of_appPoll {index : Nat} {session : Session}
    (hsession : s.sessions[index]? = some session) (hcodec : session.codec = .ready)
    (hmissing : s.server.connections session.client.uuid = none)
    (hstep : s.step (.appPoll index) = some next) (hworking : s.Working) :
    next.Doomed session.client.uuid := by
  have hhonest := honest_of_step hworking.honest hstep
  obtain ⟨other, hother, hpoll⟩ := Option.bind_eq_some_iff.mp hstep
  obtain ⟨hother, hrunning⟩ := runningSession_eq_some hother
  obtain rfl : other = session := Option.some.inj (hother.symm.trans hsession)
  simp only [hcodec, Socks5RequestCodec.decode, Socks5RequestCodec.decodeData] at hpoll
  by_cases hbuffer : other.buffer.length = 0
  · simp [hbuffer] at hpoll
  · simp only [hbuffer, if_false] at hpoll
    cases hpoll
    refine ⟨{ hworking with honest := hhonest }, ?_, hmissing⟩
    refine ⟨⟨.new other.client.uuid (.data other.buffer), ⟨some index, none⟩⟩, ?_, rfl, rfl⟩
    simp [requests, socksEffect, updateSession, SocksClient.handleSocksRequest]

/-- Payload whose connection a dead reader takes away. -/
theorem doomed_of_serverMail {uuid : UInt16} {tag : Tag}
    {rest : List (Tagged (ServerMail Nat))}
    (hmail : s.serverMail = ⟨.connectionDead uuid, tag⟩ :: rest)
    (hcarries : CarriesData s.requests uuid) (hstep : s.step .serverMail = some next)
    (hworking : s.Working) : next.Doomed uuid := by
  have hhonest := honest_of_step hworking.honest hstep
  have hreact : s.server.handleMail (.connectionDead uuid) =
      some (s.server.removeConnection uuid, [.send (.new uuid (.response .abort))]) := by
    simp [ProxyClient.handleMail, ProxyClient.handleConnectionDead, ProxyClient.unboundedSend,
      ProxyClient.removeConnection, hworking.receiving]
  simp only [step, handleServerMail, hworking.serverUp, if_true, hmail, hreact] at hstep
  cases hstep
  exact ⟨⟨rfl, hworking.dispatcherUp, hworking.receiving, hhonest⟩, hcarries,
    by simp [react, serverEffect]⟩

/-- Payload whose connection a failed write takes away. -/
theorem doomed_of_serverRecv {request : ProxyRequest} {tag : Tag}
    {rest : List (Tagged ProxyRequest)} {result : WriteResult} {writer : Nat}
    (hupstream : s.upstream = ⟨request, tag⟩ :: rest) (hdata : request.request.isData = true)
    (hwriter : s.server.connections request.uuid = some writer) (herr : result.isErr = true)
    (hcarries : CarriesData s.requests.tail request.uuid)
    (hstep : s.step (.serverRecv result) = some next) (hworking : s.Working) :
    next.Doomed request.uuid := by
  have hhonest := honest_of_step hworking.honest hstep
  obtain ⟨uuid, transferLen, transferType, transfer⟩ := request
  cases transfer with
  | data data =>
      have hreact : s.server.handleProxyRequest ⟨uuid, transferLen, transferType, .data data⟩
          result = some (s.server.removeConnection uuid, [.write writer (result.taken data)]) := by
        simp [ProxyClient.handleProxyRequest, ProxyClient.handleData, hwriter, herr]
      simp only [step, serverRecv, hworking.serverUp, if_true, hupstream, hreact] at hstep
      cases hstep
      rw [requests, hupstream] at hcarries
      exact ⟨⟨rfl, hworking.dispatcherUp, hworking.receiving, hhonest⟩, hcarries,
        by simp [react, serverEffect]⟩
  | requestAddr addr => cases hdata
  | response kind => cases hdata
  | heartbeat index => cases hdata

/-- No weaker condition on single events will do: behind every event that breaks
it, some order of steps leads to payload without a connection. -/
theorem fails_of_not_keepsEntries {events : List Event} {event : Event}
    (hrun : System.run events = some s) (hdispatcher : s.dispatcherUp = true)
    (hreceiving : s.server.receiving = true) (hstep : s.step event = some next)
    (hbroken : ¬ s.KeepsEntries event) :
    ∃ more final, Transition.run System.step s more = some final ∧ ¬ final.HandlesKnown := by
  have hhonest : s.relay.Honest :=
    Transition.run_invariant (fun s => s.relay.Honest) honest_of_step
      (by simp [Relay.Honest, init, relay, requests]) hrun
  obtain ⟨hup, hbroken⟩ := Classical.not_imp.mp hbroken
  have hworking : s.Working := ⟨hup, hdispatcher, hreceiving, hhonest⟩
  have hbehind {uuid : UInt16} (hdoomed : next.Doomed uuid) :
      ∃ more final, Transition.run System.step s more = some final ∧ ¬ final.HandlesKnown := by
    obtain ⟨more, final, hmore, hfails⟩ := hdoomed.fails
    exact ⟨event :: more, final, Transition.run_cons.mpr ⟨next, hstep, hmore⟩, hfails⟩
  cases event with
  | appPoll index =>
      simp only [not_forall, not_not] at hbroken
      obtain ⟨session, hsession, hcodec, hmissing⟩ := hbroken
      exact hbehind (doomed_of_appPoll hsession hcodec hmissing hstep hworking)
  | serverRecv result =>
      simp only [not_forall, not_not] at hbroken
      obtain ⟨request, tag, rest, hupstream, hdata, herr, hcarries⟩ := hbroken
      cases hwriter : s.server.connections request.uuid with
      | none =>
          exact ⟨[], s, rfl, fun hknown => hknown hup request tag rest hupstream hdata hwriter⟩
      | some writer =>
          exact hbehind (doomed_of_serverRecv hupstream hdata hwriter herr hcarries hstep
            hworking)
  | serverMail =>
      simp only [not_forall, not_not] at hbroken
      obtain ⟨uuid, tag, rest, hmail, hcarries⟩ := hbroken
      exact hbehind (doomed_of_serverMail hmail hcarries hstep hworking)
  | _ => exact absurd trivial hbroken

end System

end JustProxy
