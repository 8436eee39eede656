import JustProxy.System.Heartbeats
import JustProxy.System.Isolation

/-! # The dispatcher's lookup

Whatever comes back through the tunnel is either the echo of a heartbeat, or it
is for a uuid that the dispatcher has a session for and tells that session
something. The dispatcher panics on nothing that the server sends.
-/

namespace JustProxy

/-! ## Addresses -/

namespace Relay

variable {r next : Relay} {action : Action}

/-- The dispatcher has a session for the uuid. -/
def Known (r : Relay) (uuid : UInt16) : Prop := uuid ≠ 0 ∧ r.clients uuid ≠ none

/-- The echo of a heartbeat, or an answer to a session that the dispatcher knows. -/
def Answers (r : Relay) (response : ProxyResponse) : Prop :=
  (response.uuid = 0 ∧ ∃ index, response.response = .heartbeat index) ∨
    (r.Known response.uuid ∧ ((∃ bytes, response.response = .data bytes) ∨
      ∃ kind, response.response = .response kind))

/-- A known uuid stays known. -/
theorem Known.step {uuid : UInt16} (hknown : r.Known uuid) (hstep : Step r action next) :
    next.Known uuid := by
  refine ⟨hknown.1, ?_⟩
  cases hstep with
  | @connect port hport =>
      by_cases huuid : uuid = port
      · simp [huuid]
      · simpa [huuid] using hknown.2
  | _ => exact hknown.2

theorem Answers.step {response : ProxyResponse} (hanswers : r.Answers response)
    (hstep : Step r action next) : next.Answers response :=
  hanswers.imp_right fun hknown => hknown.imp_left fun hknown => hknown.step hstep

/-- The sessions are known, heartbeats have no uuid of a session, and all that is
on the way back can be handled. -/
structure Addressed (r : Relay) : Prop where
  labelled : r.Labelled
  peers : ∀ peer ∈ r.peers, r.Known peer.uuid
  requests : ∀ request ∈ r.requests, ∀ index, request.message.request = .heartbeat index →
    request.message.uuid = 0
  responses : ∀ response ∈ r.responses, r.Answers response.message

theorem Addressed.known {cause : Option Nat} {uuid : UInt16} (haddressed : r.Addressed)
    (hbelongs : r.Belongs cause uuid) : r.Known uuid := by
  obtain ⟨index, peer, -, hpeer, rfl⟩ := hbelongs
  exact haddressed.peers peer (List.mem_of_getElem? hpeer)

theorem Addressed.step_peers (haddressed : r.Addressed) (hstep : Step r action next) :
    ∀ peer ∈ next.peers, next.Known peer.uuid := by
  intro peer hpeer
  rcases peer_uuid hstep hpeer with ⟨old, hold, huuid⟩ | rfl
  · rw [← huuid]
    exact (haddressed.peers old hold).step hstep
  · cases hstep with
    | connect hport => exact ⟨hport, by simp⟩

theorem Addressed.step_requests (haddressed : r.Addressed) (hstep : Step r action next) :
    ∀ request ∈ next.requests, ∀ index, request.message.request = .heartbeat index →
      request.message.uuid = 0 := by
  intro request hmem index hindex
  rcases mem_requests hstep hmem with
    hold | ⟨_, hheartbeat⟩ | ⟨_, peer, transfer, -, ⟨addr, rfl⟩ | ⟨data, rfl⟩, rfl⟩
  · exact haddressed.requests request hold index hindex
  · rw [hheartbeat]
    rfl
  · cases hindex
  · cases hindex

theorem Addressed.step_responses (haddressed : r.Addressed) (hstep : Step r action next) :
    ∀ response ∈ next.responses, next.Answers response.message := by
  have hknown {cause : Option Nat} {uuid : UInt16} (hbelongs : r.Belongs cause uuid) :
      next.Known uuid := (haddressed.known hbelongs).step hstep
  intro response hmem
  rcases mem_responses hstep hmem with hold | ⟨request, hrequest, index, hindex, rfl⟩ |
    ⟨connect, hconnect, kind, rfl⟩ | ⟨index, target, transfer, htarget, hsays, rfl⟩
  · exact (haddressed.responses response hold).step hstep
  · exact .inl ⟨haddressed.requests request hrequest index hindex, index, rfl⟩
  · exact .inr ⟨hknown (haddressed.labelled.resolving connect hconnect), .inr ⟨kind, rfl⟩⟩
  · have hbelongs := haddressed.labelled.targets target (List.mem_of_getElem? htarget)
    rcases hsays with ⟨bytes, rfl⟩ | rfl
    · exact .inr ⟨hknown hbelongs, .inl ⟨bytes, rfl⟩⟩
    · exact .inr ⟨hknown hbelongs, .inr ⟨.abort, rfl⟩⟩

theorem Addressed.step (haddressed : r.Addressed) (hstep : Step r action next) :
    next.Addressed where
  labelled := haddressed.labelled.step hstep
  peers := haddressed.step_peers hstep
  requests := haddressed.step_requests hstep
  responses := haddressed.step_responses hstep

end Relay

/-! ## The dispatcher does not panic -/

namespace System

variable {s next : System}

theorem addressed_init : init.relay.Addressed where
  labelled := isolated_init.labelled
  peers := by simp [init, relay]
  requests := by simp [init, relay, requests]
  responses := by simp [init, relay, responses]

theorem addressed_of_run {events : List Event} (hrun : run events = some s) :
    s.relay.Addressed := by
  refine Transition.run_invariant (fun s : System => s.relay.Addressed) ?_ addressed_init hrun
  intro state event next haddressed hstep
  obtain ⟨action, -, hrelay⟩ := step_refines hstep
  exact haddressed.step hrelay

/-- The only way for the dispatcher to go down is a response that it cannot handle. -/
theorem dispatcherUp_of_step {event : Event} (hstep : s.step event = some next)
    (hup : s.dispatcherUp = true)
    (hhandles : ∀ response tag rest, s.downstream = ⟨response, tag⟩ :: rest →
      s.dispatcher.handleProxyResponse response s.clock ≠ none) : next.dispatcherUp = true := by
  cases hserver : event.isServer with
  | true =>
      rw [← hup]
      exact congrArg ClientProcess.dispatcherUp (step_server hstep hserver)
  | false =>
      cases step_clientStep hstep hserver with
      | session hsession =>
          obtain ⟨session, session', mails, -, -, -, rfl⟩ := hsession
          exact hup
      | panic hdownstream hhandle => exact absurd hhandle (hhandles _ _ _ hdownstream)
      | _ => exact hup

/-- The response that the dispatcher handles next. -/
theorem answers_of_addressed (haddressed : s.relay.Addressed) {response : ProxyResponse}
    {tag : Tag} {rest : List (Tagged ProxyResponse)}
    (hdownstream : s.downstream = ⟨response, tag⟩ :: rest) : s.relay.Answers response := by
  apply haddressed.responses ⟨response, tag⟩
  change _ ∈ s.responses
  simp [responses, hdownstream]

/-- Both kinds of responses can be handled. -/
theorem handles_of_answers {response : ProxyResponse} (hanswers : s.relay.Answers response) :
    s.dispatcher.handleProxyResponse response s.clock ≠ none := by
  rw [Server.handleProxyResponse]
  rcases hanswers with ⟨hzero, index, hindex⟩ | ⟨⟨huuid, hclient⟩, hresponse⟩
  · simp [hzero, hindex]
  · obtain ⟨session, hsession⟩ := Option.ne_none_iff_exists'.mp hclient
    have hlookup : s.dispatcher.clients response.uuid = some session := hsession
    rcases hresponse with ⟨bytes, hbytes⟩ | ⟨kind, hkind⟩
    · simp [huuid, hlookup, hbytes, Server.connectorResponse]
    · cases kind <;> simp [huuid, hlookup, hkind, Server.connectorResponse]

/-- The dispatcher runs. The response that it handles next is the echo that it
waits for, or an answer to one of its sessions, and it does not panic on it. -/
structure DispatcherSafe (events : List Event) (s : System) : Prop where
  running : s.dispatcherUp = true
  next : ∀ response tag rest, s.downstream = ⟨response, tag⟩ :: rest →
    s.dispatcher.handleProxyResponse response s.clock ≠ none ∧
      ((response.uuid = 0 ∧ ∃ index, response.response = .heartbeat index ∧
          Transition.record step echoes .init events ++ [index] <+:
            Transition.record step pings .init events) ∨
        (s.dispatcher.clients response.uuid ≠ none ∧ ((∃ bytes, response.response = .data bytes) ∨
          ∃ kind, response.response = .response kind)))

theorem dispatcherUp_of_run {events : List Event} (hrun : run events = some s) :
    s.dispatcherUp = true := by
  refine (Transition.run_invariant
    (fun s : System => s.relay.Addressed ∧ s.dispatcherUp = true) ?_ ?_ hrun).2
  · rintro state event next ⟨haddressed, hup⟩ hstep
    obtain ⟨action, -, hrelay⟩ := step_refines hstep
    refine ⟨haddressed.step hrelay, dispatcherUp_of_step hstep hup ?_⟩
    intro response tag rest hdownstream
    exact handles_of_answers (answers_of_addressed haddressed hdownstream)
  · exact ⟨addressed_init, rfl⟩

/-- The dispatcher never panics. In every run it handles heartbeats as echoes of
what it has sent, in order and each once, and everything else as an answer to one
of its sessions. -/
theorem dispatcherSafe (events : List Event) (s : System) (hrun : run events = some s) :
    DispatcherSafe events s where
  running := dispatcherUp_of_run hrun
  next response tag rest hdownstream := by
    have hanswers := answers_of_addressed (addressed_of_run hrun) hdownstream
    refine ⟨handles_of_answers hanswers, ?_⟩
    rcases hanswers with ⟨hzero, index, hindex⟩ | ⟨hknown, hresponse⟩
    · refine .inl ⟨hzero, index, hindex, ?_⟩
      -- the echo is the first of the heartbeats that are still on their way
      have hfirst : s.heartbeats = index :: (rest ++ s.outQueue).filterMap
          (·.message.response.heartbeatIndex) ++
            s.upstream.filterMap (·.message.request.heartbeatIndex) := by
        simp [heartbeats, hdownstream, hindex, ProxyTransfer.heartbeatIndex]
      rw [pings_eq hrun, hfirst, List.cons_append]
      exact ⟨_, (List.append_cons _ _ _).symm⟩
    · exact .inr ⟨hknown.2, hresponse⟩

/-- Two heartbeats, and an answer between their echoes. -/
def heartbeatsAndAnswer : List Event := [.tick, .clientMail] ++ Event.asks 5000 0 ++
  [.clientMail, .serverRecv (.accepted 0), .serverRecv (.accepted 0), .resolved 0 .timeout,
    .serverMail, .tick, .clientMail, .serverRecv (.accepted 0), .forward, .forward, .forward,
    .clientRecv, .clientRecv]

theorem dispatcherSafe_second : ∃ s, run heartbeatsAndAnswer = some s ∧
    s.downstream.map Tagged.message = [.new 0 (.heartbeat 2)] ∧
    Transition.record step pings .init heartbeatsAndAnswer = [1, 2] ∧
    DispatcherSafe heartbeatsAndAnswer s :=
  ⟨_, rfl, by decide, by decide, dispatcherSafe heartbeatsAndAnswer _ rfl⟩

end System

end JustProxy
