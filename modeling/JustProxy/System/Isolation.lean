import JustProxy.System.Lifecycle

/-! # Isolation of connections

The id of a connection is the port its application connects from, and nothing
removes an id. A port that comes back while something of an earlier connection
is left gets the answers of both. As long as every port only comes back to a
quiet connection, each session is told exactly what it has caused.
-/

namespace JustProxy

/-- Nothing is left of a connection that could still be answered: no request or
connect is on its way, no reader reads, no answer is in flight, and its session
has stopped or has already asked. -/
structure Track.Quiet (t : Track) : Prop where
  requests : t.requests = 0
  pending : t.pending = 0
  targets : ∀ index chunks, t.targets index ≠ some (true, chunks)
  inFlight : t.inFlight = []
  asks : t.running = false ∨ t.asked = true

/-- A quiet connection stays quiet. -/
theorem Track.Quiet.move {t t' : Track} (hquiet : t.Quiet) (hmove : Move t t') : t'.Quiet := by
  cases hmove with
  | stay => exact hquiet
  | ask hrunning hasked =>
      rcases hquiet.asks with hstopped | hasked'
      · rw [hstopped] at hrunning
        cases hrunning
      · rw [hasked] at hasked'
        cases hasked'
  | stop => exact ⟨hquiet.requests, hquiet.pending, hquiet.targets, hquiet.inFlight, .inl rfl⟩
  | dial hrequests =>
      rw [hquiet.requests] at hrequests
      cases hrequests
  | opened index hpending =>
      rw [hquiet.pending] at hpending
      cases hpending
  | refused hpending =>
      rw [hquiet.pending] at hpending
      cases hpending
  | chunk bytes htarget => exact absurd htarget (hquiet.targets _ _)
  | finish htarget => exact absurd htarget (hquiet.targets _ _)
  | fail htarget => exact absurd htarget (hquiet.targets _ _)
  | deliver hflight =>
      rw [hquiet.inFlight] at hflight
      cases hflight

namespace Relay

variable {r next : Relay} {action : Action}

/-! ## Labels -/

/-- The cause is a session, and the uuid is its port. -/
def Belongs (r : Relay) (cause : Option Nat) (uuid : UInt16) : Prop :=
  ∃ index peer, cause = some index ∧ r.peers[index]? = some peer ∧ peer.uuid = uuid

/-- A session keeps its port. -/
theorem step_peer (hstep : Step r action next) {index : Nat} {peer : Peer}
    (hpeer : r.peers[index]? = some peer) :
    ∃ peer', next.peers[index]? = some peer' ∧ peer'.uuid = peer.uuid := by
  have hset {other : Nat} {before after : Peer} (hbefore : r.peers[other]? = some before)
      (huuid : after.uuid = before.uuid) :
      ∃ peer', (r.peers.set other after)[index]? = some peer' ∧ peer'.uuid = peer.uuid := by
    by_cases hother : other = index
    · subst hother
      rw [hbefore] at hpeer
      cases hpeer
      have hlength := (List.getElem?_eq_some_iff.mp hbefore).1
      exact ⟨after, by simp [hlength], huuid⟩
    · exact ⟨peer, by rw [List.getElem?_set_ne hother, hpeer], rfl⟩
  cases hstep with
  | connect hport =>
      have hlength := (List.getElem?_eq_some_iff.mp hpeer).1
      exact ⟨peer, by rw [List.getElem?_append_left hlength, hpeer], rfl⟩
  | ask addr hasker hrunning hasked => exact hset hasker rfl
  | stop hstopped => exact hset hstopped rfl
  | _ => exact ⟨peer, hpeer, rfl⟩

theorem Belongs.step {cause : Option Nat} {uuid : UInt16} (hbelongs : r.Belongs cause uuid)
    (hstep : Step r action next) : next.Belongs cause uuid := by
  obtain ⟨index, peer, hcause, hpeer, rfl⟩ := hbelongs
  obtain ⟨peer', hpeer', huuid⟩ := step_peer hstep hpeer
  exact ⟨index, peer', hcause, hpeer', huuid⟩

/-- Everything that a session has caused carries the session's port. -/
structure Labelled (r : Relay) : Prop where
  requests : ∀ request ∈ r.requests,
    (∃ index, request.message = .new 0 (.heartbeat index)) ∨
      r.Belongs request.tag.cause request.message.uuid
  resolving : ∀ connect ∈ r.resolving, r.Belongs connect.tag.cause connect.message
  targets : ∀ target ∈ r.targets, r.Belongs target.openedFor target.uuid
  responses : ∀ response ∈ r.responses, response.message.uuid ≠ 0 →
    r.Belongs response.tag.cause response.message.uuid

theorem Labelled.step (hlabelled : r.Labelled) (hstep : Step r action next) :
    next.Labelled where
  requests request hmem := by
    rcases mem_requests hstep hmem with
      hold | hheartbeat | ⟨index, peer, transfer, hpeer, -, rfl⟩
    · exact (hlabelled.requests request hold).imp_right fun hbelongs => hbelongs.step hstep
    · exact .inl hheartbeat
    · exact .inr (Belongs.step ⟨index, peer, rfl, hpeer, rfl⟩ hstep)
  resolving connect hmem := by
    rcases mem_resolving hstep hmem with hold | ⟨request, hrequest, addr, haddr, rfl⟩
    · exact (hlabelled.resolving connect hold).step hstep
    · -- a heartbeat asks for no address
      rcases hlabelled.requests request hrequest with ⟨index, hheartbeat⟩ | hbelongs
      · rw [hheartbeat] at haddr
        cases haddr
      · exact hbelongs.step hstep
  targets target hmem := by
    rcases mem_targets hstep hmem with
      ⟨old, hold, huuid, hopened⟩ | ⟨connect, hconnect, huuid, hopened⟩
    · rw [huuid, hopened]
      exact (hlabelled.targets old hold).step hstep
    · rw [huuid, hopened]
      exact (hlabelled.resolving connect hconnect).step hstep
  responses response hmem huuid := by
    rcases mem_responses hstep hmem with hold | ⟨request, hrequest, index, hindex, rfl⟩ |
      ⟨connect, hconnect, kind, rfl⟩ | ⟨index, target, transfer, htarget, -, rfl⟩
    · exact (hlabelled.responses response hold huuid).step hstep
    · rcases hlabelled.requests request hrequest with ⟨_, hheartbeat⟩ | hbelongs
      · have hzero : request.message.uuid = 0 := by rw [hheartbeat]; rfl
        exact absurd hzero huuid
      · exact hbelongs.step hstep
    · exact (hlabelled.resolving connect hconnect).step hstep
    · exact (hlabelled.targets target (List.mem_of_getElem? htarget)).step hstep

/-- The sessions of the relay are old ones, or one that has just connected. -/
theorem peer_uuid (hstep : Step r action next) {peer : Peer} (hpeer : peer ∈ next.peers) :
    (∃ old ∈ r.peers, old.uuid = peer.uuid) ∨ action = .connect peer.uuid := by
  cases hstep with
  | connect hport =>
      rcases List.mem_append.mp hpeer with hold | hnew
      · exact .inl ⟨peer, hold, rfl⟩
      · rw [List.mem_singleton.mp hnew]
        exact .inr rfl
  | @ask asker old addr hold hrunning hasked =>
      rcases List.mem_or_eq_of_mem_set hpeer with hsame | rfl
      · exact .inl ⟨peer, hsame, rfl⟩
      · exact .inl ⟨old, List.mem_of_getElem? hold, rfl⟩
  | @stop stopped old hold =>
      rcases List.mem_or_eq_of_mem_set hpeer with hsame | rfl
      · exact .inl ⟨peer, hsame, rfl⟩
      · exact .inl ⟨old, List.mem_of_getElem? hold, rfl⟩
  | _ => exact .inl ⟨peer, hpeer, rfl⟩

/-! ## Owners -/

/-- A connection that is not quiet still owns its port at the dispatcher, and
everything delivered went to the session that has caused it. -/
structure Isolated (r : Relay) : Prop where
  labelled : r.Labelled
  owner : ∀ index peer, r.peers[index]? = some peer → ¬ (r.track index).Quiet →
    r.clients peer.uuid = some index
  deliveries : ∀ delivery ∈ r.deliveries, delivery.tag.cause = some delivery.session

/-- A port only comes back to a quiet connection. -/
def CleanReuse (r : Relay) : Action → Prop
  | .connect port => ∀ index peer, r.peers[index]? = some peer → peer.uuid = port →
      (r.track index).Quiet
  | _ => True

/-- The answer at the head of the queue keeps its connection from being quiet. -/
theorem not_quiet_of_response {response : ProxyResponse} {tag : Tag}
    {rest : List (Tagged ProxyResponse)} {answer : ConnectorResponse} {index : Nat}
    (hhead : r.responses = ⟨response, tag⟩ :: rest)
    (hanswer : Server.connectorResponse response.response = some answer)
    (hcause : tag.cause = some index) : ¬ (r.track index).Quiet := by
  intro hquiet
  have hflight := hquiet.inFlight
  simp [track, hhead, Tagged.answerFor, hanswer, hcause] at hflight

theorem Isolated.connect {port : UInt16} (hisolated : r.Isolated)
    (hclean : r.CleanReuse (.connect port)) (hstep : Step r (.connect port) next) :
    next.Isolated := by
  have hlabelled := hisolated.labelled.step hstep
  have htrack := connect_track hstep
  cases hstep with
  | connect hport =>
      refine ⟨hlabelled, ?_, hisolated.deliveries⟩
      intro index peer hpeer hbusy
      -- the new session owns the port; the older ones with the port are quiet
      by_cases hindex : index = r.peers.length
      · subst hindex
        have hnew : peer = ⟨port, false, true⟩ := by simpa [eq_comm] using hpeer
        simp [hnew]
      · have hlength : index < r.peers.length := by
          have hbound := (List.getElem?_eq_some_iff.mp hpeer).1
          rw [List.length_append, List.length_singleton] at hbound
          omega
        have hold : r.peers[index]? = some peer := by
          rwa [List.getElem?_append_left hlength] at hpeer
        have hsame := (htrack index).resolve_right fun hnew => hindex hnew.1
        rw [hsame] at hbusy
        have hport : peer.uuid ≠ port := fun heq => hbusy (hclean index peer hold heq)
        change Function.update r.clients port _ peer.uuid = _
        rw [Function.update_of_ne hport]
        exact hisolated.owner index peer hold hbusy

/-- Only a new connection changes whom the dispatcher knows. -/
theorem step_frame (hstep : Step r action next) (hconnect : ∀ port, action ≠ .connect port) :
    next.clients = r.clients ∧ next.peers.length = r.peers.length := by
  cases hstep with
  | connect hport => exact absurd rfl (hconnect _)
  | ask addr hpeer hrunning hasked => exact ⟨rfl, List.length_set⟩
  | stop hpeer => exact ⟨rfl, List.length_set⟩
  | _ => exact ⟨rfl, rfl⟩

/-- The response at the head of the queue is for the session that has caused it. -/
theorem Isolated.head {response : ProxyResponse} {tag : Tag} {rest : List (Tagged ProxyResponse)}
    {answer : ConnectorResponse} {index : Nat} (hisolated : r.Isolated)
    (hhead : r.responses = ⟨response, tag⟩ :: rest) (huuid : response.uuid ≠ 0)
    (hclient : r.clients response.uuid = some index)
    (hanswer : Server.connectorResponse response.response = some answer) :
    tag.cause = some index := by
  obtain ⟨owner, peer, hcause, hpeer, hport⟩ := hisolated.labelled.responses ⟨response, tag⟩
    (hhead ▸ List.mem_cons_self) huuid
  have howner := hisolated.owner owner peer hpeer
    (not_quiet_of_response hhead hanswer hcause)
  rw [hport, hclient] at howner
  rw [hcause, howner]

theorem Isolated.step (hisolated : r.Isolated) (hclean : r.CleanReuse action)
    (hstep : Step r action next) : next.Isolated := by
  by_cases hconnect : ∃ port, action = .connect port
  · obtain ⟨port, rfl⟩ := hconnect
    exact hisolated.connect hclean hstep
  have hother : ∀ port, action ≠ .connect port := fun port heq => hconnect ⟨port, heq⟩
  -- no owner changes, and a move wakes no quiet session up
  obtain ⟨hclients, hlength⟩ := step_frame hstep hother
  refine ⟨hisolated.labelled.step hstep, ?_, ?_⟩
  · intro index peer hpeer hbusy
    have hbound : index < r.peers.length := hlength ▸ (List.getElem?_eq_some_iff.mp hpeer).1
    have hold : r.peers[index]? = some r.peers[index] := List.getElem?_eq_getElem hbound
    obtain ⟨peer', hpeer', huuid⟩ := step_peer hstep hold
    have hsame : peer' = peer := Option.some.inj (hpeer'.symm.trans hpeer)
    rw [hclients, ← hsame, huuid]
    exact hisolated.owner index _ hold
      fun hquiet => hbusy (hquiet.move (step_move hstep hother index))
  · cases hstep with
    | deliver hhead huuid hclient hanswer =>
        exact List.forall_mem_append.mpr ⟨hisolated.deliveries,
          List.forall_mem_singleton.mpr (hisolated.head hhead huuid hclient hanswer)⟩
    | _ => exact hisolated.deliveries

end Relay

/-! ## Runs of the system -/

namespace System

/-- When an application connects, every earlier connection with its port is
quiet. This is a condition on the state before the event. -/
def CleanReuse (s : System) (event : Event) : Prop :=
  ∀ port, event = .connect port → s.relay.CleanReuse (.connect port)

/-- Every response was caused by the request of the session it was delivered to,
and payload was read from the target that the server opened for that request. -/
def DeliversOwn (s : System) : Prop :=
  ∀ delivery ∈ s.deliveries, delivery.tag.cause = some delivery.session ∧
    ∀ bytes, delivery.response = .data bytes → ∃ index target,
      delivery.tag.source = some index ∧ s.targets[index]? = some target ∧
        target.openedFor = some delivery.session ∧ bytes ∈ target.chunks

theorem isolated_init : System.init.relay.Isolated where
  labelled := ⟨by simp [init, relay, requests], by simp [init, relay], by simp [init, relay],
    by simp [init, relay, responses]⟩
  owner index peer hpeer := by simp [init, relay] at hpeer
  deliveries := by simp [init, relay]

theorem isolated_of_clean {events : List Event} {s : System}
    (hclean : Transition.Meets System.step CleanReuse .init events)
    (hrun : System.run events = some s) : s.relay.Isolated := by
  refine hclean.invariant (fun s => s.relay.Isolated) ?_ isolated_init hrun
  intro state event next hisolated hreuse hstep
  obtain ⟨action, hcorresponds, hrelay⟩ := step_refines hstep
  refine hisolated.step ?_ hrelay
  cases action with
  | connect port => exact hreuse port hcorresponds
  | _ => trivial

/-- Connection isolation. In every run in which a port only comes back to a quiet
connection, every session is told what it has caused and nothing else. -/
theorem deliversOwn_of_cleanReuse (events : List Event) (s : System)
    (hclean : Transition.Meets System.step CleanReuse .init events)
    (hrun : System.run events = some s) : s.DeliversOwn := by
  intro delivery hmem
  have hcause := (isolated_of_clean hclean hrun).deliveries delivery hmem
  refine ⟨hcause, fun bytes hdata => ?_⟩
  have hlives := lives hrun delivery.session
  have htold : (.data bytes, delivery.tag.source) ∈ (s.relay.track delivery.session).flow := by
    refine List.mem_append_left _ (List.mem_filterMap.mpr ⟨delivery, hmem, ?_⟩)
    simp [Delivery.answerFor, hcause, hdata]
  obtain ⟨index, reading, chunks, hsource, hshare, hchunk⟩ := hlives.data_source htold
  obtain ⟨target, htarget, hopened, rfl⟩ := Relay.track_targets_eq_some hshare
  exact ⟨index, target, hsource, htarget, hopened, hchunk⟩

/-- A port comes back after its application has gone, and before the resolver of
the old request is done. -/
def reusedEarly : List Event := Event.asks 5000 0 ++
  [.clientMail, .serverRecv (.accepted 0), .appClose 0, .connect 5000, .resolved 0 (.connected ()),
    .read 0 (.chunk [72, 105]), .serverMail, .serverMail, .forward, .forward, .clientRecv,
    .clientRecv]

/-- The new session is told of a connection it has not asked for, and gets the
payload of the old one. -/
theorem reused_port_crosses_sessions : ∃ s, System.run reusedEarly = some s ∧
    s.deliveries = [⟨1, .succeeded, ⟨some 0, none⟩⟩, ⟨1, .data [72, 105], ⟨some 0, some 0⟩⟩] ∧
    ¬ s.DeliversOwn := by
  refine ⟨_, rfl, by decide, fun howns => ?_⟩
  have hcause := (howns ⟨1, .succeeded, ⟨some 0, none⟩⟩ (by decide)).1
  cases hcause

/-! ## Distinct ports -/

/-- The ports that applications connect from in some events. -/
def ports (events : List Event) : List UInt16 := events.filterMap Event.port

theorem peer_uuid_of_step {s next : System} {event : Event} (hstep : s.step event = some next)
    {peer : Peer} (hpeer : peer ∈ next.relay.peers) :
    (∃ old ∈ s.relay.peers, old.uuid = peer.uuid) ∨ event = .connect peer.uuid := by
  obtain ⟨action, hcorresponds, hrelay⟩ := step_refines hstep
  rcases Relay.peer_uuid hrelay hpeer with ⟨old, hold, huuid⟩ | hconnect
  · exact .inl ⟨old, hold, huuid⟩
  · subst hconnect
    exact .inr hcorresponds

/-- Distinct ports never come back. -/
theorem meets_cleanReuse {events : List Event} {s : System} (hports : (ports events).Nodup)
    (hfresh : ∀ peer ∈ s.relay.peers, peer.uuid ∉ ports events) :
    Transition.Meets System.step CleanReuse s events := by
  induction events generalizing s with
  | nil => trivial
  | cons event rest ih =>
      refine ⟨?_, ?_⟩
      · rintro port rfl index peer hpeer rfl
        refine absurd ?_ (hfresh peer (List.mem_of_getElem? hpeer))
        simp [ports, Event.port]
      · intro next hstep
        have hsplit : ports (event :: rest) = ports [event] ++ ports rest :=
          List.filterMap_append (l := [event])
        rw [hsplit] at hports hfresh
        obtain ⟨-, hrest, hdisjoint⟩ := List.nodup_append.mp hports
        apply ih hrest
        intro peer hpeer hmem
        rcases peer_uuid_of_step hstep hpeer with ⟨old, hold, huuid⟩ | rfl
        · exact hfresh old hold (huuid ▸ List.mem_append_right _ hmem)
        · exact hdisjoint _ (by simp [ports, Event.port]) _ hmem rfl

/-- A port comes back after its application has gone without a request. -/
def reusedLate : List Event := [.connect 5000, .appClose 0] ++ (Event.asks 5000 1 ++
  [.clientMail, .serverRecv (.accepted 0), .resolved 0 (.connected ()),
    .read 0 (.chunk [72, 105]), .serverMail, .serverMail, .forward, .forward, .clientRecv,
    .clientRecv])

theorem deliversOwn_of_cleanReuse_late : ∃ s, System.run reusedLate = some s ∧
    s.deliveries = [⟨1, .succeeded, ⟨some 1, none⟩⟩, ⟨1, .data [72, 105], ⟨some 1, some 0⟩⟩] ∧
    s.DeliversOwn := by
  refine ⟨_, rfl, by decide, deliversOwn_of_cleanReuse reusedLate _ ?_ rfl⟩
  refine .cons ?_ rfl (.cons ?_ rfl (.cons ?_ rfl (meets_cleanReuse (by decide) (by decide))))
  · rintro port - index peer hpeer
    simp [init, relay] at hpeer
  · rintro port hport
    cases hport
  · rintro port - index peer hpeer -
    -- the only earlier session has stopped and left nothing
    have hlength : index < 1 := (List.getElem?_eq_some_iff.mp hpeer).1
    obtain rfl : index = 0 := by omega
    exact ⟨rfl, rfl, fun _ _ htarget => (by cases htarget), rfl, .inl rfl⟩

/-- What the session of an index has been told. -/
def received (s : System) (index : Nat) : List ConnectorResponse :=
  (s.deliveries.filter fun delivery => delivery.session = index).map Delivery.response

theorem received_eq {s : System} (hisolated : s.relay.Isolated) (index : Nat) :
    s.received index = (s.relay.track index).delivered.map Prod.fst := by
  have hdeliveries : ∀ delivery ∈ s.deliveries, delivery.tag.cause = some delivery.session :=
    hisolated.deliveries
  change _ = (s.deliveries.filterMap (Delivery.answerFor index)).map Prod.fst
  rw [received]
  generalize s.deliveries = deliveries at hdeliveries
  induction deliveries with
  | nil => rfl
  | cons delivery rest ih =>
      have hcause := hdeliveries delivery List.mem_cons_self
      have hrest := ih fun other hother => hdeliveries other (List.mem_cons_of_mem _ hother)
      by_cases hsession : delivery.session = index
      · simp [hsession, Delivery.answerFor, hcause, hrest]
      · simp [hsession, Delivery.answerFor, hcause, hrest]

/-- Downstream order and no loss. With distinct ports a session is told of a
refusal, or of a connection, its chunks in the order they were read from the
only target opened for it, and of its end. -/
theorem received_prefix (events : List Event) (s : System) (hports : (ports events).Nodup)
    (hrun : System.run events = some s) (index : Nat) :
    s.received index <+: [.failed] ∨ ∃ opened target,
      s.targets[opened]? = some target ∧ target.openedFor = some index ∧
      (∀ (other : Nat) (target' : Target), s.targets[other]? = some target' →
        target'.openedFor = some index → other = opened) ∧
      s.received index <+: .succeeded :: (target.chunks.map .data ++ [.abort]) := by
  have hclean : Transition.Meets System.step CleanReuse .init events :=
    meets_cleanReuse hports (by simp [init, relay])
  rw [received_eq (isolated_of_clean hclean hrun)]
  have htold : (s.relay.track index).delivered.map Prod.fst <+:
      (s.relay.track index).flow.map Prod.fst := by
    rw [Track.flow, List.map_append]
    exact List.prefix_append _ _
  rcases (lives hrun index).answers with hrefused | ⟨opened, reading, chunks, htargets, hanswers⟩
  · exact .inl (htold.trans hrefused)
  · have hshare : (s.relay.track index).targets opened = some (reading, chunks) := by
      simp [htargets, Track.single]
    obtain ⟨target, htarget, hopened, rfl⟩ := Relay.track_targets_eq_some hshare
    refine .inr ⟨opened, target, htarget, hopened, ?_, htold.trans hanswers⟩
    intro other target' htarget' hopened'
    have hother := Relay.track_target (r := s.relay) htarget' hopened'
    rw [htargets] at hother
    exact (Track.single_eq_some hother).1

/-- Two applications, one of which is refused. -/
def refusedAndRead : List Event := Event.asks 5000 0 ++ Event.asks 6000 1 ++
  [.clientMail, .clientMail, .serverRecv (.accepted 0), .serverRecv (.accepted 0),
    .resolved 1 (.connected ()), .resolved 0 .timeout, .read 0 (.chunk [72, 105]), .serverMail,
    .serverMail, .serverMail, .forward, .forward, .forward, .clientRecv, .clientRecv, .clientRecv]

theorem received_prefix_two : ∃ s, System.run refusedAndRead = some s ∧
    s.received 0 = [.failed] ∧ s.received 1 = [.succeeded, .data [72, 105]] ∧
    ∀ index, s.received index <+: [.failed] ∨ ∃ opened target,
      s.targets[opened]? = some target ∧ target.openedFor = some index ∧
      (∀ (other : Nat) (target' : Target), s.targets[other]? = some target' →
        target'.openedFor = some index → other = opened) ∧
      s.received index <+: .succeeded :: (target.chunks.map .data ++ [.abort]) :=
  ⟨_, rfl, by decide, by decide, received_prefix refusedAndRead _ (by decide) rfl⟩

end System

end JustProxy
