import JustProxy.System.Dispatch

/-! # What the two ends know

The dispatcher has an entry for every port that an application has ever
connected from: nothing removes one, and no message tells the server that an
application has gone. The server has entries for those ports only, and only while
the last that the port's sessions hear of their connection is that it was opened.
-/

namespace JustProxy

/-- The last word on a connection is that it was opened. -/
def OpenedLast (answers : List ConnectorResponse) : Prop :=
  ∃ before after, answers = before ++ .succeeded :: after ∧ .abort ∉ after

theorem OpenedLast.concat {answers : List ConnectorResponse} {answer : ConnectorResponse}
    (hopened : OpenedLast answers) (hanswer : answer ≠ .abort) :
    OpenedLast (answers ++ [answer]) := by
  obtain ⟨before, after, rfl, habort⟩ := hopened
  refine ⟨before, after ++ [answer], by simp, ?_⟩
  intro hmem
  rcases List.mem_append.mp hmem with hold | hnew
  · exact habort hold
  · exact hanswer (List.mem_singleton.mp hnew).symm

theorem openedLast_succeeded (answers : List ConnectorResponse) :
    OpenedLast (answers ++ [.succeeded]) :=
  ⟨answers, [], rfl, List.not_mem_nil⟩

/-- What some responses tell the sessions of a port. -/
def answersTo (uuid : UInt16) (responses : List (Tagged ProxyResponse)) :
    List ConnectorResponse :=
  responses.filterMap fun response =>
    if response.message.uuid = uuid then Server.connectorResponse response.message.response
    else none

theorem answersTo_append (uuid : UInt16) (first second : List (Tagged ProxyResponse)) :
    answersTo uuid (first ++ second) = answersTo uuid first ++ answersTo uuid second :=
  List.filterMap_append

theorem answersTo_silent (uuid : UInt16) {response : ProxyResponse} (tag : Tag)
    (hanswer : Server.connectorResponse response.response = none) :
    answersTo uuid [⟨response, tag⟩] = [] := by
  simp [answersTo, hanswer]

theorem answersTo_answer (uuid : UInt16) {response : ProxyResponse} (tag : Tag)
    {answer : ConnectorResponse}
    (hanswer : Server.connectorResponse response.response = some answer) :
    answersTo uuid [⟨response, tag⟩] = if response.uuid = uuid then [answer] else [] := by
  by_cases huuid : response.uuid = uuid <;> simp [answersTo, hanswer, huuid]

namespace Relay

variable {r next : Relay} {action : Action}

/-- Every entry of the dispatcher is a session with the entry's port. -/
def Owned (r : Relay) : Prop :=
  ∀ uuid index, r.clients uuid = some index →
    ∃ peer, r.peers[index]? = some peer ∧ peer.uuid = uuid

theorem Owned.step (howned : r.Owned) (hstep : Step r action next) : next.Owned := by
  intro uuid index hclient
  by_cases hconnect : ∃ port, action = .connect port
  · obtain ⟨port, rfl⟩ := hconnect
    cases hstep with
    | connect hport =>
        by_cases huuid : uuid = port
        · -- the new session is the last one
          subst huuid
          obtain rfl : r.peers.length = index := by simpa using hclient
          exact ⟨⟨uuid, false, true⟩, by simp, rfl⟩
        · have hold : r.clients uuid = some index := by simpa [huuid] using hclient
          obtain ⟨peer, hpeer, hport⟩ := howned uuid index hold
          have hlength := (List.getElem?_eq_some_iff.mp hpeer).1
          exact ⟨peer, by rw [List.getElem?_append_left hlength, hpeer], hport⟩
  · obtain ⟨hclients, -⟩ := step_frame hstep fun port heq => hconnect ⟨port, heq⟩
    rw [hclients] at hclient
    obtain ⟨peer, hpeer, rfl⟩ := howned uuid index hclient
    exact step_peer hstep hpeer

end Relay

namespace System

variable {s next : System}

/-! ## What sessions are told -/

def port (s : System) (index : Nat) : Option UInt16 :=
  (s.sessions[index]?).map fun session => session.client.uuid

/-- What the sessions of a port have been told. -/
def told (s : System) (uuid : UInt16) : List ConnectorResponse :=
  (s.deliveries.filter fun delivery => s.port delivery.session = some uuid).map
    Delivery.response

/-- What is on its way to the sessions of a port. -/
def coming (s : System) (uuid : UInt16) : List ConnectorResponse :=
  answersTo uuid (s.downstream ++ s.outQueue)

theorem port_eq_some {index : Nat} {uuid : UInt16} :
    s.port index = some uuid ↔
      ∃ peer, s.relay.peers[index]? = some peer ∧ peer.uuid = uuid := by
  simp [port, relay, Session.peer]

theorem session_of_owned (howned : s.relay.Owned) {uuid : UInt16} {index : Nat}
    (hclient : s.dispatcher.clients uuid = some index) :
    ∃ session, s.sessions[index]? = some session ∧ session.client.uuid = uuid :=
  Option.map_eq_some_iff.mp (port_eq_some.mpr (howned uuid index hclient))

theorem port_of_step {event : Event} {index : Nat} {uuid : UInt16}
    (hstep : s.step event = some next) (hport : s.port index = some uuid) :
    next.port index = some uuid := by
  obtain ⟨peer, hpeer, rfl⟩ := port_eq_some.mp hport
  obtain ⟨action, -, hrelay⟩ := step_refines hstep
  exact port_eq_some.mpr (Relay.step_peer hrelay hpeer)

/-- Every delivery went to a session, which has stopped or has not yet handled it
if it is an `Abort`. -/
def Informed (s : System) : Prop :=
  ∀ delivery ∈ s.deliveries, ∃ session, s.sessions[delivery.session]? = some session ∧
    (delivery.response = .abort → session.running = true → .abort ∈ session.inbox)

/-- Both ends are as their messages have left them. -/
structure Coherent (s : System) : Prop where
  plain : s.Plain
  owned : s.relay.Owned
  informed : s.Informed
  opened : ∀ uuid, s.server.connections uuid ≠ none → OpenedLast (s.told uuid ++ s.coming uuid)

/-- Old deliveries stay with the port of their session. -/
theorem told_of_step {event : Event} (hstep : s.step event = some next) (hinformed : s.Informed)
    (uuid : UInt16) :
    (s.deliveries.filter fun delivery => next.port delivery.session = some uuid).map
      Delivery.response = s.told uuid := by
  rw [told]
  congr 1
  apply List.filter_congr
  intro delivery hmem
  obtain ⟨session, hsession, -⟩ := hinformed delivery hmem
  have hport : s.port delivery.session = some session.client.uuid := by simp [port, hsession]
  rw [hport, port_of_step hstep hport]

/-! ## Deliveries -/

theorem pushInbox_session (index : Nat) (answer : ConnectorResponse) {other : Nat}
    {session : Session} (hsession : s.sessions[other]? = some session) :
    ∃ session', (s.pushInbox index answer).sessions[other]? = some session' ∧
      session'.running = session.running ∧ session.inbox ⊆ session'.inbox ∧
      (other = index → session.running = true → answer ∈ session'.inbox) := by
  unfold pushInbox
  split
  next hstopped =>
    refine ⟨session, hsession, rfl, List.Subset.refl _, ?_⟩
    rintro rfl hrunning
    simp [runningSession, hsession, hrunning] at hstopped
  next running hrunning =>
    obtain ⟨hrunning, -⟩ := runningSession_eq_some hrunning
    by_cases hother : other = index
    · subst hother
      obtain rfl : running = session := Option.some.inj (hrunning.symm.trans hsession)
      have hlength := (List.getElem?_eq_some_iff.mp hsession).1
      exact ⟨{ running with inbox := running.inbox ++ [answer] },
        by simp [updateSession, hlength], rfl, List.subset_append_left _ _, by simp⟩
    · refine ⟨session, ?_, rfl, List.Subset.refl _, fun heq => absurd heq hother⟩
      simp only [updateSession]
      rw [List.getElem?_set_ne (Ne.symm hother), hsession]

theorem Informed.clientStep (hinformed : s.Informed) (howned : s.relay.Owned)
    (hstep : s.ClientStep next) : next.Informed := by
  cases hstep with
  | @session index next hsession =>
      obtain ⟨running, session', mails, hrunning, hgoes, -, rfl⟩ := hsession
      obtain ⟨hrunning, hup⟩ := runningSession_eq_some hrunning
      intro delivery hmem
      obtain ⟨session, hsession, habort⟩ := hinformed delivery hmem
      by_cases hindex : delivery.session = index
      · subst hindex
        obtain rfl : running = session := Option.some.inj (hrunning.symm.trans hsession)
        have hlength := (List.getElem?_eq_some_iff.mp hsession).1
        refine ⟨session', by simp [hlength], fun hresponse hup' => ?_⟩
        -- an `Abort` that the session has not handled is still there
        have hold := habort hresponse hup
        rcases hgoes.inbox with hstopped | hsame | ⟨msg, hmsg, hinbox⟩
        · rw [hup'] at hstopped
          cases hstopped
        · rwa [hsame]
        · rw [hinbox] at hold
          rcases List.mem_cons.mp hold with hhead | hrest
          · exact absurd hhead.symm hmsg
          · exact hrest
      · exact ⟨session, by simp only [List.getElem?_set_ne (Ne.symm hindex), hsession], habort⟩
  | connect hport =>
      intro delivery hmem
      obtain ⟨session, hsession, habort⟩ := hinformed delivery hmem
      have hlength := (List.getElem?_eq_some_iff.mp hsession).1
      exact ⟨session, by rw [List.getElem?_append_left hlength, hsession], habort⟩
  | @deliver response tag rest index answer hdownstream hclient hanswer =>
      intro delivery hmem
      rcases List.mem_append.mp hmem with hold | hnew
      · obtain ⟨session, hsession, habort⟩ := hinformed delivery hold
        obtain ⟨session', hsession', hrunning, hinbox, -⟩ :=
          s.pushInbox_session index answer hsession
        refine ⟨session', hsession', fun hresponse hup => ?_⟩
        exact hinbox (habort hresponse (hrunning ▸ hup))
      · obtain rfl := List.mem_singleton.mp hnew
        obtain ⟨session, hsession, -⟩ := session_of_owned howned hclient
        obtain ⟨session', hsession', hrunning, -, hanswer⟩ :=
          s.pushInbox_session index answer hsession
        refine ⟨session', hsession', fun hresponse hup => ?_⟩
        obtain rfl : answer = .abort := hresponse
        exact hanswer rfl (hrunning ▸ hup)
  | echo hdownstream hindex hclients => exact hinformed
  | panic hdownstream hhandle => exact hinformed
  | quiet hclients => exact hinformed

theorem Informed.step {event : Event} (hinformed : s.Informed) (howned : s.relay.Owned)
    (hstep : s.step event = some next) : next.Informed := by
  cases hserver : event.isServer with
  | true =>
      have hclient := step_server hstep hserver
      have hdeliveries : next.deliveries = s.deliveries := congrArg ClientProcess.deliveries hclient
      have hsessions : next.sessions = s.sessions := congrArg ClientProcess.sessions hclient
      rw [Informed, hdeliveries, hsessions]
      exact hinformed
  | false => exact hinformed.clientStep howned (step_clientStep hstep hserver)

/-! ## Entries of the server -/

/-- What the server asks to be sent for a target is an answer, and no `Abort`. -/
theorem connectorResponse_of_fromTarget {transfer : ProxyTransfer}
    (htarget : transfer.fromTarget = true) :
    ∃ answer, Server.connectorResponse transfer = some answer ∧ answer ≠ .abort := by
  cases transfer with
  | data bytes => exact ⟨.data bytes, rfl, nofun⟩
  | response kind =>
      cases kind with
      | connectionRefused => exact ⟨.failed, rfl, nofun⟩
      | timeout => exact ⟨.failed, rfl, nofun⟩
      | succeeded => cases htarget
      | abort => cases htarget
  | requestAddr addr => cases htarget
  | heartbeat index => cases htarget

/-- Handling a mail keeps the server's entry and the last word together. -/
theorem Coherent.mail (hcoherent : s.Coherent) {mail : ServerMail Nat} {tag : Tag}
    {rest : List (Tagged (ServerMail Nat))} (hmail : s.serverMail = ⟨mail, tag⟩ :: rest)
    {uuid : UInt16} (hentry : (if mail.uuid = uuid then
      mail.entryAfter (s.server.connections uuid) else s.server.connections uuid) ≠ none) :
    OpenedLast (s.told uuid ++ s.coming uuid ++ answersTo uuid [⟨mail.toResponse, tag⟩]) := by
  obtain ⟨answer, hanswer, hlast⟩ : ∃ answer,
      Server.connectorResponse mail.toResponse.response = some answer ∧
        (mail.uuid = uuid → OpenedLast (s.told uuid ++ s.coming uuid ++ [answer])) := by
    cases mail with
    | proxyResponse response =>
        have hplain := hcoherent.plain.serverMail _ (hmail ▸ List.mem_cons_self)
        obtain ⟨answer, hanswer, habort⟩ := connectorResponse_of_fromTarget hplain
        refine ⟨answer, hanswer, fun hown => ?_⟩
        rw [if_pos hown] at hentry
        exact (hcoherent.opened uuid hentry).concat habort
    | connectionDead dead =>
        refine ⟨.abort, rfl, fun hown => ?_⟩
        rw [if_pos hown] at hentry
        exact absurd rfl hentry
    | connectionEstablished established writer =>
        exact ⟨.succeeded, rfl, fun _ => openedLast_succeeded _⟩
  have huuid : mail.toResponse.uuid = mail.uuid := by rw [toResponse_eq_queued, mail.uuid_queued]
  rw [answersTo_answer uuid tag hanswer, huuid]
  by_cases hown : mail.uuid = uuid
  · rw [if_pos hown]
    exact hlast hown
  · rw [if_neg hown] at hentry ⊢
    rw [List.append_nil]
    exact hcoherent.opened uuid hentry

theorem Coherent.serverStep (hcoherent : s.Coherent) (hstep : s.ServerStep next) (uuid : UInt16)
    (htold : next.told uuid = s.told uuid) (hentry : next.server.connections uuid ≠ none) :
    OpenedLast (next.told uuid ++ next.coming uuid) := by
  rw [htold]
  cases hstep with
  | @mail mail tag rest server hmail hentries =>
      have hopened := hcoherent.mail hmail (hentries uuid ▸ hentry)
      rwa [coming, List.append_assoc, ← answersTo_append, List.append_assoc] at hopened
  | @echo request tag rest index hupstream hindex =>
      have hopened := hcoherent.opened uuid hentry
      rw [coming, ← List.append_assoc, answersTo_append, answersTo_silent uuid tag rfl,
        List.append_nil]
      exact hopened
  | request hupstream hsession hentries => exact hcoherent.opened uuid (hentries uuid hentry)
  | post hmails => exact hcoherent.opened uuid hentry
  | forward hout =>
      have hopened := hcoherent.opened uuid hentry
      rwa [coming, hout, List.append_cons] at hopened
  | quiet hconnections => exact hcoherent.opened uuid (hconnections ▸ hentry)

theorem coming_cons (uuid : UInt16) {response : ProxyResponse} {tag : Tag}
    {rest : List (Tagged ProxyResponse)} (hdownstream : s.downstream = ⟨response, tag⟩ :: rest) :
    s.coming uuid = answersTo uuid [⟨response, tag⟩] ++ answersTo uuid (rest ++ s.outQueue) := by
  rw [coming, hdownstream]
  exact answersTo_append uuid [_] _

theorem told_concat {index : Nat} {uuid port : UInt16} {answer : ConnectorResponse} {tag : Tag}
    (hport : next.port index = some port)
    (htold : (s.deliveries.filter fun delivery => next.port delivery.session = some uuid).map
      Delivery.response = s.told uuid)
    (hdeliveries : next.deliveries = s.deliveries ++ [⟨index, answer, tag⟩]) :
    next.told uuid = s.told uuid ++ if port = uuid then [answer] else [] := by
  rw [told, hdeliveries, List.filter_append, List.map_append, htold, List.filter_singleton, hport]
  by_cases huuid : port = uuid <;> simp [huuid]

/-- What a port's sessions are told, or will be, is the same after a step of the
client's process. -/
theorem told_clientStep (howned : s.relay.Owned) (hstep : s.ClientStep next) (uuid : UInt16)
    (htold : (s.deliveries.filter fun delivery => next.port delivery.session = some uuid).map
      Delivery.response = s.told uuid)
    (hports : ∀ index port, s.port index = some port → next.port index = some port) :
    next.told uuid ++ next.coming uuid = s.told uuid ++ s.coming uuid := by
  cases hstep with
  | @session index next hsession =>
      obtain ⟨running, session', mails, -, -, -, rfl⟩ := hsession
      exact congrArg (· ++ s.coming uuid) htold
  | connect hport => exact congrArg (· ++ s.coming uuid) htold
  | @deliver response tag rest index answer hdownstream hclient hanswer =>
      obtain ⟨session, hsession, huuid⟩ := session_of_owned howned hclient
      have hport := hports index response.uuid (by simp [port, hsession, huuid])
      -- the answer moves from the head of the queue to the deliveries
      rw [told_concat hport htold rfl, coming_cons uuid hdownstream,
        answersTo_answer uuid tag hanswer, ← List.append_assoc]
      rfl
  | @echo response tag rest index dispatcher hdownstream hindex hclients =>
      have hsilent : answersTo uuid [⟨response, tag⟩] = [] :=
        answersTo_silent uuid tag (by rw [hindex]; rfl)
      rw [coming_cons uuid hdownstream, hsilent, List.nil_append]
      exact congrArg (· ++ _) htold
  | panic hdownstream hhandle => rfl
  | quiet hclients => rfl

theorem Coherent.opened_step {event : Event} (hcoherent : s.Coherent)
    (hstep : s.step event = some next) (uuid : UInt16)
    (hentry : next.server.connections uuid ≠ none) :
    OpenedLast (next.told uuid ++ next.coming uuid) := by
  have htold := told_of_step hstep hcoherent.informed uuid
  cases hserver : event.isServer with
  | true =>
      have hdeliveries : next.deliveries = s.deliveries :=
        congrArg ClientProcess.deliveries (step_server hstep hserver)
      apply hcoherent.serverStep (step_serverStep hstep hserver) uuid _ hentry
      rw [← htold, told, hdeliveries]
  | false =>
      have hconnections : next.server = s.server :=
        congrArg ServerProcess.server (step_client hstep hserver)
      rw [told_clientStep hcoherent.owned (step_clientStep hstep hserver) uuid htold
        fun _ _ hport => port_of_step hstep hport]
      exact hcoherent.opened uuid (hconnections ▸ hentry)

theorem Coherent.step {event : Event} (hcoherent : s.Coherent) (hstep : s.step event = some next) :
    next.Coherent where
  plain := (step_forwards hstep hcoherent.plain).1
  owned := by
    obtain ⟨action, -, hrelay⟩ := step_refines hstep
    exact hcoherent.owned.step hrelay
  informed := hcoherent.informed.step hcoherent.owned hstep
  opened := hcoherent.opened_step hstep

theorem coherent_of_run {events : List Event} (hrun : run events = some s) : s.Coherent := by
  refine Transition.run_invariant Coherent (fun hcoherent hstep => hcoherent.step hstep) ?_ hrun
  exact ⟨plain_init, nofun, nofun, fun _ hentry => absurd rfl hentry⟩

/-! ## Quiet states -/

/-- No message is in flight and no connect is pending. The mailbox of a stopped
actor is gone. -/
structure Quiescent (s : System) : Prop where
  clientMail : s.clientMail = []
  upstream : s.upstream = []
  downstream : s.downstream = []
  serverMail : s.serverMail = []
  outQueue : s.outQueue = []
  resolving : s.resolving = []
  inboxes : ∀ session ∈ s.sessions, session.running = true → session.inbox = []

/-- Both ends have entries for running sessions, and the dispatcher for all of
them. -/
def EndsAgree (s : System) : Prop :=
  (∀ uuid, s.dispatcher.clients uuid ≠ none ↔
    ∃ session ∈ s.sessions, session.running = true ∧ session.client.uuid = uuid) ∧
  ∀ uuid, s.server.connections uuid ≠ none →
    ∃ session ∈ s.sessions, session.running = true ∧ session.client.uuid = uuid

/-- The dispatcher has an entry for every session that has ever connected. The
server only has one where the port's sessions were told last that they are
connected, and no session runs on that was told of the end. -/
structure Settled (s : System) : Prop where
  clients : ∀ uuid, s.dispatcher.clients uuid ≠ none ↔
    ∃ session ∈ s.sessions, session.client.uuid = uuid
  connections : ∀ uuid, s.server.connections uuid ≠ none →
    s.dispatcher.clients uuid ≠ none ∧ OpenedLast (s.told uuid)
  aborted : ∀ delivery ∈ s.deliveries, delivery.response = .abort →
    ∀ session, s.sessions[delivery.session]? = some session → session.running = false

theorem clients_of_run {events : List Event} (hrun : run events = some s) (uuid : UInt16) :
    s.dispatcher.clients uuid ≠ none ↔ ∃ session ∈ s.sessions, session.client.uuid = uuid := by
  constructor
  · intro hentry
    obtain ⟨index, hclient⟩ := Option.ne_none_iff_exists'.mp hentry
    obtain ⟨session, hsession, huuid⟩ := session_of_owned (coherent_of_run hrun).owned hclient
    exact ⟨session, List.mem_of_getElem? hsession, huuid⟩
  · rintro ⟨session, hmem, rfl⟩
    have hpeer : session.peer ∈ s.relay.peers := List.mem_map_of_mem hmem
    exact ((addressed_of_run hrun).peers session.peer hpeer).2

/-- Quiet states are settled, in every run. An application that goes takes no
entry with it, on either end. -/
theorem settled_of_quiescent (events : List Event) (s : System) (hrun : run events = some s)
    (hquiescent : s.Quiescent) :
    s.Settled ∧ ∀ index next, s.step (.appClose index) = some next →
      next.dispatcher.clients = s.dispatcher.clients ∧
        next.server.connections = s.server.connections := by
  have hcoherent := coherent_of_run hrun
  refine ⟨⟨clients_of_run hrun, ?_, ?_⟩, ?_⟩
  · intro uuid hentry
    have hopened := hcoherent.opened uuid hentry
    have hcoming : s.coming uuid = [] := by
      rw [coming, hquiescent.downstream, hquiescent.outQueue]
      rfl
    rw [hcoming, List.append_nil] at hopened
    -- a port that was told something has a session
    refine ⟨(clients_of_run hrun uuid).mpr ?_, hopened⟩
    obtain ⟨before, after, htold, -⟩ := hopened
    have hmem : .succeeded ∈ s.told uuid := by simp [htold]
    obtain ⟨delivery, hdelivery, -⟩ := List.mem_map.mp hmem
    obtain ⟨-, hport⟩ := List.mem_filter.mp hdelivery
    obtain ⟨session, hsession, huuid⟩ := Option.map_eq_some_iff.mp (of_decide_eq_true hport)
    exact ⟨session, List.mem_of_getElem? hsession, huuid⟩
  · intro delivery hmem hresponse session hsession
    obtain ⟨other, hother, habort⟩ := hcoherent.informed delivery hmem
    obtain rfl : other = session := Option.some.inj (hother.symm.trans hsession)
    cases hrunning : other.running with
    | false => rfl
    | true =>
        have hinbox := habort hresponse hrunning
        rw [hquiescent.inboxes other (List.mem_of_getElem? hsession) hrunning] at hinbox
        cases hinbox
  · intro index next hstep
    obtain ⟨session, session', mails, -, -, -, rfl⟩ := step_session hstep rfl
    exact ⟨rfl, rfl⟩

/-- An application connects, gets its connection, and goes. -/
def abandoned : List Event := Event.asks 5000 0 ++
  [.clientMail, .serverRecv (.accepted 0), .resolved 0 (.connected ()), .serverMail, .forward,
    .clientRecv, .socksMail 0, .appClose 0]

/-- Nothing runs any more and nothing is in flight, and both ends keep their entry. -/
theorem abandoned_not_agree : ∃ s, run abandoned = some s ∧ s.Quiescent ∧
    (∀ session ∈ s.sessions, session.running = false) ∧
    s.dispatcher.clients 5000 ≠ none ∧ s.server.connections 5000 ≠ none ∧ ¬ s.EndsAgree := by
  refine ⟨_, rfl, ⟨rfl, rfl, rfl, rfl, rfl, rfl, ?_⟩, by decide, by decide, by decide, ?_⟩
  · decide
  · intro hagree
    have hentry := (hagree.1 5000).mp (by decide)
    revert hentry
    decide

/-- Another application's connection fails as well. -/
def abandonedAndAborted : List Event := Event.asks 5000 0 ++ Event.asks 6000 1 ++
  [.clientMail, .clientMail, .serverRecv (.accepted 0), .serverRecv (.accepted 0),
    .resolved 0 (.connected ()), .resolved 0 (.connected ()), .read 1 .failed, .serverMail,
    .serverMail, .serverMail, .forward, .forward, .forward, .clientRecv, .clientRecv,
    .clientRecv, .socksMail 0, .socksMail 1, .socksMail 1, .appClose 0]

theorem settled_of_quiescent_aborted : ∃ s, run abandonedAndAborted = some s ∧
    s.told 5000 = [.succeeded] ∧ s.told 6000 = [.succeeded, .abort] ∧ s.Settled ∧
    ∀ index next, s.step (.appClose index) = some next →
      next.dispatcher.clients = s.dispatcher.clients ∧
        next.server.connections = s.server.connections :=
  ⟨_, rfl, by decide, by decide, settled_of_quiescent abandonedAndAborted _ rfl
    ⟨rfl, rfl, rfl, rfl, rfl, rfl, by decide⟩⟩

end System

end JustProxy
