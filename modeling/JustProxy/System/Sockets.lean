import JustProxy.System.Dispatch
import JustProxy.System.Payload

/-! # The sockets of the server

The server writes payload to the connection of the payload's uuid. With distinct
ports this is the target that was opened for the session the payload comes from,
so a target's socket takes nothing but what its own application has sent, in
order.
-/

namespace JustProxy

open ProxyClient

/-! ## Targets and sessions of the relay -/

namespace Relay

variable {r next : Relay} {action : Action}

/-- A target keeps its number, its uuid and whom it was opened for. -/
theorem step_target (hstep : Step r action next) {index : Nat} {target : Target}
    (htarget : r.targets[index]? = some target) :
    ∃ target', next.targets[index]? = some target' ∧ target'.uuid = target.uuid ∧
      target'.openedFor = target.openedFor := by
  have hset {other : Nat} {before after : Target} (hbefore : r.targets[other]? = some before)
      (huuid : after.uuid = before.uuid) (hopened : after.openedFor = before.openedFor) :
      ∃ target', (r.targets.set other after)[index]? = some target' ∧
        target'.uuid = target.uuid ∧ target'.openedFor = target.openedFor := by
    by_cases hother : other = index
    · subst hother
      rw [hbefore] at htarget
      cases htarget
      have hlength := (List.getElem?_eq_some_iff.mp hbefore).1
      exact ⟨after, by simp [hlength], huuid, hopened⟩
    · exact ⟨target, by rw [List.getElem?_set_ne hother, htarget], rfl, rfl⟩
  cases hstep with
  | opened hresolving =>
      have hlength := (List.getElem?_eq_some_iff.mp htarget).1
      exact ⟨target, by rw [List.getElem?_append_left hlength, htarget], rfl, rfl⟩
  | chunk bytes hread hreading => exact hset hread rfl rfl
  | finish hread hreading => exact hset hread rfl rfl
  | fail hread hreading => exact hset hread rfl rfl
  | _ => exact ⟨target, htarget, rfl, rfl⟩

/-- A target was there before, or a connect has just opened it. -/
theorem target_origin (hstep : Step r action next) {index : Nat} {target : Target}
    (htarget : next.targets[index]? = some target) :
    (∃ old, r.targets[index]? = some old ∧ old.openedFor = target.openedFor) ∨
      index = r.targets.length ∧ ∃ connect ∈ r.resolving, target.openedFor = connect.tag.cause := by
  have hset {other : Nat} {before after : Target} (hbefore : r.targets[other]? = some before)
      (htarget : (r.targets.set other after)[index]? = some target)
      (hopened : after.openedFor = before.openedFor) :
      ∃ old, r.targets[index]? = some old ∧ old.openedFor = target.openedFor := by
    by_cases hother : other = index
    · subst hother
      have hlength := (List.getElem?_eq_some_iff.mp hbefore).1
      rw [List.getElem?_set_self hlength, Option.some.injEq] at htarget
      exact ⟨before, hbefore, by rw [← htarget, hopened]⟩
    · rw [List.getElem?_set_ne hother] at htarget
      exact ⟨target, htarget, rfl⟩
  cases hstep with
  | @opened uuid tag before after hresolving =>
      rw [List.getElem?_append] at htarget
      split at htarget
      next => exact .inl ⟨target, htarget, rfl⟩
      next hlong =>
        have hshort := (List.getElem?_eq_some_iff.mp htarget).1
        rw [List.length_singleton] at hshort
        have hindex : index = r.targets.length := by omega
        subst hindex
        obtain rfl : (⟨uuid, tag.cause, true, []⟩ : Target) = target := by simpa using htarget
        exact .inr ⟨rfl, ⟨uuid, tag⟩, by simp [hresolving], rfl⟩
  | chunk bytes hread hreading => exact .inl (hset hread htarget rfl)
  | finish hread hreading => exact .inl (hset hread htarget rfl)
  | fail hread hreading => exact .inl (hset hread htarget rfl)
  | _ => exact .inl ⟨target, htarget, rfl⟩

/-- A port stands for one session. -/
theorem Belongs.unique (hports : (r.peers.map Peer.uuid).Nodup) {first second : Option Nat}
    {uuid : UInt16} (hfirst : r.Belongs first uuid) (hsecond : r.Belongs second uuid) :
    first = second := by
  obtain ⟨index, peer, rfl, hpeer, rfl⟩ := hfirst
  obtain ⟨other, peer', rfl, hpeer', huuid⟩ := hsecond
  have hlength := (List.getElem?_eq_some_iff.mp hpeer).1
  have hsame : (r.peers.map Peer.uuid)[index]? = (r.peers.map Peer.uuid)[other]? := by
    simp [hpeer, hpeer', huuid]
  rw [(List.getElem?_inj (by simpa using hlength) hports).mp hsame]

/-- Only a new connection adds a port. -/
theorem step_ports (hstep : Step r action next) (hconnect : ∀ port, action ≠ .connect port) :
    next.peers.map Peer.uuid = r.peers.map Peer.uuid := by
  apply List.ext_getElem?
  intro index
  rw [List.getElem?_map, List.getElem?_map]
  cases hpeer : r.peers[index]? with
  | none =>
      have hlength := List.getElem?_eq_none_iff.mp hpeer
      rw [← (step_frame hstep hconnect).2] at hlength
      rw [List.getElem?_eq_none hlength]
  | some peer =>
      obtain ⟨peer', hpeer', huuid⟩ := step_peer hstep hpeer
      rw [hpeer', Option.map_some, Option.map_some, huuid]

end Relay

/-- There is no target before the request. -/
theorem Track.Phase.asked_of_target {asked : Bool} {requests pending : Nat}
    {targets : Nat → Option (Bool × List (List UInt8))} {flow : List Answer}
    (hphase : Phase asked requests pending targets flow) {index : Nat}
    (htarget : targets index ≠ none) : asked = true := by
  cases hphase with
  | idle => exact absurd rfl htarget
  | _ => rfl

/-- There is at most one target in every phase. -/
theorem Track.Phase.single_target {asked : Bool} {requests pending : Nat}
    {targets : Nat → Option (Bool × List (List UInt8))} {flow : List Answer}
    (hphase : Phase asked requests pending targets flow) {first second : Nat}
    (hfirst : targets first ≠ none) (hsecond : targets second ≠ none) :
    first = second ∧ pending = 0 := by
  have hsingle {index : Nat} {reading : Bool} {chunks : List (List UInt8)}
      (hfirst : single index reading chunks first ≠ none)
      (hsecond : single index reading chunks second ≠ none) : first = second := by
    obtain ⟨target, htarget⟩ := Option.ne_none_iff_exists'.mp hfirst
    obtain ⟨target', htarget'⟩ := Option.ne_none_iff_exists'.mp hsecond
    rw [(single_eq_some htarget).1, (single_eq_some htarget').1]
  cases hphase with
  | streaming index chunks => exact ⟨hsingle hfirst hsecond, rfl⟩
  | ended index chunks => exact ⟨hsingle hfirst hsecond, rfl⟩
  | dead index chunks => exact ⟨hsingle hfirst hsecond, rfl⟩
  | idle => exact absurd rfl hfirst
  | requested => exact absurd rfl hfirst
  | connecting => exact absurd rfl hfirst
  | refused => exact absurd rfl hfirst

namespace System

variable {s next : System}

/-- The ports of the sessions are those that applications have connected from. -/
theorem peers_ports {events : List Event} (hrun : run events = some s) :
    s.relay.peers.map Peer.uuid = ports events := by
  refine Transition.run_induction
    (motive := fun (events : List Event) (s : System) =>
      s.relay.peers.map Peer.uuid = ports events) rfl ?_ hrun
  intro past state event next hpast ih hstep
  have hports : ports (past ++ [event]) = ports past ++ event.port.toList := by
    rw [ports, List.filterMap_append]
    cases event <;> rfl
  rw [hports, ← ih]
  by_cases hconnect : ∃ port, event = .connect port
  · obtain ⟨port, rfl⟩ := hconnect
    obtain ⟨-, -, rfl⟩ := connect_eq_some hstep
    simp [relay, Session.peer, Session.new, SocksClient.new, Event.port]
  · obtain ⟨action, hcorresponds, hrelay⟩ := step_refines hstep
    have hnone : event.port = none := by
      cases event with
      | connect port => exact absurd ⟨port, rfl⟩ hconnect
      | _ => rfl
    rw [hnone, Option.toList_none, List.append_nil]
    apply Relay.step_ports hrelay
    rintro port rfl
    exact hconnect ⟨port, hcorresponds⟩

theorem ports_nodup {events : List Event} (hports : (ports events).Nodup)
    (hrun : run events = some s) : (s.relay.peers.map Peer.uuid).Nodup := by
  rw [peers_ports hrun]
  exact hports

/-! ## The table of the server -/

/-- A socket belongs to a target of a uuid. -/
def Opened (s : System) (writer : Nat) (uuid : UInt16) : Prop :=
  ∃ target, s.targets[writer]? = some target ∧ target.uuid = uuid

/-- Every entry of the server's table, also one that is about to be made, is a target
of the entry's uuid; a socket that is not open has taken nothing. -/
structure Wired (s : System) : Prop where
  connections : ∀ uuid writer, s.server.connections uuid = some writer → s.Opened writer uuid
  established : ∀ mail ∈ s.serverMail, ∀ uuid writer,
    mail.message = .connectionEstablished uuid writer → s.Opened writer uuid
  fresh : ∀ writer, s.targets.length ≤ writer → s.socketBytes writer = []

theorem Opened.step {event : Event} {writer : Nat} {uuid : UInt16} (hopened : s.Opened writer uuid)
    (hstep : s.step event = some next) : next.Opened writer uuid := by
  obtain ⟨target, htarget, rfl⟩ := hopened
  obtain ⟨action, -, hrelay⟩ := step_refines hstep
  obtain ⟨target', htarget', huuid, -⟩ := Relay.step_target hrelay htarget
  exact ⟨target', htarget', huuid⟩

/-- A server that has handled some mail, or taken an entry away. -/
theorem Wired.of_entries (hwired : s.Wired) {event : Event} (hstep : s.step event = some next)
    (hentries : ∀ uuid writer, next.server.connections uuid = some writer →
      s.server.connections uuid = some writer ∨ ∃ mail ∈ s.serverMail,
        mail.message = .connectionEstablished uuid writer)
    (hmails : ∀ mail ∈ next.serverMail, mail ∈ s.serverMail ∨
      ∀ uuid writer, mail.message = .connectionEstablished uuid writer → next.Opened writer uuid)
    (hsockets : ∀ writer, next.targets.length ≤ writer →
      s.socketBytes writer = [] → next.socketBytes writer = []) : next.Wired where
  connections uuid writer hentry := by
    rcases hentries uuid writer hentry with hold | ⟨mail, hmail, hmessage⟩
    · exact (hwired.connections uuid writer hold).step hstep
    · exact (hwired.established mail hmail uuid writer hmessage).step hstep
  established mail hmail uuid writer hmessage := by
    rcases hmails mail hmail with hold | hnew
    · exact (hwired.established mail hold uuid writer hmessage).step hstep
    · exact hnew uuid writer hmessage
  fresh writer hwriter := by
    refine hsockets writer hwriter (hwired.fresh writer ?_)
    -- targets stay
    by_contra hshort
    have htarget := List.getElem?_eq_getElem (Nat.lt_of_not_le hshort)
    obtain ⟨target, hnext, -⟩ := Opened.step ⟨_, htarget, rfl⟩ hstep
    exact absurd (List.getElem?_eq_some_iff.mp hnext).1 (Nat.not_lt.mpr hwriter)

/-- The part of the server's state that the sockets depend on. -/
structure Plumbing where
  connections : UInt16 → Option Nat
  serverMail : List (Tagged (ServerMail Nat))
  targets : List Target
  socketBytes : Nat → List UInt8

def plumbing (s : System) : Plumbing :=
  ⟨s.server.connections, s.serverMail, s.targets, s.socketBytes⟩

theorem Wired.of_plumbing_eq (hwired : s.Wired) (hsame : next.plumbing = s.plumbing) :
    next.Wired := by
  simp only [plumbing, Plumbing.mk.injEq] at hsame
  obtain ⟨hconnections, hmail, htargets, hsockets⟩ := hsame
  obtain ⟨hentries, hestablished, hfresh⟩ := hwired
  simp only [Opened, ← hconnections, ← hmail, ← htargets, ← hsockets]
    at hentries hestablished hfresh
  exact ⟨hentries, hestablished, hfresh⟩

theorem plumbing_clientStep (hstep : s.ClientStep next) : next.plumbing = s.plumbing := by
  cases hstep with
  | session hown =>
      obtain ⟨session, session', mails, -, -, -, rfl⟩ := hown
      rfl
  | _ => rfl

/-- The server either writes the payload at the head of the queue, or no socket
takes anything. -/
inductive ServerRecv (s : System) (result : WriteResult) (next : System) : Prop where
  | writes {request : Tagged ProxyRequest} {rest : List (Tagged ProxyRequest)}
      {data : List UInt8} {writer : Nat} (hup : s.serverUp = true)
      (hupstream : s.upstream = request :: rest) (hdata : request.message.request = .data data)
      (hconn : s.server.connections request.message.uuid = some writer)
      (hentries : ∀ uuid writer, next.server.connections uuid = some writer →
        s.server.connections uuid = some writer)
      (hmail : next.serverMail = s.serverMail) (htargets : next.targets = s.targets)
      (hsockets : next.socketBytes = Function.update s.socketBytes writer
        (s.socketBytes writer ++ result.taken data)) : ServerRecv s result next
  | other (hwrites : ∀ index, s.writes index (.serverRecv result) = [])
      (hsame : next.plumbing = s.plumbing) : ServerRecv s result next

theorem serverRecv_cases {result : WriteResult} (hstep : s.serverRecv result = some next) :
    s.ServerRecv result next := by
  obtain ⟨hup, request, tag, rest, hupstream, rfl⟩ := serverRecv_eq_some hstep
  obtain ⟨uuid, transferLen, transferType, transfer⟩ := request
  cases transfer with
  | requestAddr addr =>
      refine .other (fun index => ?_) rfl
      simp [System.writes, hupstream, Tagged.payloadOf]
  | data data =>
      cases hconn : s.server.connections uuid with
      | none =>
          refine .other (fun index => ?_) ?_
          · simp [System.writes, hupstream, hconn]
          · simp only [ProxyClient.handleProxyRequest, handleData, hconn]
            rfl
      | some writer =>
          simp only [ProxyClient.handleProxyRequest, handleData, hconn]
          refine .writes hup hupstream rfl hconn (fun other writer' hentry => ?_) rfl rfl rfl
          change (if result.isErr then _ else _ : ProxyClient Nat).connections other = _
            at hentry
          split at hentry
          next =>
            by_cases hother : other = uuid
            · simp [hother] at hentry
            · simpa [removeConnection, hother] using hentry
          next => exact hentry
  | response kind =>
      refine .other (fun index => ?_) rfl
      simp [System.writes, hupstream, Tagged.payloadOf]
  | heartbeat heartbeat =>
      refine .other (fun index => ?_) ?_
      · simp [System.writes, hupstream, Tagged.payloadOf]
      · rcases unboundedSend_eq s.server (.new uuid (.heartbeat heartbeat)) with hsend | hsend
        · simp only [ProxyClient.handleProxyRequest, hsend]
          rfl
        · simp only [ProxyClient.handleProxyRequest, hsend]
          rfl

theorem serverRecv_wired (hwired : s.Wired) {result : WriteResult}
    (hstep : s.serverRecv result = some next) : next.Wired := by
  have hstep' : s.step (.serverRecv result) = some next := hstep
  cases serverRecv_cases hstep with
  | other hwrites hsame => exact hwired.of_plumbing_eq hsame
  | @writes request rest data writer hup hupstream hdata hconn hentries hmail htargets hsockets =>
      refine hwired.of_entries hstep'
        (fun uuid writer hentry => .inl (hentries uuid writer hentry))
        (fun mail hmem => .inl (hmail ▸ hmem)) (fun other hother hnone => ?_)
      -- the socket that is written to is open
      obtain ⟨target, htarget, -⟩ := hwired.connections _ writer hconn
      have hlength := (List.getElem?_eq_some_iff.mp htarget).1
      rw [htargets] at hother
      rw [hsockets, Function.update_of_ne (by omega), hnone]

theorem handleServerMail_wired (hwired : s.Wired) (hstep : s.handleServerMail = some next) :
    next.Wired := by
  have hstep' : s.step .serverMail = some next := hstep
  obtain ⟨-, mail, tag, rest, hmail, rfl⟩ := handleServerMail_eq_some hstep
  rcases handleMail_toResponse s.server mail with hpanic | ⟨server, hsend, hentries⟩
  · rw [hpanic]
    exact hwired.of_plumbing_eq rfl
  · rw [hsend] at hstep' ⊢
    refine hwired.of_entries hstep' (fun uuid writer hentry => ?_)
      (fun other hmem => .inl (hmail ▸ List.mem_cons_of_mem _ hmem)) (fun _ _ hnone => hnone)
    change server.connections uuid = some writer at hentry
    rw [hentries uuid] at hentry
    split at hentry
    next huuid =>
      subst huuid
      cases mail with
      | proxyResponse response => exact .inl hentry
      | connectionDead dead => cases hentry
      | connectionEstablished established established' =>
          cases hentry
          exact .inr ⟨_, hmail ▸ List.mem_cons_self, rfl⟩
    next => exact .inl hentry

theorem resolved_wired (hwired : s.Wired) {index : Nat} {result : ConnectResult Unit}
    (hstep : s.resolved index result = some next) : next.Wired := by
  have hstep' : s.step (.resolved index result) = some next := hstep
  obtain ⟨-, before, uuid, addr, tag, after, -, rfl⟩ := resolved_eq_some hstep
  refine hwired.of_entries hstep' (fun _ _ hentry => .inl hentry) (fun mail hmem => ?_)
    (fun _ _ hnone => hnone)
  rcases List.mem_append.mp hmem with hold | hnew
  · exact .inl hold
  · refine .inr fun uuid' writer hmessage => ?_
    obtain rfl := List.mem_singleton.mp hnew
    cases result with
    | connected done =>
        cases hmessage
        exact ⟨⟨uuid, tag.cause, true, []⟩, by simp [ConnectResult.isConnected], rfl⟩
    | _ => cases hmessage

theorem read_wired (hwired : s.Wired) {index : Nat} {event : ReadEvent}
    (hstep : s.read index event = some next) : next.Wired := by
  have hstep' : s.step (.read index event) = some next := hstep
  obtain ⟨-, target, changed, -, -, -, rfl⟩ := read_eq_some hstep
  refine hwired.of_entries hstep' (fun _ _ hentry => .inl hentry) (fun mail hmem => ?_)
    (fun _ _ hnone => hnone)
  rcases List.mem_append.mp hmem with hold | hnew
  · exact .inl hold
  · refine .inr fun uuid writer hmessage => ?_
    obtain ⟨message, hfuture, rfl⟩ := Option.map_eq_some_iff.mp (Option.mem_toList.mp hnew)
    cases event <;> cases hfuture <;> cases hmessage

theorem Wired.step (hwired : s.Wired) {event : Event} (hstep : s.step event = some next) :
    next.Wired := by
  cases event with
  | serverRecv result => exact serverRecv_wired hwired hstep
  | serverMail => exact handleServerMail_wired hwired hstep
  | resolved index result => exact resolved_wired hwired hstep
  | read index event => exact read_wired hwired hstep
  | forward =>
      obtain ⟨-, -, response, rest, -, rfl⟩ := forward_eq_some hstep
      exact hwired.of_plumbing_eq rfl
  | forwardEnds =>
      cases hstep
      exact hwired.of_plumbing_eq rfl
  | _ => exact hwired.of_plumbing_eq (plumbing_clientStep (step_clientStep hstep rfl))

/-! ## What a socket has taken -/

theorem socketBytes_of_step {event : Event} (hstep : s.step event = some next)
    (hevent : ∀ result, event ≠ .serverRecv result) : next.socketBytes = s.socketBytes := by
  cases event with
  | serverRecv result => exact absurd rfl (hevent result)
  | serverMail =>
      obtain ⟨-, mail, tag, rest, hmail, rfl⟩ := handleServerMail_eq_some hstep
      rcases handleMail_toResponse s.server mail with hpanic | ⟨server, hsend, -⟩
      · rw [hpanic]
        rfl
      · rw [hsend]
        rfl
  | resolved index result =>
      obtain ⟨-, before, uuid, addr, tag, after, -, rfl⟩ := resolved_eq_some hstep
      rfl
  | read index event =>
      obtain ⟨-, target, changed, -, -, -, rfl⟩ := read_eq_some hstep
      rfl
  | forward =>
      obtain ⟨-, -, response, rest, -, rfl⟩ := forward_eq_some hstep
      rfl
  | forwardEnds =>
      cases hstep
      rfl
  | _ => exact congrArg Plumbing.socketBytes (plumbing_clientStep (step_clientStep hstep rfl))

/-- The socket of a session's target has taken what was accepted of the session's
payload. Without a target nothing was written. -/
structure Piped (s : System) (index : Nat) (past : List UpstreamWrite) : Prop where
  opened : past ≠ [] → ∃ (number : Nat) (target : Target), s.targets[number]? = some target ∧
    target.openedFor = some index
  bytes : ∀ (number : Nat) (target : Target), s.targets[number]? = some target →
    target.openedFor = some index →
    s.socketBytes number = past.flatMap fun write => write.result.taken write.data

section Piped

variable {index : Nat} {past : List UpstreamWrite}

theorem targets_ne_none {number : Nat} {target : Target}
    (htarget : s.targets[number]? = some target) (hopened : target.openedFor = some index) :
    (s.relay.track index).targets number ≠ none := by
  rw [Relay.track_target (r := s.relay) htarget hopened]
  exact nofun

/-- Whoever has a target has asked for it. -/
theorem ready_of_target (hlives : (s.relay.track index).Lives) {session : Session}
    (hsession : s.sessions[index]? = some session) {number : Nat} {target : Target}
    (htarget : s.targets[number]? = some target) (hopened : target.openedFor = some index) :
    session.codec = .ready := by
  have hasked := Track.Phase.asked_of_target hlives (targets_ne_none htarget hopened)
  rwa [track_asked hsession, decide_eq_true_iff] at hasked

/-- The payload at the head of the queue goes to the target of its session. -/
theorem openedFor_writer (hwired : s.Wired) (hlabelled : s.relay.Labelled)
    (hports : (s.relay.peers.map Peer.uuid).Nodup) {request : Tagged ProxyRequest}
    {rest : List (Tagged ProxyRequest)} {data : List UInt8} {writer : Nat}
    (hupstream : s.upstream = request :: rest) (hdata : request.message.request = .data data)
    (hconn : s.server.connections request.message.uuid = some writer) :
    ∃ target, s.targets[writer]? = some target ∧ target.openedFor = request.tag.cause := by
  obtain ⟨target, htarget, huuid⟩ := hwired.connections _ _ hconn
  refine ⟨target, htarget, ?_⟩
  have hmem : request ∈ s.relay.requests := by
    change request ∈ s.requests
    rw [requests, hupstream]
    exact List.mem_cons_self
  rcases hlabelled.requests request hmem with ⟨heartbeat, hheartbeat⟩ | hbelongs
  · rw [hheartbeat] at hdata
    cases hdata
  · have howner := hlabelled.targets target (List.mem_of_getElem? htarget)
    rw [huuid] at howner
    exact Relay.Belongs.unique hports howner hbelongs

theorem Piped.serverRecv (hpiped : s.Piped index past) (hwired : s.Wired)
    (hlabelled : s.relay.Labelled) (hports : (s.relay.peers.map Peer.uuid).Nodup)
    (hlives : (s.relay.track index).Lives) {result : WriteResult}
    (hstep : s.serverRecv result = some next) :
    next.Piped index (past ++ s.writes index (.serverRecv result)) := by
  cases serverRecv_cases hstep with
  | other hwrites hsame =>
      have htargets : next.targets = s.targets := congrArg Plumbing.targets hsame
      have hsockets : next.socketBytes = s.socketBytes := congrArg Plumbing.socketBytes hsame
      rw [hwrites, List.append_nil]
      constructor
      · rw [htargets]
        exact hpiped.opened
      · rw [htargets, hsockets]
        exact hpiped.bytes
  | @writes request rest data writer hup hupstream hdata hconn hentries hmail htargets hsockets =>
      obtain ⟨target, htarget, hopened⟩ :=
        openedFor_writer hwired hlabelled hports hupstream hdata hconn
      by_cases hcause : request.tag.cause = some index
      · rw [hcause] at hopened
        have hwrites : s.writes index (.serverRecv result) = [⟨data, result⟩] := by
          simp [System.writes, hupstream, hup, hconn, Tagged.payloadOf, hcause, hdata]
        rw [hwrites]
        refine ⟨fun _ => ⟨writer, target, htargets ▸ htarget, hopened⟩, ?_⟩
        intro number target' htarget' hopened'
        rw [htargets] at htarget'
        -- a session has only one target
        obtain rfl := (hlives.single_target (targets_ne_none htarget' hopened')
          (targets_ne_none htarget hopened)).1
        rw [hsockets, Function.update_self, hpiped.bytes number target' htarget' hopened',
          List.flatMap_append]
        simp
      · have hwrites : s.writes index (.serverRecv result) = [] := by
          simp [System.writes, hupstream, Tagged.payloadOf, hcause]
        rw [hwrites, List.append_nil]
        refine ⟨htargets ▸ hpiped.opened, fun number target' htarget' hopened' => ?_⟩
        rw [htargets] at htarget'
        have hother : number ≠ writer := by
          rintro rfl
          rw [htarget] at htarget'
          cases htarget'
          exact hcause (hopened.symm.trans hopened')
        rw [hsockets, Function.update_of_ne hother]
        exact hpiped.bytes number target' htarget' hopened'

theorem Piped.step {event : Event} (hpiped : s.Piped index past) (hwired : s.Wired)
    (hlabelled : s.relay.Labelled) (hports : (s.relay.peers.map Peer.uuid).Nodup)
    (hlives : (s.relay.track index).Lives) (hstep : s.step event = some next) :
    next.Piped index (past ++ s.writes index event) := by
  by_cases hevent : ∃ result, event = .serverRecv result
  · obtain ⟨result, rfl⟩ := hevent
    exact hpiped.serverRecv hwired hlabelled hports hlives hstep
  · have hwrites : s.writes index event = [] := by
      cases event with
      | serverRecv result => exact absurd ⟨result, rfl⟩ hevent
      | _ => rfl
    have hsockets := socketBytes_of_step hstep fun result heq => hevent ⟨result, heq⟩
    obtain ⟨action, -, hrelay⟩ := step_refines hstep
    rw [hwrites, List.append_nil]
    constructor
    · intro hpast
      obtain ⟨number, target, htarget, hopened⟩ := hpiped.opened hpast
      obtain ⟨target', htarget', -, hsame⟩ := Relay.step_target hrelay htarget
      exact ⟨number, target', htarget', hsame.trans hopened⟩
    · intro number target htarget hopened
      rw [hsockets]
      rcases Relay.target_origin hrelay htarget with ⟨old, hold, hsame⟩ |
        ⟨rfl, connect, hconnect, hcause⟩
      · exact hpiped.bytes number old hold (hsame.trans hopened)
      · -- a session that is still connecting has no other target
        have hpast : past = [] := by
          by_contra hpast
          obtain ⟨other, target', htarget', hopened'⟩ := hpiped.opened hpast
          have hpending := (hlives.single_target (targets_ne_none htarget' hopened')
            (targets_ne_none htarget' hopened')).2
          rw [hopened] at hcause
          have hpos : 0 < (s.relay.track index).pending :=
            List.countP_pos_iff.mpr ⟨connect, hconnect, by simp [← hcause]⟩
          omega
        rw [hpast]
        exact hwired.fresh _ (Nat.le_refl _)

end Piped

theorem wired_of_run {events : List Event} (hrun : run events = some s) : s.Wired := by
  refine Transition.run_invariant Wired (fun hwired hstep => hwired.step hstep) ?_ hrun
  exact ⟨nofun, nofun, fun _ _ => rfl⟩

theorem piped_of_run {events : List Event} (hports : (ports events).Nodup)
    (hrun : run events = some s) (index : Nat) : s.Piped index (written index events) := by
  refine Transition.run_induction
    (motive := fun (events : List Event) (s : System) =>
      (ports events).Nodup → s.Piped index (written index events))
    ?_ ?_ hrun hports
  · intro _
    refine ⟨fun hpast => absurd rfl hpast, fun number target htarget => ?_⟩
    simp [init] at htarget
  · intro past state event next hpast ih hstep hports
    have hbefore : (ports past).Nodup := by
      rw [ports, List.filterMap_append] at hports
      exact hports.sublist (List.sublist_append_left _ _)
    have hwritten : written index (past ++ [event]) =
        written index past ++ state.writes index event :=
      Transition.record_concat (writes index) hpast hstep
    rw [hwritten]
    exact (ih hbefore).step (wired_of_run hpast) (addressed_of_run hpast).labelled
      (ports_nodup hbefore hpast) (lives hpast index) hstep

/-! ## End to end -/

/-- Everything an application has sent is somewhere: its opening, the payload that the
server has written, the payload that is on its way, and what the decoder has not
returned. -/
theorem arrived_parses {events : List Event} (hrun : run events = some s) {index : Nat}
    {session : Session} (hsession : s.sessions[index]? = some session) :
    Parses session (arrived index events)
      ((written index events).map UpstreamWrite.data ++ s.inTransit index) := by
  rw [← forwarded_eq hrun]
  exact parses_of_run hrun hsession

/-- Two applications send payload; the socket of the second one takes one byte of two. -/
def twoSenders : List Event := Event.asks 5000 0 ++ Event.asks 6000 1 ++
  [.clientMail, .clientMail, .serverRecv (.accepted 0), .serverRecv (.accepted 0),
    .resolved 0 (.connected ()), .resolved 0 (.connected ()), .serverMail, .serverMail,
    .appBytes 0 [71, 69, 84], .appPoll 0, .appBytes 1 [80, 85], .appPoll 1, .clientMail,
    .clientMail, .serverRecv (.accepted 3), .serverRecv (.accepted 1), .appBytes 0 [13]]

theorem inTransit_of_empty (hupstream : s.upstream = []) (hmail : s.clientMail = [])
    (index : Nat) : s.inTransit index = [] := by
  rw [inTransit, requests, hupstream, hmail]
  rfl

/-- A socket that accepts all it is given has taken it. -/
theorem flatMap_taken {writes : List UpstreamWrite}
    (haccepted : ∀ write ∈ writes, write.result.taken write.data = write.data) :
    writes.flatMap (fun write => write.result.taken write.data) =
      (writes.map UpstreamWrite.data).flatten := by
  rw [List.flatMap_def]
  exact congrArg List.flatten (List.map_congr_left haccepted)

/-- The server's table. In every run an entry is a target that was opened for a
session of the entry's uuid. -/
theorem entry_opened (events : List Event) (s : System) (hrun : run events = some s)
    (uuid : UInt16) (writer : Nat) (hentry : s.server.connections uuid = some writer) :
    ∃ target index session, s.targets[writer]? = some target ∧ target.openedFor = some index ∧
      s.sessions[index]? = some session ∧ session.client.uuid = uuid := by
  obtain ⟨target, htarget, rfl⟩ := (wired_of_run hrun).connections uuid writer hentry
  obtain ⟨index, peer, hopened, hpeer, huuid⟩ :=
    (addressed_of_run hrun).labelled.targets target (List.mem_of_getElem? htarget)
  obtain ⟨session, hsession, rfl⟩ : ∃ session, s.sessions[index]? = some session ∧
      session.peer = peer := by
    simpa [relay] using hpeer
  exact ⟨target, index, session, htarget, hopened, hsession, huuid⟩

theorem entry_opened_two : ∃ s, run twoSenders = some s ∧ ∃ target index session,
    s.targets[1]? = some target ∧ target.openedFor = some index ∧
      s.sessions[index]? = some session ∧ session.client.uuid = 6000 :=
  ⟨_, rfl, entry_opened twoSenders _ rfl 6000 1 rfl⟩

end System

end JustProxy
