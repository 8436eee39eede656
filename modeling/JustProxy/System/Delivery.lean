import JustProxy.System.Settling
import JustProxy.System.Sockets

/-! # Payload arrives

Applications that send payload once they have their connection. While no target dies and
the sockets take what they are given, the server keeps every entry it needs, the processes
come to rest, and the targets have taken everything that their applications have sent.
-/

namespace JustProxy

/-! ## Entries stay -/

/-- Only a failed write or a dead connection takes an entry away. -/
theorem Relay.Step.keeps_entry {r next : Relay} {action : Action}
    (hstep : Relay.Step r action next) {uuid : UInt16} (hwrite : action ≠ .writeFails uuid)
    (hdead : action ≠ .deregister uuid) (hentry : r.connections uuid ≠ none) :
    next.connections uuid ≠ none := by
  cases hstep with
  | @writeFails request tag rest data hrequests hdata =>
      have hother : uuid ≠ request.uuid := by
        rintro rfl
        exact hwrite rfl
      simpa [hother] using hentry
  | register other writer =>
      by_cases hother : uuid = other
      · simp [hother]
      · simpa [hother] using hentry
  | deregister other =>
      have hother : uuid ≠ other := by
        rintro rfl
        exact hdead rfl
      simpa [hother] using hentry
  | _ => exact hentry

namespace Session.Changes

variable {session session' : Session} {now : Nat} {bytes : List UInt8}
  {events : List SocksEvent} {answers : List ConnectorResponse}

/-- A session keeps its port. -/
theorem uuid (hchanges : session.Changes now bytes events answers session') :
    session'.client.uuid = session.client.uuid := by
  cases hchanges with
  | stay => rfl
  | told answer =>
      unfold Session.push
      split <;> rfl
  | bytes bytes hrunning => rfl
  | @item item codec rest hrunning hdecode =>
      rw [client_after]
      cases item <;> rfl
  | answer hrunning hinbox hhandle =>
      rw [client_after]
      exact (SocksClient.handleConnectorResponse_eq_some hhandle).1
  | panic => rfl
  | stop => rfl

/-- A decoder that is ready stays ready. -/
theorem ready (hchanges : session.Changes now bytes events answers session')
    (hready : session.codec = .ready) : session'.codec = .ready := by
  cases hchanges with
  | stay => exact hready
  | told answer =>
      unfold Session.push
      split <;> exact hready
  | bytes bytes hrunning => exact hready
  | item hrunning hdecode =>
      rw [codec_after]
      rcases Socks5RequestCodec.decode_item hdecode with ⟨hcodec, -⟩ | ⟨hcodec, -⟩ | ⟨-, hnext, -⟩
      · rw [hready] at hcodec
        cases hcodec
      · rw [hready] at hcodec
        cases hcodec
      · exact hnext
  | answer hrunning hinbox hhandle =>
      rw [codec_after]
      exact hready
  | panic => exact hready
  | stop => exact hready

end Session.Changes

/-- What a socket answers if the event makes the server write. -/
def Event.writeResult : Event → Option WriteResult
  | .serverRecv result => some result
  | _ => none

namespace System

variable {s next : System}

/-! ## The mailbox of the server -/

theorem serverMail_foldl (tag : Tag) (effects : List (ServerEffect Nat)) (s : System) :
    (effects.foldl (serverEffect tag) s).serverMail = s.serverMail := by
  induction effects generalizing s with
  | nil => rfl
  | cons effect rest ih =>
      rw [List.foldl_cons, ih]
      cases effect <;> rfl

theorem mem_serverMail_react {handled : System} {tag : Tag}
    {reaction : ProxyClient.Reaction Nat} {mail : Tagged (ServerMail Nat)}
    (hmail : mail ∈ (s.react tag handled reaction).serverMail) :
    mail ∈ s.serverMail ∨ mail ∈ handled.serverMail := by
  cases reaction with
  | none => exact .inl hmail
  | some reaction =>
      rw [react, serverMail_foldl] at hmail
      exact .inr hmail

/-- As long as nothing is read from targets, only resolvers put mail into the mailbox. -/
theorem mem_serverMail_of_step {event : Event} (hstep : s.step event = some next)
    (hinternal : event.internal = true) {mail : Tagged (ServerMail Nat)}
    (hmail : mail ∈ next.serverMail) :
    mail ∈ s.serverMail ∨ ∃ uuid result, mail.message = resolverCallback uuid result := by
  have hclient (hserver : event.isServer = false) : mail ∈ s.serverMail := by
    have hsame : next.serverMail = s.serverMail :=
      congrArg ServerProcess.serverMail (step_client hstep hserver)
    rwa [hsame] at hmail
  cases event with
  | serverRecv result =>
      obtain ⟨-, request, tag, rest, -, rfl⟩ := serverRecv_eq_some hstep
      exact .inl ((mem_serverMail_react hmail).elim id id)
  | serverMail =>
      obtain ⟨-, first, tag, rest, hhead, rfl⟩ := handleServerMail_eq_some hstep
      refine .inl ((mem_serverMail_react hmail).elim id fun hrest => ?_)
      rw [hhead]
      exact List.mem_cons_of_mem _ hrest
  | resolved index result =>
      obtain ⟨-, before, uuid, addr, tag, after, -, rfl⟩ := resolved_eq_some hstep
      rcases List.mem_append.mp hmail with hold | hnew
      · exact .inl hold
      · rw [List.mem_singleton.mp hnew]
        exact .inr ⟨_, _, rfl⟩
  | forward =>
      obtain ⟨-, -, response, rest, -, rfl⟩ := forward_eq_some hstep
      exact .inl hmail
  | appPoll index => exact .inl (hclient rfl)
  | socksMail index => exact .inl (hclient rfl)
  | clientMail => exact .inl (hclient rfl)
  | clientRecv => exact .inl (hclient rfl)
  | _ => cases hinternal

/-! ## Delivering -/

/-- The socket takes all of the payload that the server writes. -/
def Accepts (s : System) (event : Event) : Prop :=
  ∀ result ∈ event.writeResult, result.isErr = false ∧ ∀ request ∈ s.upstream.head?,
    result.taken request.message.request.payload = request.message.request.payload

/-- Both processes are there, payload is only on its way to connections that the server
has, and no connection is about to go. Every decoder waits for its application or is
ready and has its connection. -/
structure Delivering (s : System) : Prop where
  serverUp : s.serverUp = true
  receiving : s.server.receiving = true
  provided : s.relay.Provided
  alive : ∀ mail ∈ s.serverMail, ∀ uuid, mail.message ≠ .connectionDead uuid
  sessions : ∀ session ∈ s.sessions, session.Waits ∨
    session.codec = .ready ∧ s.server.connections session.client.uuid ≠ none

namespace Delivering

/-- A decoder that returns something is ready, and its session has its connection. -/
theorem polled (hdelivering : s.Delivering) {index : Nat} {session : Session}
    (hstep : s.step (.appPoll index) = some next) (hsession : s.sessions[index]? = some session) :
    session.codec = .ready ∧ s.server.connections session.client.uuid ≠ none := by
  rcases hdelivering.sessions session (List.mem_of_getElem? hsession) with hwaits | hready
  · have hnone : s.appPoll index = none := by
      refine appPoll_of_waiting fun other hother => ?_
      obtain ⟨hsame, hrunning⟩ := runningSession_eq_some hother
      obtain rfl : other = session := Option.some.inj (hsame.symm.trans hsession)
      exact hwaits hrunning
    rw [System.step, hnone] at hstep
    cases hstep
  · exact hready

theorem keepsEntries (hdelivering : s.Delivering) {event : Event} (haccepts : s.Accepts event)
    (hstep : s.step event = some next) : s.KeepsEntries event := by
  intro _
  cases event with
  | appPoll index =>
      intro session hsession _
      exact (hdelivering.polled hstep hsession).2
  | serverRecv result =>
      intro request tag rest _ _ herr
      rw [(haccepts result rfl).1] at herr
      cases herr
  | serverMail =>
      intro uuid tag rest hmail
      exact absurd rfl (hdelivering.alive _ (by rw [hmail]; exact List.mem_cons_self) uuid)
  | _ => trivial

/-- No entry goes. -/
theorem keeps_entry (hdelivering : s.Delivering) {event : Event} (haccepts : s.Accepts event)
    (hstep : s.step event = some next) {uuid : UInt16}
    (hentry : s.server.connections uuid ≠ none) : next.server.connections uuid ≠ none := by
  obtain ⟨action, hcorresponds, hrelay⟩ := step_refines hstep
  refine hrelay.keeps_entry ?_ ?_ hentry
  · rintro rfl
    obtain ⟨result, request, tag, rest, data, rfl, herr, -⟩ := hcorresponds
    rw [(haccepts result rfl).1] at herr
    cases herr
  · rintro rfl
    obtain ⟨rfl, tag, rest, hmail⟩ := hcorresponds
    exact hdelivering.alive _ (by rw [hmail]; exact List.mem_cons_self) uuid rfl

theorem step {event : Event} (hdelivering : s.Delivering) (hhonest : s.relay.Honest)
    (hinternal : event.internal = true) (haccepts : s.Accepts event)
    (hstep : s.step event = some next) : next.Delivering where
  serverUp := serverUp_of_provided hdelivering.serverUp hdelivering.receiving
    hdelivering.provided hhonest hinternal hstep
  receiving := by
    rw [receiving_of_step hstep (by rintro rfl; cases hinternal), hdelivering.receiving]
  provided := by
    obtain ⟨action, hcorresponds, hrelay⟩ := step_refines hstep
    have hkeeps := hdelivering.keepsEntries haccepts hstep
    exact hdelivering.provided.step (hkeeps.relay hdelivering.serverUp hcorresponds) hrelay
  alive := by
    intro mail hmail uuid
    rcases mem_serverMail_of_step hstep hinternal hmail with hold | ⟨other, result, hnew⟩
    · exact hdelivering.alive mail hold uuid
    · rw [hnew]
      cases result <;> simp [resolverCallback]
  sessions := by
    intro session hmem
    rcases changes_of_internal hinternal hstep hmem with
      ⟨port, rfl⟩ | ⟨before, hbefore, events, answers, hchanges⟩
    · exact .inl (Session.waits_new port)
    · rcases hdelivering.sessions before hbefore with hwaits | ⟨hready, hentry⟩
      · exact .inl (hchanges.waits hwaits)
      · refine .inr ⟨hchanges.ready hready, ?_⟩
        rw [hchanges.uuid]
        exact hdelivering.keeps_entry haccepts hstep hentry

end Delivering

/-! ## Runs -/

/-- A step of the processes in which the sockets take what they are given. -/
def Delivers (s : System) (event : Event) : Prop := event.internal = true ∧ s.Accepts event

instance (s : System) (event : Event) : Decidable (s.Delivers event) :=
  inferInstanceAs (Decidable (event.internal = true ∧
    ∀ result ∈ event.writeResult, result.isErr = false ∧ ∀ request ∈ s.upstream.head?,
      result.taken request.message.request.payload = request.message.request.payload))

theorem Delivering.run {events : List Event} {final : System} (hdelivering : s.Delivering)
    (hhonest : s.relay.Honest) (hdelivers : Transition.Meets System.step Delivers s events)
    (hrun : Transition.run System.step s events = some final) : final.Delivering :=
  (hdelivers.invariant (fun s => s.Delivering ∧ s.relay.Honest)
    (fun hstate hcond hstep => ⟨hstate.1.step hstate.2 hcond.1 hcond.2 hstep,
      honest_of_step hstate.2 hstep⟩) ⟨hdelivering, hhonest⟩ hrun).1

/-- The sockets have taken what the server has written. -/
theorem accepted_of_delivers {events : List Event} (index : Nat)
    (hdelivers : Transition.Meets System.step Delivers s events) :
    ∀ write ∈ Transition.record System.step (writes index) s events,
      write.result.taken write.data = write.data := by
  refine hdelivers.forall_mem_record ?_
  intro s event hcond write hwrite
  cases event with
  | serverRecv result =>
      rw [writes] at hwrite
      split at hwrite
      next => cases hwrite
      next request rest hupstream =>
        split at hwrite
        next =>
          obtain ⟨data, hdata, rfl⟩ := Option.map_eq_some_iff.mp (Option.mem_toList.mp hwrite)
          have htaken := (hcond.2 result rfl).2 request (by rw [hupstream]; rfl)
          rw [Tagged.payloadOf] at hdata
          split at hdata
          next =>
            split at hdata
            next bytes hbytes =>
              cases hdata
              rwa [hbytes] at htaken
            next => cases hdata
          next => cases hdata
        next => cases hwrite
  | _ => cases hwrite

theorem ports_append_internal {events later : List Event}
    (hinternal : ∀ event ∈ later, event.internal = true) :
    ports (events ++ later) = ports events := by
  have hnone : later.filterMap Event.port = [] := by
    refine List.filterMap_eq_nil_iff.mpr fun event hmem => ?_
    have hevent := hinternal event hmem
    cases event with
    | connect port => cases hevent
    | _ => rfl
  rw [ports, List.filterMap_append, hnone, List.append_nil]
  rfl

theorem internal_of_delivers {events : List Event} {final : System}
    (hdelivers : Transition.Meets System.step Delivers s events)
    (hrun : Transition.run System.step s events = some final) :
    ∀ event ∈ events, event.internal = true := by
  intro event hmem
  obtain ⟨before, after, rfl⟩ := List.append_of_mem hmem
  rw [Transition.run_append] at hrun
  obtain ⟨middle, hmiddle, -⟩ := Option.bind_eq_some_iff.mp hrun
  exact (Transition.meets_iff.mp hdelivers before event after middle rfl hmiddle).1

/-- Everything that an application has sent behind its opening has been taken by the
socket of its target. -/
def Delivered (events : List Event) (s : System) (index number : Nat) : Prop :=
  ∃ opening, Socks5RequestCodecState.ready.Opening opening ∧
    arrived index events = opening ++ s.socketBytes number

/-- Payload arrives. However the processes go on from a delivering state while the sockets
take what they are given, they take no more steps than there is work; and where they can
go no further, the server still runs, and everything that a running application has sent
is with its target if what was written before was taken, too. -/
theorem delivered_of_delivering (events later : List Event) (s final : System)
    (hports : (ports events).Nodup) (hrun : System.run events = some s)
    (hdelivering : s.Delivering) (hdelivers : Transition.Meets System.step Delivers s later)
    (hlater : Transition.run System.step s later = some final) :
    later.length ≤ s.work ∧
      ((∀ event : Event, event.internal = true → final.step event = none) →
        final.serverUp = true ∧ final.Resting ∧
          ∀ index number session target, final.sessions[index]? = some session →
            session.running = true → final.targets[number]? = some target →
            target.openedFor = some index →
            (∀ write ∈ written index events, write.result.taken write.data = write.data) →
              Delivered (events ++ later) final index number) := by
  have hinternal := internal_of_delivers hdelivers hlater
  have hlength := work_add_length_le hlater hinternal
  refine ⟨by omega, fun hstuck => ?_⟩
  have hfinal : System.run (events ++ later) = some final := Transition.run_trans hrun hlater
  have hdelivering' := hdelivering.run (honest_of_run hrun) hdelivers hlater
  have hresting := resting_of_stuck (dispatcherUp_of_run hfinal) hdelivering'.serverUp
    hdelivering'.receiving hstuck
  refine ⟨hdelivering'.serverUp, hresting, ?_⟩
  intro index number session target hsession hrunning htarget hopened haccepted
  have hready := ready_of_target (lives hfinal index) hsession htarget hopened
  have hwritten : ∀ write ∈ written index (events ++ later),
      write.result.taken write.data = write.data := by
    rw [written, Transition.record_append (writes index) hrun]
    exact List.forall_mem_append.mpr ⟨haccepted, accepted_of_delivers index hdelivers⟩
  have hbuffer : session.buffer = [] := by
    have hrun' : final.runningSession index = some session := by
      rw [runningSession, hsession, Option.filter_some, if_pos hrunning]
    have hmore := hresting.waiting index session hrun'
    rw [hready, Socks5RequestCodec.decode, Socks5RequestCodec.decodeData] at hmore
    split at hmore
    next hempty => exact List.length_eq_zero_iff.mp hempty
    next => cases hmore
  obtain ⟨opening, hopening, hbytes⟩ := (arrived_parses hfinal hsession).split
  rw [hready] at hopening
  refine ⟨opening, hopening, ?_⟩
  have hdistinct : (ports (events ++ later)).Nodup := by
    rwa [ports_append_internal hinternal]
  rw [hbytes, inTransit_of_empty hresting.quiescent.upstream hresting.quiescent.clientMail,
    List.append_nil, (piped_of_run hdistinct hfinal index).bytes number target htarget hopened,
    flatMap_taken hwritten, hbuffer, List.append_nil]

/-- An application that has its connection sends "GET", which has only just arrived. -/
def connected : List Event := Event.asks 5000 0 ++
  [.clientMail, .serverRecv (.accepted 0), .resolved 0 (.connected ()), .serverMail,
    .appBytes 0 [71, 69, 84]]

/-- The grant reaches the application, and the payload its target. -/
def delivery : List Event := [.appPoll 0, .forward, .clientRecv, .socksMail 0, .clientMail,
  .serverRecv (.accepted 3)]

theorem delivered_of_delivering_connected : ∃ s final session target,
    System.run connected = some s ∧ Transition.run System.step s delivery = some final ∧
    final.sessions[0]? = some session ∧ final.targets[0]? = some target ∧
    final.socketBytes 0 = [71, 69, 84] ∧ delivery.length ≤ s.work ∧ final.serverUp = true ∧
    final.Resting ∧ Delivered (connected ++ delivery) final 0 0 := by
  have hstart : ((System.run connected).filter fun s => s.serverUp = true ∧
      s.server.receiving = true ∧ s.requests.isEmpty ∧ s.serverMail.isEmpty ∧
      (∀ session ∈ s.sessions, session.codec = .ready ∧
        s.server.connections session.client.uuid ≠ none) ∧
      Transition.Meets System.step Delivers s delivery).isSome := by decide +kernel
  have hend : ((System.run (connected ++ delivery)).filter fun s => s.clientMail.isEmpty ∧
      s.upstream.isEmpty ∧ s.downstream.isEmpty ∧ s.serverMail.isEmpty ∧ s.outQueue.isEmpty ∧
      s.resolving.isEmpty ∧ (∀ session ∈ s.sessions, session.inbox = [] ∧
        (Socks5RequestCodec.decode session.codec session.buffer).1 = .more) ∧
      (∃ session ∈ s.sessions[0]?, session.running = true) ∧
      (∃ target ∈ s.targets[0]?, target.openedFor = some 0) ∧
      s.socketBytes 0 = [71, 69, 84]).isSome := by decide +kernel
  obtain ⟨s, hstart⟩ := Option.isSome_iff_exists.mp hstart
  obtain ⟨hrun, hstart⟩ := Option.filter_eq_some_iff.mp hstart
  obtain ⟨hup, hreceiving, hrequests, hmail, hsessions, hdelivers⟩ := of_decide_eq_true hstart
  obtain ⟨final, hend⟩ := Option.isSome_iff_exists.mp hend
  obtain ⟨hfinal, hend⟩ := Option.filter_eq_some_iff.mp hend
  obtain ⟨hclientMail, hupstream, hdownstream, hserverMail, hout, hresolving, hwaiting,
    ⟨session, hsession, hrunning⟩, ⟨target, htarget, hopened⟩, hbytes⟩ :=
    of_decide_eq_true hend
  have hlater : Transition.run System.step s delivery = some final := by
    rw [System.run, Transition.run_append] at hfinal
    obtain ⟨middle, hmiddle, hlater⟩ := Option.bind_eq_some_iff.mp hfinal
    obtain rfl : s = middle := Option.some.inj (hrun.symm.trans hmiddle)
    exact hlater
  have hdelivering : s.Delivering := {
    serverUp := hup
    receiving := hreceiving
    provided := by
      rintro uuid ⟨request, hmem, -⟩
      have hnone : s.requests = [] := List.isEmpty_iff.mp hrequests
      rw [show s.relay.requests = s.requests from rfl, hnone] at hmem
      cases hmem
    alive := by
      rw [List.isEmpty_iff.mp hmail]
      exact fun _ hmem => absurd hmem List.not_mem_nil
    sessions := fun session hmem => .inr (hsessions session hmem) }
  have hresting : final.Resting := {
    quiescent := {
      clientMail := List.isEmpty_iff.mp hclientMail
      upstream := List.isEmpty_iff.mp hupstream
      downstream := List.isEmpty_iff.mp hdownstream
      serverMail := List.isEmpty_iff.mp hserverMail
      outQueue := List.isEmpty_iff.mp hout
      resolving := List.isEmpty_iff.mp hresolving
      inboxes := fun session hmem _ => (hwaiting session hmem).1 }
    waiting := fun index session hrun =>
      (hwaiting session (List.mem_of_getElem? (runningSession_eq_some hrun).1)).2 }
  have hends := delivered_of_delivering connected delivery s final (by decide) hrun hdelivering
    hdelivers hlater
  obtain ⟨hserver, hrest, hall⟩ := hends.2 fun event hinternal => hresting.stuck hinternal
  have hwritten : written 0 connected = [] :=
    List.isEmpty_iff.mp (by decide +kernel)
  exact ⟨s, final, session, target, hrun, hlater, hsession, htarget, hbytes, hends.1, hserver,
    hrest, hall 0 0 session target hsession hrunning htarget hopened
      (by rw [hwritten]; exact fun _ hmem => absurd hmem List.not_mem_nil)⟩

end System

end JustProxy
