import JustProxy.System.Dispatch
import JustProxy.System.Survival
import JustProxy.System.Replies

/-! # Coming to rest

Everything that happens in the processes uses up something that has come in from
outside: a connection, a byte, a tick of the clock, or what a target has sent. So the
processes come to rest after a number of steps that what has come in determines.
-/

namespace JustProxy

/-- The steps that the processes take by themselves. The others come from applications,
targets and timers, or are failures. -/
def Event.internal : Event → Bool
  | .appPoll _ => true
  | .socksMail _ => true
  | .clientMail => true
  | .clientRecv => true
  | .serverRecv _ => true
  | .serverMail => true
  | .resolved _ _ => true
  | .forward => true
  | _ => false

/-- The work that comes in with an event. -/
def Event.brings : Event → Nat
  | .connect _ => 1
  | .appBytes _ bytes => 8 * bytes.length
  | .tick => 7
  | .read _ _ => 4
  | _ => 0

/-- The steps that a session can still take. -/
def Session.work (session : Session) : Nat :=
  if session.running then session.inbox.length + 8 * session.buffer.length + 1 else 0

/-- The work that an effect of a session leaves to others. -/
def SocksEffect.work : SocksEffect → Nat
  | .doSend _ => 7
  | _ => 0

def ServerEffect.work {Writer : Type} : ServerEffect Writer → Nat
  | .send _ => 3
  | .resolve _ _ => 5
  | .write _ _ => 0

namespace System

/-- The steps that can still be taken, no more come in. A message counts for the steps
on the rest of its way, a byte of an application for one that makes up a message. -/
def work (s : System) : Nat :=
  (s.sessions.map Session.work).sum + 2 * s.downstream.length + 3 * s.outQueue.length +
    4 * s.serverMail.length + 5 * s.resolving.length + 6 * s.upstream.length +
    7 * s.clientMail.length + s.dispatcherUp.toNat + s.serverUp.toNat

variable {s next : System}

/-! ## Sessions -/

/-- What a session's change means for the work that is left. -/
theorem work_updateSession {index : Nat} {session : Session}
    (hsession : s.runningSession index = some session) (session' : Session) :
    (s.updateSession index session').work +
        (session.inbox.length + 8 * session.buffer.length + 1) =
      s.work + session'.work := by
  obtain ⟨hsession, hrunning⟩ := runningSession_eq_some hsession
  have hwork : session.work = session.inbox.length + 8 * session.buffer.length + 1 :=
    if_pos hrunning
  obtain ⟨hlength, hindex⟩ := List.getElem?_eq_some_iff.mp hsession
  obtain ⟨before, after, hsessions, -, hset⟩ : ∃ before after,
      s.sessions = before ++ s.sessions[index] :: after ∧ before.length = index ∧
        s.sessions.set index session' = before ++ session' :: after :=
    List.exists_of_set hlength
  rw [hindex] at hsessions
  have hold : (s.sessions.map Session.work).sum = (before.map Session.work).sum +
      (session.work + (after.map Session.work).sum) := by
    conv_lhs => rw [hsessions]
    simp
  have hnew : ((s.sessions.set index session').map Session.work).sum =
      (before.map Session.work).sum + (session'.work + (after.map Session.work).sum) := by
    rw [hset]
    simp
  simp only [work, updateSession]
  omega

theorem work_stop {index : Nat} {session session' : Session}
    (hsession : s.runningSession index = some session) (hstopped : session'.running = false) :
    (s.updateSession index session').work < s.work := by
  have hwork := work_updateSession hsession session'
  have hnone : session'.work = 0 := by simp [Session.work, hstopped]
  omega

/-- A step of a session leaves the work of the session after it, and of a request. -/
theorem work_socksEffect {index : Nat} {session session' : Session}
    (hsession : s.runningSession index = some session) (effect : SocksEffect) :
    (s.socksEffect index session' effect).work +
        (session.inbox.length + 8 * session.buffer.length) ≤
      s.work + (session'.inbox.length + 8 * session'.buffer.length) + effect.work := by
  have hle (session'' : Session) (hinbox : session''.inbox = session'.inbox)
      (hbuffer : session''.buffer = session'.buffer) :
      session''.work ≤ session'.inbox.length + 8 * session'.buffer.length + 1 := by
    rw [Session.work, hinbox, hbuffer]
    split <;> omega
  cases effect with
  | write response =>
      have hwork := work_updateSession hsession
        { session' with written := session'.written ++ [response] }
      have hsame := hle { session' with written := session'.written ++ [response] } rfl rfl
      simp only [socksEffect, SocksEffect.work]
      omega
  | doSend request =>
      have hwork := work_updateSession hsession session'
      have hsame := hle session' rfl rfl
      simp only [socksEffect, SocksEffect.work, work, List.length_append,
        List.length_singleton] at hwork ⊢
      simp only [updateSession] at hwork ⊢
      omega
  | stop =>
      have hwork := work_updateSession hsession { session' with running := false }
      have hsame := hle { session' with running := false } rfl rfl
      simp only [socksEffect, SocksEffect.work]
      omega

theorem work_pushInbox (index : Nat) (response : ConnectorResponse) :
    (s.pushInbox index response).work ≤ s.work + 1 := by
  unfold pushInbox
  split
  next => omega
  next session hsession =>
    have hwork := work_updateSession hsession
      { session with inbox := session.inbox ++ [response] }
    have hnew : ({ session with inbox := session.inbox ++ [response] } : Session).work =
        session.inbox.length + 1 + 8 * session.buffer.length + 1 := by
      simp [Session.work, (runningSession_eq_some hsession).2]
    omega

/-! ## The server -/

theorem work_foldl (tag : Tag) (effects : List (ServerEffect Nat)) (s : System) :
    (effects.foldl (serverEffect tag) s).work = s.work + (effects.map ServerEffect.work).sum := by
  induction effects generalizing s with
  | nil => rfl
  | cons effect rest ih =>
      have heffect : (serverEffect tag s effect).work = s.work + effect.work := by
        cases effect with
        | send response =>
            simp only [serverEffect, work, List.length_append, List.length_singleton,
              ServerEffect.work]
            omega
        | resolve uuid addr =>
            simp only [serverEffect, work, List.length_append, List.length_singleton,
              ServerEffect.work]
            omega
        | write writer bytes => rfl
      rw [List.foldl_cons, ih, heffect, List.map_cons, List.sum_cons]
      omega

/-- The server's process does not outlive a panic, and its effects are less work than
what it has handled. -/
theorem work_react {handled : System} {tag : Tag} {reaction : ProxyClient.Reaction Nat}
    (hup : s.serverUp = true) (heffects : ∀ server effects, reaction = some (server, effects) →
      handled.work + (effects.map ServerEffect.work).sum < s.work) :
    (s.react tag handled reaction).work < s.work := by
  cases reaction with
  | none =>
      simp only [react, work, hup, Bool.toNat_true, Bool.toNat_false]
      omega
  | some reaction =>
      have hfold := work_foldl tag reaction.2 { handled with server := reaction.1 }
      have hless := heffects reaction.1 reaction.2 rfl
      simp only [react]
      rw [hfold]
      exact hless

/-- No request is answered with more than a connect. -/
theorem work_handleProxyRequest {self server : ProxyClient Nat} {request : ProxyRequest}
    {result : WriteResult} {effects : List (ServerEffect Nat)}
    (hhandle : self.handleProxyRequest request result = some (server, effects)) :
    (effects.map ServerEffect.work).sum ≤ 5 := by
  unfold ProxyClient.handleProxyRequest at hhandle
  split at hhandle
  next =>
    cases hhandle
    simp [ServerEffect.work]
  next =>
    unfold ProxyClient.handleData at hhandle
    split at hhandle
    next =>
      cases hhandle
      simp [ServerEffect.work]
    next => cases hhandle
  next => cases hhandle
  next =>
    unfold ProxyClient.unboundedSend at hhandle
    split at hhandle
    next =>
      cases hhandle
      simp [ServerEffect.work]
    next => cases hhandle

theorem work_serverRecv {result : WriteResult} (hstep : s.serverRecv result = some next) :
    next.work < s.work := by
  obtain ⟨hup, request, tag, rest, hupstream, rfl⟩ := serverRecv_eq_some hstep
  apply work_react hup
  intro server effects hhandle
  have hsum := work_handleProxyRequest hhandle
  simp only [work, hupstream, List.length_cons]
  omega

theorem work_handleServerMail (hstep : s.handleServerMail = some next) : next.work < s.work := by
  obtain ⟨hup, mail, tag, rest, hmail, rfl⟩ := handleServerMail_eq_some hstep
  apply work_react hup
  intro server effects hhandle
  have hsum : (effects.map ServerEffect.work).sum = 3 := by
    rcases handleMail_toResponse s.server mail with hpanic | ⟨server', hsend, -⟩
    · rw [hpanic] at hhandle
      cases hhandle
    · rw [hsend] at hhandle
      cases hhandle
      rfl
  simp only [work, hmail, List.length_cons]
  omega

theorem work_resolved {index : Nat} {result : ConnectResult Unit}
    (hstep : s.resolved index result = some next) : next.work < s.work := by
  obtain ⟨-, before, uuid, addr, tag, after, hresolving, rfl⟩ := resolved_eq_some hstep
  simp only [work, hresolving, List.length_append, List.length_cons, List.length_nil]
  omega

/-! ## The client -/

theorem work_appPoll {index : Nat} (hstep : s.appPoll index = some next) :
    next.work < s.work := by
  obtain ⟨session, hsession, hpoll⟩ := Option.bind_eq_some_iff.mp hstep
  split at hpoll
  next item codec rest hdecode =>
    -- an item has taken a byte
    have hrest := Socks5RequestCodec.length_decode_lt hdecode
    let session' : Session :=
      { session with
        client := (session.client.handleSocksRequest item s.clock).1
        codec := codec
        buffer := rest }
    have hnext : s.socksEffect index session'
        (session.client.handleSocksRequest item s.clock).2 = next := Option.some.inj hpoll
    have hwork : next.work + (session.inbox.length + 8 * session.buffer.length) ≤
        s.work + (session.inbox.length + 8 * rest.length) +
          (session.client.handleSocksRequest item s.clock).2.work :=
      hnext ▸ work_socksEffect hsession _
    have heffect : (session.client.handleSocksRequest item s.clock).2.work ≤ 7 := by
      cases item <;> simp [SocksClient.handleSocksRequest, SocksEffect.work]
    omega
  next => cases hpoll
  all_goals
    cases hpoll
    exact work_stop hsession rfl

theorem work_socksMail {index : Nat} (hstep : s.socksMail index = some next) :
    next.work < s.work := by
  obtain ⟨session, hsession, hmail⟩ := Option.bind_eq_some_iff.mp hstep
  split at hmail
  next => cases hmail
  next msg rest hinbox =>
    split at hmail
    next =>
      cases hmail
      exact work_stop hsession rfl
    next client effect hhandle =>
      cases hmail
      have hwork : (s.socksEffect index { session with client := client, inbox := rest }
            effect).work + (session.inbox.length + 8 * session.buffer.length) ≤
          s.work + (rest.length + 8 * session.buffer.length) + effect.work :=
        work_socksEffect hsession effect
      have heffect : effect.work = 0 := by
        rcases (SocksClient.handleConnectorResponse_eq_some hhandle).2 with
          ⟨response, rfl⟩ | rfl <;> rfl
      rw [hinbox, List.length_cons] at hwork
      omega

theorem work_clientRecv (hstep : s.clientRecv = some next) : next.work < s.work := by
  cases clientRecv_cases hstep with
  | panic hup hdownstream hhandle =>
      simp only [work, hup, Bool.toNat_true, Bool.toNat_false]
      omega
  | echo hup hdownstream hzero hindex hhandle =>
      simp only [work, hdownstream, List.length_cons]
      omega
  | @deliver response tag rest index answer hup hdownstream hzero hclient hanswer hhandle =>
      have hpush := s.work_pushInbox index answer
      rw [pushInbox_eq] at hpush
      simp only [work, hdownstream, List.length_cons] at hpush ⊢
      omega

theorem work_handleClientMail (hstep : s.handleClientMail = some next) :
    next.work < s.work := by
  cases handleClientMail_cases hstep with
  | request hup hmail =>
      simp only [work, hmail, List.length_append, List.length_cons, List.length_nil]
      omega
  | heartbeat hup hmail =>
      simp only [work, hmail, List.length_append, List.length_cons, List.length_nil]
      omega

theorem work_forward (hstep : s.forward = some next) : next.work < s.work := by
  obtain ⟨-, -, response, rest, hout, rfl⟩ := forward_eq_some hstep
  simp only [work, hout, List.length_append, List.length_cons, List.length_nil]
  omega

/-! ## What comes in -/

theorem work_connect {port : UInt16} (hstep : s.connect port = some next) :
    next.work ≤ s.work + 1 := by
  obtain ⟨-, -, rfl⟩ := connect_eq_some hstep
  have hnew : (Session.new port).work = 1 := rfl
  simp only [work, List.map_append, List.sum_append, List.map_cons, List.map_nil,
    List.sum_cons, List.sum_nil, hnew]
  omega

theorem work_appBytes {index : Nat} {bytes : List UInt8}
    (hstep : s.appBytes index bytes = some next) : next.work ≤ s.work + 8 * bytes.length := by
  obtain ⟨session, hsession, rfl⟩ := Option.map_eq_some_iff.mp hstep
  have hwork := work_updateSession hsession { session with buffer := session.buffer ++ bytes }
  have hnew : ({ session with buffer := session.buffer ++ bytes } : Session).work =
      session.inbox.length + 8 * (session.buffer.length + bytes.length) + 1 := by
    simp [Session.work, (runningSession_eq_some hsession).2]
  omega

theorem work_tick (hstep : s.tick = some next) : next.work ≤ s.work + 7 := by
  obtain ⟨-, ⟨-, rfl⟩ | ⟨-, rfl⟩⟩ := tick_eq_some hstep
  · simp only [work, List.length_append, List.length_singleton]
    omega
  · exact Nat.le_add_right _ _

theorem work_read {index : Nat} {event : ReadEvent} (hstep : s.read index event = some next) :
    next.work ≤ s.work + 4 := by
  obtain ⟨-, target, changed, -, -, -, rfl⟩ := read_eq_some hstep
  -- an event of a reader is at most one message
  have hmail := Option.length_toList_le (o := (readerFuture target.uuid event).map fun mail =>
    (⟨mail, ⟨target.openedFor, some index⟩⟩ : Tagged (ServerMail Nat)))
  simp only [work, List.length_append]
  omega

/-! ## Runs -/

/-- A step of the processes uses up work. -/
theorem work_lt_of_step {event : Event} (hstep : s.step event = some next)
    (hinternal : event.internal = true) : next.work < s.work := by
  cases event with
  | appPoll index => exact work_appPoll hstep
  | socksMail index => exact work_socksMail hstep
  | clientMail => exact work_handleClientMail hstep
  | clientRecv => exact work_clientRecv hstep
  | serverRecv result => exact work_serverRecv hstep
  | serverMail => exact work_handleServerMail hstep
  | resolved index result => exact work_resolved hstep
  | forward => exact work_forward hstep
  | _ => cases hinternal

/-- The other steps bring work in. -/
theorem work_le_of_step {event : Event} (hstep : s.step event = some next)
    (hexternal : event.internal = false) : next.work ≤ s.work + event.brings := by
  cases event with
  | connect port => exact work_connect hstep
  | appBytes index bytes => exact work_appBytes hstep
  | appClose index =>
      obtain ⟨session, hsession, rfl⟩ := Option.map_eq_some_iff.mp hstep
      exact (work_stop hsession rfl).le
  | tick => exact work_tick hstep
  | read index event => exact work_read hstep
  | forwardEnds =>
      cases hstep
      exact Nat.le_refl _
  | wait millis =>
      cases hstep
      exact Nat.le_refl _
  | _ => cases hexternal

theorem work_of_step {event : Event} (hstep : s.step event = some next) :
    next.work + event.internal.toNat ≤ s.work + event.brings := by
  cases hinternal : event.internal with
  | true =>
      have hless := work_lt_of_step hstep hinternal
      rw [Bool.toNat_true]
      omega
  | false =>
      have hle := work_le_of_step hstep hinternal
      rw [Bool.toNat_false]
      omega

/-- The processes never keep themselves busy. In every run they take no more steps than
the connections, the bytes, the ticks and what targets have sent can account for. -/
theorem internal_le (events : List Event) (s : System) (hrun : run events = some s) :
    s.work + events.countP Event.internal ≤ 2 + (events.map Event.brings).sum :=
  Transition.run_countP_le_add work Event.internal Event.brings
    (fun hstep => work_of_step hstep) hrun

theorem internal_le_asks : ∃ s, run (Event.asks 5000 0) = some s ∧ s.work = 10 ∧
    s.work + (Event.asks 5000 0).countP Event.internal ≤
      2 + ((Event.asks 5000 0).map Event.brings).sum :=
  ⟨_, rfl, rfl, internal_le _ _ rfl⟩

theorem work_add_length_le {events : List Event} {final : System}
    (hrun : Transition.run step s events = some final)
    (hinternal : ∀ event ∈ events, event.internal = true) :
    final.work + events.length ≤ s.work := by
  induction events generalizing s with
  | nil =>
      cases hrun
      exact Nat.le_refl _
  | cons event rest ih =>
      obtain ⟨next, hnext, hrest⟩ := Transition.run_cons.mp hrun
      obtain ⟨hevent, hlater⟩ := List.forall_mem_cons.mp hinternal
      have hless := work_lt_of_step hnext hevent
      have hlength := ih hrest hlater
      rw [List.length_cons]
      omega

/-! ## Rest -/

/-- Nothing is on its way, and every decoder waits for its application. -/
structure Resting (s : System) : Prop where
  quiescent : s.Quiescent
  waiting : ∀ index session, s.runningSession index = some session →
    (Socks5RequestCodec.decode session.codec session.buffer).1 = .more

/-- As long as both processes are there, they can go on unless nothing is left to do. -/
theorem resting_of_stuck (hdispatcher : s.dispatcherUp = true) (hserver : s.serverUp = true)
    (hreceiving : s.server.receiving = true)
    (hstuck : ∀ event : Event, event.internal = true → s.step event = none) : s.Resting where
  quiescent := {
    clientMail := by
      have hnone := hstuck .clientMail rfl
      rw [step, handleClientMail, if_pos hdispatcher] at hnone
      split at hnone
      next hempty => exact hempty
      all_goals cases hnone
    upstream := by
      have hnone := hstuck (.serverRecv .wouldBlock) rfl
      rw [step, serverRecv, if_pos hserver] at hnone
      split at hnone
      next hempty => exact hempty
      next => cases hnone
    downstream := by
      have hnone := hstuck .clientRecv rfl
      rw [step, clientRecv, if_pos hdispatcher] at hnone
      split at hnone
      next hempty => exact hempty
      next => split at hnone <;> cases hnone
    serverMail := by
      have hnone := hstuck .serverMail rfl
      rw [step, handleServerMail, if_pos hserver] at hnone
      split at hnone
      next hempty => exact hempty
      next => cases hnone
    outQueue := by
      have hnone := hstuck .forward rfl
      rw [step, forward, if_pos ⟨hserver, hreceiving⟩] at hnone
      split at hnone
      next hempty => exact hempty
      next => cases hnone
    resolving := by
      have hnone := hstuck (.resolved 0 .timeout) rfl
      rw [step, resolved, if_pos hserver] at hnone
      cases hresolving : s.resolving with
      | nil => rfl
      | cons pending rest =>
          rw [hresolving] at hnone
          cases hnone
    inboxes := by
      intro session hmem hrunning
      obtain ⟨index, hsession⟩ := List.mem_iff_getElem?.mp hmem
      have hrun : s.runningSession index = some session := by
        rw [runningSession, hsession, Option.filter_some, if_pos hrunning]
      have hnone := hstuck (.socksMail index) rfl
      rw [step, socksMail, hrun, Option.bind_some] at hnone
      split at hnone
      next hempty => exact hempty
      next => split at hnone <;> cases hnone }
  waiting index session hsession := by
    have hnone := hstuck (.appPoll index) rfl
    rw [step, appPoll, hsession, Option.bind_some] at hnone
    split at hnone
    next => cases hnone
    next hdecode => exact congrArg Prod.fst hdecode
    next => cases hnone
    next => cases hnone

/-- A decoder that waits returns nothing. -/
theorem appPoll_of_waiting {index : Nat} (hwaiting : ∀ session,
    s.runningSession index = some session →
      (Socks5RequestCodec.decode session.codec session.buffer).1 = .more) :
    s.appPoll index = none := by
  rw [appPoll]
  cases hsession : s.runningSession index with
  | none => rfl
  | some session =>
      have hmore := hwaiting session hsession
      rw [Option.bind_some]
      split
      next hdecode =>
        rw [hdecode] at hmore
        cases hmore
      next => rfl
      next hdecode =>
        rw [hdecode] at hmore
        cases hmore
      next hdecode =>
        rw [hdecode] at hmore
        cases hmore

/-- At rest no process has anything to do. -/
theorem Resting.stuck (hresting : s.Resting) {event : Event} (hinternal : event.internal = true) :
    s.step event = none := by
  obtain ⟨hclientMail, hupstream, hdownstream, hserverMail, hout, hresolving, hinboxes⟩ :=
    hresting.quiescent
  cases event with
  | appPoll index => exact appPoll_of_waiting (hresting.waiting index)
  | socksMail index =>
      rw [step, socksMail]
      cases hsession : s.runningSession index with
      | none => rfl
      | some session =>
          obtain ⟨hmem, hrunning⟩ := runningSession_eq_some hsession
          rw [Option.bind_some, hinboxes session (List.mem_of_getElem? hmem) hrunning]
  | clientMail => simp [step, handleClientMail, hclientMail]
  | clientRecv => simp [step, clientRecv, hdownstream]
  | serverRecv result => simp [step, serverRecv, hupstream]
  | serverMail => simp [step, handleServerMail, hserverMail]
  | resolved index result => simp [step, resolved, hresolving]
  | forward => simp [step, forward, hout]
  | _ => cases hinternal

/-- Left to themselves, the processes come to rest within the steps counted as work. -/
theorem settles (events : List Event) (s : System) (hrun : run events = some s) :
    ∃ later final, run (events ++ later) = some final ∧
      (∀ event ∈ later, event.internal = true) ∧ later.length ≤ s.work ∧
      (final.serverUp = true → final.server.receiving = true → final.Resting) := by
  obtain ⟨later, final, hlater, hinternal, hlength, hstuck⟩ :=
    Transition.exists_run_to_end work (fun event => Event.internal event = true)
      (fun hworks hstep => work_lt_of_step hstep hworks) s
  have hfinal : run (events ++ later) = some final := Transition.run_trans hrun hlater
  refine ⟨later, final, hfinal, hinternal, hlength, fun hserver hreceiving => ?_⟩
  exact resting_of_stuck (dispatcherUp_of_run hfinal) hserver hreceiving hstuck

theorem settles_asks : ∃ s later final, run (Event.asks 5000 0) = some s ∧ s.work = 10 ∧
    run (Event.asks 5000 0 ++ later) = some final ∧
    (∀ event ∈ later, event.internal = true) ∧ later.length ≤ s.work ∧
    (final.serverUp = true → final.server.receiving = true → final.Resting) := by
  obtain ⟨later, final, hsettles⟩ := settles (Event.asks 5000 0) _ rfl
  exact ⟨_, later, final, rfl, rfl, hsettles⟩

end System

/-! ## Answers -/

/-- The decoder of a session that runs waits for its application. -/
def Session.Waits (session : Session) : Prop :=
  session.running = true → (Socks5RequestCodec.decode session.codec session.buffer).1 = .more

theorem Session.waits_new (port : UInt16) : (Session.new port).Waits := fun _ => rfl

/-- As long as no bytes arrive, a session goes on waiting. -/
theorem Session.Changes.waits {session session' : Session} {now : Nat}
    {events : List SocksEvent} {answers : List ConnectorResponse}
    (hchanges : session.Changes now [] events answers session') (hwaits : session.Waits) :
    session'.Waits := by
  cases hchanges with
  | stay => exact hwaits
  | told answer =>
      unfold Session.push
      split <;> exact hwaits
  | bytes bytes hrunning =>
      rw [List.append_nil]
      exact hwaits
  | item hrunning hdecode =>
      have hmore := hwaits hrunning
      rw [hdecode] at hmore
      cases hmore
  | answer hrunning hinbox hhandle =>
      intro _
      rw [codec_after, buffer_after]
      exact hwaits hrunning
  | panic => exact nofun
  | stop => exact nofun

namespace System

variable {s next : System}

/-- Both processes are there, every application waits, and the server has been sent all
payload there was. -/
structure Patient (s : System) : Prop where
  serverUp : s.serverUp = true
  receiving : s.server.receiving = true
  waiting : ∀ session ∈ s.sessions, session.Waits
  noPayload : ∀ uuid, ¬ CarriesData s.requests uuid

/-- The decoders of a patient state have nothing to return. -/
theorem Patient.not_polled (hpatient : s.Patient) {index : Nat}
    (hstep : s.step (.appPoll index) = some next) : False := by
  have hnone : s.appPoll index = none := by
    refine appPoll_of_waiting fun session hrun => ?_
    obtain ⟨hsession, hrunning⟩ := runningSession_eq_some hrun
    exact hpatient.waiting session (List.mem_of_getElem? hsession) hrunning
  rw [step, hnone] at hstep
  cases hstep

/-- As long as it has a connection for all payload, the server goes on. -/
theorem serverUp_of_provided {event : Event} (hup : s.serverUp = true)
    (hreceiving : s.server.receiving = true) (hprovided : s.relay.Provided)
    (hhonest : s.relay.Honest) (hinternal : event.internal = true)
    (hstep : s.step event = some next) : next.serverUp = true := by
  by_contra hdown
  rw [Bool.not_eq_true] at hdown
  obtain ⟨work, hwork, hunknown | ⟨hgone, -⟩⟩ := (serverDown_iff hstep hup hhonest).mp hdown
  · cases event with
    | serverRecv result =>
        obtain ⟨request, hhead, rfl⟩ := Option.map_eq_some_iff.mp hwork
        have hmem : request ∈ s.requests :=
          List.mem_append.mpr (.inl (List.mem_of_mem_head? hhead))
        exact hprovided _ ⟨request, hmem, hunknown.1, rfl⟩ hunknown.2
    | serverMail =>
        obtain ⟨mail, -, rfl⟩ := Option.map_eq_some_iff.mp hwork
        exact hunknown
    | forwardEnds => cases hinternal
    | _ => cases hwork
  · rw [hreceiving] at hgone
    cases hgone

/-- What a step of the processes makes of the sessions, for which no bytes arrive. -/
theorem changes_of_internal {event : Event} (hinternal : event.internal = true)
    (hstep : s.step event = some next) {session : Session} (hmem : session ∈ next.sessions) :
    (∃ port, session = .new port) ∨ ∃ before ∈ s.sessions, ∃ events answers,
      before.Changes s.clock [] events answers session := by
  obtain ⟨index, hsession⟩ := List.mem_iff_getElem?.mp hmem
  cases hbefore : s.sessions[index]? with
  | none => exact .inl (step_newSession hstep hbefore hsession)
  | some before =>
      obtain ⟨answers, session', hsession', -, hchanges⟩ := step_sessionChanges hstep hbefore
      obtain rfl : session' = session := Option.some.inj (hsession'.symm.trans hsession)
      have harrives : s.arrives index event = [] := by
        cases event <;> first | rfl | cases hinternal
      rw [harrives] at hchanges
      exact .inr ⟨before, List.mem_of_getElem? hbefore, _, answers, hchanges⟩

theorem Patient.step {event : Event} (hpatient : s.Patient) (hhonest : s.relay.Honest)
    (hinternal : event.internal = true) (hstep : s.step event = some next) : next.Patient where
  serverUp := by
    refine serverUp_of_provided hpatient.serverUp hpatient.receiving ?_ hhonest hinternal hstep
    exact fun uuid hcarries => absurd hcarries (hpatient.noPayload uuid)
  receiving := by
    rw [receiving_of_step hstep (by rintro rfl; cases hinternal), hpatient.receiving]
  waiting := by
    intro session hmem
    rcases changes_of_internal hinternal hstep hmem with
      ⟨port, rfl⟩ | ⟨before, hbefore, events, answers, hchanges⟩
    · exact Session.waits_new port
    · exact hchanges.waits (hpatient.waiting before hbefore)
  noPayload := by
    intro uuid hcarries
    obtain ⟨action, hcorresponds, hrelay⟩ := step_refines hstep
    refine hpatient.noPayload uuid (hrelay.carriesData_of_ne_send ?_ hcarries)
    rintro sender rfl
    obtain ⟨index, session, rfl, -⟩ := hcorresponds
    exact hpatient.not_polled hstep

theorem Patient.run {events : List Event} {final : System} (hpatient : s.Patient)
    (hhonest : s.relay.Honest) (hinternal : ∀ event ∈ events, event.internal = true)
    (hrun : Transition.run System.step s events = some final) : final.Patient := by
  induction events generalizing s with
  | nil =>
      cases hrun
      exact hpatient
  | cons event rest ih =>
      obtain ⟨next, hnext, hrest⟩ := Transition.run_cons.mp hrun
      obtain ⟨hevent, hlater⟩ := List.forall_mem_cons.mp hinternal
      exact ih (hpatient.step hhonest hevent hnext) (honest_of_step hhonest hnext) hlater hrest

/-- No application connects in an internal event. -/
theorem cleanReuse_of_internal {events : List Event}
    (hinternal : ∀ event ∈ events, event.internal = true) :
    Transition.Meets System.step CleanReuse s events := by
  refine Transition.meets_iff.mpr ?_
  rintro before event after middle rfl - port rfl
  cases hinternal (.connect port) (by simp)

/-- Applications that wait get their answers. However the processes go on from a patient
state, they take no more steps than there is work; and where they can go no further, the
server still runs and the answer to every request is complete. -/
theorem answered_of_patient (events later : List Event) (s final : System)
    (hclean : Transition.Meets System.step CleanReuse .init events)
    (hrun : System.run events = some s) (hpatient : s.Patient)
    (hlater : Transition.run System.step s later = some final)
    (hinternal : ∀ event ∈ later, event.internal = true) :
    later.length ≤ s.work ∧
      ((∀ event : Event, event.internal = true → final.step event = none) →
        final.serverUp = true ∧ final.Resting ∧
          ∀ index session, final.sessions[index]? = some session → session.codec = .ready →
            final.Answered index session) := by
  have hlength := work_add_length_le hlater hinternal
  refine ⟨by omega, fun hstuck => ?_⟩
  have hfinal : System.run (events ++ later) = some final := Transition.run_trans hrun hlater
  have hmeets : Transition.Meets System.step CleanReuse .init (events ++ later) :=
    hclean.append hrun (cleanReuse_of_internal hinternal)
  have hpatient' := hpatient.run (honest_of_run hrun) hinternal hlater
  have hresting := resting_of_stuck (dispatcherUp_of_run hfinal) hpatient'.serverUp
    hpatient'.receiving hstuck
  refine ⟨hpatient'.serverUp, hresting, fun index session hsession hasked => ?_⟩
  have hfollows := follows_of_run hmeets hfinal hsession
  exact hfollows.answered (isolated_of_clean hmeets hfinal) (lives hfinal index)
    hresting.quiescent hsession hasked

/-- The connect of a waiting application times out, and the application is told. -/
def timesOut : List Event := [.clientMail, .serverRecv (.accepted 0), .resolved 0 .timeout,
  .serverMail, .forward, .clientRecv, .socksMail 0]

theorem answered_of_patient_timesOut : ∃ s final session, System.run (Event.asks 5000 0) = some s ∧
    Transition.run System.step s timesOut = some final ∧ final.sessions = [session] ∧
    timesOut.length ≤ s.work ∧ final.serverUp = true ∧ final.Resting ∧
    final.Answered 0 session := by
  refine ⟨_, _, _, rfl, rfl, rfl, ?_⟩
  have hends := answered_of_patient (Event.asks 5000 0) timesOut _ _
    (meets_cleanReuse (by decide) (by decide)) rfl ⟨rfl, rfl, ?waiting, ?payload⟩ rfl (by decide)
  case waiting =>
    rintro session hmem -
    obtain rfl := List.mem_singleton.mp hmem
    rfl
  case payload =>
    rintro uuid ⟨request, hmem, hdata, -⟩
    obtain rfl := List.mem_singleton.mp hmem
    cases hdata
  have hanswers := hends.2 (fun event hinternal => ?stuck)
  case stuck =>
    cases event with
    | appPoll index => cases index <;> rfl
    | socksMail index => cases index <;> rfl
    | resolved index result => cases index <;> rfl
    | clientMail => rfl
    | clientRecv => rfl
    | serverRecv result => rfl
    | serverMail => rfl
    | forward => rfl
    | _ => cases hinternal
  exact ⟨hends.1, hanswers.1, hanswers.2.1, hanswers.2.2 0 _ rfl rfl⟩

end System

end JustProxy
