import JustProxy.Socks.Discipline
import JustProxy.System.Isolation
import JustProxy.System.Steps

/-! # Sessions within the system

What the actor of one session handles in a run of the whole system. As long as a
port only comes back to a quiet connection, the system gives each session nothing
but what a session may be given, so the session does what it does on its own and
finds everything recorded that it relies on.
-/

namespace JustProxy

open StreamDecoder

/-! ## What may come next -/

/-- The answers to a request that is refused, or to one that is granted. -/
def Told (answers : List ConnectorResponse) : Prop :=
  answers <+: [.failed] ∨
    ∃ chunks : List (List UInt8), answers <+: .succeeded :: (chunks.map .data ++ [.abort])

/-- After its request and before the end, a session can hear every further answer
that it may be told. -/
theorem Link.hear_of_told {link : Link} {answers rest : List ConnectorResponse}
    {msg : ConnectorResponse} (hshape : link.Shape answers) (hasked : link ≠ .unasked)
    (hgone : link ≠ .gone) (htold : Told (answers ++ msg :: rest)) :
    ∃ next, link.hear msg = some next ∧ (next = .gone → msg = .abort) := by
  cases link with
  | unasked => exact absurd rfl hasked
  | asked =>
      obtain rfl : answers = [] := hshape
      rcases htold with hrefused | ⟨chunks, hgranted⟩
      · obtain ⟨rfl, -⟩ := List.cons_prefix_cons.mp hrefused
        exact ⟨.refused, rfl, nofun⟩
      · obtain ⟨rfl, -⟩ := List.cons_prefix_cons.mp hgranted
        exact ⟨.up, rfl, nofun⟩
  | up =>
      obtain ⟨heard, rfl⟩ := hshape
      rcases htold with hrefused | ⟨chunks, hgranted⟩
      · cases (List.cons_prefix_cons.mp hrefused).1
      · -- behind the success there are only chunks and the end
        have hmem : msg ∈ chunks.map ConnectorResponse.data ++ [.abort] :=
          (List.cons_prefix_cons.mp hgranted).2.subset (by simp)
        rcases List.mem_append.mp hmem with hchunk | hend
        · obtain ⟨bytes, -, rfl⟩ := List.mem_map.mp hchunk
          exact ⟨.up, rfl, nofun⟩
        · obtain rfl := List.mem_singleton.mp hend
          exact ⟨.gone, rfl, fun _ => rfl⟩
  | refused =>
      obtain rfl : answers = [.failed] := hshape
      rcases htold with hrefused | ⟨chunks, hgranted⟩
      · have hnil := (List.cons_prefix_cons.mp hrefused).2
        cases List.prefix_nil.mp hnil
      · cases (List.cons_prefix_cons.mp hgranted).1
  | gone => exact absurd rfl hgone

/-- What the application is answered when its session handles an event. -/
def SocksEvent.reply : SocksEvent → Option SocksResponse
  | .item (.negotiation _) _ => some (.negotiation ⟨5, 0⟩)
  | .item (.targetRequest _) _ => none
  | .item (.data _) _ => none
  | .answer .succeeded _ => some (.targetResponse SocksClient.succeededResponse)
  | .answer .failed _ => some (.targetResponse SocksClient.failedResponse)
  | .answer (.data bytes) _ => some (.data bytes)
  | .answer .abort _ => none

/-! ## One session -/

namespace Session

/-- The item that the decoder of a session would return. -/
def item? (session : Session) : Option SocksRequest :=
  match Socks5RequestCodec.decode session.codec session.buffer with
  | (.item item, _, _) => some item
  | _ => none

/-- A session after its actor has done something. -/
def after (session : Session) : SocksEffect → Session
  | .write response => { session with written := session.written ++ [response] }
  | .doSend _ => session
  | .stop => { session with running := false }

/-- A message for a stopped actor is dropped. -/
def push (session : Session) (answer : ConnectorResponse) : Session :=
  if session.running then { session with inbox := session.inbox ++ [answer] } else session

/-- What a step of the system may do to a session at a time: the bytes that arrive
for it, what its actor handles, and what the session is told. -/
inductive Changes (session : Session) (now : Nat) :
    List UInt8 → List SocksEvent → List ConnectorResponse → Session → Prop where
  | stay : Changes session now [] [] [] session
  | told (answer : ConnectorResponse) : Changes session now [] [] [answer] (session.push answer)
  | bytes (bytes : List UInt8) (hrunning : session.running = true) :
      Changes session now bytes [] [] { session with buffer := session.buffer ++ bytes }
  | item {item : SocksRequest} {codec : Socks5RequestCodecState} {rest : List UInt8}
      (hrunning : session.running = true)
      (hdecode : Socks5RequestCodec.decode session.codec session.buffer =
        (.item item, codec, rest)) :
      Changes session now [] [.item item now] []
        (after { session with
          client := (session.client.handleSocksRequest item now).1
          codec := codec
          buffer := rest } (session.client.handleSocksRequest item now).2)
  | answer {msg : ConnectorResponse} {rest : List ConnectorResponse} {client : SocksClient}
      {effect : SocksEffect} (hrunning : session.running = true)
      (hinbox : session.inbox = msg :: rest)
      (hhandle : session.client.handleConnectorResponse msg now = some (client, effect)) :
      Changes session now [] [.answer msg now] []
        (after { session with client := client, inbox := rest } effect)
  /-- The actor panics. -/
  | panic {msg : ConnectorResponse} {rest : List ConnectorResponse}
      (hrunning : session.running = true) (hinbox : session.inbox = msg :: rest)
      (hhandle : session.client.handleConnectorResponse msg now = none) :
      Changes session now [] [.answer msg now] [] { session with running := false }
  | stop (hrunning : session.running = true) :
      Changes session now [] [] [] { session with running := false }

variable (session : Session) (effect : SocksEffect)

@[simp] theorem client_after : (session.after effect).client = session.client := by
  cases effect <;> rfl

@[simp] theorem codec_after : (session.after effect).codec = session.codec := by
  cases effect <;> rfl

@[simp] theorem buffer_after : (session.after effect).buffer = session.buffer := by
  cases effect <;> rfl

@[simp] theorem inbox_after : (session.after effect).inbox = session.inbox := by
  cases effect <;> rfl

/-- An effect adds the reply of the event behind it. -/
theorem written_after (event : SocksEvent) (uuid : UInt16) :
    (session.after (event.effect uuid)).written = session.written ++ event.reply.toList := by
  have hsame : session.written = session.written ++ [] := (List.append_nil _).symm
  rcases event with ⟨_ | _ | _, now⟩ | ⟨_ | _ | _ | _, now⟩ <;> first | rfl | exact hsame

theorem running_of_after (hrunning : (session.after effect).running = true) :
    session.running = true ∧ effect ≠ .stop := by
  cases effect with
  | write response => exact ⟨hrunning, nofun⟩
  | doSend request => exact ⟨hrunning, nofun⟩
  | stop => cases hrunning

end Session

namespace System

variable {s next : System}

/-- The bytes of an application that arrive in a step. -/
def arrives (index : Nat) (_s : System) : Event → List UInt8
  | .appBytes other bytes => if other = index then bytes else []
  | _ => []

/-- What the actor of a session handles in a step. -/
def handled (index : Nat) (s : System) : Event → List SocksEvent
  | .appPoll other =>
      if other = index then
        ((s.runningSession index).bind fun session =>
          session.item?.map fun item => .item item s.clock).toList
      else []
  | .socksMail other =>
      if other = index then
        ((s.runningSession index).bind fun session =>
          session.inbox.head?.map fun msg => .answer msg s.clock).toList
      else []
  | _ => []

/-- What the actor of a session handles in a run. -/
def history (index : Nat) (events : List Event) : List SocksEvent :=
  Transition.record step (handled index) .init events

/-! ## Steps -/

theorem received_append {index : Nat} {delivery : Delivery}
    (hdeliveries : next.deliveries = s.deliveries ++ [delivery]) :
    next.received index =
      s.received index ++ if delivery.session = index then [delivery.response] else [] := by
  rw [received, hdeliveries, List.filter_append, List.map_append, List.filter_singleton]
  by_cases hindex : delivery.session = index <;> simp [hindex, received]

theorem received_eq_of_deliveries (index : Nat) (hdeliveries : next.deliveries = s.deliveries) :
    next.received index = s.received index := by
  rw [received, received, hdeliveries]

theorem pushInbox_getElem? (index : Nat) (answer : ConnectorResponse) {other : Nat}
    {session : Session} (hsession : s.sessions[other]? = some session) :
    (s.pushInbox index answer).sessions[other]? =
      some (if index = other then session.push answer else session) := by
  have hlength := (List.getElem?_eq_some_iff.mp hsession).1
  rw [pushInbox]
  by_cases hindex : index = other
  · subst hindex
    have hfilter : s.runningSession index = (some session).filter Session.running := by
      rw [runningSession, hsession]
    rw [hfilter, if_pos rfl]
    cases hrunning : session.running with
    | false => simp [Option.filter, hrunning, Session.push, hsession]
    | true => simp [Option.filter, hrunning, Session.push, updateSession, hlength]
  · rw [if_neg hindex]
    split
    · exact hsession
    · rw [updateSession, List.getElem?_set_ne hindex, hsession]

/-- A session and the answers that are added to what it was told. -/
def SessionChanges (s : System) (event : Event) (index : Nat) (session : Session)
    (next : System) : Prop :=
  ∃ answers session', next.sessions[index]? = some session' ∧
    next.received index = s.received index ++ answers ∧
    session.Changes s.clock (s.arrives index event) (s.handled index event) answers session'

theorem sessionChanges_stay {event : Event} {index : Nat} {session : Session}
    (hsession : next.sessions[index]? = some session)
    (hdeliveries : next.deliveries = s.deliveries) (harrives : s.arrives index event = [])
    (hhandled : s.handled index event = []) :
    s.SessionChanges event index session next := by
  refine ⟨[], session, hsession, ?_, ?_⟩
  · rw [received_eq_of_deliveries index hdeliveries, List.append_nil]
  · rw [harrives, hhandled]
    exact .stay

/-- A session's own step. -/
theorem sessionChanges_own {event : Event} {index : Nat} {session session' : Session}
    {mails : List (Tagged ClientMail)} (hsession : s.sessions[index]? = some session)
    (hchanges : session.Changes s.clock (s.arrives index event) (s.handled index event) []
      session') :
    s.SessionChanges event index session { s with
      sessions := s.sessions.set index session'
      clientMail := s.clientMail ++ mails } := by
  have hlength := (List.getElem?_eq_some_iff.mp hsession).1
  refine ⟨[], session', by simp [hlength], ?_, hchanges⟩
  exact (List.append_nil _).symm

theorem socksEffect_eq (index : Nat) (session : Session) (effect : SocksEffect) :
    ∃ mails, s.socksEffect index session effect = { s with
      sessions := s.sessions.set index (session.after effect)
      clientMail := s.clientMail ++ mails } := by
  cases effect with
  | write response => exact ⟨[], by simp [socksEffect, updateSession, Session.after]⟩
  | doSend request => exact ⟨_, rfl⟩
  | stop => exact ⟨[], by simp [socksEffect, updateSession, Session.after]⟩

theorem updateSession_eq (index : Nat) (session : Session) :
    s.updateSession index session = { s with
      sessions := s.sessions.set index session
      clientMail := s.clientMail ++ [] } := by
  rw [List.append_nil]
  rfl

theorem appPoll_sessionChanges {index : Nat} {session : Session}
    (hsession : s.sessions[index]? = some session) (hstep : s.appPoll index = some next) :
    s.SessionChanges (.appPoll index) index session next := by
  obtain ⟨other, hother, hstep⟩ := Option.bind_eq_some_iff.mp hstep
  obtain ⟨hsame, hrunning⟩ := runningSession_eq_some hother
  obtain rfl : other = session := Option.some.inj (hsame.symm.trans hsession)
  have hhandled : s.handled index (.appPoll index) =
      (other.item?.map fun item => SocksEvent.item item s.clock).toList := by
    simp [handled, hother]
  split at hstep
  next item codec rest hdecode =>
    let handling : Session := { other with
      client := (other.client.handleSocksRequest item s.clock).1
      codec := codec
      buffer := rest }
    have hnext : s.socksEffect index handling
        (other.client.handleSocksRequest item s.clock).2 = next := Option.some.inj hstep
    obtain ⟨mails, heffect⟩ := socksEffect_eq (s := s) index handling
      (other.client.handleSocksRequest item s.clock).2
    rw [← hnext, heffect]
    apply sessionChanges_own hsession
    rw [hhandled, Session.item?, hdecode]
    exact .item hrunning hdecode
  next => cases hstep
  next error codec rest hdecode =>
    cases hstep
    rw [updateSession_eq]
    apply sessionChanges_own hsession
    rw [hhandled, Session.item?, hdecode]
    exact .stop hrunning
  next codec rest hdecode =>
    cases hstep
    rw [updateSession_eq]
    apply sessionChanges_own hsession
    rw [hhandled, Session.item?, hdecode]
    exact .stop hrunning

theorem socksMail_sessionChanges {index : Nat} {session : Session}
    (hsession : s.sessions[index]? = some session) (hstep : s.socksMail index = some next) :
    s.SessionChanges (.socksMail index) index session next := by
  obtain ⟨other, hother, hstep⟩ := Option.bind_eq_some_iff.mp hstep
  obtain ⟨hsame, hrunning⟩ := runningSession_eq_some hother
  obtain rfl : other = session := Option.some.inj (hsame.symm.trans hsession)
  split at hstep
  next => cases hstep
  next msg rest hinbox =>
    have hhandled : s.handled index (.socksMail index) = [.answer msg s.clock] := by
      simp [handled, hother, hinbox]
    split at hstep
    next hhandle =>
      cases hstep
      rw [updateSession_eq]
      apply sessionChanges_own hsession
      rw [hhandled]
      exact .panic hrunning hinbox hhandle
    next client effect hhandle =>
      cases hstep
      obtain ⟨mails, heffect⟩ := socksEffect_eq (s := s) index
        { other with client := client, inbox := rest } effect
      rw [heffect]
      apply sessionChanges_own hsession
      rw [hhandled]
      exact .answer hrunning hinbox hhandle

theorem clientRecv_sessionChanges {index : Nat} {session : Session}
    (hsession : s.sessions[index]? = some session) (hstep : s.clientRecv = some next) :
    s.SessionChanges .clientRecv index session next := by
  cases clientRecv_cases hstep with
  | panic hup hdownstream hhandle => exact sessionChanges_stay hsession rfl rfl rfl
  | echo hup hdownstream hzero hindex hhandle => exact sessionChanges_stay hsession rfl rfl rfl
  | @deliver response tag rest receiver answer hup hdownstream hzero hclient hanswer hhandle =>
      have hpushed := pushInbox_getElem? receiver answer hsession
      by_cases hindex : receiver = index
      · subst hindex
        rw [if_pos rfl] at hpushed
        refine ⟨[answer], session.push answer, hpushed, ?_, .told answer⟩
        rw [received_append (s := s) rfl, if_pos rfl]
      · rw [if_neg hindex] at hpushed
        refine ⟨[], session, hpushed, ?_, .stay⟩
        rw [received_append (s := s) rfl, if_neg hindex]

/-- A step that belongs to another session, or to none of them. -/
theorem sessionChanges_other {event : Event} {index other : Nat} {session : Session}
    (hsession : s.sessions[index]? = some session) (hstep : s.step event = some next)
    (hevent : event.session = some other) (hother : other ≠ index)
    (harrives : s.arrives index event = []) (hhandled : s.handled index event = []) :
    s.SessionChanges event index session next := by
  obtain ⟨running, session', mails, -, -, -, rfl⟩ := step_session hstep hevent
  refine sessionChanges_stay ?_ rfl harrives hhandled
  rw [List.getElem?_set_ne hother, hsession]

/-- What a step does to a session. -/
theorem step_sessionChanges {event : Event} (hstep : s.step event = some next) {index : Nat}
    {session : Session} (hsession : s.sessions[index]? = some session) :
    s.SessionChanges event index session next := by
  cases event with
  | connect port =>
      have hlength := (List.getElem?_eq_some_iff.mp hsession).1
      obtain ⟨-, -, rfl⟩ := connect_eq_some hstep
      refine sessionChanges_stay ?_ rfl rfl rfl
      rw [List.getElem?_append_left hlength, hsession]
  | appBytes other bytes =>
      by_cases hother : other = index
      · subst hother
        obtain ⟨running, hrunning, rfl⟩ := Option.map_eq_some_iff.mp hstep
        obtain ⟨hsame, hrunning⟩ := runningSession_eq_some hrunning
        obtain rfl : running = session := Option.some.inj (hsame.symm.trans hsession)
        rw [updateSession_eq]
        apply sessionChanges_own hsession
        rw [arrives, if_pos rfl]
        exact .bytes bytes hrunning
      · exact sessionChanges_other hsession hstep rfl hother (if_neg hother) rfl
  | appPoll other =>
      by_cases hother : other = index
      · subst hother
        exact appPoll_sessionChanges hsession hstep
      · exact sessionChanges_other hsession hstep rfl hother rfl (if_neg hother)
  | appClose other =>
      by_cases hother : other = index
      · subst hother
        obtain ⟨running, hrunning, rfl⟩ := Option.map_eq_some_iff.mp hstep
        obtain ⟨hsame, hrunning⟩ := runningSession_eq_some hrunning
        obtain rfl : running = session := Option.some.inj (hsame.symm.trans hsession)
        rw [updateSession_eq]
        exact sessionChanges_own hsession (.stop hrunning)
      · exact sessionChanges_other hsession hstep rfl hother rfl rfl
  | socksMail other =>
      by_cases hother : other = index
      · subst hother
        exact socksMail_sessionChanges hsession hstep
      · exact sessionChanges_other hsession hstep rfl hother rfl (if_neg hother)
  | clientRecv => exact clientRecv_sessionChanges hsession hstep
  | tick =>
      obtain ⟨-, ⟨-, rfl⟩ | ⟨-, rfl⟩⟩ := tick_eq_some hstep
      · exact sessionChanges_stay hsession rfl rfl rfl
      · exact sessionChanges_stay hsession rfl rfl rfl
  | clientMail =>
      cases handleClientMail_cases hstep <;> exact sessionChanges_stay hsession rfl rfl rfl
  | wait millis =>
      cases hstep
      exact sessionChanges_stay hsession rfl rfl rfl
  | _ =>
      have hclient := step_server hstep rfl
      have hsessions : next.sessions = s.sessions := congrArg ClientProcess.sessions hclient
      refine sessionChanges_stay ?_ (congrArg ClientProcess.deliveries hclient) rfl rfl
      rw [hsessions, hsession]

/-! ## Histories -/

/-- A session and what it has handled: an order of events that a session may be
given, which has led to what the session knows and has written, with nothing behind
an `Abort`. What the session was told is what it has heard, and then its mailbox as
long as it runs. -/
structure Follows (s : System) (index : Nat) (session : Session) (past : List SocksEvent) :
    Prop where
  conduct : ∃ c, Transition.run Conduct.step Conduct.start past = some c ∧
    c.codec = session.codec ∧
    (session.running = true → c.link ≠ .gone ∧ session.client.Knows c.link)
  told : ∃ unheard, s.received index = heard past ++ unheard ∧
    (session.running = true → unheard = session.inbox)
  written : session.written = past.filterMap SocksEvent.reply
  ends : untilAbort past = past

theorem follows_new {index : Nat} (port : UInt16) (hreceived : s.received index = []) :
    s.Follows index (.new port) [] where
  conduct := ⟨Conduct.start, rfl, rfl, fun _ => ⟨nofun, trivial⟩⟩
  told := ⟨[], hreceived, fun _ => rfl⟩
  written := rfl
  ends := rfl

section Follows

variable {index : Nat} {session session' : Session} {past events : List SocksEvent}
  {answers : List ConnectorResponse} {bytes : List UInt8} {now : Nat}

/-- A session that runs has not heard of the end. -/
theorem Follows.abort_not_heard (hfollows : s.Follows index session past)
    (hrunning : session.running = true) : .abort ∉ heard past := by
  obtain ⟨c, hconduct, -, hknows⟩ := hfollows.conduct
  have hgone := (hknows hrunning).1
  have hshape := Conduct.shape_of_run hconduct (rfl : Conduct.start.link.Shape [])
  rw [List.nil_append] at hshape
  cases hlink : c.link with
  | gone => exact absurd hlink hgone
  | unasked =>
      rw [hlink] at hshape
      rw [show heard past = [] from hshape]
      exact List.not_mem_nil
  | asked =>
      rw [hlink] at hshape
      rw [show heard past = [] from hshape]
      exact List.not_mem_nil
  | refused =>
      rw [hlink] at hshape
      rw [show heard past = [.failed] from hshape]
      simp
  | up =>
      rw [hlink] at hshape
      obtain ⟨chunks, hheard⟩ := hshape
      rw [hheard]
      simp

/-- So the next event is handled. -/
theorem Follows.ends_concat (hfollows : s.Follows index session past)
    (hrunning : session.running = true) (event : SocksEvent) :
    untilAbort (past ++ [event]) = past ++ [event] := by
  rw [untilAbort_append (hfollows.abort_not_heard hrunning), untilAbort, untilAbort]
  split <;> rfl

/-- Where a session that runs stands when it handles its next answer. -/
theorem Follows.hears (hfollows : s.Follows index session past) (hrunning : session.running = true)
    {msg : ConnectorResponse} {rest : List ConnectorResponse} (hinbox : session.inbox = msg :: rest)
    (htold : Told (s.received index))
    (hready : s.received index ≠ [] → session.codec = .ready) :
    ∃ c link, Transition.run Conduct.step Conduct.start past = some c ∧
      c.codec = session.codec ∧ session.client.Knows c.link ∧ c.link.hear msg = some link ∧
      (link = .gone → msg = .abort) := by
  obtain ⟨c, hrun, hcodec, hknows⟩ := hfollows.conduct
  obtain ⟨hgone, hknows⟩ := hknows hrunning
  obtain ⟨unheard, hreceived, hunheard⟩ := hfollows.told
  rw [hunheard hrunning, hinbox] at hreceived
  have hshape := Conduct.shape_of_run hrun (rfl : Conduct.start.link.Shape [])
  rw [List.nil_append] at hshape
  have hasked : c.link ≠ .unasked := by
    intro hunasked
    refine (Conduct.asks_of_run hrun).mp hunasked ?_
    rw [hcodec]
    exact hready (by simp [hreceived])
  rw [hreceived] at htold
  obtain ⟨link, hhear, habort⟩ := Link.hear_of_told hshape hasked hgone htold
  exact ⟨c, link, hrun, hcodec, hknows, hhear, habort⟩

theorem Follows.changes (hfollows : s.Follows index session past) (htold : Told (s.received index))
    (hready : s.received index ≠ [] → session.codec = .ready)
    (hreceived : next.received index = s.received index ++ answers)
    (hchanges : session.Changes now bytes events answers session') :
    next.Follows index session' (past ++ events) := by
  have hwritten := hfollows.written
  have hends := hfollows.ends
  cases hchanges with
  | stay =>
      rw [List.append_nil] at hreceived ⊢
      exact ⟨hfollows.conduct, hreceived ▸ hfollows.told, hwritten, hends⟩
  | told answer =>
      rw [List.append_nil]
      obtain ⟨unheard, hheard, hunheard⟩ := hfollows.told
      rw [Session.push]
      split
      next hrunning =>
        refine ⟨hfollows.conduct, ⟨unheard ++ [answer], ?_, fun _ => ?_⟩, hwritten, hends⟩
        · rw [hreceived, hheard, List.append_assoc]
        · rw [hunheard hrunning]
      next hstopped =>
        refine ⟨hfollows.conduct, ⟨unheard ++ [answer], ?_, fun hrunning => ?_⟩, hwritten, hends⟩
        · rw [hreceived, hheard, List.append_assoc]
        · exact absurd hrunning hstopped
  | bytes bytes hrunning =>
      rw [List.append_nil] at hreceived ⊢
      exact ⟨hfollows.conduct, hreceived ▸ hfollows.told, hwritten, hends⟩
  | @item item codec rest hrunning hdecode =>
      rw [List.append_nil] at hreceived
      obtain ⟨c, hrun, hcodec, hknows⟩ := hfollows.conduct
      obtain ⟨hgone, hknows⟩ := hknows hrunning
      have hnext := Socks5RequestCodec.decode_next hdecode
      rw [← hcodec] at hnext
      have hstep : c.step (.item item now) = some ⟨codec, c.link.ask item⟩ := by
        rw [Conduct.step, hnext]
        rfl
      refine ⟨⟨_, Transition.run_concat hrun hstep, by simp, fun _ => ⟨?_, ?_⟩⟩, ?_, ?_,
        hfollows.ends_concat hrunning _⟩
      · -- asking is not the end
        cases hlink : c.link with
        | gone => exact absurd hlink hgone
        | unasked => cases item <;> simp [Link.ask]
        | _ => simp [Link.ask]
      · rw [Session.client_after]
        exact SocksClient.knows_handleSocksRequest hknows item now
      · obtain ⟨unheard, hheard, hunheard⟩ := hfollows.told
        refine ⟨unheard, ?_, fun hafter => ?_⟩
        · rw [hreceived, hheard, heard, heard, List.filterMap_append]
          simp [SocksEvent.answer?]
        · rw [Session.inbox_after]
          exact hunheard hrunning
      · have heffect : (session.client.handleSocksRequest item now).2 =
            (SocksEvent.item item now).effect session.client.uuid := by
          cases item <;> rfl
        rw [heffect, Session.written_after, List.filterMap_append, ← hwritten]
        rfl
  | @answer msg rest client effect hrunning hinbox hhandle =>
      rw [List.append_nil] at hreceived
      obtain ⟨c, link, hrun, hcodec, hknows, hhear, habort⟩ :=
        hfollows.hears hrunning hinbox htold hready
      obtain ⟨client', hhandle', -, hknows'⟩ :=
        SocksClient.handleConnectorResponse_eq hknows hhear now
      rw [hhandle] at hhandle'
      cases hhandle'
      have hstep : c.step (.answer msg now) = some ⟨c.codec, link⟩ := by
        rw [Conduct.step, hhear]
        rfl
      refine ⟨⟨_, Transition.run_concat hrun hstep, by simp [hcodec], fun hafter => ⟨?_, ?_⟩⟩,
        ?_, ?_, hfollows.ends_concat hrunning _⟩
      · rintro rfl
        obtain rfl := habort rfl
        exact absurd rfl (Session.running_of_after _ _ hafter).2
      · rwa [Session.client_after]
      · obtain ⟨unheard, hheard, hunheard⟩ := hfollows.told
        refine ⟨rest, ?_, fun _ => by rw [Session.inbox_after]⟩
        rw [hreceived, hheard, hunheard hrunning, hinbox, heard, heard, List.filterMap_append,
          List.append_assoc]
        rfl
      · rw [Session.written_after, List.filterMap_append, ← hwritten]
        rfl
  | panic hrunning hinbox hhandle =>
      obtain ⟨c, link, hrun, hcodec, hknows, hhear, habort⟩ :=
        hfollows.hears hrunning hinbox htold hready
      obtain ⟨client, hhandle', -⟩ := SocksClient.handleConnectorResponse_eq hknows hhear now
      rw [hhandle] at hhandle'
      cases hhandle'
  | stop hrunning =>
      rw [List.append_nil] at hreceived ⊢
      obtain ⟨c, hrun, hcodec, -⟩ := hfollows.conduct
      obtain ⟨unheard, hheard, -⟩ := hfollows.told
      exact ⟨⟨c, hrun, hcodec, by simp⟩, ⟨unheard, hreceived ▸ hheard, by simp⟩, hwritten,
        hends⟩

end Follows

/-! ## Runs -/

theorem told_received (hisolated : s.relay.Isolated) {index : Nat}
    (hlives : (s.relay.track index).Lives) : Told (s.received index) := by
  rw [received_eq hisolated]
  have hprefix : (s.relay.track index).delivered.map Prod.fst <+:
      (s.relay.track index).flow.map Prod.fst := by
    rw [Track.flow, List.map_append]
    exact List.prefix_append _ _
  rcases hlives.answers with hrefused | ⟨opened, reading, chunks, -, hgranted⟩
  · exact .inl ( hprefix.trans hrefused)
  · exact .inr ⟨chunks, hprefix.trans hgranted⟩

theorem flow_of_not_asked {requests pending : Nat}
    {targets : Nat → Option (Bool × List (List UInt8))} {flow : List Answer}
    (hphase : Track.Phase false requests pending targets flow) : flow = [] := by
  cases hphase
  rfl

/-- Nobody is told anything before asking. -/
theorem received_of_not_asked (hisolated : s.relay.Isolated) {index : Nat}
    (hlives : (s.relay.track index).Lives) (hasked : (s.relay.track index).asked = false) :
    s.received index = [] := by
  have hflow : (s.relay.track index).flow = [] := by
    rw [Track.Lives, hasked] at hlives
    exact flow_of_not_asked hlives
  rw [received_eq hisolated, (List.append_eq_nil_iff.mp hflow).1, List.map_nil]

theorem track_asked {index : Nat} {session : Session}
    (hsession : s.sessions[index]? = some session) :
    (s.relay.track index).asked = decide (session.codec = .ready) := by
  simp [Relay.track, relay_peer hsession, Session.peer]

/-- Who has been told something has asked. -/
theorem ready_of_received (hisolated : s.relay.Isolated) {index : Nat} {session : Session}
    (hlives : (s.relay.track index).Lives) (hsession : s.sessions[index]? = some session)
    (hreceived : s.received index ≠ []) : session.codec = .ready := by
  by_contra hcodec
  refine hreceived (received_of_not_asked hisolated hlives ?_)
  rw [track_asked hsession, decide_eq_false hcodec]

theorem handled_of_none {index : Nat} (hsession : s.sessions[index]? = none) (event : Event) :
    s.handled index event = [] := by
  have hrunning : s.runningSession index = none := by simp [runningSession, hsession]
  cases event <;> simp [handled, hrunning]

/-- Bytes only arrive for a session that is there. -/
theorem arrives_of_none {event : Event} (hstep : s.step event = some next) {index : Nat}
    (hsession : s.sessions[index]? = none) : s.arrives index event = [] := by
  cases event with
  | appBytes other bytes =>
      obtain ⟨session, hrunning, -⟩ := Option.map_eq_some_iff.mp hstep
      refine if_neg ?_
      rintro rfl
      rw [(runningSession_eq_some hrunning).1] at hsession
      cases hsession
  | _ => rfl

/-- A session that a step adds is new. -/
theorem step_newSession {event : Event} (hstep : s.step event = some next) {index : Nat}
    {session : Session} (hnone : s.sessions[index]? = none)
    (hsession : next.sessions[index]? = some session) : ∃ port, session = .new port := by
  have hlength := List.getElem?_eq_none_iff.mp hnone
  have hsame (hsessions : next.sessions.length = s.sessions.length) :
      ∃ port, session = .new port := by
    have hlong := (List.getElem?_eq_some_iff.mp hsession).1
    omega
  cases hserver : event.isServer with
  | true =>
      exact hsame (congrArg (List.length ∘ ClientProcess.sessions) (step_server hstep hserver))
  | false =>
      cases step_clientStep hstep hserver with
      | session hown =>
          obtain ⟨running, session', mails, -, -, -, rfl⟩ := hown
          exact hsame List.length_set
      | @connect port hport =>
          obtain rfl : index = s.sessions.length := by
            have hlong := (List.getElem?_eq_some_iff.mp hsession).1
            rw [List.length_append, List.length_singleton] at hlong
            omega
          rw [List.getElem?_concat_length, Option.some.injEq] at hsession
          exact ⟨port, hsession.symm⟩
      | @deliver response tag rest receiver answer hdownstream hclient hanswer =>
          refine hsame ?_
          simpa using congrArg List.length (s.peers_pushInbox receiver answer)
      | _ => exact hsame rfl

/-- Induction over a run along the steps of one session. It starts out new, with nothing
behind it, and changes with every step. -/
theorem session_induction {index : Nat} {motive : List Event → System → Session → Prop}
    (new : ∀ {events s} (port : UInt16), run events = some s →
      s.sessions[index]? = some (.new port) → history index events = [] →
      Transition.record System.step (arrives index) .init events = [] →
      motive events s (.new port))
    (changes : ∀ {events state event next session session' answers},
      run events = some state → System.step state event = some next →
      state.sessions[index]? = some session → motive events state session →
      next.received index = state.received index ++ answers →
      session.Changes state.clock (state.arrives index event) (state.handled index event) answers
        session' →
      motive (events ++ [event]) next session')
    {events : List Event} (hrun : run events = some s) {session : Session}
    (hsession : s.sessions[index]? = some session) : motive events s session := by
  have hgeneral := Transition.run_induction
    (motive := fun (events : List Event) (s : System) =>
      (s.sessions[index]? = none → history index events = [] ∧
        Transition.record System.step (arrives index) .init events = []) ∧
      ∀ session, s.sessions[index]? = some session → motive events s session)
    ?start ?step hrun
  case start =>
    refine ⟨fun _ => ⟨rfl, rfl⟩, fun session hsession => ?_⟩
    simp [init] at hsession
  case step =>
    rintro past state event next hpast ⟨hnone, hsome⟩ hstep
    cases hbefore : state.sessions[index]? with
    | none =>
        -- without a session nothing is handled, and nothing arrives
        have hnothing : history index (past ++ [event]) = [] ∧
            Transition.record System.step (arrives index) .init (past ++ [event]) = [] := by
          obtain ⟨hhistory, harrived⟩ := hnone hbefore
          rw [history] at hhistory ⊢
          rw [Transition.record_concat _ hpast hstep, Transition.record_concat _ hpast hstep,
            hhistory, harrived, handled_of_none hbefore, arrives_of_none hstep hbefore]
          exact ⟨rfl, rfl⟩
        refine ⟨fun _ => hnothing, fun session hnew => ?_⟩
        obtain ⟨port, rfl⟩ := step_newSession hstep hbefore hnew
        exact new port (Transition.run_concat hpast hstep) hnew hnothing.1 hnothing.2
    | some before =>
        obtain ⟨answers, session', hsession', hreceived, hchanges⟩ :=
          step_sessionChanges hstep hbefore
        refine ⟨fun hgone => ?_, fun other hother => ?_⟩
        · rw [hsession'] at hgone
          cases hgone
        · obtain rfl : session' = other := Option.some.inj (hsession'.symm.trans hother)
          exact changes hpast hstep hbefore (hsome before hbefore) hreceived hchanges
  exact hgeneral.2 session hsession

/-- Every session follows its history, in every run in which a port only comes
back to a quiet connection. -/
theorem follows_of_run {events : List Event}
    (hclean : Transition.Meets System.step CleanReuse .init events)
    (hrun : System.run events = some s) {index : Nat} {session : Session}
    (hsession : s.sessions[index]? = some session) :
    s.Follows index session (history index events) := by
  refine session_induction
    (motive := fun (events : List Event) (s : System) (session : Session) =>
      Transition.Meets System.step CleanReuse .init events →
        s.Follows index session (history index events))
    ?new ?changes hrun hsession hclean
  case new =>
    intro events s port hrun hsession hhistory _ hclean
    rw [hhistory]
    apply follows_new
    apply received_of_not_asked (isolated_of_clean hclean hrun) (lives hrun index)
    rw [track_asked hsession]
    rfl
  case changes =>
    intro past state event next session session' answers hpast hstep hsession ih hreceived
      hchanges hclean
    have hbefore := hclean.of_append
    have hisolated := isolated_of_clean hbefore hpast
    have hlives := lives hpast index
    have hrecord : history index (past ++ [event]) =
        history index past ++ state.handled index event :=
      Transition.record_concat (handled index) hpast hstep
    rw [hrecord]
    exact (ih hbefore).changes (told_received hisolated hlives)
      (ready_of_received hisolated hlives hsession) hreceived hchanges

/-- What the system does to a session it may do, and the session handles it as it
does on its own: it finds recorded what it unwraps, now and with its next answer. -/
structure Safe (s : System) (session : Session) (past : List SocksEvent) : Prop where
  admits : Conduct.Admits past
  log : (SocksClient.new session.client.uuid).log past =
    some (past.map (SocksEvent.handled session.client.uuid))
  next : session.running = true → ∀ msg rest, session.inbox = msg :: rest →
    session.client.handleConnectorResponse msg s.clock ≠ none

/-- No handler of a session panics. In every run in which a port only comes back to a
quiet connection, the events of each session are in an order that a session may be
given, and it handles all of them, also the answer that waits for it. Only its decoder
can still panic at what the application sends. -/
theorem safe_of_cleanReuse (events : List Event) (s : System)
    (hclean : Transition.Meets System.step CleanReuse .init events)
    (hrun : System.run events = some s) (index : Nat) (session : Session)
    (hsession : s.sessions[index]? = some session) :
    s.Safe session (history index events) := by
  have hfollows := follows_of_run hclean hrun hsession
  obtain ⟨c, hconduct, -⟩ := hfollows.conduct
  refine ⟨Option.isSome_iff_exists.mpr ⟨c, hconduct⟩, ?_, ?_⟩
  · rw [SocksClient.log_eq (c := Conduct.start) trivial hconduct, hfollows.ends]
    rfl
  · intro hrunning msg rest hinbox hpanic
    have hisolated := isolated_of_clean hclean hrun
    have hlives := lives hrun index
    obtain ⟨c, link, -, -, hknows, hhear, -⟩ := hfollows.hears hrunning hinbox
      (told_received hisolated hlives) (ready_of_received hisolated hlives hsession)
    obtain ⟨client, hhandle, -⟩ := SocksClient.handleConnectorResponse_eq hknows hhear s.clock
    rw [hpanic] at hhandle
    cases hhandle

theorem safe_of_cleanReuse_two : ∃ s session, System.run refusedAndRead = some s ∧
    s.sessions[1]? = some session ∧ session.inbox = [.succeeded, .data [72, 105]] ∧
    (history 1 refusedAndRead).length = 2 ∧ s.Safe session (history 1 refusedAndRead) :=
  ⟨_, _, rfl, rfl, by decide, by decide, safe_of_cleanReuse refusedAndRead _
    (meets_cleanReuse (by decide) (by decide)) rfl 1 _ rfl⟩

/-- A session that gets the answer of an earlier one has no request to look back to. -/
example : (System.run reusedEarly).any (fun s => s.sessions.any fun session =>
    session.running && session.inbox.head?.any fun msg =>
      (session.client.handleConnectorResponse msg s.clock).isNone) = true := by
  decide

end System

end JustProxy
