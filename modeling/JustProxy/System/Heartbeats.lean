import JustProxy.System.Steps

/-! # Heartbeats

The dispatcher numbers its heartbeats and the server echoes them. On their way
they may pass other messages, but not one another: echoes return in the order in
which the heartbeats were sent, each once.
-/

namespace JustProxy

def ProxyTransfer.heartbeatIndex : ProxyTransfer → Option UInt32
  | .heartbeat index => some index
  | _ => none

theorem ProxyTransfer.heartbeatIndex_of_fromSession {transfer : ProxyTransfer}
    (hsession : transfer.fromSession = true) : transfer.heartbeatIndex = none := by
  cases transfer with
  | heartbeat index => cases hsession
  | _ => rfl

theorem ProxyTransfer.heartbeatIndex_of_fromTarget {transfer : ProxyTransfer}
    (htarget : transfer.fromTarget = true) : transfer.heartbeatIndex = none := by
  cases transfer with
  | heartbeat index => cases htarget
  | _ => rfl

/-- No mail of the server makes an echo. -/
theorem ServerMail.Plain.heartbeatIndex {mail : ServerMail Nat} (hplain : mail.Plain) :
    mail.toResponse.response.heartbeatIndex = none := by
  cases mail with
  | proxyResponse response => exact ProxyTransfer.heartbeatIndex_of_fromTarget hplain
  | connectionDead uuid => rfl
  | connectionEstablished uuid writer => rfl

namespace System

variable {s next : System}

/-- Both mailboxes carry what sessions, resolvers and readers put there. -/
structure Plain (s : System) : Prop where
  clientMail : ∀ mail ∈ s.clientMail, mail.message.Plain
  serverMail : ∀ mail ∈ s.serverMail, mail.message.Plain

/-- The heartbeats between the dispatcher and itself: echoes on their way back,
and then what the server has still to echo. -/
def heartbeats (s : System) : List UInt32 :=
  (s.downstream ++ s.outQueue).filterMap (·.message.response.heartbeatIndex) ++
    s.upstream.filterMap (·.message.request.heartbeatIndex)

/-- The index of the heartbeat that the dispatcher sends in a step. -/
def pings (s : System) : Event → List UInt32
  | .clientMail =>
      match s.clientMail with
      | ⟨.heartbeat, _⟩ :: _ =>
          ((s.dispatcher.handleHeartbeat s.clock).2.request.heartbeatIndex).toList
      | _ => []
  | _ => []

/-- The index of the echo that the dispatcher handles in a step. -/
def echoes (s : System) : Event → List UInt32
  | .clientRecv =>
      match s.downstream with
      | ⟨response, _⟩ :: _ =>
          match s.dispatcher.handleProxyResponse response s.clock with
          | some (_, .heartbeat _ index) => [index]
          | _ => []
      | [] => []
  | _ => []

/-- A step keeps the mailboxes plain and the heartbeats in their order. -/
def Forwards (s : System) (event : Event) (next : System) : Prop :=
  s.Plain → next.Plain ∧ s.heartbeats ++ s.pings event = s.echoes event ++ next.heartbeats

/-- The queues that messages pass through. -/
def queues (s : System) : List (Tagged ClientMail) × List (Tagged ProxyRequest) ×
    List (Tagged ProxyResponse) × List (Tagged ProxyResponse) ×
    List (Tagged (ServerMail Nat)) :=
  (s.clientMail, s.upstream, s.downstream, s.outQueue, s.serverMail)

/-- A step that moves no message. -/
theorem forwards_of_queues_eq {event : Event} (hqueues : next.queues = s.queues)
    (hpings : s.pings event = []) (hechoes : s.echoes event = []) : s.Forwards event next := by
  simp only [queues, Prod.mk.injEq] at hqueues
  obtain ⟨hclient, hup, hdown, hout, hserver⟩ := hqueues
  intro hplain
  refine ⟨⟨hclient ▸ hplain.clientMail, hserver ▸ hplain.serverMail⟩, ?_⟩
  simp only [heartbeats, hpings, hechoes, hup, hdown, hout, List.append_nil, List.nil_append]

theorem sessionStep_forwards {event : Event} {index : Nat} (hstep : s.SessionStep index next)
    (hpings : s.pings event = []) (hechoes : s.echoes event = []) : s.Forwards event next := by
  obtain ⟨session, session', mails, -, -, hmails, rfl⟩ := hstep
  intro hplain
  refine ⟨⟨List.forall_mem_append.mpr ⟨hplain.clientMail, hmails⟩, hplain.serverMail⟩, ?_⟩
  rw [hpings, hechoes, List.append_nil]
  rfl

theorem tick_forwards (hstep : s.tick = some next) : s.Forwards .tick next := by
  obtain ⟨-, ⟨-, rfl⟩ | ⟨-, rfl⟩⟩ := tick_eq_some hstep
  · intro hplain
    refine ⟨⟨List.forall_mem_append.mpr ⟨hplain.clientMail,
      List.forall_mem_singleton.mpr trivial⟩, hplain.serverMail⟩, ?_⟩
    exact List.append_nil _
  · exact forwards_of_queues_eq rfl rfl rfl

theorem handleClientMail_forwards (hstep : s.handleClientMail = some next) :
    s.Forwards .clientMail next := by
  intro hplain
  have hclient := hplain.clientMail
  cases handleClientMail_cases hstep with
  | request hup hmail =>
      rw [hmail] at hclient
      obtain ⟨hfirst, hrest⟩ := List.forall_mem_cons.mp hclient
      refine ⟨⟨hrest, hplain.serverMail⟩, ?_⟩
      -- a session's request is no heartbeat
      have hindex := ProxyTransfer.heartbeatIndex_of_fromSession hfirst
      simp [heartbeats, pings, echoes, hmail, hindex]
  | heartbeat hup hmail =>
      rw [hmail] at hclient
      refine ⟨⟨(List.forall_mem_cons.mp hclient).2, hplain.serverMail⟩, ?_⟩
      simp [heartbeats, pings, echoes, hmail, Server.handleHeartbeat, ProxyRequest.new,
        ProxyTransfer.heartbeatIndex]

theorem clientRecv_forwards (hstep : s.clientRecv = some next) :
    s.Forwards .clientRecv next := by
  cases clientRecv_cases hstep with
  | panic hup hdownstream hhandle =>
      have hechoes : s.echoes .clientRecv = [] := by
        simp only [echoes, hdownstream, hhandle]
      exact forwards_of_queues_eq rfl rfl hechoes
  | echo hup hdownstream hzero hindex hhandle =>
      intro hplain
      refine ⟨⟨hplain.clientMail, hplain.serverMail⟩, ?_⟩
      simp [heartbeats, pings, echoes, hdownstream, hhandle, hindex, ProxyTransfer.heartbeatIndex]
  | @deliver response tag rest index answer hup hdownstream hzero hclient hanswer hhandle =>
      intro hplain
      refine ⟨⟨hplain.clientMail, hplain.serverMail⟩, ?_⟩
      -- what a session is told is no echo
      have hindex : response.response.heartbeatIndex = none := by
        cases hresponse : response.response with
        | heartbeat index' =>
            rw [hresponse] at hanswer
            cases hanswer
        | _ => rfl
      simp [heartbeats, pings, echoes, hdownstream, hhandle, hindex]

theorem serverStep_forwards {event : Event} (hstep : s.ServerStep next)
    (hpings : s.pings event = []) (hechoes : s.echoes event = []) : s.Forwards event next := by
  intro hplain
  rw [hpings, hechoes, List.append_nil, List.nil_append]
  cases hstep with
  | @mail mail tag rest server hmail hentries =>
      have hserver := hplain.serverMail
      rw [hmail] at hserver
      obtain ⟨hfirst, hrest⟩ := List.forall_mem_cons.mp hserver
      refine ⟨⟨hplain.clientMail, hrest⟩, ?_⟩
      have hindex : mail.toResponse.response.heartbeatIndex = none := hfirst.heartbeatIndex
      simp [heartbeats, hindex]
  | echo hupstream hindex =>
      refine ⟨⟨hplain.clientMail, hplain.serverMail⟩, ?_⟩
      simp [heartbeats, hupstream, hindex, ProxyResponse.new, ProxyTransfer.heartbeatIndex]
  | request hupstream hsession hentries =>
      refine ⟨⟨hplain.clientMail, hplain.serverMail⟩, ?_⟩
      have hindex := ProxyTransfer.heartbeatIndex_of_fromSession hsession
      simp [heartbeats, hupstream, hindex]
  | post hmails =>
      exact ⟨⟨hplain.clientMail, List.forall_mem_append.mpr ⟨hplain.serverMail, hmails⟩⟩, rfl⟩
  | forward hout =>
      refine ⟨⟨hplain.clientMail, hplain.serverMail⟩, ?_⟩
      simp [heartbeats, hout]
  | quiet hconnections => exact ⟨⟨hplain.clientMail, hplain.serverMail⟩, rfl⟩

theorem step_forwards {event : Event} (hstep : s.step event = some next) :
    s.Forwards event next := by
  cases event with
  | connect port =>
      obtain ⟨-, -, rfl⟩ := connect_eq_some hstep
      exact forwards_of_queues_eq rfl rfl rfl
  | appBytes index bytes => exact sessionStep_forwards (step_session hstep rfl) rfl rfl
  | appPoll index => exact sessionStep_forwards (step_session hstep rfl) rfl rfl
  | appClose index => exact sessionStep_forwards (step_session hstep rfl) rfl rfl
  | socksMail index => exact sessionStep_forwards (step_session hstep rfl) rfl rfl
  | tick => exact tick_forwards hstep
  | clientMail => exact handleClientMail_forwards hstep
  | clientRecv => exact clientRecv_forwards hstep
  | wait millis =>
      cases hstep
      exact forwards_of_queues_eq rfl rfl rfl
  | _ => exact serverStep_forwards (step_serverStep hstep rfl) rfl rfl

theorem plain_init : init.Plain := ⟨by simp [init], by simp [init]⟩

/-- Heartbeats return in the order in which they were sent, each once. -/
theorem pings_eq {events : List Event} (hrun : run events = some s) :
    Transition.record step pings .init events =
      Transition.record step echoes .init events ++ s.heartbeats :=
  Transition.run_queue heartbeats Plain (fun hplain hstep => step_forwards hstep hplain)
    plain_init hrun

end System

end JustProxy
