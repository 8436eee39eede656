import JustProxy.System.Lookup
import JustProxy.System.RoundTripTime

/-! # The end of the heartbeat

A tick that comes too long after the last echo is skipped, and only an echo ends the
silence. When no echo can come back any more, because every heartbeat has come back or
because the server's process is gone, the dispatcher is silent for good. Nothing else
takes notice: it goes on forwarding what sessions send.
-/

namespace JustProxy

namespace System

variable {s next : System}

/-- The last echo is too long ago, the dispatcher has no heartbeat to send, and no echo
can reach it. -/
structure Silent (s : System) : Prop where
  overdue : heartbeatTimeout < s.clock - s.dispatcher.hb
  mailbox : ∀ mail ∈ s.clientMail, mail.message ≠ .heartbeat
  downstream : s.downstream.filterMap (·.message.response.heartbeatIndex) = []
  returned : s.serverUp = true → s.heartbeats = []

/-! ## Steps -/

/-- Only an echo moves the instant from which the silence counts. -/
theorem hb_of_step {event : Event} (hstep : s.step event = some next)
    (hechoes : s.echoes event = []) : next.dispatcher.hb = s.dispatcher.hb := by
  have hsession {index : Nat} (hsession : s.SessionStep index next) :
      next.dispatcher.hb = s.dispatcher.hb := by
    obtain ⟨session, session', mails, -, -, -, rfl⟩ := hsession
    rfl
  cases event with
  | connect port =>
      obtain ⟨-, -, rfl⟩ := connect_eq_some hstep
      rfl
  | appBytes index bytes => exact hsession (step_session hstep rfl)
  | appPoll index => exact hsession (step_session hstep rfl)
  | appClose index => exact hsession (step_session hstep rfl)
  | socksMail index => exact hsession (step_session hstep rfl)
  | tick =>
      obtain ⟨-, ⟨-, rfl⟩ | ⟨-, rfl⟩⟩ := tick_eq_some hstep
      · rfl
      · rfl
  | clientMail => cases handleClientMail_cases hstep <;> rfl
  | clientRecv =>
      cases clientRecv_cases hstep with
      | echo hup hdownstream hzero hindex hhandle =>
          simp only [echoes, hdownstream, hhandle] at hechoes
          cases hechoes
      | _ => rfl
  | wait millis =>
      cases hstep
      rfl
  | _ => exact congrArg (fun process => process.dispatcher.hb) (step_server hstep rfl)

/-- What an actor of a session asks the dispatcher to send is no heartbeat. -/
theorem mailbox_socksEffect {index : Nat} {session : Session} {effect : SocksEffect}
    (hmailbox : ∀ mail ∈ s.clientMail, mail.message ≠ .heartbeat) :
    ∀ mail ∈ (s.socksEffect index session effect).clientMail, mail.message ≠ .heartbeat := by
  cases effect with
  | write response => exact hmailbox
  | doSend request =>
      exact List.forall_mem_append.mpr ⟨hmailbox, List.forall_mem_singleton.mpr (by simp)⟩
  | stop => exact hmailbox

/-- Only a tick in time brings a heartbeat into the mailbox. -/
theorem mailbox_of_step {event : Event} (hstep : s.step event = some next)
    (htick : s.dispatcher.hbTick s.clock = false)
    (hmailbox : ∀ mail ∈ s.clientMail, mail.message ≠ .heartbeat) :
    ∀ mail ∈ next.clientMail, mail.message ≠ .heartbeat := by
  cases event with
  | connect port =>
      obtain ⟨-, -, rfl⟩ := connect_eq_some hstep
      exact hmailbox
  | appBytes index bytes =>
      obtain ⟨session, -, rfl⟩ := Option.map_eq_some_iff.mp hstep
      exact hmailbox
  | appPoll index =>
      obtain ⟨session, -, hpoll⟩ := Option.bind_eq_some_iff.mp hstep
      split at hpoll
      next item codec rest hdecode =>
        cases hpoll
        exact mailbox_socksEffect hmailbox
      next => cases hpoll
      all_goals
        cases hpoll
        exact hmailbox
  | appClose index =>
      obtain ⟨session, -, rfl⟩ := Option.map_eq_some_iff.mp hstep
      exact hmailbox
  | socksMail index =>
      obtain ⟨session, -, hmail⟩ := Option.bind_eq_some_iff.mp hstep
      split at hmail
      next => cases hmail
      next msg rest hinbox =>
        split at hmail
        next =>
          cases hmail
          exact hmailbox
        next =>
          cases hmail
          exact mailbox_socksEffect hmailbox
  | tick =>
      obtain ⟨-, ⟨hticked, -⟩ | ⟨-, rfl⟩⟩ := tick_eq_some hstep
      · rw [htick] at hticked
        cases hticked
      · exact hmailbox
  | clientMail =>
      cases handleClientMail_cases hstep with
      | request hup hmail =>
          rw [hmail] at hmailbox
          exact (List.forall_mem_cons.mp hmailbox).2
      | heartbeat hup hmail =>
          rw [hmail] at hmailbox
          exact (List.forall_mem_cons.mp hmailbox).2
  | clientRecv => cases clientRecv_cases hstep <;> exact hmailbox
  | wait millis =>
      cases hstep
      exact hmailbox
  | _ =>
      have hclient : next.clientMail = s.clientMail :=
        congrArg ClientProcess.clientMail (step_server hstep rfl)
      rwa [hclient]

/-- Without the server's process nothing new comes down the tunnel. -/
theorem downstream_of_serverDown {event : Event} (hstep : s.step event = some next)
    (hdown : s.serverUp = false) : next.downstream <:+ s.downstream := by
  have hsession {index : Nat} (hsession : s.SessionStep index next) :
      next.downstream <:+ s.downstream := by
    obtain ⟨session, session', mails, -, -, -, rfl⟩ := hsession
    exact List.suffix_refl _
  cases event with
  | connect port =>
      obtain ⟨-, -, rfl⟩ := connect_eq_some hstep
      exact List.suffix_refl _
  | appBytes index bytes => exact hsession (step_session hstep rfl)
  | appPoll index => exact hsession (step_session hstep rfl)
  | appClose index => exact hsession (step_session hstep rfl)
  | socksMail index => exact hsession (step_session hstep rfl)
  | tick =>
      obtain ⟨-, ⟨-, rfl⟩ | ⟨-, rfl⟩⟩ := tick_eq_some hstep
      · exact List.suffix_refl _
      · exact List.suffix_refl _
  | clientMail => cases handleClientMail_cases hstep <;> exact List.suffix_refl _
  | clientRecv =>
      cases clientRecv_cases hstep with
      | panic hup hdownstream hhandle => exact List.suffix_refl _
      | echo hup hdownstream hzero hindex hhandle =>
          rw [hdownstream]
          exact List.suffix_cons _ _
      | deliver hup hdownstream hzero hclient hanswer hhandle =>
          rw [hdownstream]
          exact List.suffix_cons _ _
  | serverRecv result => simp [step, serverRecv, hdown] at hstep
  | serverMail => simp [step, handleServerMail, hdown] at hstep
  | resolved index result => simp [step, resolved, hdown] at hstep
  | read index event => simp [step, read, hdown] at hstep
  | forward => simp [step, forward, hdown] at hstep
  | forwardEnds =>
      cases hstep
      exact List.suffix_refl _
  | wait millis =>
      cases hstep
      exact List.suffix_refl _

/-- An echo that is handled comes from the tunnel. -/
theorem echoes_eq_nil (hdownstream : s.downstream.filterMap
    (·.message.response.heartbeatIndex) = []) (event : Event) : s.echoes event = [] := by
  cases event with
  | clientRecv =>
      simp only [echoes]
      split
      next response tag rest hhead =>
        split
        next dispatcher rtt index hhandle =>
          rcases Server.handleProxyResponse_eq_some hhandle with
            ⟨-, index', hindex, -, -⟩ | ⟨-, session, answer, -, -, -, heq⟩
          · rw [hhead, List.filterMap_cons, hindex] at hdownstream
            cases hdownstream
          · cases heq
        next => rfl
      next => rfl
  | _ => rfl

theorem pings_eq_nil (hmailbox : ∀ mail ∈ s.clientMail, mail.message ≠ .heartbeat)
    (event : Event) : s.pings event = [] := by
  cases event with
  | clientMail =>
      simp only [pings]
      split
      next tag rest hmail =>
        rw [hmail] at hmailbox
        exact absurd rfl (List.forall_mem_cons.mp hmailbox).1
      next => rfl
  | _ => rfl

theorem Silent.step {event : Event} (hsilent : s.Silent) (hplain : s.Plain)
    (hstep : s.step event = some next) : next.Silent := by
  have hechoes := echoes_eq_nil hsilent.downstream event
  have hpings := pings_eq_nil hsilent.mailbox event
  have htick : s.dispatcher.hbTick s.clock = false :=
    decide_eq_false (not_not.mpr hsilent.overdue)
  obtain ⟨-, hqueue⟩ := step_forwards hstep hplain
  rw [hpings, hechoes, List.append_nil, List.nil_append] at hqueue
  have hreturned : next.serverUp = true → next.heartbeats = [] := by
    intro hup
    rw [← hqueue, hsilent.returned (serverUp_of_step hstep hup)]
  refine ⟨?_, mailbox_of_step hstep htick hsilent.mailbox, ?_, hreturned⟩
  · rw [hb_of_step hstep hechoes]
    have hclock := (step_keepsTime hstep).clock
    have hoverdue := hsilent.overdue
    omega
  · cases hup : s.serverUp with
    | true =>
        have hnone : next.heartbeats = [] := by rw [← hqueue, hsilent.returned hup]
        rw [heartbeats, List.filterMap_append, List.append_assoc] at hnone
        exact (List.append_eq_nil_iff.mp hnone).1
    | false =>
        obtain ⟨gone, hgone⟩ := downstream_of_serverDown hstep hup
        have hbefore := hsilent.downstream
        rw [← hgone, List.filterMap_append] at hbefore
        exact (List.append_eq_nil_iff.mp hbefore).2

/-! ## Runs -/

theorem plain_of_run {events : List Event} (hrun : run events = some s) : s.Plain :=
  Transition.run_invariant Plain (fun hplain hstep => (step_forwards hstep hplain).1)
    plain_init hrun

/-- A silent dispatcher stays silent. In no continuation of the run does it send another
heartbeat, whatever the tunnel brings. -/
theorem silent_forever (events later : List Event) (s final : System)
    (hrun : run events = some s) (hsilent : s.Silent)
    (hlater : Transition.run System.step s later = some final) :
    Transition.record System.step pings s later = [] ∧ final.Silent := by
  have hkept := Transition.run_silent pings (fun s : System => s.Silent ∧ s.Plain)
    (fun hstate hstep => ⟨pings_eq_nil hstate.1.mailbox _, hstate.1.step hstate.2 hstep,
      (step_forwards hstep hstate.2).1⟩)
    ⟨hsilent, plain_of_run hrun⟩ hlater
  exact ⟨hkept.1, hkept.2.1⟩

/-- The echo of the first heartbeat comes back, and then the client's machine sleeps. -/
def overslept : List Event := [.tick, .clientMail, .serverRecv (.accepted 0), .forward,
  .clientRecv, .wait 15001]

theorem silent_forever_overslept : ∃ s final, run overslept = some s ∧
    Transition.record System.step pings .init overslept = [1] ∧
    Transition.run System.step s (.tick :: Event.asks 5000 0 ++ [.clientMail, .tick]) =
      some final ∧
    Transition.record System.step pings s (.tick :: Event.asks 5000 0 ++ [.clientMail, .tick]) =
      [] ∧
    final.Silent :=
  ⟨_, _, rfl, rfl, rfl, silent_forever overslept _ _ _ rfl
    ⟨by decide, fun _ hmem => absurd hmem List.not_mem_nil, rfl, fun _ => rfl⟩ rfl⟩

end System

end JustProxy
