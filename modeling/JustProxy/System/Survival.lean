import JustProxy.Component.ClosedQueue
import JustProxy.System.Lookup

/-! # What the arbiter of a tunnel dies of

A panic of a handler ends the arbiter that serves the tunnel, not the server as a
whole. There are two causes: payload for a uuid that has no connection, and a reply
after the task that writes into the tunnel has ended. Nothing else that a client
sends, a target sends or a resolver answers makes a handler panic.
-/

namespace JustProxy

namespace ProxyClient

variable {Writer : Type}

/-- Payload for a uuid that the actor has no connection for. -/
def Unknown (self : ProxyClient Writer) : ServerWork Writer → Prop
  | .request item _ => item.request.isData = true ∧ self.connections item.uuid = none
  | _ => False

/-- What a handler panics at, when no request is a response. -/
theorem handle_eq_none_iff (self : ProxyClient Writer) {work : ServerWork Writer}
    (hhonest : ∀ item result, work = .request item result →
      ∀ kind, item.request ≠ .response kind) :
    self.handle work = none ↔
      self.Unknown work ∨ self.receiving = false ∧ work.reply ≠ none := by
  cases work with
  | mail mail =>
      rw [handle, handleMail_eq_none_iff]
      simp [Unknown, ServerWork.reply]
  | request item result =>
      obtain ⟨uuid, transferLen, transferType, transfer⟩ := item
      cases transfer with
      | requestAddr addr =>
          simp [handle, handleProxyRequest, Unknown, ProxyTransfer.isData, ServerWork.reply]
      | data bytes =>
          cases hconn : self.connections uuid <;>
            simp [handle, handleProxyRequest, handleData, Unknown, ProxyTransfer.isData,
              ServerWork.reply, hconn]
      | response kind => exact absurd rfl (hhonest _ _ rfl kind)
      | heartbeat index =>
          simp only [handle, handleProxyRequest, unboundedSend_eq_none_iff]
          simp [Unknown, ProxyTransfer.isData, ServerWork.reply]
  | forwardEnds => simp [handle, Unknown, ServerWork.reply]

end ProxyClient

/-- Only a session that sends brings payload in. -/
theorem Relay.Step.carriesData_of_ne_send {r next : Relay} {action : Action}
    (hstep : Relay.Step r action next) (hsend : ∀ uuid, action ≠ .send uuid) {uuid : UInt16}
    (hcarries : CarriesData next.requests uuid) : CarriesData r.requests uuid := by
  have hrest {head : Tagged ProxyRequest} {rest : List (Tagged ProxyRequest)}
      (hrequests : r.requests = head :: rest) (hrest : CarriesData rest uuid) :
      CarriesData r.requests uuid :=
    hrequests ▸ carriesData_cons.mpr (.inr hrest)
  cases hstep with
  | ask addr hpeer hrunning hasked =>
      rcases carriesData_append.mp hcarries with hold | hnew
      · exact hold
      · simp [CarriesData, ProxyRequest.new, ProxyTransfer.isData] at hnew
  | send data hpeer hasked => exact absurd rfl (hsend _)
  | ping index hrequests =>
      rw [hrequests]
      simpa [carriesData_append, carriesData_cons, ProxyRequest.new, ProxyTransfer.isData]
        using hcarries
  | dial hrequests haddr => exact hrest hrequests hcarries
  | write hrequests hdata => exact hrest hrequests hcarries
  | writeFails hrequests hdata => exact hrest hrequests hcarries
  | pong hrequests hindex hresponses => exact hrest hrequests hcarries
  | _ => exact hcarries

namespace System

variable {s next : System}

/-- What the server's actor handles in an event. -/
def serverWork (s : System) : Event → Option (ServerWork Nat)
  | .serverRecv result => s.upstream.head?.map fun request => .request request.message result
  | .serverMail => s.serverMail.head?.map fun mail => .mail mail.message
  | .forwardEnds => some .forwardEnds
  | _ => none

/-- The server's actor is about to handle what it panics at: payload without a
connection, or something to reply to when no task takes replies any more. -/
def Fatal (s : System) (event : Event) : Prop :=
  ∃ work, s.serverWork event = some work ∧
    (s.server.Unknown work ∨ s.server.receiving = false ∧ work.reply ≠ none)

/-! ## Steps -/

/-- Effects do not touch the actor's own state. -/
theorem foldl_server (tag : Tag) (effects : List (ServerEffect Nat)) (s : System) :
    (effects.foldl (serverEffect tag) s).server = s.server ∧
      (effects.foldl (serverEffect tag) s).serverUp = s.serverUp := by
  induction effects generalizing s with
  | nil => exact ⟨rfl, rfl⟩
  | cons effect rest ih =>
      rw [List.foldl_cons, (ih _).1, (ih _).2]
      cases effect <;> exact ⟨rfl, rfl⟩

theorem serverUp_react {handled : System} {tag : Tag} (reaction : ProxyClient.Reaction Nat)
    (hup : handled.serverUp = true) :
    (s.react tag handled reaction).serverUp = false ↔ reaction = none := by
  cases reaction with
  | none => simp [react]
  | some reaction => simp [react, foldl_server, hup]

/-- The arbiter ends with a step in which a handler panics. -/
theorem serverDown_iff_handle {event : Event} (hstep : s.step event = some next)
    (hup : s.serverUp = true) :
    next.serverUp = false ↔
      ∃ work, s.serverWork event = some work ∧ s.server.handle work = none := by
  have hclient (hserver : event.isServer = false) : next.serverUp = true :=
    (congrArg ServerProcess.serverUp (step_client hstep hserver)).trans hup
  cases event with
  | serverRecv result =>
      obtain ⟨-, request, tag, rest, hupstream, rfl⟩ := serverRecv_eq_some hstep
      rw [serverUp_react]
      · simp [serverWork, hupstream, ProxyClient.handle]
      · exact hup
  | serverMail =>
      obtain ⟨-, mail, tag, rest, hmail, rfl⟩ := handleServerMail_eq_some hstep
      rw [serverUp_react]
      · simp [serverWork, hmail, ProxyClient.handle]
      · exact hup
  | forwardEnds =>
      cases hstep
      simp [serverWork, ProxyClient.handle, hup]
  | resolved index result =>
      obtain ⟨-, before, uuid, addr, tag, after, -, rfl⟩ := resolved_eq_some hstep
      simp [serverWork, hup]
  | read index event =>
      obtain ⟨-, target, changed, -, -, -, rfl⟩ := read_eq_some hstep
      simp [serverWork, hup]
  | forward =>
      obtain ⟨-, -, response, rest, -, rfl⟩ := forward_eq_some hstep
      simp [serverWork, hup]
  | _ => simp [serverWork, hclient rfl]

theorem serverDown_iff {event : Event} (hstep : s.step event = some next)
    (hup : s.serverUp = true) (hhonest : s.relay.Honest) :
    next.serverUp = false ↔ s.Fatal event := by
  rw [serverDown_iff_handle hstep hup, Fatal]
  refine exists_congr fun work => and_congr_right fun hwork => ?_
  refine s.server.handle_eq_none_iff ?_
  rintro item result rfl kind
  -- what the actor is given comes from the tunnel
  cases event with
  | serverRecv other =>
      obtain ⟨request, hhead, hrequest⟩ := Option.map_eq_some_iff.mp hwork
      obtain ⟨rfl, -⟩ := ServerWork.request.inj hrequest
      refine hhonest request (List.mem_append.mpr (.inl ?_)) kind
      exact List.mem_of_mem_head? hhead
  | serverMail =>
      obtain ⟨mail, -, hmail⟩ := Option.map_eq_some_iff.mp hwork
      cases hmail
  | forwardEnds => cases hwork
  | _ => cases hwork

/-- Only the end of the forwarding task takes the queue's receiver away. -/
theorem receiving_react {handled : System} {tag : Tag} {reaction : ProxyClient.Reaction Nat}
    (hreceiving : ∀ server effects, reaction = some (server, effects) →
      server.receiving = s.server.receiving) :
    (s.react tag handled reaction).server.receiving = s.server.receiving := by
  cases reaction with
  | none => rfl
  | some reaction =>
      simp only [react]
      rw [(foldl_server tag _ _).1]
      exact hreceiving reaction.1 reaction.2 rfl

/-- Only the end of the forwarding task takes the queue's receiver away. -/
theorem receiving_of_step {event : Event} (hstep : s.step event = some next)
    (hevent : event ≠ .forwardEnds) : next.server.receiving = s.server.receiving := by
  have hclient (hserver : event.isServer = false) :
      next.server.receiving = s.server.receiving :=
    congrArg (fun process => process.server.receiving) (step_client hstep hserver)
  cases event with
  | serverRecv result =>
      obtain ⟨-, request, tag, rest, -, rfl⟩ := serverRecv_eq_some hstep
      exact receiving_react fun _ _ => ProxyClient.receiving_of_handleProxyRequest
  | serverMail =>
      obtain ⟨-, mail, tag, rest, -, rfl⟩ := handleServerMail_eq_some hstep
      exact receiving_react fun _ _ => ProxyClient.receiving_of_handleMail
  | resolved index result =>
      obtain ⟨-, before, uuid, addr, tag, after, -, rfl⟩ := resolved_eq_some hstep
      rfl
  | read index event =>
      obtain ⟨-, target, changed, -, -, -, rfl⟩ := read_eq_some hstep
      rfl
  | forward =>
      obtain ⟨-, -, response, rest, -, rfl⟩ := forward_eq_some hstep
      rfl
  | forwardEnds => exact absurd rfl hevent
  | _ => exact hclient rfl

/-! ## Runs -/

theorem honest_of_run {events : List Event} (hrun : run events = some s) : s.relay.Honest :=
  Transition.run_invariant (fun s => s.relay.Honest) honest_of_step
    (by simp [Relay.Honest, init, relay, requests]) hrun

/-- The arbiter of the tunnel is there behind a run exactly when no step of the run was
fatal: there is no third way in which its actor's handlers end it. -/
theorem serverUp_iff (events : List Event) (s : System) (hrun : run events = some s) :
    s.serverUp = true ↔
      Transition.Meets step (fun s event => ¬ s.Fatal event) .init events := by
  refine Transition.run_induction
    (motive := fun (events : List Event) (s : System) =>
      (s.serverUp = true ↔
        Transition.Meets step (fun s event => ¬ s.Fatal event) .init events))
    ?start ?step hrun
  case start => exact ⟨fun _ => trivial, fun _ => rfl⟩
  case step =>
    intro events s event next hrun ih hstep
    rw [Transition.meets_concat hrun hstep, ← ih]
    constructor
    · intro hup
      have hbefore := serverUp_of_step hstep hup
      refine ⟨hbefore, fun hfatal => ?_⟩
      have hdown := (serverDown_iff hstep hbefore (honest_of_run hrun)).mpr hfatal
      rw [hup] at hdown
      cases hdown
    · rintro ⟨hup, hfatal⟩
      by_contra hdown
      rw [Bool.not_eq_true] at hdown
      exact hfatal ((serverDown_iff hstep hup (honest_of_run hrun)).mp hdown)

theorem serverUp_iff_eager : ∃ s, run (eager ++ [.serverRecv (.accepted 1)]) = some s ∧
    s.serverUp = false ∧ (s.serverUp = true ↔ Transition.Meets step
      (fun s event => ¬ s.Fatal event) .init (eager ++ [.serverRecv (.accepted 1)])) :=
  ⟨_, rfl, rfl, serverUp_iff _ _ rfl⟩

end System

end JustProxy
