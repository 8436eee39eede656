import JustProxy.Component.Reader
import JustProxy.Foundation.Transition

/-! # The end of the forwarding task

A separate task takes the replies out of the output queue. When it ends, the
queue loses its receiver; the actor is not told and goes on handling what it is
given, from the mailbox and from the tunnel, in any order.
-/

namespace JustProxy

/-- What happens to the actor, one at a time. -/
inductive ServerWork (Writer : Type) where
  | mail (mail : ServerMail Writer)
  /-- A request from the tunnel, with the answer of the target socket. -/
  | request (item : ProxyRequest) (result : WriteResult)
  /-- The task that writes the queue into the tunnel ends. -/
  | forwardEnds
  deriving DecidableEq

/-- The reply that handling something queues. -/
def ServerWork.reply {Writer : Type} : ServerWork Writer → Option ProxyResponse
  | .mail message => some message.queued
  | .request item _ =>
      match item.request with
      | .heartbeat index => some (.new item.uuid (.heartbeat index))
      | _ => none
  | .forwardEnds => none

namespace ProxyClient

variable {Writer : Type}

/-- The actor that is started for a tunnel. -/
def create : ProxyClient Writer := ⟨true, fun _ => none⟩

def handle (self : ProxyClient Writer) : ServerWork Writer → Reaction Writer
  | .mail mail => self.handleMail mail
  | .request item result => self.handleProxyRequest item result
  | .forwardEnds => some ({ self with receiving := false }, [])

def step (self : ProxyClient Writer) (work : ServerWork Writer) : Option (ProxyClient Writer) :=
  (self.handle work).map Prod.fst

/-- A handler panics, and would not if the queue still had its receiver. -/
def PanicsOnSend (self : ProxyClient Writer) (work : ServerWork Writer) : Prop :=
  self.handle work = none ∧ ({ self with receiving := true }).handle work ≠ none

/-- In no step of a run does a handler panic on sending its reply. -/
def NoSendPanic (events : List (ServerWork Writer)) : Prop :=
  ∀ before work after self, events = before ++ work :: after →
    Transition.run step create before = some self → ¬ self.PanicsOnSend work

/-- Nothing that is handled behind the end of the forwarding task queues a reply. -/
def QuietAfterEnd (events : List (ServerWork Writer)) : Prop :=
  ∀ before work after, events = before ++ work :: after →
    (Transition.run step (create : ProxyClient Writer) before).isSome →
    .forwardEnds ∈ before → work.reply = none

/-! ## One handler -/

theorem unboundedSend_eq_none_iff (self : ProxyClient Writer) (response : ProxyResponse) :
    self.unboundedSend response = none ↔ self.receiving = false := by
  unfold unboundedSend
  split
  next hreceiving => simp [hreceiving]
  next hreceiving => simpa using hreceiving

theorem handleMail_eq_none_iff (self : ProxyClient Writer) (mail : ServerMail Writer) :
    self.handleMail mail = none ↔ self.receiving = false := by
  cases mail with
  | proxyResponse response => exact unboundedSend_eq_none_iff _ _
  | connectionDead uuid => exact unboundedSend_eq_none_iff _ _
  | connectionEstablished uuid writer => exact unboundedSend_eq_none_iff _ _

/-- The handlers that queue a reply are the ones that a lost receiver makes panic. -/
theorem panicsOnSend_iff (self : ProxyClient Writer) (work : ServerWork Writer) :
    self.PanicsOnSend work ↔ self.receiving = false ∧ work.reply ≠ none := by
  cases work with
  | mail mail =>
      rw [PanicsOnSend, handle, handle, handleMail_eq_none_iff, ne_eq, handleMail_eq_none_iff]
      simp [ServerWork.reply]
  | request item result =>
      obtain ⟨uuid, transferLen, transferType, transfer⟩ := item
      cases transfer with
      | requestAddr addr => simp [PanicsOnSend, handle, handleProxyRequest, ServerWork.reply]
      | data bytes =>
          -- the receiver is not looked at
          cases hconn : self.connections uuid <;>
            simp [PanicsOnSend, handle, handleProxyRequest, handleData, ServerWork.reply, hconn]
      | response kind => simp [PanicsOnSend, handle, handleProxyRequest, ServerWork.reply]
      | heartbeat index =>
          simp only [PanicsOnSend, handle, handleProxyRequest, ne_eq, unboundedSend_eq_none_iff]
          simp [ServerWork.reply]
  | forwardEnds => simp [PanicsOnSend, handle, ServerWork.reply]

/-- Only the end of the forwarding task takes the receiver away. -/
theorem receiving_of_step {self next : ProxyClient Writer} {work : ServerWork Writer}
    (hstep : self.step work = some next) :
    next.receiving = false ↔ work = .forwardEnds ∨ self.receiving = false := by
  obtain ⟨⟨next, effects⟩, hhandle, rfl⟩ := Option.map_eq_some_iff.mp hstep
  cases work with
  | mail mail => simp [receiving_of_handleMail hhandle]
  | request item result => simp [receiving_of_handleProxyRequest hhandle]
  | forwardEnds =>
      cases hhandle
      simp

/-! ## Runs -/

/-- The receiver is gone exactly when the forwarding task has ended. -/
theorem receiving_of_run {self final : ProxyClient Writer} {events : List (ServerWork Writer)}
    (hrun : Transition.run step self events = some final) :
    final.receiving = false ↔ .forwardEnds ∈ events ∨ self.receiving = false := by
  induction events generalizing self with
  | nil =>
      cases hrun
      simp
  | cons work rest ih =>
      obtain ⟨next, hnext, hrest⟩ := Transition.run_cons.mp hrun
      rw [ih hrest, receiving_of_step hnext, List.mem_cons]
      tauto

/-- A broken tunnel makes the actor panic exactly when it is then given something
to reply to. -/
theorem noSendPanic_iff (events : List (ServerWork Writer)) :
    NoSendPanic events ↔ QuietAfterEnd events := by
  constructor
  · intro hpanic before work after hevents hbefore hended
    obtain ⟨self, hself⟩ := Option.isSome_iff_exists.mp hbefore
    have hgone := (receiving_of_run hself).mpr (.inl hended)
    by_contra hreply
    exact hpanic before work after self hevents hself
      ((self.panicsOnSend_iff work).mpr ⟨hgone, hreply⟩)
  · intro hquiet before work after self hevents hself hpanic
    obtain ⟨hgone, hreply⟩ := (self.panicsOnSend_iff work).mp hpanic
    rcases (receiving_of_run hself).mp hgone with hended | hnever
    · exact hreply (hquiet before work after hevents (by rw [hself]; rfl) hended)
    · cases hnever

/-- The tunnel breaks while a connect is under way, and the connect succeeds. -/
theorem established_after_end_panics :
    ¬ NoSendPanic [.request (.new 7 (.requestAddr "127.0.0.1:80")) (.accepted 0), .forwardEnds,
      .mail (resolverCallback 7 (.connected ()))] := by
  intro hpanic
  refine hpanic [.request (.new 7 (.requestAddr "127.0.0.1:80")) (.accepted 0), .forwardEnds] _
    [] _ rfl rfl ?_
  rw [panicsOnSend_iff]
  exact ⟨rfl, nofun⟩

end ProxyClient

end JustProxy
