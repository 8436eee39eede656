import JustProxy.System.Refinement

/-! # The life of a request

What the relay holds that one session has caused: its request, the pending
connect, the target, and the responses on their way and delivered. Every step
moves each session's share by at most one simple move, and the moves only lead
through the phases of one connection.
-/

namespace JustProxy

/-! ## Tracks -/

/-- A response with the target it was read from, if it was read from one. -/
abbrev Answer := ConnectorResponse × Option Nat

/-- The share of one session. A target is whether its reader reads, and what it
has read. -/
@[ext] structure Track where
  asked : Bool
  running : Bool
  requests : Nat
  pending : Nat
  targets : Nat → Option (Bool × List (List UInt8))
  delivered : List Answer
  inFlight : List Answer

namespace Track

/-- What one step may do to the share of a session that exists. -/
inductive Move (t : Track) : Track → Prop where
  | stay : Move t t
  | ask (hrunning : t.running = true) (hasked : t.asked = false) :
      Move t { t with asked := true, requests := t.requests + 1 }
  | stop : Move t { t with running := false }
  | dial {count : Nat} (hrequests : t.requests = count + 1) :
      Move t { t with requests := count, pending := t.pending + 1 }
  | opened {count : Nat} (index : Nat) (hpending : t.pending = count + 1)
      (hindex : t.targets index = none) :
      Move t { t with
        pending := count
        targets := Function.update t.targets index (some (true, []))
        inFlight := t.inFlight ++ [(.succeeded, none)] }
  | refused {count : Nat} (hpending : t.pending = count + 1) :
      Move t { t with pending := count, inFlight := t.inFlight ++ [(.failed, none)] }
  | chunk {index : Nat} {chunks : List (List UInt8)} (bytes : List UInt8)
      (htarget : t.targets index = some (true, chunks)) :
      Move t { t with
        targets := Function.update t.targets index (some (true, chunks ++ [bytes]))
        inFlight := t.inFlight ++ [(.data bytes, some index)] }
  | finish {index : Nat} {chunks : List (List UInt8)}
      (htarget : t.targets index = some (true, chunks)) :
      Move t { t with targets := Function.update t.targets index (some (false, chunks)) }
  | fail {index : Nat} {chunks : List (List UInt8)}
      (htarget : t.targets index = some (true, chunks)) :
      Move t { t with
        targets := Function.update t.targets index (some (false, chunks))
        inFlight := t.inFlight ++ [(.abort, some index)] }
  | deliver {answer : Answer} {rest : List Answer} (hflight : t.inFlight = answer :: rest) :
      Move t { t with delivered := t.delivered ++ [answer], inFlight := rest }

theorem Move.same {t t' : Track} (heq : t' = t) : Move t t' := heq ▸ .stay

theorem Move.of_eq {t t' t'' : Track} (hmove : Move t t') (heq : t'' = t') : Move t t'' :=
  heq ▸ hmove

/-- Everything the session has been or will be told so far. -/
def flow (t : Track) : List Answer := t.delivered ++ t.inFlight

/-- The only target, whether it is read, and its chunks. -/
def single (index : Nat) (reading : Bool) (chunks : List (List UInt8)) :
    Nat → Option (Bool × List (List UInt8)) :=
  Function.update (fun _ => none) index (some (reading, chunks))

/-- What is told of an established connection. -/
def established (index : Nat) (chunks : List (List UInt8)) : List Answer :=
  (.succeeded, none) :: chunks.map fun chunk => (.data chunk, some index)

/-- The phases of a connection: whether the session has asked, the requests and
connects on their way, the targets, and what is told. -/
inductive Phase : Bool → Nat → Nat → (Nat → Option (Bool × List (List UInt8))) →
    List Answer → Prop where
  | idle : Phase false 0 0 (fun _ => none) []
  | requested : Phase true 1 0 (fun _ => none) []
  | connecting : Phase true 0 1 (fun _ => none) []
  | refused : Phase true 0 0 (fun _ => none) [(.failed, none)]
  | streaming (index : Nat) (chunks : List (List UInt8)) :
      Phase true 0 0 (single index true chunks) (established index chunks)
  | ended (index : Nat) (chunks : List (List UInt8)) :
      Phase true 0 0 (single index false chunks) (established index chunks)
  | dead (index : Nat) (chunks : List (List UInt8)) :
      Phase true 0 0 (single index false chunks)
        (established index chunks ++ [(.abort, some index)])

def Lives (t : Track) : Prop := Phase t.asked t.requests t.pending t.targets t.flow

theorem single_eq_some {index other : Nat} {reading : Bool} {chunks : List (List UInt8)}
    {target : Bool × List (List UInt8)}
    (htarget : single index reading chunks other = some target) :
    other = index ∧ target = (reading, chunks) := by
  by_cases hother : other = index
  · subst hother
    simpa [single, eq_comm] using htarget
  · simp [single, hother] at htarget

theorem update_single (index : Nat) (reading reading' : Bool)
    (chunks chunks' : List (List UInt8)) :
    Function.update (single index reading chunks) index (some (reading', chunks')) =
      single index reading' chunks' :=
  Function.update_idem _ _ _

theorem established_append (index : Nat) (chunks : List (List UInt8)) (bytes : List UInt8) :
    established index chunks ++ [(.data bytes, some index)] =
      established index (chunks ++ [bytes]) := by
  simp [established]

namespace Phase

variable {asked : Bool} {requests pending count index : Nat} {chunks : List (List UInt8)}
  {targets : Nat → Option (Bool × List (List UInt8))} {flow : List Answer}

theorem ask (hphase : Phase false requests pending targets flow) :
    Phase true (requests + 1) pending targets flow := by
  cases hphase
  exact .requested

theorem dial (hphase : Phase asked (count + 1) pending targets flow) :
    Phase asked count (pending + 1) targets flow := by
  cases hphase
  exact .connecting

theorem opened (hphase : Phase asked requests (count + 1) targets flow) :
    Phase asked requests count (Function.update targets index (some (true, [])))
      (flow ++ [(.succeeded, none)]) := by
  cases hphase
  exact .streaming index []

theorem refuse (hphase : Phase asked requests (count + 1) targets flow) :
    Phase asked requests count targets (flow ++ [(.failed, none)]) := by
  cases hphase
  exact .refused

/-- A target that is still read is the target of a streaming connection. -/
theorem of_reading (hphase : Phase asked requests pending targets flow)
    (htarget : targets index = some (true, chunks)) :
    asked = true ∧ requests = 0 ∧ pending = 0 ∧ targets = single index true chunks ∧
      flow = established index chunks := by
  cases hphase with
  | streaming other others =>
      obtain ⟨rfl, heq⟩ := single_eq_some htarget
      cases heq
      exact ⟨rfl, rfl, rfl, rfl, rfl⟩
  | ended other others => cases (single_eq_some htarget).2
  | dead other others => cases (single_eq_some htarget).2
  | idle => cases htarget
  | requested => cases htarget
  | connecting => cases htarget
  | refused => cases htarget

theorem chunk (bytes : List UInt8) (hphase : Phase asked requests pending targets flow)
    (htarget : targets index = some (true, chunks)) :
    Phase asked requests pending
      (Function.update targets index (some (true, chunks ++ [bytes])))
      (flow ++ [(.data bytes, some index)]) := by
  obtain ⟨rfl, rfl, rfl, rfl, rfl⟩ := hphase.of_reading htarget
  rw [update_single, established_append]
  exact .streaming index (chunks ++ [bytes])

theorem finish (hphase : Phase asked requests pending targets flow)
    (htarget : targets index = some (true, chunks)) :
    Phase asked requests pending (Function.update targets index (some (false, chunks)))
      flow := by
  obtain ⟨rfl, rfl, rfl, rfl, rfl⟩ := hphase.of_reading htarget
  rw [update_single]
  exact .ended index chunks

theorem fail (hphase : Phase asked requests pending targets flow)
    (htarget : targets index = some (true, chunks)) :
    Phase asked requests pending (Function.update targets index (some (false, chunks)))
      (flow ++ [(.abort, some index)]) := by
  obtain ⟨rfl, rfl, rfl, rfl, rfl⟩ := hphase.of_reading htarget
  rw [update_single]
  exact .dead index chunks

/-- What is told of a phase is the beginning of a refusal or of a connection. -/
theorem answers (hphase : Phase asked requests pending targets flow) :
    flow.map Prod.fst <+: [.failed] ∨ ∃ index reading chunks,
      targets = single index reading chunks ∧
        flow.map Prod.fst <+: .succeeded :: (chunks.map .data ++ [.abort]) := by
  have htold (index : Nat) (chunks : List (List UInt8)) :
      (established index chunks).map Prod.fst = .succeeded :: chunks.map .data := by
    simp [established]
  cases hphase with
  | idle => exact .inl List.nil_prefix
  | requested => exact .inl List.nil_prefix
  | connecting => exact .inl List.nil_prefix
  | refused => exact .inl (List.prefix_refl _)
  | streaming index chunks =>
      refine .inr ⟨index, true, chunks, rfl, ?_⟩
      rw [htold, ← List.cons_append]
      exact List.prefix_append _ _
  | ended index chunks =>
      refine .inr ⟨index, false, chunks, rfl, ?_⟩
      rw [htold, ← List.cons_append]
      exact List.prefix_append _ _
  | dead index chunks =>
      refine .inr ⟨index, false, chunks, rfl, ?_⟩
      rw [List.map_append, htold]
      exact List.prefix_refl _

/-- Payload that is told was read from the only target. -/
theorem data_source (hphase : Phase asked requests pending targets flow) {bytes : List UInt8}
    {source : Option Nat} (hdata : (.data bytes, source) ∈ flow) :
    ∃ index reading chunks, source = some index ∧ targets index = some (reading, chunks) ∧
      bytes ∈ chunks := by
  have htold {index : Nat} {chunks : List (List UInt8)}
      (hmem : (.data bytes, source) ∈ established index chunks) :
      source = some index ∧ bytes ∈ chunks := by
    simpa [established, and_comm, eq_comm] using hmem
  have hsingle (index : Nat) (reading : Bool) (chunks : List (List UInt8)) :
      single index reading chunks index = some (reading, chunks) := by
    simp [single]
  cases hphase with
  | idle => simp at hdata
  | requested => simp at hdata
  | connecting => simp at hdata
  | refused => simp at hdata
  | streaming index chunks =>
      obtain ⟨hsource, hmem⟩ := htold hdata
      exact ⟨index, true, chunks, hsource, hsingle _ _ _, hmem⟩
  | ended index chunks =>
      obtain ⟨hsource, hmem⟩ := htold hdata
      exact ⟨index, false, chunks, hsource, hsingle _ _ _, hmem⟩
  | dead index chunks =>
      obtain ⟨hsource, hmem⟩ := htold (by simpa using hdata)
      exact ⟨index, false, chunks, hsource, hsingle _ _ _, hmem⟩

end Phase

/-- One move leads from phase to phase. -/
theorem Lives.move {t t' : Track} (hlives : t.Lives) (hmove : Move t t') : t'.Lives := by
  obtain ⟨asked, running, requests, pending, targets, delivered, inFlight⟩ := t
  simp only [Lives, flow] at hlives ⊢
  cases hmove with
  | stay => exact hlives
  | ask hrunning hasked =>
      subst hasked
      exact hlives.ask
  | stop => exact hlives
  | dial hrequests =>
      subst hrequests
      exact hlives.dial
  | opened index hpending hindex =>
      subst hpending
      simpa using hlives.opened
  | refused hpending =>
      subst hpending
      simpa using hlives.refuse
  | chunk bytes htarget => simpa using hlives.chunk bytes htarget
  | finish htarget => exact hlives.finish htarget
  | fail htarget => simpa using hlives.fail htarget
  | deliver hflight =>
      subst hflight
      simpa using hlives

end Track

/-! ## The share of a session -/

def ProxyTransfer.isRequestAddr : ProxyTransfer → Bool
  | .requestAddr _ => true
  | _ => false

/-- The answer that a response on its way will be for a session. -/
def Tagged.answerFor (index : Nat) (response : Tagged ProxyResponse) : Option Answer :=
  if response.tag.cause = some index then
    (Server.connectorResponse response.message.response).map fun answer =>
      (answer, response.tag.source)
  else none

/-- The answer that a delivery was, when the session has caused it. -/
def Delivery.answerFor (index : Nat) (delivery : Delivery) : Option Answer :=
  if delivery.tag.cause = some index then some (delivery.response, delivery.tag.source) else none

def Target.shareOf (index : Nat) (target : Target) : Option (Bool × List (List UInt8)) :=
  if target.openedFor = some index then some (target.reading, target.chunks) else none

def Relay.track (r : Relay) (index : Nat) : Track where
  asked := (r.peers[index]?).any Peer.asked
  running := (r.peers[index]?).any Peer.running
  requests := r.requests.countP fun request =>
    request.message.request.isRequestAddr && (request.tag.cause == some index)
  pending := r.resolving.countP fun connect => connect.tag.cause == some index
  targets target := (r.targets[target]?).bind (Target.shareOf index)
  delivered := r.deliveries.filterMap (Delivery.answerFor index)
  inFlight := r.responses.filterMap (Tagged.answerFor index)

namespace Relay

variable {r next : Relay} {action : Action}

/-- A new session has an idle track; the tracks of the others stay. -/
theorem connect_track {port : UInt16} (hstep : Step r (.connect port) next) (index : Nat) :
    next.track index = r.track index ∨
      index = r.peers.length ∧ next.track index = { r.track index with running := true } := by
  cases hstep with
  | connect hport =>
      by_cases hindex : index = r.peers.length
      · right
        refine ⟨hindex, ?_⟩
        subst hindex
        simp [track]
      · left
        have hpeer : (r.peers ++ [⟨port, false, true⟩])[index]? = r.peers[index]? := by
          rw [List.getElem?_append]
          split
          next => rfl
          next hlong =>
            rw [List.getElem?_eq_none (by rw [List.length_singleton]; omega),
              List.getElem?_eq_none (by omega)]
        simp [track, hpeer]

/-- A change of a target is a change of the share it belongs to. -/
theorem targets_set {index other : Nat} {target target' : Target}
    (htarget : r.targets[other]? = some target) (hsame : target'.openedFor = target.openedFor) :
    (fun t => ((r.targets.set other target')[t]?).bind (Target.shareOf index)) =
      if target.openedFor = some index then
        Function.update (r.track index).targets other
          (some (target'.reading, target'.chunks))
      else (r.track index).targets := by
  obtain ⟨hlength, rfl⟩ := List.getElem?_eq_some_iff.mp htarget
  funext t
  by_cases ht : t = other
  · subst ht
    by_cases hindex : r.targets[t].openedFor = some index <;>
      simp [hlength, hindex, Target.shareOf, hsame, track]
  · have hne : other ≠ t := fun heq => ht heq.symm
    by_cases hindex : r.targets[other].openedFor = some index <;>
      simp [hindex, track, List.getElem?_set_ne hne, Function.update_of_ne ht]

theorem targets_append {index : Nat} (target : Target) :
    (fun t => ((r.targets ++ [target])[t]?).bind (Target.shareOf index)) =
      if target.openedFor = some index then
        Function.update (r.track index).targets r.targets.length
          (some (target.reading, target.chunks))
      else (r.track index).targets := by
  funext t
  rcases Nat.lt_trichotomy t r.targets.length with hlt | rfl | hgt
  · by_cases hindex : target.openedFor = some index <;>
      simp [hindex, track, List.getElem?_append_left hlt, Function.update_of_ne hlt.ne]
  · by_cases hindex : target.openedFor = some index <;>
      simp [hindex, track, Target.shareOf]
  · have hnone : (r.targets ++ [target])[t]? = none :=
      List.getElem?_eq_none (by rw [List.length_append, List.length_singleton]; omega)
    have hnone' : r.targets[t]? = none := List.getElem?_eq_none hgt.le
    by_cases hindex : target.openedFor = some index <;>
      simp [hindex, track, hnone, hnone', Function.update_of_ne hgt.ne']

theorem track_target {index other : Nat} {target : Target}
    (htarget : r.targets[other]? = some target) (hindex : target.openedFor = some index) :
    (r.track index).targets other = some (target.reading, target.chunks) := by
  simp [track, htarget, Target.shareOf, hindex]

theorem track_targets_eq_some {index other : Nat} {reading : Bool} {chunks : List (List UInt8)}
    (hshare : (r.track index).targets other = some (reading, chunks)) :
    ∃ target, r.targets[other]? = some target ∧ target.openedFor = some index ∧
      target.chunks = chunks := by
  obtain ⟨target, htarget, hshare⟩ := Option.bind_eq_some_iff.mp hshare
  unfold Target.shareOf at hshare
  split at hshare
  next hindex =>
    cases hshare
    exact ⟨target, htarget, hindex, rfl⟩
  next => cases hshare

/-- A step that is not a new connection moves every session's share by at most
one move. -/
theorem step_move (hstep : Step r action next) (hconnect : ∀ port, action ≠ .connect port)
    (index : Nat) : (r.track index).Move (next.track index) := by
  cases hstep with
  | connect hport => exact absurd rfl (hconnect _)
  | @ask asker peer addr hpeer hrunning hasked =>
      obtain ⟨hlength, rfl⟩ := List.getElem?_eq_some_iff.mp hpeer
      by_cases hindex : asker = index
      · subst hindex
        have hrunning' : (r.track asker).running = true := by simp [track, hlength, hrunning]
        have hasked' : (r.track asker).asked = false := by simp [track, hlength, hasked]
        apply Track.Move.of_eq (.ask hrunning' hasked')
        simp [track, hlength, ProxyRequest.new, ProxyTransfer.isRequestAddr]
      · apply Track.Move.same
        simp [track, hindex]
  | send data hpeer hasked =>
      apply Track.Move.same
      simp [track, ProxyRequest.new, ProxyTransfer.isRequestAddr]
  | @stop stopped peer hpeer =>
      obtain ⟨hlength, rfl⟩ := List.getElem?_eq_some_iff.mp hpeer
      by_cases hindex : stopped = index
      · subst hindex
        apply Track.Move.of_eq .stop
        simp [track, hlength]
      · apply Track.Move.same
        simp [track, hindex]
  | ping heartbeat hrequests =>
      apply Track.Move.same
      simp [track, hrequests, ProxyRequest.new, ProxyTransfer.isRequestAddr,
        List.countP_append]
  | @dial request tag rest addr hrequests haddr =>
      by_cases hindex : tag.cause = some index
      · have hcount : (r.track index).requests = rest.countP (fun request =>
            request.message.request.isRequestAddr && (request.tag.cause == some index)) + 1 := by
          simp [track, hrequests, haddr, hindex, ProxyTransfer.isRequestAddr]
        apply Track.Move.of_eq (.dial hcount)
        simp [track, hindex]
      · apply Track.Move.same
        simp [track, hrequests, hindex]
  | write hrequests hdata =>
      apply Track.Move.same
      simp [track, hrequests, hdata, ProxyTransfer.isRequestAddr]
  | writeFails hrequests hdata =>
      apply Track.Move.same
      simp [track, hrequests, hdata, ProxyTransfer.isRequestAddr]
  | pong hrequests hindex hresponses =>
      -- neither a heartbeat nor its echo counts for a session
      apply Track.Move.same
      simp [track, hrequests, hresponses, hindex, ProxyTransfer.isRequestAddr, Tagged.answerFor,
        Server.connectorResponse, ProxyResponse.new]
  | @opened uuid tag before after hresolving =>
      by_cases hindex : tag.cause = some index
      · have hcount : (r.track index).pending = (before ++ after).countP (fun connect =>
            connect.tag.cause == some index) + 1 := by
          simp [track, hresolving, hindex, List.countP_append, Nat.add_assoc]
        apply Track.Move.of_eq (.opened r.targets.length hcount (by simp [track]))
        simp [track, targets_append, hindex, Tagged.answerFor, Server.connectorResponse,
          ProxyResponse.new]
      · apply Track.Move.same
        simp [track, targets_append, hresolving, hindex, Tagged.answerFor, List.countP_append]
  | @refused uuid tag before after kind hkind hresolving =>
      by_cases hindex : tag.cause = some index
      · have hcount : (r.track index).pending = (before ++ after).countP (fun connect =>
            connect.tag.cause == some index) + 1 := by
          simp [track, hresolving, hindex, List.countP_append, Nat.add_assoc]
        apply Track.Move.of_eq (.refused hcount)
        obtain rfl | rfl := hkind <;>
          simp [track, hindex, Tagged.answerFor, Server.connectorResponse, ProxyResponse.new]
      · apply Track.Move.same
        simp [track, hresolving, hindex, Tagged.answerFor, List.countP_append]
  | @chunk other target bytes htarget hreading =>
      by_cases hindex : target.openedFor = some index
      · have hshare := track_target htarget hindex
        rw [hreading] at hshare
        apply Track.Move.of_eq (.chunk bytes hshare)
        simp [track, targets_set htarget, hindex, hreading, Tagged.answerFor,
          Server.connectorResponse, ProxyResponse.new]
      · apply Track.Move.same
        simp [track, targets_set htarget, hindex, Tagged.answerFor]
  | @finish other target htarget hreading =>
      by_cases hindex : target.openedFor = some index
      · have hshare := track_target htarget hindex
        rw [hreading] at hshare
        apply Track.Move.of_eq (.finish hshare)
        simp [track, targets_set htarget, hindex]
      · apply Track.Move.same
        simp [track, targets_set htarget, hindex]
  | @fail other target htarget hreading =>
      by_cases hindex : target.openedFor = some index
      · have hshare := track_target htarget hindex
        rw [hreading] at hshare
        apply Track.Move.of_eq (.fail hshare)
        simp [track, targets_set htarget, hindex, Tagged.answerFor, Server.connectorResponse,
          ProxyResponse.new]
      · apply Track.Move.same
        simp [track, targets_set htarget, hindex, Tagged.answerFor]
  | register uuid writer => exact .same rfl
  | deregister uuid => exact .same rfl
  | @pass response tag rest hresponses huuid heartbeat hindex =>
      apply Track.Move.same
      simp [track, hresponses, hindex, Tagged.answerFor, Server.connectorResponse]
  | @deliver response tag rest receiver answer hresponses huuid hclient hanswer =>
      by_cases hindex : tag.cause = some index
      · have hflight : (r.track index).inFlight =
            (answer, tag.source) :: rest.filterMap (Tagged.answerFor index) := by
          simp [track, hresponses, Tagged.answerFor, hindex, hanswer]
        apply Track.Move.of_eq (.deliver hflight)
        simp [track, Delivery.answerFor, hindex]
      · apply Track.Move.same
        simp [track, hresponses, Tagged.answerFor, Delivery.answerFor, hindex]
  | idle => exact .same rfl

/-- Every step keeps every session's share within the phases. -/
theorem lives_step (hstep : Step r action next) (hlives : ∀ index, (r.track index).Lives)
    (index : Nat) : (next.track index).Lives := by
  by_cases hconnect : ∃ port, action = .connect port
  · obtain ⟨port, rfl⟩ := hconnect
    rcases connect_track hstep index with heq | ⟨-, heq⟩
    · rw [heq]
      exact hlives index
    · rw [heq]
      exact hlives index
  · exact (hlives index).move
      (step_move hstep (fun port heq => hconnect ⟨port, heq⟩) index)

end Relay

/-- Behind every run the share of every session is in one of the phases. -/
theorem System.lives {events : List Event} {s : System} (hrun : System.run events = some s)
    (index : Nat) : (s.relay.track index).Lives := by
  refine Transition.run_invariant (fun s : System => ∀ index, (s.relay.track index).Lives)
    ?_ ?_ hrun index
  · intro state event next hlives hstep
    obtain ⟨action, -, hrelay⟩ := step_refines hstep
    exact Relay.lives_step hrelay hlives
  · intro index
    exact Track.Phase.idle

end JustProxy
