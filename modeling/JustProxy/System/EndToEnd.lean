import JustProxy.System.Replies
import JustProxy.System.Sockets
import JustProxy.System.Transport

/-! # From end to end

What applications and targets see of the whole. The bytes of the tunnel may be cut and
delayed in any way, and each application still talks to its own target and to no other.
-/

namespace JustProxy

open ProxyClient

namespace WireSystem

variable {Key : Type}

/-- What a session has relayed. Its application has read the beginning of a refusal, or
of a grant and of what was read from the session's target. The pieces of payload that the
server has written for it are, in order, the beginning of what the application has sent
behind its opening, none before the opening is whole, and the socket of the target has taken
of each piece what it accepted, and nothing else. -/
structure Relays (events : List Event) (s : System) (index : Nat) (session : Session) : Prop where
  downstream : ∃ bytes, session.Outputs bytes ∧
    (bytes <+: [5, 0] ++ ConnectorResponse.failed.bytes ∨
      ∃ (opened : Nat) (target : Target), s.targets[opened]? = some target ∧
        target.openedFor = some index ∧
        bytes <+: [5, 0] ++ (ConnectorResponse.succeeded.bytes ++ target.chunks.flatten))
  upstream : ∃ opening, session.codec.Opening opening ∧
    opening ++ ((System.written index events).map UpstreamWrite.data).flatten <+:
      System.arrived index events
  waits : session.codec ≠ .ready → System.written index events = []
  taken : ∀ (opened : Nat) (target : Target), s.targets[opened]? = some target →
    target.openedFor = some index → s.socketBytes opened =
      (System.written index events).flatMap fun write => write.result.taken write.data

/-- What the processes relay over queues, they relay over the bytes that carry them. -/
theorem Represents.relays {codecs : Direction → TunnelCodec Key}
    {hring : ∀ direction, (codecs direction).cryptoAlgorithm.RoundTrips} {w : WireSystem}
    {s : System} {events : List Event} (hrepresents : w.Represents hring s)
    (hports : (System.ports events).Nodup) (hs : System.run events = some s) {index : Nat}
    {session : Session} (hsession : w.ends.sessions[index]? = some session) :
    Relays events w.ends index session := by
  -- what is in the tunnel is no part of them
  have hsessions : s.sessions = w.ends.sessions :=
    (congrArg System.sessions hrepresents.ends).trans rfl
  have htargets : s.targets = w.ends.targets :=
    (congrArg System.targets hrepresents.ends).trans rfl
  have hsockets : s.socketBytes = w.ends.socketBytes :=
    (congrArg System.socketBytes hrepresents.ends).trans rfl
  rw [← hsessions] at hsession
  have hparses := System.arrived_parses hs hsession
  constructor
  · have hclean := System.meets_cleanReuse hports
      (by simp [System.init, System.relay] : ∀ peer ∈ System.init.relay.peers, _)
    have hfollows := System.follows_of_run hclean hs hsession
    rw [← htargets]
    exact hfollows.reads (System.isolated_of_clean hclean hs) (System.lives hs index) hsession
  · obtain ⟨opening, hopening, harrived⟩ := hparses.split
    refine ⟨opening, hopening, ?_⟩
    rw [harrived, List.flatten_append, List.append_assoc, ← List.append_assoc]
    exact List.prefix_append _ _
  · intro hcodec
    exact List.map_eq_nil_iff.mp (List.append_eq_nil_iff.mp (hparses.waits hcodec)).1
  · rw [← htargets, ← hsockets]
    exact (System.piped_of_run hports hs index).bytes

/-- From end to end over bytes. In every run with distinct ports in which only short
messages are encoded, every session relays, however the bytes of both directions are
flushed, cut and delayed. -/
theorem relays_of_run (codecs : Direction → TunnelCodec Key)
    (hring : ∀ direction, (codecs direction).cryptoAlgorithm.RoundTrips)
    (hseals : ∀ direction, (codecs direction).cryptoAlgorithm.SealsBelow (2 ^ 32))
    (events : List WireEvent) (w : WireSystem)
    (hshort : Transition.Meets (step · codecs) Short .init events)
    (hports : (System.ports (events.flatMap WireEvent.events)).Nodup)
    (hrun : run codecs events = some w) (index : Nat) (session : Session)
    (hsession : w.ends.sessions[index]? = some session) :
    Relays (events.flatMap WireEvent.events) w.ends index session := by
  have hqueues : ∃ s, System.run (events.flatMap WireEvent.events) = some s ∧
      w.Represents hring s := represents_of_run hseals hshort hrun
  obtain ⟨s, hs, hrepresents⟩ := hqueues
  exact hrepresents.relays hports hs hsession

/-- The connect succeeds, the target says "hi", and the two answers reach the dispatcher
in three pieces. -/
def grantedInPieces : List WireEvent :=
  askedInPieces ++
    [Event.resolved 0 (.connected ()), .serverMail, .read 0 (.chunk [104, 105]), .serverMail,
      .forward, .forward].map (WireEvent.act · (Vector.replicate 4 2)) ++
    [.flush .response 30, .arrive .response 7, .flush .response 90, .arrive .response 25,
      .arrive .response 90] ++
    [Event.clientRecv, .clientRecv, .socksMail 0, .socksMail 0].map
      (WireEvent.act · (Vector.replicate 4 0))

theorem relays_of_run_granted :
    let codecs := fun _ => TunnelCodec.checksumCodec 3
    ∃ w session, run codecs grantedInPieces = some w ∧ w.ends.sessions = [session] ∧
      w.ends.targets.length = 1 ∧ session.written.length = 3 ∧
      Relays (grantedInPieces.flatMap WireEvent.events) w.ends 0 session :=
  ⟨_, _, rfl, rfl, rfl, rfl, relays_of_run _ (fun _ => TunnelCodec.checksumCodec_roundTrips 3)
    (fun _ _ _ _ _ _ => ⟨_, rfl⟩) grantedInPieces _ (by decide +kernel) (by decide +kernel) rfl
    0 _ rfl⟩

end WireSystem

end JustProxy
