import JustProxy.System.Wire

/-! # The bytes carry the queues

Over bytes the processes see what they see over queues: what a reader's decoder takes
off is the first message of the queue, however the bytes have been cut. So a run over
bytes is one over queues, and each run over queues is one over bytes.
-/

namespace JustProxy

open StreamDecoder

namespace WireSystem

variable {Key : Type} {codecs : Direction → TunnelCodec Key}
  (hring : ∀ direction, (codecs direction).cryptoAlgorithm.RoundTrips)

/-- The step only encodes short messages. -/
def Short (w : WireSystem) (event : WireEvent) : Prop := ∀ act ∈ event.events, w.ends.Short act

instance (w : WireSystem) (event : WireEvent) : Decidable (w.Short event) :=
  inferInstanceAs (Decidable (∀ act ∈ event.events, w.ends.Short act))

/-- The processes are the same, and the bytes carry what is in the queues. -/
structure Represents (w : WireSystem) (s : System) : Prop where
  ends : s = w.ends.withTunnel s.upstream s.downstream
  upstream : w.upstream.Carries .request (hring .request) s.upstream
  downstream : w.downstream.Carries .response (hring .response) s.downstream

variable {hring} {w next : WireSystem} {s : System}

theorem withTunnel_ends (w : WireSystem) : w.ends.withTunnel [] [] = w.ends := by
  obtain ⟨hup, hdown⟩ := w.silent
  rw [System.withTunnel, ← hup, ← hdown]

theorem step_local {event : Event} (hlocal : event.isLocal = true) (random : Vector UInt8 4) :
    w.step codecs (.act event random) = (w.ends.step event).map w.withEnds := by
  cases event <;> first | rfl | cases hlocal

/-- A request that is decoded is handled as it is. -/
theorem serverRecv_item {message : Tagged ProxyRequest} {wire : Wire}
    (hread : w.upstream.read .request (codecs .request) = (.item message, wire))
    (result : WriteResult) :
    w.serverRecv codecs result =
      ((w.ends.withTunnel [message] []).serverRecv result).map fun next =>
        { w.withEnds next with
          upstream := if next.upstream = [] then wire else w.upstream } := by
  rw [WireSystem.serverRecv, hread]

theorem clientRecv_item {message : Tagged ProxyResponse} {wire : Wire}
    (hread : w.downstream.read .response (codecs .response) = (.item message, wire)) :
    w.clientRecv codecs = (w.ends.withTunnel [] [message]).clientRecv.map fun next =>
      { w.withEnds next with
        downstream := if next.downstream = [] then wire else w.downstream } := by
  rw [WireSystem.clientRecv, hread]

theorem Represents.built (hrepresents : w.Represents hring s) (hbuilt : s.Built) :
    w.ends.Built := by
  rw [hrepresents.ends] at hbuilt
  exact ⟨hbuilt.clientMail, hbuilt.serverMail, hbuilt.outQueue⟩

theorem Represents.clientMail (hrepresents : w.Represents hring s) (hbuilt : s.Built)
    (hseals : ∀ direction, (codecs direction).cryptoAlgorithm.SealsBelow (2 ^ 32))
    {random : Vector UInt8 4} (hshort : w.ends.Short .clientMail)
    (hstep : w.clientMail codecs random = some next) :
    ∃ s', s.handleClientMail = some s' ∧ next.Represents hring s' := by
  obtain ⟨ends, hmail, rfl⟩ := Option.map_eq_some_iff.mp hstep
  obtain ⟨message, hmessage, hupstream⟩ := (hrepresents.built hbuilt).handleClientMail hmail
  obtain ⟨hends, hup, hdown⟩ := hrepresents
  rw [w.silent.1, List.nil_append] at hupstream
  have hlength : message.message.request.payload.length < 2 ^ 32 := by
    apply hshort
    simp [System.transmits, withTunnel_ends, hmail, hupstream]
  obtain ⟨wire, hwrite, hcarries⟩ := hup.write (hseals .request) hmessage hlength random
  refine ⟨ends.withTunnel (s.upstream ++ [message]) s.downstream, ?_, ?_⟩
  · rw [hends, System.handleClientMail_withTunnel, withTunnel_ends, hmail, ← hupstream]
    rfl
  · simp only [hupstream, hwrite]
    exact ⟨rfl, hcarries, hdown⟩

theorem Represents.forward (hrepresents : w.Represents hring s) (hbuilt : s.Built)
    (hseals : ∀ direction, (codecs direction).cryptoAlgorithm.SealsBelow (2 ^ 32))
    {random : Vector UInt8 4} (hshort : w.ends.Short .forward)
    (hstep : w.forward codecs random = some next) :
    ∃ s', s.forward = some s' ∧ next.Represents hring s' := by
  obtain ⟨ends, hforward, rfl⟩ := Option.map_eq_some_iff.mp hstep
  obtain ⟨message, hmessage, hdownstream⟩ := (hrepresents.built hbuilt).forward hforward
  obtain ⟨hends, hup, hdown⟩ := hrepresents
  rw [w.silent.2, List.nil_append] at hdownstream
  have hlength : message.message.response.payload.length < 2 ^ 32 := by
    apply hshort
    simp [System.transmits, withTunnel_ends, hforward, hdownstream]
  obtain ⟨wire, hwrite, hcarries⟩ := hdown.write (hseals .response) hmessage hlength random
  refine ⟨ends.withTunnel s.upstream (s.downstream ++ [message]), ?_, ?_⟩
  · rw [hends, System.forward_withTunnel, withTunnel_ends, hforward, ← hdownstream]
    rfl
  · simp only [hdownstream, hwrite]
    exact ⟨rfl, hup, hcarries⟩

theorem Represents.serverRecv (hrepresents : w.Represents hring s) {result : WriteResult}
    (hstep : w.serverRecv codecs result = some next) :
    ∃ s', s.serverRecv result = some s' ∧ next.Represents hring s' := by
  obtain ⟨hends, hup, hdown⟩ := hrepresents
  have hread : w.upstream.read .request (codecs .request) = (.more, w.upstream) ∨
      ∃ (message : Tagged ProxyRequest) (later : List (Tagged ProxyRequest)) (wire : Wire),
        s.upstream = message :: later ∧
        w.upstream.read .request (codecs .request) = (.item message, wire) ∧
        wire.Carries .request (hring .request) later := hup.read
  rcases hread with hmore | ⟨message, later, wire, hqueue, hitem, hcarries⟩
  · rw [WireSystem.serverRecv, hmore] at hstep
    cases hstep
  · rw [serverRecv_item hitem] at hstep
    obtain ⟨ends, hrecv, rfl⟩ := Option.map_eq_some_iff.mp hstep
    refine ⟨ends.withTunnel (ends.upstream ++ later) s.downstream, ?_, rfl, ?_, hdown⟩
    · rw [hends, hqueue, System.serverRecv_withTunnel, hrecv]
      rfl
    · rcases System.serverRecv_upstream rfl hrecv with hnone | hpanic
      · rw [if_pos hnone]
        exact hnone ▸ hcarries
      · -- a panic keeps the bytes
        rw [if_neg (by simp [hpanic])]
        rw [hqueue] at hup
        change w.upstream.Carries .request _ (ends.upstream ++ later)
        rwa [hpanic]

theorem Represents.clientRecv (hrepresents : w.Represents hring s)
    (hstep : w.clientRecv codecs = some next) :
    ∃ s', s.clientRecv = some s' ∧ next.Represents hring s' := by
  obtain ⟨hends, hup, hdown⟩ := hrepresents
  have hread : w.downstream.read .response (codecs .response) = (.more, w.downstream) ∨
      ∃ (message : Tagged ProxyResponse) (later : List (Tagged ProxyResponse)) (wire : Wire),
        s.downstream = message :: later ∧
        w.downstream.read .response (codecs .response) = (.item message, wire) ∧
        wire.Carries .response (hring .response) later := hdown.read
  rcases hread with hmore | ⟨message, later, wire, hqueue, hitem, hcarries⟩
  · rw [WireSystem.clientRecv, hmore] at hstep
    cases hstep
  · rw [clientRecv_item hitem] at hstep
    obtain ⟨ends, hrecv, rfl⟩ := Option.map_eq_some_iff.mp hstep
    refine ⟨ends.withTunnel s.upstream (ends.downstream ++ later), ?_, rfl, hup, ?_⟩
    · rw [hends, hqueue, System.clientRecv_withTunnel, hrecv]
      rfl
    · rcases System.clientRecv_downstream rfl hrecv with hnone | hpanic
      · rw [if_pos hnone]
        exact hnone ▸ hcarries
      · rw [if_neg (by simp [hpanic])]
        rw [hqueue] at hdown
        change w.downstream.Carries .response _ (ends.downstream ++ later)
        rwa [hpanic]

theorem Represents.step (hrepresents : w.Represents hring s) (hbuilt : s.Built)
    (hseals : ∀ direction, (codecs direction).cryptoAlgorithm.SealsBelow (2 ^ 32))
    {event : WireEvent} (hshort : w.Short event) (hstep : w.step codecs event = some next) :
    ∃ s', Transition.run System.step s event.events = some s' ∧ next.Represents hring s' := by
  have hone {event : Event} {random : Vector UInt8 4} {s' : System}
      (hstep : s.step event = some s') :
      Transition.run System.step s (WireEvent.act event random).events = some s' :=
    Transition.run_cons.mpr ⟨s', hstep, rfl⟩
  cases event with
  | act event random =>
      have hshort := hshort event List.mem_cons_self
      cases hlocal : event.isLocal with
      | true =>
          obtain ⟨hends, hup, hdown⟩ := hrepresents
          rw [step_local hlocal] at hstep
          obtain ⟨ends, hends', rfl⟩ := Option.map_eq_some_iff.mp hstep
          refine ⟨ends.withTunnel s.upstream s.downstream, hone ?_, rfl, hup, hdown⟩
          rw [hends, System.step_local _ _ hlocal, hends']
          rfl
      | false =>
          cases event with
          | clientMail =>
              obtain ⟨s', hs', hnext⟩ := hrepresents.clientMail hbuilt hseals hshort hstep
              exact ⟨s', hone hs', hnext⟩
          | forward =>
              obtain ⟨s', hs', hnext⟩ := hrepresents.forward hbuilt hseals hshort hstep
              exact ⟨s', hone hs', hnext⟩
          | serverRecv result =>
              obtain ⟨s', hs', hnext⟩ := hrepresents.serverRecv hstep
              exact ⟨s', hone hs', hnext⟩
          | clientRecv =>
              obtain ⟨s', hs', hnext⟩ := hrepresents.clientRecv hstep
              exact ⟨s', hone hs', hnext⟩
          | _ => cases hlocal
  | flush direction count =>
      cases hstep
      obtain ⟨hends, hup, hdown⟩ := hrepresents
      cases direction with
      | request => exact ⟨s, rfl, hends, hup.flush count, hdown⟩
      | response => exact ⟨s, rfl, hends, hup, hdown.flush count⟩
  | arrive direction count =>
      cases hstep
      obtain ⟨hends, hup, hdown⟩ := hrepresents
      cases direction with
      | request => exact ⟨s, rfl, hends, hup.arrive count, hdown⟩
      | response => exact ⟨s, rfl, hends, hup, hdown.arrive count⟩

/-! ## Runs -/

theorem represents_init : init.Represents hring .init :=
  ⟨rfl, Wire.carries_empty, Wire.carries_empty⟩

theorem built_init : System.init.Built := ⟨nofun, nofun, nofun⟩

/-- What a run over bytes does, the processes do over queues. -/
theorem represents_of_run
    (hseals : ∀ direction, (codecs direction).cryptoAlgorithm.SealsBelow (2 ^ 32))
    {events : List WireEvent} (hshort : Transition.Meets (step · codecs) Short .init events)
    (hrun : run codecs events = some w) :
    ∃ s, System.run (events.flatMap WireEvent.events) = some s ∧ w.Represents hring s := by
  obtain ⟨s, hs, hrepresents, -⟩ := hshort.simulates WireEvent.events
    (fun w s => w.Represents hring s ∧ s.Built) (fun hrelated hshort hstep => by
      obtain ⟨hrepresents, hbuilt⟩ := hrelated
      obtain ⟨s', hs', hnext⟩ := hrepresents.step hbuilt hseals hshort hstep
      exact ⟨s', hs', hnext, Transition.run_invariant System.Built
        (fun hbuilt hstep => hbuilt.step hstep) hbuilt hs'⟩)
    ⟨represents_init, built_init⟩ hrun
  exact ⟨s, hs, hrepresents⟩

/-- What the decoders of both readers answer: each of them asks for more bytes, or
returns the message at the front of the queue. -/
structure Reads (codecs : Direction → TunnelCodec Key) (w : WireSystem) (s : System) : Prop where
  upstream : (w.upstream.read .request (codecs .request)).1 = .more ∨
    ∃ message, s.upstream.head? = some message ∧
      (w.upstream.read .request (codecs .request)).1 = .item message
  downstream : (w.downstream.read .response (codecs .response)).1 = .more ∨
    ∃ message, s.downstream.head? = some message ∧
      (w.downstream.read .response (codecs .response)).1 = .item message

theorem Represents.reads (hrepresents : w.Represents hring s) : w.Reads codecs s where
  upstream := by
    rcases hrepresents.upstream.read with hmore | ⟨message, later, wire, hqueue, hitem, -⟩
    · exact .inl (congrArg Prod.fst hmore)
    · exact .inr ⟨message, by rw [hqueue]; rfl, congrArg Prod.fst hitem⟩
  downstream := by
    rcases hrepresents.downstream.read with hmore | ⟨message, later, wire, hqueue, hitem, -⟩
    · exact .inl (congrArg Prod.fst hmore)
    · exact .inr ⟨message, by rw [hqueue]; rfl, congrArg Prod.fst hitem⟩

/-- The bytes refine the queues. However the bytes of the tunnel are cut and delayed,
the processes run as over queues of messages, and no decoder ever fails. -/
theorem refines (codecs : Direction → TunnelCodec Key)
    (hring : ∀ direction, (codecs direction).cryptoAlgorithm.RoundTrips)
    (hseals : ∀ direction, (codecs direction).cryptoAlgorithm.SealsBelow (2 ^ 32))
    (events : List WireEvent) (w : WireSystem)
    (hshort : Transition.Meets (step · codecs) Short .init events)
    (hrun : run codecs events = some w) :
    ∃ s, System.run (events.flatMap WireEvent.events) = some s ∧ w.Represents hring s ∧
      w.Reads codecs s := by
  obtain ⟨s, hs, hrepresents⟩ := represents_of_run hseals hshort hrun
  exact ⟨s, hs, hrepresents, hrepresents.reads⟩

/-- An application asks for 127.0.0.1:80, and its request reaches the server in three
pieces; the first one ends within the header of the frame. -/
def askedInPieces : List WireEvent :=
  (Event.asks 5000 0 ++ [Event.clientMail]).map (WireEvent.act · (Vector.replicate 4 1)) ++
    [.flush .request 20, .arrive .request 9, .flush .request 50, .arrive .request 30,
      .arrive .request 50, .act (.serverRecv .wouldBlock) (Vector.replicate 4 0)]

theorem refines_pieces :
    let codecs := fun _ => TunnelCodec.checksumCodec 3
    ∃ w, run codecs askedInPieces = some w ∧ w.ends.resolving.length = 1 ∧
      ∃ s, System.run (askedInPieces.flatMap WireEvent.events) = some s ∧
        w.Represents (fun _ => TunnelCodec.checksumCodec_roundTrips 3) s ∧ w.Reads codecs s :=
  ⟨_, rfl, rfl, refines _ (fun _ => TunnelCodec.checksumCodec_roundTrips 3)
    (fun _ _ _ _ _ _ => ⟨_, rfl⟩) askedInPieces _ (by decide +kernel) rfl⟩

/-! ## All runs of the queues -/

/-- All bytes of both directions leave and arrive. -/
def deliveries (w : WireSystem) : List WireEvent :=
  let events (direction : Direction) (channel : Channel) : List WireEvent :=
    [.flush direction channel.writeBuffer.length,
      .arrive direction (channel.transit.length + channel.writeBuffer.length)]
  events .request w.upstream.channel ++ events .response w.downstream.channel

def deliver (w : WireSystem) : WireSystem :=
  { w with upstream := w.upstream.deliver, downstream := w.downstream.deliver }

theorem run_deliveries (codecs : Direction → TunnelCodec Key) (w : WireSystem) :
    Transition.run (step · codecs) w w.deliveries = some w.deliver := rfl

theorem Represents.deliver (hrepresents : w.Represents hring s) :
    w.deliver.Represents hring s where
  ends := hrepresents.ends
  upstream := (hrepresents.upstream.flush _).arrive _
  downstream := (hrepresents.downstream.flush _).arrive _

theorem Represents.short (hrepresents : w.Represents hring s) {event : Event}
    (hshort : s.Short event) : w.ends.Short event := by
  -- what is encoded does not depend on what is in the tunnel
  rw [hrepresents.ends] at hshort
  cases event <;> exact hshort

/-- What the processes can do over queues, they can do once all bytes have arrived. -/
theorem Represents.exists_act (hrepresents : w.Represents hring s) {event : Event} {s' : System}
    (hstep : s.step event = some s') (random : Vector UInt8 4) :
    ∃ next, w.deliver.step codecs (.act event random) = some next := by
  obtain ⟨hends, hup, hdown⟩ := hrepresents
  cases hlocal : event.isLocal with
  | true =>
      rw [hends, System.step_local _ _ hlocal] at hstep
      obtain ⟨ends, hends', -⟩ := Option.map_eq_some_iff.mp hstep
      exact ⟨_, by rw [step_local hlocal]; exact congrArg (Option.map _) hends'⟩
  | false =>
      cases event with
      | clientMail =>
          replace hstep : s.handleClientMail = some s' := hstep
          rw [hends, System.handleClientMail_withTunnel, withTunnel_ends] at hstep
          obtain ⟨ends, hends', -⟩ := Option.map_eq_some_iff.mp hstep
          exact ⟨_, congrArg (Option.map _) hends'⟩
      | forward =>
          replace hstep : s.forward = some s' := hstep
          rw [hends, System.forward_withTunnel, withTunnel_ends] at hstep
          obtain ⟨ends, hends', -⟩ := Option.map_eq_some_iff.mp hstep
          exact ⟨_, congrArg (Option.map _) hends'⟩
      | serverRecv result =>
          replace hstep : s.serverRecv result = some s' := hstep
          cases hqueue : s.upstream with
          | nil => simp [System.serverRecv, hqueue] at hstep
          | cons message later =>
              rw [hqueue] at hup
              rw [hends, hqueue, System.serverRecv_withTunnel] at hstep
              obtain ⟨ends, hends', -⟩ := Option.map_eq_some_iff.mp hstep
              obtain ⟨wire, hread⟩ := Wire.Carries.read_deliver hup
              exact ⟨_, (serverRecv_item hread result).trans (congrArg (Option.map _) hends')⟩
      | clientRecv =>
          replace hstep : s.clientRecv = some s' := hstep
          cases hqueue : s.downstream with
          | nil => simp [System.clientRecv, hqueue] at hstep
          | cons message later =>
              rw [hqueue] at hdown
              rw [hends, hqueue, System.clientRecv_withTunnel] at hstep
              obtain ⟨ends, hends', -⟩ := Option.map_eq_some_iff.mp hstep
              obtain ⟨wire, hread⟩ := Wire.Carries.read_deliver hdown
              exact ⟨_, (clientRecv_item hread).trans (congrArg (Option.map _) hends')⟩
      | _ => cases hlocal

/-- Every run over queues is one over bytes. Nothing that the processes can do over
queues of short messages is lost when the messages are encoded. -/
theorem realizes (codecs : Direction → TunnelCodec Key)
    (hring : ∀ direction, (codecs direction).cryptoAlgorithm.RoundTrips)
    (hseals : ∀ direction, (codecs direction).cryptoAlgorithm.SealsBelow (2 ^ 32))
    (events : List Event) (s : System)
    (hshort : Transition.Meets System.step System.Short .init events)
    (hrun : System.run events = some s) :
    ∃ wireEvents w, wireEvents.flatMap WireEvent.events = events ∧
      run codecs wireEvents = some w ∧ w.Represents hring s := by
  refine Transition.run_induction
    (motive := fun (events : List Event) (s : System) =>
      Transition.Meets System.step System.Short .init events →
      ∃ wireEvents w, wireEvents.flatMap WireEvent.events = events ∧
        run codecs wireEvents = some w ∧ w.Represents hring s)
    ?_ ?_ hrun hshort
  · intro _
    exact ⟨[], init, rfl, rfl, represents_init⟩
  · intro past state event next hpast ih hstep hshort
    obtain ⟨wireEvents, w, rfl, hw, hrepresents⟩ := ih hshort.of_append
    have hbuilt := Transition.run_invariant System.Built
      (fun hbuilt hstep => hbuilt.step hstep) built_init hpast
    -- the bytes arrive before the event
    have hdelivered := hrepresents.deliver
    obtain ⟨w', hw'⟩ := hrepresents.exists_act hstep (Vector.replicate 4 0)
    have hevent : state.Short event :=
      Transition.meets_iff.mp hshort _ event [] state rfl hpast
    have hshort' : w.deliver.Short (.act event (Vector.replicate 4 0)) := by
      intro act hact
      obtain rfl := List.mem_singleton.mp hact
      exact hrepresents.short hevent
    obtain ⟨s', hs', hnext⟩ := hdelivered.step hbuilt hseals hshort' hw'
    obtain ⟨s'', hstep', hrest⟩ := Transition.run_cons.mp hs'
    cases hrest
    rw [hstep] at hstep'
    cases hstep'
    refine ⟨wireEvents ++ w.deliveries ++ [.act event (Vector.replicate 4 0)], w', ?_, ?_, hnext⟩
    · simp [deliveries, WireEvent.events]
    · exact Transition.run_concat (Transition.run_trans hw (run_deliveries codecs w)) hw'

theorem realizes_asks :
    ∃ s, System.run (Event.asks 5000 0 ++ [.clientMail]) = some s ∧ s.upstream.length = 1 ∧
      ∃ wireEvents w, wireEvents.flatMap WireEvent.events = Event.asks 5000 0 ++ [.clientMail] ∧
        run (fun _ => TunnelCodec.checksumCodec 3) wireEvents = some w ∧
        w.Represents (fun _ => TunnelCodec.checksumCodec_roundTrips 3) s :=
  ⟨_, rfl, rfl, realizes _ (fun _ => TunnelCodec.checksumCodec_roundTrips 3)
    (fun _ _ _ _ _ _ => ⟨_, rfl⟩) _ _ (by decide +kernel) rfl⟩

end WireSystem

end JustProxy
