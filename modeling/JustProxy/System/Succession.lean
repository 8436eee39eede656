import JustProxy.System.Agreement

/-! # Ports that come back

The dispatcher knows a session by its port. When an application connects from a port
that has been used before, its session takes the older one's entry, whether the older
one still runs or not. From then on the older session is told nothing, and what is on
its way to it goes to the newer one.
-/

namespace JustProxy

namespace Relay

variable {r next : Relay} {action : Action}

/-- An entry of the dispatcher is the last session with the entry's port. -/
def Latest (r : Relay) : Prop :=
  ∀ uuid index, r.clients uuid = some index →
    ∀ other peer, r.peers[other]? = some peer → peer.uuid = uuid → other ≤ index

/-- The peers after a step that is no new connection have the ports they had. -/
theorem step_peer_back (hstep : Step r action next)
    (hconnect : ∀ port, action ≠ .connect port) {index : Nat} {peer : Peer}
    (hpeer : next.peers[index]? = some peer) :
    ∃ old, r.peers[index]? = some old ∧ old.uuid = peer.uuid := by
  have hlength := (step_frame hstep hconnect).2
  have hbound := (List.getElem?_eq_some_iff.mp hpeer).1
  rw [hlength] at hbound
  have hold : r.peers[index]? = some r.peers[index] := List.getElem?_eq_getElem hbound
  obtain ⟨peer', hpeer', huuid⟩ := step_peer hstep hold
  obtain rfl : peer' = peer := Option.some.inj (hpeer'.symm.trans hpeer)
  exact ⟨_, hold, huuid.symm⟩

theorem Latest.step (hlatest : r.Latest) (hstep : Step r action next) : next.Latest := by
  intro uuid index hclient other peer hpeer huuid
  by_cases hconnect : ∃ port, action = .connect port
  · obtain ⟨port, rfl⟩ := hconnect
    cases hstep with
    | connect hport =>
        have hbound := (List.getElem?_eq_some_iff.mp hpeer).1
        rw [List.length_append, List.length_singleton] at hbound
        by_cases hsame : uuid = port
        · subst hsame
          obtain rfl : r.peers.length = index := by simpa using hclient
          omega
        · have hold : r.clients uuid = some index := by simpa [hsame] using hclient
          rcases Nat.lt_or_ge other r.peers.length with hother | hother
          · rw [List.getElem?_append_left hother] at hpeer
            exact hlatest uuid index hold other peer hpeer huuid
          · -- the new session has another port
            obtain rfl : other = r.peers.length := by omega
            rw [List.getElem?_concat_length, Option.some.injEq] at hpeer
            subst hpeer
            exact absurd huuid.symm hsame
  · have hother : ∀ port, action ≠ .connect port := fun port heq => hconnect ⟨port, heq⟩
    rw [(step_frame hstep hother).1] at hclient
    obtain ⟨old, hold, hport⟩ := step_peer_back hstep hother hpeer
    exact hlatest uuid index hclient other old hold (hport.trans huuid)

/-- What a session without an entry has been told stays the same. -/
theorem Step.deliveries_of_not_client (hstep : Step r action next) {index : Nat}
    (hclient : ∀ uuid, r.clients uuid ≠ some index) :
    next.deliveries.filter (fun delivery => delivery.session = index) =
      r.deliveries.filter (fun delivery => delivery.session = index) := by
  cases hstep with
  | @deliver response tag rest receiver answer hresponses huuid hreceiver hanswer =>
      have hother : receiver ≠ index := fun heq => hclient _ (heq ▸ hreceiver)
      rw [List.filter_append, List.filter_cons_of_neg (by simpa using hother), List.filter_nil,
        List.append_nil]
  | _ => rfl

end Relay

namespace System

variable {s next : System}

/-- An older session and a newer one have the same port. -/
structure Superseded (s : System) (older newer : Nat) (uuid : UInt16) : Prop where
  owned : s.relay.Owned
  latest : s.relay.Latest
  known : s.dispatcher.clients uuid ≠ none
  olderPort : s.port older = some uuid
  newerPort : s.port newer = some uuid
  lt : older < newer

theorem Superseded.entry {older newer : Nat} {uuid : UInt16}
    (hsuperseded : s.Superseded older newer uuid) :
    ∃ last, newer ≤ last ∧ s.dispatcher.clients uuid = some last := by
  obtain ⟨last, hlast⟩ := Option.ne_none_iff_exists'.mp hsuperseded.known
  obtain ⟨peer, hpeer, huuid⟩ := port_eq_some.mp hsuperseded.newerPort
  exact ⟨last, hsuperseded.latest uuid last hlast newer peer hpeer huuid, hlast⟩

/-- No entry of the dispatcher is a superseded session. -/
theorem Superseded.not_client {older newer : Nat} {uuid : UInt16}
    (hsuperseded : s.Superseded older newer uuid) (other : UInt16) :
    s.dispatcher.clients other ≠ some older := by
  intro hclient
  obtain ⟨peer, hpeer, rfl⟩ := hsuperseded.owned other older hclient
  obtain ⟨peer', hpeer', huuid⟩ := port_eq_some.mp hsuperseded.olderPort
  obtain rfl : peer' = peer := Option.some.inj (hpeer'.symm.trans hpeer)
  obtain ⟨last, hlast, hentry⟩ := hsuperseded.entry
  rw [← huuid] at hentry
  obtain rfl : older = last := Option.some.inj (hclient.symm.trans hentry)
  have hlt := hsuperseded.lt
  omega

theorem Superseded.step {older newer : Nat} {uuid : UInt16} {event : Event}
    (hsuperseded : s.Superseded older newer uuid) (hzero : uuid ≠ 0)
    (hstep : s.step event = some next) :
    next.Superseded older newer uuid ∧ next.received older = s.received older := by
  obtain ⟨action, -, hrelay⟩ := step_refines hstep
  have hknown : s.relay.Known uuid := ⟨hzero, hsuperseded.known⟩
  refine ⟨?_, ?_⟩
  · exact {
      owned := hsuperseded.owned.step hrelay
      latest := hsuperseded.latest.step hrelay
      known := (hknown.step hrelay).2
      olderPort := port_of_step hstep hsuperseded.olderPort
      newerPort := port_of_step hstep hsuperseded.newerPort
      lt := hsuperseded.lt }
  · exact congrArg (List.map Delivery.response)
      (hrelay.deliveries_of_not_client hsuperseded.not_client)

/-- A port's newest session takes it over. In every continuation of a run the sessions
that a newer one with their port has superseded are told nothing more, and the
dispatcher's entry is the newer session or a still newer one. -/
theorem received_of_superseded (events later : List Event) (s final : System)
    (hrun : run events = some s) (older newer : Nat) (first second : Session)
    (hfirst : s.sessions[older]? = some first) (hsecond : s.sessions[newer]? = some second)
    (hlt : older < newer) (huuid : first.client.uuid = second.client.uuid)
    (hlater : Transition.run System.step s later = some final) :
    final.received older = s.received older ∧
      ∃ last, newer ≤ last ∧ final.dispatcher.clients first.client.uuid = some last := by
  have hlatest : s.relay.Latest := by
    refine Transition.run_invariant (fun s => s.relay.Latest) ?_ ?_ hrun
    · intro state event next hlatest hstep
      obtain ⟨action, -, hrelay⟩ := step_refines hstep
      exact hlatest.step hrelay
    · intro uuid index hclient
      cases hclient
  have hknown : s.relay.Known first.client.uuid :=
    (addressed_of_run hrun).peers first.peer (List.mem_of_getElem? (relay_peer hfirst))
  have hsuperseded : s.Superseded older newer first.client.uuid := {
    owned := (coherent_of_run hrun).owned
    latest := hlatest
    known := hknown.2
    olderPort := Option.map_eq_some_iff.mpr ⟨first, hfirst, rfl⟩
    newerPort := Option.map_eq_some_iff.mpr ⟨second, hsecond, huuid.symm⟩
    lt := hlt }
  obtain ⟨hfinal, hreceived⟩ := Transition.run_invariant
    (fun t => t.Superseded older newer first.client.uuid ∧ t.received older = s.received older)
    (fun hstate hstep => by
      obtain ⟨hnext, hsame⟩ := hstate.1.step hknown.1 hstep
      exact ⟨hnext, hsame.trans hstate.2⟩)
    ⟨hsuperseded, rfl⟩ hlater
  exact ⟨hreceived, hfinal.entry⟩

/-- A second application comes from the port of the first one. -/
def portReturns : List Event := Event.asks 5000 0 ++
  [.clientMail, .serverRecv (.accepted 0), .resolved 0 (.connected ()), .serverMail, .forward,
    .clientRecv, .connect 5000]

/-- The target of the first application is read. -/
def readLate : List Event := [.read 0 (.chunk [72, 105]), .serverMail, .forward, .clientRecv]

theorem received_of_superseded_read : ∃ s final, run portReturns = some s ∧
    Transition.run System.step s readLate = some final ∧ s.received 0 = [.succeeded] ∧
    final.received 1 = [.data [72, 105]] ∧ final.received 0 = s.received 0 ∧
    ∃ last, 1 ≤ last ∧ final.dispatcher.clients 5000 = some last :=
  ⟨_, _, rfl, rfl, rfl, rfl, received_of_superseded portReturns readLate _ _ rfl 0 1 _ _ rfl rfl
    (by decide) rfl rfl⟩

end System

end JustProxy
