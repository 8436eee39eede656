import JustProxy.Component.Reader
import JustProxy.Foundation.Transition

/-! # Connections of one uuid

The actor knows a connection only by its uuid, and several connections of one
uuid may be established one after the other. Beside the actor runs a record of
the connection that was established last for each uuid.
-/

namespace JustProxy

variable {Writer : Type}

/-- What the actor is told about connections. The writer of a connection that has
died is not part of the message. -/
inductive ConnectionEvent (Writer : Type) where
  | established (uuid : UInt16) (writer : Writer)
  | dead (uuid : UInt16) (writer : Writer)
  | data (uuid : UInt16) (bytes : List UInt8) (result : WriteResult)
  deriving DecidableEq

def ProxyClient.handleEvent (self : ProxyClient Writer) :
    ConnectionEvent Writer → ProxyClient.Reaction Writer
  | .established uuid writer => self.handleMail (.connectionEstablished uuid writer)
  | .dead uuid _ => self.handleMail (.connectionDead uuid)
  | .data uuid bytes result => self.handleProxyRequest (.new uuid (.data bytes)) result

/-! ## The record -/

/-- The connection that was established last for a uuid, and whether it has
neither died nor had a failing write. -/
structure LastConnection (Writer : Type) where
  writer : Writer
  sound : Bool
  deriving DecidableEq

abbrev Record (Writer : Type) := UInt16 → Option (LastConnection Writer)

namespace Record

variable [DecidableEq Writer]

/-- A death counts for the connection that has died, a failing write for the
last connection of its uuid. -/
def after (record : Record Writer) : ConnectionEvent Writer → Record Writer
  | .established uuid writer => Function.update record uuid (some ⟨writer, true⟩)
  | .dead uuid writer => Function.update record uuid ((record uuid).map fun last =>
      if last.writer = writer then { last with sound := false } else last)
  | .data uuid _ result => Function.update record uuid ((record uuid).map fun last =>
      if result.isErr then { last with sound := false } else last)

/-- The entries that the actor should have. -/
def expected {Writer : Type} (record : Record Writer) (uuid : UInt16) : Option Writer :=
  (record uuid).bind fun last => if last.sound then some last.writer else none

end Record

/-- The actor with the record beside it. -/
structure Recorded (Writer : Type) where
  actor : ProxyClient Writer
  record : Record Writer

namespace Recorded

/-- A new actor, with its output queue. -/
def start : Recorded Writer := ⟨⟨true, fun _ => none⟩, fun _ => none⟩

def step [DecidableEq Writer] (s : Recorded Writer) (event : ConnectionEvent Writer) :
    Option (Recorded Writer) :=
  (s.actor.handleEvent event).map fun (actor, _) => ⟨actor, s.record.after event⟩

/-- The event is the death of a connection while a later one of its uuid has been
established. -/
def LateDeath (s : Recorded Writer) (event : ConnectionEvent Writer) : Prop :=
  ∃ uuid writer last, event = .dead uuid writer ∧ s.record uuid = some last ∧
    last.writer ≠ writer

/-- In every step that the actor takes, its entries become the expected ones, and
a late death queues no `Abort`. -/
def Undisturbed [DecidableEq Writer] (events : List (ConnectionEvent Writer)) : Prop :=
  ∀ before event after s actor effects, events = before ++ event :: after →
    Transition.run step start before = some s →
    s.actor.handleEvent event = some (actor, effects) →
    actor.connections = (s.record.after event).expected ∧
      ∀ uuid writer, event = .dead uuid writer → s.LateDeath event →
        .send (.new uuid (.response .abort)) ∉ effects

/-! ## Steps -/

/-- The actor's entries are the expected ones, and its queue is there. -/
structure Agrees (s : Recorded Writer) : Prop where
  receiving : s.actor.receiving = true
  connections : s.actor.connections = s.record.expected

theorem agrees_start : (start : Recorded Writer).Agrees := ⟨rfl, rfl⟩

/-- A death is always answered by an `Abort`. -/
theorem dead_queues_abort {s : Recorded Writer} (hreceiving : s.actor.receiving = true)
    (uuid : UInt16) (writer : Writer) :
    ∃ actor effects, s.actor.handleEvent (.dead uuid writer) = some (actor, effects) ∧
      .send (.new uuid (.response .abort)) ∈ effects := by
  obtain ⟨next, hmail, -, -⟩ := ProxyClient.handleMail_eq hreceiving (.connectionDead uuid)
  exact ⟨next, _, hmail, List.mem_singleton.mpr rfl⟩

theorem receiving_of_handleEvent {self actor : ProxyClient Writer}
    {event : ConnectionEvent Writer} {effects : List (ServerEffect Writer)}
    (hreceiving : self.receiving = true)
    (hhandle : self.handleEvent event = some (actor, effects)) : actor.receiving = true := by
  rw [← hreceiving]
  cases event with
  | established established writer =>
      rw [ProxyClient.handleEvent] at hhandle
      exact ProxyClient.receiving_of_handleMail hhandle
  | dead dead writer =>
      rw [ProxyClient.handleEvent] at hhandle
      exact ProxyClient.receiving_of_handleMail hhandle
  | data target bytes result =>
      rw [ProxyClient.handleEvent] at hhandle
      exact ProxyClient.receiving_of_handleProxyRequest hhandle

variable [DecidableEq Writer]

theorem Agrees.step {s : Recorded Writer} {event : ConnectionEvent Writer}
    {actor : ProxyClient Writer} {effects : List (ServerEffect Writer)} (hagrees : s.Agrees)
    (hown : ¬ s.LateDeath event) (hhandle : s.actor.handleEvent event = some (actor, effects)) :
    Agrees ⟨actor, s.record.after event⟩ := by
  have hreceiving := hagrees.receiving
  have hentry := congrFun hagrees.connections
  cases event with
  | established established writer =>
      obtain ⟨next, hmail, hnext, hconnections⟩ :=
        ProxyClient.handleMail_eq hreceiving (.connectionEstablished established writer)
      rw [ProxyClient.handleEvent, hmail] at hhandle
      cases hhandle
      refine ⟨hnext, funext fun uuid => ?_⟩
      rw [hconnections, hentry uuid]
      by_cases huuid : established = uuid
      · simp [huuid, ServerMail.uuid, ServerMail.entryAfter, Record.expected, Record.after]
      · simp [huuid, Ne.symm huuid, ServerMail.uuid, Record.expected, Record.after]
  | dead dead writer =>
      obtain ⟨next, hmail, hnext, hconnections⟩ :=
        ProxyClient.handleMail_eq hreceiving (.connectionDead dead)
      rw [ProxyClient.handleEvent, hmail] at hhandle
      cases hhandle
      refine ⟨hnext, funext fun uuid => ?_⟩
      rw [hconnections, hentry uuid]
      by_cases huuid : dead = uuid
      · subst huuid
        cases hlast : s.record dead with
        | none =>
            simp [hlast, ServerMail.uuid, ServerMail.entryAfter, Record.expected, Record.after]
        | some last =>
            -- the connection that has died is the last one
            have hwriter : last.writer = writer := by
              by_contra hne
              exact hown ⟨dead, writer, last, rfl, hlast, hne⟩
            simp [hlast, hwriter, ServerMail.uuid, ServerMail.entryAfter, Record.expected,
              Record.after]
      · simp [huuid, Ne.symm huuid, ServerMail.uuid, Record.expected, Record.after]
  | data target bytes result =>
      cases hconn : s.actor.connections target with
      | none =>
          rw [ProxyClient.handleEvent, ProxyClient.handleProxyRequest_data_none hconn] at hhandle
          cases hhandle
      | some writer =>
          rw [ProxyClient.handleEvent, ProxyClient.handleProxyRequest_data hconn] at hhandle
          cases hhandle
          cases herr : result.isErr with
          | false =>
              refine ⟨hreceiving, funext fun uuid => ?_⟩
              rw [if_neg (by decide), hentry uuid]
              by_cases huuid : target = uuid
              · simp [huuid, herr, Record.expected, Record.after]
              · simp [Ne.symm huuid, Record.expected, Record.after]
          | true =>
              refine ⟨hreceiving, funext fun uuid => ?_⟩
              rw [if_pos rfl]
              by_cases huuid : target = uuid
              · subst huuid
                cases hlast : s.record target <;> simp [hlast, herr, Record.expected, Record.after]
              · simp [ProxyClient.removeConnection, Ne.symm huuid, hentry uuid, Record.expected,
                  Record.after]

/-! ## Runs -/

theorem receiving_of_run {s : Recorded Writer} {events : List (ConnectionEvent Writer)}
    (hrun : Transition.run step start events = some s) : s.actor.receiving = true := by
  refine Transition.run_invariant (fun s => s.actor.receiving = true) ?_ rfl hrun
  intro s event next hreceiving hstep
  obtain ⟨⟨actor, effects⟩, hhandle, rfl⟩ := Option.map_eq_some_iff.mp hstep
  exact receiving_of_handleEvent hreceiving hhandle

/-- Late deaths. In every run from a new actor, each step gives the actor the
entries it should have, and the death of an earlier connection no `Abort`,
exactly when no step handles the death of a connection after a later one of its
uuid has been established. -/
theorem undisturbed_iff (events : List (ConnectionEvent Writer)) :
    Undisturbed events ↔
      Transition.Meets step (fun s event => ¬ s.LateDeath event) start events := by
  constructor
  · intro hundisturbed
    refine Transition.meets_iff.mpr fun before event after s hevents hrun hlate => ?_
    obtain ⟨uuid, writer, last, rfl, hlast, hne⟩ := hlate
    obtain ⟨actor, effects, hhandle, habort⟩ :=
      dead_queues_abort (receiving_of_run hrun) uuid writer
    have hstep := hundisturbed before _ after s actor effects hevents hrun hhandle
    exact hstep.2 uuid writer rfl ⟨uuid, writer, last, rfl, hlast, hne⟩ habort
  · intro hmeets before event after s actor effects hevents hrun hhandle
    subst hevents
    have hagrees : s.Agrees := by
      refine hmeets.of_append.invariant Agrees ?_ agrees_start hrun
      intro s event next hagrees hown hstep
      obtain ⟨⟨actor, effects⟩, hhandle, rfl⟩ := Option.map_eq_some_iff.mp hstep
      exact hagrees.step hown hhandle
    have hown := Transition.meets_iff.mp hmeets before event after s rfl hrun
    exact ⟨(hagrees.step hown hhandle).connections, fun uuid writer _ hlate => absurd hlate hown⟩

/-- The old reader of a reused port reports its death after the new connection
has been established. -/
theorem late_death_disturbs :
    ¬ Undisturbed [.established 5000 1, .established 5000 2, .dead 5000 1] := by
  intro hundisturbed
  have hstep := hundisturbed [.established 5000 1, .established 5000 2] (.dead 5000 1) []
    _ _ _ rfl rfl rfl
  exact absurd (congrFun hstep.1 5000) (by decide)

end Recorded

end JustProxy
