import JustProxy.System.Heartbeats

/-! # Round-trip times

With each echo the dispatcher reports how long ago it has last sent a heartbeat.
Beside the system runs a list of the heartbeats on their way, each with the
instant at which it was sent; the echo that is handled belongs to the first one.
-/

namespace JustProxy

structure SentHeartbeat where
  index : UInt32
  instant : Nat
  deriving DecidableEq, Repr

/-- What the dispatcher logs for an echo. -/
structure EchoReport where
  rtt : Nat
  index : UInt32
  deriving DecidableEq, Repr

namespace System

variable {s next : System}

/-- The heartbeat that the dispatcher sends in a step. -/
def sends (s : System) : Event → List SentHeartbeat
  | .clientMail =>
      match s.clientMail with
      | ⟨.heartbeat, _⟩ :: _ =>
          ((s.dispatcher.handleHeartbeat s.clock).2.request.heartbeatIndex.map fun index =>
            ⟨index, s.clock⟩).toList
      | _ => []
  | _ => []

/-- What the dispatcher reports in a step. -/
def reports (s : System) : Event → List EchoReport
  | .clientRecv =>
      if s.dispatcherUp then
        match s.downstream with
        | ⟨response, _⟩ :: _ =>
            match s.dispatcher.handleProxyResponse response s.clock with
            | some (_, .heartbeat rtt index) => [⟨rtt, index⟩]
            | _ => []
        | [] => []
      else []
  | _ => []

end System

/-- The system, and the heartbeats on their way. -/
structure Timed where
  system : System
  outstanding : List SentHeartbeat

namespace Timed

def start : Timed := ⟨.init, []⟩

/-- An echo takes the first heartbeat off the list. -/
def step (t : Timed) (event : Event) : Option Timed :=
  (t.system.step event).map fun next =>
    ⟨next, (t.outstanding ++ t.system.sends event).drop (t.system.reports event).length⟩

/-- Every report names the heartbeat that has come back, and the time since it
was sent. -/
def RttRight (events : List Event) : Prop :=
  ∀ before event after t, events = before ++ event :: after →
    Transition.run step start before = some t →
    ∀ report ∈ t.system.reports event, ∃ sent rest, t.outstanding = sent :: rest ∧
      report.index = sent.index ∧ report.rtt = t.system.clock - sent.instant

/-- Whenever an echo is handled, no heartbeat has been sent later than its own. -/
def LatestEchoed (events : List Event) : Prop :=
  ∀ before event after t, events = before ++ event :: after →
    Transition.run step start before = some t → t.system.reports event ≠ [] →
    ∀ sent rest, t.outstanding = sent :: rest → ∀ later ∈ rest, later.instant ≤ sent.instant

/-- The list beside a run does not disturb the run. -/
theorem run_system (t : Timed) (events : List Event) :
    (Transition.run step t events).map Timed.system =
      Transition.run System.step t.system events := by
  induction events generalizing t with
  | nil => rfl
  | cons event rest ih =>
      rw [Transition.run, Transition.run, step]
      cases t.system.step event with
      | none => rfl
      | some next => exact ih _

end Timed

/-! ## Instants -/

namespace System

variable {s next : System}

/-- Time does not run backwards, and only a heartbeat sets the instant of the
last one. -/
structure KeepsTime (s : System) (event : Event) (next : System) : Prop where
  clock : s.clock ≤ next.clock
  lastHbInstant : (s.sends event = [] ∧
      next.dispatcher.lastHbInstant = s.dispatcher.lastHbInstant) ∨
    ∃ index, s.sends event = [⟨index, s.clock⟩] ∧ next.dispatcher.lastHbInstant = s.clock

theorem keepsTime_of_eq {event : Event} (hsends : s.sends event = [])
    (hclock : next.clock = s.clock)
    (hinstant : next.dispatcher.lastHbInstant = s.dispatcher.lastHbInstant) :
    s.KeepsTime event next :=
  ⟨hclock.ge, .inl ⟨hsends, hinstant⟩⟩

theorem sessionStep_keepsTime {event : Event} {index : Nat} (hsends : s.sends event = [])
    (hstep : s.SessionStep index next) : s.KeepsTime event next := by
  obtain ⟨session, session', mails, -, -, -, rfl⟩ := hstep
  exact keepsTime_of_eq hsends rfl rfl

theorem handleClientMail_keepsTime (hstep : s.handleClientMail = some next) :
    s.KeepsTime .clientMail next := by
  cases handleClientMail_cases hstep with
  | request hup hmail =>
      refine keepsTime_of_eq ?_ rfl rfl
      simp only [sends, hmail]
  | heartbeat hup hmail =>
      refine ⟨Nat.le_refl _, .inr ⟨s.dispatcher.hbIndex + 1, ?_, rfl⟩⟩
      simp only [sends, hmail]
      rfl

theorem clientRecv_keepsTime (hstep : s.clientRecv = some next) :
    s.KeepsTime .clientRecv next := by
  cases clientRecv_cases hstep <;> exact keepsTime_of_eq rfl rfl rfl

theorem serverStep_keepsTime {event : Event} (hsends : s.sends event = [])
    (hstep : s.ServerStep next) : s.KeepsTime event next := by
  cases hstep <;> exact keepsTime_of_eq hsends rfl rfl

theorem step_keepsTime {event : Event} (hstep : s.step event = some next) :
    s.KeepsTime event next := by
  cases event with
  | connect port =>
      obtain ⟨-, -, rfl⟩ := connect_eq_some hstep
      exact keepsTime_of_eq rfl rfl rfl
  | appBytes index bytes => exact sessionStep_keepsTime rfl (step_session hstep rfl)
  | appPoll index => exact sessionStep_keepsTime rfl (step_session hstep rfl)
  | appClose index => exact sessionStep_keepsTime rfl (step_session hstep rfl)
  | socksMail index => exact sessionStep_keepsTime rfl (step_session hstep rfl)
  | tick =>
      obtain ⟨-, ⟨-, rfl⟩ | ⟨-, rfl⟩⟩ := tick_eq_some hstep
      · exact keepsTime_of_eq rfl rfl rfl
      · exact keepsTime_of_eq rfl rfl rfl
  | clientMail => exact handleClientMail_keepsTime hstep
  | clientRecv => exact clientRecv_keepsTime hstep
  | wait millis =>
      cases hstep
      exact ⟨Nat.le_add_right _ _, .inl ⟨rfl, rfl⟩⟩
  | _ => exact serverStep_keepsTime rfl (step_serverStep hstep rfl)

/-- The two records of a step agree on the indices. -/
theorem sends_index (s : System) (event : Event) :
    (s.sends event).map SentHeartbeat.index = s.pings event := by
  cases event with
  | clientMail =>
      rcases hmail : s.clientMail with _ | ⟨⟨_ | _, tag⟩, rest⟩
      · simp [sends, pings, hmail]
      · simp [sends, pings, hmail]
      · simp [sends, pings, hmail, Server.handleHeartbeat, ProxyRequest.new,
          ProxyTransfer.heartbeatIndex]
  | _ => rfl

theorem reports_index {event : Event} (hstep : s.step event = some next) :
    (s.reports event).map EchoReport.index = s.echoes event := by
  cases event with
  | clientRecv =>
      cases clientRecv_cases hstep with
      | panic hup hdownstream hhandle => simp [reports, echoes, hdownstream, hhandle]
      | echo hup hdownstream hzero hindex hhandle =>
          simp [reports, echoes, hdownstream, hhandle, hup]
      | deliver hup hdownstream hzero hclient hanswer hhandle =>
          simp [reports, echoes, hdownstream, hhandle]
  | _ => rfl

/-- A report belongs to a step that handles an echo. -/
theorem exists_of_mem_reports {event : Event} {report : EchoReport}
    (hreport : report ∈ s.reports event) :
    ∃ next, s.step event = some next ∧ s.reports event = [report] ∧ s.sends event = [] ∧
      report.rtt = s.clock - s.dispatcher.lastHbInstant := by
  cases event with
  | clientRecv =>
      simp only [reports] at hreport ⊢
      split at hreport
      next hup =>
        split at hreport
        next response tag tail hdownstream =>
          split at hreport
          next dispatcher rtt index hhandle =>
            rw [List.mem_singleton.mp hreport]
            have hrtt : rtt = s.clock - s.dispatcher.lastHbInstant := by
              rcases Server.handleProxyResponse_eq_some hhandle with
                ⟨-, index', -, -, heq⟩ | ⟨-, session, answer, -, -, -, heq⟩
              · cases heq
                rfl
              · cases heq
            refine ⟨{ s with dispatcher := dispatcher, downstream := tail }, ?_, ?_, rfl, hrtt⟩
            · simp only [step, clientRecv, hup, if_true, hdownstream, hhandle]
            · simp only [hup, if_true]
          next => cases hreport
        next => cases hreport
      next => cases hreport
  | _ => cases hreport

end System

namespace Timed

/-- The list beside the system is what is on its way in it. -/
structure Synced (t : Timed) : Prop where
  plain : t.system.Plain
  indices : t.outstanding.map SentHeartbeat.index = t.system.heartbeats
  latest : ∀ {sent}, t.outstanding.getLast? = some sent →
    sent.instant = t.system.dispatcher.lastHbInstant
  past : ∀ sent ∈ t.outstanding, sent.instant ≤ t.system.dispatcher.lastHbInstant
  clock : t.system.dispatcher.lastHbInstant ≤ t.system.clock

theorem synced_start : start.Synced where
  plain := System.plain_init
  indices := rfl
  latest := nofun
  past := nofun
  clock := Nat.le_refl 0

theorem Synced.step {t next : Timed} {event : Event} (hsynced : t.Synced)
    (hstep : t.step event = some next) : next.Synced := by
  obtain ⟨system, hsystem, rfl⟩ := Option.map_eq_some_iff.mp hstep
  obtain ⟨hplain, hheartbeats⟩ := System.step_forwards hsystem hsynced.plain
  obtain ⟨hclock, hlast⟩ := System.step_keepsTime hsystem
  have hnow := hsynced.clock
  have hlater : t.system.dispatcher.lastHbInstant ≤ system.dispatcher.lastHbInstant := by
    rcases hlast with ⟨-, hinstant⟩ | ⟨index, -, hinstant⟩ <;> omega
  have hpresent : system.dispatcher.lastHbInstant ≤ system.clock := by
    rcases hlast with ⟨-, hinstant⟩ | ⟨index, -, hinstant⟩ <;> omega
  refine ⟨hplain, ?_, ?_, ?_, hpresent⟩
  · -- echoes leave at the front, heartbeats join at the end
    rw [List.map_drop, List.map_append, hsynced.indices, System.sends_index, hheartbeats,
      ← System.reports_index hsystem, List.drop_left' (List.length_map _)]
  · intro sent hsent
    rw [List.getLast?_drop] at hsent
    split at hsent
    · cases hsent
    · rcases hlast with ⟨hsends, hinstant⟩ | ⟨index, hsends, hinstant⟩
      · rw [hsends, List.append_nil] at hsent
        exact (hsynced.latest hsent).trans hinstant.symm
      · rw [hsends, List.getLast?_concat] at hsent
        cases hsent
        exact hinstant.symm
  · intro sent hsent
    rcases List.mem_append.mp (List.mem_of_mem_drop hsent) with hold | hnew
    · exact (hsynced.past sent hold).trans hlater
    · rcases hlast with ⟨hsends, -⟩ | ⟨index, hsends, hinstant⟩
      · rw [hsends] at hnew
        cases hnew
      · rw [hsends] at hnew
        rw [List.mem_singleton.mp hnew]
        exact hinstant.ge

theorem synced_of_run {t : Timed} {events : List Event}
    (hrun : Transition.run step start events = some t) : t.Synced :=
  Transition.run_invariant Synced (fun hsynced hstep => hsynced.step hstep) synced_start hrun

/-- The echo that is handled is that of the first heartbeat on its way. -/
theorem Synced.exists_sent {t : Timed} (hsynced : t.Synced) {event : Event}
    {report : EchoReport} (hreport : report ∈ t.system.reports event) :
    ∃ sent rest, t.outstanding = sent :: rest ∧ report.index = sent.index := by
  obtain ⟨next, hnext, hreports, hsends, -⟩ := System.exists_of_mem_reports hreport
  obtain ⟨-, hheartbeats⟩ := System.step_forwards hnext hsynced.plain
  rw [← hsynced.indices, ← System.sends_index, ← System.reports_index hnext, hreports, hsends,
    List.map_nil, List.append_nil] at hheartbeats
  obtain ⟨sent, rest, houtstanding, hindex, -⟩ := List.map_eq_cons_iff.mp hheartbeats
  exact ⟨sent, rest, houtstanding, hindex.symm⟩

/-- The instant of the last heartbeat is that of the first one on its way exactly
when none was sent later. -/
theorem Synced.lastHbInstant_eq_iff {t : Timed} (hsynced : t.Synced) {sent : SentHeartbeat}
    {rest : List SentHeartbeat} (houtstanding : t.outstanding = sent :: rest) :
    t.system.dispatcher.lastHbInstant = sent.instant ↔
      ∀ later ∈ rest, later.instant ≤ sent.instant := by
  constructor
  · intro hinstant later hlater
    rw [← hinstant]
    exact hsynced.past later (houtstanding ▸ List.mem_cons_of_mem _ hlater)
  · intro hnone
    obtain ⟨last, hlast⟩ := List.getLast?_isSome.mpr (List.cons_ne_nil sent rest) |>
      Option.isSome_iff_exists.mp
    have hinstant := hsynced.latest (houtstanding ▸ hlast)
    have hpast := hsynced.past sent (houtstanding ▸ List.mem_cons_self)
    rcases List.mem_cons.mp (List.mem_of_getLast? hlast) with rfl | hlater
    · exact hinstant.symm
    · exact Nat.le_antisymm (hinstant ▸ hnone last hlater) hpast

/-- Round-trip times are right exactly when no echo is handled with a later
heartbeat already sent. -/
theorem rttRight_iff (events : List Event) : RttRight events ↔ LatestEchoed events := by
  constructor
  · intro hright before event after t hevents hrun hreports sent rest houtstanding
    obtain ⟨report, hreport⟩ := List.exists_mem_of_ne_nil _ hreports
    obtain ⟨sent', rest', houtstanding', -, hrtt⟩ :=
      hright before event after t hevents hrun report hreport
    rw [houtstanding] at houtstanding'
    cases houtstanding'
    obtain ⟨-, -, -, -, hreported⟩ := System.exists_of_mem_reports hreport
    have hsynced := synced_of_run hrun
    have hnow := hsynced.clock
    have hpast := hsynced.past sent (houtstanding ▸ List.mem_cons_self)
    rw [← hsynced.lastHbInstant_eq_iff houtstanding]
    omega
  · intro hlatest before event after t hevents hrun report hreport
    have hsynced := synced_of_run hrun
    obtain ⟨sent, rest, houtstanding, hindex⟩ := hsynced.exists_sent hreport
    obtain ⟨-, -, -, -, hreported⟩ := System.exists_of_mem_reports hreport
    have hinstant := (hsynced.lastHbInstant_eq_iff houtstanding).mpr
      (hlatest before event after t hevents hrun (List.ne_nil_of_mem hreport) sent rest
        houtstanding)
    exact ⟨sent, rest, houtstanding, hindex, hinstant ▸ hreported⟩

/-- The echo of the first heartbeat takes seven seconds; five seconds after it
the second one is sent. -/
def slowEcho : List Event :=
  [.tick, .clientMail, .wait 5000, .tick, .clientMail, .wait 2000, .serverRecv (.accepted 0),
    .forward]

/-- Two seconds are reported. -/
theorem slowEcho_rtt_wrong : ¬ RttRight (slowEcho ++ [.clientRecv]) := by
  intro hright
  obtain ⟨sent, rest, houtstanding, -, hrtt⟩ :=
    hright slowEcho .clientRecv [] _ rfl rfl ⟨2000, 1⟩ (by decide)
  cases houtstanding
  exact absurd hrtt (by decide)

end Timed

end JustProxy
