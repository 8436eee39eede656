import Mathlib.Algebra.GroupWithZero.Nat
import Mathlib.Data.Option.Basic

/-! # Runs of a transition system

A system takes one step for each event; an event may be impossible in a state.
What one step preserves, a run preserves, also when the step only preserves it
under a condition that every step of the run meets. What the steps put on record
is compared over a whole run.
-/

namespace Transition

variable {State Event : Type} (step : State → Event → Option State)

/-- The state after a list of events, when all of them are possible. -/
def run : State → List Event → Option State
  | state, [] => some state
  | state, event :: rest => (step state event).bind fun next => run next rest

/-- Every step of a run meets a condition on the state before it. -/
def Meets (cond : State → Event → Prop) : State → List Event → Prop
  | _, [] => True
  | state, event :: rest => cond state event ∧ ∀ next, step state event = some next →
      Meets cond next rest

variable {step} {cond : State → Event → Prop}

theorem run_cons {state final : State} {event : Event} {rest : List Event} :
    run step state (event :: rest) = some final ↔
      ∃ next, step state event = some next ∧ run step next rest = some final :=
  Option.bind_eq_some_iff

theorem run_append (state : State) (first second : List Event) :
    run step state (first ++ second) =
      (run step state first).bind fun middle => run step middle second := by
  induction first generalizing state with
  | nil => rfl
  | cons event rest ih =>
      rw [List.cons_append, run, run, Option.bind_assoc]
      exact congrArg _ (funext ih)

/-- Every step of a run: the event after any part of the run that is possible. -/
theorem meets_iff {state : State} {events : List Event} :
    Meets step cond state events ↔ ∀ before event after middle,
      events = before ++ event :: after → run step state before = some middle →
      cond middle event := by
  induction events generalizing state with
  | nil => simp [Meets]
  | cons first rest ih =>
      constructor
      · rintro ⟨hfirst, hrest⟩ before event after middle hevents hmiddle
        cases before with
        | nil =>
            obtain ⟨rfl, -⟩ := List.cons.inj hevents
            cases hmiddle
            exact hfirst
        | cons first' before =>
            obtain ⟨rfl, htail⟩ := List.cons.inj hevents
            obtain ⟨next, hnext, hbefore⟩ := run_cons.mp hmiddle
            exact ih.mp (hrest next hnext) before event after middle htail hbefore
      · intro hall
        refine ⟨hall [] first rest state rfl rfl, fun next hnext => ih.mpr ?_⟩
        intro before event after middle hrest hmiddle
        exact hall (first :: before) event after middle (by rw [hrest]; rfl)
          (run_cons.mpr ⟨next, hnext, hmiddle⟩)

theorem Meets.cons {state next : State} {event : Event} {rest : List Event}
    (hcond : cond state event) (hnext : step state event = some next)
    (hrest : Meets step cond next rest) : Meets step cond state (event :: rest) := by
  refine ⟨hcond, fun other hother => ?_⟩
  rw [hnext] at hother
  cases hother
  exact hrest

/-- Whether a run meets a condition can be decided along the run. -/
instance Meets.decidable [∀ state event, Decidable (cond state event)] :
    (state : State) → (events : List Event) → Decidable (Meets step cond state events)
  | _, [] => isTrue trivial
  | state, event :: rest =>
      match hnext : step state event with
      | none => decidable_of_iff (cond state event) (by simp [Meets, hnext])
      | some next =>
          have := Meets.decidable next rest
          decidable_of_iff (cond state event ∧ Meets step cond next rest)
            (by simp [Meets, hnext])

/-- What every step meeting the condition preserves holds behind every run
whose steps meet it. -/
theorem Meets.invariant (invariant : State → Prop)
    (hstep : ∀ {state event next}, invariant state → cond state event →
      step state event = some next → invariant next)
    {state final : State} {events : List Event} (hmeets : Meets step cond state events)
    (hinvariant : invariant state) (hrun : run step state events = some final) :
    invariant final := by
  induction events generalizing state with
  | nil =>
      cases hrun
      exact hinvariant
  | cons event rest ih =>
      obtain ⟨next, hnext, hrest⟩ := run_cons.mp hrun
      exact ih (hmeets.2 next hnext) (hstep hinvariant hmeets.1 hnext) hrest

/-- The first part of a run meets what the run meets. -/
theorem Meets.of_append {state : State} {first second : List Event}
    (hmeets : Meets step cond state (first ++ second)) : Meets step cond state first := by
  refine meets_iff.mpr fun before event after middle hfirst hmiddle => ?_
  refine meets_iff.mp hmeets before event (after ++ second) middle ?_ hmiddle
  rw [hfirst, List.append_assoc]
  rfl

theorem Meets.append {state middle : State} {first second : List Event}
    (hfirst : Meets step cond state first) (hrun : run step state first = some middle)
    (hsecond : Meets step cond middle second) : Meets step cond state (first ++ second) := by
  induction first generalizing state with
  | nil =>
      cases hrun
      exact hsecond
  | cons event rest ih =>
      obtain ⟨next, hnext, hrest⟩ := run_cons.mp hrun
      exact .cons hfirst.1 hnext (ih (hfirst.2 next hnext) hrest)

/-- Every run meets the trivial condition. -/
theorem meets_true (state : State) (events : List Event) :
    Meets step (fun _ _ => True) state events := by
  induction events generalizing state with
  | nil => trivial
  | cons event rest ih => exact ⟨trivial, fun next _ => ih next⟩

/-- What every step preserves holds behind every run. -/
theorem run_invariant (invariant : State → Prop)
    (hstep : ∀ {state event next}, invariant state → step state event = some next →
      invariant next)
    {state final : State} {events : List Event} (hinvariant : invariant state)
    (hrun : run step state events = some final) : invariant final :=
  (meets_true state events).invariant invariant (fun hstate _ => hstep hstate) hinvariant hrun

/-- Events that use up a budget: a run has at most as many of them as there is
budget at its start. -/
theorem run_countP_le (budget : State → Nat) (counts : Event → Bool)
    (hstep : ∀ {state event next}, step state event = some next →
      budget next + (counts event).toNat ≤ budget state)
    {state final : State} {events : List Event} (hrun : run step state events = some final) :
    events.countP counts ≤ budget state := by
  induction events generalizing state with
  | nil => exact Nat.zero_le _
  | cons event rest ih =>
      obtain ⟨next, hnext, hrest⟩ := run_cons.mp hrun
      have hbudget := hstep hnext
      have hcount := ih hrest
      cases hevent : counts event with
      | true =>
          rw [hevent, Bool.toNat_true] at hbudget
          rw [List.countP_cons_of_pos hevent]
          omega
      | false =>
          rw [List.countP_cons_of_neg (by simp [hevent])]
          omega

/-- Events that use up a budget which others refill: a run has at most as many of
the first kind as there is budget at its start and comes in with the others. -/
theorem run_countP_le_add (budget : State → Nat) (counts : Event → Bool) (gives : Event → Nat)
    (hstep : ∀ {state event next}, step state event = some next →
      budget next + (counts event).toNat ≤ budget state + gives event)
    {state final : State} {events : List Event} (hrun : run step state events = some final) :
    budget final + events.countP counts ≤ budget state + (events.map gives).sum := by
  induction events generalizing state with
  | nil =>
      cases hrun
      exact Nat.le_refl _
  | cons event rest ih =>
      obtain ⟨next, hnext, hrest⟩ := run_cons.mp hrun
      have hbudget := hstep hnext
      have hcount := ih hrest
      rw [List.map_cons, List.sum_cons, List.countP_cons]
      cases hevent : counts event with
      | true =>
          rw [hevent, Bool.toNat_true] at hbudget
          rw [if_pos rfl]
          omega
      | false =>
          rw [hevent, Bool.toNat_false] at hbudget
          rw [if_neg Bool.false_ne_true]
          omega

/-- Work that every step of some kind uses up comes to an end: some such steps lead
to a state in which none of them is possible. -/
theorem exists_run_to_end (work : State → Nat) (works : Event → Prop)
    (hstep : ∀ {state event next}, works event → step state event = some next →
      work next < work state) (state : State) :
    ∃ events final, run step state events = some final ∧ (∀ event ∈ events, works event) ∧
      events.length ≤ work state ∧ ∀ event, works event → step final event = none := by
  induction hwork : work state using Nat.strongRecOn generalizing state with
  | ind bound ih =>
      by_cases hend : ∀ event, works event → step state event = none
      · exact ⟨[], state, rfl, by simp, Nat.zero_le _, hend⟩
      · obtain ⟨event, hevent⟩ := not_forall.mp hend
        obtain ⟨hworks, hsome⟩ := Classical.not_imp.mp hevent
        obtain ⟨next, hnext⟩ := Option.ne_none_iff_exists'.mp hsome
        have hless := hstep hworks hnext
        obtain ⟨events, final, hrun, hall, hlength, hfinal⟩ :=
          ih (work next) (hwork ▸ hless) next rfl
        refine ⟨event :: events, final, run_cons.mpr ⟨next, hnext, hrun⟩, ?_, ?_, hfinal⟩
        · exact List.forall_mem_cons.mpr ⟨hworks, hall⟩
        · rw [List.length_cons]
          omega

/-! ## Simulation -/

/-- One system simulates another when each step of the second is matched by a run
of the first over the events that the step's event stands for. -/
theorem Meets.simulates {State' Event' : Type} {step' : State' → Event' → Option State'}
    (stands : Event → List Event') (related : State → State' → Prop)
    (hstep : ∀ {state event next state'}, related state state' → cond state event →
      step state event = some next →
      ∃ next', run step' state' (stands event) = some next' ∧ related next next')
    {state final : State} {state' : State'} {events : List Event}
    (hmeets : Meets step cond state events) (hrelated : related state state')
    (hrun : run step state events = some final) :
    ∃ final', run step' state' (events.flatMap stands) = some final' ∧ related final final' := by
  induction events generalizing state state' with
  | nil =>
      cases hrun
      exact ⟨state', rfl, hrelated⟩
  | cons event rest ih =>
      obtain ⟨next, hnext, hrest⟩ := run_cons.mp hrun
      obtain ⟨next', hmatch, hrelated'⟩ := hstep hrelated hmeets.1 hnext
      obtain ⟨final', hlater, hfinal⟩ := ih (hmeets.2 next hnext) hrelated' hrest
      refine ⟨final', ?_, hfinal⟩
      rw [List.flatMap_cons, run_append, hmatch]
      exact hlater

/-! ## Records -/

variable {Entry : Type}

variable (step) in
/-- What the steps of a run put on record. -/
def record (out : State → Event → List Entry) : State → List Event → List Entry
  | _, [] => []
  | state, event :: rest =>
      (step state event).elim [] fun next => out state event ++ record out next rest

theorem record_cons (out : State → Event → List Entry) {state next : State} {event : Event}
    (hnext : step state event = some next) (rest : List Event) :
    record step out state (event :: rest) = out state event ++ record step out next rest := by
  rw [record, hnext]
  rfl

/-- A run that goes on from where another one ends. -/
theorem run_trans {state middle final : State} {first second : List Event}
    (hfirst : run step state first = some middle) (hsecond : run step middle second = some final) :
    run step state (first ++ second) = some final := by
  rw [run_append, hfirst]
  exact hsecond

theorem run_concat {state middle final : State} {events : List Event} {event : Event}
    (hrun : run step state events = some middle) (hstep : step middle event = some final) :
    run step state (events ++ [event]) = some final :=
  run_trans hrun (run_cons.mpr ⟨final, hstep, rfl⟩)

/-- The record of a run that goes on by one step. -/
theorem record_concat (out : State → Event → List Entry) {state middle final : State}
    {events : List Event} {event : Event} (hrun : run step state events = some middle)
    (hstep : step middle event = some final) :
    record step out state (events ++ [event]) =
      record step out state events ++ out middle event := by
  induction events generalizing state with
  | nil =>
      cases hrun
      rw [List.nil_append, record_cons out hstep]
      exact List.append_nil _
  | cons first rest ih =>
      obtain ⟨next, hnext, hrest⟩ := run_cons.mp hrun
      rw [List.cons_append, record_cons out hnext, record_cons out hnext, ih hrest,
        List.append_assoc]

/-- The record of a run that goes on. -/
theorem record_append (out : State → Event → List Entry) {state middle : State}
    {first : List Event} (hrun : run step state first = some middle) (second : List Event) :
    record step out state (first ++ second) =
      record step out state first ++ record step out middle second := by
  induction first generalizing state with
  | nil =>
      cases hrun
      rfl
  | cons event rest ih =>
      obtain ⟨next, hnext, hrest⟩ := run_cons.mp hrun
      rw [List.cons_append, record_cons out hnext, record_cons out hnext, ih hrest,
        List.append_assoc]

/-- What every step meeting the condition puts on record is on the record of a run whose
steps meet it. -/
theorem Meets.forall_mem_record {out : State → Event → List Entry} {holds : Entry → Prop}
    (hout : ∀ {state event}, cond state event → ∀ entry ∈ out state event, holds entry)
    {state : State} {events : List Event} (hmeets : Meets step cond state events) :
    ∀ entry ∈ record step out state events, holds entry := by
  induction events generalizing state with
  | nil => exact fun _ hmem => absurd hmem List.not_mem_nil
  | cons event rest ih =>
      intro entry hmem
      cases hnext : step state event with
      | none =>
          rw [record, hnext, Option.elim_none] at hmem
          exact absurd hmem List.not_mem_nil
      | some next =>
          rw [record_cons out hnext] at hmem
          rcases List.mem_append.mp hmem with hfirst | hlater
          · exact hout hmeets.1 entry hfirst
          · exact ih (hmeets.2 next hnext) entry hlater

/-- A run that goes on by one step meets a condition when its last step does, too. -/
theorem meets_concat {state middle final : State} {events : List Event} {event : Event}
    (hrun : run step state events = some middle) (hstep : step middle event = some final) :
    Meets step cond state (events ++ [event]) ↔
      Meets step cond state events ∧ cond middle event := by
  induction events generalizing state with
  | nil =>
      cases hrun
      exact ⟨fun hmeets => ⟨trivial, hmeets.1⟩, fun hmeets => .cons hmeets.2 hstep trivial⟩
  | cons first rest ih =>
      obtain ⟨next, hnext, hrest⟩ := run_cons.mp hrun
      constructor
      · rintro ⟨hfirst, hlater⟩
        obtain ⟨hmeets, hlast⟩ := (ih hrest).mp (hlater next hnext)
        exact ⟨.cons hfirst hnext hmeets, hlast⟩
      · rintro ⟨⟨hfirst, hlater⟩, hlast⟩
        exact .cons hfirst hnext ((ih hrest).mpr ⟨hlater next hnext, hlast⟩)

/-- Keeping part of a record is keeping part of what each step puts on it. -/
theorem record_filterMap {Other : Type} (out : State → Event → List Entry)
    (f : Entry → Option Other) (state : State) (events : List Event) :
    record step (fun state event => (out state event).filterMap f) state events =
      (record step out state events).filterMap f := by
  induction events generalizing state with
  | nil => rfl
  | cons event rest ih =>
      rw [record, record]
      cases step state event with
      | none => rfl
      | some next =>
          rw [Option.elim_some, Option.elim_some, List.filterMap_append, ih next]

/-- A run through states in which no step puts anything on record. -/
theorem run_silent (out : State → Event → List Entry) (invariant : State → Prop)
    (hstep : ∀ {state event next}, invariant state → step state event = some next →
      out state event = [] ∧ invariant next)
    {state final : State} {events : List Event} (hinvariant : invariant state)
    (hrun : run step state events = some final) :
    record step out state events = [] ∧ invariant final := by
  induction events generalizing state with
  | nil =>
      cases hrun
      exact ⟨rfl, hinvariant⟩
  | cons event rest ih =>
      obtain ⟨next, hnext, hrest⟩ := run_cons.mp hrun
      obtain ⟨hsilent, hnext'⟩ := hstep hinvariant hnext
      obtain ⟨hrecord, hfinal⟩ := ih hnext' hrest
      rw [record_cons out hnext, hsilent, hrecord]
      exact ⟨rfl, hfinal⟩

/-- Induction over a run from a fixed state, along its steps. In each step the run
so far is at hand, with all that holds behind it. -/
theorem run_induction {start : State} {motive : List Event → State → Prop}
    (nil : motive [] start)
    (concat : ∀ {events state event next}, run step start events = some state →
      motive events state → step state event = some next → motive (events ++ [event]) next)
    {events : List Event} {final : State} (hrun : run step start events = some final) :
    motive events final := by
  have hgeneral : ∀ {later past middle}, run step start past = some middle →
      motive past middle → run step middle later = some final →
      motive (past ++ later) final := by
    intro later
    induction later with
    | nil =>
        intro past middle _ hmotive hlater
        cases hlater
        rwa [List.append_nil]
    | cons event rest ih =>
        intro past middle hpast hmotive hlater
        obtain ⟨next, hnext, hrest⟩ := run_cons.mp hlater
        rw [List.append_cons]
        exact ih (run_concat hpast hnext) (concat hpast hmotive hnext) hrest
  exact hgeneral rfl nil hrun

/-- A queue whose steps take from its front and give to its end. What a run was
given is what it has taken, and then what is left. -/
theorem run_queue (queue : State → List Entry) {given taken : State → Event → List Entry}
    (invariant : State → Prop)
    (hstep : ∀ {state event next}, invariant state → step state event = some next →
      invariant next ∧ queue state ++ given state event = taken state event ++ queue next)
    {state final : State} {events : List Event} (hinvariant : invariant state)
    (hrun : run step state events = some final) :
    queue state ++ record step given state events =
      record step taken state events ++ queue final := by
  induction events generalizing state with
  | nil =>
      cases hrun
      exact List.append_nil _
  | cons event rest ih =>
      obtain ⟨next, hnext, hrest⟩ := run_cons.mp hrun
      obtain ⟨hinvariant', hqueue⟩ := hstep hinvariant hnext
      rw [record_cons given hnext, record_cons taken hnext, ← List.append_assoc, hqueue,
        List.append_assoc, List.append_assoc, ih hinvariant' hrest]

end Transition
