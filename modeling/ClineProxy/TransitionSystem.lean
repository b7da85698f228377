import Mathlib.Data.List.Basic
import Mathlib.Data.List.Induction

/-!
Transition systems given by a guarded step function, the states their runs reach,
and the rules that carry a step fact to a run.
-/

namespace TransitionSystem

universe u v

/-- `step state event` is `none` when the event is not enabled in the state. -/
structure System (State : Type u) (Event : Type v) where
  initial : State → Prop
  step : State → Event → Option State

namespace System

variable {State : Type u} {Event : Type v} (system : System State Event)

def runFrom (state : State) : List Event → Option State
  | [] => some state
  | event :: rest =>
      match system.step state event with
      | some next => runFrom next rest
      | none => none

def checkedRun (check : State → Event → Bool) (state : State) : List Event → Option State
  | [] => some state
  | event :: rest =>
      if check state event then
        (system.step state event).bind fun next => checkedRun check next rest
      else none

/-- The states of runs whose steps all meet `allowed`. -/
inductive ReachableWhere (allowed : State → Event → Prop) : State → Prop
  | initial {state} : system.initial state → ReachableWhere allowed state
  | step {state event next} : ReachableWhere allowed state → allowed state event →
      system.step state event = some next → ReachableWhere allowed next

def Reachable : State → Prop := system.ReachableWhere (fun _ _ => True)

/-- A run from one state to another whose steps all meet `allowed`. -/
inductive PathWhere (allowed : State → Event → Prop) : State → State → Prop
  | refl (state) : PathWhere allowed state state
  | step {state middle event next} : PathWhere allowed state middle → allowed middle event →
      system.step middle event = some next → PathWhere allowed state next

variable {system}

theorem ReachableWhere.reachable {allowed : State → Event → Prop} {state : State}
    (reached : system.ReachableWhere allowed state) : system.Reachable state := by
  induction reached with
  | initial start => exact .initial start
  | step _ _ stepped ih => exact .step ih trivial stepped

theorem Reachable.next {state next : State} {event : Event} (reached : system.Reachable state)
    (stepped : system.step state event = some next) : system.Reachable next :=
  .step reached trivial stepped

/-- What holds initially and is kept by every allowed step holds in every state reached. -/
theorem ReachableWhere.invariant {allowed : State → Event → Prop} {property : State → Prop}
    (start : ∀ state, system.initial state → property state)
    (kept : ∀ state event next, system.ReachableWhere allowed state → property state →
      allowed state event → system.step state event = some next → property next)
    {state : State} (reached : system.ReachableWhere allowed state) : property state := by
  induction reached with
  | initial begun => exact start _ begun
  | step before permitted stepped ih => exact kept _ _ _ before ih permitted stepped

theorem Reachable.invariant {property : State → Prop}
    (start : ∀ state, system.initial state → property state)
    (kept : ∀ state event next, system.Reachable state → property state →
      system.step state event = some next → property next)
    {state : State} (reached : system.Reachable state) : property state :=
  ReachableWhere.invariant start
    (fun state event next before held _ stepped => kept state event next before held stepped) reached

theorem PathWhere.reachable {allowed : State → Event → Prop} {state later : State}
    (path : system.PathWhere allowed state later) (reached : system.Reachable state) :
    system.Reachable later := by
  induction path with
  | refl => exact reached
  | step _ _ stepped ih => exact ih.next stepped

theorem runFrom_cons {state : State} {event : Event} {rest : List Event} {last : State}
    (ran : system.runFrom state (event :: rest) = some last) :
    ∃ next, system.step state event = some next ∧ system.runFrom next rest = some last := by
  simp only [runFrom] at ran
  cases stepped : system.step state event with
  | none => simp [stepped] at ran
  | some next => exact ⟨next, rfl, by simpa [stepped] using ran⟩

theorem runFrom_reachable {events : List Event} {state last : State}
    (reached : system.Reachable state) (ran : system.runFrom state events = some last) :
    system.Reachable last := by
  induction events generalizing state with
  | nil =>
      simp only [runFrom, Option.some.injEq] at ran
      exact ran ▸ reached
  | cons event rest ih =>
      obtain ⟨next, stepped, remaining⟩ := runFrom_cons ran
      exact ih (reached.next stepped) remaining

theorem runFrom_snoc {events : List Event} {event : Event} {state last : State}
    (ran : system.runFrom state (events ++ [event]) = some last) :
    ∃ before, system.runFrom state events = some before ∧
      system.step before event = some last := by
  induction events generalizing state with
  | nil =>
      obtain ⟨next, stepped, ended⟩ := runFrom_cons ran
      exact ⟨state, rfl, stepped.trans ended⟩
  | cons first rest ih =>
      obtain ⟨next, stepped, remaining⟩ := runFrom_cons ran
      obtain ⟨before, reached, final⟩ := ih remaining
      exact ⟨before, by rw [runFrom, stepped]; exact reached, final⟩

theorem runFrom_linked {link : List Event → State → Prop} {first : State} (begins : link [] first)
    (kept : ∀ events state event next, system.runFrom first events = some state →
      link events state → system.step state event = some next → link (events ++ [event]) next)
    {events : List Event} {last : State} (ran : system.runFrom first events = some last) :
    link events last := by
  induction events using List.reverseRecOn generalizing last with
  | nil =>
      simp only [runFrom, Option.some.injEq] at ran
      exact ran ▸ begins
  | append_singleton events event ih =>
      obtain ⟨before, reached, stepped⟩ := runFrom_snoc ran
      exact kept events before event last reached (ih reached) stepped

theorem runFrom_path {allowed : State → Event → Prop} {events : List Event} {state last : State}
    (permitted : ∀ event ∈ events, ∀ state, allowed state event)
    (ran : system.runFrom state events = some last) : system.PathWhere allowed state last := by
  have general : ∀ start middle, system.PathWhere allowed start middle →
      system.runFrom middle events = some last → system.PathWhere allowed start last := by
    clear ran
    induction events with
    | nil =>
        intro start middle before ran
        simp only [runFrom, Option.some.injEq] at ran
        exact ran ▸ before
    | cons event rest ih =>
        intro start middle before ran
        obtain ⟨next, stepped, remaining⟩ := runFrom_cons ran
        exact ih (fun later member => permitted later (List.mem_cons_of_mem _ member)) start next
          (.step before (permitted event (by simp) middle) stepped) remaining
  exact general state state (.refl state) ran

theorem checkedRun_path {allowed : State → Event → Prop} {check : State → Event → Bool}
    {property : State → Prop} {events : List Event} {first state last : State}
    (sound : ∀ state event, property state → check state event = true → allowed state event)
    (kept : ∀ state event next, property state → system.step state event = some next →
      property next)
    (before : system.PathWhere allowed first state) (held : property state)
    (ran : system.checkedRun check state events = some last) :
    system.PathWhere allowed first last := by
  induction events generalizing state with
  | nil =>
      simp only [checkedRun, Option.some.injEq] at ran
      exact ran ▸ before
  | cons event rest ih =>
      simp only [checkedRun, Option.ite_none_right_eq_some, Option.bind_eq_some_iff] at ran
      obtain ⟨passed, next, stepped, remaining⟩ := ran
      exact ih (.step before (sound state event held passed) stepped)
        (kept state event next held stepped) remaining

/-- What every step from a reachable state keeps, a whole run keeps. -/
theorem runFrom_kept (property : State → Prop) {events : List Event} {state last : State}
    (kept : ∀ state event next, system.Reachable state → property state →
      system.step state event = some next → property next)
    (reached : system.Reachable state) (held : property state)
    (ran : system.runFrom state events = some last) : property last := by
  induction events generalizing state with
  | nil =>
      simp only [runFrom, Option.some.injEq] at ran
      exact ran ▸ held
  | cons event rest ih =>
      obtain ⟨next, stepped, remaining⟩ := runFrom_cons ran
      exact ih (reached.next stepped) (kept _ _ _ reached held stepped) remaining

/-- A measure that never grows and drops at every counted event bounds the number of them. -/
theorem countP_add_measure_le (counted : Event → Bool) (measure : State → Nat)
    (drops : ∀ state event next, system.Reachable state → system.step state event = some next →
      measure next + (if counted event then 1 else 0) ≤ measure state)
    {events : List Event} {state last : State} (reached : system.Reachable state)
    (ran : system.runFrom state events = some last) :
    events.countP counted + measure last ≤ measure state := by
  induction events generalizing state with
  | nil =>
      simp only [runFrom, Option.some.injEq] at ran
      simp [ran]
  | cons event rest ih =>
      obtain ⟨next, stepped, remaining⟩ := runFrom_cons ran
      have tail := ih (reached.next stepped) remaining
      have drop := drops _ _ _ reached stepped
      rw [List.countP_cons]
      omega

end System

end TransitionSystem
