import ClineProxy.Clock
import ClineProxy.TransitionSystem
import Mathlib.Logic.Function.Basic

/-!
The catalog of free models of `model_catalog.rs`: concurrent calls of `free_model_ids`, each of
which may be dropped where it waits.
-/

namespace ClineProxy

open Clock TransitionSystem

structure CatalogLimits where
  refreshTtl : Duration
  maxEntries : Nat

/-- `fetchedAt` may lie before the origin of the clock. -/
structure CatalogInner where
  ids : List String
  fetchedAt : Option Int
  refreshInFlight : Bool

inductive CallPhase where
  | idle
  | waiting
  | fetching
  | returned (ids : List String)
  | dropped
  deriving DecidableEq

/-- `locked` says that a call holds the lock across an await. -/
structure ModelCatalog where
  inner : CatalogInner
  locked : Bool
  calls : Nat → CallPhase

inductive CatalogEvent where
  | call (id : Nat)
  | lock (id : Nat) (now : Instant)
  | fetched (id : Nat) (now : Instant) (ids : Option (List String))
  | drop (id : Nat)

namespace CatalogInner

def fresh (limits : CatalogLimits) (now : Instant) (inner : CatalogInner) : Bool :=
  inner.fetchedAt.any fun at_ => ((now : Int) - at_).toNat < limits.refreshTtl

/-- An empty list is kept for a quarter of an hour, a failure for the whole time. -/
def store (limits : CatalogLimits) (now : Instant) (fetched : Option (List String))
    (inner : CatalogInner) : CatalogInner :=
  match fetched with
  | some [] =>
      { inner with
        ids := []
        fetchedAt := some ((now : Int) - (limits.refreshTtl - fromSecs (15 * 60) : Nat)) }
  | some ids => { inner with ids := ids.take limits.maxEntries, fetchedAt := some now }
  | none => { inner with fetchedAt := some now }

end CatalogInner

namespace ModelCatalog

def new : ModelCatalog := ⟨⟨[], none, false⟩, false, fun _ => .idle⟩

def setCall (id : Nat) (phase : CallPhase) (catalog : ModelCatalog) : ModelCatalog :=
  { catalog with calls := Function.update catalog.calls id phase }

/-- What a call does once it has the lock; it keeps it while it fetches. -/
def locking (limits : CatalogLimits) (id : Nat) (now : Instant) (catalog : ModelCatalog) :
    ModelCatalog :=
  if catalog.inner.fresh limits now || catalog.inner.refreshInFlight then
    catalog.setCall id (.returned catalog.inner.ids)
  else
    { catalog.setCall id .fetching with
      inner := { catalog.inner with refreshInFlight := true }
      locked := true }

def finishing (limits : CatalogLimits) (id : Nat) (now : Instant)
    (fetched : Option (List String)) (catalog : ModelCatalog) : ModelCatalog :=
  let inner := { catalog.inner with refreshInFlight := false }.store limits now fetched
  { catalog.setCall id (.returned inner.ids) with inner := inner, locked := false }

def step (limits : CatalogLimits) (catalog : ModelCatalog) (event : CatalogEvent) :
    Option ModelCatalog :=
  match event with
  | .call id =>
      if catalog.calls id = .idle then some (catalog.setCall id .waiting) else none
  | .lock id now =>
      if catalog.calls id = .waiting ∧ catalog.locked = false then
        some (catalog.locking limits id now)
      else none
  | .fetched id now ids =>
      if catalog.calls id = .fetching then some (catalog.finishing limits id now ids) else none
  | .drop id =>
      match catalog.calls id with
      | .waiting => some (catalog.setCall id .dropped)
      -- the guard of the lock is dropped with the call, the flag stays as it is
      | .fetching => some { catalog.setCall id .dropped with locked := false }
      | _ => none

def calling (limits : CatalogLimits) : System ModelCatalog CatalogEvent where
  initial := fun catalog => catalog = .new
  step := step limits

variable {limits : CatalogLimits} {catalog next : ModelCatalog} {event : CatalogEvent}

def Fetching (catalog : ModelCatalog) (id : Nat) : Prop := catalog.calls id = .fetching

theorem fetching_setCall (id other : Nat) (phase : CallPhase) :
    (catalog.setCall id phase).Fetching other ↔
      if other = id then phase = .fetching else catalog.Fetching other := by
  rw [Fetching, setCall]
  by_cases same : other = id
  · subst same
    simp
  · simp [same, Fetching]

inductive CatalogStep (limits : CatalogLimits) (catalog : ModelCatalog) :
    CatalogEvent → ModelCatalog → Prop
  | call (id : Nat) : catalog.calls id = .idle →
      CatalogStep limits catalog (.call id) (catalog.setCall id .waiting)
  | serve (id : Nat) (now : Instant) : catalog.calls id = .waiting → catalog.locked = false →
      CatalogStep limits catalog (.lock id now)
        (catalog.setCall id (.returned catalog.inner.ids))
  | fetch (id : Nat) (now : Instant) : catalog.calls id = .waiting → catalog.locked = false →
      CatalogStep limits catalog (.lock id now)
        { catalog.setCall id .fetching with
          inner := { catalog.inner with refreshInFlight := true }
          locked := true }
  | fetched (id : Nat) (now : Instant) (ids : Option (List String)) : catalog.Fetching id →
      CatalogStep limits catalog (.fetched id now ids) (catalog.finishing limits id now ids)
  | leave (id : Nat) : catalog.calls id = .waiting →
      CatalogStep limits catalog (.drop id) (catalog.setCall id .dropped)
  | abort (id : Nat) : catalog.Fetching id →
      CatalogStep limits catalog (.drop id) { catalog.setCall id .dropped with locked := false }

theorem step_cases (stepped : catalog.step limits event = some next) :
    CatalogStep limits catalog event next := by
  cases event with
  | call id =>
      simp only [step, Option.ite_none_right_eq_some, Option.some.injEq] at stepped
      obtain ⟨idle, rfl⟩ := stepped
      exact .call id idle
  | lock id now =>
      simp only [step, Option.ite_none_right_eq_some, Option.some.injEq] at stepped
      obtain ⟨⟨waiting, free⟩, rfl⟩ := stepped
      rw [locking]
      split
      next => exact .serve id now waiting free
      next => exact .fetch id now waiting free
  | fetched id now ids =>
      simp only [step, Option.ite_none_right_eq_some, Option.some.injEq] at stepped
      obtain ⟨fetching, rfl⟩ := stepped
      exact .fetched id now ids fetching
  | drop id =>
      rw [step] at stepped
      split at stepped
      next waiting =>
        cases stepped
        exact .leave id waiting
      next fetching =>
        cases stepped
        exact .abort id fetching
      next => cases stepped

/-- A fetch belongs to one call, which holds the lock. -/
structure Locked (catalog : ModelCatalog) : Prop where
  one : ∀ first second, catalog.Fetching first → catalog.Fetching second → first = second
  holder : catalog.locked = true ↔ ∃ id, catalog.Fetching id

/-- The flag is set while a call fetches, and only then. -/
def Flagged (catalog : ModelCatalog) : Prop :=
  catalog.inner.refreshInFlight = true ↔ ∃ id, catalog.Fetching id

/-- The call that fetches is not dropped. -/
def KeepsFetch (catalog : ModelCatalog) (event : CatalogEvent) : Prop :=
  ∀ id, event = .drop id → ¬catalog.Fetching id

section Calls

variable {id other : Nat} {phase : CallPhase}

theorem fetching_kept (was : ¬catalog.Fetching id) (quiet : phase ≠ .fetching) :
    (catalog.setCall id phase).Fetching other ↔ catalog.Fetching other := by
  rw [fetching_setCall]
  split
  next same =>
    subst same
    exact iff_of_false quiet was
  next => rfl

theorem fetching_begun (locked : Locked catalog) (free : catalog.locked = false) :
    (catalog.setCall id .fetching).Fetching other ↔ other = id := by
  rw [fetching_setCall]
  split
  next same => simp [same]
  next different =>
    refine iff_of_false (fun fetching => ?_) different
    have held := locked.holder.mpr ⟨other, fetching⟩
    rw [free] at held
    cases held

theorem fetching_ended (locked : Locked catalog) (fetching : catalog.Fetching id)
    (quiet : phase ≠ .fetching) : ¬(catalog.setCall id phase).Fetching other := by
  rw [fetching_setCall]
  split
  next => exact quiet
  next different => exact fun still => different (locked.one _ _ still fetching)

theorem not_fetching (found : catalog.calls id = phase) (quiet : phase ≠ .fetching) :
    ¬catalog.Fetching id := fun fetching => quiet (found.symm.trans fetching)

end Calls

theorem Locked.same {other : ModelCatalog} (locked : Locked catalog)
    (same : ∀ id, other.Fetching id ↔ catalog.Fetching id)
    (held : other.locked = catalog.locked) : Locked other where
  one := fun first second one two => locked.one _ _ ((same first).mp one) ((same second).mp two)
  holder := by
    rw [held, locked.holder]
    exact exists_congr fun id => (same id).symm

theorem Locked.free {other : ModelCatalog} (none_ : ∀ id, ¬other.Fetching id)
    (free : other.locked = false) : Locked other where
  one := fun first _ fetching => absurd fetching (none_ first)
  holder := by simp [free, none_]

theorem locked_step (locked : Locked catalog) (stepped : CatalogStep limits catalog event next) :
    Locked next := by
  cases stepped with
  | call id idle => exact locked.same (fun _ => fetching_kept (not_fetching idle nofun) nofun) rfl
  | serve id now waiting free =>
      exact locked.same (fun _ => fetching_kept (not_fetching waiting nofun) nofun) rfl
  | fetch id now waiting free =>
      have begun (other : Nat) : (catalog.setCall id .fetching).Fetching other ↔ other = id :=
        fetching_begun locked free
      exact {
        one := fun first second one two => ((begun first).mp one).trans ((begun second).mp two).symm
        holder := iff_of_true rfl ⟨id, (begun id).mpr rfl⟩ }
  | fetched id now ids fetching =>
      exact .free (fun _ => fetching_ended locked fetching nofun) rfl
  | leave id waiting =>
      exact locked.same (fun _ => fetching_kept (not_fetching waiting nofun) nofun) rfl
  | abort id fetching => exact .free (fun _ => fetching_ended locked fetching nofun) rfl

theorem store_refreshInFlight (now : Instant) (fetched : Option (List String))
    (inner : CatalogInner) :
    (inner.store limits now fetched).refreshInFlight = inner.refreshInFlight := by
  unfold CatalogInner.store
  split <;> rfl

theorem Flagged.same {other : ModelCatalog} (flagged : Flagged catalog)
    (same : ∀ id, other.Fetching id ↔ catalog.Fetching id)
    (held : other.inner = catalog.inner) : Flagged other := by
  rw [Flagged, held]
  exact flagged.trans (exists_congr fun id => (same id).symm)

theorem flagged_step (locked : Locked catalog) (flagged : Flagged catalog)
    (kept : KeepsFetch catalog event) (stepped : CatalogStep limits catalog event next) :
    Flagged next := by
  cases stepped with
  | call id idle => exact flagged.same (fun _ => fetching_kept (not_fetching idle nofun) nofun) rfl
  | serve id now waiting free =>
      exact flagged.same (fun _ => fetching_kept (not_fetching waiting nofun) nofun) rfl
  | fetch id now waiting free =>
      exact iff_of_true rfl ⟨id, (fetching_begun locked free).mpr rfl⟩
  | fetched id now ids fetching =>
      have ended (other : Nat) : ¬(catalog.finishing limits id now ids).Fetching other :=
        fetching_ended locked fetching nofun
      refine iff_of_false ?_ fun ⟨other, still⟩ => ended other still
      rw [finishing, store_refreshInFlight]
      exact Bool.false_ne_true
  | leave id waiting =>
      exact flagged.same (fun _ => fetching_kept (not_fetching waiting nofun) nofun) rfl
  | abort id fetching => exact absurd fetching (kept id rfl)

theorem stuck_of_abort (locked : Locked catalog) (flagged : Flagged catalog)
    (broken : ¬KeepsFetch catalog event) (stepped : CatalogStep limits catalog event next) :
    next.inner.refreshInFlight = true ∧ ∀ id, ¬next.Fetching id := by
  simp only [KeepsFetch, not_forall, not_not] at broken
  obtain ⟨id, rfl, fetching⟩ := broken
  cases stepped with
  | leave _ waiting => exact absurd fetching (not_fetching waiting nofun)
  | abort =>
      exact ⟨flagged.mpr ⟨id, fetching⟩, fun other => fetching_ended locked fetching nofun⟩

theorem reached_invariant (reached : (calling limits).ReachableWhere KeepsFetch catalog) :
    Locked catalog ∧ Flagged catalog := by
  have start : Locked new ∧ Flagged new := by
    have quiet (id : Nat) : ¬new.Fetching id := nofun
    exact ⟨.free quiet rfl, iff_of_false nofun fun found => found.elim quiet⟩
  refine System.ReachableWhere.invariant (fun state (begun : state = new) => begun ▸ start) ?_ reached
  intro state event next _ held kept stepped
  have step := step_cases stepped
  exact ⟨locked_step held.1 step, flagged_step held.1 held.2 kept step⟩

/-- One fetch at a time, the flag set only while it runs, and after it a call that fetches. -/
structure SingleFlight (limits : CatalogLimits) (catalog : ModelCatalog) : Prop where
  one : ∀ first second, catalog.Fetching first → catalog.Fetching second → first = second
  flagged : catalog.inner.refreshInFlight = true → ∃ id, catalog.Fetching id
  starts : ∀ id now, catalog.calls id = .idle → catalog.inner.fresh limits now = false →
    (∀ other, ¬catalog.Fetching other) →
    ∃ later, (calling limits).runFrom catalog [.call id, .lock id now] = some later ∧
      later.Fetching id

theorem singleFlight (locked : Locked catalog) (flagged : Flagged catalog) :
    SingleFlight limits catalog where
  one := locked.one
  flagged := flagged.mp
  starts := by
    intro id now idle stale quiet
    have free : catalog.locked = false :=
      Bool.eq_false_iff.mpr fun held => (locked.holder.mp held).elim quiet
    have unset : catalog.inner.refreshInFlight = false :=
      Bool.eq_false_iff.mpr fun set_ => (flagged.mp set_).elim quiet
    have waiting : (catalog.setCall id .waiting).calls id = .waiting := by simp [setCall]
    have begun : (catalog.setCall id .waiting).step limits (.lock id now) =
        some ((catalog.setCall id .waiting).locking limits id now) :=
      if_pos ⟨waiting, free⟩
    have fetches : ((catalog.setCall id .waiting).inner.fresh limits now ||
        (catalog.setCall id .waiting).inner.refreshInFlight) = false := by
      simp [setCall, stale, unset]
    refine ⟨(catalog.setCall id .waiting).locking limits id now, ?_, ?_⟩
    · simp [System.runFrom, calling, step, idle, setCall, free]
    · rw [locking, if_neg (by simp [fetches])]
      exact (fetching_setCall id id .fetching).mpr (by simp)

theorem catalog_single_flight (limits : CatalogLimits) {catalog : ModelCatalog}
    (reached : (calling limits).ReachableWhere KeepsFetch catalog) :
    SingleFlight limits catalog ∧ ∀ event next, catalog.step limits event = some next →
      (SingleFlight limits next ↔ KeepsFetch catalog event) := by
  obtain ⟨locked, flagged⟩ := reached_invariant reached
  refine ⟨singleFlight locked flagged, fun event next stepped => ?_⟩
  have step := step_cases stepped
  constructor
  · intro sound
    by_contra broken
    obtain ⟨set_, quiet⟩ := stuck_of_abort locked flagged broken step
    exact (sound.flagged set_).elim quiet
  · intro kept
    exact singleFlight (locked_step locked step) (flagged_step locked flagged kept step)

def hourLimits : CatalogLimits := ⟨fromSecs 3600, 64⟩

def fetchingCatalog : ModelCatalog := (new.setCall 0 .waiting).locking hourLimits 0 0

theorem fetchingCatalog_reached :
    (calling hourLimits).ReachableWhere KeepsFetch fetchingCatalog := by
  have begun : (calling hourLimits).ReachableWhere KeepsFetch new := .initial rfl
  have called : (calling hourLimits).ReachableWhere KeepsFetch (new.setCall 0 .waiting) :=
    .step begun (nofun : KeepsFetch new (.call 0)) rfl
  exact .step called (nofun : KeepsFetch (new.setCall 0 .waiting) (.lock 0 0)) rfl

theorem catalog_single_flight_begun : SingleFlight hourLimits fetchingCatalog ∧
    SingleFlight hourLimits (fetchingCatalog.finishing hourLimits 0 1 (some ["glm"])) := by
  obtain ⟨sound, exact_⟩ := catalog_single_flight hourLimits fetchingCatalog_reached
  exact ⟨sound, (exact_ (.fetched 0 1 (some ["glm"])) _ rfl).mpr nofun⟩

def droppedFetch : List CatalogEvent := [.call 0, .lock 0 0, .drop 0]

theorem catalog_single_flight_fails :
    ∃ catalog, (calling hourLimits).runFrom .new droppedFetch = some catalog ∧
      ¬SingleFlight hourLimits catalog ∧
      ∀ now, ∃ later, (calling hourLimits).runFrom catalog [.call 1, .lock 1 now] = some later ∧
        later.calls 1 = .returned [] := by
  refine ⟨_, rfl, fun sound => ?_, fun now => ⟨_, rfl, rfl⟩⟩
  obtain ⟨locked, flagged⟩ := reached_invariant fetchingCatalog_reached
  have broken : ¬KeepsFetch fetchingCatalog (.drop 0) := fun kept => kept 0 rfl rfl
  obtain ⟨set_, quiet⟩ := stuck_of_abort locked flagged broken
    (.abort 0 rfl : CatalogStep hourLimits fetchingCatalog (.drop 0) _)
  exact (sound.flagged set_).elim quiet

end ModelCatalog

end ClineProxy
