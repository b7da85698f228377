import ClineProxy.RestartChecks
import ClineProxy.StateFileChecks

/-! What becomes of the deadlines of an accepted state file over any number of restarts. -/

namespace ClineProxy

open Clock KeyPool TransitionSystem

def KeyPool.startFrom (codec : StateCodec) (configured : KeyConfig) (clock : Reading)
    (file : FileRead) : KeyPool :=
  let fresh := KeyPool.new configured clock.wall
  match load codec file with
  | .loaded state => fresh.restore state clock
  | .missing | .corrupt _ => fresh

structure Process where
  pool : KeyPool
  clock : Reading

structure Cycle where
  stored : Reading
  configured : KeyConfig
  started : Reading

def Process.cycle (codec : StateCodec) (process : Process) (cycle : Cycle) : Process :=
  let file := store codec (process.pool.persistedState cycle.stored)
  ⟨.startFrom codec cycle.configured cycle.started (.contents file), cycle.started⟩

/-- Store and restore, with a wall clock that never goes back. -/
def restarts (codec : StateCodec) (file : FileRead) (configured : KeyConfig) (first : Reading) :
    System Process Cycle where
  initial := fun process => process = ⟨.startFrom codec configured first file, first⟩
  step := fun process cycle =>
    if process.clock.wall ≤ cycle.stored.wall ∧ cycle.stored.wall ≤ cycle.started.wall then
      some (process.cycle codec cycle)
    else none

/-- The names of the file are those of a map, and its deadlines are 64-bit words. -/
structure PersistedState.WellTyped (state : PersistedState) : Prop where
  once : (state.keys.map Prod.fst).Nodup
  words : ∀ entry ∈ state.keys, ∀ milliseconds,
    entry.2.cooldownUntilUnixMs = some milliseconds → milliseconds < u64Bound

/-- No configured key has a deadline further ahead than the longest cooldown. -/
def PlausibleFor (configured : KeyConfig) (first : Reading) (state : PersistedState) : Prop :=
  ∀ entry ∈ state.keys, entry.1 ∈ (KeyPool.new configured first.wall).names →
    ∀ milliseconds, entry.2.cooldownUntilUnixMs = some milliseconds →
      ((fromMillis milliseconds : Nat) : Int) ≤ first.wall + (maxCooldown : Int)

def KeyEntry.storedDeadline (key : KeyEntry) : Option Nat := (persistKey key).cooldownUntilUnixMs

/-- No cooldown lasts longer than the cap after the first start, and the file and the monotonic
clock agree about every cooldown in force. -/
structure Capped (first : Reading) (process : Process) : Prop where
  within : ∀ key ∈ process.pool.keys, ∀ deadline, key.runtime.cooldownUntil = some deadline →
    process.clock.mono < deadline →
    process.clock.wall + ((deadline : Int) - process.clock.mono) ≤ first.wall + (maxCooldown : Int)
  same : ∀ key ∈ process.pool.keys, ∀ deadline, key.runtime.cooldownUntil = some deadline →
    process.clock.mono < deadline → ∃ milliseconds, key.storedDeadline = some milliseconds ∧
      ((fromMillis milliseconds : Nat) : Int) - process.clock.wall =
        (deadline : Int) - process.clock.mono
  resumed : process.clock.mono + maxCooldown ≤ lastRepresentable →
    ∀ key ∈ process.pool.keys, ∀ milliseconds, key.storedDeadline = some milliseconds →
      process.clock.wall < ((fromMillis milliseconds : Nat) : Int) →
      ∃ deadline, key.runtime.cooldownUntil = some deadline ∧ process.clock.mono < deadline

theorem restoreDeadline_word (clock : Reading) {milliseconds : Nat}
    (word : milliseconds < u64Bound) :
    (restoreDeadline clock milliseconds).2 = ((fromMillis milliseconds : Nat) : Int) := by
  have room := fileRange_representable
  have fits : ((fromMillis milliseconds : Nat) : Int) ≤ (lastRepresentable : Int) := by
    have below : (fromMillis milliseconds : Int) ≤ (u64Bound : Int) * (nanosPerMilli : Int) := by
      exact_mod_cast Nat.mul_le_mul_right nanosPerMilli (Nat.le_of_lt word)
    omega
  simp only [restoreDeadline, systemCheckedAdd, unixEpoch, Int.zero_add, fits, if_true,
    Option.getD_some]

theorem unixMs_fromMillis {milliseconds : Nat} (word : milliseconds < u64Bound) :
    unixMs ((fromMillis milliseconds : Nat) : Int) = milliseconds := by
  rw [unixMs_of_nonneg (Int.natCast_nonneg _), Int.toNat_natCast, fromMillis,
    Nat.mul_div_cancel _ (by decide), Nat.mod_eq_of_lt word]

theorem restoreDeadline_mono (clock : Reading) {milliseconds : Nat}
    (word : milliseconds < u64Bound) {deadline : Nat}
    (restored : (restoreDeadline clock milliseconds).1 = deadline) :
    let left := min (((fromMillis milliseconds : Nat) : Int) - clock.wall).toNat maxCooldown
    clock.mono + left ≤ lastRepresentable ∧ deadline = clock.mono + left ∨
      lastRepresentable < clock.mono + left ∧ deadline = clock.mono := by
  subst restored
  have deadline := restoreDeadline_word clock word
  simp only [restoreDeadline] at deadline ⊢
  rw [deadline]
  simp only [systemDurationSince]
  by_cases ahead : clock.wall ≤ ((fromMillis milliseconds : Nat) : Int)
  · simp only [ahead, if_true, Option.map_some, Option.getD_some, instantCheckedAdd]
    split
    next fits => exact .inl ⟨fits, rfl⟩
    next large => exact .inr ⟨Nat.not_le.mp large, rfl⟩
  · have past : (((fromMillis milliseconds : Nat) : Int) - clock.wall).toNat = 0 := by omega
    simp only [ahead, past, if_false, Option.map_none, Option.getD_none, Nat.zero_min,
      Nat.add_zero, and_true]
    omega

structure KeyRuntime.RestoredFrom (runtime : KeyRuntime) (clock : Reading)
    (persisted : Option Nat) : Prop where
  mono : runtime.cooldownUntil = persisted.map fun milliseconds =>
    (restoreDeadline clock milliseconds).1
  wall : runtime.cooldownUntilWall = persisted.map fun milliseconds =>
    (restoreDeadline clock milliseconds).2

theorem KeyRuntime.RestoredFrom.stored {key : KeyEntry} {clock : Reading}
    {persisted : Option Nat} (restored : key.runtime.RestoredFrom clock persisted)
    (words : ∀ milliseconds, persisted = some milliseconds → milliseconds < u64Bound) :
    key.storedDeadline = persisted := by
  rw [KeyEntry.storedDeadline, persistKey, restored.wall]
  cases persisted with
  | none => rfl
  | some milliseconds =>
      have word := words milliseconds rfl
      simp only [Option.map_some, restoreDeadline_word clock word, unixMs_fromMillis word]

theorem restoredFrom_default (clock : Reading) (persisted : PersistedKeyState) :
    (restoreRuntime clock persisted .default).RestoredFrom clock
      persisted.cooldownUntilUnixMs := by
  constructor <;>
    cases held : persisted.cooldownUntilUnixMs <;>
    simp [restoreRuntime, held, KeyRuntime.default]

theorem startFrom_names (codec : StateCodec) (configured : KeyConfig) (clock : Reading)
    (file : FileRead) (typed : ∀ state, load codec file = .loaded state → state.WellTyped) :
    (KeyPool.startFrom codec configured clock file).names =
      (KeyPool.new configured clock.wall).names := by
  have named := new_named configured clock.wall
  rw [KeyPool.startFrom]
  cases found : load codec file with
  | loaded state => exact restore_names named.distinct (typed state found).once clock
  | missing => rfl
  | corrupt reason => rfl

/-- The deadline that a start finds for a name. -/
def deadlineIn (codec : StateCodec) (file : FileRead) (name : String) : Option Nat :=
  match load codec file with
  | .loaded state =>
      (OrderedMap.lookup name state.keys).bind PersistedKeyState.cooldownUntilUnixMs
  | .missing | .corrupt _ => none

theorem startFrom_key {codec : StateCodec} {configured : KeyConfig} {clock : Reading}
    {file : FileRead} (typed : ∀ state, load codec file = .loaded state → state.WellTyped)
    {key : KeyEntry} (member : key ∈ (KeyPool.startFrom codec configured clock file).keys) :
    key.runtime.RestoredFrom clock (deadlineIn codec file key.name) := by
  have fresh : ∀ key ∈ (KeyPool.new configured clock.wall).keys,
      key.runtime.RestoredFrom clock none := by
    intro key member
    rw [new_runtime member]
    exact ⟨rfl, rfl⟩
  rw [KeyPool.startFrom] at member
  rw [deadlineIn]
  cases found : load codec file with
  | loaded state =>
      simp only [found] at member ⊢
      rw [restore_keys (new_named configured clock.wall).distinct (typed state found).once,
        List.mem_map] at member
      obtain ⟨old, inNew, rfl⟩ := member
      rw [takeBack_name, takeBack]
      cases OrderedMap.lookup old.name state.keys with
      | none => exact fresh old inNew
      | some persisted =>
          simp only [restoredBy, new_runtime inNew]
          exact restoredFrom_default clock persisted
  | missing =>
      rw [found] at member
      exact fresh key member
  | corrupt reason =>
      rw [found] at member
      exact fresh key member

def Plausible (first : Reading) (deadline : Option Nat) : Prop :=
  ∀ milliseconds, deadline = some milliseconds → milliseconds < u64Bound ∧
    ((fromMillis milliseconds : Nat) : Int) ≤ first.wall + (maxCooldown : Int)

/-- What every cycle keeps: each key was restored from a plausible deadline. -/
structure Process.Kept (first : Reading) (process : Process) : Prop where
  after : first.wall ≤ process.clock.wall
  restored : ∀ key ∈ process.pool.keys, ∃ persisted, Plausible first persisted ∧
    key.runtime.RestoredFrom process.clock persisted

theorem restored_inForce {first clock : Reading} (after : first.wall ≤ clock.wall)
    {runtime : KeyRuntime} {persisted : Option Nat} (near : Plausible first persisted)
    (restored : runtime.RestoredFrom clock persisted) {deadline : Nat}
    (found : runtime.cooldownUntil = some deadline) (ahead : clock.mono < deadline) :
    ∃ milliseconds, persisted = some milliseconds ∧
      ((fromMillis milliseconds : Nat) : Int) - clock.wall = (deadline : Int) - clock.mono := by
  rw [restored.mono, Option.map_eq_some_iff] at found
  obtain ⟨milliseconds, rfl, restoredAt⟩ := found
  obtain ⟨word, capped⟩ := near milliseconds rfl
  refine ⟨milliseconds, rfl, ?_⟩
  rcases restoreDeadline_mono clock word restoredAt with ⟨fits, shown⟩ | ⟨large, shown⟩
  · omega
  · omega

theorem Process.Kept.capped {first : Reading} {process : Process} (kept : process.Kept first) :
    Capped first process := by
  have after := kept.after
  constructor
  · intro key member deadline found ahead
    obtain ⟨persisted, near, restored⟩ := kept.restored key member
    obtain ⟨milliseconds, held, same⟩ := restored_inForce after near restored found ahead
    have capped := (near milliseconds held).2
    omega
  · intro key member deadline found ahead
    obtain ⟨persisted, near, restored⟩ := kept.restored key member
    rw [restored.stored fun milliseconds held => (near milliseconds held).1]
    exact restored_inForce after near restored found ahead
  · intro room key member milliseconds found ahead
    obtain ⟨persisted, near, restored⟩ := kept.restored key member
    rw [restored.stored fun milliseconds held => (near milliseconds held).1] at found
    obtain ⟨word, capped⟩ := near milliseconds found
    refine ⟨_, by rw [restored.mono, found, Option.map_some], ?_⟩
    generalize restoredAt : (restoreDeadline process.clock milliseconds).1 = deadline
    rcases restoreDeadline_mono process.clock word restoredAt with
      ⟨fits, shown⟩ | ⟨large, shown⟩
    · omega
    · omega

theorem unixMs_lt (time : Int) : unixMs time < u64Bound := by
  rw [unixMs]
  cases systemDurationSince time unixEpoch with
  | none => exact Nat.two_pow_pos 64
  | some duration => exact Nat.mod_lt _ (Nat.two_pow_pos 64)

theorem persistedState_wellTyped (pool : KeyPool) (stored : Reading) :
    (pool.persistedState stored).WellTyped := by
  refine ⟨pool.persisted_nodup stored, fun entry member milliseconds deadline => ?_⟩
  obtain ⟨key, _, rfl⟩ := OrderedMap.mem_collect member
  obtain ⟨wall, _, rfl⟩ := Option.map_eq_some_iff.mp deadline
  exact unixMs_lt wall

theorem load_stored {codec : StateCodec} (faithful : codec.Faithful) {state loaded : PersistedState}
    (found : load codec (.contents (store codec state)) = .loaded loaded) : loaded = state := by
  simp only [load, store, faithful state] at found
  split at found
  next => cases found
  next =>
    split at found
    next => cases found
    next =>
      split at found
      next => cases found
      next => exact (StateLoadOutcome.loaded.inj found).symm

theorem deadlineIn_stored {codec : StateCodec} (faithful : codec.Faithful) (pool : KeyPool)
    (stored : Reading) {name : String} {milliseconds : Nat}
    (found : deadlineIn codec (.contents (store codec (pool.persistedState stored))) name =
      some milliseconds) :
    ∃ key ∈ pool.keys, key.storedDeadline = some milliseconds := by
  rw [deadlineIn] at found
  cases loaded : load codec (.contents (store codec (pool.persistedState stored))) with
  | missing => simp [loaded] at found
  | corrupt reason => simp [loaded] at found
  | loaded state =>
      have same := load_stored faithful loaded
      simp only [loaded] at found
      obtain ⟨persisted, entryAt, deadline⟩ := Option.bind_eq_some_iff.mp found
      rw [same] at entryAt
      obtain ⟨key, member, entryEq⟩ := OrderedMap.mem_collect (OrderedMap.mem_of_lookup entryAt)
      simp only [Prod.mk.injEq] at entryEq
      exact ⟨key, member, by rw [KeyEntry.storedDeadline, ← entryEq.2, deadline]⟩

theorem Process.Kept.cycle {codec : StateCodec} (faithful : codec.Faithful) {first : Reading}
    {process : Process} (kept : process.Kept first) (cycle : Cycle)
    (forward : process.clock.wall ≤ cycle.started.wall) :
    (process.cycle codec cycle).Kept first := by
  refine ⟨le_trans kept.after forward, fun key member => ?_⟩
  have typed : ∀ state, load codec (.contents (store codec
      (process.pool.persistedState cycle.stored))) = .loaded state → state.WellTyped := by
    intro state loaded
    rw [load_stored faithful loaded]
    exact persistedState_wellTyped process.pool cycle.stored
  refine ⟨_, fun milliseconds found => ?_, startFrom_key typed member⟩
  obtain ⟨old, inOld, deadline⟩ := deadlineIn_stored faithful _ _ found
  obtain ⟨persisted, near, restored⟩ := kept.restored old inOld
  rw [restored.stored fun milliseconds held => (near milliseconds held).1] at deadline
  exact near milliseconds deadline

section

variable {codec : StateCodec} {file : FileRead} {state : PersistedState} {configured : KeyConfig}
  {first : Reading}

theorem only_loaded (loaded : load codec file = .loaded state) (typed : state.WellTyped) :
    ∀ other, load codec file = .loaded other → other.WellTyped := by
  intro other found
  rw [loaded, StateLoadOutcome.loaded.injEq] at found
  exact found ▸ typed

theorem first_kept (loaded : load codec file = .loaded state) (typed : state.WellTyped)
    (near : PlausibleFor configured first state) :
    (Process.mk (.startFrom codec configured first file) first).Kept first := by
  have eachTyped := only_loaded loaded typed
  refine ⟨le_refl _, fun key member => ⟨_, fun milliseconds found => ?_,
    startFrom_key eachTyped member⟩⟩
  have known : key.name ∈ (KeyPool.new configured first.wall).names := by
    rw [← startFrom_names codec configured first file eachTyped]
    exact List.mem_map.mpr ⟨key, member, rfl⟩
  simp only [deadlineIn, loaded] at found
  obtain ⟨persisted, entryAt, deadline⟩ := Option.bind_eq_some_iff.mp found
  have entry := OrderedMap.mem_of_lookup entryAt
  exact ⟨typed.words _ entry _ deadline, near _ entry known _ deadline⟩

theorem plausible_of_capped (loaded : load codec file = .loaded state)
    (typed : state.WellTyped) (room : first.mono + maxCooldown ≤ lastRepresentable)
    (capped : Capped first ⟨.startFrom codec configured first file, first⟩) :
    PlausibleFor configured first state := by
  have eachTyped := only_loaded loaded typed
  intro entry member known milliseconds deadline
  rw [← startFrom_names codec configured first file eachTyped] at known
  obtain ⟨key, inside, named⟩ := List.mem_map.mp known
  have restored := startFrom_key eachTyped inside
  have word := typed.words entry member milliseconds deadline
  have held : deadlineIn codec file key.name = some milliseconds := by
    simp only [deadlineIn, loaded, named]
    rw [OrderedMap.lookup_of_distinct typed.once member, Option.bind_some, deadline]
  rw [held] at restored
  by_contra far
  have positive : (0 : Nat) < maxCooldown := by decide
  have cut : min (((fromMillis milliseconds : Nat) : Int) - first.wall).toNat maxCooldown =
      maxCooldown := Nat.min_eq_right (by omega)
  generalize restoredAt : (restoreDeadline first milliseconds).1 = cooldown
  have shown := restoreDeadline_mono first word restoredAt
  simp only [cut] at shown
  rcases shown with ⟨_, shown⟩ | ⟨large, _⟩
  · obtain ⟨stored, storedEq, same⟩ := capped.same key inside cooldown
      (by rw [restored.mono, Option.map_some, restoredAt]) (by simp only; omega)
    rw [restored.stored (by rintro _ ⟨⟩; exact word), Option.some.injEq] at storedEq
    subst storedEq
    simp only at same
    omega
  · omega

end

/-- The cap holds over every run of restarts from a file whose deadlines are plausible, and,
where the monotonic clock has room for the cap, from no other file. -/
theorem deadlines_capped (codec : StateCodec) (faithful : codec.Faithful) (file : FileRead)
    (state : PersistedState) (loaded : load codec file = .loaded state)
    (typed : state.WellTyped) (configured : KeyConfig) (first : Reading) :
    (PlausibleFor configured first state → ∀ process,
      (restarts codec file configured first).Reachable process → Capped first process) ∧
    (first.mono + maxCooldown ≤ lastRepresentable →
      (∀ process, (restarts codec file configured first).Reachable process →
        Capped first process) →
      PlausibleFor configured first state) := by
  constructor
  · intro near process reached
    refine Process.Kept.capped (reached.invariant ?_ ?_)
    · rintro process rfl
      exact first_kept loaded typed near
    · intro process cycle next _ kept stepped
      simp only [restarts] at stepped
      split at stepped
      next forward =>
        cases stepped
        exact kept.cycle faithful cycle (le_trans forward.1 forward.2)
      next => cases stepped
  · intro room capped
    exact plausible_of_capped loaded typed room (capped _ (.initial rfl))

section Runs

def coolingState (deadline : Nat) : PersistedState :=
  ⟨stateSchemaVersion, 1700000000000, some "a", [("a", ⟨some deadline, none, none, none, none⟩)]⟩

def coolingText (deadline : Nat) : Bytes :=
  bytesOf ("\x7b\"version\":1,\"updated_at_unix_ms\":1700000000000,\"active_key\":\"a\"," ++
    "\"keys\":\x7b\"a\":\x7b\"cooldown_until_unix_ms\":" ++ toString deadline ++ "\x7d\x7d\x7d")

def coolingCodec (deadline : Nat) : StateCodec :=
  codecShowing (coolingState deadline) (coolingText deadline)

theorem load_cooling (deadline : Nat) :
    load (coolingCodec deadline) (.contents (coolingText deadline)) =
      .loaded (coolingState deadline) := by
  have quiet : (coolingState deadline).keys.findSome? entryComplaint = none := by
    rw [List.findSome?_eq_none_iff]
    intro entry member
    obtain rfl := List.mem_singleton.mp member
    have notBlank : (Text.trim "a".toList).isEmpty = false := by decide
    refine (@entryComplaint_none ("a", _) notBlank).mpr fun model unset => ?_
    cases unset
  simp only [load, coolingCodec, codecShowing, if_true]
  rw [quiet]
  rfl

theorem coolingState_wellTyped {deadline : Nat} (word : deadline < u64Bound) :
    (coolingState deadline).WellTyped := by
  refine ⟨List.nodup_singleton _, fun entry member milliseconds held => ?_⟩
  rw [List.mem_singleton.mp member] at held
  exact Option.some.inj held ▸ word

def minuteRestarted : Process :=
  (Process.mk (.startFrom (coolingCodec 1700000060000) oneKeyConfig (readingAt 0)
    (.contents (coolingText 1700000060000))) (readingAt 0)).cycle (coolingCodec 1700000060000)
      ⟨readingAt 30, oneKeyConfig, readingAt 30⟩

theorem deadlines_capped_minute : Capped (readingAt 0) minuteRestarted := by
  have reached : (restarts (coolingCodec 1700000060000) (.contents (coolingText 1700000060000))
      oneKeyConfig (readingAt 0)).Reachable minuteRestarted := by
    refine @System.ReachableWhere.step _ _ _ _ _ ⟨readingAt 30, oneKeyConfig, readingAt 30⟩ _
      (.initial rfl) trivial ?_
    simp only [restarts]
    rw [if_pos (by decide)]
    rfl
  refine (deadlines_capped _ (codecShowing_faithful _ _) _ _ (load_cooling 1700000060000)
    (coolingState_wellTyped (by decide)) oneKeyConfig (readingAt 0)).1 ?_ _ reached
  intro entry member _ milliseconds held
  rw [List.mem_singleton.mp member] at held
  cases held
  decide

theorem deadlines_capped_fails :
    ¬∀ codec file state configured first, codec.Faithful → load codec file = .loaded state →
      state.WellTyped → ∀ process, (restarts codec file configured first).Reachable process →
        Capped first process := by
  intro claim
  have typed : (coolingState (u64Bound - 1)).WellTyped := coolingState_wellTyped (by decide)
  have loaded := load_cooling (u64Bound - 1)
  have capped := claim _ _ _ oneKeyConfig (readingAt 0) (codecShowing_faithful _ _) loaded typed
    _ (.initial rfl)
  have near := plausible_of_capped loaded typed (by decide) capped
  exact absurd (near _ (List.mem_singleton_self _) (by decide) _ rfl) (by decide)

end Runs

end ClineProxy
