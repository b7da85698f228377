import ClineProxy.SingleFlight

/-! The sticky active key over every interleaving of requests. -/

namespace ClineProxy

open Clock KeyPool TransitionSystem

def KeyPool.ActiveHealthy (pool : KeyPool) : Prop :=
  pool.runtimeSatisfies pool.active (fun runtime => runtime.cooldownUntil.isNone) = true

def LimitsActive (upstream : ClineUpstream) (world : World) (event : Event) : Prop :=
  ∃ cooldown kind message model,
    world.opOf upstream event = some (.markHttp429 world.pool.active cooldown kind message model)

/-- The selection may take the active key, or finds every key it may take cooling. -/
def SelectsSticky (pool : KeyPool) (attempted : List Nat) (now : Instant) : Prop :=
  pool.active ∉ attempted ∨
    ∀ index key, pool.keys[index]? = some key → index ∉ attempted →
      key.runtime.isCooling now = true

def StickySelection (upstream : ClineUpstream) (world : World) (event : Event) : Prop :=
  ∀ attempted, world.opOf upstream event = some (.select attempted) →
    SelectsSticky world.pool attempted world.clock.mono

theorem healthy_passesScan {runtime : KeyRuntime} (healthy : runtime.cooldownUntil.isNone = true)
    (now : Instant) (allowProbed : Bool) : runtime.passesScan now allowProbed = true := by
  simp only [Option.isNone_iff_eq_none] at healthy
  simp [KeyRuntime.passesScan, KeyRuntime.isCooling, healthy]

theorem select_healthy_active {pool : KeyPool} (valid : pool.Valid)
    (healthy : pool.ActiveHealthy) {attempted : List Nat} (fresh : pool.active ∉ attempted)
    (clock : Reading) :
    ∃ selected next, pool.select attempted clock = some (selected, next) ∧
      selected.index = pool.active := by
  obtain ⟨key, at_, noCooldown⟩ := runtimeSatisfies_iff.mp healthy
  have bound : pool.active < pool.len := (List.getElem?_eq_some_iff.mp at_).1
  have first : pool.scanIndex attempted pool.active clock.mono false = some pool.active := by
    obtain ⟨rest, around⟩ := cyclicFrom_cons bound
    simp [scanIndex, around, fresh, runtimeSatisfies, at_, healthy_passesScan noCooldown]
  have scanned : ∃ selected next, pool.scan attempted pool.active clock false =
      some (selected, next) := by
    simp [scan, first, at_]
  obtain ⟨selected, next, found⟩ := scanned
  refine ⟨selected, next, ?_, ?_⟩
  · rw [select_eq valid attempted clock (by omega), found, Option.some_or]
  · have index := (scan_spec found).1
    rw [first, Option.some.injEq] at index
    exact index.symm

theorem select_active_iff {pool : KeyPool} (valid : pool.Valid) (healthy : pool.ActiveHealthy)
    (attempted : List Nat) (clock : Reading) :
    ((PoolOp.select attempted).apply clock pool).active = pool.active ↔
      SelectsSticky pool attempted clock.mono := by
  constructor
  · intro kept
    by_cases fresh : pool.active ∈ attempted
    · right
      rcases PoolOp.apply_select pool attempted clock with
        ⟨nothing, _⟩ | ⟨selected, next, found, taken⟩
      · exact (select_none valid attempted clock).mp nothing
      · obtain ⟨key, spec⟩ := select_spec valid found
        rw [taken, spec.active_eq] at kept
        exact absurd (kept ▸ fresh) spec.fresh
    · exact Or.inl fresh
  · rintro (fresh | cooling)
    · obtain ⟨selected, next, found, index⟩ := select_healthy_active valid healthy fresh clock
      obtain ⟨key, spec⟩ := select_spec valid found
      simp [PoolOp.apply, found, spec.active_eq, index]
    · have nothing := (select_none valid attempted clock).mpr cooling
      simp [PoolOp.apply, nothing]

theorem apply_active_iff {pool : KeyPool} (valid : pool.Valid) (healthy : pool.ActiveHealthy)
    (clock : Reading) {op : PoolOp}
    (notLimited : ∀ cooldown kind message model,
      op ≠ .markHttp429 pool.active cooldown kind message model) :
    (op.apply clock pool).active = pool.active ↔
      ∀ attempted, op = .select attempted → SelectsSticky pool attempted clock.mono := by
  cases op with
  | select attempted =>
      rw [select_active_iff valid healthy]
      simp
  | markHttp429 index cooldown kind message model =>
      have different : pool.active ≠ index := by
        rintro rfl
        exact notLimited cooldown kind message model rfl
      simp [PoolOp.apply, markHttp429_active valid, different]
  | markSuccess index => simp [PoolOp.apply, markSuccess]
  | releaseProbe index => simp [PoolOp.apply, releaseProbe]

theorem apply_activeHealthy {pool : KeyPool} (valid : pool.Valid) (healthy : pool.ActiveHealthy)
    (clock : Reading) {op : PoolOp}
    (notLimited : ∀ cooldown kind message model,
      op ≠ .markHttp429 pool.active cooldown kind message model)
    (kept : (op.apply clock pool).active = pool.active) : (op.apply clock pool).ActiveHealthy := by
  obtain ⟨key, at_, noCooldown⟩ := runtimeSatisfies_iff.mp healthy
  rw [ActiveHealthy, kept, runtimeSatisfies_iff]
  rcases op.apply_keys valid clock with same | ⟨index, change, changed, which⟩
  · exact ⟨key, by rw [same, at_], noCooldown⟩
  · rw [changed, getElem?_modify_key, at_]
    by_cases onActive : index = pool.active
    · refine ⟨change key, by simp [onActive], ?_⟩
      rcases which with rfl | rfl | rfl | ⟨cooldown, kind, message, model, rfl, rfl⟩
      · exact noCooldown
      · rfl
      · exact noCooldown
      · exact absurd (onActive ▸ rfl) (notLimited cooldown kind message model)
    · exact ⟨key, by simp [onActive], noCooldown⟩

theorem step_active_iff {upstream : ClineUpstream} {world next : World} {event : Event}
    (valid : world.pool.Valid) (healthy : world.pool.ActiveHealthy)
    (stepped : (gateway upstream).step world event = some next)
    (notLimited : ¬LimitsActive upstream world event) :
    next.pool.active = world.pool.active ↔ StickySelection upstream world event := by
  rw [(step_pool stepped).1, StickySelection]
  cases made : world.opOf upstream event with
  | none => simp [applyOp]
  | some op =>
      have other : ∀ cooldown kind message model,
          op ≠ .markHttp429 world.pool.active cooldown kind message model := by
        rintro cooldown kind message model rfl
        exact notLimited ⟨cooldown, kind, message, model, made⟩
      simpa [applyOp] using apply_active_iff valid healthy world.clock other

theorem step_activeHealthy {upstream : ClineUpstream} {world next : World} {event : Event}
    (valid : world.pool.Valid) (healthy : world.pool.ActiveHealthy)
    (stepped : (gateway upstream).step world event = some next)
    (notLimited : ¬LimitsActive upstream world event)
    (kept : next.pool.active = world.pool.active) : next.pool.ActiveHealthy := by
  obtain ⟨activeEq, keysEq⟩ := step_pool stepped
  have after : (applyOp world.clock world.pool (world.opOf upstream event)).ActiveHealthy := by
    rw [kept] at activeEq
    cases made : world.opOf upstream event with
    | none => exact healthy
    | some op =>
        rw [made] at activeEq
        apply apply_activeHealthy valid healthy world.clock _ activeEq.symm
        rintro cooldown kind message model rfl
        exact notLimited ⟨cooldown, kind, message, model, made⟩
  simpa [ActiveHealthy, runtimeSatisfies, activeEq, keysEq] using after

/-- A step other than a 429 on it leaves a healthy active key in its role exactly when it is
no selection that skips that key for another; a run of such steps never moves it. -/
theorem sticky_active (upstream : ClineUpstream) (world : World)
    (reached : (gateway upstream).Reachable world) (healthy : world.pool.ActiveHealthy) :
    (∀ event next, (gateway upstream).step world event = some next →
      ¬LimitsActive upstream world event →
      (next.pool.active = world.pool.active ↔ StickySelection upstream world event)) ∧
    ∀ later, (gateway upstream).PathWhere
        (fun state event => StickySelection upstream state event ∧
          ¬LimitsActive upstream state event) world later →
      later.pool.active = world.pool.active ∧ later.pool.ActiveHealthy := by
  constructor
  · intro event next stepped notLimited
    exact step_active_iff (reachable_pool_valid reached) healthy stepped notLimited
  · intro later path
    induction path with
    | refl => exact ⟨rfl, healthy⟩
    | step before allowed stepped ih =>
        obtain ⟨sticky, notLimited⟩ := allowed
        have valid := reachable_pool_valid (before.reachable reached)
        have kept := (step_active_iff valid ih.2 stepped notLimited).mpr sticky
        exact ⟨kept.trans ih.1, step_activeHealthy valid ih.2 stepped notLimited kept⟩

section Runs

def threeKeys : List ClineKeyConfig :=
  [⟨"a", "secret-a", true⟩, ⟨"b", "secret-b", true⟩, ⟨"c", "secret-c", true⟩]

def okResponse : Outcome := .response ⟨200, [], []⟩

def failover (id : Nat) : List Event :=
  [.request id (.respond limitedResponse), .request id .retry, .request id .settle,
    .request id .select]

def lateFailover : List Event :=
  [.request 0 .start, .request 0 .select] ++ failover 0 ++
    [.tick (readingAt 61), .request 1 .start, .request 1 .select] ++ failover 1 ++ failover 1 ++
    [.request 1 (.respond okResponse), .tick (readingAt 122),
      .request 0 (.respond limitedResponse), .request 0 .retry, .request 0 .settle]

def afterFailover : List Event :=
  [.request 0 .start, .request 0 .select] ++ failover 0 ++
    [.tick (readingAt 61), .request 1 .start]

theorem sticky_active_half_open : ∃ world next later,
    (gateway plainUpstream).runFrom (freshWorld threeKeys) afterFailover = some world ∧
      world.pool.active = 1 ∧
      world.opOf plainUpstream (.request 1 .select) = some (.select []) ∧
      (gateway plainUpstream).step world (.request 1 .select) = some next ∧
      next.pool.active = 1 ∧
      next.opOf plainUpstream (.request 1 (.respond okResponse)) = some (.markSuccess 1) ∧
      (gateway plainUpstream).step next (.request 1 (.respond okResponse)) = some later ∧
      later.pool.active = 1 := by
  have facts : ((gateway plainUpstream).runFrom (freshWorld threeKeys) afterFailover).any
      (fun world => world.pool.active == 1 &&
        world.pool.runtimeSatisfies 1 (fun runtime => runtime.cooldownUntil.isNone) &&
        world.opOf plainUpstream (.request 1 .select) == some (.select []) &&
        ((gateway plainUpstream).step world (.request 1 .select)).any fun next =>
          next.opOf plainUpstream (.request 1 (.respond okResponse)) == some (.markSuccess 1) &&
          ((gateway plainUpstream).step next (.request 1 (.respond okResponse))).isSome) = true := by
    decide
  obtain ⟨world, ran, facts⟩ := Option.any_eq_true _ _ |>.mp facts
  simp only [Bool.and_eq_true, beq_iff_eq, Option.any_eq_true, Option.isSome_iff_exists] at facts
  obtain ⟨⟨⟨active, healthy⟩, selects⟩, next, selected, heals, later, healed⟩ := facts
  have reached : (gateway plainUpstream).Reachable world :=
    System.runFrom_reachable (.initial (freshWorld_initial threeKeys)) ran
  obtain ⟨stays, runs⟩ := sticky_active plainUpstream world reached
    (by rw [KeyPool.ActiveHealthy, active]; exact healthy)
  have sticky : StickySelection plainUpstream world (.request 1 .select) := by
    intro attempted made
    rw [selects, Option.some.injEq, PoolOp.select.injEq] at made
    exact Or.inl (by simp [← made])
  have unlimited : ¬LimitsActive plainUpstream world (.request 1 .select) := by
    rintro ⟨cooldown, kind, message, model, made⟩
    simp [selects] at made
  have first := (stays _ next selected unlimited).mpr sticky
  have stickySuccess : StickySelection plainUpstream next (.request 1 (.respond okResponse)) := by
    intro attempted made
    simp [heals] at made
  have unlimitedSuccess : ¬LimitsActive plainUpstream next (.request 1 (.respond okResponse)) := by
    rintro ⟨cooldown, kind, message, model, made⟩
    simp [heals] at made
  have second := (runs later (.step (.step (.refl world) ⟨sticky, unlimited⟩ selected)
    ⟨stickySuccess, unlimitedSuccess⟩ healed)).1
  exact ⟨world, next, later, ran, active, selects, selected, first.trans active, heals, healed,
    second.trans active⟩

theorem sticky_active_fails :
    ¬∀ world event next, (gateway plainUpstream).Reachable world → world.pool.ActiveHealthy →
      (gateway plainUpstream).step world event = some next →
      ¬LimitsActive plainUpstream world event → next.pool.active = world.pool.active := by
  intro claim
  have stolen : ((gateway plainUpstream).runFrom (freshWorld threeKeys) lateFailover).any
      (fun world => world.pool.active == 0 &&
        world.pool.runtimeSatisfies 0 (fun runtime => runtime.cooldownUntil.isNone) &&
        world.opOf plainUpstream (.request 0 .select) == some (.select [1, 0]) &&
        ((gateway plainUpstream).step world (.request 0 .select)).any
          (fun next => next.pool.active == 2)) = true := by decide
  obtain ⟨world, ran, facts⟩ := Option.any_eq_true _ _ |>.mp stolen
  simp only [Bool.and_eq_true, beq_iff_eq, Option.any_eq_true] at facts
  obtain ⟨⟨⟨active, healthy⟩, op⟩, next, stepped, moved⟩ := facts
  have reached : (gateway plainUpstream).Reachable world :=
    System.runFrom_reachable (.initial (freshWorld_initial threeKeys)) ran
  have kept := claim world (.request 0 .select) next reached
    (by rw [KeyPool.ActiveHealthy, active]; exact healthy) stepped
    (by rintro ⟨cooldown, kind, message, model, made⟩; simp [op] at made)
  omega

end Runs

end ClineProxy
