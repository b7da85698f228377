import ClineProxy.FailoverCore

/-!
The steps of the failover loop inverted once, and the half-open probe lease over every
interleaving of requests.
-/

namespace ClineProxy

open Clock KeyPool TransitionSystem

inductive RequestStep (upstream : ClineUpstream) (pool : KeyPool) (clock : Reading)
    (request : Request) : RequestEvent → Option PoolOp → Request → Prop
  | start : request.phase = .idle →
      RequestStep upstream pool clock request .start none { request with phase := .selecting }
  | selectNone : request.phase = .selecting → pool.select request.attempted clock = none →
      RequestStep upstream pool clock request .select (some (.select request.attempted))
        { request with phase := .exhausted, lastSelect := some (pool, clock) }
  | selectSome (selected : SelectedKey) (next : KeyPool) : request.phase = .selecting →
      pool.select request.attempted clock = some (selected, next) →
      RequestStep upstream pool clock request .select (some (.select request.attempted))
        { request with
          attempted := selected.index :: request.attempted
          phase := .sending selected
          lastSelect := some (pool, clock) }
  | exhaust : request.phase = .exhausted →
      RequestStep upstream pool clock request .exhaust none
        { request with phase := .finished (allRateLimited pool clock) }
  | respond (selected : SelectedKey) (outcome : Outcome) (verdict : Verdict) :
      request.phase = .sending selected → verdict = judge upstream clock.wall outcome →
      RequestStep upstream pool clock request (.respond outcome)
        (request.conclude upstream selected verdict).1
        { request with
          phase := (request.conclude upstream selected verdict).2
          answers := request.answers ++ [⟨selected.index, clock.wall, outcome⟩] }
  | cancel (selected : SelectedKey) : request.phase = .sending selected →
      RequestStep upstream pool clock request .cancel (leaseOp selected)
        { request with phase := .cancelled }
  | retry (selected : SelectedKey) : request.phase = .limited selected →
      RequestStep upstream pool clock request .retry none
        { request with
          phase := .settled selected
            (if pool.len ≤ request.attempted.length then some (allRateLimited pool clock)
             else none) }
  | settle (selected : SelectedKey) (exit : Option SendResult) :
      request.phase = .settled selected exit →
      RequestStep upstream pool clock request .settle (leaseOp selected)
        { request with phase := exit.elim .selecting .finished }

theorem Request.step_cases {upstream : ClineUpstream} {pool : KeyPool} {clock : Reading}
    {request next : Request} {event : RequestEvent} {op : Option PoolOp}
    (stepped : request.step upstream pool clock event = some (op, next)) :
    RequestStep upstream pool clock request event op next := by
  unfold Request.step at stepped
  split at stepped
  · rename_i phaseEq
    cases stepped
    exact .start phaseEq
  · rename_i phaseEq
    split at stepped
    · rename_i nothing
      cases stepped
      exact .selectNone phaseEq nothing
    · rename_i selected taken found
      cases stepped
      exact .selectSome selected taken phaseEq found
  · rename_i phaseEq
    cases stepped
    exact .exhaust phaseEq
  · rename_i selected outcome phaseEq
    cases stepped
    exact .respond selected outcome _ phaseEq rfl
  · rename_i selected phaseEq
    cases stepped
    exact .cancel selected phaseEq
  · rename_i selected phaseEq
    cases stepped
    exact .retry selected phaseEq
  · rename_i selected exit phaseEq
    cases stepped
    exact .settle selected exit phaseEq
  · simp at stepped

inductive WorldStep (upstream : ClineUpstream) (world : World) : Event → World → Prop
  | tick (clock : Reading) : world.clock.mono ≤ clock.mono →
      WorldStep upstream world (.tick clock) { world with clock := clock }
  | request (id : Nat) (event : RequestEvent) (op : Option PoolOp) (next : Request) :
      (world.requests id).step upstream world.pool world.clock event = some (op, next) →
      WorldStep upstream world (.request id event)
        { world with
          pool := applyOp world.clock world.pool op
          requests := Function.update world.requests id
            { next with calls := (world.requests id).calls ++ op.toList } }
  | wake : world.pool.dirty = true → world.writer = .waiting →
      WorldStep upstream world .wake
        { world with pool := { world.pool with dirty := false }, writer := .debouncing }
  | flush : world.writer = .debouncing →
      WorldStep upstream world .flush
        { world with
          file := some (world.pool.persistedState world.clock), writer := .waiting }

theorem World.step_cases {upstream : ClineUpstream} {world next : World} {event : Event}
    (stepped : (gateway upstream).step world event = some next) :
    WorldStep upstream world event next := by
  change world.step upstream event = some next at stepped
  cases event with
  | tick clock =>
      simp only [World.step] at stepped
      split at stepped
      · rename_i later
        cases stepped
        exact .tick clock later
      · simp at stepped
  | request id event =>
      simp only [World.step, Option.map_eq_some_iff] at stepped
      obtain ⟨⟨op, request⟩, moved, rfl⟩ := stepped
      exact .request id event op request moved
  | wake =>
      simp only [World.step] at stepped
      split at stepped
      · rename_i ready
        cases stepped
        exact .wake ready.1 ready.2
      · simp at stepped
  | flush =>
      simp only [World.step] at stepped
      split at stepped
      · rename_i waiting
        cases stepped
        exact .flush waiting
      · simp at stepped

def World.opOf (upstream : ClineUpstream) (world : World) : Event → Option PoolOp
  | .request id event =>
      ((world.requests id).step upstream world.pool world.clock event).bind Prod.fst
  | _ => none

theorem step_pool {upstream : ClineUpstream} {world next : World} {event : Event}
    (stepped : (gateway upstream).step world event = some next) :
    next.pool.active = (applyOp world.clock world.pool (world.opOf upstream event)).active ∧
      next.pool.keys = (applyOp world.clock world.pool (world.opOf upstream event)).keys := by
  cases World.step_cases stepped with
  | tick | wake | flush => exact ⟨rfl, rfl⟩
  | request id event op request moved => simp [World.opOf, moved]

theorem request_clock {upstream : ClineUpstream} {world next : World} {id : Nat}
    {event : RequestEvent}
    (stepped : (gateway upstream).step world (.request id event) = some next) :
    next.clock = world.clock := by
  cases World.step_cases stepped with
  | request => rfl

theorem applyOp_valid {pool : KeyPool} (valid : pool.Valid) (clock : Reading)
    (op : Option PoolOp) : (applyOp clock pool op).Valid := by
  cases op with
  | none => exact valid
  | some op => exact op.apply_valid valid clock

theorem applyOp_identity {pool : KeyPool} (valid : pool.Valid) (clock : Reading)
    (op : Option PoolOp) : (applyOp clock pool op).identity = pool.identity := by
  cases op with
  | none => rfl
  | some op => exact op.apply_identity valid clock

theorem pool_valid_step {upstream : ClineUpstream} {world next : World} {event : Event}
    (valid : world.pool.Valid) (stepped : (gateway upstream).step world event = some next) :
    next.pool.Valid := by
  cases World.step_cases stepped with
  | tick | flush => exact valid
  | request id event op request _ => exact applyOp_valid valid world.clock op
  | wake => exact valid

theorem reachable_pool_valid {upstream : ClineUpstream} {world : World}
    (reached : (gateway upstream).Reachable world) : world.pool.Valid :=
  reached.invariant (fun _ (start : World.Initial _) => start.pool_valid)
    (fun _ _ _ _ valid stepped => pool_valid_step valid stepped)

namespace KeyPool

def probeFlag (pool : KeyPool) (index : Nat) : Bool :=
  pool.runtimeSatisfies index KeyRuntime.probeInFlight

end KeyPool

def PoolOp.clears : PoolOp → Option Nat
  | .select _ => none
  | .markHttp429 index _ _ _ _ => some index
  | .markSuccess index => some index
  | .releaseProbe index => some index

theorem probeFlag_kept {pool : KeyPool} (valid : pool.Valid) (clock : Reading) {op : PoolOp}
    {index : Nat} (flagged : pool.probeFlag index = true) (notCleared : op.clears ≠ some index) :
    (op.apply clock pool).probeFlag index = true := by
  cases op with
  | select attempted =>
      rcases PoolOp.apply_select pool attempted clock with
        ⟨_, same⟩ | ⟨selected, next, found, taken⟩
      · rw [same]
        exact flagged
      · obtain ⟨key, spec⟩ := select_spec valid found
        rw [taken]
        obtain ⟨held, at_, heldFlag⟩ := runtimeSatisfies_iff.mp flagged
        refine runtimeSatisfies_iff.mpr ?_
        rw [spec.keys_eq, getElem?_modify_key, at_]
        by_cases chosen : selected.index = index
        · exact ⟨takeKey held, by simp [chosen], by simp [takeKey, heldFlag]⟩
        · exact ⟨held, by simp [chosen], heldFlag⟩
  | markHttp429 changed cooldown kind message model =>
      have different : changed ≠ index := fun same => notCleared (by simp [PoolOp.clears, same])
      exact (runtimeSatisfies_modify_of_ne (markHttp429_keys ..) different).trans flagged
  | markSuccess changed =>
      have different : changed ≠ index := fun same => notCleared (by simp [PoolOp.clears, same])
      exact (runtimeSatisfies_modify_of_ne (updateKey_keys ..) different).trans flagged
  | releaseProbe changed =>
      have different : changed ≠ index := fun same => notCleared (by simp [PoolOp.clears, same])
      exact (runtimeSatisfies_modify_of_ne (updateKey_keys ..) different).trans flagged

theorem select_probeFlag {pool next : KeyPool} (valid : pool.Valid) {attempted : List Nat}
    {clock : Reading} {selected : SelectedKey}
    (found : pool.select attempted clock = some (selected, next))
    (probing : selected.isProbe = true) :
    pool.probeFlag selected.index = false ∧ next.probeFlag selected.index = true := by
  obtain ⟨key, spec⟩ := select_spec valid found
  have granted : key.runtime.grantsProbe = true := by rw [← spec.isProbe_eq, probing]
  constructor
  · simp only [probeFlag, runtimeSatisfies, spec.at_index, Option.any_some]
    simp only [KeyRuntime.grantsProbe, Bool.and_eq_true, Bool.not_eq_true'] at granted
    exact granted.2
  · refine runtimeSatisfies_iff.mpr ⟨takeKey key, ?_, ?_⟩
    · rw [spec.keys_eq, getElem?_modify_key, spec.at_index]
      simp
    · simp [takeKey, granted]

/-- The request holds the probe lease of the key and its outcome is still out. -/
def World.Probing (world : World) (id index : Nat) : Prop :=
  ∃ selected, (world.requests id).phase = .sending selected ∧ selected.isProbe = true ∧
    selected.index = index

def World.probes (world : World) (id index : Nat) : Bool :=
  match (world.requests id).phase with
  | .sending selected => selected.isProbe && selected.index == index
  | _ => false

theorem World.probes_iff {world : World} {id index : Nat} :
    world.probes id index = true ↔ world.Probing id index := by
  simp only [World.probes, World.Probing]
  split
  · rename_i selected sending
    simp [sending]
  · rename_i notSending
    simp only [Bool.false_eq_true, false_iff, not_exists, not_and]
    intro selected sending
    exact absurd sending (notSending selected)

def World.SingleFlight (world : World) : Prop :=
  ∀ index first second, world.Probing first index → world.Probing second index → first = second

/-- The step clears the probe flag of no key that another request is probing: neither by
recording the outcome of a request without the lease, nor by dropping a lease late. -/
def KeepsForeignProbes (upstream : ClineUpstream) (world : World) (event : Event) : Prop :=
  ∀ id requestEvent op next index, event = .request id requestEvent →
    (world.requests id).step upstream world.pool world.clock requestEvent =
      some (some op, next) →
    op.clears = some index → ∀ other, other ≠ id → ¬world.Probing other index

/-- Whoever probes a key sees its flag set, and nobody else probes that key. -/
structure ProbeLeases (world : World) : Prop where
  flagged : ∀ id index, world.Probing id index → world.pool.probeFlag index = true
  single : world.SingleFlight

theorem probing_update {world : World} {pool : KeyPool} {id other index : Nat}
    {request : Request} :
    ({ world with pool := pool, requests := Function.update world.requests id request } :
      World).Probing other index ↔
      if other = id then ∃ selected, request.phase = .sending selected ∧
        selected.isProbe = true ∧ selected.index = index
      else world.Probing other index := by
  by_cases same : other = id
  · subst other
    simp [World.Probing]
  · simp [World.Probing, Function.update, same]

theorem conclude_phase_ne_sending (upstream : ClineUpstream) (request : Request)
    (selected other : SelectedKey) (verdict : Verdict) :
    (request.conclude upstream selected verdict).2 ≠ .sending other := by
  cases verdict <;> simp [Request.conclude]

theorem probing_after_step {upstream : ClineUpstream} {pool : KeyPool} {clock : Reading}
    {request next : Request} {event : RequestEvent} {op : Option PoolOp}
    (stepped : request.step upstream pool clock event = some (op, next)) {selected : SelectedKey}
    (sending : next.phase = .sending selected) :
    op = some (.select request.attempted) ∧
      ∃ taken, pool.select request.attempted clock = some (selected, taken) := by
  cases Request.step_cases stepped with
  | start | selectNone | exhaust | cancel | retry => simp at sending
  | selectSome chosen taken _ found =>
      simp only [Phase.sending.injEq] at sending
      subst chosen
      exact ⟨rfl, taken, found⟩
  | respond chosen outcome verdict =>
      exact absurd sending (conclude_phase_ne_sending upstream request chosen selected verdict)
  | settle chosen exit => cases exit <;> simp at sending

theorem probeLeases_step {upstream : ClineUpstream} {world next : World} {event : Event}
    (valid : world.pool.Valid) (leases : ProbeLeases world)
    (kept : KeepsForeignProbes upstream world event)
    (stepped : (gateway upstream).step world event = some next) : ProbeLeases next := by
  cases World.step_cases stepped with
  | tick clock _ => exact ⟨leases.flagged, leases.single⟩
  | wake => exact ⟨leases.flagged, leases.single⟩
  | flush => exact ⟨leases.flagged, leases.single⟩
  | request id requestEvent op request moved =>
      -- others keep their flags: the step clears no flag that another request relies on
      have othersFlagged : ∀ other index, other ≠ id → world.Probing other index →
          (applyOp world.clock world.pool op).probeFlag index = true := by
        intro other index different probing
        have before := leases.flagged other index probing
        cases op with
        | none => exact before
        | some op =>
            apply probeFlag_kept valid world.clock before
            intro cleared
            exact kept id requestEvent op request index rfl moved cleared other different probing
      have ownSelection : ∀ selected, request.phase = .sending selected →
          selected.isProbe = true → world.pool.probeFlag selected.index = false ∧
            (applyOp world.clock world.pool op).probeFlag selected.index = true := by
        intro selected sending isProbe
        obtain ⟨opEq, taken, found⟩ := probing_after_step moved sending
        have flags := select_probeFlag valid found isProbe
        refine ⟨flags.1, ?_⟩
        simpa [opEq, applyOp, PoolOp.apply, found] using flags.2
      constructor
      · intro other index probing
        rw [probing_update] at probing
        split at probing
        · obtain ⟨selected, sending, isProbe, rfl⟩ := probing
          exact (ownSelection selected sending isProbe).2
        · rename_i different
          exact othersFlagged other index different probing
      · intro index first second firstProbing secondProbing
        rw [probing_update] at firstProbing secondProbing
        split at firstProbing <;> split at secondProbing
        · rename_i firstEq secondEq
          exact firstEq.trans secondEq.symm
        · obtain ⟨selected, sending, isProbe, rfl⟩ := firstProbing
          have clear := (ownSelection selected sending isProbe).1
          rw [leases.flagged second _ secondProbing] at clear
          simp at clear
        · obtain ⟨selected, sending, isProbe, rfl⟩ := secondProbing
          have clear := (ownSelection selected sending isProbe).1
          rw [leases.flagged first _ firstProbing] at clear
          simp at clear
        · exact leases.single index first second firstProbing secondProbing

theorem initial_probeLeases {world : World} (start : world.Initial) : ProbeLeases world := by
  have nobody : ∀ id index, ¬world.Probing id index := by
    rintro id index ⟨selected, sending, _⟩
    rw [start.no_requests id] at sending
    simp [Request.fresh] at sending
  exact ⟨fun id index probing => absurd probing (nobody id index),
    fun index first _ probing => absurd probing (nobody first index)⟩

/-- In every run that never clears another request's probe flag, at most one request
probes a key at any moment. -/
theorem half_open_single_flight (upstream : ClineUpstream) (world : World)
    (reached : (gateway upstream).ReachableWhere (KeepsForeignProbes upstream) world) :
    world.SingleFlight := by
  have leases : ProbeLeases world := reached.invariant
    (fun _ (start : World.Initial _) => initial_probeLeases start)
    (fun _ _ _ before held allowed stepped =>
      probeLeases_step (reachable_pool_valid before.reachable) held allowed stepped)
  exact leases.single

section Runs

def plainUpstream : ClineUpstream :=
  { env := ⟨⟨fun _ => none, fun _ => none, fun _ => ""⟩, fun _ => none, fun _ => none⟩
    fallbackCooldown := fromSecs 60
    exactSecrets := [] }

def oneKey : List ClineKeyConfig := [⟨"a", "secret-a", true⟩]

def readingAt (seconds : Nat) : Reading :=
  ⟨fromSecs (1000 + seconds), fromSecs (1700000000 + seconds)⟩

def freshWorld (configured : List ClineKeyConfig) : World :=
  { pool := .new configured (readingAt 0).wall
    clock := readingAt 0
    requests := fun _ => Request.fresh
    file := none
    writer := .waiting }

theorem freshWorld_initial (configured : List ClineKeyConfig) : (freshWorld configured).Initial :=
  ⟨new_valid _ _, fun _ => rfl⟩

def limitedResponse : Outcome := .response ⟨429, [], []⟩

def stolenProbe : List Event :=
  [.request 0 .start, .request 0 .select, .request 0 (.respond limitedResponse),
    .tick (readingAt 61), .request 1 .start, .request 1 .select, .request 2 .start,
    .request 2 .select, .request 2 (.respond limitedResponse), .tick (readingAt 122),
    .request 3 .start, .request 3 .select]

theorem keepsForeignProbes_of_clears {upstream : ClineUpstream} {world : World} (event : Event)
    (harmless : ∀ id requestEvent op next, event = .request id requestEvent →
      (world.requests id).step upstream world.pool world.clock requestEvent =
        some (some op, next) → op.clears = none) :
    KeepsForeignProbes upstream world event := by
  intro id requestEvent op next index eventEq moved cleared
  rw [harmless id requestEvent op next eventEq moved] at cleared
  simp at cleared

def expiredWorld : World :=
  { freshWorld oneKey with
    pool := (freshWorld oneKey).pool.updateKey 0 fun key =>
      { key with runtime := { key.runtime with cooldownUntil := some 0 } } }

theorem half_open_single_flight_probe : ∃ world,
    (gateway plainUpstream).ReachableWhere (KeepsForeignProbes plainUpstream) world ∧
      world.Probing 0 0 ∧ world.SingleFlight := by
  have start : expiredWorld.Initial := ⟨fun _ => by decide, fun _ => rfl⟩
  have reached : (gateway plainUpstream).ReachableWhere (KeepsForeignProbes plainUpstream) _ :=
    .step (.step (.initial start)
      (keepsForeignProbes_of_clears (.request 0 .start) (by
        rintro id requestEvent op next ⟨⟩ moved
        cases Request.step_cases moved)) rfl)
      (keepsForeignProbes_of_clears (.request 0 .select) (by
        rintro id requestEvent op next ⟨⟩ moved
        cases Request.step_cases moved <;> rfl)) rfl
  exact ⟨_, reached, World.probes_iff.mp (by decide), half_open_single_flight _ _ reached⟩

theorem half_open_single_flight_fails :
    ¬∀ world, (gateway plainUpstream).Reachable world → world.SingleFlight := by
  intro claim
  have twoProbes : ((gateway plainUpstream).runFrom (freshWorld oneKey) stolenProbe).any
      (fun world => world.probes 1 0 && world.probes 3 0) = true := by decide
  obtain ⟨world, ran, both⟩ := Option.any_eq_true _ _ |>.mp twoProbes
  simp only [Bool.and_eq_true, World.probes_iff] at both
  have reached : (gateway plainUpstream).Reachable world :=
    System.runFrom_reachable (.initial (freshWorld_initial oneKey)) ran
  exact absurd (claim world reached 0 1 3 both.1 both.2) (by decide)

end Runs

end ClineProxy
