import ClineProxy.ServiceCore

/-!
The dirty signal against the persisted state it stands for, and the debounced writer that
waits for it.
-/

namespace ClineProxy

open Clock KeyPool TransitionSystem

def PersistedKeyState.material (state : PersistedKeyState) : PersistedKeyState :=
  { state with lastSuccessAtUnixMs := none }

/-- The persisted state without its time stamp and the times of successes. -/
def PersistedState.material (state : PersistedState) :
    Option String × List (String × PersistedKeyState) :=
  (state.activeKey, state.keys.map fun entry => (entry.1, entry.2.material))

def PoolOp.signals (op : PoolOp) (clock : Reading) (pool : KeyPool) : Bool :=
  (op.apply clock { pool with dirty := false }).dirty

def PoolOp.ChangesMaterial (op : PoolOp) (clock : Reading) (pool : KeyPool) : Prop :=
  ((op.apply clock pool).persistedState clock).material ≠ (pool.persistedState clock).material

def recorded (key : KeyEntry) : PersistedKeyState := (persistKey key).material

namespace KeyPool

def records (pool : KeyPool) : List (String × PersistedKeyState) :=
  pool.keys.map fun key => (key.name, recorded key)

theorem material_keys (pool : KeyPool) (clock : Reading) :
    (pool.persistedState clock).material =
      (pool.activeKeyName, OrderedMap.collect Prod.fst Prod.snd pool.records) := by
  rw [PersistedState.material, persistedState, OrderedMap.collect_map_value, records,
    OrderedMap.collect_map]
  rfl

theorem material_eq_iff {pool next : KeyPool} (distinct : pool.names.Nodup)
    (same : next.names = pool.names) (clock : Reading) :
    (next.persistedState clock).material = (pool.persistedState clock).material ↔
      next.activeKeyName = pool.activeKeyName ∧ next.records = pool.records := by
  have firsts : ∀ pool : KeyPool, pool.records.map Prod.fst = pool.names := fun pool => by
    simp [records, names, Function.comp_def]
  rw [material_keys, material_keys, Prod.mk.injEq]
  constructor
  · rintro ⟨active, collected⟩
    exact ⟨active, OrderedMap.collect_inj (by rwa [firsts]) (by rw [firsts, firsts, same]) collected⟩
  · rintro ⟨active, kept⟩
    exact ⟨active, by rw [kept]⟩

theorem activeKeyName_eq {pool : KeyPool} (valid : pool.Valid) (nonempty : 0 < pool.len) :
    pool.activeKeyName = pool.names[pool.active]? := by
  rw [activeKeyName, if_neg (by omega), Nat.mod_eq_of_lt (valid nonempty), names,
    List.getElem?_map]

theorem activeKeyName_iff {pool next : KeyPool} (valid : pool.Valid) (nextValid : next.Valid)
    (named : pool.Named) (same : next.names = pool.names) :
    next.activeKeyName = pool.activeKeyName ↔ next.active = pool.active := by
  have nextNamed := Named.of_names named same
  rw [activeKeyName_eq valid named.nonempty, activeKeyName_eq nextValid nextNamed.nonempty, same]
  have bound : next.active < pool.names.length := by
    rw [← same]
    simpa [names, len] using nextValid nextNamed.nonempty
  exact List.getElem?_inj bound named.distinct

theorem records_modify {pool next : KeyPool} {index : Nat} {change : KeyEntry → KeyEntry}
    (keysEq : next.keys = pool.keys.modify index change)
    (sameName : ∀ key, (change key).name = key.name) :
    next.records = pool.records ↔
      ∀ key, pool.keys[index]? = some key → recorded (change key) = recorded key := by
  constructor
  · intro same key at_
    have entries := congrArg (fun entries : List (String × PersistedKeyState) => entries[index]?) same
    simpa [records, keysEq, at_, sameName] using entries
  · intro same
    apply List.ext_getElem?
    intro query
    simp only [records, List.getElem?_map, keysEq, getElem?_modify_key]
    cases queried : pool.keys[query]? with
    | none => rfl
    | some key =>
        by_cases here : index = query
        · subst query
          simp [sameName, same key queried]
        · simp [here]

def Takes (pool : KeyPool) (attempted : List Nat) (now : Instant) (allowProbed : Bool)
    (index : Nat) : Prop :=
  index ∉ attempted ∧
    pool.runtimeSatisfies index (fun runtime => runtime.passesScan now allowProbed) = true

def SelectKeeps (pool : KeyPool) (attempted : List Nat) (now : Instant) : Prop :=
  pool.Takes attempted now false pool.active ∨
    (∀ index, ¬pool.Takes attempted now false index) ∧
      (pool.Takes attempted now true pool.active ∨
        ∀ index, ¬pool.Takes attempted now true index)

theorem scanIndex_takes {pool : KeyPool} {attempted : List Nat} {active index : Nat}
    {now : Instant} {allowProbed : Bool}
    (found : pool.scanIndex attempted active now allowProbed = some index) :
    pool.Takes attempted now allowProbed index := by
  obtain ⟨fresh, key, at_, passed⟩ := scanIndex_some found
  exact ⟨fresh, runtimeSatisfies_iff.mpr ⟨key, at_, passed⟩⟩

theorem scanIndex_none_takes {pool : KeyPool} {attempted : List Nat} {active : Nat}
    {now : Instant} {allowProbed : Bool} (bound : active < pool.len) :
    pool.scanIndex attempted active now allowProbed = none ↔
      ∀ index, ¬pool.Takes attempted now allowProbed index := by
  rw [scanIndex_none bound]
  constructor
  · rintro skipped index ⟨fresh, satisfied⟩
    obtain ⟨key, at_, passed⟩ := runtimeSatisfies_iff.mp satisfied
    simp [skipped index key at_ fresh] at passed
  · intro skipped index key at_ fresh
    by_contra passed
    exact skipped index ⟨fresh, runtimeSatisfies_iff.mpr ⟨key, at_, by simpa using passed⟩⟩

theorem scanIndex_active {pool : KeyPool} {attempted : List Nat} {now : Instant}
    {allowProbed : Bool} (takes : pool.Takes attempted now allowProbed pool.active) :
    pool.scanIndex attempted pool.active now allowProbed = some pool.active := by
  obtain ⟨fresh, satisfied⟩ := takes
  obtain ⟨key, at_, _⟩ := runtimeSatisfies_iff.mp satisfied
  obtain ⟨rest, around⟩ := cyclicFrom_cons (List.getElem?_eq_some_iff.mp at_).1
  simp [scanIndex, around, fresh, satisfied]

theorem scan_active_iff {pool next : KeyPool} {attempted : List Nat} {clock : Reading}
    {allowProbed : Bool} {selected : SelectedKey}
    (found : pool.scan attempted pool.active clock allowProbed = some (selected, next)) :
    next.active = pool.active ↔ pool.Takes attempted clock.mono allowProbed pool.active := by
  obtain ⟨indexEq, key, spec⟩ := scan_spec found
  rw [spec.active_eq]
  constructor
  · intro same
    exact same ▸ scanIndex_takes indexEq
  · intro takes
    rw [scanIndex_active takes, Option.some.injEq] at indexEq
    exact indexEq.symm

theorem select_keeps_iff {pool : KeyPool} (valid : pool.Valid) (nonempty : 0 < pool.len)
    (attempted : List Nat) (clock : Reading) :
    ((PoolOp.select attempted).apply clock pool).active = pool.active ↔
      pool.SelectKeeps attempted clock.mono := by
  have bound := valid nonempty
  simp only [PoolOp.apply, select_eq valid attempted clock nonempty, SelectKeeps]
  cases first : pool.scan attempted pool.active clock false with
  | some result =>
      obtain ⟨selected, next⟩ := result
      have someone := scanIndex_takes (scan_spec first).1
      rw [Option.some_or, Option.elim_some, scan_active_iff first]
      constructor
      · exact Or.inl
      · rintro (active | ⟨nobody, _⟩)
        · exact active
        · exact absurd someone (nobody _)
  | none =>
      have nobody := (scanIndex_none_takes bound).mp (scan_eq_none.mp first)
      rw [Option.none_or]
      cases second : pool.scan attempted pool.active clock true with
      | some result =>
          obtain ⟨selected, next⟩ := result
          have someone := scanIndex_takes (scan_spec second).1
          rw [Option.elim_some, scan_active_iff second]
          constructor
          · exact fun active => Or.inr ⟨nobody, Or.inl active⟩
          · rintro (active | ⟨_, active | none_⟩)
            · exact absurd active (nobody _)
            · exact active
            · exact absurd someone (none_ _)
      | none =>
          have empty := (scanIndex_none_takes bound).mp (scan_eq_none.mp second)
          exact ⟨fun _ => Or.inr ⟨nobody, Or.inr empty⟩, fun _ => rfl⟩

theorem advanceCandidate_isSome {pool : KeyPool} {rejected : Nat} {now : Instant}
    (bound : rejected < pool.len) :
    (pool.advanceCandidate rejected now).isSome = true ↔ ∃ other, other ≠ rejected ∧
      pool.runtimeSatisfies other (fun runtime => runtime.eligibleForAdvance now) = true := by
  constructor
  · intro there
    obtain ⟨candidate, found⟩ := Option.isSome_iff_exists.mp there
    exact ⟨candidate, advanceCandidate_ne bound found, (advanceCandidate_some found).2⟩
  · rintro ⟨other, different, eligible⟩
    obtain ⟨key, at_, _⟩ := runtimeSatisfies_iff.mp eligible
    have inside := (List.getElem?_eq_some_iff.mp at_).1
    rw [advanceCandidate, List.find?_isSome]
    refine ⟨other, ?_, eligible⟩
    simp only [List.mem_map, List.mem_range'_1]
    simp only [len] at *
    by_cases ahead : rejected < other
    · refine ⟨other - rejected, by omega, ?_⟩
      rw [Nat.add_sub_cancel' (by omega), Nat.mod_eq_of_lt inside]
    · refine ⟨other + pool.keys.length - rejected, by omega, ?_⟩
      have around : rejected + (other + pool.keys.length - rejected) =
        other + pool.keys.length := by omega
      rw [around, Nat.add_mod_right, Nat.mod_eq_of_lt inside]

theorem limited_active_moves {pool : KeyPool} (valid : pool.Valid) (nonempty : 0 < pool.len)
    (change : KeyEntry → KeyEntry) (clock : Reading) :
    (if pool.active = pool.active ∧ 0 < pool.len then
        ((pool.updateKey pool.active change).advanceCandidate pool.active clock.mono).getD
          pool.active
      else pool.active) ≠ pool.active ↔
      pool.active = pool.active ∧ ∃ other, other ≠ pool.active ∧ pool.runtimeSatisfies other
        (fun runtime => runtime.eligibleForAdvance clock.mono) = true := by
  have bound : pool.active < (pool.updateKey pool.active change).len := by
    rw [updateKey_len]
    exact valid nonempty
  have elsewhere : ∀ other, other ≠ pool.active →
      (pool.updateKey pool.active change).runtimeSatisfies other
          (fun runtime => runtime.eligibleForAdvance clock.mono) =
        pool.runtimeSatisfies other (fun runtime => runtime.eligibleForAdvance clock.mono) :=
    fun other different => runtimeSatisfies_modify_of_ne (updateKey_keys ..) (Ne.symm different)
  have someone := @advanceCandidate_isSome (pool.updateKey pool.active change) pool.active
    clock.mono bound
  rw [if_pos ⟨rfl, nonempty⟩]
  cases found : (pool.updateKey pool.active change).advanceCandidate pool.active clock.mono with
  | none =>
      simp only [found, Option.isSome_none, Bool.false_eq_true, false_iff, not_exists, not_and]
        at someone
      simp only [Option.getD_none, ne_eq, not_true_eq_false, true_and, false_iff, not_exists,
        not_and]
      intro other different
      rw [← elsewhere other different]
      exact someone other different
  | some candidate =>
      have different := advanceCandidate_ne bound found
      simp only [Option.getD_some, ne_eq, different, not_false_eq_true, true_and, true_iff]
      exact ⟨candidate, different, elsewhere candidate different ▸ (advanceCandidate_some found).2⟩

end KeyPool

/-- The operation changes material state exactly if it signals. -/
def SignalExact (pool : KeyPool) (clock : Reading) : PoolOp → Prop
  | .select attempted => pool.SelectKeeps attempted clock.mono
  | .markHttp429 index cooldown kind message model =>
      (∃ key, pool.keys[index]? = some key ∧
        recorded (coolKey cooldown kind message model clock key) ≠ recorded key) ∨
      (pool.active = index ∧ ∃ other, other ≠ index ∧ pool.runtimeSatisfies other
        (fun runtime => runtime.eligibleForAdvance clock.mono) = true)
  | .markSuccess index =>
      ∃ key, pool.keys[index]? = some key ∧ key.runtime.cooldownUntilWall ≠ none
  | .releaseProbe _ => True

def PoolOp.notifies : PoolOp → Bool
  | .select _ | .releaseProbe _ => false
  | .markHttp429 _ _ _ _ _ | .markSuccess _ => true

theorem apply_dirty {pool : KeyPool} (valid : pool.Valid) (clock : Reading) (op : PoolOp) :
    (op.apply clock pool).dirty = (pool.dirty || op.notifies) := by
  cases op with
  | select attempted =>
      rcases PoolOp.apply_select pool attempted clock with
        ⟨_, same⟩ | ⟨selected, next, found, taken⟩
      · simp [same, PoolOp.notifies]
      · obtain ⟨key, spec⟩ := select_spec valid found
        simp [taken, spec.dirty_eq, PoolOp.notifies]
  | markHttp429 | markSuccess => simp [PoolOp.apply, PoolOp.notifies, markSuccess]
  | releaseProbe index => simp [PoolOp.apply, releaseProbe, PoolOp.notifies]

theorem signals_eq {pool : KeyPool} (valid : pool.Valid) (clock : Reading) (op : PoolOp) :
    op.signals clock pool = op.notifies := by
  have cleanValid : KeyPool.Valid { pool with dirty := false } := valid
  simp [PoolOp.signals, apply_dirty cleanValid]

theorem not_changesMaterial_iff {pool : KeyPool} (valid : pool.Valid) (named : pool.Named)
    (clock : Reading) (op : PoolOp) :
    ¬op.ChangesMaterial clock pool ↔
      (op.apply clock pool).active = pool.active ∧
        (op.apply clock pool).records = pool.records := by
  have same := names_of_identity (op.apply_identity valid clock)
  rw [PoolOp.ChangesMaterial, not_not, material_eq_iff named.distinct same,
    activeKeyName_iff valid (op.apply_valid valid clock) named same]

theorem changes_select {pool : KeyPool} (valid : pool.Valid) (named : pool.Named)
    (clock : Reading) (attempted : List Nat) :
    ¬(PoolOp.select attempted).ChangesMaterial clock pool ↔
      pool.SelectKeeps attempted clock.mono := by
  rw [not_changesMaterial_iff valid named, select_keeps_iff valid named.nonempty]
  refine and_iff_left_of_imp fun _ => ?_
  rcases PoolOp.apply_select pool attempted clock with
    ⟨_, same⟩ | ⟨selected, next, found, taken⟩
  · rw [same]
  · obtain ⟨key, spec⟩ := select_spec valid found
    rw [taken, records_modify spec.keys_eq fun _ => rfl]
    exact fun _ _ => rfl

theorem recorded_healKey {key : KeyEntry} {wallNow : SystemTime} :
    recorded (healKey wallNow key) = recorded key ↔ key.runtime.cooldownUntilWall = none := by
  simp [recorded, PersistedKeyState.material, persistKey, healKey, eq_comm]

theorem changes_markSuccess {pool : KeyPool} (valid : pool.Valid) (named : pool.Named)
    (clock : Reading) (index : Nat) :
    (PoolOp.markSuccess index).ChangesMaterial clock pool ↔
      ∃ key, pool.keys[index]? = some key ∧ key.runtime.cooldownUntilWall ≠ none := by
  rw [← not_iff_not, not_changesMaterial_iff valid named]
  have keysEq : ((PoolOp.markSuccess index).apply clock pool).keys =
      pool.keys.modify index (healKey clock.wall) := rfl
  have activeEq : ((PoolOp.markSuccess index).apply clock pool).active = pool.active := rfl
  simp [activeEq, records_modify keysEq fun _ => rfl, recorded_healKey]

theorem changes_markHttp429 {pool : KeyPool} (valid : pool.Valid) (named : pool.Named)
    (clock : Reading) (index : Nat) (cooldown : Duration) (kind : RateLimitKind)
    (message model : Option String) :
    (PoolOp.markHttp429 index cooldown kind message model).ChangesMaterial clock pool ↔
      SignalExact pool clock (.markHttp429 index cooldown kind message model) := by
  have recordsEq := records_modify
    (markHttp429_keys pool index cooldown kind message model clock) (fun _ => rfl)
  have movesIff : (pool.markHttp429 index cooldown kind message model clock).active ≠ pool.active ↔
      pool.active = index ∧ ∃ other, other ≠ index ∧ pool.runtimeSatisfies other
        (fun runtime => runtime.eligibleForAdvance clock.mono) = true := by
    rw [markHttp429_active valid]
    by_cases same : pool.active = index
    · subst index
      exact limited_active_moves valid named.nonempty _ clock
    · simp [same]
  rw [← not_iff_not, not_changesMaterial_iff valid named, SignalExact, ← movesIff]
  simp only [PoolOp.apply, recordsEq, not_or, not_exists, not_and, not_not]
  exact and_comm

theorem signal_exact_iff {pool : KeyPool} (valid : pool.Valid) (named : pool.Named)
    (clock : Reading) (op : PoolOp) :
    (op.signals clock pool = true ↔ op.ChangesMaterial clock pool) ↔
      SignalExact pool clock op := by
  rw [signals_eq valid]
  cases op with
  | select attempted =>
      simp only [PoolOp.notifies, Bool.false_eq_true, false_iff, SignalExact]
      exact changes_select valid named clock attempted
  | markHttp429 index cooldown kind message model =>
      simp only [PoolOp.notifies, true_iff]
      exact changes_markHttp429 valid named clock index cooldown kind message model
  | markSuccess index =>
      simp only [PoolOp.notifies, true_iff, SignalExact]
      exact changes_markSuccess valid named clock index
  | releaseProbe index =>
      simp only [PoolOp.notifies, Bool.false_eq_true, false_iff, SignalExact, iff_true]
      rw [not_changesMaterial_iff valid named]
      refine ⟨rfl, ?_⟩
      have keysEq : ((PoolOp.releaseProbe index).apply clock pool).keys =
          pool.keys.modify index clearProbe := rfl
      exact (records_modify keysEq fun _ => rfl).mpr fun _ _ => rfl

/-- The writer has taken every permit and written since. -/
def World.CaughtUp (world : World) : Prop :=
  world.pool.dirty = false ∧ world.writer = .waiting

/-- The file holds the material state of the pool; no file stands for a pool as new. -/
def World.FileAgrees (world : World) : Prop :=
  match world.file with
  | some state => state.material = (world.pool.persistedState world.clock).material
  | none => world.pool.activeKeyName = world.pool.names.head? ∧
      ∀ key ∈ world.pool.keys, recorded key = ⟨none, none, none, none, none⟩

def SignalsExact (upstream : ClineUpstream) (world : World) (event : Event) : Prop :=
  ∀ op, world.opOf upstream event = some op → SignalExact world.pool world.clock op

def World.Covered (world : World) : Prop :=
  world.pool.dirty = true ∨ world.writer = .debouncing ∨ world.FileAgrees

theorem boot_fileAgrees (configured : KeyConfig) (clock : Reading) :
    (World.boot configured clock).FileAgrees := by
  have named := new_named configured clock.wall
  refine ⟨?_, ?_⟩
  · rw [activeKeyName_eq (boot_sound configured clock).valid named.nonempty, List.head?_eq_getElem?]
    rfl
  · intro key member
    simp only [recorded, persistKey, new_runtime member]
    rfl

theorem fileAgrees_of_material {world next : World} (agrees : world.FileAgrees)
    (sameFile : next.file = world.file) (sameNames : next.pool.names = world.pool.names)
    (active : next.pool.activeKeyName = world.pool.activeKeyName)
    (kept : next.pool.records = world.pool.records) : next.FileAgrees := by
  unfold World.FileAgrees at agrees ⊢
  rw [sameFile]
  cases fileEq : world.file with
  | some state =>
      rw [fileEq] at agrees
      simp only [material_keys] at agrees ⊢
      rw [agrees, active, kept]
  | none =>
      rw [fileEq] at agrees
      refine ⟨by rw [active, agrees.1, sameNames], ?_⟩
      intro key member
      have listed : (key.name, recorded key) ∈ world.pool.records := by
        rw [← kept]
        exact List.mem_map.mpr ⟨key, member, rfl⟩
      obtain ⟨old, inOld, entryEq⟩ := List.mem_map.mp listed
      rw [← (Prod.mk.inj entryEq).2]
      exact agrees.2 old inOld

theorem covered_step {upstream : ClineUpstream} {world next : World} {event : Event}
    (sound : world.Sound) (covered : world.Covered) (exactly : SignalsExact upstream world event)
    (stepped : (gateway upstream).step world event = some next) : next.Covered := by
  have material : ∀ later : Reading,
      world.FileAgrees → World.FileAgrees { world with clock := later } := fun later agrees =>
    fileAgrees_of_material agrees rfl rfl rfl rfl
  cases World.step_cases stepped with
  | tick clock _ =>
      rcases covered with dirty | debouncing | agrees
      · exact Or.inl dirty
      · exact Or.inr (Or.inl debouncing)
      · exact Or.inr (Or.inr (material clock agrees))
  | wake => exact Or.inr (Or.inl rfl)
  | flush =>
      refine Or.inr (Or.inr ?_)
      simp [World.FileAgrees]
  | request id requestEvent op request moved =>
      have made : world.opOf upstream (.request id requestEvent) = op := by
        simp [World.opOf, moved]
      cases op with
      | none =>
          rcases covered with dirty | debouncing | agrees
          · exact Or.inl dirty
          · exact Or.inr (Or.inl debouncing)
          · exact Or.inr (Or.inr (fileAgrees_of_material agrees rfl rfl rfl rfl))
      | some op =>
          have dirtyEq := apply_dirty sound.valid world.clock op
          have exact_ := (signal_exact_iff sound.valid sound.named world.clock op).mpr
            (exactly op made)
          rw [signals_eq sound.valid] at exact_
          cases notified : op.notifies with
          | true => exact Or.inl (by simp [applyOp, dirtyEq, notified])
          | false =>
              rcases covered with dirty | debouncing | agrees
              · exact Or.inl (by simp [applyOp, dirtyEq, dirty])
              · exact Or.inr (Or.inl debouncing)
              · have unchanged : ¬op.ChangesMaterial world.clock world.pool := by
                  rw [← exact_, notified]
                  simp
                obtain ⟨active, kept⟩ :=
                  (not_changesMaterial_iff sound.valid sound.named world.clock op).mp unchanged
                have same := names_of_identity (op.apply_identity sound.valid world.clock)
                have activeName := (activeKeyName_iff sound.valid
                  (op.apply_valid sound.valid world.clock) sound.named same).mpr active
                exact Or.inr (Or.inr
                  (fileAgrees_of_material agrees rfl same activeName kept))

theorem path_covered {upstream : ClineUpstream} {start world : World} (sound : start.Sound)
    (covered : start.Covered)
    (path : (gateway upstream).PathWhere (SignalsExact upstream) start world) :
    world.Sound ∧ world.Covered := by
  induction path with
  | refl => exact ⟨sound, covered⟩
  | step _ exactly stepped ih =>
      exact ⟨run_sound ih.1 stepped, covered_step ih.1 ih.2 exactly stepped⟩

/-- Each operation signals exactly if it changes material state under `SignalExact`; in runs
of such operations, a writer that has caught up leaves a file that agrees with the pool. -/
theorem dirty_signal_exact (upstream : ClineUpstream) :
    (∀ world, (service upstream).Reachable world → ∀ op clock,
      ((op.signals clock world.pool = true ↔ op.ChangesMaterial clock world.pool) ↔
        SignalExact world.pool clock op)) ∧
    ∀ start, (service upstream).Reachable start → start.FileAgrees → ∀ world,
      (gateway upstream).PathWhere (SignalsExact upstream) start world →
      world.CaughtUp → world.FileAgrees := by
  constructor
  · intro world reached op clock
    have sound := service_sound reached
    exact signal_exact_iff sound.valid sound.named clock op
  · intro start reached agrees world path caughtUp
    obtain ⟨_, covered⟩ := path_covered (service_sound reached) (Or.inr (Or.inr agrees)) path
    rcases covered with dirty | debouncing | agreesNow
    · simp [caughtUp.1] at dirty
    · simp [caughtUp.2] at debouncing
    · exact agreesNow

section Runs

def healthyRequest : List Event := [.request 0 .start, .request 0 .select]

def twoKeyConfig : KeyConfig :=
  ⟨[⟨"a", "secret-a", true⟩, ⟨"b", "secret-b", true⟩], by decide, by decide,
    ⟨_, List.mem_cons_self, rfl⟩⟩

def silentPromotion : List Event :=
  [.request 0 .start, .request 0 .select, .request 0 (.respond limitedResponse),
    .request 0 .retry, .request 0 .settle, .request 0 .select, .tick (readingAt 30),
    .request 0 (.respond limitedResponse), .wake, .flush, .tick (readingAt 61),
    .request 1 .start, .request 1 .select]

def recordedLimit : List Event :=
  [.request 0 .start, .request 0 .select, .request 0 (.respond limitedResponse),
    .request 0 .retry, .request 0 .settle, .request 0 .select, .wake, .flush]

instance decidableChangesMaterial (op : PoolOp) (clock : Reading) (pool : KeyPool) :
    Decidable (op.ChangesMaterial clock pool) :=
  inferInstanceAs (Decidable (_ ≠ _))

def signalsExactly (world : World) (event : Event) : Bool :=
  (world.opOf plainUpstream event).all fun op =>
    op.signals world.clock world.pool == decide (op.ChangesMaterial world.clock world.pool)

theorem signalsExactly_sound {world : World} {event : Event} (sound : world.Sound)
    (checked : signalsExactly world event = true) : SignalsExact plainUpstream world event := by
  intro op made
  simp only [signalsExactly, made, Option.all_some, beq_iff_eq] at checked
  apply (signal_exact_iff sound.valid sound.named world.clock op).mp
  rw [checked, decide_eq_true_eq]

theorem path_service {upstream : ClineUpstream} {allowed : World → Event → Prop}
    {start world : World} (reached : (service upstream).Reachable start)
    (path : (gateway upstream).PathWhere allowed start world) :
    (service upstream).Reachable world := by
  induction path with
  | refl => exact reached
  | @step _ event _ _ _ stepped ih =>
      exact System.Reachable.next ih (show (service upstream).step _ (.run event) = _ from stepped)

theorem dirty_signal_exact_limited : ∃ world state,
    (gateway plainUpstream).PathWhere (SignalsExact plainUpstream)
        (World.boot twoKeyConfig (readingAt 0)) world ∧
      world.pool.active = 1 ∧ world.file = some state ∧
      state.material = (world.pool.persistedState world.clock).material ∧
      ((PoolOp.markSuccess 0).signals world.clock world.pool = true ↔
        (PoolOp.markSuccess 0).ChangesMaterial world.clock world.pool) ∧
      ¬((PoolOp.markSuccess 1).signals world.clock world.pool = true ↔
        (PoolOp.markSuccess 1).ChangesMaterial world.clock world.pool) := by
  have facts : ((gateway plainUpstream).checkedRun signalsExactly
      (World.boot twoKeyConfig (readingAt 0)) recordedLimit).any (fun world =>
        world.pool.active == 1 && world.file.isSome && !world.pool.dirty &&
          world.writer == .waiting &&
          world.pool.runtimeSatisfies 0 (fun runtime => runtime.cooldownUntilWall.isSome) &&
          world.pool.runtimeSatisfies 1 (fun runtime => runtime.cooldownUntilWall.isNone)) =
      true := by decide
  obtain ⟨world, ran, facts⟩ := Option.any_eq_true _ _ |>.mp facts
  simp only [Bool.and_eq_true, Bool.not_eq_true', beq_iff_eq, Option.isSome_iff_exists] at facts
  obtain ⟨⟨⟨⟨⟨active, state, written⟩, clean⟩, waiting⟩, cooled⟩, healthy⟩ := facts
  have booted : (service plainUpstream).Reachable (World.boot twoKeyConfig (readingAt 0)) :=
    .initial ⟨twoKeyConfig, readingAt 0, rfl⟩
  have path : (gateway plainUpstream).PathWhere (SignalsExact plainUpstream) _ world :=
    System.checkedRun_path (fun state event => signalsExactly_sound)
      (fun state event next => run_sound) (.refl _) (service_sound booted) ran
  obtain ⟨exactly, settles⟩ := dirty_signal_exact plainUpstream
  have agrees := settles _ booted (boot_fileAgrees _ _) world path ⟨clean, waiting⟩
  rw [World.FileAgrees, written] at agrees
  have reached := path_service booted path
  obtain ⟨limited, limitedAt, cooling⟩ := runtimeSatisfies_iff.mp cooled
  obtain ⟨other, otherAt, free⟩ := runtimeSatisfies_iff.mp healthy
  have cooled' : limited.runtime.cooldownUntilWall ≠ none := Option.isSome_iff_ne_none.mp cooling
  refine ⟨world, state, path, active, written, agrees,
    (exactly world reached _ _).mpr ⟨limited, limitedAt, cooled'⟩, ?_⟩
  rw [exactly world reached]
  rintro ⟨key, at_, recorded⟩
  rw [otherAt, Option.some.injEq] at at_
  subst at_
  exact recorded (Option.isNone_iff_eq_none.mp free)

def signalsForNothing (world : World) : Bool :=
  world.opOf plainUpstream (.request 0 (.respond (.response ⟨200, [], []⟩))) ==
      some (.markSuccess 0) &&
    (PoolOp.markSuccess 0).signals world.clock world.pool &&
    (((PoolOp.markSuccess 0).apply world.clock world.pool).persistedState world.clock).material ==
      (world.pool.persistedState world.clock).material

def leftBehind (world : World) : Bool :=
  !world.pool.dirty && world.writer == .waiting &&
    world.file.any fun state =>
      state.material != (world.pool.persistedState world.clock).material

theorem dirty_signal_exact_fails :
    (¬∀ world, (service plainUpstream).Reachable world → ∀ event op,
      world.opOf plainUpstream event = some op →
      (op.signals world.clock world.pool = true ↔ op.ChangesMaterial world.clock world.pool)) ∧
    ¬∀ world, (service plainUpstream).Reachable world → world.CaughtUp → world.FileAgrees := by
  constructor
  · intro claim
    have ready : ((service plainUpstream).runFrom (World.boot oneKeyConfig (readingAt 0))
        (healthyRequest.map .run)).any signalsForNothing = true := by decide
    obtain ⟨world, ran, facts⟩ := Option.any_eq_true _ _ |>.mp ready
    simp only [signalsForNothing, Bool.and_eq_true, beq_iff_eq] at facts
    have reached : (service plainUpstream).Reachable world :=
      System.runFrom_reachable (.initial ⟨oneKeyConfig, readingAt 0, rfl⟩) ran
    exact (claim world reached _ _ facts.1.1).mp facts.1.2 facts.2
  · intro claim
    have behind : ((service plainUpstream).runFrom (World.boot twoKeyConfig (readingAt 0))
        (silentPromotion.map .run)).any leftBehind = true := by decide
    obtain ⟨world, ran, facts⟩ := Option.any_eq_true _ _ |>.mp behind
    simp only [leftBehind, Bool.and_eq_true, Bool.not_eq_true', beq_iff_eq, Option.any_eq_true,
      bne_iff_ne] at facts
    obtain ⟨⟨clean, waiting⟩, state, fileEq, different⟩ := facts
    have reached : (service plainUpstream).Reachable world :=
      System.runFrom_reachable (.initial ⟨twoKeyConfig, readingAt 0, rfl⟩) ran
    have agrees := claim world reached ⟨clean, waiting⟩
    rw [World.FileAgrees, fileEq] at agrees
    exact different agrees

end Runs

end ClineProxy
