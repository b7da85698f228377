import ClineProxy.PoolChecks

/-! Which key a selection takes, and what it changes. -/

namespace ClineProxy

open Clock

namespace KeyPool

variable {pool next : KeyPool} {attempted : List Nat} {clock : Reading} {now : Instant}

/-- The first index that a test holds of, from the active one on and once around. -/
def FirstFromActive (pool : KeyPool) (test : Nat → Prop) (index : Nat) : Prop :=
  ∃ offset < pool.len, index = (pool.active + offset) % pool.len ∧ test index ∧
    ∀ earlier < offset, ¬test ((pool.active + earlier) % pool.len)

def Fresh (pool : KeyPool) (attempted : List Nat) (now : Instant) (phases : List KeyPhase)
    (index : Nat) : Prop :=
  index ∉ attempted ∧ ∃ key, pool.keys[index]? = some key ∧ key.runtime.phase now ∈ phases

def Ready (pool : KeyPool) (attempted : List Nat) (now : Instant) : Nat → Prop :=
  pool.Fresh attempted now [.healthy, .halfOpen]

def UnderProbe (pool : KeyPool) (attempted : List Nat) (now : Instant) : Nat → Prop :=
  pool.Fresh attempted now [.probing]

def chosen (pool : KeyPool) (index : Nat) (probe : Bool) (wallNow : SystemTime) : KeyPool :=
  { pool with
    keys := pool.keys.modify index fun key => { key with
      runtime := { key.runtime with probeInFlight := probe }
      requests := key.requests + 1 }
    active := index
    activeSinceUnix := if index = pool.active then pool.activeSinceUnix else unixSecs wallNow }

/-- What a selection returns and leaves. -/
structure Selection (pool : KeyPool) (attempted : List Nat) (clock : Reading)
    (selected : SelectedKey) (next : KeyPool) (key : KeyEntry) : Prop where
  at_index : pool.keys[selected.index]? = some key
  first : pool.FirstFromActive (pool.Ready attempted clock.mono) selected.index ∨
    (∀ index, ¬pool.Ready attempted clock.mono index) ∧
      pool.FirstFromActive (pool.UnderProbe attempted clock.mono) selected.index
  isProbe : selected.isProbe = true ↔ key.runtime.phase clock.mono = .halfOpen
  named : selected.configuredIndex = key.configuredIndex ∧ selected.name = key.name ∧
    selected.apiKey = key.apiKey
  left : next =
    pool.chosen selected.index (key.runtime.probeInFlight || selected.isProbe) clock.wall

theorem isCooling_iff_phase {runtime : KeyRuntime} :
    runtime.isCooling now = true ↔ runtime.phase now = .cooling := by
  rw [KeyRuntime.isCooling, KeyRuntime.phase]
  cases runtime.cooldownUntil with
  | none => simp
  | some deadline =>
      by_cases ahead : now < deadline
      · simp [ahead]
      · cases probed : runtime.probeInFlight <;> simp [ahead]

theorem passesScan_iff_phase {runtime : KeyRuntime} :
    runtime.passesScan now false = true ↔ runtime.phase now ∈ [KeyPhase.healthy, .halfOpen] := by
  rw [KeyRuntime.passesScan, KeyRuntime.isCooling, KeyRuntime.phase]
  cases runtime.cooldownUntil with
  | none => simp
  | some deadline =>
      by_cases ahead : now < deadline
      · simp [ahead]
      · cases probed : runtime.probeInFlight <;> simp [ahead]

theorem grantsProbe_iff_phase {runtime : KeyRuntime} (usable : runtime.isCooling now = false) :
    runtime.grantsProbe = true ↔ runtime.phase now = .halfOpen := by
  rw [KeyRuntime.grantsProbe, KeyRuntime.phase]
  cases recorded : runtime.cooldownUntil with
  | none => simp
  | some deadline =>
      rw [KeyRuntime.isCooling, recorded] at usable
      have past : ¬now < deadline := by simpa using usable
      cases probed : runtime.probeInFlight <;> simp [past]

theorem phase_of_usable {runtime : KeyRuntime} (usable : runtime.isCooling now = false)
    (skipped : runtime.passesScan now false = false) : runtime.phase now = .probing := by
  have unready := mt passesScan_iff_phase.mpr (Bool.eq_false_iff.mp skipped)
  have warm := mt isCooling_iff_phase.mpr (Bool.eq_false_iff.mp usable)
  cases phase : runtime.phase now <;> simp_all

theorem scanIndex_first {allowProbed : Bool} {index : Nat}
    (found : pool.scanIndex attempted pool.active now allowProbed = some index) :
    pool.FirstFromActive (fun index => index ∉ attempted ∧ pool.runtimeSatisfies index
      (fun runtime => runtime.passesScan now allowProbed) = true) index := by
  rw [scanIndex, cyclicFrom, List.find?_map] at found
  obtain ⟨offset, first, rfl⟩ := Option.map_eq_some_iff.mp found
  obtain ⟨holds, member, before⟩ := List.find?_range_eq_some.mp first
  refine ⟨offset, List.mem_range.mp member, rfl, by simpa using holds, ?_⟩
  intro earlier less passes
  have failed := before earlier less
  simp [passes.1, passes.2] at failed

theorem FirstFromActive.imp {test other : Nat → Prop} {index : Nat}
    (first : pool.FirstFromActive test index) (same : ∀ index, test index ↔ other index) :
    pool.FirstFromActive other index := by
  obtain ⟨offset, bound, place, holds, before⟩ := first
  exact ⟨offset, bound, place, (same _).mp holds,
    fun earlier less => mt (same _).mpr (before earlier less)⟩

theorem ready_iff {index : Nat} : pool.Ready attempted now index ↔
    index ∉ attempted ∧ pool.runtimeSatisfies index
      (fun runtime => runtime.passesScan now false) = true := by
  simp only [Ready, Fresh, runtimeSatisfies_iff, passesScan_iff_phase]

theorem underProbe_iff {index : Nat} (unready : ¬pool.Ready attempted now index) :
    pool.UnderProbe attempted now index ↔
      index ∉ attempted ∧ pool.runtimeSatisfies index
        (fun runtime => runtime.passesScan now true) = true := by
  rw [UnderProbe, Fresh, runtimeSatisfies_iff]
  refine and_congr_right fun fresh => exists_congr fun key => and_congr_right fun held => ?_
  rw [passesScan_true, List.mem_singleton]
  constructor
  · intro probing
    have warm : ¬key.runtime.isCooling now = true := by simp [isCooling_iff_phase, probing]
    simp [warm]
  · intro usable
    refine phase_of_usable (by simpa using usable) ?_
    rw [ready_iff, runtimeSatisfies_iff] at unready
    simpa using fun passes => unready ⟨fresh, key, held, passes⟩

theorem chosen_eq {index : Nat} {key : KeyEntry} (held : pool.keys[index]? = some key)
    (wallNow : SystemTime) :
    (if index ≠ pool.active then (pool.updateKey index takeKey).setActive index pool.active wallNow
      else pool.updateKey index takeKey) =
      pool.chosen index (key.runtime.probeInFlight || key.runtime.grantsProbe) wallNow := by
  have keys : pool.keys.modify index takeKey = pool.keys.modify index fun other => { other with
      runtime := { other.runtime with
        probeInFlight := key.runtime.probeInFlight || key.runtime.grantsProbe }
      requests := other.requests + 1 } := by
    refine List.ext_getElem? fun query => ?_
    rw [getElem?_modify_key, getElem?_modify_key]
    by_cases same : index = query
    · rw [← same, held]
      simp [takeKey]
    · simp [same]
  by_cases same : index = pool.active
  · rw [if_neg (by simp [same]), updateKey, keys, chosen, if_pos same, ← same]
  · rw [if_pos same, setActive, updateKey, keys, chosen, if_neg same]
    simp

theorem selection_of_scan {allowProbed : Bool} {selected : SelectedKey}
    (found : pool.scan attempted pool.active clock allowProbed = some (selected, next))
    (first : pool.FirstFromActive (pool.Ready attempted clock.mono) selected.index ∨
      (∀ index, ¬pool.Ready attempted clock.mono index) ∧
        pool.FirstFromActive (pool.UnderProbe attempted clock.mono) selected.index) :
    ∃ key, pool.Selection attempted clock selected next key := by
  simp only [scan, Option.bind_eq_bind, Option.bind_eq_some_iff] at found
  obtain ⟨index, indexEq, key, held, result⟩ := found
  simp only [Option.pure_def, Option.some.injEq, Prod.mk.injEq] at result
  obtain ⟨rfl, rfl⟩ := result
  obtain ⟨-, other, same, passed⟩ := scanIndex_some indexEq
  obtain rfl := Option.some.inj (held.symm.trans same)
  exact ⟨key, held, first, grantsProbe_iff_phase (passesScan_not_cooling passed), ⟨rfl, rfl, rfl⟩,
    chosen_eq held clock.wall⟩

/-- The active index of every reachable pool is an index (`service_sound`). -/
theorem select_exact (valid : pool.Valid) (attempted : List Nat) (clock : Reading) :
    (pool.select attempted clock = none ↔ ∀ index key, pool.keys[index]? = some key →
      index ∉ attempted → key.runtime.phase clock.mono = .cooling) ∧
    ∀ selected next, pool.select attempted clock = some (selected, next) →
      ∃ key, pool.Selection attempted clock selected next key := by
  constructor
  · rw [select_none valid]
    simp only [isCooling_iff_phase]
  · intro selected next found
    have positive := len_pos_of_select found
    rw [select_eq valid attempted clock positive, Option.or_eq_some_iff] at found
    rcases found with first | ⟨nothing, second⟩
    · have place := scanIndex_first (scan_spec first).1
      exact selection_of_scan first (.inl (place.imp fun index => ready_iff.symm))
    · have unready : ∀ index, ¬pool.Ready attempted clock.mono index := by
        intro index ready
        obtain ⟨fresh, passes⟩ := ready_iff.mp ready
        obtain ⟨key, held, passed⟩ := runtimeSatisfies_iff.mp passes
        have skipped := (scanIndex_none (valid positive)).mp (scan_eq_none.mp nothing)
          index key held fresh
        simp [skipped] at passed
      have place := scanIndex_first (scan_spec second).1
      exact selection_of_scan second
        (.inr ⟨unready, place.imp fun index => (underProbe_iff (unready index)).symm⟩)

def probedPool : KeyPool where
  keys := [⟨0, "first", "", { KeyRuntime.default with cooldownUntil := some 9 }, 0, 0, 0⟩,
    ⟨1, "second", "", { KeyRuntime.default with
      cooldownUntil := some 3, probeInFlight := true }, 0, 0, 0⟩]
  active := 0
  activeSinceUnix := 0
  dirty := false

theorem select_exact_probed : ∃ selected next key,
    probedPool.select [] ⟨5, 0⟩ = some (selected, next) ∧
      probedPool.Selection [] ⟨5, 0⟩ selected next key ∧ selected.index = 1 := by
  have valid : probedPool.Valid := fun _ => by decide
  obtain ⟨key, selection⟩ := (select_exact valid [] ⟨5, 0⟩).2 ⟨1, 1, "second", false, ""⟩
    (probedPool.chosen 1 true 0) (by decide)
  exact ⟨_, _, key, by decide, selection, rfl⟩

end KeyPool

end ClineProxy
