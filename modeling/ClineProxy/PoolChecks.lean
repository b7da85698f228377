import ClineProxy.PoolCore

/-! What each pool operation returns and what it changes, stated once for every caller. -/

namespace ClineProxy

open Clock

theorem unixMs_of_nonneg {time : SystemTime} (after : (0 : Int) ≤ time) :
    unixMs time = time.toNat / nanosPerMilli % u64Bound := by
  simp [unixMs, systemDurationSince, unixEpoch, show (0 : SystemTime) ≤ time from after]

namespace KeyPool

def Valid (pool : KeyPool) : Prop := 0 < pool.len → pool.active < pool.len

theorem new_valid (configured : List ClineKeyConfig) (wallNow : SystemTime) :
    (new configured wallNow).Valid := fun positive => positive

@[simp] theorem updateKey_keys (pool : KeyPool) (index : Nat) (change : KeyEntry → KeyEntry) :
    (pool.updateKey index change).keys = pool.keys.modify index change := rfl

@[simp] theorem updateKey_active (pool : KeyPool) (index : Nat) (change : KeyEntry → KeyEntry) :
    (pool.updateKey index change).active = pool.active := rfl

@[simp] theorem updateKey_dirty (pool : KeyPool) (index : Nat) (change : KeyEntry → KeyEntry) :
    (pool.updateKey index change).dirty = pool.dirty := rfl

@[simp] theorem updateKey_len (pool : KeyPool) (index : Nat) (change : KeyEntry → KeyEntry) :
    (pool.updateKey index change).len = pool.len := by
  simp [len]

@[simp] theorem setActive_keys (pool : KeyPool) (index previous : Nat) (wallNow : SystemTime) :
    (pool.setActive index previous wallNow).keys = pool.keys := rfl

@[simp] theorem setActive_dirty (pool : KeyPool) (index previous : Nat) (wallNow : SystemTime) :
    (pool.setActive index previous wallNow).dirty = pool.dirty := rfl

@[simp] theorem notifyDirty_keys (pool : KeyPool) : pool.notifyDirty.keys = pool.keys := rfl

@[simp] theorem notifyDirty_active (pool : KeyPool) : pool.notifyDirty.active = pool.active := rfl

@[simp] theorem notifyDirty_dirty (pool : KeyPool) : pool.notifyDirty.dirty = true := rfl

theorem getElem?_modify_key (keys : List KeyEntry) (index query : Nat)
    (change : KeyEntry → KeyEntry) :
    (keys.modify index change)[query]? =
      (keys[query]?).map fun key => if index = query then change key else key := by
  rw [List.getElem?_modify]
  rfl

theorem mem_cyclicFrom {pool : KeyPool} {start index : Nat} (startBound : start < pool.len) :
    index ∈ pool.cyclicFrom start ↔ index < pool.len := by
  simp only [cyclicFrom, List.mem_map, List.mem_range]
  constructor
  · rintro ⟨offset, _, rfl⟩
    exact Nat.mod_lt _ (by omega)
  · intro bound
    by_cases ahead : start ≤ index
    · refine ⟨index - start, by omega, ?_⟩
      rw [Nat.add_sub_cancel' ahead, Nat.mod_eq_of_lt bound]
    · refine ⟨index + pool.len - start, by omega, ?_⟩
      have around : start + (index + pool.len - start) = index + pool.len := by omega
      rw [around, Nat.add_mod_right, Nat.mod_eq_of_lt bound]

theorem cyclicFrom_cons {pool : KeyPool} {start : Nat} (startBound : start < pool.len) :
    ∃ rest, pool.cyclicFrom start = start :: rest := by
  obtain ⟨count, countEq⟩ : ∃ count, pool.len = count + 1 := ⟨pool.len - 1, by omega⟩
  refine ⟨((List.range count).map Nat.succ).map fun offset => (start + offset) % pool.len, ?_⟩
  simp only [cyclicFrom]
  rw [countEq, List.range_succ_eq_map, List.map_cons, Nat.add_zero]
  rw [Nat.mod_eq_of_lt (by omega : start < count + 1)]

theorem runtimeSatisfies_iff {pool : KeyPool} {index : Nat} {test : KeyRuntime → Bool} :
    pool.runtimeSatisfies index test = true ↔
      ∃ key, pool.keys[index]? = some key ∧ test key.runtime = true := by
  simp [runtimeSatisfies, Option.any_eq_true]

theorem runtimeSatisfies_modify_of_ne {pool next : KeyPool} {changed index : Nat}
    {change : KeyEntry → KeyEntry} {test : KeyRuntime → Bool}
    (keysEq : next.keys = pool.keys.modify changed change) (different : changed ≠ index) :
    next.runtimeSatisfies index test = pool.runtimeSatisfies index test := by
  simp only [runtimeSatisfies, keysEq, getElem?_modify_key, different, if_false]
  simp

theorem scanIndex_some {pool : KeyPool} {attempted : List Nat} {active index : Nat}
    {now : Instant} {allowProbed : Bool}
    (found : pool.scanIndex attempted active now allowProbed = some index) :
    index ∉ attempted ∧
      ∃ key, pool.keys[index]? = some key ∧ key.runtime.passesScan now allowProbed = true := by
  have passed := List.find?_some found
  simp only [Bool.and_eq_true, Bool.not_eq_true', List.contains_eq_mem, decide_eq_false_iff_not]
    at passed
  exact ⟨passed.1, runtimeSatisfies_iff.mp passed.2⟩

theorem scanIndex_none {pool : KeyPool} {attempted : List Nat} {active : Nat} {now : Instant}
    {allowProbed : Bool} (activeBound : active < pool.len) :
    pool.scanIndex attempted active now allowProbed = none ↔
      ∀ index key, pool.keys[index]? = some key → index ∉ attempted →
        key.runtime.passesScan now allowProbed = false := by
  rw [scanIndex, List.find?_eq_none]
  constructor
  · intro skipped index key at_ fresh
    have bound : index < pool.len := (List.getElem?_eq_some_iff.mp at_).1
    have failed := skipped index ((mem_cyclicFrom activeBound).mpr bound)
    simpa [fresh, runtimeSatisfies, at_] using failed
  · intro skipped index member
    simp only [Bool.and_eq_true, Bool.not_eq_true', List.contains_eq_mem,
      decide_eq_false_iff_not, runtimeSatisfies_iff, not_and, not_exists]
    intro fresh key at_
    simp [skipped index key at_ fresh]

theorem passesScan_true {runtime : KeyRuntime} {now : Instant} :
    runtime.passesScan now true = !runtime.isCooling now := by
  simp [KeyRuntime.passesScan]

theorem passesScan_not_cooling {runtime : KeyRuntime} {now : Instant} {allowProbed : Bool}
    (passed : runtime.passesScan now allowProbed = true) : runtime.isCooling now = false := by
  simp only [KeyRuntime.passesScan, Bool.and_eq_true, Bool.not_eq_true'] at passed
  exact passed.1

/-- What a successful selection says about the key it chose and the pool it leaves. -/
structure Selects (pool : KeyPool) (attempted : List Nat) (clock : Reading)
    (selected : SelectedKey) (next : KeyPool) (key : KeyEntry) : Prop where
  at_index : pool.keys[selected.index]? = some key
  fresh : selected.index ∉ attempted
  not_cooling : key.runtime.isCooling clock.mono = false
  isProbe_eq : selected.isProbe = key.runtime.grantsProbe
  name_eq : selected.name = key.name
  keys_eq : next.keys = pool.keys.modify selected.index takeKey
  active_eq : next.active = selected.index
  dirty_eq : next.dirty = pool.dirty

theorem scan_spec {pool : KeyPool} {attempted : List Nat} {clock : Reading} {allowProbed : Bool}
    {selected : SelectedKey} {next : KeyPool}
    (found : pool.scan attempted pool.active clock allowProbed = some (selected, next)) :
    pool.scanIndex attempted pool.active clock.mono allowProbed = some selected.index ∧
      ∃ key, pool.Selects attempted clock selected next key := by
  simp only [scan, Option.bind_eq_bind, Option.bind_eq_some_iff] at found
  obtain ⟨index, indexEq, key, at_, result⟩ := found
  simp only [Option.pure_def, Option.some.injEq, Prod.mk.injEq] at result
  obtain ⟨rfl, rfl⟩ := result
  obtain ⟨fresh, held, heldAt, passed⟩ := scanIndex_some indexEq
  rw [at_, Option.some.injEq] at heldAt
  subst held
  refine ⟨indexEq, key, at_, fresh, passesScan_not_cooling passed, rfl, rfl, ?_, ?_, ?_⟩
  · split <;> rfl
  · split
    · simp [setActive]
    · rename_i same
      simpa using (not_not.mp same).symm
  · split <;> rfl

theorem select_eq {pool : KeyPool} (valid : pool.Valid) (attempted : List Nat) (clock : Reading)
    (positive : 0 < pool.len) :
    pool.select attempted clock =
      (pool.scan attempted pool.active clock false).or
        (pool.scan attempted pool.active clock true) := by
  rw [select, if_neg (by omega), Nat.mod_eq_of_lt (valid positive)]

theorem len_pos_of_select {pool : KeyPool} {attempted : List Nat} {clock : Reading}
    {result : SelectedKey × KeyPool} (found : pool.select attempted clock = some result) :
    0 < pool.len := by
  by_contra empty
  simp [select, show pool.len = 0 by omega] at found

theorem select_spec {pool : KeyPool} (valid : pool.Valid) {attempted : List Nat}
    {clock : Reading} {selected : SelectedKey} {next : KeyPool}
    (found : pool.select attempted clock = some (selected, next)) :
    ∃ key, pool.Selects attempted clock selected next key := by
  rw [select_eq valid attempted clock (len_pos_of_select found), Option.or_eq_some_iff] at found
  rcases found with first | ⟨_, second⟩
  · exact (scan_spec first).2
  · exact (scan_spec second).2

theorem scan_eq_none {pool : KeyPool} {attempted : List Nat} {clock : Reading}
    {allowProbed : Bool} :
    pool.scan attempted pool.active clock allowProbed = none ↔
      pool.scanIndex attempted pool.active clock.mono allowProbed = none := by
  constructor
  · intro nothing
    cases indexEq : pool.scanIndex attempted pool.active clock.mono allowProbed with
    | none => rfl
    | some index =>
        obtain ⟨_, key, at_, _⟩ := scanIndex_some indexEq
        simp [scan, indexEq, at_] at nothing
  · intro nothing
    simp [scan, nothing]

theorem select_none {pool : KeyPool} (valid : pool.Valid) (attempted : List Nat)
    (clock : Reading) :
    pool.select attempted clock = none ↔
      ∀ index key, pool.keys[index]? = some key → index ∉ attempted →
        key.runtime.isCooling clock.mono = true := by
  by_cases positive : 0 < pool.len
  · rw [select_eq valid attempted clock positive, Option.or_eq_none_iff, scan_eq_none,
      scan_eq_none, scanIndex_none (valid positive), scanIndex_none (valid positive)]
    constructor
    · rintro ⟨_, second⟩ index key at_ fresh
      simpa [passesScan_true] using second index key at_ fresh
    · intro cooling
      constructor
      · intro index key at_ fresh
        simp [KeyRuntime.passesScan, cooling index key at_ fresh]
      · intro index key at_ fresh
        simp [KeyRuntime.passesScan, cooling index key at_ fresh]
  · have noKeys : pool.keys = [] := List.eq_nil_of_length_eq_zero (by simpa [len] using positive)
    simp [select, len, noKeys]

theorem advanceCandidate_some {pool : KeyPool} {rejected candidate : Nat} {now : Instant}
    (found : pool.advanceCandidate rejected now = some candidate) :
    candidate < pool.len ∧ pool.runtimeSatisfies candidate
      (fun runtime => runtime.eligibleForAdvance now) = true := by
  have passed := List.find?_some found
  have bound : candidate < pool.len := by
    obtain ⟨key, at_, _⟩ := runtimeSatisfies_iff.mp passed
    exact (List.getElem?_eq_some_iff.mp at_).1
  exact ⟨bound, passed⟩

@[simp] theorem advanceIfActive_keys (pool : KeyPool) (rejected : Nat) (clock : Reading) :
    (pool.advanceIfActive rejected clock).keys = pool.keys := by
  simp only [advanceIfActive]
  split
  · rfl
  · split <;> rfl

@[simp] theorem markHttp429_keys (pool : KeyPool) (index : Nat) (cooldown : Duration)
    (kind : RateLimitKind) (message model : Option String) (clock : Reading) :
    (pool.markHttp429 index cooldown kind message model clock).keys =
      pool.keys.modify index (coolKey cooldown kind message model clock) := by
  simp [markHttp429]

@[simp] theorem markHttp429_dirty (pool : KeyPool) (index : Nat) (cooldown : Duration)
    (kind : RateLimitKind) (message model : Option String) (clock : Reading) :
    (pool.markHttp429 index cooldown kind message model clock).dirty = true := rfl

theorem markHttp429_active {pool : KeyPool} (valid : pool.Valid) (index : Nat)
    (cooldown : Duration) (kind : RateLimitKind) (message model : Option String)
    (clock : Reading) :
    (pool.markHttp429 index cooldown kind message model clock).active =
      if pool.active = index ∧ 0 < pool.len then
        ((pool.updateKey index (coolKey cooldown kind message model clock)).advanceCandidate
          index clock.mono).getD pool.active
      else pool.active := by
  simp only [markHttp429, notifyDirty_active, advanceIfActive, updateKey_len, updateKey_active]
  by_cases positive : 0 < pool.len
  · rw [Nat.mod_eq_of_lt (valid positive)]
    by_cases same : pool.active = index
    · subst index
      rw [if_neg (by omega), if_pos ⟨rfl, positive⟩]
      cases (pool.updateKey pool.active (coolKey cooldown kind message model clock)).advanceCandidate
          pool.active clock.mono with
      | none => rfl
      | some candidate => simp [setActive]
    · rw [if_pos (Or.inr same), if_neg (by simp [same])]
      rfl
  · rw [if_pos (Or.inl (by omega)), if_neg (by omega)]
    rfl

theorem advanceCandidate_ne {pool : KeyPool} {rejected candidate : Nat} {now : Instant}
    (rejectedBound : rejected < pool.len)
    (found : pool.advanceCandidate rejected now = some candidate) : candidate ≠ rejected := by
  have member := List.mem_of_find?_eq_some found
  simp only [List.mem_map, List.mem_range'_1] at member
  obtain ⟨offset, bounds, rfl⟩ := member
  intro same
  rcases Nat.lt_or_ge (rejected + offset) pool.len with below | above
  · rw [Nat.mod_eq_of_lt below] at same
    omega
  · rw [Nat.mod_eq_sub_mod above, Nat.mod_eq_of_lt (by omega)] at same
    omega

end KeyPool

open KeyPool

def KeyPool.identity (pool : KeyPool) : List (Nat × String × String) :=
  pool.keys.map fun key => (key.configuredIndex, key.name, key.apiKey)

theorem identity_modify (keys : List KeyEntry) (index : Nat) (change : KeyEntry → KeyEntry)
    (kept : ∀ key, (change key).configuredIndex = key.configuredIndex ∧
      (change key).name = key.name ∧ (change key).apiKey = key.apiKey) :
    (keys.modify index change).map (fun key => (key.configuredIndex, key.name, key.apiKey)) =
      keys.map fun key => (key.configuredIndex, key.name, key.apiKey) := by
  apply List.ext_getElem?
  intro query
  simp only [List.getElem?_map, getElem?_modify_key]
  cases keys[query]? with
  | none => rfl
  | some key =>
      by_cases changed : index = query
      · simp [changed, kept key]
      · simp [changed]

theorem PoolOp.apply_select (pool : KeyPool) (attempted : List Nat) (clock : Reading) :
    (pool.select attempted clock = none ∧ (PoolOp.select attempted).apply clock pool = pool) ∨
      ∃ selected next, pool.select attempted clock = some (selected, next) ∧
        (PoolOp.select attempted).apply clock pool = next := by
  cases found : pool.select attempted clock with
  | none => exact Or.inl ⟨rfl, by simp [PoolOp.apply, found]⟩
  | some result => exact Or.inr ⟨result.1, result.2, rfl, by simp [PoolOp.apply, found]⟩

theorem PoolOp.apply_keys {pool : KeyPool} (valid : pool.Valid) (clock : Reading) (op : PoolOp) :
    (op.apply clock pool).keys = pool.keys ∨
      ∃ index change, (op.apply clock pool).keys = pool.keys.modify index change ∧
        (change = takeKey ∨ change = healKey clock.wall ∨ change = clearProbe ∨
          ∃ cooldown kind message model, op = .markHttp429 index cooldown kind message model ∧
            change = coolKey cooldown kind message model clock) := by
  cases op with
  | select attempted =>
      rcases PoolOp.apply_select pool attempted clock with
        ⟨_, same⟩ | ⟨selected, next, found, taken⟩
      · exact Or.inl (by rw [same])
      · obtain ⟨key, spec⟩ := select_spec valid found
        exact Or.inr ⟨selected.index, takeKey, by rw [taken, spec.keys_eq], Or.inl rfl⟩
  | markHttp429 index cooldown kind message model =>
      exact Or.inr ⟨index, _, markHttp429_keys .., Or.inr (Or.inr (Or.inr
        ⟨cooldown, kind, message, model, rfl, rfl⟩))⟩
  | markSuccess index => exact Or.inr ⟨index, _, rfl, Or.inr (Or.inl rfl)⟩
  | releaseProbe index => exact Or.inr ⟨index, _, rfl, Or.inr (Or.inr (Or.inl rfl))⟩

theorem PoolOp.apply_identity {pool : KeyPool} (valid : pool.Valid) (clock : Reading)
    (op : PoolOp) : (op.apply clock pool).identity = pool.identity := by
  rcases op.apply_keys valid clock with same | ⟨index, change, changed, which⟩
  · rw [identity, same, identity]
  · rw [identity, changed, identity]
    apply identity_modify
    intro key
    rcases which with rfl | rfl | rfl | ⟨_, _, _, _, _, rfl⟩ <;> exact ⟨rfl, rfl, rfl⟩

theorem PoolOp.apply_len {pool : KeyPool} (valid : pool.Valid) (clock : Reading) (op : PoolOp) :
    (op.apply clock pool).len = pool.len := by
  have same := congrArg List.length (op.apply_identity valid clock)
  simpa [identity, KeyPool.len] using same

theorem PoolOp.apply_valid {pool : KeyPool} (valid : pool.Valid) (clock : Reading)
    (op : PoolOp) : (op.apply clock pool).Valid := by
  intro positive
  rw [op.apply_len valid clock] at positive ⊢
  cases op with
  | select attempted =>
      rcases PoolOp.apply_select pool attempted clock with
        ⟨_, same⟩ | ⟨selected, next, found, taken⟩
      · rw [same]
        exact valid positive
      · obtain ⟨key, spec⟩ := select_spec valid found
        rw [taken, spec.active_eq]
        exact (List.getElem?_eq_some_iff.mp spec.at_index).1
  | markHttp429 index cooldown kind message model =>
      simp only [PoolOp.apply]
      rw [markHttp429_active valid]
      split
      · cases candidateEq : (pool.updateKey index
            (coolKey cooldown kind message model clock)).advanceCandidate index clock.mono with
        | none => exact valid positive
        | some candidate => simpa using (advanceCandidate_some candidateEq).1
      · exact valid positive
  | markSuccess index => exact valid positive
  | releaseProbe index => exact valid positive

end ClineProxy
