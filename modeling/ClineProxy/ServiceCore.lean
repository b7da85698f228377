import ClineProxy.SingleFlight
import Mathlib.Data.List.Nodup

/-!
The gateway over its restarts, and what storing the pool and restoring it do to each
configured key.
-/

namespace ClineProxy

open Clock KeyPool TransitionSystem

abbrev KeyConfig := { configured : List ClineKeyConfig // ValidKeyConfig configured }

def World.boot (configured : KeyConfig) (clock : Reading) : World :=
  { pool := .new configured clock.wall
    clock := clock
    requests := fun _ => Request.fresh
    file := none
    writer := .waiting }

/-- The process ends after a last flush and starts again at `clock`. -/
def World.restart (world : World) (configured : KeyConfig) (clock : Reading) : World :=
  let persisted := world.pool.persistedState world.clock
  { World.boot configured clock with
    pool := (KeyPool.new configured clock.wall).restore persisted clock
    file := some persisted }

inductive ServiceEvent where
  | run (event : Event)
  | restart (configured : KeyConfig) (clock : Reading)

def service (upstream : ClineUpstream) : System World ServiceEvent :=
  { initial := fun world => ∃ configured clock, world = World.boot configured clock
    step := fun world event =>
      match event with
      | .run event => world.step upstream event
      | .restart configured clock => some (world.restart configured clock) }

namespace KeyPool

def names (pool : KeyPool) : List String := pool.keys.map KeyEntry.name

structure Named (pool : KeyPool) : Prop where
  nonempty : 0 < pool.len
  distinct : pool.names.Nodup
  not_blank : ∀ name ∈ pool.names, (Text.trim name.toList).isEmpty = false

theorem names_of_identity {pool next : KeyPool} (same : next.identity = pool.identity) :
    next.names = pool.names := by
  have projected := congrArg (List.map fun entry => entry.2.1) same
  simpa [identity, names, Function.comp_def] using projected

theorem new_names (configured : List ClineKeyConfig) (wallNow : SystemTime) :
    (KeyPool.new configured wallNow).names =
      (configured.filter ClineKeyConfig.enabled).map ClineKeyConfig.name := by
  have general : ∀ start, ((configured.zipIdx start).filter fun entry => entry.1.enabled).map
      (fun entry => entry.1.name) =
      (configured.filter ClineKeyConfig.enabled).map ClineKeyConfig.name := by
    induction configured with
    | nil => simp
    | cons key rest ih =>
        intro start
        cases enabled : key.enabled <;> simp [List.zipIdx_cons, enabled, ih]
  simpa [names, KeyPool.new, Function.comp_def] using general 0

theorem new_named (configured : KeyConfig) (wallNow : SystemTime) :
    (KeyPool.new configured wallNow).Named := by
  obtain ⟨keys, valid⟩ := configured
  have namesEq := new_names keys wallNow
  refine ⟨?_, ?_, ?_⟩
  · obtain ⟨key, member, enabled⟩ := valid.some_enabled
    have positive : 0 < (KeyPool.new keys wallNow).names.length := by
      rw [namesEq, List.length_map]
      exact List.length_pos_of_mem (List.mem_filter.mpr ⟨member, enabled⟩)
    simpa [names, len] using positive
  · rw [namesEq]
    exact valid.names_distinct.sublist (List.filter_sublist.map _)
  · intro name member
    rw [namesEq] at member
    obtain ⟨key, inside, rfl⟩ := List.mem_map.mp member
    exact valid.names_not_blank key (List.mem_filter.mp inside).1

theorem key_unique {pool : KeyPool} (distinct : pool.names.Nodup) {first second : KeyEntry}
    (firstMember : first ∈ pool.keys) (secondMember : second ∈ pool.keys)
    (same : first.name = second.name) : first = second :=
  List.inj_on_of_nodup_map distinct firstMember secondMember same

theorem find?_name {pool : KeyPool} (distinct : pool.names.Nodup) {key : KeyEntry}
    (member : key ∈ pool.keys) :
    pool.keys.find? (fun other => other.name = key.name) = some key := by
  cases found : pool.keys.find? (fun other => other.name = key.name) with
  | none =>
      rw [List.find?_eq_none] at found
      have different := found key member
      simp at different
  | some other =>
      have same : other.name = key.name := by simpa using List.find?_some found
      rw [key_unique distinct (List.mem_of_find?_eq_some found) member same]

theorem lookup_persisted {pool : KeyPool} (distinct : pool.names.Nodup) (clock : Reading)
    {key : KeyEntry} (member : key ∈ pool.keys) :
    OrderedMap.lookup key.name (pool.persistedState clock).keys = some (persistKey key) := by
  rw [persistedState, OrderedMap.lookup_collect _ _ _ _ distinct, find?_name distinct member]
  rfl

theorem persisted_nodup (pool : KeyPool) (clock : Reading) :
    ((pool.persistedState clock).keys.map Prod.fst).Nodup := by
  have sorted : OrderedMap.Sorted (pool.persistedState clock).keys :=
    OrderedMap.collect_sorted (fun first second notLess different =>
      lt_of_le_of_ne (not_lt.mp notLess) (Ne.symm different))
      (fun _ _ _ => lt_trans) _ _ _
  rw [List.Nodup, List.pairwise_map]
  exact List.Pairwise.imp (fun smaller => ne_of_lt smaller) sorted

theorem name_at_iff {pool : KeyPool} (distinct : pool.names.Nodup) {index query : Nat}
    {key other : KeyEntry} (at_ : pool.keys[index]? = some key)
    (queried : pool.keys[query]? = some other) : other.name = key.name ↔ index = query := by
  constructor
  · intro same
    have keyAt : pool.names[index]? = some key.name := by simp [names, at_]
    have otherAt : pool.names[query]? = some key.name := by simp [names, queried, same]
    exact (List.getElem?_inj (List.getElem?_eq_some_iff.mp keyAt).1 distinct).mp
      (keyAt.trans otherAt.symm)
  · rintro rfl
    rw [at_, Option.some.injEq] at queried
    rw [queried]

def restoredBy (clock : Reading) (persisted : PersistedKeyState) (key : KeyEntry) : KeyEntry :=
  { key with runtime := restoreRuntime clock persisted key.runtime }

theorem restoreEntry_keys {pool : KeyPool} (distinct : pool.names.Nodup) (clock : Reading)
    (entry : String × PersistedKeyState) :
    (pool.restoreEntry clock entry).keys = pool.keys.map fun key =>
      if key.name = entry.1 then restoredBy clock entry.2 key else key := by
  simp only [restoreEntry]
  cases found : pool.indexOfName entry.1 with
  | none =>
      simp only [indexOfName, List.findIdx?_eq_none_iff, decide_eq_false_iff_not] at found
      have same : ∀ key ∈ pool.keys,
          (if key.name = entry.1 then restoredBy clock entry.2 key else key) = key :=
        fun key member => if_neg (found key member)
      rw [List.map_congr_left same, List.map_id']
  | some index =>
      simp only [indexOfName, List.findIdx?_eq_some_iff_getElem, decide_eq_true_eq] at found
      obtain ⟨bound, named, _⟩ := found
      apply List.ext_getElem?
      intro query
      rw [updateKey_keys, getElem?_modify_key, List.getElem?_map]
      cases queried : pool.keys[query]? with
      | none => rfl
      | some key =>
          have position := name_at_iff distinct (List.getElem?_eq_getElem bound) queried
          rw [named] at position
          simp [position, restoredBy]

theorem restoreEntry_names {pool : KeyPool} (distinct : pool.names.Nodup) (clock : Reading)
    (entry : String × PersistedKeyState) : (pool.restoreEntry clock entry).names = pool.names := by
  rw [names, restoreEntry_keys distinct, List.map_map, names]
  apply List.map_congr_left
  intro key _
  simp only [Function.comp_apply]
  split <;> rfl

/-- Each key takes back the entry of its name, if there is one. -/
def takeBack (clock : Reading) (entries : List (String × PersistedKeyState)) (key : KeyEntry) :
    KeyEntry :=
  match OrderedMap.lookup key.name entries with
  | some persisted => restoredBy clock persisted key
  | none => key

theorem restoreEntries_keys {entries : List (String × PersistedKeyState)}
    (once : (entries.map Prod.fst).Nodup) {pool : KeyPool} (distinct : pool.names.Nodup)
    (clock : Reading) :
    (entries.foldl (restoreEntry clock) pool).keys = pool.keys.map (takeBack clock entries) := by
  induction entries generalizing pool with
  | nil =>
      have same : ∀ key ∈ pool.keys, takeBack clock [] key = key := fun _ _ => rfl
      rw [List.foldl_nil, List.map_congr_left same, List.map_id']
  | cons entry rest ih =>
      simp only [List.map_cons, List.nodup_cons] at once
      have namesEq := restoreEntry_names distinct clock entry
      rw [List.foldl_cons, ih once.2 (namesEq ▸ distinct), restoreEntry_keys distinct,
        List.map_map]
      apply List.map_congr_left
      intro key _
      by_cases named : key.name = entry.1
      · have absent : OrderedMap.lookup key.name rest = none := by
          rw [OrderedMap.lookup_eq_none]
          intro other member same
          exact once.1 (List.mem_map.mpr ⟨other, member, same.trans named⟩)
        have absentHere := named ▸ absent
        simp [takeBack, named, restoredBy, absentHere, OrderedMap.lookup]
      · simp [takeBack, named, OrderedMap.lookup]

@[simp] theorem restoreActive_keys (pool : KeyPool) (state : PersistedState) :
    (pool.restoreActive state).keys = pool.keys := by
  simp only [restoreActive]
  split <;> rfl

theorem restore_keys {pool : KeyPool} (distinct : pool.names.Nodup) {state : PersistedState}
    (once : (state.keys.map Prod.fst).Nodup) (clock : Reading) :
    (pool.restore state clock).keys = pool.keys.map (takeBack clock state.keys) := by
  rw [restore, restoreActive_keys, restoreEntries_keys once distinct]

theorem takeBack_name (clock : Reading) (entries : List (String × PersistedKeyState))
    (key : KeyEntry) : (takeBack clock entries key).name = key.name := by
  simp only [takeBack]
  split <;> rfl

theorem restore_names {pool : KeyPool} (distinct : pool.names.Nodup) {state : PersistedState}
    (once : (state.keys.map Prod.fst).Nodup) (clock : Reading) :
    (pool.restore state clock).names = pool.names := by
  rw [names, restore_keys distinct once, List.map_map]
  exact List.map_congr_left fun key _ => takeBack_name clock state.keys key

theorem indexOfName_some {pool : KeyPool} {name : String} {index : Nat}
    (found : pool.indexOfName name = some index) :
    ∃ key, pool.keys[index]? = some key ∧ key.name = name := by
  simp only [indexOfName, List.findIdx?_eq_some_iff_getElem, decide_eq_true_eq] at found
  obtain ⟨bound, named, _⟩ := found
  exact ⟨_, List.getElem?_eq_getElem bound, named⟩

theorem indexOfName_of_names {pool next : KeyPool} (same : next.names = pool.names)
    (name : String) : next.indexOfName name = pool.indexOfName name := by
  have projected : ∀ pool : KeyPool,
      pool.indexOfName name = pool.names.findIdx? (fun held => held = name) := by
    intro pool
    simp [indexOfName, names, List.findIdx?_map, Function.comp_def]
  rw [projected, projected, same]

theorem restore_active {pool : KeyPool} (distinct : pool.names.Nodup) {state : PersistedState}
    (once : (state.keys.map Prod.fst).Nodup) (clock : Reading) :
    (pool.restore state clock).active =
      (state.activeKey.bind pool.indexOfName).getD pool.active := by
  have namesEq : (state.keys.foldl (restoreEntry clock) pool).names = pool.names := by
    have restored := restore_names distinct once clock
    rwa [names, restore, restoreActive_keys] at restored
  have activeEq : (state.keys.foldl (restoreEntry clock) pool).active = pool.active := by
    clear namesEq once
    induction state.keys generalizing pool with
    | nil => rfl
    | cons entry rest ih =>
        have entryActive : (pool.restoreEntry clock entry).active = pool.active := by
          simp only [restoreEntry]
          split <;> rfl
        rw [List.foldl_cons, ih (restoreEntry_names distinct clock entry ▸ distinct), entryActive]
  simp only [restore, restoreActive]
  cases state.activeKey with
  | none => exact activeEq
  | some name =>
      simp only [Option.bind_some, indexOfName_of_names namesEq]
      cases pool.indexOfName name with
      | none => exact activeEq
      | some index => rfl

theorem restore_valid {pool : KeyPool} (valid : pool.Valid) (distinct : pool.names.Nodup)
    {state : PersistedState} (once : (state.keys.map Prod.fst).Nodup) (clock : Reading) :
    (pool.restore state clock).Valid := by
  have sameLen : (pool.restore state clock).len = pool.len := by
    simp [len, restore_keys distinct once]
  intro positive
  rw [sameLen] at positive ⊢
  rw [restore_active distinct once]
  cases found : state.activeKey.bind pool.indexOfName with
  | none => exact valid positive
  | some index =>
      obtain ⟨name, _, indexEq⟩ := Option.bind_eq_some_iff.mp found
      obtain ⟨key, at_, _⟩ := indexOfName_some indexEq
      exact (List.getElem?_eq_some_iff.mp at_).1

end KeyPool

/-- What holds of the pool at any time of the service. -/
structure World.Sound (world : World) : Prop where
  valid : world.pool.Valid
  named : world.pool.Named

theorem Named.of_names {pool next : KeyPool} (named : pool.Named) (same : next.names = pool.names) :
    next.Named := by
  refine ⟨?_, same ▸ named.distinct, same ▸ named.not_blank⟩
  have lengths := congrArg List.length same
  simp only [names, List.length_map] at lengths
  have positive := named.nonempty
  simp only [len] at positive ⊢
  omega

theorem boot_sound (configured : KeyConfig) (clock : Reading) :
    (World.boot configured clock).Sound :=
  ⟨new_valid _ _, new_named configured clock.wall⟩

theorem new_runtime {configured : List ClineKeyConfig} {wallNow : SystemTime} {key : KeyEntry}
    (member : key ∈ (KeyPool.new configured wallNow).keys) : key.runtime = .default := by
  simp only [KeyPool.new, List.mem_map] at member
  obtain ⟨entry, _, rfl⟩ := member
  rfl

theorem restart_key {world : World} (sound : world.Sound) {configured : KeyConfig}
    {clock : Reading} {key : KeyEntry}
    (member : key ∈ (world.restart configured clock).pool.keys) :
    (key.name ∉ world.pool.names ∧ key.runtime = .default) ∨
      ∃ old ∈ world.pool.keys, old.name = key.name ∧
        key.runtime = restoreRuntime clock (persistKey old) .default := by
  have once := world.pool.persisted_nodup world.clock
  simp only [World.restart, restore_keys (new_named configured clock.wall).distinct once,
    List.mem_map] at member
  obtain ⟨fresh, inNew, rfl⟩ := member
  rw [takeBack_name]
  simp only [takeBack]
  cases found : OrderedMap.lookup fresh.name (world.pool.persistedState world.clock).keys with
  | none =>
      refine Or.inl ⟨?_, new_runtime inNew⟩
      intro known
      obtain ⟨old, inOld, same⟩ := List.mem_map.mp known
      have recorded := lookup_persisted sound.named.distinct world.clock inOld
      rw [same, found] at recorded
      simp at recorded
  | some persisted =>
      obtain ⟨old, inOld, entryEq⟩ := OrderedMap.mem_collect (OrderedMap.mem_of_lookup found)
      simp only [Prod.mk.injEq] at entryEq
      refine Or.inr ⟨old, inOld, entryEq.1.symm, ?_⟩
      simp only [restoredBy, entryEq.2, new_runtime inNew]

theorem restart_sound (world : World) (configured : KeyConfig) (clock : Reading) :
    (world.restart configured clock).Sound := by
  have named := new_named configured clock.wall
  have once := world.pool.persisted_nodup world.clock
  exact ⟨restore_valid (new_valid _ _) named.distinct once clock,
    Named.of_names named (restore_names named.distinct once clock)⟩

theorem run_sound {upstream : ClineUpstream} {world next : World} {event : Event}
    (sound : world.Sound) (stepped : (gateway upstream).step world event = some next) :
    next.Sound := by
  refine ⟨pool_valid_step sound.valid stepped, ?_⟩
  cases World.step_cases stepped with
  | tick | flush => exact sound.named
  | wake => exact ⟨sound.named.nonempty, sound.named.distinct, sound.named.not_blank⟩
  | request id event op request _ =>
      exact Named.of_names sound.named (names_of_identity (applyOp_identity sound.valid _ op))

theorem service_sound {upstream : ClineUpstream} {allowed : World → ServiceEvent → Prop}
    {world : World} (reached : (service upstream).ReachableWhere allowed world) :
    world.Sound := by
  apply reached.invariant
  · rintro world ⟨configured, clock, rfl⟩
    exact boot_sound configured clock
  · intro world event next _ sound _ stepped
    cases event with
    | run event => exact run_sound sound stepped
    | restart configured clock =>
        simp only [service, Option.some.injEq] at stepped
        exact stepped ▸ restart_sound world configured clock

def oneKeyConfig : KeyConfig :=
  ⟨oneKey, by decide, by decide, ⟨_, List.mem_singleton_self _, rfl⟩⟩

end ClineProxy
