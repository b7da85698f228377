import ClineProxy.ServiceCore

/-!
What a restart through the state file does to every cooldown and to the active key, with
both clocks advancing together.
-/

namespace ClineProxy

open Clock KeyPool TransitionSystem

inductive Standing where
  | healthy
  | expired
  | cooling (remaining : Nat)
  deriving DecidableEq

/-- The phase of a deadline at `now`, leases aside, with the remaining cooldown. -/
def standing (deadline : Option Instant) (now : Instant) : Standing :=
  match deadline with
  | none => .healthy
  | some deadline => if now < deadline then .cooling (deadline - now) else .expired

theorem standing_cooling {deadline now : Nat} (ahead : now < deadline) :
    standing (some deadline) now = .cooling (deadline - now) := if_pos ahead

theorem standing_expired {deadline now : Nat} (past : deadline ≤ now) :
    standing (some deadline) now = .expired := if_neg (Nat.not_lt.mpr past)

def KeyRuntime.fileDeadline (runtime : KeyRuntime) : Option Instant :=
  runtime.cooldownUntil.map fun deadline =>
    deadline - ((runtime.cooldownUntilWall.getD 0) % nanosPerMilli).toNat

/-- Both clocks leave room for the longest cooldown, in their types and in the file. -/
structure InRange (clock : Reading) : Prop where
  after_epoch : (0 : Int) ≤ clock.wall
  mono_room : clock.mono + maxCooldown ≤ lastRepresentable
  wall_room : clock.wall + (maxCooldown : Int) < (u64Bound : Int) * (nanosPerMilli : Int)

def elapsed (clock later : Reading) : Duration := (later.wall - clock.wall).toNat

/-- Within a process both clocks advance together, and no restart goes back in time. -/
def Together (world : World) : ServiceEvent → Prop
  | .run (.tick clock) =>
      (clock.mono : Int) - world.clock.mono = clock.wall - world.clock.wall
  | .run _ => True
  | .restart _ clock => world.clock.wall ≤ clock.wall

def ServiceEvent.reading : ServiceEvent → Option Reading
  | .run (.tick clock) => some clock
  | .run _ => none
  | .restart _ clock => some clock

/-- Both clocks advance together and stay in range. -/
def Steady (world : World) (event : ServiceEvent) : Prop :=
  Together world event ∧ ∀ clock, event.reading = some clock → InRange clock

def Resting (world : World) (event : ServiceEvent) : Prop :=
  Steady world event ∧ ∀ id requestEvent, event ≠ .run (.request id requestEvent)

/-- The two deadlines of a key stand for one moment, unless both are past. -/
inductive Synced (clock : Reading) : Option Instant → Option SystemTime → Prop
  | healthy : Synced clock none none
  | deadline (mono : Nat) (wall : Int) : 0 ≤ wall → wall ≤ clock.wall + (maxCooldown : Int) →
      ((mono : Int) - clock.mono = wall - clock.wall ∨
        (mono ≤ clock.mono ∧ wall ≤ clock.wall)) →
      Synced clock (some mono) (some wall)

def KeyRuntime.Synced (runtime : KeyRuntime) (clock : Reading) : Prop :=
  ClineProxy.Synced clock runtime.cooldownUntil runtime.cooldownUntilWall

theorem Synced.advance {clock later : Reading} {mono : Option Instant} {wall : Option SystemTime}
    (synced : Synced clock mono wall) (forward : clock.mono ≤ later.mono)
    (together : (later.mono : Int) - clock.mono = later.wall - clock.wall) :
    Synced later mono wall := by
  cases synced with
  | healthy => exact .healthy
  | deadline mono wall positive capped same =>
      exact .deadline mono wall positive (by omega) (by omega)

theorem unixMs_deadline {clock : Reading} (inRange : InRange clock) {wall : Int}
    (positive : 0 ≤ wall) (capped : wall ≤ clock.wall + (maxCooldown : Int)) :
    unixMs wall = wall.toNat / nanosPerMilli := by
  have room := inRange.wall_room
  rw [unixMs_of_nonneg positive]
  apply Nat.mod_eq_of_lt
  simp only [nanosPerMilli, u64Bound, Nat.reducePow] at *
  omega

theorem fileRange_representable :
    (u64Bound : Int) * (nanosPerMilli : Int) ≤ (lastRepresentable : Int) := by
  decide

theorem restoreDeadline_eq {clock : Reading} (inRange : InRange clock) {milliseconds : Nat}
    (capped : ((milliseconds * nanosPerMilli : Nat) : Int) ≤ clock.wall + (maxCooldown : Int)) :
    restoreDeadline clock milliseconds =
      (clock.mono + (((milliseconds * nanosPerMilli : Nat) : Int) - clock.wall).toNat,
        ((milliseconds * nanosPerMilli : Nat) : Int)) := by
  have wallRoom := inRange.wall_room
  have monoRoom := inRange.mono_room
  have representable : systemCheckedAdd unixEpoch (fromMillis milliseconds) =
      some ((milliseconds * nanosPerMilli : Nat) : Int) := by
    have room := fileRange_representable
    have fits : ((milliseconds * nanosPerMilli : Nat) : Int) ≤ (lastRepresentable : Int) := by
      omega
    simp only [systemCheckedAdd, unixEpoch, fromMillis, Int.zero_add, fits, if_true]
  simp only [restoreDeadline, representable, Option.getD_some, systemDurationSince]
  by_cases ahead : clock.wall ≤ ((milliseconds * nanosPerMilli : Nat) : Int)
  · have within : (((milliseconds * nanosPerMilli : Nat) : Int) - clock.wall).toNat ≤
        maxCooldown := by omega
    simp only [ahead, if_true, Option.map_some, Option.getD_some, Nat.min_eq_left within]
    rw [instantCheckedAdd_eq, Option.getD_some]
    omega
  · have past : (((milliseconds * nanosPerMilli : Nat) : Int) - clock.wall).toNat = 0 := by omega
    simp only [ahead, if_false, Option.map_none, Option.getD_none, past, Nat.add_zero]

theorem restored_deadlines {clock later : Reading} (inRange : InRange clock)
    (laterRange : InRange later) (after : clock.wall ≤ later.wall) {key : KeyEntry} {wall : Int}
    (recorded : key.runtime.cooldownUntilWall = some wall) (positive : 0 ≤ wall)
    (capped : wall ≤ clock.wall + (maxCooldown : Int)) :
    (restoreRuntime later (persistKey key) .default).cooldownUntil =
        some (later.mono + (wall - wall % (nanosPerMilli : Int) - later.wall).toNat) ∧
      (restoreRuntime later (persistKey key) .default).cooldownUntilWall =
        some (wall - wall % (nanosPerMilli : Int)) := by
  have floorEq : ((wall.toNat / nanosPerMilli * nanosPerMilli : Nat) : Int) =
      wall - wall % (nanosPerMilli : Int) := by
    simp only [nanosPerMilli]
    omega
  have milliseconds : (persistKey key).cooldownUntilUnixMs =
      some (wall.toNat / nanosPerMilli) := by
    simp only [persistKey, recorded, Option.map_some, unixMs_deadline inRange positive capped]
  have floorCapped : ((wall.toNat / nanosPerMilli * nanosPerMilli : Nat) : Int) ≤
      later.wall + (maxCooldown : Int) := by
    rw [floorEq]
    simp only [nanosPerMilli]
    omega
  have restored := restoreDeadline_eq laterRange floorCapped
  simp only [restoreRuntime, milliseconds, Option.map_some, Option.some_or, restored, floorEq,
    and_self]

theorem restored_none {later : Reading} {key : KeyEntry}
    (recorded : key.runtime.cooldownUntilWall = none) :
    (restoreRuntime later (persistKey key) .default).cooldownUntil = none ∧
      (restoreRuntime later (persistKey key) .default).cooldownUntilWall = none := by
  simp [restoreRuntime, persistKey, recorded, KeyRuntime.default]

theorem standing_floor {clock later : Reading} (after : clock.wall ≤ later.wall) {mono : Nat}
    {wall : Int} (same : (mono : Int) - clock.mono = wall - clock.wall ∨
      (mono ≤ clock.mono ∧ wall ≤ clock.wall)) :
    standing (some (later.mono + (wall - wall % (nanosPerMilli : Int) - later.wall).toNat))
        later.mono =
      standing (some (mono - (wall % (nanosPerMilli : Int)).toNat))
        (clock.mono + elapsed clock later) := by
  have fraction := Int.emod_nonneg wall (show (nanosPerMilli : Int) ≠ 0 by decide)
  generalize wall % (nanosPerMilli : Int) = dropped at fraction
  simp only [elapsed]
  by_cases ahead : later.wall < wall - dropped
  · rw [standing_cooling (by omega), standing_cooling (by omega)]
    congr 1
    omega
  · rw [standing_expired (by omega), standing_expired (by omega)]

theorem restored_standing {clock later : Reading} (inRange : InRange clock)
    (laterRange : InRange later) (after : clock.wall ≤ later.wall) {key : KeyEntry}
    (synced : key.runtime.Synced clock) :
    standing (restoreRuntime later (persistKey key) .default).cooldownUntil later.mono =
      standing key.runtime.fileDeadline (clock.mono + elapsed clock later) := by
  unfold KeyRuntime.Synced at synced
  cases monoEq : key.runtime.cooldownUntil with
  | none =>
      rw [monoEq] at synced
      cases wallEq : key.runtime.cooldownUntilWall with
      | none => simp [restored_none wallEq, KeyRuntime.fileDeadline, monoEq, standing]
      | some wall =>
          rw [wallEq] at synced
          cases synced
  | some mono =>
      rw [monoEq] at synced
      cases wallEq : key.runtime.cooldownUntilWall with
      | none =>
          rw [wallEq] at synced
          cases synced
      | some wall =>
          rw [wallEq] at synced
          cases synced with
          | deadline _ _ positive capped same =>
              rw [(restored_deadlines inRange laterRange after wallEq positive capped).1]
              simp only [KeyRuntime.fileDeadline, monoEq, wallEq, Option.map_some,
                Option.getD_some]
              exact standing_floor after same

theorem restored_synced {clock later : Reading} (inRange : InRange clock)
    (laterRange : InRange later) (after : clock.wall ≤ later.wall) {key : KeyEntry}
    (synced : key.runtime.Synced clock) :
    (restoreRuntime later (persistKey key) .default).Synced later := by
  unfold KeyRuntime.Synced at synced ⊢
  cases wallEq : key.runtime.cooldownUntilWall with
  | none =>
      rw [(restored_none wallEq).1, (restored_none wallEq).2]
      exact .healthy
  | some wall =>
      rw [wallEq] at synced
      generalize key.runtime.cooldownUntil = deadline at synced
      cases synced with
      | deadline mono _ positive capped same =>
          obtain ⟨monoEq, floorEq⟩ :=
            restored_deadlines inRange laterRange after wallEq positive capped
          have fraction := Int.emod_nonneg wall (show (nanosPerMilli : Int) ≠ 0 by decide)
          have floor : (0 : Int) ≤ wall - wall % (nanosPerMilli : Int) := by
            simp only [nanosPerMilli]
            omega
          rw [monoEq, floorEq]
          exact .deadline _ _ floor (by omega) (by omega)

/-- What every steady run keeps: names, clock ranges and deadlines that agree. -/
structure World.InStep (world : World) : Prop where
  sound : world.Sound
  inRange : InRange world.clock
  synced : ∀ key ∈ world.pool.keys, key.runtime.Synced world.clock

theorem boot_inStep (configured : KeyConfig) {clock : Reading} (inRange : InRange clock) :
    (World.boot configured clock).InStep := by
  refine ⟨boot_sound configured clock, inRange, ?_⟩
  intro key member
  rw [KeyRuntime.Synced, new_runtime member]
  exact .healthy

theorem coolKey_synced {clock : Reading} (inRange : InRange clock) (cooldown : Duration)
    (kind : RateLimitKind) (message model : Option String) (key : KeyEntry) :
    (coolKey cooldown kind message model clock key).runtime.Synced clock := by
  have monoRoom := inRange.mono_room
  have wallRoom := inRange.wall_room
  have positive := inRange.after_epoch
  have representable := fileRange_representable
  have capped := Nat.min_le_right cooldown maxCooldown
  simp only [KeyRuntime.Synced, coolKey]
  generalize min cooldown maxCooldown = duration at capped
  rw [instantCheckedAdd_eq (by omega), systemCheckedAdd_eq (by omega), Option.getD_some]
  exact .deadline _ _ (by omega) (by omega) (by omega)

theorem synced_apply {pool : KeyPool} (valid : pool.Valid) {clock : Reading}
    (inRange : InRange clock) (synced : ∀ key ∈ pool.keys, key.runtime.Synced clock)
    (op : PoolOp) : ∀ key ∈ (op.apply clock pool).keys, key.runtime.Synced clock := by
  intro key member
  rcases op.apply_keys valid clock with same | ⟨index, change, changed, which⟩
  · exact synced key (same ▸ member)
  · rw [changed] at member
    obtain ⟨position, at_⟩ := List.getElem?_of_mem member
    rw [getElem?_modify_key, Option.map_eq_some_iff] at at_
    obtain ⟨old, oldAt, rfl⟩ := at_
    have before := synced old (List.mem_of_getElem? oldAt)
    split
    · rcases which with rfl | rfl | rfl | ⟨cooldown, kind, message, model, _, rfl⟩
      · exact before
      · exact .healthy
      · exact before
      · exact coolKey_synced inRange cooldown kind message model old
    · exact before

theorem restart_inStep {world : World} (inStep : world.InStep) (configured : KeyConfig)
    {later : Reading} (laterRange : InRange later) (after : world.clock.wall ≤ later.wall) :
    (world.restart configured later).InStep := by
  refine ⟨restart_sound world configured later, laterRange, ?_⟩
  intro key member
  rcases restart_key inStep.sound member with ⟨_, fresh⟩ | ⟨old, inOld, _, restored⟩
  · rw [KeyRuntime.Synced, fresh]
    exact .healthy
  · rw [restored]
    exact restored_synced inStep.inRange laterRange after (inStep.synced old inOld)

theorem inStep_step {upstream : ClineUpstream} {world next : World} {event : ServiceEvent}
    (inStep : world.InStep) (steady : Steady world event)
    (stepped : (service upstream).step world event = some next) : next.InStep := by
  cases event with
  | restart configured later =>
      simp only [service, Option.some.injEq] at stepped
      exact stepped ▸ restart_inStep inStep configured (steady.2 later rfl) steady.1
  | run event =>
      have sound := run_sound inStep.sound stepped
      cases World.step_cases stepped with
      | tick clock forward =>
          exact ⟨sound, steady.2 clock rfl,
            fun key member => (inStep.synced key member).advance forward steady.1⟩
      | request id event op request _ =>
          refine ⟨sound, inStep.inRange, ?_⟩
          cases op with
          | none => exact inStep.synced
          | some op => exact synced_apply inStep.sound.valid inStep.inRange inStep.synced op
      | wake => exact ⟨sound, inStep.inRange, inStep.synced⟩
      | flush => exact ⟨sound, inStep.inRange, inStep.synced⟩

theorem path_inStep {upstream : ClineUpstream} {world later : World}
    (inStep : world.InStep) (path : (service upstream).PathWhere Steady world later) :
    later.InStep := by
  induction path with
  | refl => exact inStep
  | step _ steady stepped ih => exact inStep_step ih steady stepped

/-- A restart at `later` keeps every phase, every remaining cooldown and the active key. -/
structure RestartKeeps (world : World) (configured : KeyConfig) (later : Reading) : Prop where
  phases : ∀ key ∈ (world.restart configured later).pool.keys, ∀ old ∈ world.pool.keys,
    old.name = key.name → standing key.runtime.cooldownUntil later.mono =
      standing old.runtime.fileDeadline (world.clock.mono + elapsed world.clock later)
  active : ∀ name ∈ (world.restart configured later).pool.names,
    world.pool.activeKeyName = some name →
    (world.restart configured later).pool.activeKeyName = some name
  unknown : ∀ key ∈ (world.restart configured later).pool.keys,
    key.name ∉ world.pool.names → standing key.runtime.cooldownUntil later.mono = .healthy

theorem restart_active {world : World} {configured : KeyConfig} {later : Reading} {name : String}
    (kept : name ∈ (world.restart configured later).pool.names)
    (active : world.pool.activeKeyName = some name) :
    (world.restart configured later).pool.activeKeyName = some name := by
  have named := new_named configured later.wall
  have once := world.pool.persisted_nodup world.clock
  have activeEq := restore_active named.distinct once later
  have namesEq := restore_names named.distinct once later
  simp only [World.restart] at kept ⊢
  generalize restoredEq : (KeyPool.new configured later.wall).restore
    (world.pool.persistedState world.clock) later = restored at *
  have recorded : (world.pool.persistedState world.clock).activeKey = some name := active
  have there : ((KeyPool.new configured later.wall).indexOfName name).isSome = true := by
    rw [namesEq] at kept
    obtain ⟨key, member, same⟩ := List.mem_map.mp kept
    simp only [indexOfName, List.findIdx?_isSome, List.any_eq_true, decide_eq_true_eq]
    exact ⟨key, member, same⟩
  obtain ⟨index, found⟩ := Option.isSome_iff_exists.mp there
  rw [recorded, Option.bind_some, found, Option.getD_some] at activeEq
  rw [← indexOfName_of_names namesEq] at found
  obtain ⟨key, at_, same⟩ := indexOfName_some found
  have bound : index < restored.len := (List.getElem?_eq_some_iff.mp at_).1
  have nonempty : restored.len ≠ 0 := by omega
  rw [activeKeyName, if_neg nonempty, activeEq, Nat.mod_eq_of_lt bound, at_, Option.map_some, same]

theorem restart_keeps {world : World} (inStep : world.InStep) (configured : KeyConfig)
    {later : Reading} (laterRange : InRange later) (after : world.clock.wall ≤ later.wall) :
    RestartKeeps world configured later := by
  refine ⟨?_, fun name kept active => restart_active kept active, ?_⟩
  · intro key member old inOld same
    rcases restart_key inStep.sound member with ⟨absent, _⟩ | ⟨held, inHeld, heldName, restored⟩
    · exact absurd (List.mem_map.mpr ⟨old, inOld, same⟩) absent
    · have equal := key_unique inStep.sound.named.distinct inHeld inOld (heldName.trans same.symm)
      subst equal
      rw [restored]
      exact restored_standing inStep.inRange laterRange after (inStep.synced held inHeld)
  · intro key member absent
    rcases restart_key inStep.sound member with ⟨_, fresh⟩ | ⟨old, inOld, same, _⟩
    · rw [fresh]
      rfl
    · exact absurd (List.mem_map.mpr ⟨old, inOld, same⟩) absent

def KeyPool.cooldownLeft (pool : KeyPool) (name : String) (now : Nat) : Nat :=
  ((pool.keys.find? fun key => key.name = name).bind fun key => key.runtime.cooldownUntil).elim 0
    fun deadline => deadline - now

def left (recorded : Option Instant) (now : Nat) : Nat :=
  recorded.elim 0 fun deadline => deadline - now

theorem left_of_standing {first second : Option Instant} {firstNow secondNow : Nat}
    (same : standing first firstNow = standing second secondNow) :
    left first firstNow = left second secondNow := by
  have leftEq : ∀ (deadline : Option Instant) (now : Nat), left deadline now =
      match standing deadline now with
      | .cooling remaining => remaining
      | _ => 0 := by
    intro deadline now
    cases deadline with
    | none => rfl
    | some deadline =>
        rcases Nat.lt_or_ge now deadline with ahead | past
        · simp only [standing_cooling ahead, left, Option.elim_some]
        · simp only [standing_expired past, left, Option.elim_some]
          exact Nat.sub_eq_zero_of_le past
  rw [leftEq, leftEq, same]

theorem cooldownLeft_key {pool : KeyPool} (distinct : pool.names.Nodup) {key : KeyEntry}
    (member : key ∈ pool.keys) (now : Nat) :
    pool.cooldownLeft key.name now = left key.runtime.cooldownUntil now := by
  rw [cooldownLeft, find?_name distinct member]
  rfl

theorem cooldownLeft_absent {pool : KeyPool} {name : String} (absent : name ∉ pool.names)
    (now : Nat) : pool.cooldownLeft name now = 0 := by
  have nothing : pool.keys.find? (fun key => key.name = name) = none := by
    rw [List.find?_eq_none]
    intro key member
    simp only [decide_eq_true_eq]
    rintro rfl
    exact absent (List.mem_map.mpr ⟨key, member, rfl⟩)
  rw [cooldownLeft, nothing]
  rfl

theorem left_fileDeadline_le (runtime : KeyRuntime) (now later : Nat) :
    left runtime.fileDeadline (now + later) ≤ left runtime.cooldownUntil now - later := by
  simp only [KeyRuntime.fileDeadline, left]
  cases runtime.cooldownUntil with
  | none => simp
  | some deadline =>
      simp only [Option.map_some, Option.elim_some]
      omega

theorem restart_cooldownLeft {world : World} (inStep : world.InStep) (configured : KeyConfig)
    {later : Reading} (laterRange : InRange later) (after : world.clock.wall ≤ later.wall)
    (name : String) :
    (world.restart configured later).pool.cooldownLeft name later.mono ≤
      world.pool.cooldownLeft name world.clock.mono - elapsed world.clock later := by
  have sound := restart_sound world configured later
  have keeps := restart_keeps inStep configured laterRange after
  by_cases known : name ∈ (world.restart configured later).pool.names
  · obtain ⟨key, member, rfl⟩ := List.mem_map.mp known
    rw [cooldownLeft_key sound.named.distinct member]
    rcases restart_key inStep.sound member with ⟨_, fresh⟩ | ⟨old, inOld, same, _⟩
    · rw [fresh]
      exact Nat.zero_le _
    · rw [← same, cooldownLeft_key inStep.sound.named.distinct inOld,
        left_of_standing (keeps.phases key member old inOld same)]
      exact left_fileDeadline_le _ _ _
  · rw [cooldownLeft_absent known]
    exact Nat.zero_le _

theorem resting_step {upstream : ClineUpstream} {world next : World} {event : ServiceEvent}
    (inStep : world.InStep) (resting : Resting world event)
    (stepped : (service upstream).step world event = some next) :
    world.clock.wall ≤ next.clock.wall ∧ ∀ name,
      next.pool.cooldownLeft name next.clock.mono ≤
        world.pool.cooldownLeft name world.clock.mono - elapsed world.clock next.clock := by
  obtain ⟨steady, noRequest⟩ := resting
  cases event with
  | restart configured later =>
      simp only [service, Option.some.injEq] at stepped
      subst stepped
      exact ⟨steady.1, restart_cooldownLeft inStep configured (steady.2 later rfl) steady.1⟩
  | run event =>
      cases World.step_cases stepped with
      | tick clock forward =>
          have together : (clock.mono : Int) - world.clock.mono =
              clock.wall - world.clock.wall := steady.1
          refine ⟨by simp only; omega, fun name => ?_⟩
          simp only [cooldownLeft, elapsed]
          cases (world.pool.keys.find? fun key => key.name = name).bind
              fun key => key.runtime.cooldownUntil with
          | none => simp
          | some deadline =>
              simp only [Option.elim_some]
              omega
      | request id event => exact absurd rfl (noRequest id event)
      | wake => exact ⟨le_refl _, fun name => by simp [elapsed, cooldownLeft]⟩
      | flush => exact ⟨le_refl _, fun name => by simp [elapsed]⟩

theorem resting_path {upstream : ClineUpstream} {world later : World} (inStep : world.InStep)
    (path : (service upstream).PathWhere Resting world later) :
    later.InStep ∧ world.clock.wall ≤ later.clock.wall ∧ ∀ name,
      later.pool.cooldownLeft name later.clock.mono ≤
        world.pool.cooldownLeft name world.clock.mono - elapsed world.clock later.clock := by
  induction path with
  | refl => exact ⟨inStep, le_refl _, fun name => by simp [elapsed]⟩
  | step _ resting stepped ih =>
      obtain ⟨middle, before, held⟩ := ih
      obtain ⟨after, bound⟩ := resting_step middle resting stepped
      refine ⟨inStep_step middle resting.1 stepped, by omega, fun name => ?_⟩
      have first := held name
      have second := bound name
      simp only [elapsed] at *
      omega

/-- A restart of a steady service keeps what `RestartKeeps` says, and no number of restarts
lengthens a cooldown. -/
theorem restart_preserves_pool (upstream : ClineUpstream) (initial : KeyConfig)
    (clock : Reading) (inRange : InRange clock) (world : World)
    (path : (service upstream).PathWhere Steady (World.boot initial clock) world) :
    (∀ configured later, InRange later → world.clock.wall ≤ later.wall →
      RestartKeeps world configured later) ∧
    ∀ later, (service upstream).PathWhere Resting world later → ∀ name,
      later.pool.cooldownLeft name later.clock.mono ≤
        world.pool.cooldownLeft name world.clock.mono - elapsed world.clock later.clock := by
  have inStep := path_inStep (boot_inStep initial inRange) path
  exact ⟨fun configured later laterRange after => restart_keeps inStep configured laterRange after,
    fun later rested => (resting_path inStep rested).2.2⟩

section Runs

def RestartsKeep (upstream : ClineUpstream) (configured : KeyConfig) (clock : Reading) : Prop :=
  ∀ world, (service upstream).PathWhere Together (World.boot configured clock) world →
    ∀ later, world.clock.wall ≤ later.wall → RestartKeeps world configured later

def preEpoch : Reading := ⟨fromSecs 1000, -(fromSecs 100 : Nat)⟩

def lastMinute : Reading := ⟨lastRepresentable - fromSecs 30, fromSecs 1700000000⟩

def firstLimit : List ServiceEvent :=
  [.run (.request 0 .start), .run (.request 0 .select), .run (.request 0 (.respond limitedResponse))]

def secondAfter (clock : Reading) : Reading :=
  ⟨clock.mono + fromSecs 1, clock.wall + (fromSecs 1 : Nat)⟩

def restartDiffers (world : World) : Bool :=
  let later := secondAfter world.clock
  (world.restart oneKeyConfig later).pool.keys.zip world.pool.keys |>.any fun (key, old) =>
    old.name == key.name && standing key.runtime.cooldownUntil later.mono !=
      standing old.runtime.fileDeadline (world.clock.mono + elapsed world.clock later)

theorem not_restartsKeep {clock : Reading}
    (differs : ((service plainUpstream).runFrom (World.boot oneKeyConfig clock) firstLimit).any
      restartDiffers = true) : ¬RestartsKeep plainUpstream oneKeyConfig clock := by
  intro claim
  obtain ⟨world, ran, mismatch⟩ := Option.any_eq_true _ _ |>.mp differs
  have path : (service plainUpstream).PathWhere Together (World.boot oneKeyConfig clock) world := by
    refine System.runFrom_path ?_ ran
    simp [firstLimit, Together]
  simp only [restartDiffers, List.any_eq_true, Bool.and_eq_true, beq_iff_eq, bne_iff_ne] at mismatch
  obtain ⟨⟨key, old⟩, member, same, different⟩ := mismatch
  have keeps := claim world path (secondAfter world.clock)
    (by simp only [secondAfter]; omega)
  exact different (keeps.phases key (List.of_mem_zip member).1 old (List.of_mem_zip member).2 same)

theorem restart_preserves_pool_fails :
    ¬RestartsKeep plainUpstream oneKeyConfig preEpoch ∧
      ¬RestartsKeep plainUpstream oneKeyConfig lastMinute :=
  ⟨not_restartsKeep (by decide), not_restartsKeep (by decide)⟩

theorem restart_preserves_pool_limited : ∃ world,
    (service plainUpstream).PathWhere Steady (World.boot oneKeyConfig (readingAt 0)) world ∧
      RestartKeeps world oneKeyConfig (readingAt 30) := by
  have ranSome : ((service plainUpstream).runFrom (World.boot oneKeyConfig (readingAt 0))
      firstLimit).any (fun world => world.clock == readingAt 0) = true := by decide
  obtain ⟨world, ran, clock⟩ := Option.any_eq_true _ _ |>.mp ranSome
  have path : (service plainUpstream).PathWhere Steady
      (World.boot oneKeyConfig (readingAt 0)) world := by
    refine System.runFrom_path ?_ ran
    simp [firstLimit, Steady, Together, ServiceEvent.reading]
  have after : world.clock.wall ≤ (readingAt 30).wall := by
    rw [beq_iff_eq.mp clock]
    decide
  exact ⟨world, path, (restart_preserves_pool plainUpstream oneKeyConfig (readingAt 0)
    ⟨by decide, by decide, by decide⟩ world path).1 oneKeyConfig (readingAt 30)
    ⟨by decide, by decide, by decide⟩ after⟩

end Runs

end ClineProxy
