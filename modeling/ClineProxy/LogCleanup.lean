import ClineProxy.LogChecks

/-! How far the log writer cleans up its directory. -/

namespace ClineProxy

open FileWriter

/-- What is left is within the bound, or it is the active segment alone. -/
def Down (bound : Nat) (activePath : Option String) (left : List SegmentMeta) : Prop :=
  (left.map SegmentMeta.bytes).sum ≤ bound ∨
    ∃ segment, left = [segment] ∧ activePath = some segment.path

theorem Down.mono {bound larger : Nat} {activePath : Option String} {left : List SegmentMeta}
    (below : bound ≤ larger) (down : Down bound activePath left) : Down larger activePath left :=
  down.imp_left fun within => within.trans below

/-- The least number of oldest segments whose deletion leaves what is wanted. -/
def Fewest (wanted : List SegmentMeta → Prop) (segments : List SegmentMeta) (count : Nat) : Prop :=
  wanted (segments.drop count) ∧ ∀ fewer < count, ¬wanted (segments.drop fewer)

theorem Fewest.unique {wanted : List SegmentMeta → Prop} {segments : List SegmentMeta}
    {count other : Nat} (first : Fewest wanted segments count)
    (second : Fewest wanted segments other) : count = other := by
  rcases Nat.lt_trichotomy count other with below | same | above
  · exact absurd first.1 (second.2 count below)
  · exact same
  · exact absurd second.1 (first.2 other above)

/-- Exactly the oldest `count` segments are deleted, and their files. -/
def Deletes (log : FileWriter) (count : Nat) : Prop :=
  log.enforceQuota.segments = log.segments.drop count ∧
    log.enforceQuota.directory = (log.segments.take count).foldl
      (fun directory segment => directory.removeFile segment.path) log.directory

section Evict

variable {maxTotal cleanup : Nat} {activePath : Option String} {before : List SegmentMeta}
  {last : SegmentMeta} {total : Nat} {directory : LogDirectory}

/-- The loop stops at the quota; the cleanup target is below it and stops nothing earlier. -/
theorem evict_fewest (low : cleanup ≤ maxTotal) (active : activePath = some last.path)
    (others : ∀ segment ∈ before, activePath ≠ some segment.path)
    (sum : total = ((before ++ [last]).map SegmentMeta.bytes).sum) :
    ∃ count, Fewest (Down maxTotal activePath) (before ++ [last]) count ∧
      (evict maxTotal cleanup activePath (before ++ [last]) total directory).1 =
        (before ++ [last]).drop count ∧
      (evict maxTotal cleanup activePath (before ++ [last]) total directory).2.2 =
        ((before ++ [last]).take count).foldl
          (fun directory segment => directory.removeFile segment.path) directory := by
  induction before generalizing total directory with
  | nil =>
      refine ⟨0, ⟨.inr ⟨last, rfl, active⟩, fun _ none_ => absurd none_ (Nat.not_lt_zero _)⟩, ?_⟩
      rw [List.nil_append, evict]
      split <;> exact ⟨rfl, rfl⟩
  | cons oldest rest ih =>
      rw [List.cons_append, evict]
      split
      next within =>
        refine ⟨0, ⟨.inl ?_, fun _ none_ => absurd none_ (Nat.not_lt_zero _)⟩, rfl, rfl⟩
        rw [sum] at within
        exact within
      next above_ =>
        rw [List.forall_mem_cons] at others
        rw [if_neg others.1]
        have left : total - oldest.bytes = ((rest ++ [last]).map SegmentMeta.bytes).sum := by
          rw [sum, List.cons_append, List.map_cons, List.sum_cons, Nat.add_sub_cancel_left]
        have above : ¬Down maxTotal activePath (oldest :: (rest ++ [last])) := by
          rintro (within | ⟨segment, alone, -⟩)
          · rw [sum] at above_
            exact above_ within
          · simp at alone
        obtain ⟨count, fewest, segments, removed⟩ :=
          @ih (total - oldest.bytes) (directory.removeFile oldest.path) others.2 left
        have further : Fewest (Down maxTotal activePath) (oldest :: (rest ++ [last]))
            (count + 1) := by
          refine ⟨fewest.1, fun fewer below => ?_⟩
          cases fewer with
          | zero => exact above
          | succ fewer => exact fewest.2 fewer (Nat.lt_of_succ_lt_succ below)
        dsimp only
        split
        next within =>
          have none_ : count = 0 := by
            refine fewest.unique ⟨.inl ?_, fun _ none_ => absurd none_ (Nat.not_lt_zero _)⟩
            rw [List.drop_zero, ← left]
            exact within.trans low
          subst none_
          exact ⟨1, further, rfl, rfl⟩
        next => exact ⟨count + 1, further, segments, removed⟩

end Evict

variable {config : WriterConfig} {log next : FileWriter} {line : List UInt8} {last : SegmentMeta}
  {index : Nat}

theorem enforceQuota_fewest (running : Running config log last index) :
    ∃ count, Fewest (Down config.maxTotalBytes log.activePath) log.segments count ∧
      Deletes log count := by
  obtain ⟨before, ends⟩ := running.ends
  have distinct := running.distinct
  rw [ends, List.map_append, List.nodup_append] at distinct
  have others : ∀ segment ∈ before, log.activePath ≠ some segment.path := by
    intro segment member same
    rw [running.active] at same
    exact distinct.2.2 _ (List.mem_map_of_mem member) _ (List.mem_singleton_self _)
      (Option.some.inj same).symm
  have total := running.total
  rw [ends] at total
  obtain ⟨count, fewest, segments, removed⟩ := @evict_fewest log.maxTotalBytes
    log.cleanupTargetBytes log.activePath before last log.totalBytes log.directory running.low
    running.active others total
  rw [← ends, running.quota] at fewest
  rw [← ends] at segments removed
  exact ⟨count, fewest, segments, removed⟩

/-- The writer as a cleanup finds it: at its start, or behind a line. -/
inductive BeforeCleanup (config : WriterConfig) : FileWriter → Prop
  | startup {directory : LogDirectory} {opened : FileWriter} :
      (scan directory config.maxFileBytes).openFreshSegment = some opened →
      BeforeCleanup config (limited config opened)
  | written {log rotated : FileWriter} {path : String} {line : List UInt8} :
      (logWriter config).Reachable log → log.rotateIfNeeded = some rotated →
      rotated.writer = some path → BeforeCleanup config (rotated.writeAll path line)

theorem enforceQuota_within (within : log.totalBytes ≤ log.maxTotalBytes) :
    log.enforceQuota = log := by
  have stays : evict log.maxTotalBytes log.cleanupTargetBytes log.activePath log.segments
      log.totalBytes log.directory = (log.segments, log.totalBytes, log.directory) := by
    cases log.segments with
    | nil => rfl
    | cons oldest rest => rw [evict, if_pos within]
  rw [enforceQuota, stays]

theorem spawnWriter_enforced {directory : LogDirectory}
    (spawned : spawnWriter config directory = some log) :
    ∃ opened, (scan directory config.maxFileBytes).openFreshSegment = some opened ∧
      log = (limited config opened).enforceQuota := by
  obtain ⟨opened, made, started⟩ := spawnWriter_eq spawned
  refine ⟨opened, made, ?_⟩
  split at started
  next => exact started.symm
  next within => rw [enforceQuota_within (Nat.not_lt.mp within), started]

theorem Running.wrote (running : Running config log last index)
    (wrote : log.writeLine line = some next) :
    ∃ rotated path, log.rotateIfNeeded = some rotated ∧ rotated.writer = some path ∧
      next = (rotated.writeAll path line).enforceQuota := by
  rw [writeLine, running.sound] at wrote
  obtain ⟨rotated, moved, ended⟩ := Option.bind_eq_some_iff.mp wrote
  obtain ⟨path, writing⟩ : ∃ path, rotated.writer = some path := by
    obtain ⟨-, rfl⟩ | ⟨-, later, -, accounted, -⟩ := running.rotated moved
    · exact ⟨_, running.writing⟩
    · exact ⟨_, accounted.writing⟩
  rw [writing] at ended
  exact ⟨rotated, path, moved, writing, (Option.some.inj ended).symm⟩

theorem logWriter_cleanup {directory : LogDirectory} :
    (spawnWriter config directory = some log →
      ∃ before, BeforeCleanup config before ∧ log = before.enforceQuota) ∧
    ((logWriter config).Reachable log → log.writeLine line = some next →
      ∃ before, BeforeCleanup config before ∧ next = before.enforceQuota) := by
  refine ⟨fun spawned => ?_, fun reached wrote => ?_⟩
  · obtain ⟨opened, made, started⟩ := spawnWriter_enforced spawned
    exact ⟨_, .startup made, started⟩
  · obtain ⟨last, index, running⟩ := reachable_running reached
    obtain ⟨rotated, path, moved, writing, ended⟩ := running.wrote wrote
    exact ⟨_, .written reached moved writing, ended⟩

theorem Running.written {rotated : FileWriter} {path : String}
    (running : Running config log last index) (moved : log.rotateIfNeeded = some rotated)
    (writing : rotated.writer = some path) (line : List UInt8) :
    ∃ last index, Running config (rotated.writeAll path line) last index := by
  obtain ⟨last, index, accounted, total, cleanup⟩ : ∃ last index,
      rotated.Accounted last index ∧ rotated.maxTotalBytes = log.maxTotalBytes ∧
        rotated.cleanupTargetBytes = log.cleanupTargetBytes := by
    obtain ⟨-, rfl⟩ | ⟨-, later, -, accounted, -, -, -, total, cleanup⟩ := running.rotated moved
    · exact ⟨last, index, running.toAccounted, rfl, rfl⟩
    · exact ⟨_, later, accounted, total, cleanup⟩
  obtain rfl := Option.some.inj (accounted.writing.symm.trans writing)
  refine ⟨_, index, { toAccounted := accounted.written line, quota := ?_, low := ?_ }⟩
  · exact total.trans running.quota
  · have low := running.low
    rw [← total, ← cleanup] at low
    exact low

theorem BeforeCleanup.running (found : BeforeCleanup config log) :
    ∃ last index, Running config log last index := by
  cases found with
  | startup made =>
      obtain ⟨index, running⟩ := limited_running made
      exact ⟨_, index, running⟩
  | written reached moved writing =>
      obtain ⟨last, index, running⟩ := reachable_running reached
      exact running.written moved writing _

/-- The share of the quota that a cleanup is to leave. -/
def WriterConfig.cleanupTarget (config : WriterConfig) : Nat :=
  config.maxTotalBytes * config.cleanupTargetPercent / 100

/-- A cleanup above the quota deletes just the oldest segments that leave what the target
allows. -/
def CleansUp (config : WriterConfig) (log : FileWriter) : Prop :=
  config.maxTotalBytes < log.totalBytes → ∃ count, Deletes log count ∧
    Fewest (Down config.cleanupTarget log.activePath) log.segments count

theorem validate_percent {config : LoggingConfig} (valid : config.validate = .ok ())
    (enabled : config.enabled = true) : config.cleanupTargetPercent ≤ 100 := by
  rw [LoggingConfig.validate, enabled, if_neg (by decide)] at valid
  split at valid
  next => cases valid
  split at valid
  next => cases valid
  split at valid
  next => cases valid
  next inRange => omega

/-- A cleanup ends at the watermark exactly when deleting down to the quota ends there. -/
theorem cleanup_target {config : LoggingConfig} (valid : config.validate = .ok ())
    (enabled : config.enabled = true) {log : FileWriter}
    (found : BeforeCleanup config.writerConfig log) :
    CleansUp config.writerConfig log ↔
      (config.writerConfig.maxTotalBytes < log.totalBytes → ∀ count,
        Fewest (Down config.writerConfig.maxTotalBytes log.activePath) log.segments count →
          Down config.writerConfig.cleanupTarget log.activePath (log.segments.drop count)) := by
  have below : config.writerConfig.cleanupTarget ≤ config.writerConfig.maxTotalBytes := by
    have percent := validate_percent valid enabled
    refine Nat.div_le_of_le_mul ?_
    rw [Nat.mul_comm]
    exact Nat.mul_le_mul_right _ percent
  obtain ⟨last, index, running⟩ := found.running
  obtain ⟨count, fewest, deletes⟩ := enforceQuota_fewest running
  refine imp_congr_right fun _ => ⟨?_, ?_⟩
  · rintro ⟨other, deleted, reached⟩ wanted least
    rw [least.unique fewest, ← deletes.1, deleted.1]
    exact reached.1
  · intro reaches
    exact ⟨count, deletes, reaches count fewest, fun fewer less down =>
      fewest.2 fewer less (down.mono below)⟩

def twoSegments (first second : List UInt8) : LogDirectory where
  files := [(segmentName 1, first), (segmentName 2, second)]
  distinct := by
    have apart : segmentName 1 ≠ segmentName 2 := by decide +kernel
    simp [apart]

theorem limited_opened {directory : LogDirectory} {first second : SegmentMeta}
    (scanned : (scan directory config.maxFileBytes).segments = [first, second])
    (follows : nextSegmentIndex [first, second] = index)
    (free : directory.content (segmentName index) = none) :
    ∃ opened, (scan directory config.maxFileBytes).openFreshSegment = some opened ∧
      (limited config opened).segments = [first, second, ⟨segmentName index, 0⟩] := by
  rw [← follows, ← scanned] at free ⊢
  obtain ⟨made, -, opened⟩ := open_free free
  refine ⟨_, opened, ?_⟩
  rw [limited, withLimits_segments]
  dsimp only
  rw [scanned]
  rfl

theorem startup_twoSegments (config : WriterConfig) (first second : List UInt8) :
    ∃ opened, (scan (twoSegments first second) config.maxFileBytes).openFreshSegment =
        some opened ∧
      (limited config opened).segments = [⟨segmentName 1, first.length⟩,
        ⟨segmentName 2, second.length⟩, ⟨segmentName 3, 0⟩] := by
  refine limited_opened ?_ ?_ ?_
  · refine scan_sorted ?_ ?_
    · simp [twoSegments, extension_segmentName]
    · have order : segmentName 1 ≤ segmentName 2 := by decide +kernel
      simpa [twoSegments] using order
  · rw [nextSegmentIndex]
    simp [segmentIndex_segmentName (by decide : 1 ≤ u32Max),
      segmentIndex_segmentName (by decide : 2 ≤ u32Max)]
    decide
  · exact LogDirectory.content_none.mpr
      (by decide +kernel : segmentName 3 ∉ [segmentName 1, segmentName 2])

theorem fewest_one {bound first second : Nat} {activePath : Option String} {one two three : String}
    (most : second ≤ bound) (above_ : bound < first + second) :
    Fewest (Down bound activePath) [⟨one, first⟩, ⟨two, second⟩, ⟨three, 0⟩] 1 := by
  refine ⟨.inl most, fun fewer below => ?_⟩
  rw [Nat.lt_one_iff.mp below]
  rintro (within | ⟨segment, alone, -⟩)
  · exact absurd above_ (Nat.not_lt.mpr within)
  · simp at alone

theorem quotaConfig_quota : quotaConfig.writerConfig.maxTotalBytes = 1048576 := by
  decide +kernel

theorem quotaConfig_target : quotaConfig.writerConfig.cleanupTarget = 838860 := by
  decide +kernel

theorem cleanup_target_small : ∃ log, BeforeCleanup quotaConfig.writerConfig log ∧
    log.segments = [⟨segmentName 1, fullLine.length⟩, ⟨segmentName 2, 1⟩, ⟨segmentName 3, 0⟩] ∧
      CleansUp quotaConfig.writerConfig log := by
  obtain ⟨opened, made, segments⟩ :=
    startup_twoSegments quotaConfig.writerConfig fullLine [120]
  have length : fullLine.length = 1048576 := List.length_replicate
  have found : BeforeCleanup quotaConfig.writerConfig (limited _ opened) := .startup made
  refine ⟨_, found, segments, (cleanup_target rfl rfl found).mpr fun _ count fewest => ?_⟩
  have one : count = 1 := by
    rw [segments, length, quotaConfig_quota] at fewest
    exact fewest.unique (fewest_one (by decide) (by decide))
  rw [one, segments, quotaConfig_target]
  exact .inl (by decide)

theorem cleanup_target_missed : ¬ ∀ config : LoggingConfig, config.validate = .ok () →
    config.enabled = true → ∀ log, BeforeCleanup config.writerConfig log →
      CleansUp config.writerConfig log := by
  intro claim
  obtain ⟨opened, made, segments⟩ :=
    startup_twoSegments quotaConfig.writerConfig [120] fullLine
  have length : fullLine.length = 1048576 := List.length_replicate
  have found : BeforeCleanup quotaConfig.writerConfig (limited _ opened) := .startup made
  obtain ⟨last, index, running⟩ := found.running
  have above : quotaConfig.writerConfig.maxTotalBytes <
      (limited quotaConfig.writerConfig opened).totalBytes := by
    rw [running.total, segments, length, quotaConfig_quota]
    decide
  obtain ⟨count, deletes, reached, -⟩ := claim quotaConfig rfl rfl _ found above
  obtain ⟨stopped, fewest, deleted⟩ := enforceQuota_fewest running
  have one : stopped = 1 := by
    rw [segments, length, quotaConfig_quota] at fewest
    exact fewest.unique (fewest_one (by decide) (by decide))
  rw [← deletes.1, deleted.1, one, segments, length, quotaConfig_target] at reached
  rcases reached with within | ⟨segment, alone, -⟩
  · exact absurd within (by decide)
  · simp at alone

end ClineProxy
