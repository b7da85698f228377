import ClineProxy.LogAccounts

/-!
The accounts of the log writer over whole runs, and when its quota holds.
-/

namespace ClineProxy

open FileWriter TransitionSystem.System

variable {config : WriterConfig} {log next later : FileWriter} {line : List UInt8}

structure Running (config : WriterConfig) (log : FileWriter) (last : SegmentMeta) (index : Nat) :
    Prop extends log.Accounted last index where
  quota : log.maxTotalBytes = config.maxTotalBytes
  low : log.cleanupTargetBytes ≤ log.maxTotalBytes

theorem cleanupTarget_le (total percent : Nat) :
    saturatingMul total (min percent 100) / 100 ≤ total := by
  have part : saturatingMul total (min percent 100) ≤ total * 100 :=
    (Nat.min_le_left ..).trans (Nat.mul_le_mul_left total (Nat.min_le_right ..))
  exact Nat.div_le_of_le_mul (part.trans (Nat.mul_comm ..).le)

theorem Running.enforced {last : SegmentMeta} {index : Nat}
    (running : Running config log last index) : Running config log.enforceQuota last index where
  toAccounted := running.toAccounted.enforced
  quota := running.quota
  low := running.low

def withLimits (total cleanup : Nat) (opened : FileWriter) : FileWriter :=
  { opened with
    maxTotalBytes := total
    cleanupTargetBytes := cleanup }

theorem withLimits_directory (total cleanup : Nat) (opened : FileWriter) :
    (withLimits total cleanup opened).directory = opened.directory := rfl

theorem withLimits_segments (total cleanup : Nat) (opened : FileWriter) :
    (withLimits total cleanup opened).segments = opened.segments := rfl

theorem withLimits_accounted {last : SegmentMeta} {index : Nat} (total cleanup : Nat)
    (accounted : log.Accounted last index) :
    (withLimits total cleanup log).Accounted last index where
  total := accounted.total
  distinct := accounted.distinct
  recorded := accounted.recorded
  ends := accounted.ends
  name := accounted.name
  bound := accounted.bound
  writing := accounted.writing
  active := accounted.active
  newest := accounted.newest
  sound := accounted.sound

def limited (config : WriterConfig) (opened : FileWriter) : FileWriter :=
  withLimits config.maxTotalBytes
    (saturatingMul config.maxTotalBytes (min config.cleanupTargetPercent 100) / 100) opened

theorem limited_running {directory : LogDirectory} {opened : FileWriter}
    (made : (scan directory config.maxFileBytes).openFreshSegment = some opened) :
    ∃ index, Running config (limited config opened) ⟨segmentName index, 0⟩ index := by
  obtain ⟨index, accounted, -⟩ :=
    opened_accounted (scan_booked directory config.maxFileBytes) rfl made
  exact ⟨index, {
    toAccounted := withLimits_accounted _ _ accounted
    quota := rfl
    low := cleanupTarget_le .. }⟩

theorem spawnWriter_eq {directory : LogDirectory}
    (spawned : spawnWriter config directory = some log) :
    ∃ opened, (scan directory config.maxFileBytes).openFreshSegment = some opened ∧
      (if (limited config opened).maxTotalBytes < (limited config opened).totalBytes then
        (limited config opened).enforceQuota else limited config opened) = log := by
  obtain ⟨opened, made, rest⟩ := Option.bind_eq_some_iff.mp spawned
  exact ⟨opened, made, Option.some.inj rest⟩

theorem spawnWriter_running {directory : LogDirectory}
    (spawned : spawnWriter config directory = some log) :
    (∃ last index, Running config log last index) ∧ log.totalBytes ≤ config.maxTotalBytes := by
  obtain ⟨opened, made, started⟩ := spawnWriter_eq spawned
  obtain ⟨index, running⟩ := limited_running made
  split at started
  next =>
    rw [← started]
    exact ⟨⟨_, index, running.enforced⟩,
      (running.toAccounted.enforced_within running.low).mpr (Nat.zero_le _)⟩
  next within =>
    rw [← started]
    exact ⟨⟨_, index, running⟩, Nat.le_of_not_lt within⟩

theorem Running.step {last : SegmentMeta} {index : Nat} (running : Running config log last index)
    (wrote : log.writeLine line = some next) :
    ∃ last' index', Running config next last' index' ∧ index ≤ index' ∧
      ∀ path ≠ last'.path, log.Kept next path := by
  obtain ⟨last', index', accounted, moved, -, kept, total, cleanup, -⟩ :=
    running.toAccounted.step wrote
  have running' : Running config next last' index' := {
    toAccounted := accounted
    quota := total.trans running.quota
    low := by
      rw [cleanup, total]
      exact running.low }
  exact ⟨last', index', running', by omega, kept⟩

theorem reachable_running (reached : (logWriter config).Reachable log) :
    ∃ last index, Running config log last index := by
  refine reached.invariant (fun _ ⟨directory, spawned⟩ => (spawnWriter_running spawned).1) ?_
  intro log line next _ ⟨last, index, running⟩ wrote
  obtain ⟨last', index', running', -⟩ := running.step wrote
  exact ⟨last', index', running'⟩

theorem Running.path {last segment : SegmentMeta} {index : Nat}
    (running : Running config log last index)
    (path : (logWriter config).PathWhere (fun _ _ => True) log later)
    (member : segment ∈ log.segments) (inactive : log.activePath ≠ some segment.path) :
    (∃ last' index', Running config later last' index' ∧ index ≤ index' ∧
      last'.path ≠ segment.path) ∧ log.Kept later segment.path := by
  have distinct {last' : SegmentMeta} {index' : Nat} (above : index ≤ index')
      {later : FileWriter} (running' : Running config later last' index') :
      last'.path ≠ segment.path := by
    intro same
    have named : segmentIndex segment.path = some index' := by
      rw [← same, running'.name]
      exact segmentIndex_segmentName running'.bound
    have least := running.newest segment member index' named
    obtain rfl : index' = index := by omega
    rw [running.active, running.name, ← running'.name, same] at inactive
    exact inactive rfl
  induction path with
  | refl => exact ⟨⟨last, index, running, le_rfl, distinct le_rfl running⟩, .inl rfl⟩
  | step before _ wrote ih =>
      obtain ⟨⟨between, index', running', above, -⟩, kept⟩ := ih
      obtain ⟨last', index'', running'', further, unchanged⟩ := running'.step wrote
      have different := distinct (above.trans further) running''
      refine ⟨⟨last', index'', running'', above.trans further, different⟩, ?_⟩
      rcases unchanged segment.path different.symm with same | gone
      · rcases kept with first | first
        · exact .inl (same.trans first)
        · exact .inr (same.trans first)
      · exact .inr gone

/-- The recorded paths differ, the sizes are those of the files and add up to the total, the last
recorded segment is the one written, no other recorded segment is written again, and what is
written stays in its file. -/
theorem segment_accounting (reached : (logWriter config).Reachable log) :
    (∃ last index, log.Accounted last index) ∧
    (∀ line next, log.writeLine line = some next → ∃ path, next.activePath = some path ∧
      next.directory.content path = some
        ((if log.activePath = some path then (log.directory.content path).getD [] else []) ++
          (line ++ [10]))) ∧
    ∀ later, (logWriter config).PathWhere (fun _ _ => True) log later →
      ∀ segment ∈ log.segments, log.activePath ≠ some segment.path →
        later.activePath ≠ some segment.path ∧ log.Kept later segment.path := by
  obtain ⟨last, index, running⟩ := reachable_running reached
  refine ⟨⟨last, index, running.toAccounted⟩, fun line next wrote => ?_,
    fun later path segment member inactive => ?_⟩
  · obtain ⟨last', index', accounted, -, content, -⟩ := running.toAccounted.step wrote
    exact ⟨last'.path, accounted.active, content⟩
  · obtain ⟨⟨last', index', running', -, different⟩, kept⟩ :=
      running.path path member inactive
    refine ⟨fun same => different ?_, kept⟩
    exact Option.some.inj (running'.active.symm.trans same)

def emptyDirectory : LogDirectory := ⟨[], List.nodup_nil⟩

def quotaConfig : LoggingConfig := ⟨some "logs", 1, 1, 80, 1000⟩

def startedLog : FileWriter :=
  (spawnWriter quotaConfig.writerConfig emptyDirectory).get (by decide +kernel)

theorem startedLog_reachable : (logWriter quotaConfig.writerConfig).Reachable startedLog :=
  .initial ⟨emptyDirectory, (Option.some_get _).symm⟩

def rollingConfig : LoggingConfig := ⟨some "logs", 1, 2, 50, 1000⟩

def rolledLog (directory : LogDirectory) (active : String) : FileWriter where
  directory := directory
  maxFileBytes := rollingConfig.writerConfig.maxFileBytes
  maxTotalBytes := rollingConfig.writerConfig.maxTotalBytes
  cleanupTargetBytes := 1048576
  segments := directory.files.map fun file => ⟨file.1, file.2.length⟩
  totalBytes := (directory.files.map fun file => file.2.length).sum
  writer := some active
  activePath := some active
  degraded := false

def oneFile (first : List UInt8) : LogDirectory := ⟨[(segmentName 1, first)], List.nodup_singleton _⟩

theorem rolled_started : spawnWriter rollingConfig.writerConfig emptyDirectory =
    some (rolledLog (oneFile []) (segmentName 1)) := by
  decide +kernel

def twoFiles (first second : List UInt8) : LogDirectory :=
  ⟨[(segmentName 1, first), (segmentName 2, second)],
    (by decide +kernel : [segmentName 1, segmentName 2].Nodup)⟩

def threeFiles (first second third : List UInt8) : LogDirectory :=
  ⟨[(segmentName 1, first), (segmentName 2, second), (segmentName 3, third)],
    (by decide +kernel : [segmentName 1, segmentName 2, segmentName 3].Nodup)⟩

theorem rolling_limits : rollingConfig.writerConfig.maxFileBytes = 1048576 ∧
    rollingConfig.writerConfig.maxTotalBytes = 2097152 := by decide +kernel

def fillingLine : List UInt8 := List.replicate 1048575 120

theorem fillingLine_length : (fillingLine ++ [10]).length = 1048576 := by
  rw [List.length_append, fillingLine, List.length_replicate]
  rfl

theorem rolled_first (line : List UInt8) (short : line.length + 1 ≤ 2097152) :
    (rolledLog (oneFile []) (segmentName 1)).writeLine line =
      some (rolledLog (oneFile (line ++ [10])) (segmentName 1)) := by
  have stays : (rolledLog (oneFile []) (segmentName 1)).rotateIfNeeded =
      some (rolledLog (oneFile []) (segmentName 1)) := by decide +kernel
  have written : (rolledLog (oneFile []) (segmentName 1)).writeAll (segmentName 1) line =
      rolledLog (oneFile (line ++ [10])) (segmentName 1) := by
    simp [rolledLog, oneFile, writeAll, LogDirectory.append, List.modifyLast, List.modifyLast.go]
  rw [writeLine, stays]
  change some ((writeAll (segmentName 1) line _).enforceQuota) = _
  rw [written, enforceQuota_within]
  simp [rolledLog, oneFile, rolling_limits, short]

theorem rolled_second (first line : List UInt8) (full : first.length = 1048576)
    (short : line.length + 1 ≤ 1048576) :
    (rolledLog (oneFile first) (segmentName 1)).writeLine line =
      some (rolledLog (twoFiles first (line ++ [10])) (segmentName 2)) := by
  have follows : nextSegmentIndex [⟨segmentName 1, first.length⟩] = 2 := by
    simp [nextSegmentIndex, segmentIndex_segmentName (by decide : 1 ≤ u32Max)]
    decide
  have created : (oneFile first).createNew (segmentName 2) = some (twoFiles first []) :=
    dif_neg (by decide +kernel : segmentName 2 ∉ [segmentName 1])
  have opened : (rolledLog (oneFile first) (segmentName 1)).rotateIfNeeded =
      some (rolledLog (twoFiles first []) (segmentName 2)) := by
    rw [rotateIfNeeded, if_pos (by simp [rolledLog, oneFile, activeFull, rolling_limits, full])]
    rw [openFreshSegment_next follows created]
    simp [rolledLog, oneFile, twoFiles]
  have different : segmentName 1 ≠ segmentName 2 := by decide +kernel
  have written : (rolledLog (twoFiles first []) (segmentName 2)).writeAll (segmentName 2) line =
      rolledLog (twoFiles first (line ++ [10])) (segmentName 2) := by
    simp [rolledLog, twoFiles, writeAll, LogDirectory.append, List.modifyLast, List.modifyLast.go,
      different]
  rw [writeLine, opened]
  change some ((writeAll (segmentName 2) line _).enforceQuota) = _
  rw [written, enforceQuota_within]
  simp [rolledLog, twoFiles, rolling_limits, full]
  omega

theorem rolled_third (first second line : List UInt8) (full : first.length = 1048576)
    (filled : second.length = 1048576) (short : line.length + 1 ≤ 1048576) :
    (rolledLog (twoFiles first second) (segmentName 2)).writeLine line =
      some (rolledLog ((threeFiles first second (line ++ [10])).removeFile (segmentName 1))
        (segmentName 3)) := by
  have follows : nextSegmentIndex [⟨segmentName 1, first.length⟩,
      ⟨segmentName 2, second.length⟩] = 3 := by
    simp [nextSegmentIndex, segmentIndex_segmentName (by decide : 1 ≤ u32Max),
      segmentIndex_segmentName (by decide : 2 ≤ u32Max)]
    decide
  have created : (twoFiles first second).createNew (segmentName 3) =
      some (threeFiles first second []) :=
    dif_neg (by decide +kernel : segmentName 3 ∉ [segmentName 1, segmentName 2])
  have distinct : segmentName 1 ≠ segmentName 2 ∧ segmentName 1 ≠ segmentName 3 ∧
      segmentName 2 ≠ segmentName 3 := by decide +kernel
  have opened : (rolledLog (twoFiles first second) (segmentName 2)).rotateIfNeeded =
      some (rolledLog (threeFiles first second []) (segmentName 3)) := by
    rw [rotateIfNeeded, if_pos (by
      simp [rolledLog, twoFiles, activeFull, rolling_limits, filled, distinct])]
    rw [openFreshSegment_next follows created]
    simp [rolledLog, twoFiles, threeFiles]
  have written : (rolledLog (threeFiles first second []) (segmentName 3)).writeAll
      (segmentName 3) line = rolledLog (threeFiles first second (line ++ [10])) (segmentName 3) := by
    simp [rolledLog, threeFiles, writeAll, LogDirectory.append, List.modifyLast,
      List.modifyLast.go, distinct, Nat.add_assoc]
  rw [writeLine, opened]
  change some ((writeAll (segmentName 3) line _).enforceQuota) = _
  rw [written]
  have above : ¬1048576 + (1048576 + (line.length + 1)) ≤ 2097152 := by omega
  have below : 1048576 + (line.length + 1) ≤ 2097152 := by omega
  simp [rolledLog, threeFiles, enforceQuota, evict, rolling_limits, full, filled, above, below,
    distinct.1.symm, distinct.2.1.symm, LogDirectory.removeFile]

def rolledTwice : FileWriter :=
  rolledLog (twoFiles (fillingLine ++ [10]) (fillingLine ++ [10])) (segmentName 2)

def rolledOut : FileWriter :=
  rolledLog ((threeFiles (fillingLine ++ [10]) (fillingLine ++ [10]) [120, 10]).removeFile
    (segmentName 1)) (segmentName 3)

theorem rolled_writes :
    (rolledLog (oneFile []) (segmentName 1)).writeLine fillingLine =
        some (rolledLog (oneFile (fillingLine ++ [10])) (segmentName 1)) ∧
      (rolledLog (oneFile (fillingLine ++ [10])) (segmentName 1)).writeLine fillingLine =
        some rolledTwice ∧
      rolledTwice.writeLine [120] = some rolledOut := by
  have length : fillingLine.length + 1 = 1048576 := by
    rw [fillingLine, List.length_replicate]
  refine ⟨rolled_first _ (by omega), rolled_second _ _ fillingLine_length (by omega),
    rolled_third _ _ _ fillingLine_length fillingLine_length (by decide)⟩

theorem rolledTwice_reachable :
    (logWriter rollingConfig.writerConfig).Reachable rolledTwice :=
  .step (.step (.initial ⟨emptyDirectory, rolled_started⟩) trivial rolled_writes.1) trivial
    rolled_writes.2.1

theorem segment_accounting_rolled :
    (∃ last index, rolledOut.Accounted last index) ∧
      (∃ path, rolledOut.activePath = some path ∧
        rolledOut.directory.content path = some
          ((if rolledTwice.activePath = some path then
            (rolledTwice.directory.content path).getD [] else []) ++ ([120] ++ [10]))) ∧
      rolledOut.activePath ≠ some (segmentName 1) ∧ rolledTwice.Kept rolledOut (segmentName 1) := by
  obtain ⟨-, contents, kept⟩ := segment_accounting rolledTwice_reachable
  have wrote := rolled_writes.2.2
  have inactive : rolledTwice.activePath ≠ some (segmentName 1) :=
    (by decide +kernel : some (segmentName 2) ≠ some (segmentName 1))
  exact ⟨(segment_accounting (rolledTwice_reachable.next wrote)).1, contents [120] _ wrote,
    kept rolledOut (.step (.refl _) trivial wrote) _ List.mem_cons_self inactive⟩

def WithinQuota (config : WriterConfig) (log : FileWriter) : Prop :=
  (log.segments.map SegmentMeta.bytes).sum ≤ config.maxTotalBytes

/-- The active segment alone, or a fresh one when it is full, has room for the line under the
quota. -/
def LeavesRoom (config : WriterConfig) (log : FileWriter) (line : List UInt8) : Prop :=
  let active := log.activePath.bind fun active =>
    log.segments.find? fun segment => segment.path == active
  (if log.activeFull then 0 else (active.map SegmentMeta.bytes).getD 0) + (line.length + 1) ≤
    config.maxTotalBytes

theorem withinQuota_iff {last : SegmentMeta} {index : Nat}
    (running : Running config log last index) (wrote : log.writeLine line = some next) :
    WithinQuota config next ↔ LeavesRoom config log line := by
  obtain ⟨last', index', accounted, moved, -, -, -, -, within⟩ := running.toAccounted.step wrote
  rw [WithinQuota, LeavesRoom, ← accounted.total, ← running.quota, within running.low,
    running.active, Option.bind_some, running.find_active]
  rcases moved with ⟨room, -, size⟩ | ⟨full, -, size⟩
  · rw [room, size]
    exact Iff.rfl
  · rw [full, size]
    simp

/-- A line is within the quota afterwards if and only if the active segment has room for it. -/
theorem log_quota :
    (∀ log, (logWriter config).ReachableWhere (LeavesRoom config) log → WithinQuota config log) ∧
    ∀ log line next, (logWriter config).Reachable log → log.writeLine line = some next →
      (WithinQuota config next ↔ LeavesRoom config log line) := by
  have each : ∀ log line next, (logWriter config).Reachable log →
      log.writeLine line = some next →
      (WithinQuota config next ↔ LeavesRoom config log line) := by
    intro log line next reached wrote
    obtain ⟨last, index, running⟩ := reachable_running reached
    exact withinQuota_iff running wrote
  refine ⟨fun log reached => ?_, each⟩
  induction reached with
  | initial begun =>
      obtain ⟨directory, spawned⟩ := begun
      obtain ⟨⟨last, index, running⟩, within⟩ := spawnWriter_running spawned
      rw [WithinQuota, ← running.total]
      exact within
  | step before room wrote ih => exact (each _ _ _ before.reachable wrote).mpr room

theorem log_quota_rolled : WithinQuota rollingConfig.writerConfig rolledOut ∧
    (WithinQuota rollingConfig.writerConfig rolledOut ↔
      LeavesRoom rollingConfig.writerConfig rolledTwice [120]) := by
  have length : fillingLine.length + 1 = 1048576 := by
    rw [fillingLine, List.length_replicate]
  have distinct : segmentName 1 ≠ segmentName 2 := by decide +kernel
  obtain ⟨first, second, third⟩ := rolled_writes
  obtain ⟨within, exactly⟩ := @log_quota rollingConfig.writerConfig
  refine ⟨within rolledOut (.step (.step (.step (.initial ⟨emptyDirectory, rolled_started⟩) ?_ first)
    ?_ second) ?_ third), exactly _ _ _ rolledTwice_reachable third⟩
  · simp [LeavesRoom, rolledLog, oneFile, rolling_limits, length]
  · simp [LeavesRoom, rolledLog, oneFile, rolling_limits, length, activeFull]
  · simp [LeavesRoom, rolledTwice, rolledLog, twoFiles, rolling_limits, length, activeFull, distinct]

def fullLine : List UInt8 := List.replicate 1048576 120

theorem log_quota_exceeded : ¬ ∀ config : LoggingConfig, config.validate = .ok () →
    ∀ log, (logWriter config.writerConfig).ReachableWhere
      (fun _ line => line.length ≤ config.writerConfig.maxFileBytes) log →
      WithinQuota config.writerConfig log := by
  intro claim
  have length : fullLine.length = 1048576 := List.length_replicate
  have limits : quotaConfig.writerConfig.maxFileBytes = 1048576 ∧
      quotaConfig.writerConfig.maxTotalBytes = 1048576 := by decide +kernel
  have stays : startedLog.rotateIfNeeded = some startedLog :=
    if_neg (by decide +kernel : ¬(startedLog.writer.isNone || startedLog.activeFull) = true)
  have wrote : startedLog.writeLine fullLine =
      some (startedLog.writeAll "events-000001.jsonl" fullLine).enforceQuota := by
    rw [writeLine, (by decide +kernel : startedLog.degraded = false), stays]
    dsimp only [Option.bind_eq_bind, Option.bind_some]
    rw [(by decide +kernel : startedLog.writer = some "events-000001.jsonl")]
    rfl
  have reached : (logWriter quotaConfig.writerConfig).ReachableWhere
      (fun _ line => line.length ≤ quotaConfig.writerConfig.maxFileBytes)
      (startedLog.writeAll "events-000001.jsonl" fullLine).enforceQuota := by
    refine .step (.initial ⟨emptyDirectory, (Option.some_get _).symm⟩) ?_ wrote
    rw [length, limits.1]
  have within := claim quotaConfig rfl _ reached
  obtain ⟨last, index, running⟩ := reachable_running startedLog_reachable
  have room := (withinQuota_iff running wrote).mp within
  rw [LeavesRoom, length, limits.2] at room
  omega

end ClineProxy
