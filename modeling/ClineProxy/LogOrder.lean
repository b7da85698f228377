import ClineProxy.DigitOrder
import ClineProxy.LogCleanup

/-! The order in which the segments of a directory are deleted, over the restarts of the writer. -/

namespace ClineProxy

open FileWriter DigitOrder

theorem sixDigits_isDigits (index : Nat) : Digits (sixDigits index) := by
  intro digit member
  rcases List.mem_append.mp member with zero | written
  · rw [List.eq_of_mem_replicate zero]
    rfl
  · exact Nat.isDigit_of_mem_toDigits (by decide) (by decide) written

theorem value_sixDigits (index : Nat) : value (sixDigits index) = index :=
  (digitsValue_eq _).symm.trans (digitsValue_sixDigits index)

theorem sixDigits_length_le {first second : Nat} (before : first ≤ second) :
    (sixDigits first).length ≤ (sixDigits second).length := by
  have length (index : Nat) : (sixDigits index).length = max 6 (Nat.toDigits 10 index).length := by
    rw [sixDigits, List.length_append, List.length_replicate]
    omega
  have below : second < 10 ^ (Nat.toDigits 10 second).length :=
    (Nat.length_toDigits_le_iff (by decide) Nat.length_toDigits_pos).mp le_rfl
  have shorter : (Nat.toDigits 10 first).length ≤ (Nat.toDigits 10 second).length :=
    (Nat.length_toDigits_le_iff (by decide) Nat.length_toDigits_pos).mpr (before.trans_lt below)
  rw [length, length]
  omega

/-- The earlier number is not above the first digits of the later one, of which it has as many. -/
def InLine (first second : Nat) : Prop :=
  first ≤ second / 10 ^ ((sixDigits second).length - (sixDigits first).length)

instance (first second : Nat) : Decidable (InLine first second) := by
  unfold InLine
  infer_instance

theorem segmentName_toList (index : Nat) : (segmentName index).toList =
    "events-".toList ++ (sixDigits index ++ '.' :: "jsonl".toList) := by
  have parts : (segmentName index).toList =
      "events-".toList ++ sixDigits index ++ ".jsonl".toList := String.toList_ofList
  rw [parts, List.append_assoc, (by decide : ".jsonl".toList = '.' :: "jsonl".toList)]

theorem segmentName_lt {first second : Nat} (before : first < second)
    (inLine : InLine first second) : segmentName first < segmentName second := by
  have different : sixDigits first ≠ sixDigits second := by
    intro same
    rw [← value_sixDigits first, same, value_sixDigits] at before
    exact absurd before (Nat.lt_irrefl _)
  refine String.lt_iff.mpr ?_
  rw [segmentName_toList, segmentName_toList]
  refine List.append_left_lt (separated_lt (by decide) (sixDigits_isDigits first)
    (sixDigits_isDigits second) (sixDigits_length_le before.le) ?_ different _ _)
  rw [value_sixDigits, value_sixDigits]
  exact inLine

namespace LogDirectory

variable {directory made : LogDirectory}

def names (directory : LogDirectory) : List String := directory.files.map Prod.fst

def Own (directory : LogDirectory) : Prop :=
  ∃ indexes : List Nat, directory.names = indexes.map segmentName ∧
    indexes.Pairwise (· < ·) ∧ ∀ index ∈ indexes, index ≤ u32Max

def AllInLine (directory : LogDirectory) : Prop :=
  ∀ first second, segmentName first ∈ directory.names → segmentName second ∈ directory.names →
    first < second → second ≤ u32Max → InLine first second

theorem names_createNew {path : String} (created : directory.createNew path = some made) :
    path ∉ directory.names ∧ made.names = directory.names ++ [path] := by
  rw [createNew] at created
  split at created
  next => cases created
  next free =>
    cases created
    exact ⟨free, List.map_append⟩

theorem names_append (directory : LogDirectory) (path : String) (bytes : List UInt8) :
    (directory.append path bytes).names = directory.names := by
  rw [names, append, List.map_map]
  rfl

theorem names_removed (gone : List SegmentMeta) (directory : LogDirectory) :
    (gone.foldl (fun directory segment => directory.removeFile segment.path) directory).names =
      directory.names.filter fun name => name ∉ gone.map SegmentMeta.path := by
  induction gone generalizing directory with
  | nil => simp
  | cons segment rest ih =>
      have removed : (directory.removeFile segment.path).names =
          directory.names.filter fun name => name ≠ segment.path := by
        rw [names, names, List.filter_map]
        rfl
      rw [List.foldl_cons, ih, removed, List.filter_filter]
      refine List.filter_congr fun name _ => Bool.eq_iff_iff.mpr ?_
      rw [List.map_cons]
      simp only [Bool.and_eq_true, decide_eq_true_eq, List.mem_cons, not_or]
      exact and_comm

theorem Own.drop (own : directory.Own) {count : Nat}
    (left : made.names = directory.names.drop count) : made.Own := by
  obtain ⟨indexes, named, ascending, bound⟩ := own
  refine ⟨indexes.drop count, ?_, ascending.drop, fun index member => ?_⟩
  · rw [left, named, List.map_drop]
  · exact bound index (List.mem_of_mem_drop member)

theorem Own.same (own : directory.Own) (left : made.names = directory.names) : made.Own := by
  rw [Own, left]
  exact own

end LogDirectory

variable {log next before : FileWriter}

def Recorded (log : FileWriter) : Prop :=
  log.segments.map SegmentMeta.path = log.directory.names

theorem scan_directory (directory : LogDirectory) (maxFileBytes : Nat) :
    (scan directory maxFileBytes).directory = directory := rfl

theorem scan_recorded {directory : LogDirectory} {maxFileBytes : Nat} (own : directory.Own)
    (inLine : directory.AllInLine) : Recorded (scan directory maxFileBytes) := by
  obtain ⟨indexes, named, ascending, bound⟩ := own
  have segments : (scan directory maxFileBytes).segments =
      directory.files.map fun file => ⟨file.1, file.2.length⟩ := by
    refine scan_sorted (fun file member => ?_) (List.pairwise_map.mp ?_)
    · have listed : file.1 ∈ directory.names := List.mem_map_of_mem member
      rw [named] at listed
      obtain ⟨index, -, name⟩ := List.mem_map.mp listed
      rw [← name]
      exact extension_segmentName index
    · change directory.names.Pairwise (· ≤ ·)
      rw [named]
      refine List.pairwise_map.mpr (ascending.imp_of_mem ?_)
      intro first second firstMember secondMember less
      refine (segmentName_lt less (inLine first second ?_ ?_ less (bound second secondMember))).le
      · rw [named]
        exact List.mem_map_of_mem firstMember
      · rw [named]
        exact List.mem_map_of_mem secondMember
  rw [Recorded, segments, List.map_map]
  rfl

theorem Recorded.opened (recorded : Recorded log) (own : log.directory.Own)
    (opened : log.openFreshSegment = some next) : Recorded next ∧ next.directory.Own := by
  obtain ⟨index, made, least, most, created, rfl⟩ := open_cases opened
  obtain ⟨fresh, names⟩ := LogDirectory.names_createNew created
  obtain ⟨indexes, named, ascending, bound⟩ := own
  refine ⟨?_, indexes ++ [index], ?_, ?_, ?_⟩
  · change (log.segments ++ [_]).map SegmentMeta.path = made.names
    rw [names, List.map_append, recorded]
    rfl
  · rw [names, named, List.map_append]
    rfl
  · refine List.pairwise_append.mpr ⟨ascending, List.pairwise_singleton .., ?_⟩
    intro earlier member last single
    rw [List.mem_singleton.mp single]
    have listed : segmentName earlier ∈ log.directory.names := by
      rw [named]
      exact List.mem_map_of_mem member
    have different : earlier ≠ index := fun same => fresh (same ▸ listed)
    rw [← recorded] at listed
    obtain ⟨segment, recorded_, path⟩ := List.mem_map.mp listed
    have index_ := segmentIndex_segmentName (bound earlier member)
    rw [← path] at index_
    have above := (le_nextSegmentIndex recorded_ index_).trans least
    have := bound earlier member
    omega
  · intro other member
    rcases List.mem_append.mp member with old | new
    · exact bound other old
    · rw [List.mem_singleton.mp new]
      exact most

theorem Recorded.written (recorded : Recorded log) (path : String) (line : List UInt8) :
    Recorded (log.writeAll path line) := by
  rw [Recorded, writeAll]
  dsimp only
  rw [LogDirectory.names_append, ← recorded]
  cases log.segments using List.reverseRecOn with
  | nil => rfl
  | append_singleton before last =>
      rw [List.modifyLast_concat, List.map_append, List.map_append]
      rfl

/-- The segments that are deleted go one after another in the order of their creation. -/
def EvictsOldest (log : FileWriter) : Prop :=
  ∃ count, Deletes log count ∧
    (log.segments.take count).map SegmentMeta.path <+: log.directory.names

theorem Recorded.evicts (recorded : Recorded log) (booked : log.Booked) :
    EvictsOldest log ∧ ∃ count, Recorded log.enforceQuota ∧
      log.enforceQuota.directory.names = log.directory.names.drop count := by
  obtain ⟨gone, kept, parts, -, made⟩ := enforceQuota_cases booked
  have names : log.directory.names = gone.map SegmentMeta.path ++ kept.map SegmentMeta.path := by
    rw [← recorded, parts, List.map_append]
  have distinct := booked.distinct
  rw [parts, List.map_append, List.nodup_append] at distinct
  have left : log.enforceQuota.directory.names = kept.map SegmentMeta.path := by
    rw [made]
    dsimp only
    rw [LogDirectory.names_removed, names, List.filter_append, List.filter_eq_nil_iff.mpr,
      List.filter_eq_self.mpr, List.nil_append]
    · intro name member
      exact decide_eq_true fun gone_ => distinct.2.2 _ gone_ _ member rfl
    · intro name member
      simpa using member
  refine ⟨⟨gone.length, ⟨?_, ?_⟩, ?_⟩, gone.length, ?_, ?_⟩
  · rw [made, parts, List.drop_left]
  · rw [made, parts, List.take_left]
  · rw [parts, List.take_left, names]
    exact List.prefix_append ..
  · rw [Recorded, left, made]
  · rw [left, names, ← List.length_map SegmentMeta.path, List.drop_left]

inductive LogAction where
  | write (line : List UInt8)
  | restart (config : WriterConfig)

def stopped (directory : LogDirectory) : FileWriter :=
  { scan directory 0 with degraded := true }

/-- Lines are written, and processes take over the directory one after another. -/
def logHistory : TransitionSystem.System FileWriter LogAction where
  initial log := ∃ directory : LogDirectory, directory.Own ∧ log = stopped directory
  step log action :=
    match action with
    | .write line => log.writeLine line
    | .restart config => spawnWriter config log.directory

inductive Cleanup (log : FileWriter) : LogAction → FileWriter → Prop
  | write {rotated : FileWriter} {path : String} {line : List UInt8} : log.degraded = false →
      log.rotateIfNeeded = some rotated → rotated.writer = some path →
      Cleanup log (.write line) (rotated.writeAll path line)
  | restart {config : WriterConfig} {opened : FileWriter} :
      (scan log.directory config.maxFileBytes).openFreshSegment = some opened →
      Cleanup log (.restart config) (limited config opened)

/-- A process takes over the directory only while the numbers of its segments are in line. -/
def RestartsInLine (log : FileWriter) : LogAction → Prop
  | .write _ => True
  | .restart _ => log.directory.AllInLine

/-- What every run keeps. -/
structure InOrder (log : FileWriter) : Prop where
  own : log.directory.Own
  writes : log.degraded = false → Recorded log ∧ ∃ config last index, Running config log last index

theorem Cleanup.inOrder {action : LogAction} (inOrder : InOrder log)
    (inLine : RestartsInLine log action) (cleanup : Cleanup log action before) :
    before.directory.Own ∧ Recorded before ∧ ∃ config last index,
      Running config before last index := by
  cases cleanup with
  | @write rotated path line sound moved writing =>
      obtain ⟨recorded, config, last, index, running⟩ := inOrder.writes sound
      obtain ⟨last', index', running'⟩ := running.written moved writing line
      obtain ⟨recorded', own⟩ : Recorded rotated ∧ rotated.directory.Own := by
        rw [rotateIfNeeded] at moved
        split at moved
        next =>
          have closed : Recorded { log with writer := none, activePath := none } := recorded
          exact closed.opened inOrder.own moved
        next =>
          cases moved
          exact ⟨recorded, inOrder.own⟩
      refine ⟨own.same ?_, recorded'.written path line, config, last', index', running'⟩
      exact LogDirectory.names_append ..
  | @restart config opened made =>
      obtain ⟨index, running⟩ := limited_running made
      have recorded := @scan_recorded _ config.maxFileBytes inOrder.own inLine
      have scanned : (scan log.directory config.maxFileBytes).directory.Own := by
        rw [scan_directory]
        exact inOrder.own
      obtain ⟨recorded', own⟩ := recorded.opened scanned made
      refine ⟨?_, ?_, config, _, index, running⟩
      · rw [limited, withLimits_directory]
        exact own
      · rw [Recorded, limited, withLimits_segments, withLimits_directory]
        exact recorded'

theorem logHistory_step {action : LogAction} (inOrder : InOrder log)
    (stepped : logHistory.step log action = some next) :
    next = log ∨ ∃ before, Cleanup log action before ∧ next = before.enforceQuota := by
  cases action with
  | write line =>
      have wrote : log.writeLine line = some next := stepped
      cases sound : log.degraded with
      | true =>
          rw [writeLine, sound] at wrote
          exact .inl (Option.some.inj wrote).symm
      | false =>
          obtain ⟨-, config, last, index, running⟩ := inOrder.writes sound
          obtain ⟨rotated, path, moved, writing, ended⟩ := running.wrote wrote
          exact .inr ⟨_, .write sound moved writing, ended⟩
  | restart config =>
      obtain ⟨opened, made, started⟩ := spawnWriter_enforced stepped
      exact .inr ⟨_, .restart made, started⟩

theorem logHistory_inOrder (reached : logHistory.ReachableWhere RestartsInLine log) :
    InOrder log := by
  refine reached.invariant ?_ ?_
  · rintro log ⟨directory, own, rfl⟩
    exact ⟨own, fun sound => by cases sound⟩
  · intro log action next _ inOrder inLine stepped
    rcases logHistory_step inOrder stepped with rfl | ⟨before, cleanup, rfl⟩
    · exact inOrder
    · obtain ⟨own, recorded, config, last, index, running⟩ := cleanup.inOrder inOrder inLine
      obtain ⟨-, count, recorded', names⟩ := recorded.evicts running.toBooked
      exact ⟨own.drop names, fun _ => ⟨recorded', config, last, index, running.enforced⟩⟩

/-- While the numbers are in line whenever a process takes over the directory, every cleanup
deletes the oldest segments first. -/
theorem evicts_oldest {action : LogAction}
    (reached : logHistory.ReachableWhere RestartsInLine log)
    (inLine : RestartsInLine log action) (cleanup : Cleanup log action before) :
    EvictsOldest before := by
  obtain ⟨-, recorded, config, last, index, running⟩ :=
    cleanup.inOrder (logHistory_inOrder reached) inLine
  exact (recorded.evicts running.toBooked).1

theorem inLine_of_length {first second : Nat} (before : first < second)
    (same : (sixDigits second).length = (sixDigits first).length) : InLine first second := by
  rw [InLine, same, Nat.sub_self, Nat.pow_zero, Nat.div_one]
  exact before.le

theorem twoSegments_own (first second : List UInt8) : (twoSegments first second).Own :=
  ⟨[1, 2], rfl, by decide, by decide⟩

theorem twoSegments_allInLine (first second : List UInt8) :
    (twoSegments first second).AllInLine := by
  intro earlier later earlierMember laterMember less most
  have known {index : Nat} (bound : index ≤ u32Max)
      (member : segmentName index ∈ (twoSegments first second).names) : index = 1 ∨ index = 2 := by
    change segmentName index ∈ [segmentName 1, segmentName 2] at member
    rcases List.mem_pair.mp member with one | two
    · exact .inl (segmentName_inj bound (by decide) one)
    · exact .inr (segmentName_inj bound (by decide) two)
  rcases known most laterMember with rfl | rfl
  · rcases known (less.le.trans most) earlierMember with rfl | rfl <;> omega
  · rcases known (less.le.trans most) earlierMember with rfl | rfl
    · exact inLine_of_length less (by decide +kernel)
    · omega

theorem evicts_oldest_two : ∃ before,
    Cleanup (stopped (twoSegments fullLine [120])) (.restart quotaConfig.writerConfig) before ∧
      EvictsOldest before := by
  obtain ⟨opened, made, -⟩ := startup_twoSegments quotaConfig.writerConfig fullLine [120]
  have cleanup : Cleanup (stopped (twoSegments fullLine [120]))
      (.restart quotaConfig.writerConfig) (limited _ opened) := .restart made
  have inLine : RestartsInLine (stopped (twoSegments fullLine [120]))
      (.restart quotaConfig.writerConfig) := twoSegments_allInLine fullLine [120]
  exact ⟨_, cleanup, evicts_oldest (.initial ⟨_, twoSegments_own .., rfl⟩) inLine cleanup⟩

theorem limited_names {config : WriterConfig} {directory : LogDirectory} {opened : FileWriter}
    (made : (scan directory config.maxFileBytes).openFreshSegment = some opened) :
    ∃ fresh, (limited config opened).directory.names =
      directory.names ++ [segmentName fresh] := by
  obtain ⟨fresh, added, -, -, created, rfl⟩ := open_cases made
  rw [scan_directory] at created
  refine ⟨fresh, ?_⟩
  rw [limited, withLimits_directory]
  exact (LogDirectory.names_createNew created).2

theorem scan_swapped {directory : LogDirectory} {maxFileBytes first second : Nat}
    {bytes more : List UInt8}
    (files : directory.files = [(segmentName first, bytes), (segmentName second, more)])
    (order : ¬segmentName first ≤ segmentName second) :
    (scan directory maxFileBytes).segments =
      [⟨segmentName second, more.length⟩, ⟨segmentName first, bytes.length⟩] := by
  simp [scan, files, extension_segmentName, order]

def sevenDigits : LogDirectory where
  files := [(segmentName 999999, fullLine), (segmentName 1000000, [120])]
  distinct := (by decide +kernel : [segmentName 999999, segmentName 1000000].Nodup)

theorem evicts_oldest_seven : ¬ ∀ log, logHistory.Reachable log →
    ∀ action before, Cleanup log action before → EvictsOldest before := by
  intro claim
  have own : sevenDigits.Own := ⟨[999999, 1000000], rfl, by decide, by decide⟩
  have length : fullLine.length = 1048576 := List.length_replicate
  obtain ⟨opened, made, segments⟩ : ∃ opened,
      (scan sevenDigits quotaConfig.writerConfig.maxFileBytes).openFreshSegment = some opened ∧
        (limited quotaConfig.writerConfig opened).segments = [⟨segmentName 1000000, 1⟩,
          ⟨segmentName 999999, fullLine.length⟩, ⟨segmentName 1000001, 0⟩] := by
    refine limited_opened ?_ ?_ ?_
    · have order : ¬segmentName 999999 ≤ segmentName 1000000 := by decide +kernel
      exact @scan_swapped sevenDigits _ 999999 1000000 fullLine [120] rfl order
    · rw [nextSegmentIndex]
      simp [segmentIndex_segmentName (by decide : 999999 ≤ u32Max),
        segmentIndex_segmentName (by decide : 1000000 ≤ u32Max)]
      decide
    · exact LogDirectory.content_none.mpr
        (by decide +kernel : segmentName 1000001 ∉ [segmentName 999999, segmentName 1000000])
  have cleanup : Cleanup (stopped sevenDigits) (.restart quotaConfig.writerConfig)
      (limited _ opened) := .restart made
  obtain ⟨count, deletes, oldest⟩ := claim _ (.initial ⟨_, own, rfl⟩) _ _ cleanup
  obtain ⟨index, running⟩ := limited_running made
  obtain ⟨evicted, fewest, deleted⟩ := enforceQuota_fewest running
  have one : evicted = 1 := by
    rw [segments, length, quotaConfig_quota] at fewest
    exact fewest.unique (fewest_one (by decide) (by decide))
  have left := congrArg List.length (deletes.1.symm.trans deleted.1)
  rw [one, segments, List.length_drop, List.length_drop] at left
  obtain rfl : count = 1 := by
    simp only [List.length_cons, List.length_nil] at left
    omega
  obtain ⟨fresh, names⟩ := limited_names made
  rw [segments, names] at oldest
  have first : segmentName 1000000 = segmentName 999999 := (List.cons_prefix_cons.mp oldest).1
  exact absurd (segmentName_inj (by decide) (by decide) first) (by decide)

end ClineProxy
