import ClineProxy.OrderedMap
import ClineProxy.Positions
import ClineProxy.Text
import ClineProxy.TransitionSystem
import Mathlib.Data.List.ModifyLast
import Mathlib.Data.List.Sort
import Mathlib.Data.String.Basic

/-!
The rolling log writer of `obs.rs`: the segments of the log directory, their start-up scan,
rotation and quota. File-system operations succeed, sizes fit 64 bits, and what is buffered
counts as written.
-/

namespace ClineProxy

/-- The files of the log directory by name, with what they hold. -/
structure LogDirectory where
  files : List (String × List UInt8)
  distinct : (files.map Prod.fst).Nodup
  deriving DecidableEq

namespace LogDirectory

variable {directory : LogDirectory} {path other : String}

def content (path : String) (directory : LogDirectory) : Option (List UInt8) :=
  OrderedMap.lookup path directory.files

def createNew (path : String) (directory : LogDirectory) : Option LogDirectory :=
  if free : path ∈ directory.files.map Prod.fst then none
  else some {
    files := directory.files ++ [(path, [])]
    distinct := by
      rw [List.map_append, List.map_singleton, List.nodup_append]
      refine ⟨directory.distinct, List.nodup_singleton _, fun held member name single same => ?_⟩
      rw [List.mem_singleton.mp single] at same
      exact free (by simpa [same] using member) }

def append (path : String) (bytes : List UInt8) (directory : LogDirectory) : LogDirectory where
  files := directory.files.map fun file =>
    (file.1, if file.1 = path then file.2 ++ bytes else file.2)
  distinct := by
    rw [List.map_map]
    exact directory.distinct

def removeFile (path : String) (directory : LogDirectory) : LogDirectory where
  files := directory.files.filter fun file => file.1 ≠ path
  distinct := directory.distinct.sublist (List.filter_sublist.map _)

theorem content_none : directory.content path = none ↔ path ∉ directory.files.map Prod.fst := by
  rw [content, OrderedMap.lookup_eq_none, List.mem_map]
  constructor
  · rintro absent ⟨file, member, same⟩
    exact absent file member same
  · exact fun absent file member same => absent ⟨file, member, same⟩

theorem createNew_none : directory.createNew path = none ↔ directory.content path ≠ none := by
  rw [Ne, content_none, not_not, createNew]
  split <;> simp_all

theorem content_createNew {made : LogDirectory} (created : directory.createNew path = some made) :
    directory.content path = none ∧
      made.content other = if other = path then some [] else directory.content other := by
  rw [createNew] at created
  split at created
  next => cases created
  next free =>
    cases created
    have absent := content_none.mpr free
    refine ⟨absent, ?_⟩
    rw [content, content, OrderedMap.lookup_append]
    split
    next same =>
      rw [content] at absent
      rw [same, absent]
      simp [OrderedMap.lookup]
    next different => simp [OrderedMap.lookup, different]

theorem content_append (bytes : List UInt8) : (directory.append path bytes).content other =
    if other = path then (directory.content path).map (· ++ bytes)
    else directory.content other := by
  have changed := OrderedMap.lookup_map other
    (fun name held => if name = path then held ++ bytes else held) directory.files
  rw [content, append, changed]
  split
  next same => simp [same, content]
  next different => simp [content]

theorem content_removeFile : (directory.removeFile path).content other =
    if other = path then none else directory.content other := by
  have kept := OrderedMap.lookup_filter other (fun name => decide (name ≠ path)) directory.files
  rw [content, removeFile, kept]
  split <;> simp_all [content]

end LogDirectory

def fileStem (name : String) : List Char :=
  match Positions.rposition (· == '.') name.toList with
  | none | some 0 => name.toList
  | some position => name.toList.take position

def extension (name : String) : Option (List Char) :=
  match Positions.rposition (· == '.') name.toList with
  | none | some 0 => none
  | some position => some (name.toList.drop (position + 1))

def u32Max : Nat := 2 ^ 32 - 1

def sixDigits (number : Nat) : List Char :=
  let digits := Nat.toDigits 10 number
  List.replicate (6 - digits.length) '0' ++ digits

def segmentName (index : Nat) : String :=
  String.ofList ("events-".toList ++ sixDigits index ++ ".jsonl".toList)

def segmentIndex (path : String) : Option Nat :=
  (Text.stripPrefix "events-".toList (fileStem path)).bind (Text.parseUnsigned (u32Max + 1))

/-! The writer -/

structure SegmentMeta where
  path : String
  bytes : Nat
  deriving DecidableEq

/-- `writer` names the file that the open handle writes to. -/
structure FileWriter where
  directory : LogDirectory
  maxFileBytes : Nat
  maxTotalBytes : Nat
  cleanupTargetBytes : Nat
  segments : List SegmentMeta
  totalBytes : Nat
  writer : Option String
  activePath : Option String
  degraded : Bool
  deriving DecidableEq

def u64Max : Nat := 2 ^ 64 - 1

def saturatingMul (first second : Nat) : Nat := min (first * second) u64Max

structure WriterConfig where
  maxFileSizeMb : Nat
  maxTotalSizeMb : Nat
  cleanupTargetPercent : Nat

namespace WriterConfig

def maxFileBytes (config : WriterConfig) : Nat :=
  saturatingMul config.maxFileSizeMb (1024 * 1024)

def maxTotalBytes (config : WriterConfig) : Nat :=
  saturatingMul config.maxTotalSizeMb (1024 * 1024)

end WriterConfig

structure LoggingConfig where
  directory : Option String
  maxFileSizeMb : Nat
  maxTotalSizeMb : Nat
  cleanupTargetPercent : Nat
  flushIntervalMs : Nat

namespace LoggingConfig

def enabled (config : LoggingConfig) : Bool :=
  match config.directory with
  | none => false
  | some path => !(Text.trim path.toList).isEmpty

def validate (config : LoggingConfig) : Except String Unit :=
  if !config.enabled then .ok ()
  else if config.maxFileSizeMb = 0 then
    .error "logging.max_file_size_mb must be greater than zero"
  else if config.maxTotalSizeMb < config.maxFileSizeMb then
    .error ("logging.max_total_size_mb (" ++ toString config.maxTotalSizeMb ++
      ") must be >= max_file_size_mb (" ++ toString config.maxFileSizeMb ++ ")")
  else if config.cleanupTargetPercent = 0 ∨ 100 < config.cleanupTargetPercent then
    .error "logging.cleanup_target_percent must be 1..=100"
  else if config.flushIntervalMs < 50 ∨ 60000 < config.flushIntervalMs then
    .error "logging.flush_interval_ms must be 50..60000"
  else .ok ()

def writerConfig (config : LoggingConfig) : WriterConfig :=
  ⟨config.maxFileSizeMb, config.maxTotalSizeMb, config.cleanupTargetPercent⟩

end LoggingConfig

namespace FileWriter

def scan (directory : LogDirectory) (maxFileBytes : Nat) : FileWriter :=
  let found := directory.files.filter fun file => extension file.1 = some "jsonl".toList
  let segments := (found.map fun file => ⟨file.1, file.2.length⟩).insertionSort
    fun first second : SegmentMeta => first.path ≤ second.path
  { directory, maxFileBytes, maxTotalBytes := 0, cleanupTargetBytes := 0, segments,
    totalBytes := (segments.map SegmentMeta.bytes).sum, writer := none, activePath := none,
    degraded := false }

def nextSegmentIndex (segments : List SegmentMeta) : Nat :=
  match (segments.filterMap fun segment => segmentIndex segment.path).max? with
  | none => 1
  | some last => max (min (last + 1) u32Max) 1

/-- `none` when no attempt finds a free name: the index stays at its bound, and the loop of the
source never ends. -/
def createFrom (directory : LogDirectory) : Nat → Nat → Option (String × LogDirectory)
  | 0, _ => none
  | attempts + 1, index =>
      match directory.createNew (segmentName index) with
      | some made => some (segmentName index, made)
      | none => createFrom directory attempts (min (index + 1) u32Max)

def openFreshSegment (log : FileWriter) : Option FileWriter := do
  let attempts := log.directory.files.length + 1
  let (path, directory) ← createFrom log.directory attempts (nextSegmentIndex log.segments)
  some { log with
    directory
    segments := log.segments ++ [⟨path, 0⟩]
    writer := some path
    activePath := some path }

def activeFull (log : FileWriter) : Bool :=
  match log.activePath with
  | none => false
  | some active =>
      match log.segments.find? fun segment => segment.path == active with
      | none => false
      | some segment => log.maxFileBytes ≤ segment.bytes

def rotateIfNeeded (log : FileWriter) : Option FileWriter :=
  if log.writer.isNone || log.activeFull then
    openFreshSegment { log with writer := none, activePath := none }
  else some log

def evict (maxTotalBytes cleanupTargetBytes : Nat) (activePath : Option String) :
    List SegmentMeta → Nat → LogDirectory → List SegmentMeta × Nat × LogDirectory
  | [], total, directory => ([], total, directory)
  | oldest :: rest, total, directory =>
      if total ≤ maxTotalBytes then (oldest :: rest, total, directory)
      else if activePath = some oldest.path then (oldest :: rest, total, directory)
      else
        let total := total - oldest.bytes
        let directory := directory.removeFile oldest.path
        if total ≤ cleanupTargetBytes then (rest, total, directory)
        else evict maxTotalBytes cleanupTargetBytes activePath rest total directory

def enforceQuota (log : FileWriter) : FileWriter :=
  let (segments, totalBytes, directory) := evict log.maxTotalBytes log.cleanupTargetBytes
    log.activePath log.segments log.totalBytes log.directory
  { log with segments, totalBytes, directory }

def writeAll (path : String) (bytes : List UInt8) (log : FileWriter) : FileWriter :=
  { log with
    directory := log.directory.append path (bytes ++ [10])
    segments := log.segments.modifyLast fun segment =>
      { segment with bytes := segment.bytes + (bytes.length + 1) }
    totalBytes := log.totalBytes + (bytes.length + 1) }

def writeLine (bytes : List UInt8) (log : FileWriter) : Option FileWriter :=
  if log.degraded then some log
  else do
    let log ← log.rotateIfNeeded
    match log.writer with
    | none => some { log with degraded := true }
    | some path => some (log.writeAll path bytes).enforceQuota

def spawnWriter (config : WriterConfig) (directory : LogDirectory) : Option FileWriter := do
  let log ← (scan directory config.maxFileBytes).openFreshSegment
  let log := { log with
    maxTotalBytes := config.maxTotalBytes
    cleanupTargetBytes :=
      saturatingMul config.maxTotalBytes (min config.cleanupTargetPercent 100) / 100 }
  some (if log.maxTotalBytes < log.totalBytes then log.enforceQuota else log)

end FileWriter

/-- A started writer that is given one line after another. -/
def logWriter (config : WriterConfig) : TransitionSystem.System FileWriter (List UInt8) where
  initial log := ∃ directory, FileWriter.spawnWriter config directory = some log
  step log line := log.writeLine line

end ClineProxy
