import ClineProxy.LogOrder

/-! The retry loop that opens a fresh segment, and when it ends. -/

namespace ClineProxy

namespace FileWriter

/-- The loop for a number of attempts: the outcome, or `none` when it has still to go on. The file
system may refuse a name for another reason than that there is a file of it. -/
def openLoop (refused : String → Option String) (directory : LogDirectory) :
    Nat → Nat → Option (Except String (String × LogDirectory))
  | 0, _ => none
  | attempts + 1, index =>
      match refused (segmentName index) with
      | some error => some (.error error)
      | none =>
          match directory.createNew (segmentName index) with
          | some made => some (.ok (segmentName index, made))
          | none =>
              let index := min (index + 1) u32Max
              if index = 0 then some (.error "log segment index overflow")
              else openLoop refused directory attempts index

/-- Where only existing files are in the way, it is the loop of the log writer. -/
theorem openLoop_createFrom (directory : LogDirectory) (attempts index : Nat) :
    openLoop (fun _ => none) directory attempts index =
      (createFrom directory attempts index).map Except.ok := by
  induction attempts generalizing index with
  | zero => rfl
  | succ attempts ih =>
      have positive : min (index + 1) u32Max ≠ 0 := by
        have : 0 < u32Max := by decide
        omega
      rw [openLoop, createFrom]
      dsimp only
      cases directory.createNew (segmentName index) with
      | some made => rfl
      | none =>
          dsimp only
          rw [if_neg positive, ih]

variable {refused : String → Option String} {directory : LogDirectory} {log : FileWriter}

/-- The name of this number ends the loop. -/
def Ends (refused : String → Option String) (directory : LogDirectory) (index : Nat) : Prop :=
  refused (segmentName index) ≠ none ∨ segmentName index ∉ directory.names

theorem openLoop_ends {index : Nat} (ends : Ends refused directory index) :
    ∃ outcome, ∀ attempts, openLoop refused directory (attempts + 1) index = some outcome := by
  cases accepted : refused (segmentName index) with
  | some error => exact ⟨.error error, fun attempts => by rw [openLoop, accepted]⟩
  | none =>
      cases created : directory.createNew (segmentName index) with
      | some made =>
          exact ⟨.ok (segmentName index, made), fun attempts => by rw [openLoop, accepted, created]⟩
      | none =>
          rcases ends with other | free
          · exact absurd accepted other
          · exact absurd (LogDirectory.content_none.mpr free) (LogDirectory.createNew_none.mp created)

theorem openLoop_next {attempts index : Nat} (stays : ¬Ends refused directory index) :
    openLoop refused directory (attempts + 1) index =
      openLoop refused directory attempts (min (index + 1) u32Max) := by
  rw [Ends, not_or, not_not, not_not] at stays
  have taken : directory.createNew (segmentName index) = none := by
    refine LogDirectory.createNew_none.mpr fun absent => ?_
    exact LogDirectory.content_none.mp absent stays.2
  have positive : min (index + 1) u32Max ≠ 0 := by
    have : 0 < u32Max := by decide
    omega
  rw [openLoop, stays.1, taken]
  exact if_neg positive

theorem openLoop_reaches {index other : Nat} (ahead : index ≤ other) (bound : other ≤ u32Max)
    (ends : Ends refused directory other) :
    ∃ outcome, openLoop refused directory (other - index + 1) index = some outcome := by
  induction distance : other - index generalizing index with
  | zero =>
      obtain rfl : index = other := by omega
      obtain ⟨outcome, ended⟩ := openLoop_ends ends
      exact ⟨outcome, ended 0⟩
  | succ distance ih =>
      by_cases here : Ends refused directory index
      · obtain ⟨outcome, ended⟩ := openLoop_ends here
        exact ⟨outcome, ended _⟩
      · have step : min (index + 1) u32Max = index + 1 := by omega
        rw [openLoop_next here, step]
        exact ih (by omega) (by omega)

theorem openLoop_forever {index : Nat} (bound : index ≤ u32Max)
    (stays : ∀ other, index ≤ other → other ≤ u32Max → ¬Ends refused directory other)
    (attempts : Nat) : openLoop refused directory attempts index = none := by
  induction attempts generalizing index with
  | zero => rfl
  | succ attempts ih =>
      rw [openLoop_next (stays index le_rfl bound)]
      refine ih (Nat.min_le_right ..) fun other ahead most => ?_
      exact stays other (by omega) most

theorem openLoop_fresh {attempts index : Nat} {path : String} {made : LogDirectory}
    (opened : openLoop refused directory attempts index = some (.ok (path, made))) :
    directory.createNew path = some made := by
  induction attempts generalizing index with
  | zero => cases opened
  | succ attempts ih =>
      by_cases ends : Ends refused directory index
      · rw [openLoop] at opened
        split at opened
        next => cases opened
        split at opened
        next created =>
          cases opened
          exact created
        next =>
          dsimp only at opened
          split at opened
          next => cases opened
          next => exact ih opened
      · rw [openLoop_next ends] at opened
        exact ih opened

theorem openLoop_more {attempts more index : Nat} {outcome : Except String (String × LogDirectory)}
    (ended : openLoop refused directory attempts index = some outcome) (within : attempts ≤ more) :
    openLoop refused directory more index = some outcome := by
  induction attempts generalizing index more with
  | zero => cases ended
  | succ attempts ih =>
      obtain ⟨later, rfl⟩ := Nat.exists_eq_add_of_le' (Nat.one_le_of_lt within)
      by_cases ends : Ends refused directory index
      · obtain ⟨other, same⟩ := openLoop_ends ends
        rw [same later, ← same attempts, ended]
      · rw [openLoop_next ends] at ended ⊢
        exact ih ended (Nat.le_of_succ_le_succ within)

theorem taken_length {index free : Nat} (bound : free ≤ u32Max)
    (taken : ∀ other, index ≤ other → other < free → segmentName other ∈ directory.names) :
    free - index ≤ directory.files.length := by
  have apart : ((List.range' index (free - index)).map segmentName).Nodup := by
    refine List.Nodup.map_on ?_ List.nodup_range'
    intro first one second two same
    have within := List.mem_range'_1.mp one
    have other := List.mem_range'_1.mp two
    have numbers := congrArg segmentIndex same
    rw [segmentIndex_segmentName (by omega), segmentIndex_segmentName (by omega)] at numbers
    exact Option.some.inj numbers
  have listed : (List.range' index (free - index)).map segmentName ⊆ directory.names := by
    intro name member
    obtain ⟨other, range, rfl⟩ := List.mem_map.mp member
    have within := List.mem_range'_1.mp range
    exact taken other within.1 (by omega)
  have fits := (List.subperm_of_subset apart listed).length_le
  simpa [LogDirectory.names] using fits

/-- The loop ends, with an error or with a file that was not there. -/
def Returns (refused : String → Option String) (log : FileWriter) : Prop :=
  ∃ attempts outcome,
    openLoop refused log.directory attempts (nextSegmentIndex log.segments) = some outcome ∧
      ∀ path made, outcome = .ok (path, made) → log.directory.content path = none

theorem returns_iff : Returns refused log ↔ ∃ index, nextSegmentIndex log.segments ≤ index ∧
    index ≤ u32Max ∧ Ends refused log.directory index := by
  constructor
  · rintro ⟨attempts, outcome, ended, -⟩
    by_contra stays
    rw [openLoop_forever (nextSegmentIndex_le log.segments) fun other ahead bound ends =>
      stays ⟨other, ahead, bound, ends⟩] at ended
    cases ended
  · rintro ⟨index, ahead, bound, ends⟩
    obtain ⟨outcome, ended⟩ := openLoop_reaches ahead bound ends
    refine ⟨_, outcome, ended, fun path made opened => ?_⟩
    rw [opened] at ended
    exact LogDirectory.content_none.mpr (LogDirectory.names_createNew (openLoop_fresh ended)).1

/-- The attempts of the log writer are enough: what it opens is what the loop comes to. -/
theorem openFreshSegment_returns : log.openFreshSegment.isSome = true ↔
    Returns (fun _ => none) log := by
  have opens : log.openFreshSegment.isSome = (openLoop (fun _ => none) log.directory
      (log.directory.files.length + 1) (nextSegmentIndex log.segments)).isSome := by
    rw [openLoop_createFrom, openFreshSegment]
    cases createFrom log.directory (log.directory.files.length + 1)
      (nextSegmentIndex log.segments) <;> rfl
  rw [opens]
  constructor
  · intro opened
    obtain ⟨outcome, ended⟩ := Option.isSome_iff_exists.mp opened
    refine ⟨_, outcome, ended, fun path made same => ?_⟩
    rw [same] at ended
    exact LogDirectory.content_none.mpr (LogDirectory.names_createNew (openLoop_fresh ended)).1
  · intro returns
    have reached := returns_iff.mp returns
    classical
    have least := Nat.find_spec reached
    have before (other : Nat) (ahead : nextSegmentIndex log.segments ≤ other)
        (below : other < Nat.find reached) : segmentName other ∈ log.directory.names := by
      by_contra absent
      exact Nat.find_min reached below ⟨ahead, by omega, .inr absent⟩
    obtain ⟨outcome, ended⟩ := openLoop_reaches least.1 least.2.1 least.2.2
    rw [openLoop_more ended (Nat.succ_le_succ (taken_length least.2.1 before))]
    rfl

theorem nextSegmentIndex_last {maxFileBytes : Nat} (last : segmentName u32Max ∈ directory.names) :
    nextSegmentIndex (scan directory maxFileBytes).segments = u32Max := by
  obtain ⟨file, member, name⟩ := List.mem_map.mp last
  have listed : (⟨file.1, file.2.length⟩ : SegmentMeta) ∈ (scan directory maxFileBytes).segments := by
    refine (List.perm_insertionSort _ _).mem_iff.mpr (List.mem_map.mpr ⟨file, ?_, rfl⟩)
    refine List.mem_filter.mpr ⟨member, decide_eq_true ?_⟩
    rw [name]
    exact extension_segmentName u32Max
  have named : segmentIndex file.1 = some u32Max := by
    rw [name]
    exact segmentIndex_segmentName le_rfl
  have least := le_nextSegmentIndex listed named
  have most := nextSegmentIndex_le (scan directory maxFileBytes).segments
  omega

/-- The loop ends exactly when a number from the next one on has no file; a process that has just
read the directory needs the very last number to be free. The log writer, whose files are never
refused, has opened its segment exactly then. -/
theorem opening_returns (refused : String → Option String) :
    (∀ log, Returns refused log ↔ ∃ index, nextSegmentIndex log.segments ≤ index ∧
      index ≤ u32Max ∧ Ends refused log.directory index) ∧
    (∀ directory maxFileBytes, Returns refused (scan directory maxFileBytes) ↔
      Ends refused directory u32Max) ∧
    ∀ log : FileWriter, log.openFreshSegment.isSome = true ↔ Returns (fun _ => none) log := by
  refine ⟨fun log => returns_iff, fun directory maxFileBytes => ?_,
    fun log => openFreshSegment_returns⟩
  rw [returns_iff, scan_directory]
  constructor
  · rintro ⟨index, ahead, bound, ends⟩
    by_cases last : segmentName u32Max ∈ directory.names
    · rw [nextSegmentIndex_last last] at ahead
      rwa [← Nat.le_antisymm bound ahead]
    · exact .inr last
  · intro ends
    exact ⟨u32Max, nextSegmentIndex_le _, le_rfl, ends⟩

def lastSegment : LogDirectory where
  files := [(segmentName u32Max, [])]
  distinct := List.nodup_singleton _

theorem opening_forever : ¬ ∀ refused directory maxFileBytes,
    Returns refused (scan directory maxFileBytes) := by
  intro claim
  obtain ⟨attempts, outcome, ended, -⟩ := claim (fun _ => none) lastSegment 0
  have listed : segmentName u32Max ∈ lastSegment.names := List.mem_singleton_self _
  rw [nextSegmentIndex_last listed, openLoop_forever le_rfl] at ended
  · cases ended
  · intro other ahead bound ends
    rw [Nat.le_antisymm bound ahead] at ends
    rcases ends with refused | free
    · exact refused rfl
    · exact free listed

end FileWriter

end ClineProxy
