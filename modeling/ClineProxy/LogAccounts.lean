import ClineProxy.LogSegments

/-!
What the log writer keeps: the accounts of its segments, the newest of them being the one that
is written, and the bound on their total.
-/

namespace ClineProxy

theorem isAsciiDigit_of_isDigit {character : Char} (digit : character.isDigit = true) :
    Text.isAsciiDigit character = true := by
  simp only [Char.isDigit, Bool.and_eq_true, decide_eq_true_eq] at digit
  simp only [Text.isAsciiDigit, Bool.and_eq_true, decide_eq_true_eq]
  exact digit

theorem sixDigits_digits (number : Nat) :
    ∀ character ∈ sixDigits number, Text.isAsciiDigit character = true := by
  intro character member
  rcases List.mem_append.mp member with zero | digit
  · rw [List.eq_of_mem_replicate zero]
    rfl
  · exact isAsciiDigit_of_isDigit
      (Nat.isDigit_of_mem_toDigits (by decide) (by decide) digit)

theorem digitsValue_eq (digits : List Char) : Text.digitsValue digits =
    Nat.ofDigitChars 10 digits 0 := by
  simp only [Text.digitsValue, Nat.ofDigitChars_eq_foldl, Nat.mul_comm]

theorem digitsValue_sixDigits (number : Nat) : Text.digitsValue (sixDigits number) = number := by
  rw [digitsValue_eq, sixDigits, Nat.ofDigitChars_append, Nat.ofDigitChars_replicate_zero,
    Nat.mul_zero, Nat.ofDigitChars_ten_toDigits]

theorem sixDigits_ne_nil (number : Nat) : sixDigits number ≠ [] := by
  rw [sixDigits]
  exact List.append_ne_nil_of_right_ne_nil _ Nat.toDigits_ne_nil

theorem parseUnsigned_sixDigits {number bound : Nat} (below : number < bound) :
    Text.parseUnsigned bound (sixDigits number) = some number := by
  have noSign : Text.stripPrefix ['+'] (sixDigits number) = none := by
    rw [Text.stripPrefix, if_neg]
    intro signed
    cases digits : sixDigits number with
    | nil => exact sixDigits_ne_nil number digits
    | cons first rest =>
        have digit := sixDigits_digits number
        rw [digits] at digit signed
        have sign : '+' = first := by simpa [Text.startsWith] using signed
        have wrong := digit first (List.mem_cons_self ..)
        rw [← sign] at wrong
        exact absurd wrong (by decide)
  have digits : (sixDigits number).all Text.isAsciiDigit = true :=
    List.all_eq_true.mpr (sixDigits_digits number)
  rw [Text.parseUnsigned, noSign]
  simp [digits, sixDigits_ne_nil, digitsValue_sixDigits, below]

theorem rposition_dotted {stem : List Char} :
    Positions.rposition (· == '.') (stem ++ ".jsonl".toList) = some stem.length := by
  rw [Positions.rposition_append,
    (by decide : Positions.rposition (· == '.') ".jsonl".toList = some 0)]
  simp

theorem fileStem_dotted {stem : List Char} (some_ : stem ≠ []) :
    fileStem (String.ofList (stem ++ ".jsonl".toList)) = stem := by
  obtain ⟨first, rest, rfl⟩ := List.exists_cons_of_ne_nil some_
  rw [fileStem, String.toList_ofList, rposition_dotted, List.length_cons]
  exact List.take_left' List.length_cons

theorem extension_dotted {stem : List Char} (some_ : stem ≠ []) :
    extension (String.ofList (stem ++ ".jsonl".toList)) = some "jsonl".toList := by
  obtain ⟨first, rest, rfl⟩ := List.exists_cons_of_ne_nil some_
  rw [extension, String.toList_ofList, rposition_dotted, List.length_cons]
  refine congrArg some ?_
  rw [← List.length_cons (a := first), List.drop_append]
  simp

theorem segmentStem_ne_nil (index : Nat) : "events-".toList ++ sixDigits index ≠ [] :=
  List.append_ne_nil_of_right_ne_nil _ (sixDigits_ne_nil index)

theorem fileStem_segmentName (index : Nat) :
    fileStem (segmentName index) = "events-".toList ++ sixDigits index :=
  fileStem_dotted (segmentStem_ne_nil index)

theorem extension_segmentName (index : Nat) :
    extension (segmentName index) = some "jsonl".toList :=
  extension_dotted (segmentStem_ne_nil index)

theorem segmentIndex_segmentName {index : Nat} (bound : index ≤ u32Max) :
    segmentIndex (segmentName index) = some index := by
  rw [segmentIndex, fileStem_segmentName, Text.stripPrefix, if_pos]
  · rw [List.drop_left, Option.bind_some]
    exact parseUnsigned_sixDigits (Nat.lt_succ_of_le bound)
  · exact List.isPrefixOf_iff_prefix.mpr (List.prefix_append ..)

theorem segmentName_inj {first second : Nat} (firstBound : first ≤ u32Max)
    (secondBound : second ≤ u32Max) (same : segmentName first = segmentName second) :
    first = second := by
  have index := segmentIndex_segmentName firstBound
  rw [same, segmentIndex_segmentName secondBound] at index
  exact (Option.some.inj index).symm

namespace FileWriter

variable {log next : FileWriter} {line : List UInt8}

theorem le_nextSegmentIndex {segments : List SegmentMeta} {segment : SegmentMeta} {index : Nat}
    (member : segment ∈ segments) (named : segmentIndex segment.path = some index) :
    min (index + 1) u32Max ≤ nextSegmentIndex segments := by
  have listed : index ∈ segments.filterMap fun segment => segmentIndex segment.path :=
    List.mem_filterMap.mpr ⟨segment, member, named⟩
  rw [nextSegmentIndex]
  split
  next none_ => simp [List.max?_eq_none_iff.mp none_] at listed
  next last found =>
    have below := (List.max?_le_iff found).mp le_rfl index listed
    omega

theorem nextSegmentIndex_le (segments : List SegmentMeta) :
    nextSegmentIndex segments ≤ u32Max := by
  rw [nextSegmentIndex]
  split
  next => decide
  next => exact Nat.max_le.mpr ⟨Nat.min_le_right .., by decide⟩

theorem createFrom_some {directory made : LogDirectory} {path : String} {attempts index : Nat}
    (bound : index ≤ u32Max) (created : createFrom directory attempts index = some (path, made)) :
    ∃ found, index ≤ found ∧ found ≤ u32Max ∧ path = segmentName found ∧
      directory.createNew path = some made := by
  induction attempts generalizing index with
  | zero => cases created
  | succ attempts ih =>
      rw [createFrom] at created
      split at created
      next made made_ =>
        cases created
        exact ⟨index, le_rfl, bound, rfl, made_⟩
      next =>
        obtain ⟨found, above, facts⟩ := ih (Nat.min_le_right ..) created
        have := Nat.le_min.mpr ⟨Nat.le_succ index, bound⟩
        exact ⟨found, this.trans above, facts⟩

theorem open_cases (opened : log.openFreshSegment = some next) :
    ∃ index made, nextSegmentIndex log.segments ≤ index ∧ index ≤ u32Max ∧
      log.directory.createNew (segmentName index) = some made ∧
      next = { log with
        directory := made
        segments := log.segments ++ [⟨segmentName index, 0⟩]
        writer := some (segmentName index)
        activePath := some (segmentName index) } := by
  rw [openFreshSegment] at opened
  obtain ⟨⟨path, made⟩, created, opened⟩ := Option.bind_eq_some_iff.mp opened
  cases opened
  obtain ⟨index, least, most, rfl, made_⟩ :=
    createFrom_some (nextSegmentIndex_le log.segments) created
  exact ⟨index, made, least, most, made_, rfl⟩

theorem openFreshSegment_next {log : FileWriter} {index : Nat} {made : LogDirectory}
    (follows : nextSegmentIndex log.segments = index)
    (created : log.directory.createNew (segmentName index) = some made) :
    log.openFreshSegment = some { log with
      directory := made
      segments := log.segments ++ [⟨segmentName index, 0⟩]
      writer := some (segmentName index)
      activePath := some (segmentName index) } := by
  rw [openFreshSegment, follows, createFrom, created]
  rfl

theorem open_free (free : log.directory.content (segmentName (nextSegmentIndex log.segments)) =
    none) : ∃ made,
    log.directory.createNew (segmentName (nextSegmentIndex log.segments)) = some made ∧
      log.openFreshSegment = some { log with
        directory := made
        segments := log.segments ++ [⟨segmentName (nextSegmentIndex log.segments), 0⟩]
        writer := some (segmentName (nextSegmentIndex log.segments))
        activePath := some (segmentName (nextSegmentIndex log.segments)) } := by
  cases created : log.directory.createNew (segmentName (nextSegmentIndex log.segments)) with
  | none => exact absurd free (LogDirectory.createNew_none.mp created)
  | some made =>
      exact ⟨made, rfl, openFreshSegment_next rfl created⟩

theorem scan_sorted {directory : LogDirectory} {maxFileBytes : Nat}
    (named : ∀ file ∈ directory.files, extension file.1 = some "jsonl".toList)
    (sorted : directory.files.Pairwise fun first second => first.1 ≤ second.1) :
    (scan directory maxFileBytes).segments =
      directory.files.map fun file => ⟨file.1, file.2.length⟩ := by
  have found : directory.files.filter (fun file => extension file.1 = some "jsonl".toList) =
      directory.files :=
    List.filter_eq_self.mpr fun file member => decide_eq_true (named file member)
  rw [scan]
  dsimp only
  rw [found]
  exact List.Pairwise.insertionSort_eq (List.pairwise_map.mpr sorted)

/-- The total is that of the recorded segments; they have different names and the sizes of
their files. -/
structure Booked (log : FileWriter) : Prop where
  total : log.totalBytes = (log.segments.map SegmentMeta.bytes).sum
  distinct : (log.segments.map SegmentMeta.path).Nodup
  recorded : ∀ segment ∈ log.segments,
    (log.directory.content segment.path).map List.length = some segment.bytes

theorem scan_booked (directory : LogDirectory) (maxFileBytes : Nat) :
    (scan directory maxFileBytes).Booked := by
  let found := (directory.files.filter fun file => extension file.1 = some "jsonl".toList).map
    fun file => (⟨file.1, file.2.length⟩ : SegmentMeta)
  have sorted : (scan directory maxFileBytes).segments.Perm found :=
    List.perm_insertionSort _ _
  refine ⟨rfl, ?_, fun segment member => ?_⟩
  · refine (sorted.map SegmentMeta.path).nodup_iff.mpr ?_
    rw [List.map_map]
    exact directory.distinct.sublist (List.filter_sublist.map Prod.fst)
  · obtain ⟨file, listed, rfl⟩ := List.mem_map.mp (sorted.mem_iff.mp member)
    have held := OrderedMap.lookup_of_distinct directory.distinct (List.mem_filter.mp listed).1
    exact congrArg (Option.map List.length) held

namespace Booked

theorem on_disk (booked : log.Booked) {segment : SegmentMeta} (member : segment ∈ log.segments) :
    log.directory.content segment.path ≠ none := by
  intro absent
  have size := booked.recorded segment member
  rw [absent] at size
  cases size

theorem opened {made : LogDirectory} {path : String} (booked : log.Booked)
    (created : log.directory.createNew path = some made) :
    Booked { log with
      directory := made
      segments := log.segments ++ [⟨path, 0⟩]
      writer := some path
      activePath := some path } := by
  have content (other : String) := @LogDirectory.content_createNew _ _ other _ created
  have fresh : ∀ segment ∈ log.segments, segment.path ≠ path := fun segment member same =>
    booked.on_disk member (same ▸ (content path).1)
  refine ⟨by simp [booked.total], ?_, fun segment member => ?_⟩
  · simp only [List.map_append, List.map_singleton, List.nodup_append]
    refine ⟨booked.distinct, List.nodup_singleton _, ?_⟩
    intro held listed last single same
    obtain ⟨segment, member, rfl⟩ := List.mem_map.mp listed
    exact fresh segment member (same.trans (List.mem_singleton.mp single))
  · rcases List.mem_append.mp member with old | new
    · rw [(content _).2, if_neg (fresh segment old)]
      exact booked.recorded segment old
    · rw [List.mem_singleton.mp new, (content _).2, if_pos rfl]
      rfl

end Booked

section Evict

variable {maxTotal cleanup : Nat} {activePath : Option String}
  {segments : List SegmentMeta} {total : Nat} {directory : LogDirectory}

theorem evict_cases (sum : total = (segments.map SegmentMeta.bytes).sum) :
    ∃ gone kept, segments = gone ++ kept ∧
      (∀ segment ∈ gone, activePath ≠ some segment.path) ∧
      evict maxTotal cleanup activePath segments total directory =
        (kept, (kept.map SegmentMeta.bytes).sum,
          gone.foldl (fun directory segment => directory.removeFile segment.path) directory) := by
  induction segments generalizing total directory with
  | nil => exact ⟨[], [], rfl, nofun, by rw [evict, sum]; rfl⟩
  | cons oldest rest ih =>
      have stays : ∃ gone kept, oldest :: rest = gone ++ kept ∧
          (∀ segment ∈ gone, activePath ≠ some segment.path) ∧
          (oldest :: rest, total, directory) = (kept, (kept.map SegmentMeta.bytes).sum,
            gone.foldl (fun directory segment => directory.removeFile segment.path) directory) :=
        ⟨[], oldest :: rest, rfl, nofun, by rw [sum]; rfl⟩
      rw [evict]
      split
      next => exact stays
      split
      next => exact stays
      next other =>
        have left : total - oldest.bytes = (rest.map SegmentMeta.bytes).sum := by
          rw [sum, List.map_cons, List.sum_cons, Nat.add_sub_cancel_left]
        dsimp only
        split
        next => exact ⟨[oldest], rest, rfl, by simpa using other, by rw [left]; rfl⟩
        next =>
          obtain ⟨gone, kept, rfl, others, made⟩ :=
            @ih (total - oldest.bytes) (directory.removeFile oldest.path) left
          refine ⟨oldest :: gone, kept, rfl, ?_, made⟩
          intro segment member
          rcases List.mem_cons.mp member with rfl | later
          · exact other
          · exact others segment later

theorem evict_bound (low : cleanup ≤ maxTotal) (sum : total = (segments.map SegmentMeta.bytes).sum) :
    (evict maxTotal cleanup activePath segments total directory).2.1 ≤ maxTotal ∨
      ∃ oldest rest, (evict maxTotal cleanup activePath segments total directory).1 =
        oldest :: rest ∧ activePath = some oldest.path := by
  induction segments generalizing total directory with
  | nil =>
      refine .inl ?_
      rw [evict, sum]
      exact Nat.zero_le _
  | cons oldest rest ih =>
      rw [evict]
      split
      next within => exact .inl within
      split
      next active => exact .inr ⟨oldest, rest, rfl, active⟩
      next =>
        dsimp only
        split
        next within => exact .inl (within.trans low)
        next =>
          refine ih ?_
          rw [sum, List.map_cons, List.sum_cons, Nat.add_sub_cancel_left]

theorem content_removed (gone : List SegmentMeta) (path : String) (directory : LogDirectory) :
    (gone.foldl (fun directory segment => directory.removeFile segment.path) directory).content path =
      if path ∈ gone.map SegmentMeta.path then none else directory.content path := by
  induction gone generalizing directory with
  | nil => rfl
  | cons segment rest ih =>
      rw [List.foldl_cons, ih, LogDirectory.content_removeFile]
      by_cases later : path ∈ rest.map SegmentMeta.path
      · simp [later]
      · simp [later]

end Evict

theorem enforceQuota_within {log : FileWriter} (within : log.totalBytes ≤ log.maxTotalBytes) :
    log.enforceQuota = log := by
  rw [enforceQuota]
  cases segments : log.segments with
  | nil => rw [evict, ← segments]
  | cons oldest rest => rw [evict, if_pos within, ← segments]

theorem enforceQuota_cases (booked : log.Booked) :
    ∃ gone kept, log.segments = gone ++ kept ∧
      (∀ segment ∈ gone, log.activePath ≠ some segment.path) ∧
      log.enforceQuota = { log with
        segments := kept
        totalBytes := (kept.map SegmentMeta.bytes).sum
        directory := gone.foldl
          (fun directory segment => directory.removeFile segment.path) log.directory } := by
  obtain ⟨gone, kept, parts, others, made⟩ := @evict_cases log.maxTotalBytes
    log.cleanupTargetBytes log.activePath log.segments log.totalBytes log.directory booked.total
  exact ⟨gone, kept, parts, others, by rw [enforceQuota, made]⟩

theorem Booked.enforced (booked : log.Booked) : log.enforceQuota.Booked := by
  obtain ⟨gone, kept, parts, -, made⟩ := enforceQuota_cases booked
  have distinct := booked.distinct
  rw [parts, List.map_append, List.nodup_append] at distinct
  rw [made]
  refine ⟨rfl, distinct.2.1, fun segment member => ?_⟩
  have other : segment.path ∉ gone.map SegmentMeta.path := fun gone_ =>
    distinct.2.2 _ gone_ _ (List.mem_map_of_mem member) rfl
  dsimp only
  rw [content_removed, if_neg other]
  exact booked.recorded segment (parts ▸ List.mem_append_right gone member)

/-- The last recorded segment is the one written, and it has the greatest index. -/
structure Accounted (log : FileWriter) (last : SegmentMeta) (index : Nat) : Prop
    extends log.Booked where
  ends : ∃ before, log.segments = before ++ [last]
  name : last.path = segmentName index
  bound : index ≤ u32Max
  writing : log.writer = some last.path
  active : log.activePath = some last.path
  newest : ∀ segment ∈ log.segments, ∀ other, segmentIndex segment.path = some other →
    other ≤ index
  sound : log.degraded = false

def Kept (log next : FileWriter) (path : String) : Prop :=
  next.directory.content path = log.directory.content path ∨ next.directory.content path = none

theorem segmentIndex_le {path : String} {index : Nat} (named : segmentIndex path = some index) :
    index ≤ u32Max := by
  obtain ⟨digits, -, parsed⟩ := Option.bind_eq_some_iff.mp named
  rw [Text.parseUnsigned] at parsed
  split at parsed
  next => cases parsed
  split at parsed
  next below =>
    cases parsed
    exact Nat.le_of_lt_succ below
  next => cases parsed

theorem opened_accounted (booked : log.Booked) (sound : log.degraded = false)
    (opened : log.openFreshSegment = some next) :
    ∃ index, next.Accounted ⟨segmentName index, 0⟩ index ∧
      (∀ segment ∈ log.segments, ∀ other, segmentIndex segment.path = some other →
        min (other + 1) u32Max ≤ index) ∧
      (∀ segment ∈ log.segments, segment.path ≠ segmentName index) ∧
      next.directory.content (segmentName index) = some [] ∧
      (∀ path ≠ segmentName index, next.directory.content path = log.directory.content path) ∧
      next.maxFileBytes = log.maxFileBytes ∧ next.maxTotalBytes = log.maxTotalBytes ∧
      next.cleanupTargetBytes = log.cleanupTargetBytes := by
  obtain ⟨index, made, least, most, created, rfl⟩ := open_cases opened
  have content (other : String) := @LogDirectory.content_createNew _ _ other _ created
  have above : ∀ segment ∈ log.segments, ∀ other, segmentIndex segment.path = some other →
      min (other + 1) u32Max ≤ index := fun segment member other named =>
    (le_nextSegmentIndex member named).trans least
  refine ⟨index, ?_, above, fun segment member same => booked.on_disk member ?_,
    (content _).2.trans (if_pos rfl), fun path other => (content path).2.trans (if_neg other),
    rfl, rfl, rfl⟩
  · exact {
      toBooked := booked.opened created
      ends := ⟨log.segments, rfl⟩
      name := rfl
      bound := most
      writing := rfl
      active := rfl
      newest := by
        intro segment member other named
        rcases List.mem_append.mp member with old | new
        · have := above segment old other named
          have := segmentIndex_le named
          omega
        · rw [List.mem_singleton.mp new, segmentIndex_segmentName most] at named
          exact (Option.some.inj named).ge
      sound }
  · rw [same]
    exact (content (segmentName index)).1

namespace Accounted

variable {last : SegmentMeta} {index : Nat}

theorem last_mem (accounted : log.Accounted last index) : last ∈ log.segments := by
  obtain ⟨before, parts⟩ := accounted.ends
  rw [parts]
  exact List.mem_append_right before (List.mem_singleton_self last)

theorem find_active (accounted : log.Accounted last index) :
    log.segments.find? (fun segment => segment.path == last.path) = some last := by
  obtain ⟨before, parts⟩ := accounted.ends
  have distinct := accounted.distinct
  rw [parts, List.map_append, List.nodup_append] at distinct
  rw [parts, List.find?_append, List.find?_eq_none.mpr]
  · simp
  · intro segment member same
    exact distinct.2.2 _ (List.mem_map_of_mem member) _ (by simp) (beq_iff_eq.mp same)

theorem rotated (accounted : log.Accounted last index)
    (rotated : log.rotateIfNeeded = some next) :
    log.activeFull = false ∧ next = log ∨
    log.activeFull = true ∧ ∃ later, index < later ∧
      next.Accounted ⟨segmentName later, 0⟩ later ∧
      next.directory.content (segmentName later) = some [] ∧
      (∀ path ≠ segmentName later,
        next.directory.content path = log.directory.content path) ∧
      next.maxFileBytes = log.maxFileBytes ∧ next.maxTotalBytes = log.maxTotalBytes ∧
      next.cleanupTargetBytes = log.cleanupTargetBytes := by
  rw [rotateIfNeeded, accounted.writing] at rotated
  cases full : log.activeFull with
  | false =>
      rw [full] at rotated
      cases rotated
      exact .inl ⟨rfl, rfl⟩
  | true =>
      rw [full] at rotated
      have booked : Booked { log with writer := none, activePath := none } :=
        ⟨accounted.total, accounted.distinct, accounted.recorded⟩
      obtain ⟨later, accounted_, above, fresh, facts⟩ :=
        opened_accounted booked accounted.sound rotated
      have named : segmentIndex last.path = some index := by
        rw [accounted.name]
        exact segmentIndex_segmentName accounted.bound
      have least : min (index + 1) u32Max ≤ later := above last accounted.last_mem index named
      have different : later ≠ index := by
        rintro rfl
        exact fresh last accounted.last_mem accounted.name
      have bound := accounted.bound
      exact .inr ⟨rfl, later, by omega, accounted_, facts⟩

theorem written (accounted : log.Accounted last index) (line : List UInt8) :
    (log.writeAll last.path line).Accounted
      { last with bytes := last.bytes + (line.length + 1) } index := by
  obtain ⟨before, parts⟩ := accounted.ends
  have credited : (log.writeAll last.path line).segments =
      before ++ [{ last with bytes := last.bytes + (line.length + 1) }] := by
    rw [writeAll]
    dsimp only
    rw [parts, List.modifyLast_concat]
  have paths : (log.writeAll last.path line).segments.map SegmentMeta.path =
      log.segments.map SegmentMeta.path := by
    rw [credited, parts, List.map_append, List.map_append]
    rfl
  exact {
    total := by
      rw [credited, writeAll]
      dsimp only
      rw [accounted.total, parts]
      simp only [List.map_append, List.sum_append, List.map_singleton, List.sum_singleton]
      exact Nat.add_assoc ..
    distinct := paths ▸ accounted.distinct
    recorded := by
      intro segment member
      rw [writeAll]
      dsimp only
      rw [LogDirectory.content_append]
      rw [credited] at member
      have distinct := accounted.distinct
      rw [parts, List.map_append, List.nodup_append] at distinct
      rcases List.mem_append.mp member with old | new
      · have other : segment.path ≠ last.path :=
          distinct.2.2 _ (List.mem_map_of_mem old) _ (by simp)
        rw [if_neg other]
        exact accounted.recorded segment (parts ▸ List.mem_append_left _ old)
      · have size := accounted.recorded last accounted.last_mem
        obtain ⟨content, held, length⟩ := Option.map_eq_some_iff.mp size
        rw [List.mem_singleton.mp new, if_pos rfl, held]
        simp [length]
    ends := ⟨before, credited⟩
    name := accounted.name
    bound := accounted.bound
    writing := accounted.writing
    active := accounted.active
    newest := by
      intro segment member other named
      have listed : segment.path ∈ log.segments.map SegmentMeta.path :=
        paths ▸ List.mem_map_of_mem member
      obtain ⟨same, held, path⟩ := List.mem_map.mp listed
      exact accounted.newest same held other (path ▸ named)
    sound := accounted.sound }

theorem enforced (accounted : log.Accounted last index) :
    log.enforceQuota.Accounted last index := by
  obtain ⟨gone, kept, parts, others, made⟩ := enforceQuota_cases accounted.toBooked
  obtain ⟨before, ends⟩ := accounted.ends
  have booked := accounted.toBooked.enforced
  rw [made] at booked ⊢
  have left : ∃ between, kept = between ++ [last] := by
    rcases kept.eq_nil_or_concat' with rfl | ⟨between, final, rfl⟩
    · have member : last ∈ gone := by
        rw [← List.append_nil gone, ← parts]
        exact accounted.last_mem
      exact absurd accounted.active (others last member)
    · have same : gone ++ between ++ [final] = before ++ [last] := by
        rw [← ends, parts, List.append_assoc]
      exact ⟨between, by rw [(List.append_inj' same rfl).2]⟩
  exact {
    toBooked := booked
    ends := left
    name := accounted.name
    bound := accounted.bound
    writing := accounted.writing
    active := accounted.active
    newest := fun segment member => accounted.newest segment (parts ▸ List.mem_append_right gone member)
    sound := accounted.sound }

theorem enforced_content (accounted : log.Accounted last index) :
    log.enforceQuota.directory.content last.path = log.directory.content last.path ∧
      ∀ path, log.Kept log.enforceQuota path := by
  have kept (path : String) : log.Kept log.enforceQuota path := by
    obtain ⟨gone, left, -, -, made⟩ := enforceQuota_cases accounted.toBooked
    rw [Kept, made]
    dsimp only
    rw [content_removed]
    split
    next => exact .inr rfl
    next => exact .inl rfl
  exact ⟨(kept last.path).resolve_right
    (accounted.enforced.on_disk accounted.enforced.last_mem), kept⟩

theorem enforced_within (accounted : log.Accounted last index)
    (low : log.cleanupTargetBytes ≤ log.maxTotalBytes) :
    log.enforceQuota.totalBytes ≤ log.maxTotalBytes ↔ last.bytes ≤ log.maxTotalBytes := by
  have enforced := accounted.enforced
  obtain ⟨before, ends⟩ := enforced.ends
  rw [enforced.total, ends, List.map_append, List.sum_append, List.map_singleton,
    List.sum_singleton]
  constructor
  · exact (Nat.le_add_left _ _).trans
  · intro alone
    obtain within | ⟨oldest, rest, segments, active⟩ := @evict_bound log.maxTotalBytes
      log.cleanupTargetBytes log.activePath log.segments log.totalBytes log.directory low
      accounted.total
    · have total : log.enforceQuota.totalBytes ≤ log.maxTotalBytes := within
      rwa [enforced.total, ends, List.map_append, List.sum_append, List.map_singleton,
        List.sum_singleton] at total
    · have listed : log.enforceQuota.segments = oldest :: rest := segments
      have same : last.path = oldest.path := Option.some.inj (accounted.active.symm.trans active)
      have distinct := enforced.distinct
      rw [ends] at distinct listed
      cases before with
      | nil => simpa using alone
      | cons first between =>
          obtain ⟨rfl, -⟩ := List.cons.inj listed
          simp [same] at distinct

/-- What a line does to the accounts and the files once there is room for it. -/
theorem appended (accounted : log.Accounted last index) (line : List UInt8) :
    let written := { last with bytes := last.bytes + (line.length + 1) }
    let next := (log.writeAll last.path line).enforceQuota
    next.Accounted written index ∧
      next.directory.content last.path =
        (log.directory.content last.path).map (· ++ (line ++ [10])) ∧
      (∀ path ≠ last.path, log.Kept next path) ∧
      (log.cleanupTargetBytes ≤ log.maxTotalBytes →
        (next.totalBytes ≤ log.maxTotalBytes ↔ written.bytes ≤ log.maxTotalBytes)) := by
  have written := accounted.written line
  obtain ⟨same, kept⟩ := written.enforced_content
  refine ⟨written.enforced, ?_, fun path other => ?_, written.enforced_within⟩
  · exact same.trans ((LogDirectory.content_append _).trans (if_pos rfl))
  · have content : (log.writeAll last.path line).directory.content path =
        log.directory.content path := (LogDirectory.content_append _).trans (if_neg other)
    have gone := kept path
    rwa [Kept, content] at gone

theorem step (accounted : log.Accounted last index) (wrote : log.writeLine line = some next) :
    ∃ last' index', next.Accounted last' index' ∧
      (log.activeFull = false ∧ index' = index ∧ last'.bytes = last.bytes + (line.length + 1) ∨
        log.activeFull = true ∧ index < index' ∧ last'.bytes = line.length + 1) ∧
      next.directory.content last'.path = some
        ((if log.activePath = some last'.path then (log.directory.content last'.path).getD []
          else []) ++ (line ++ [10])) ∧
      (∀ path ≠ last'.path, log.Kept next path) ∧
      next.maxTotalBytes = log.maxTotalBytes ∧
      next.cleanupTargetBytes = log.cleanupTargetBytes ∧
      (log.cleanupTargetBytes ≤ log.maxTotalBytes →
        (next.totalBytes ≤ log.maxTotalBytes ↔ last'.bytes ≤ log.maxTotalBytes)) := by
  rw [writeLine, accounted.sound] at wrote
  obtain ⟨opened, rotated, ended⟩ := Option.bind_eq_some_iff.mp wrote
  obtain ⟨room, rfl⟩ | ⟨full, later, above, fresh, empty, others, -, total, cleanup⟩ :=
    accounted.rotated rotated
  · rw [accounted.writing] at ended
    cases ended
    obtain ⟨accounted_, content, kept, within⟩ := accounted.appended line
    refine ⟨_, index, accounted_, .inl ⟨room, rfl, rfl⟩, ?_, kept, rfl, rfl, within⟩
    obtain ⟨held, found⟩ := Option.ne_none_iff_exists'.mp (accounted.on_disk accounted.last_mem)
    rw [content, if_pos accounted.active, found]
    rfl
  · rw [fresh.writing] at ended
    cases ended
    obtain ⟨accounted_, content, kept, within⟩ := fresh.appended line
    rw [cleanup, total] at within
    refine ⟨_, later, accounted_, .inr ⟨full, above, Nat.zero_add _⟩, ?_, fun path other => ?_,
      total, cleanup, within⟩
    · have different : last.path ≠ segmentName later := by
        rw [accounted.name]
        exact fun same => above.ne (segmentName_inj accounted.bound fresh.bound same)
      rw [content, empty, accounted.active, if_neg fun same => different (Option.some.inj same)]
      rfl
    · have gone := kept path other
      rwa [Kept, others path other] at gone

end Accounted

end FileWriter

end ClineProxy
