import ClineProxy.SseReading
import ClineProxy.TextBytes

/-! How much the decoder of server-sent events holds and hands out. -/

namespace ClineProxy

open Text

/-- The bytes of the data lines with the line feeds that join them. -/
def joinedBytes (data : List (List Char)) : Nat := valueBytes data + (data.length - 1)

theorem utf8Len_join (data : List (List Char)) : utf8Len (join ['\n'] data) = joinedBytes data := by
  induction data with
  | nil => rfl
  | cons line rest ih =>
      cases rest with
      | nil => simp [join, joinedBytes, valueBytes]
      | cons next others =>
          have feed : utf8Len ['\n'] = 1 := rfl
          rw [join, List.intercalate_cons_cons, ← join, utf8Len_append, utf8Len_append, ih, feed]
          simp only [joinedBytes, valueBytes, List.map_cons, List.sum_cons, List.length_cons]
          omega

theorem joinedBytes_mono {data more : List (List Char)} (longer : data <+: more) :
    joinedBytes data ≤ joinedBytes more := by
  obtain ⟨rest, rfl⟩ := longer
  simp only [joinedBytes, valueBytes, List.map_append, List.sum_append, List.length_append]
  omega

/-- Data lines that are within the limit without their line feeds are so with them. -/
def LineFeedsFit (data : List (List Char)) : Prop :=
  valueBytes data ≤ maxUpstreamSseEventBytes → joinedBytes data ≤ maxUpstreamSseEventBytes

/-- The unfinished line, the data of the pending event and that of the events are bounded. -/
structure SseBounded (decoder : SseDecoder) (events : List SseEvent) : Prop where
  line : decoder.buffer.length ≤ maxUpstreamSseEventBytes
  pending : utf8Len (join ['\n'] decoder.dataLines) ≤ maxUpstreamSseEventBytes
  shown : ∀ event ∈ events, utf8Len event.data ≤ maxUpstreamSseEventBytes

namespace PendingEvent

variable {pending : PendingEvent} {limit : Nat}

theorem read_cases (pending : PendingEvent) (line : List Char) :
    (pending.read line = (blank, pending.ended)) ∨
      ((pending.read line).2 = [] ∧ pending.data <+: (pending.read line).1.data) := by
  rw [read]
  split
  next => exact .inl rfl
  next =>
    refine .inr ?_
    split
    next => exact ⟨rfl, List.prefix_append _ _⟩
    next => exact ⟨rfl, List.prefix_rfl⟩
    next => exact ⟨rfl, List.prefix_rfl⟩

theorem ended_bounded : (∀ event ∈ pending.ended, utf8Len event.data ≤ limit) ↔
    joinedBytes pending.data ≤ limit := by
  rw [ended]
  split
  next none_ => simp [none_, joinedBytes, valueBytes]
  next => simp [utf8Len_join]

theorem always_joined {lines : List (List Char)} :
    pending.Always (joinedBytes · ≤ limit) lines ↔
      joinedBytes (pending.readLines lines).1.data ≤ limit ∧
        ∀ event ∈ (pending.readLines lines).2, utf8Len event.data ≤ limit := by
  induction lines generalizing pending with
  | nil => simp [Always, readLines]
  | cons line rest ih =>
      simp only [Always, readLines, List.forall_mem_append]
      rcases pending.read_cases line with ended | ⟨none_, longer⟩
      · rw [ended, ih, ended_bounded]
        tauto
      · rw [none_, ih]
        constructor
        · rintro ⟨-, last, later⟩
          exact ⟨last, List.forall_mem_nil _, later⟩
        · rintro ⟨last, -, later⟩
          have next := (ih.mpr ⟨last, later⟩).first
          exact ⟨(joinedBytes_mono longer).trans next, last, later⟩

theorem Always.congr {first second third : List (List Char) → Prop} {lines : List (List Char)}
    (always : pending.Always first lines) (same : ∀ data, first data → (second data ↔ third data)) :
    pending.Always second lines ↔ pending.Always third lines := by
  induction lines generalizing pending with
  | nil => exact same _ always
  | cons line rest ih => exact and_congr (same _ always.1) (ih always.2)

end PendingEvent

namespace SseDecoder

theorem pushAll_line {decoder next : SseDecoder} {chunks : List (List UInt8)}
    {events : List SseEvent} (small : decoder.buffer.length ≤ maxUpstreamSseEventBytes)
    (pushed : decoder.pushAll chunks = some (next, events)) :
    next.buffer.length ≤ maxUpstreamSseEventBytes := by
  induction chunks generalizing decoder events with
  | nil =>
      cases pushed
      exact small
  | cons chunk rest ih =>
      rw [pushAll] at pushed
      split at pushed
      next => cases pushed
      next middle shown first =>
        obtain ⟨⟨last, later⟩, pushedRest, same⟩ := Option.map_eq_some_iff.mp pushed
        cases same
        obtain ⟨-, lines, reads⟩ := push_reads first
        have within : ¬maxUpstreamSseEventBytes < decoder.buffer.length + chunk.length := by
          intro over_
          rw [push, if_pos over_] at first
          cases first
        exact ih (reads.shorter.trans (Nat.not_lt.mp within)) pushedRest

/-- What is accepted within the limit is bounded exactly when its line feeds fit too. -/
theorem always_lineFeedsFit {pending : PendingEvent} {lines : List (List Char)}
    (accepted : pending.Always (valueBytes · ≤ maxUpstreamSseEventBytes) lines) :
    pending.Always LineFeedsFit lines ↔
      joinedBytes (pending.readLines lines).1.data ≤ maxUpstreamSseEventBytes ∧
        ∀ event ∈ (pending.readLines lines).2, utf8Len event.data ≤ maxUpstreamSseEventBytes := by
  rw [← PendingEvent.always_joined]
  refine accepted.congr fun data within => ?_
  exact ⟨fun fits => fits within, fun fits _ => fits⟩

theorem finish_accepted {decoder : SseDecoder} (counted : decoder.Counted)
    (small : decoder.dataBytes ≤ maxUpstreamSseEventBytes) {events : List SseEvent}
    (finished : decoder.finish = some events) :
    decoder.pending.Always (valueBytes · ≤ maxUpstreamSseEventBytes)
      (if decoder.buffer = [] then [] else [fromUtf8Lossy decoder.buffer]) := by
  have before : valueBytes decoder.pending.data ≤ maxUpstreamSseEventBytes := by
    rw [show decoder.dataBytes = _ from counted] at small
    exact small
  split
  next => exact before
  next left =>
    refine ⟨before, ?_⟩
    have filled : ¬decoder.buffer.isEmpty = true := by simpa using left
    rw [finish, lastLine, if_neg filled] at finished
    split at finished
    next => cases finished
    next within =>
      have counted_ := @processLine_counted { decoder with buffer := [] } counted
        (fromUtf8Lossy decoder.buffer)
      have read := (SseDecoder.processLine_read { decoder with buffer := [] }
        (fromUtf8Lossy decoder.buffer)).1
      rw [show SseDecoder.dataBytes _ = _ from counted_] at within
      have last := Nat.not_lt.mp within
      change valueBytes (SseDecoder.pending _).data ≤ _ at last
      rw [read] at last
      exact last

end SseDecoder

theorem sse_bounded (chunks : List (List UInt8)) (next : SseDecoder) (events : List SseEvent)
    (pushed : SseDecoder.empty.pushAll chunks = some (next, events)) :
    (SseBounded next events ↔
      PendingEvent.blank.Always LineFeedsFit (endedLines chunks.flatten)) ∧
    ∀ later, next.finish = some later →
      ((SseBounded next events ∧
          ∀ event ∈ later, utf8Len event.data ≤ maxUpstreamSseEventBytes) ↔
        PendingEvent.blank.Always LineFeedsFit (sseLines chunks.flatten)) := by
  obtain ⟨absent, lines, reads⟩ := SseDecoder.pushAll_reads (by decide) pushed
  have line := SseDecoder.pushAll_line (Nat.zero_le _) pushed
  have pieces := reads.pieces []
  rw [List.append_nil, List.append_nil, List.splitOn_eq_singleton absent] at pieces
  have stream : chunks.flatten.splitOn 10 = lines ++ [next.buffer] := pieces
  have ended : endedLines chunks.flatten = lines.map SseDecoder.lineText := by
    rw [endedLines, stream, List.dropLast_concat]
  have whole : sseLines chunks.flatten = lines.map SseDecoder.lineText ++
      if next.buffer = [] then [] else [fromUtf8Lossy next.buffer] := by
    rw [sseLines, ended, stream, List.getLastD_concat]
  have reading : PendingEvent.blank.readLines (lines.map SseDecoder.lineText) =
      (next.pending, events) := reads.reading
  have accepted : PendingEvent.blank.Always (valueBytes · ≤ maxUpstreamSseEventBytes)
      (lines.map SseDecoder.lineText) := reads.accepted rfl (Nat.zero_le _)
  have bounded : SseBounded next events ↔
      PendingEvent.blank.Always LineFeedsFit (lines.map SseDecoder.lineText) := by
    rw [SseDecoder.always_lineFeedsFit accepted, reading]
    constructor
    · intro fits
      refine ⟨?_, fits.shown⟩
      rw [← utf8Len_join]
      exact fits.pending
    · rintro ⟨pending, shown⟩
      rw [← utf8Len_join] at pending
      exact ⟨line, pending, shown⟩
  rw [ended, whole, PendingEvent.always_append, ← bounded, reading]
  refine ⟨Iff.rfl, fun later finished => and_congr_right fun _ => ?_⟩
  have last := SseDecoder.finish_accepted (reads.counted rfl) (reads.within rfl (Nat.zero_le _))
    finished
  rw [SseDecoder.always_lineFeedsFit last, SseDecoder.finish_reads finished,
    List.forall_mem_append, PendingEvent.ended_bounded]
  exact and_comm

instance PendingEvent.decidableAlways (holds : List (List Char) → Prop) [DecidablePred holds]
    (pending : PendingEvent) (lines : List (List Char)) : Decidable (pending.Always holds lines) :=
  match lines with
  | [] => inferInstanceAs (Decidable (holds pending.data))
  | line :: rest =>
      haveI := PendingEvent.decidableAlways holds (pending.read line).1 rest
      inferInstanceAs (Decidable (holds pending.data ∧ (pending.read line).1.Always holds rest))

instance decidableLineFeedsFit : DecidablePred LineFeedsFit :=
  fun _ => inferInstanceAs (Decidable (_ → _))

def cutEvents : List (List UInt8) :=
  ["data: caf".toUTF8.toList ++ [195], 169 :: "\ndata: b\n\nda".toUTF8.toList,
    "ta: c\ndata: d\nid".toUTF8.toList]

theorem sse_bounded_cut : ∃ next,
    SseDecoder.empty.pushAll cutEvents = some (next, [⟨none, "café\nb".toList⟩]) ∧
      next.dataLines = ["c".toList, "d".toList] ∧
      SseBounded next [⟨none, "café\nb".toList⟩] ∧
      next.finish = some [⟨none, "c\nd".toList⟩] ∧
      ∀ event ∈ [(⟨none, "c\nd".toList⟩ : SseEvent)],
        utf8Len event.data ≤ maxUpstreamSseEventBytes := by
  have pushed : SseDecoder.empty.pushAll cutEvents =
      some (⟨"id".toUTF8.toList, none, ["c".toList, "d".toList], 2⟩,
        [⟨none, "café\nb".toList⟩]) := by decide +kernel
  have finished : SseDecoder.finish ⟨"id".toUTF8.toList, none, ["c".toList, "d".toList], 2⟩ =
      some [⟨none, "c\nd".toList⟩] := by decide +kernel
  have whole := ((sse_bounded cutEvents _ _ pushed).2 _ finished).mpr (by decide +kernel)
  exact ⟨_, pushed, rfl, whole.1, finished, whole.2⟩

def dataLine : List UInt8 := [100, 97, 116, 97, 58, 10]

theorem pushAll_dataLines (count : Nat) (data : List (List Char)) :
    (SseDecoder.mk [] none data 0).pushAll (List.replicate count dataLine) =
      some (⟨[], none, data ++ List.replicate count [], 0⟩, []) := by
  induction count generalizing data with
  | zero => simp [SseDecoder.pushAll]
  | succ count ih =>
      have first : (SseDecoder.mk [] none data 0).push dataLine =
          some (⟨[], none, data ++ [[]], 0⟩, []) := rfl
      rw [List.replicate_succ, SseDecoder.pushAll, first]
      simp only [ih, Option.map_some, List.nil_append]
      rw [List.append_assoc, List.singleton_append, List.replicate_succ]

theorem dataLines_unbounded (limit : Nat) : ∃ chunks next,
    SseDecoder.empty.pushAll chunks = some (next, []) ∧
      limit < utf8Len (join ['\n'] next.dataLines) := by
  refine ⟨_, _, pushAll_dataLines (limit + 2) [], ?_⟩
  rw [utf8Len_join, joinedBytes, List.nil_append, List.length_replicate]
  omega

theorem sse_bounded_fails : ¬∀ chunks next events,
    SseDecoder.empty.pushAll chunks = some (next, events) → SseBounded next events := by
  intro bounded
  obtain ⟨chunks, next, pushed, large⟩ := dataLines_unbounded maxUpstreamSseEventBytes
  exact Nat.not_le.mpr large (bounded chunks next [] pushed).pending

end ClineProxy
