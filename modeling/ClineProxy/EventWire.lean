import ClineProxy.JsonText
import ClineProxy.LossyDecoding
import ClineProxy.SseReading
import ClineProxy.StreamCore
import ClineProxy.ResponsesCore

/-!
Events as the gateway writes them, and that its own decoder reads back what was written, however
the bytes are cut.
-/

namespace ClineProxy

open Text Json

theorem control_notMem_char {character control : Char} (ascii : control.toNat < 128)
    (other : character ≠ control) :
    UInt8.ofNat control.toNat ∉ String.utf8EncodeChar character := by
  have high {code : Nat} (least : 128 ≤ code) (small : code < 256) :
      UInt8.ofNat control.toNat ≠ UInt8.ofNat code := by
    intro same
    have value := congrArg UInt8.toNat same
    rw [toNat_byte small, toNat_byte (by omega)] at value
    omega
  rcases utf8EncodeChar_cases character with ⟨own, encoded⟩ | ⟨-, -, encoded⟩ | ⟨-, -, encoded⟩ |
      ⟨-, encoded⟩
  · rw [encoded, List.mem_singleton]
    intro same
    have value := congrArg UInt8.toNat same
    rw [toNat_byte (by omega), toNat_byte (by omega)] at value
    rw [← Char.ofNat_toNat character, ← Char.ofNat_toNat control, value] at other
    exact other rfl
  all_goals
    rw [encoded]
    simp only [List.mem_cons, List.not_mem_nil, or_false, not_or]
    refine ⟨?_, ?_⟩ <;> (try refine ⟨?_, ?_⟩) <;> (try refine ⟨?_, ?_⟩) <;>
      exact high (by omega) (by omega)

theorem control_notMem {line : List Char} {control : Char} (ascii : control.toNat < 128)
    (absent : control ∉ line) : UInt8.ofNat control.toNat ∉ utf8Bytes line := by
  rw [utf8Bytes, List.mem_flatMap]
  rintro ⟨character, member, inside⟩
  exact control_notMem_char ascii (fun same => absent (same ▸ member)) inside

def OneLine (text : List Char) : Prop := '\n' ∉ text ∧ '\r' ∉ text

def linesText (lines : List (List Char)) : List Char := lines.flatMap fun line => line ++ ['\n']

theorem splitOn_lines {lines : List (List Char)} (plain : ∀ line ∈ lines, '\n' ∉ line) :
    (utf8Bytes (linesText lines)).splitOn 10 = lines.map utf8Bytes ++ [[]] := by
  induction lines with
  | nil => rfl
  | cons line rest ih =>
      have feed : utf8Bytes ['\n'] = [10] := by decide
      have apart : (10 : UInt8) ∉ utf8Bytes line :=
        @control_notMem line '\n' (by decide) (plain line List.mem_cons_self)
      have text : linesText (line :: rest) = line ++ (['\n'] ++ linesText rest) := by
        simp [linesText]
      rw [text, utf8Bytes_append, utf8Bytes_append, feed, List.singleton_append,
        List.splitOn_append_cons_self_of_not_mem apart,
        ih fun other member => plain other (List.mem_cons_of_mem _ member), List.map_cons,
        List.cons_append]

theorem lineText_utf8Bytes {line : List Char} (plain : '\r' ∉ line) :
    SseDecoder.lineText (utf8Bytes line) = line := by
  have apart : (13 : UInt8) ∉ utf8Bytes line := @control_notMem line '\r' (by decide) plain
  have last : (utf8Bytes line).getLast? ≠ some 13 := fun found =>
    apart (List.mem_of_getLast? found)
  rw [SseDecoder.lineText, if_neg last, fromUtf8Lossy_utf8Bytes]

theorem endedLines_lines {lines : List (List Char)} (plain : ∀ line ∈ lines, OneLine line) :
    endedLines (utf8Bytes (linesText lines)) = lines := by
  rw [endedLines, splitOn_lines fun line member => (plain line member).1, List.dropLast_concat,
    List.map_map]
  exact (List.map_congr_left fun line member => lineText_utf8Bytes (plain line member).2).trans
    (List.map_id lines)

namespace SseDecoder

theorem endedLines_cons {line rest : List UInt8} (apart : 10 ∉ line) :
    endedLines (line ++ 10 :: rest) = lineText line :: endedLines rest := by
  rw [endedLines, List.splitOn_append_cons_self_of_not_mem apart, List.dropLast_cons_of_ne_nil
    (List.splitOn_ne_nil 10 rest), List.map_cons, endedLines]

theorem drainLines_accepts {fuel : Nat} {decoder : SseDecoder} (more : List UInt8)
    (counted : decoder.Counted) (always : decoder.pending.Always
      (valueBytes · ≤ maxUpstreamSseEventBytes) (endedLines (decoder.buffer ++ more))) :
    (drainLines fuel decoder).isSome = true := by
  induction fuel generalizing decoder with
  | zero => rfl
  | succ fuel ih =>
      rw [drainLines]
      split
      next found =>
        obtain ⟨line, rest, whole, apart, taken, dropped⟩ :=
          first_line (List.contains_iff_mem.mp found)
        have turned := processLine_read { decoder with buffer := rest } (lineText line)
        have counts := @processLine_counted { decoder with buffer := rest } counted (lineText line)
        rw [whole, List.append_assoc, List.cons_append, endedLines_cons apart] at always
        simp only [taken, dropped]
        generalize processLine { decoder with buffer := rest } (lineText line) = turn
          at turned counts ⊢
        have left : turn.1.buffer = rest := turned.2.2
        have read : (decoder.pending.read (lineText line)).1 = turn.1.pending := turned.1.symm
        have later := always.2
        rw [read, ← left] at later
        have small : ¬maxUpstreamSseEventBytes < turn.1.dataBytes := by
          rw [show turn.1.dataBytes = _ from counts]
          exact Nat.not_lt.mpr later.first
        rw [if_neg small, Option.isSome_map]
        exact ih counts later
      next => rfl

theorem partial_line {left : List UInt8} (open_ : 10 ∉ left) (more : List UInt8) :
    ∃ line ∈ (left ++ more).splitOn 10, left.length ≤ line.length := by
  by_cases found : 10 ∈ more
  · obtain ⟨line, rest, rfl, apart⟩ := List.eq_append_cons_of_mem found
    refine ⟨left ++ line, ?_, by simp⟩
    have whole : 10 ∉ left ++ line := fun member =>
      (List.mem_append.mp member).elim open_ apart
    rw [← List.append_assoc, List.splitOn_append_cons_self_of_not_mem whole]
    exact List.mem_cons_self
  · have whole : 10 ∉ left ++ more := fun member =>
      (List.mem_append.mp member).elim open_ found
    refine ⟨left ++ more, ?_, by simp⟩
    rw [List.splitOn_eq_singleton whole]
    exact List.mem_singleton_self _

theorem pushAll_accepts {decoder : SseDecoder} (chunks : List (List UInt8))
    (open_ : 10 ∉ decoder.buffer) (counted : decoder.Counted)
    (small : decoder.dataBytes ≤ maxUpstreamSseEventBytes)
    (always : decoder.pending.Always (valueBytes · ≤ maxUpstreamSseEventBytes)
      (endedLines (decoder.buffer ++ chunks.flatten)))
    (fits : ∀ chunk ∈ chunks, ∀ line ∈ (decoder.buffer ++ chunks.flatten).splitOn 10,
      line.length + chunk.length ≤ maxUpstreamSseEventBytes) :
    ∃ last, decoder.pushAll chunks = some last := by
  induction chunks generalizing decoder with
  | nil => exact ⟨_, rfl⟩
  | cons chunk rest ih =>
      obtain ⟨line, member, least⟩ := partial_line open_ (chunk :: rest).flatten
      have room : ¬maxUpstreamSseEventBytes < decoder.buffer.length + chunk.length := by
        have bound := fits chunk List.mem_cons_self line member
        omega
      rw [List.flatten_cons] at always fits
      have drained : (decoder.push chunk).isSome = true := by
        rw [push, if_neg room]
        refine @drainLines_accepts _ { decoder with buffer := decoder.buffer ++ chunk }
          rest.flatten counted ?_
        rwa [List.append_assoc]
      obtain ⟨⟨next, shown⟩, pushed⟩ := Option.isSome_iff_exists.mp drained
      obtain ⟨absent, lines, reads⟩ := push_reads pushed
      have pieces := reads.pieces rest.flatten
      have ended : endedLines (decoder.buffer ++ (chunk ++ rest.flatten)) =
          lines.map lineText ++ endedLines (next.buffer ++ rest.flatten) := by
        rw [endedLines, pieces, List.dropLast_append_of_ne_nil (List.splitOn_ne_nil 10 _),
          List.map_append, endedLines]
      rw [ended, PendingEvent.always_append, reads.reading] at always
      obtain ⟨⟨last, later⟩, goes⟩ := ih absent (reads.counted counted)
        (reads.within counted small) always.2 fun other inside line member =>
          fits other (List.mem_cons_of_mem _ inside) line
            (by rw [pieces]; exact List.mem_append_right _ member)
      rw [pushAll, pushed]
      simp [goes]

theorem decode_lines {lines : List (List Char)} {chunks : List (List UInt8)}
    {events : List SseEvent} (cut : chunks.flatten = utf8Bytes (linesText lines))
    (plain : ∀ line ∈ lines, OneLine line)
    (always : PendingEvent.blank.Always (valueBytes · ≤ maxUpstreamSseEventBytes) lines)
    (fits : ∀ chunk ∈ chunks, ∀ line ∈ lines,
      utf8Len line + chunk.length ≤ maxUpstreamSseEventBytes)
    (small : ∀ chunk ∈ chunks, chunk.length ≤ maxUpstreamSseEventBytes)
    (read : PendingEvent.blank.readLines lines = (.blank, events)) :
    decode chunks = some events := by
  have split := splitOn_lines fun line member => (plain line member).1
  obtain ⟨⟨last, shown⟩, pushed⟩ := @pushAll_accepts empty chunks (by simp [empty]) rfl
    (Nat.zero_le _) (by rw [cut]; exact (endedLines_lines plain).symm ▸ always) (by
      intro chunk inside line member
      change line ∈ chunks.flatten.splitOn 10 at member
      rw [cut, split] at member
      rcases List.mem_append.mp member with whole | rest
      · obtain ⟨text, given, rfl⟩ := List.mem_map.mp whole
        rw [length_utf8Bytes]
        exact fits chunk inside text given
      · rw [List.mem_singleton.mp rest, List.length_nil, Nat.zero_add]
        exact small chunk inside)
  obtain ⟨pieces, found, reading⟩ := pushAll_pieces pushed
  rw [cut, split] at found
  obtain ⟨rfl, left⟩ := List.append_inj' found rfl
  have empty_ : last.buffer = [] := (List.singleton_inj.mp left).symm
  have same : (lines.map utf8Bytes).map lineText = lines := by
    rw [List.map_map]
    exact (List.map_congr_left fun line member => lineText_utf8Bytes (plain line member).2).trans
      (List.map_id lines)
  rw [same, read, Prod.mk.injEq] at reading
  obtain ⟨blank, rfl⟩ := reading
  obtain ⟨-, others, reads⟩ := pushAll_reads (by simp [empty]) pushed
  have counted : last.dataBytes = valueBytes last.dataLines := reads.counted rfl
  have noLines : last.dataLines = [] := congrArg PendingEvent.data blank.symm
  have dispatched : last.dispatch.2 = [] := by
    rw [(dispatch_pending last).2.1, ← blank]
    rfl
  have finished : last.finish = some [] := by
    have within : ¬maxUpstreamSseEventBytes < last.dataBytes := by
      rw [counted, noLines]
      exact Nat.not_lt.mpr (Nat.zero_le _)
    have whole : last.lastLine = (last, []) := by rw [lastLine, if_pos (by simp [empty_])]
    simp only [finish, whole]
    rw [if_neg within, dispatched, List.append_nil]
  rw [decode, pushed, Option.bind_some]
  simp [finished]

end SseDecoder

def SseEvent.lines (event : SseEvent) : List (List Char) :=
  (event.event.map fun name => "event: ".toList ++ name).toList ++
    ["data: ".toList ++ event.data, []]

def SseEvent.wire (event : SseEvent) : List Char := linesText event.lines

def SseEvent.Plain (event : SseEvent) : Prop :=
  (∀ name ∈ event.event, OneLine name) ∧ OneLine event.data

theorem linesText_flatMap (events : List SseEvent) :
    linesText (events.flatMap SseEvent.lines) = events.flatMap SseEvent.wire := by
  rw [linesText, List.flatMap_assoc]
  rfl

theorem OneLine.append {first second : List Char} (before : OneLine first)
    (after : OneLine second) : OneLine (first ++ second) :=
  ⟨fun member => (List.mem_append.mp member).elim before.1 after.1,
    fun member => (List.mem_append.mp member).elim before.2 after.2⟩

theorem SseEvent.lines_plain {event : SseEvent} (plain : event.Plain) :
    ∀ line ∈ event.lines, OneLine line := by
  have field : OneLine "event: ".toList := ⟨by decide, by decide⟩
  have data : OneLine "data: ".toList := ⟨by decide, by decide⟩
  intro line member
  rcases List.mem_append.mp member with named | rest
  · obtain ⟨name, given, rfl⟩ := Option.map_eq_some_iff.mp (Option.mem_toList.mp named)
    exact field.append (plain.1 name given)
  · rcases List.mem_cons.mp rest with rfl | last
    · exact data.append plain.2
    · rw [List.mem_singleton.mp last]
      exact ⟨List.not_mem_nil, List.not_mem_nil⟩

namespace PendingEvent

theorem read_name (name : List Char) :
    blank.read ("event: ".toList ++ name) = (⟨some name, []⟩, []) := rfl

theorem read_data (event : Option (List Char)) (data : List Char) :
    (⟨event, []⟩ : PendingEvent).read ("data: ".toList ++ data) = (⟨event, [data]⟩, []) := rfl

theorem read_end (event : Option (List Char)) (data : List Char) :
    (⟨event, [data]⟩ : PendingEvent).read [] = (blank, [⟨event, data⟩]) := by
  simp [read, ended, join]

theorem readLines_event (event : SseEvent) : blank.readLines event.lines = (blank, [event]) := by
  obtain ⟨name, data⟩ := event
  have rest : (⟨name, []⟩ : PendingEvent).readLines ["data: ".toList ++ data, []] =
      (blank, [⟨name, data⟩]) := by
    simp only [readLines, read_data, read_end, List.nil_append, List.append_nil]
  cases name with
  | none => exact rest
  | some name =>
      change blank.readLines (("event: ".toList ++ name) :: ["data: ".toList ++ data, []]) = _
      rw [readLines, read_name]
      simp only [rest, List.nil_append]

theorem readLines_events (events : List SseEvent) :
    blank.readLines (events.flatMap SseEvent.lines) = (blank, events) := by
  induction events with
  | nil => rfl
  | cons event rest ih =>
      rw [List.flatMap_cons, readLines_append, readLines_event, ih]
      rfl

theorem always_events {limit : Nat} {events : List SseEvent}
    (small : ∀ event ∈ events, utf8Len event.data ≤ limit) :
    blank.Always (valueBytes · ≤ limit) (events.flatMap SseEvent.lines) := by
  induction events with
  | nil => exact Nat.zero_le _
  | cons event rest ih =>
      rw [List.flatMap_cons, always_append, readLines_event]
      refine ⟨?_, ih fun other member => small other (List.mem_cons_of_mem _ member)⟩
      obtain ⟨name, data⟩ := event
      have data_ : valueBytes [data] ≤ limit := by
        rw [valueBytes, List.map_singleton, List.sum_singleton]
        exact small _ List.mem_cons_self
      have rest : (⟨name, []⟩ : PendingEvent).Always (valueBytes · ≤ limit)
          ["data: ".toList ++ data, []] := by
        refine ⟨Nat.zero_le _, ?_⟩
        rw [read_data]
        refine ⟨data_, ?_⟩
        rw [read_end]
        exact Nat.zero_le _
      cases name with
      | none => exact rest
      | some name => exact ⟨Nat.zero_le _, rest⟩

end PendingEvent

/-- What was written as events is decoded as these events, however the bytes are cut. -/
theorem decode_wire {events : List SseEvent} {chunks : List (List UInt8)}
    (cut : chunks.flatten = utf8Bytes (events.flatMap SseEvent.wire))
    (plain : ∀ event ∈ events, event.Plain)
    (fits : ∀ chunk ∈ chunks, ∀ event ∈ events,
      utf8Len event.wire + chunk.length ≤ maxUpstreamSseEventBytes) :
    SseDecoder.decode chunks = some events := by
  have line_le {event : SseEvent} {line : List Char} (member : line ∈ event.lines) :
      utf8Len line ≤ utf8Len event.wire := by
    obtain ⟨before, after, whole⟩ := List.append_of_mem member
    rw [SseEvent.wire, whole, linesText, List.flatMap_append, List.flatMap_cons, utf8Len_append,
      utf8Len_append, utf8Len_append]
    omega
  have data_le (event : SseEvent) : utf8Len event.data ≤ utf8Len event.wire := by
    have inside : "data: ".toList ++ event.data ∈ event.lines := by simp [SseEvent.lines]
    have whole := line_le inside
    rw [utf8Len_append] at whole
    omega
  have wire_pos (event : SseEvent) : 0 < utf8Len event.wire := by
    obtain ⟨name, data⟩ := event
    have blank : ([] : List Char) ∈ (⟨name, data⟩ : SseEvent).lines := by simp [SseEvent.lines]
    obtain ⟨before, after, whole⟩ := List.append_of_mem blank
    have feed : utf8Len ['\n'] = 1 := rfl
    rw [SseEvent.wire, whole, linesText, List.flatMap_append, List.flatMap_cons, List.nil_append,
      utf8Len_append, utf8Len_append, feed]
    omega
  have total : chunks.flatten.length = utf8Len (events.flatMap SseEvent.wire) := by
    rw [cut, length_utf8Bytes]
  have some_chunk : ∀ event ∈ events, ∃ chunk, chunk ∈ chunks := by
    intro event member
    refine List.exists_mem_of_ne_nil chunks fun none_ => ?_
    obtain ⟨before, after, rfl⟩ := List.append_of_mem member
    rw [none_, List.flatMap_append, List.flatMap_cons, utf8Len_append, utf8Len_append] at total
    have least := wire_pos event
    simp only [List.flatten_nil, List.length_nil] at total
    omega
  have plainLines : ∀ line ∈ events.flatMap SseEvent.lines, OneLine line := by
    intro line member
    obtain ⟨event, given, inside⟩ := List.mem_flatMap.mp member
    exact SseEvent.lines_plain (plain event given) line inside
  refine SseDecoder.decode_lines (by rw [cut, linesText_flatMap]) plainLines
    (PendingEvent.always_events fun event member => ?_) ?_ ?_ (PendingEvent.readLines_events events)
  · obtain ⟨chunk, inside⟩ := some_chunk event member
    have bound := fits chunk inside event member
    have data := data_le event
    omega
  · intro chunk inside line member
    obtain ⟨event, given, held⟩ := List.mem_flatMap.mp member
    have bound := fits chunk inside event given
    have whole := line_le held
    omega
  · intro chunk inside
    cases events with
    | nil =>
        have empty : chunk = [] := List.flatten_eq_nil_iff.mp cut chunk inside
        rw [empty]
        exact Nat.zero_le _
    | cons event rest =>
        have bound := fits chunk inside event List.mem_cons_self
        omega

/-- The text of a document takes one line and is read as the document. -/
def WritesWell (codec : Codec) (value : Value) : Prop :=
  OneLine (codec.toText value).toList ∧ codec.fromStr (codec.toText value) = some value

instance (text : List Char) : Decidable (OneLine text) :=
  inferInstanceAs (Decidable (_ ∧ _))

instance (codec : Codec) (value : Value) : Decidable (WritesWell codec value) :=
  inferInstanceAs (Decidable (_ ∧ _))

def readEvents (codec : Codec) (events : List SseEvent) : List (Option String × Option Value) :=
  events.map fun event => (event.event.map String.ofList, codec.fromStr (String.ofList event.data))

section Written

variable {Item : Type} (name : Item → Option String) (data : Item → Value) (codec : Codec)

def writtenEvent (item : Item) : SseEvent :=
  ⟨(name item).map String.toList, (codec.toText (data item)).toList⟩

/-- Items that are written as events are read back, however the bytes are cut on the way. -/
theorem written_read_back {items : List Item} {chunks : List (List UInt8)}
    (names : ∀ item ∈ items, ∀ text ∈ name item, OneLine text.toList)
    (written : ∀ item ∈ items, WritesWell codec (data item))
    (cut : chunks.flatten =
      utf8Bytes (items.flatMap fun item => (writtenEvent name data codec item).wire))
    (fits : ∀ chunk ∈ chunks, ∀ item ∈ items,
      utf8Len (writtenEvent name data codec item).wire + chunk.length ≤
        maxUpstreamSseEventBytes) :
    (SseDecoder.decode chunks).map (readEvents codec) =
      some (items.map fun item => (name item, some (data item))) := by
  have decoded : SseDecoder.decode chunks = some (items.map (writtenEvent name data codec)) := by
    refine decode_wire (by rw [cut, List.flatMap_map]) ?_ ?_
    · intro event member
      obtain ⟨item, given, rfl⟩ := List.mem_map.mp member
      refine ⟨fun text named => ?_, (written item given).1⟩
      obtain ⟨own, found, rfl⟩ := Option.map_eq_some_iff.mp named
      exact names item given own found
    · intro chunk inside event member
      obtain ⟨item, given, rfl⟩ := List.mem_map.mp member
      exact fits chunk inside item given
  rw [decoded, Option.map_some, readEvents, List.map_map]
  refine congrArg some (List.map_congr_left fun item member => ?_)
  have read := (written item member).2
  cases named : name item <;> simp [writtenEvent, named, read]

end Written

theorem SseFrame.oneLine_event (frame : SseFrame) : OneLine frame.event.toList := by
  cases frame <;> simp only [SseFrame.event] <;> exact ⟨by decide, by decide⟩

theorem SseFrame.wire_eq (codec : Codec) (frame : SseFrame) :
    (writtenEvent (fun frame => some frame.event) SseFrame.data codec frame).wire =
      (frame.sseFrame codec).toList := by
  simp [writtenEvent, SseEvent.wire, SseEvent.lines, linesText, SseFrame.sseFrame]

/-- The frames of a stream are read as what was written, however their bytes are cut. -/
theorem frames_read_back {codec : Codec} {frames : List SseFrame} {chunks : List (List UInt8)}
    (written : ∀ frame ∈ frames, WritesWell codec frame.data)
    (cut : chunks.flatten =
      utf8Bytes (frames.flatMap fun frame => (frame.sseFrame codec).toList))
    (fits : ∀ chunk ∈ chunks, ∀ frame ∈ frames,
      utf8Len (frame.sseFrame codec).toList + chunk.length ≤ maxUpstreamSseEventBytes) :
    (SseDecoder.decode chunks).map (readEvents codec) =
      some (frames.map fun frame => (some frame.event, some frame.data)) := by
  simp only [← SseFrame.wire_eq] at cut fits
  have names : ∀ frame ∈ frames, ∀ text ∈ some frame.event, OneLine text.toList := by
    intro frame _ text named
    have same : frame.event = text := Option.some.inj named
    rw [← same]
    exact frame.oneLine_event
  have read := @written_read_back SseFrame (fun frame => some frame.event) SseFrame.data codec
    frames chunks
  exact read names written cut fits

theorem SequencedEvent.wire_eq (codec : Codec) (uuid : Nat → String) (sent : SequencedEvent) :
    (writtenEvent (fun _ => none) (SequencedEvent.data uuid) codec sent).wire =
      (sent.sseEvent codec uuid).toList := by
  simp [writtenEvent, SseEvent.wire, SseEvent.lines, linesText, SequencedEvent.sseEvent]

theorem responses_read_back {codec : Codec} (uuid : Nat → String) {sent : List SequencedEvent}
    {chunks : List (List UInt8)}
    (written : ∀ event ∈ sent, WritesWell codec (event.data uuid))
    (cut : chunks.flatten =
      utf8Bytes (sent.flatMap fun event => (event.sseEvent codec uuid).toList))
    (fits : ∀ chunk ∈ chunks, ∀ event ∈ sent,
      utf8Len (event.sseEvent codec uuid).toList + chunk.length ≤ maxUpstreamSseEventBytes) :
    (SseDecoder.decode chunks).map (readEvents codec) =
      some (sent.map fun event => (none, some (event.data uuid))) := by
  simp only [← SequencedEvent.wire_eq] at cut fits
  refine written_read_back (fun _ => none) (SequencedEvent.data uuid) codec ?_ written cut fits
  rintro event - text named
  cases named

theorem frames_read_back_cut :
    (SseDecoder.decode [textBytes "event: ping\ndata: \x7b\"type\":\"ping\"\x7d\n\neven",
        textBytes "t: message_stop\ndata: \x7b\"type\":\"message_stop\"\x7d\n\n"]).map
      (readEvents (documentCodec [SseFrame.data .ping, SseFrame.data .messageStop])) =
        some [(some "ping", some (SseFrame.data .ping)),
          (some "message_stop", some (SseFrame.data .messageStop))] :=
  @frames_read_back _ [.ping, .messageStop] _ (by decide +kernel) (by decide +kernel)
    (by decide +kernel)

end ClineProxy
