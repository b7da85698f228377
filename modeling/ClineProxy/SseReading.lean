import ClineProxy.SseDecoder
import Mathlib.Algebra.GroupWithZero.Nat

/-! The events of a byte stream read line by line, and that the decoder finds them in any chunks. -/

namespace ClineProxy

open Text

structure PendingEvent where
  event : Option (List Char)
  data : List (List Char)

namespace PendingEvent

def blank : PendingEvent := ⟨none, []⟩

def ended (pending : PendingEvent) : List SseEvent :=
  if pending.data = [] then [] else [⟨pending.event, join ['\n'] pending.data⟩]

def read (pending : PendingEvent) (line : List Char) : PendingEvent × List SseEvent :=
  if line = [] then (blank, pending.ended)
  else
    match stripPrefix "data:".toList line, stripPrefix "event:".toList line with
    | some value, _ => (⟨pending.event, pending.data ++ [SseDecoder.dropSpace value]⟩, [])
    | none, some value => (⟨some (SseDecoder.dropSpace value), pending.data⟩, [])
    | none, none => (pending, [])

def readLines (pending : PendingEvent) : List (List Char) → PendingEvent × List SseEvent
  | [] => (pending, [])
  | line :: rest =>
      let (next, events) := pending.read line
      let (last, later) := next.readLines rest
      (last, events ++ later)

theorem readLines_append (pending : PendingEvent) (first second : List (List Char)) :
    pending.readLines (first ++ second) =
      (((pending.readLines first).1.readLines second).1,
        (pending.readLines first).2 ++ ((pending.readLines first).1.readLines second).2) := by
  induction first generalizing pending with
  | nil => rfl
  | cons line rest ih => simp only [List.cons_append, readLines, ih, List.append_assoc]

/-- The data lines have the property before, between and after the lines. -/
def Always (holds : List (List Char) → Prop) (pending : PendingEvent) : List (List Char) → Prop
  | [] => holds pending.data
  | line :: rest => holds pending.data ∧ (pending.read line).1.Always holds rest

theorem Always.first {holds : List (List Char) → Prop} {pending : PendingEvent}
    {lines : List (List Char)} (always : pending.Always holds lines) : holds pending.data := by
  cases lines with
  | nil => exact always
  | cons line rest => exact always.1

theorem always_append {holds : List (List Char) → Prop} {pending : PendingEvent}
    {first second : List (List Char)} : pending.Always holds (first ++ second) ↔
      pending.Always holds first ∧ (pending.readLines first).1.Always holds second := by
  induction first generalizing pending with
  | nil => exact ⟨fun always => ⟨always.first, always⟩, And.right⟩
  | cons line rest ih => simp only [List.cons_append, Always, readLines, ih, and_assoc]

end PendingEvent

def valueBytes (data : List (List Char)) : Nat := (data.map utf8Len).sum

def endedLines (bytes : List UInt8) : List (List Char) :=
  (bytes.splitOn 10).dropLast.map SseDecoder.lineText

def sseLines (bytes : List UInt8) : List (List Char) :=
  let left := (bytes.splitOn 10).getLastD []
  endedLines bytes ++ if left = [] then [] else [fromUtf8Lossy left]

/-- The end of the stream ends the last event. -/
def streamEvents (bytes : List UInt8) : List SseEvent :=
  let (last, events) := PendingEvent.blank.readLines (sseLines bytes)
  events ++ last.ended

namespace SseDecoder

def pending (decoder : SseDecoder) : PendingEvent := ⟨decoder.event, decoder.dataLines⟩

def Counted (decoder : SseDecoder) : Prop := decoder.dataBytes = valueBytes decoder.dataLines

def pushAll (decoder : SseDecoder) : List (List UInt8) → Option (SseDecoder × List SseEvent)
  | [] => some (decoder, [])
  | chunk :: rest =>
      match decoder.push chunk with
      | none => none
      | some (next, events) =>
          (next.pushAll rest).map fun (last, later) => (last, events ++ later)

def decode (chunks : List (List UInt8)) : Option (List SseEvent) :=
  (empty.pushAll chunks).bind fun (last, events) => last.finish.map fun later => events ++ later

theorem dispatch_pending (decoder : SseDecoder) :
    decoder.dispatch.1.pending = .blank ∧ decoder.dispatch.2 = decoder.pending.ended ∧
      decoder.dispatch.1.buffer = decoder.buffer := by
  rw [dispatch]
  cases lines : decoder.dataLines with
  | nil => simp [pending, PendingEvent.ended, PendingEvent.blank, lines]
  | cons line rest => simp [pending, PendingEvent.ended, PendingEvent.blank, lines]

theorem stripPrefix_comment {line : List Char} (comment : startsWith [':'] line = true)
    {name : List Char} (letter : name.head? ≠ some ':') (some_ : name ≠ []) :
    stripPrefix name line = none := by
  cases name with
  | nil => contradiction
  | cons first name =>
      cases line with
      | nil => cases comment
      | cons character rest =>
          have colon : ':' = character := by simpa [startsWith] using comment
          have other : first ≠ character := fun same => letter (by rw [same, colon]; rfl)
          simp [stripPrefix, startsWith, other]

theorem processLine_read (decoder : SseDecoder) (line : List Char) :
    (decoder.processLine line).1.pending = (decoder.pending.read line).1 ∧
      (decoder.processLine line).2 = (decoder.pending.read line).2 ∧
      (decoder.processLine line).1.buffer = decoder.buffer := by
  rw [processLine, PendingEvent.read]
  cases line with
  | nil => exact decoder.dispatch_pending
  | cons character rest =>
      have filled : (character :: rest).isEmpty = false := rfl
      have present : character :: rest ≠ [] := List.cons_ne_nil _ _
      simp only [filled, present, Bool.false_eq_true, ↓reduceIte]
      cases comment : startsWith [':'] (character :: rest) with
      | true =>
          have noData := @stripPrefix_comment _ comment "data:".toList (by decide) (by decide)
          have noEvent := @stripPrefix_comment _ comment "event:".toList (by decide) (by decide)
          rw [noData, noEvent]
          exact ⟨rfl, rfl, rfl⟩
      | false =>
          simp only [Bool.false_eq_true, ↓reduceIte]
          cases stripPrefix "data:".toList (character :: rest) with
          | some value => exact ⟨rfl, rfl, rfl⟩
          | none =>
              cases stripPrefix "event:".toList (character :: rest) with
              | some value => exact ⟨rfl, rfl, rfl⟩
              | none => exact ⟨rfl, rfl, rfl⟩

theorem processLine_counted {decoder : SseDecoder} (counted : decoder.Counted)
    (line : List Char) : (decoder.processLine line).1.Counted := by
  rw [processLine]
  split
  next =>
    rw [dispatch]
    split
    next => exact counted
    next => rfl
  next =>
    split
    next => exact counted
    next =>
      split
      next value =>
        change decoder.dataBytes + _ = valueBytes (decoder.dataLines ++ _)
        rw [show decoder.dataBytes = _ from counted]
        simp [valueBytes]
      next => split <;> exact counted

/-- The complete lines between two states of the decoder, whatever bytes follow. -/
structure Reads (decoder : SseDecoder) (chunk : List UInt8) (lines : List (List UInt8))
    (events : List SseEvent) (next : SseDecoder) : Prop where
  pieces : ∀ more, (decoder.buffer ++ (chunk ++ more)).splitOn 10 =
    lines ++ (next.buffer ++ more).splitOn 10
  reading : decoder.pending.readLines (lines.map lineText) = (next.pending, events)
  shorter : next.buffer.length ≤ decoder.buffer.length + chunk.length
  counted : decoder.Counted → next.Counted
  accepted : decoder.Counted → decoder.dataBytes ≤ maxUpstreamSseEventBytes →
    decoder.pending.Always (valueBytes · ≤ maxUpstreamSseEventBytes) (lines.map lineText)

theorem Reads.refl (decoder : SseDecoder) : Reads decoder [] [] [] decoder where
  pieces := fun _ => rfl
  reading := rfl
  shorter := Nat.le_refl _
  counted := id
  accepted := fun counted within => by
    rw [show decoder.dataBytes = _ from counted] at within
    exact within

theorem Reads.within {decoder next : SseDecoder} {chunk : List UInt8} {lines : List (List UInt8)}
    {events : List SseEvent} (reads : Reads decoder chunk lines events next)
    (counted : decoder.Counted) (small : decoder.dataBytes ≤ maxUpstreamSseEventBytes) :
    next.dataBytes ≤ maxUpstreamSseEventBytes := by
  have always := reads.accepted counted small
  rw [← List.append_nil (lines.map lineText), PendingEvent.always_append, reads.reading] at always
  rw [show next.dataBytes = _ from reads.counted counted]
  exact always.2.first

theorem Reads.trans {first second third : SseDecoder} {chunk later : List UInt8}
    {lines others : List (List UInt8)} {events more : List SseEvent}
    (reads : Reads first chunk lines events second) (goes : Reads second later others more third) :
    Reads first (chunk ++ later) (lines ++ others) (events ++ more) third where
  pieces := by
    intro rest
    rw [List.append_assoc, reads.pieces, goes.pieces, List.append_assoc]
  reading := by
    rw [List.map_append, PendingEvent.readLines_append, reads.reading]
    simp only [goes.reading]
  shorter := by
    have one := reads.shorter
    have two := goes.shorter
    rw [List.length_append]
    omega
  counted := fun counted => goes.counted (reads.counted counted)
  accepted := by
    intro counted small
    rw [List.map_append, PendingEvent.always_append, reads.reading]
    exact ⟨reads.accepted counted small,
      goes.accepted (reads.counted counted) (reads.within counted small)⟩

theorem first_line {bytes : List UInt8} (found : 10 ∈ bytes) :
    ∃ line rest, bytes = line ++ 10 :: rest ∧ 10 ∉ line ∧ bytes.takeWhile (· ≠ 10) = line ∧
      (bytes.dropWhile (· ≠ 10)).tail = rest := by
  obtain ⟨line, rest, rfl, apart⟩ := List.eq_append_cons_of_mem found
  have within : ∀ byte ∈ line, decide (byte ≠ 10) = true := by
    intro byte member
    exact decide_eq_true fun feed => apart (feed ▸ member)
  refine ⟨line, rest, rfl, apart, ?_, ?_⟩
  · rw [List.takeWhile_append_of_pos within, List.takeWhile_cons_of_neg (by decide),
      List.append_nil]
  · rw [List.dropWhile_append_of_pos within, List.dropWhile_cons_of_neg (by decide), List.tail_cons]

theorem drainLines_reads {fuel : Nat} {decoder next : SseDecoder} {events : List SseEvent}
    (enough : decoder.buffer.length ≤ fuel)
    (drained : drainLines fuel decoder = some (next, events)) :
    10 ∉ next.buffer ∧ ∃ lines, Reads decoder [] lines events next := by
  induction fuel generalizing decoder events with
  | zero =>
      cases drained
      have empty : next.buffer = [] := List.length_eq_zero_iff.mp (Nat.le_zero.mp enough)
      exact ⟨by simp [empty], [], .refl next⟩
  | succ fuel ih =>
      rw [drainLines] at drained
      split at drained
      next found =>
        obtain ⟨line, rest, whole, apart, taken, dropped⟩ :=
          first_line (List.contains_iff_mem.mp found)
        have turned := SseDecoder.processLine_read { decoder with buffer := rest } (lineText line)
        have counts (counted : decoder.Counted) := @SseDecoder.processLine_counted
          { decoder with buffer := rest } counted (lineText line)
        simp only [taken, dropped] at drained
        generalize SseDecoder.processLine { decoder with buffer := rest } (lineText line) = turn
          at turned counts drained
        have left : turn.1.buffer = rest := turned.2.2
        have read : decoder.pending.read (lineText line) = (turn.1.pending, turn.2) :=
          Prod.ext turned.1.symm turned.2.1.symm
        split at drained
        next => cases drained
        next small =>
          obtain ⟨⟨last, later⟩, drainedLater, same⟩ := Option.map_eq_some_iff.mp drained
          cases same
          have shorter : turn.1.buffer.length ≤ fuel := by
            rw [left]
            rw [whole, List.length_append, List.length_cons] at enough
            omega
          obtain ⟨absent, lines, reads⟩ := ih shorter drainedLater
          refine ⟨absent, line :: lines, ?_, ?_, ?_, fun counted => reads.counted (counts counted),
            ?_⟩
          · intro more
            have pieces := reads.pieces more
            rw [List.nil_append, left] at pieces
            rw [List.nil_append, whole, List.append_assoc, List.cons_append,
              List.splitOn_append_cons_self_of_not_mem apart, pieces, List.cons_append]
          · rw [List.map_cons, PendingEvent.readLines, read]
            simp only [reads.reading]
          · have less := reads.shorter
            rw [left] at less
            rw [whole, List.length_append, List.length_cons]
            simp only [List.length_nil] at less ⊢
            omega
          · intro counted within
            rw [show decoder.dataBytes = _ from counted] at within
            rw [List.map_cons, PendingEvent.Always, read]
            exact ⟨within, reads.accepted (counts counted) (Nat.not_lt.mp small)⟩
      next absent =>
        cases drained
        exact ⟨fun member => absent (List.contains_iff_mem.mpr member), [], .refl next⟩

theorem push_reads {decoder next : SseDecoder} {chunk : List UInt8} {events : List SseEvent}
    (pushed : decoder.push chunk = some (next, events)) :
    10 ∉ next.buffer ∧ ∃ lines, Reads decoder chunk lines events next := by
  rw [push] at pushed
  split at pushed
  next => cases pushed
  next =>
    obtain ⟨absent, lines, reads⟩ := @drainLines_reads _
      { decoder with buffer := decoder.buffer ++ chunk } _ _ (Nat.le_refl _) pushed
    refine ⟨absent, lines, ?_, reads.reading, ?_, reads.counted, reads.accepted⟩
    · intro more
      have pieces := reads.pieces more
      rwa [List.nil_append, List.append_assoc] at pieces
    · have less := reads.shorter
      rwa [List.length_nil, Nat.add_zero, List.length_append] at less

theorem pushAll_reads {decoder next : SseDecoder} {chunks : List (List UInt8)}
    {events : List SseEvent} (partial_ : 10 ∉ decoder.buffer)
    (pushed : decoder.pushAll chunks = some (next, events)) :
    10 ∉ next.buffer ∧ ∃ lines, Reads decoder chunks.flatten lines events next := by
  induction chunks generalizing decoder events with
  | nil =>
      cases pushed
      exact ⟨partial_, [], .refl next⟩
  | cons chunk rest ih =>
      rw [pushAll] at pushed
      split at pushed
      next => cases pushed
      next middle shown first =>
        obtain ⟨⟨last, later⟩, pushedRest, same⟩ := Option.map_eq_some_iff.mp pushed
        cases same
        obtain ⟨absent, lines, reads⟩ := push_reads first
        obtain ⟨absentLater, others, goes⟩ := ih absent pushedRest
        exact ⟨absentLater, lines ++ others, reads.trans goes⟩

theorem pushAll_pieces {next : SseDecoder} {chunks : List (List UInt8)} {events : List SseEvent}
    (pushed : empty.pushAll chunks = some (next, events)) :
    ∃ lines, chunks.flatten.splitOn 10 = lines ++ [next.buffer] ∧
      PendingEvent.blank.readLines (lines.map lineText) = (next.pending, events) := by
  obtain ⟨absent, lines, reads⟩ := pushAll_reads (by decide) pushed
  refine ⟨lines, ?_, reads.reading⟩
  have pieces := reads.pieces []
  rwa [List.append_nil, List.append_nil, List.splitOn_eq_singleton absent] at pieces

theorem finish_reads {decoder : SseDecoder} {events : List SseEvent}
    (finished : decoder.finish = some events) :
    let lines := if decoder.buffer = [] then [] else [fromUtf8Lossy decoder.buffer]
    events = (decoder.pending.readLines lines).2 ++ (decoder.pending.readLines lines).1.ended := by
  rw [finish] at finished
  split at finished
  next => cases finished
  next =>
    cases finished
    rw [lastLine]
    by_cases left : decoder.buffer = []
    · simp only [left, List.isEmpty_nil, ↓reduceIte, PendingEvent.readLines, List.nil_append]
      exact decoder.dispatch_pending.2.1
    · have filled : decoder.buffer.isEmpty = false := by simpa using left
      obtain ⟨pending_, events_, -⟩ := SseDecoder.processLine_read { decoder with buffer := [] }
        (fromUtf8Lossy decoder.buffer)
      simp only [left, filled, Bool.false_eq_true, ↓reduceIte, PendingEvent.readLines,
        List.append_nil]
      rw [(dispatch_pending _).2.1, pending_, events_]
      rfl

theorem decode_streamEvents {chunks : List (List UInt8)} {events : List SseEvent}
    (decoded : decode chunks = some events) : events = streamEvents chunks.flatten := by
  obtain ⟨⟨last, shown⟩, pushed, rest⟩ := Option.bind_eq_some_iff.mp decoded
  obtain ⟨later, finished, rfl⟩ := Option.map_eq_some_iff.mp rest
  obtain ⟨lines, pieces, reading⟩ := pushAll_pieces pushed
  have read := finish_reads finished
  have split : sseLines chunks.flatten = lines.map lineText ++
      if last.buffer = [] then [] else [fromUtf8Lossy last.buffer] := by
    simp only [sseLines, endedLines, pieces, List.dropLast_concat, List.getLastD_concat]
  rw [streamEvents, split, PendingEvent.readLines_append, reading, read]
  simp only [List.append_assoc]

end SseDecoder

theorem decode_chunking (first second : List (List UInt8)) (stream : first.flatten = second.flatten)
    (events others : List SseEvent) (decoded : SseDecoder.decode first = some events)
    (redecoded : SseDecoder.decode second = some others) :
    events = others ∧ events = streamEvents first.flatten := by
  have read := SseDecoder.decode_streamEvents decoded
  have reread := SseDecoder.decode_streamEvents redecoded
  rw [← stream] at reread
  exact ⟨read.trans reread.symm, read⟩

def accentEvent : SseEvent := ⟨none, ['é']⟩

theorem decode_chunking_cut :
    [accentEvent] = [accentEvent] ∧
      [accentEvent] = streamEvents [100, 97, 116, 97, 58, 195, 169, 13, 10, 10] :=
  decode_chunking [[100, 97, 116, 97, 58, 195], [169, 13], [10, 10]]
    [[100, 97, 116, 97, 58, 195, 169, 13, 10, 10]] rfl [accentEvent] [accentEvent] (by decide)
    (by decide)

end ClineProxy
