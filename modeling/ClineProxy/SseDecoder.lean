import ClineProxy.Text

/-! The decoder of server-sent events: byte chunks in, the data of complete events out. -/

namespace ClineProxy

open Text

def maxUpstreamSseEventBytes : Nat := 8 * 1024 * 1024

structure SseEvent where
  event : Option (List Char)
  data : List Char
  deriving DecidableEq

structure SseDecoder where
  buffer : List UInt8
  event : Option (List Char)
  dataLines : List (List Char)
  dataBytes : Nat
  deriving DecidableEq

namespace SseDecoder

def empty : SseDecoder := ⟨[], none, [], 0⟩

def dispatch (decoder : SseDecoder) : SseDecoder × List SseEvent :=
  if decoder.dataLines.isEmpty then ({ decoder with event := none }, [])
  else
    ({ decoder with event := none, dataLines := [], dataBytes := 0 },
      [⟨decoder.event, join ['\n'] decoder.dataLines⟩])

def dropSpace (value : List Char) : List Char := (stripPrefix [' '] value).getD value

def processLine (decoder : SseDecoder) (line : List Char) : SseDecoder × List SseEvent :=
  if line.isEmpty then decoder.dispatch
  else if startsWith [':'] line then (decoder, [])
  else
    match stripPrefix "data:".toList line with
    | some value =>
        let data := dropSpace value
        ({ decoder with
          dataBytes := decoder.dataBytes + utf8Len data
          dataLines := decoder.dataLines ++ [data] }, [])
    | none =>
        match stripPrefix "event:".toList line with
        | some value => ({ decoder with event := some (dropSpace value) }, [])
        | none => (decoder, [])

def lineText (line : List UInt8) : List Char :=
  fromUtf8Lossy (if line.getLast? = some 13 then line.dropLast else line)

/-- Takes the complete lines off the buffer, of which there are at most `fuel`. -/
def drainLines : Nat → SseDecoder → Option (SseDecoder × List SseEvent)
  | 0, decoder => some (decoder, [])
  | fuel + 1, decoder =>
      if decoder.buffer.contains 10 then
        let line := decoder.buffer.takeWhile (· ≠ 10)
        let rest := { decoder with buffer := (decoder.buffer.dropWhile (· ≠ 10)).tail }
        let (next, events) := rest.processLine (lineText line)
        if maxUpstreamSseEventBytes < next.dataBytes then none
        else (drainLines fuel next).map fun (last, later) => (last, events ++ later)
      else some (decoder, [])

/-- `none` when the event grew over the limit; the decoder is not used again then. -/
def push (decoder : SseDecoder) (bytes : List UInt8) : Option (SseDecoder × List SseEvent) :=
  if maxUpstreamSseEventBytes < decoder.buffer.length + bytes.length then none
  else
    let filled := decoder.buffer ++ bytes
    drainLines filled.length { decoder with buffer := filled }

def lastLine (decoder : SseDecoder) : SseDecoder × List SseEvent :=
  if decoder.buffer.isEmpty then (decoder, [])
  else { decoder with buffer := [] }.processLine (fromUtf8Lossy decoder.buffer)

def finish (decoder : SseDecoder) : Option (List SseEvent) :=
  let last := decoder.lastLine
  if maxUpstreamSseEventBytes < last.1.dataBytes then none
  else some (last.2 ++ last.1.dispatch.2)

theorem dispatch_length (decoder : SseDecoder) : decoder.dispatch.2.length ≤ 1 := by
  rw [dispatch]
  split <;> simp

theorem dispatch_twice (decoder : SseDecoder) : decoder.dispatch.1.dispatch.2 = [] := by
  rw [dispatch, dispatch]
  split <;> simp_all

theorem processLine_events {line : List Char} (filled : line.isEmpty = false)
    (decoder : SseDecoder) : (decoder.processLine line).2 = [] := by
  rw [processLine, if_neg (by simp [filled])]
  split
  next => rfl
  next =>
    split
    next => rfl
    next => split <;> rfl

theorem finish_length {decoder : SseDecoder} {events : List SseEvent}
    (finished : decoder.finish = some events) : events.length ≤ 1 := by
  have one (before : SseDecoder) (line : List Char) :
      ((before.processLine line).2 ++ (before.processLine line).1.dispatch.2).length ≤ 1 := by
    rcases filled : line.isEmpty with _ | _
    · rw [processLine_events filled, List.nil_append]
      exact dispatch_length _
    · rw [processLine, if_pos filled, dispatch_twice, List.append_nil]
      exact dispatch_length _
  rw [finish] at finished
  split at finished
  next => cases finished
  next =>
    cases finished
    rw [lastLine]
    split
    next => exact dispatch_length _
    next => exact one _ _

end SseDecoder

end ClineProxy
