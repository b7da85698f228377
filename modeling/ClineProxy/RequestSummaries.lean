import ClineProxy.ResponsesDeliveries
import ClineProxy.StreamExits

/-!
The request summaries of `obs.rs`: the outcomes that are emitted for a request after it was
dispatched, on each of its paths. The other members of a summary are left out.
-/

namespace ClineProxy

open Json

def completeOutcome : String := "complete"

/-! The streaming path of Anthropic requests -/

structure StreamTelemetry where
  finished : Bool
  emitted : List String

namespace StreamTelemetry

def new : StreamTelemetry := ⟨false, []⟩

def finish (outcome : String) (telemetry : StreamTelemetry) : StreamTelemetry :=
  if telemetry.finished then telemetry
  else { finished := true, emitted := telemetry.emitted ++ [outcome] }

def drop (telemetry : StreamTelemetry) : StreamTelemetry :=
  if telemetry.finished then telemetry else telemetry.finish "client_disconnected"

end StreamTelemetry

/-- The outcome that an exit finishes with; a trailing event and a panic leave that to the drop.
A transport error may be a timeout. -/
def StreamExit.outcome (timedOut : Bool) : StreamExit → Option String
  | decodeError => some "decode_error"
  | terminal true => some completeOutcome
  | terminal false => some "protocol_error"
  | interrupted => some (if timedOut then "timeout" else "stream_transport")
  | stalled kind => some kind.asStr
  | trailing => none
  | finished => some completeOutcome
  | unexpectedEof => some "unexpected_eof"
  | unwritable => some "protocol_error"
  | httpError => some "upstream_protocol_error"
  | unsent => some "upstream_error"
  | crashed => none

/-- A stream that is polled, until it is left or dropped while it waits; a client that leaves
earlier has taken some frames, and the stream is dropped where it has handed over the last. -/
structure StreamRun where
  requestId : String
  fallbackModel : String
  exposeThinking : Bool
  serverLoop : Option ServerLoopContext
  arrivals : List Arrival
  timedOut : Bool
  taken : Option Nat

namespace StreamRun

def body (run : StreamRun) : StreamBody :=
  .start run.requestId run.fallbackModel run.exposeThinking run.serverLoop

def frames (platform : Platform) (run : StreamRun) : List SseFrame :=
  (run.body.run platform run.arrivals).2

/-- The client leaves before the stream has done what follows its last frame. -/
def suspended (platform : Platform) (run : StreamRun) : Bool :=
  run.taken.any fun count => count ≤ (run.frames platform).length

def produced (platform : Platform) (run : StreamRun) : List SseFrame :=
  run.taken.elim (run.frames platform) fun count => (run.frames platform).take count

def summaries (platform : Platform) (run : StreamRun) : List String :=
  let outcome := if run.suspended platform then none
    else (run.body.leftBy platform run.arrivals).bind (StreamExit.outcome run.timedOut)
  (outcome.elim StreamTelemetry.new fun outcome => StreamTelemetry.new.finish outcome).drop.emitted

def complete (platform : Platform) (run : StreamRun) : Prop :=
  .messageStop ∈ run.produced platform

end StreamRun

/-! The handlers of Anthropic requests that do not stream -/

def errorKind (error : ProtocolError) : String := error.stallKind.getD "protocol_error"

/-- A panic ends the handler before it emits anything. -/
def aggregationSummaries : Abort → List String
  | .rejected error => [errorKind error]
  | .panicked => []

def conversionSummaries {Result : Type} : Fallible Result → List String
  | .ok _ => [completeOutcome]
  | .error (.rejected _) => ["protocol_error"]
  | .error .panicked => []

/-- A request without a declared search; when the client leaves before the answer, the handler is
dropped and there is no response to it. -/
structure PlainRun where
  requestId : String
  fallbackModel : String
  exposeThinking : Bool
  response : Option (List Arrival)

namespace PlainRun

def aggregated (codec : Codec) (run : PlainRun) : Option (Fallible Value) :=
  run.response.map (Aggregation.aggregateStreamResponse codec run.requestId)

def converted (platform : Platform) (run : PlainRun) (body : Value) : Fallible Value :=
  convertResponse platform body run.requestId run.fallbackModel run.exposeThinking

def summaries (platform : Platform) (run : PlainRun) : List String :=
  match run.aggregated platform.codec with
  | none => []
  | some (.error abort) => aggregationSummaries abort
  | some (.ok body) => conversionSummaries (run.converted platform body)

def complete (platform : Platform) (run : PlainRun) : Prop :=
  ∃ body value, run.aggregated platform.codec = some (.ok body) ∧
    run.converted platform body = .ok value

end PlainRun

/-- What `complete_nonstream_with_web_search` emits where it returns after a round. -/
def LoopAnswer.summaries : LoopAnswer → List String
  | message _ => [completeOutcome]
  | protocolError _ => ["protocol_error"]
  | continuationFailed _ | crashed => []

/-- The handler is dropped while it waits when the client leaves before the next response. -/
def NonStreamLoop.summaries (platform : Platform) (loop : NonStreamLoop) :
    List UpstreamRound → List String
  | [] => []
  | upstream :: rest =>
      match Aggregation.aggregateStreamResponse platform.codec loop.requestId
          upstream.arrivals with
      | .error abort => aggregationSummaries abort
      | .ok _ =>
          match loop.round platform upstream with
          | (next, none) => next.summaries platform rest
          | (_, some answer) => answer.summaries

structure LoopRun where
  config : WebSearchConfig
  chatBody : Value
  requestId : String
  fallbackModel : String
  exposeThinking : Bool
  rounds : List UpstreamRound

namespace LoopRun

def loop (run : LoopRun) : NonStreamLoop :=
  .start run.config run.chatBody run.requestId run.fallbackModel run.exposeThinking

def summaries (platform : Platform) (run : LoopRun) : List String :=
  run.loop.summaries platform run.rounds

def complete (platform : Platform) (run : LoopRun) : Prop :=
  ∃ value, (run.loop.run platform run.rounds).2 = some (.message value)

end LoopRun

/-! Responses requests -/

/-- The client leaves before the events of the next arrival are handed over, or before the answer,
when the pump is not done. -/
structure PumpRun where
  delivery : Delivery
  responseId : String
  createdAt : UInt64
  model : String
  exposeThinking : Bool
  webSearch : Option ResponsesWebSearchContext
  chatBody : Value
  arrivals : List PumpArrival

namespace PumpRun

def pump (run : PumpRun) : ResponsesPump :=
  .start run.delivery run.responseId run.createdAt run.model run.exposeThinking run.webSearch
    run.chatBody

def last (codec : Codec) (run : PumpRun) : ResponsesPump := (run.pump.run codec run.arrivals).1

/-- `emit_stream_summary`; `stats.error` is set where the converter is finished with an error. -/
def summaries (codec : Codec) (run : PumpRun) : List String :=
  let last := run.last codec
  if last.done && !last.crashed then
    match run.delivery with
    | .streamed => [if last.converter.error.isSome then "upstream_error" else completeOutcome]
    | .aggregated => if last.failure.isSome then [] else [completeOutcome]
  else []

/-- The run ends in `response.completed` or `response.incomplete`, or in an answer with one of
these. -/
def complete (codec : Codec) (run : PumpRun) : Prop :=
  ∃ response, run.pump.terminal codec run.arrivals = some response ∧
    (response.status = .completed ∨ response.status = .incomplete)

end PumpRun

/-- How a request goes on from its dispatch. The client may leave while `send_chat` waits, or
before the body of its stream is polled for the first time: a `StreamRun` begins with that poll. -/
inductive RequestRun where
  | anthropicLeft
  | anthropicUnsent
  | anthropicHttpError
  | anthropicUnpolled
  | anthropicStream (run : StreamRun)
  | anthropicPlain (run : PlainRun)
  | anthropicLoop (run : LoopRun)
  | responsesLeft
  | responsesUnsent
  | responsesHttpError
  | responses (run : PumpRun)

namespace RequestRun

/-- The outcomes of the summaries that are emitted for the request. The telemetry of a stream is
made in its generator, which does nothing before the first poll. -/
def summaries (platform : Platform) : RequestRun → List String
  | anthropicLeft => []
  | anthropicUnsent => ["upstream_error"]
  | anthropicHttpError => []
  | anthropicUnpolled => []
  | anthropicStream run => run.summaries platform
  | anthropicPlain run => run.summaries platform
  | anthropicLoop run => run.summaries platform
  | responsesLeft | responsesUnsent | responsesHttpError => []
  | responses run => run.summaries platform.codec

def complete (platform : Platform) : RequestRun → Prop
  | anthropicStream run => run.complete platform
  | anthropicPlain run => run.complete platform
  | anthropicLoop run => run.complete platform
  | responses run => run.complete platform.codec
  | anthropicLeft | anthropicUnsent | anthropicHttpError | anthropicUnpolled | responsesLeft
  | responsesUnsent | responsesHttpError => False

end RequestRun

end ClineProxy
