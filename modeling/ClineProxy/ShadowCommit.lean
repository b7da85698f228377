import ClineProxy.RequestSummaries
import ClineProxy.ShadowStore

/-!
What is committed to the reasoning shadow store at the end of a request, on each of its paths,
beside the chunks that the path has read.
-/

namespace ClineProxy

open Json Clock

inductive ShadowAction where
  | keep
  | clear
  | store (toolCallIds : List String) (reasoning : String)
  deriving DecidableEq

namespace ShadowAction

/-- The store passes over an empty reasoning and over no ids. -/
def settled : ShadowAction → ShadowAction
  | store toolCallIds reasoning =>
      if reasoning.isEmpty || toolCallIds.isEmpty then keep else store toolCallIds reasoning
  | action => action

/-- The same action; the ids come in any order. -/
inductive Same : ShadowAction → ShadowAction → Prop
  | keep : Same keep keep
  | clear : Same clear clear
  | store {first second : List String} (ids : first.Perm second) (reasoning : String) :
      Same (store first reasoning) (store second reasoning)

def Alike (first second : ShadowAction) : Prop := Same first.settled second.settled

end ShadowAction

/-- The chunks of the generations before the last, and those of the last. -/
structure Generations where
  earlier : List (List Value)
  current : List Value
  deriving DecidableEq

namespace Generations

def new : Generations := ⟨[], []⟩

def read (generations : Generations) (values : List Value) : Generations :=
  { generations with current := generations.current ++ values }

def next (generations : Generations) : Generations :=
  ⟨generations.earlier ++ [generations.current], []⟩

def behind (values : List Value) (generations : Generations) : Generations :=
  { generations with earlier := values :: generations.earlier }

end Generations

/-! Streams of Anthropic requests -/

namespace StreamState

/-- `commit_shadow`, with the reasoning that was kept; the hash map yields its tools in an order
of its own. -/
def commitShadow (platform : Platform) (shadowReasoning : String) (state : StreamState) :
    ShadowAction :=
  if state.tools.isEmpty then .clear
  else if shadowReasoning.isEmpty then .keep
  else
    let ids := (platform.order (state.tools.map Prod.fst)).filterMap fun index =>
      (OrderedMap.lookup index state.tools).bind ToolStream.id
    if ids.isEmpty then .keep else .store ids shadowReasoning

def unexposed (state : StreamState) (values : List Value) : String :=
  if state.exposeThinking then "" else String.join (values.map chunkReasoning)

end StreamState

namespace StreamBody

def handledValues (platform : Platform) (state : StreamState) : List SseEvent → List Value
  | [] => []
  | event :: rest =>
      let data := String.ofList event.data
      let next := (state.handle platform data).1
      (readPayload platform.codec data).value?.toList ++
        if next.terminal || next.roundComplete then [] else handledValues platform next rest

def trailingValues (codec : Codec) (events : List SseEvent) : List Value :=
  events.filterMap fun event => (readPayload codec (String.ofList event.data)).value?

def valuesOf (platform : Platform) (body : StreamBody) : Arrival → List Value
  | .bytes chunk =>
      match body.decoder.push chunk with
      | none => []
      | some (_, events) => handledValues platform body.state events
  | .ended _ => trailingValues platform.codec (body.decoder.finish.getD [])
  | .interrupted | .stalled _ | .idle => []

end StreamBody

def StreamExit.commits : StreamExit → Bool
  | terminal _ | finished => true
  | decodeError | interrupted | stalled _ | trailing | unexpectedEof | unwritable | httpError
  | unsent | crashed => false

/-- A stream with `shadow_reasoning`, what it has read and what it has committed. -/
structure ShadowStream where
  body : StreamBody
  generations : Generations
  shadowReasoning : String
  action : ShadowAction

namespace ShadowStream

def start (body : StreamBody) : ShadowStream := ⟨body, .new, "", .keep⟩

def step (platform : Platform) (stream : ShadowStream) (arrival : Arrival) : ShadowStream :=
  if stream.body.returned then stream
  else
    let values := stream.body.valuesOf platform arrival
    let read := stream.generations.read values
    let shadowReasoning := stream.shadowReasoning ++ stream.body.state.unexposed values
    let next := (stream.body.step platform arrival).1
    match stream.body.exit platform arrival with
    | none => ⟨next, if arrival.isEnd then read.next else read, shadowReasoning, stream.action⟩
    | some exit =>
        ⟨next, read, shadowReasoning,
          if exit.commits then next.state.commitShadow platform shadowReasoning
          else stream.action⟩

def run (platform : Platform) (stream : ShadowStream) (arrivals : List Arrival) : ShadowStream :=
  arrivals.foldl (step platform) stream

end ShadowStream

namespace StreamRun

def shadow (platform : Platform) (run : StreamRun) : ShadowStream :=
  (ShadowStream.start run.body).run platform run.arrivals

def generations (platform : Platform) (run : StreamRun) : Generations :=
  (run.shadow platform).generations

/-- A stream is given the store when its request is `shadow_eligible`. -/
def shadowAction (platform : Platform) (eligible : Bool) (run : StreamRun) : ShadowAction :=
  if !eligible || run.suspended platform then .keep else (run.shadow platform).action

end StreamRun

/-! The handlers of Anthropic requests that do not stream -/

def storeReasoningShadow (upstream : Value) : ShadowAction :=
  match ((firstChoice upstream).bind fun choice => choice.get "message").bind Value.asObject with
  | none => .keep
  | some message =>
      let reasoning := reasoningText message
      let ids := callIds (((message.get "tool_calls").bind Value.asArray).getD [])
      if ids.isEmpty then .clear
      else if reasoning.isEmpty then .keep else .store ids reasoning

def Arrival.chunk : Arrival → Option (List UInt8)
  | bytes chunk => some chunk
  | interrupted | stalled _ | idle | ended _ => none

def arrivedValues (codec : Codec) (arrivals : List Arrival) : List Value :=
  responseValues codec (arrivals.filterMap Arrival.chunk)

namespace PlainRun

def generations (codec : Codec) (run : PlainRun) : Generations :=
  ⟨[], (run.response.map (arrivedValues codec)).getD []⟩

def shadowAction (codec : Codec) (run : PlainRun) : ShadowAction :=
  match run.aggregated codec with
  | some (.ok body) => storeReasoningShadow body
  | _ => .keep

end PlainRun

namespace NonStreamLoop

def generations (platform : Platform) (loop : NonStreamLoop) : List UpstreamRound → Generations
  | [] => .new
  | upstream :: rest =>
      let values := arrivedValues platform.codec upstream.arrivals
      match loop.round platform upstream with
      | (next, none) => (next.generations platform rest).behind values
      | (_, some _) => ⟨[], values⟩

/-- The response that the loop is left with is committed before it is converted. -/
def shadowAction (platform : Platform) (loop : NonStreamLoop) : List UpstreamRound → ShadowAction
  | [] => .keep
  | upstream :: rest =>
      match Aggregation.aggregateStreamResponse platform.codec loop.requestId
          upstream.arrivals with
      | .error _ => .keep
      | .ok body =>
          if leavesLoop (extractOpenaiToolCalls body) serverNames loop.usesLeft
              (loop.generationRounds + 1) then storeReasoningShadow body
          else
            match loop.round platform upstream with
            | (next, none) => next.shadowAction platform rest
            | (_, some _) => .keep

end NonStreamLoop

inductive NonStreamRun where
  | plain (run : PlainRun)
  | loop (run : LoopRun)

namespace NonStreamRun

def generations (platform : Platform) : NonStreamRun → Generations
  | plain run => run.generations platform.codec
  | loop run => run.loop.generations platform run.rounds

def shadowAction (platform : Platform) : NonStreamRun → ShadowAction
  | plain run => run.shadowAction platform.codec
  | loop run => run.loop.shadowAction platform run.rounds

def complete (platform : Platform) : NonStreamRun → Prop
  | plain run => run.complete platform
  | loop run => run.complete platform

end NonStreamRun

/-! Responses requests -/

namespace ResponsesConverter

def reasoningText (converter : ResponsesConverter) : String :=
  (converter.reasoning.map TextItemState.accum).getD ""

def toolCallIds (converter : ResponsesConverter) : List String :=
  converter.tools.map fun entry => entry.2.callId

def commitShadow (converter : ResponsesConverter) : ShadowAction :=
  if converter.finishReason = some "tool_calls" then
    .store converter.toolCallIds converter.reasoningText
  else if converter.finishReason.isSome then .clear
  else .keep

end ResponsesConverter

def Generations.take (generations : Generations) : ConverterCall → Generations
  | .feedChunk chunk => generations.read [chunk]
  | .searchRound _ _ => generations.next
  | .finish _ => generations

namespace PumpRun

def generations (codec : Codec) (run : PumpRun) : Generations :=
  (run.pump.run codec run.arrivals).2.foldl Generations.take .new

/-- An aggregation that fails returns before it commits. -/
def shadowAction (codec : Codec) (run : PumpRun) : ShadowAction :=
  let last := run.last codec
  if last.done && !last.crashed && last.failure.isNone then last.converter.commitShadow else .keep

end PumpRun

end ClineProxy
