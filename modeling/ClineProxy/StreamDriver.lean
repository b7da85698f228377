import ClineProxy.SseDecoder
import ClineProxy.StreamCore

/-!
`stream_body` and `aggregate_stream_response`: what arrives from upstream, one arrival after
the other, and what is sent to the client for it.
-/

namespace ClineProxy

open Json

inductive Continuation where
  | unwritable
  | unsent
  | httpError
  | success
  deriving DecidableEq

/-- What the gateway's own calls yield at the end of a round. -/
structure RoundReplies where
  toolIds : Nat → String
  search : Nat → String → SearchOutcome
  continuation : Continuation

inductive Arrival where
  | bytes (chunk : List UInt8)
  | interrupted
  | stalled (kind : StallKind)
  | idle
  | ended (replies : RoundReplies)

structure ServerLoopContext where
  config : WebSearchConfig
  chatBody : Value

/-- `rounds`, `searches` and `requests` record what was done upstream after the first request,
`crashed` that a panic ended the stream. -/
structure StreamBody where
  state : StreamState
  decoder : SseDecoder
  serverLoop : Option ServerLoopContext
  usesLeft : Nat
  generationRounds : Nat
  rounds : List SearchRound
  searches : List String
  requests : List Value
  returned : Bool
  crashed : Bool

abbrev Output := StreamBody × List SseFrame

namespace StreamBody

def serverNames (serverLoop : Option ServerLoopContext) : List String :=
  if serverLoop.isSome then [webSearchFunctionName] else []

def start (requestId fallbackModel : String) (exposeThinking : Bool)
    (serverLoop : Option ServerLoopContext) : StreamBody where
  state := (StreamState.new requestId fallbackModel exposeThinking).withServerTools
    (serverNames serverLoop)
  decoder := .empty
  serverLoop := serverLoop
  usesLeft := (serverLoop.map fun context => context.config.maxUses.toNat).getD 0
  generationRounds := 1
  rounds := []
  searches := []
  requests := []
  returned := false
  crashed := false

def returnWith (body : StreamBody) (emission : Emission) : Output :=
  ({ body with state := emission.1, returned := true }, emission.2)

def returnError (body : StreamBody) (message : String) : Output :=
  body.returnWith (body.state, [errorFrame message body.state.requestId])

def handleEvents (platform : Platform) (state : StreamState) : List SseEvent → Emission
  | [] => (state, [])
  | event :: rest =>
      let handled := state.handle platform (String.ofList event.data)
      if handled.1.terminal || handled.1.roundComplete then handled
      else handled.andThen fun next => handleEvents platform next rest

def onBytes (platform : Platform) (body : StreamBody) (chunk : List UInt8) : Output :=
  match body.decoder.push chunk with
  | none => body.returnError "upstream SSE event exceeded the gateway limit"
  | some (decoder, events) =>
      let (state, frames) := handleEvents platform body.state events
      ({ body with state := state, decoder := decoder, returned := state.terminal }, frames)

def handleTrailing (platform : Platform) (state : StreamState) : List SseEvent → Emission
  | [] => (state, [])
  | event :: rest =>
      (state.handle platform (String.ofList event.data)).andThen fun next =>
        handleTrailing platform next rest

/-- The searches of a round; none is made when the budget is used up. -/
def searchOutcomes (platform : Platform) (replies : RoundReplies) (body : StreamBody)
    (exhausted : Bool) (calls : List OpenAiToolCall) : List SearchOutcome × Nat :=
  if exhausted then
    (calls.map fun call => .failed (queryOrEmpty platform.codec call) .maxUsesExceeded,
      body.usesLeft)
  else executeWebSearchRound platform.codec replies.search body.usesLeft calls

def searchRound (platform : Platform) (replies : RoundReplies) (calls : List OpenAiToolCall)
    (outcomes : List SearchOutcome) (state : StreamState) : Emission :=
  (state.emitServerToolUse platform replies.toolIds calls).andThen
    (StreamState.finishServerToolRound outcomes)

def searched (platform : Platform) (body : StreamBody) (exhausted : Bool)
    (calls : List OpenAiToolCall) : StreamBody :=
  { body with
    searches := body.searches ++
      if exhausted then [] else searchedQueries platform.codec body.usesLeft calls }

def appendRound (calls : List OpenAiToolCall) (outcomes : List SearchOutcome) :
    Option ServerLoopContext → Fallible (Option ServerLoopContext)
  | none => .ok none
  | some context => (appendServerRound context.chatBody calls outcomes).map fun chatBody =>
      some { context with chatBody := chatBody }

def request (body : StreamBody) : StreamBody :=
  { body with requests := body.requests ++ (body.serverLoop.map ServerLoopContext.chatBody).toList }

def continueWith (body : StreamBody) (continuation : Continuation) (shown : Emission) : Output :=
  match continuation with
  | .success =>
      ({ body.request with
        state := shown.1.beginNewRound
        decoder := .empty
        generationRounds := body.generationRounds + 1 }, shown.2)
  | .unwritable => fail body "search continuation could not be serialized"
  | .unsent => fail body.request "search continuation failed"
  | .httpError => fail body.request "search continuation failed"
where
  fail (body : StreamBody) (message : String) : Output :=
    body.returnWith (shown.andThen fun state => (state, [errorFrame message state.requestId]))

/-- The round is replayed in the next request; a panic ends the stream where it is. -/
def continueRound (body : StreamBody) (replies : RoundReplies) (calls : List OpenAiToolCall)
    (outcomes : List SearchOutcome) (shown : Emission) : Output :=
  let replayed : StreamBody := { body with rounds := body.rounds ++ [⟨calls, outcomes⟩] }
  match appendRound calls outcomes body.serverLoop with
  | .error _ => { replayed with crashed := true }.returnWith shown
  | .ok serverLoop =>
      { replayed with serverLoop := serverLoop }.continueWith replies.continuation shown

def serverRound (platform : Platform) (replies : RoundReplies) (body : StreamBody) : Output :=
  let calls := body.state.openaiToolCalls
  let names := serverNames body.serverLoop
  let serverCalls := calls.filter fun call => names.contains call.name
  match classifyRound calls names with
  | .none | .clientOnly => body.returnWith (body.state.finalize platform)
  | .mixed =>
      let outcomes := (body.searchOutcomes platform replies false serverCalls).1
      (body.searched platform false serverCalls).returnWith
        ((searchRound platform replies serverCalls outcomes body.state).andThen
          (StreamState.finalize platform))
  | .serverOnly =>
      let exhausted := body.usesLeft == 0 ||
        maxInternalGenerationRounds ≤ body.generationRounds
      let (outcomes, usesLeft) := body.searchOutcomes platform replies exhausted serverCalls
      let shown := searchRound platform replies serverCalls outcomes body.state
      let spent := { body.searched platform exhausted serverCalls with usesLeft := usesLeft }
      if exhausted then
        spent.returnWith (shown.andThen (StreamState.finalizeAsPaused platform))
      else spent.continueRound replies serverCalls outcomes shown

/-- The end of the upstream response, after its trailing event. -/
def onEndOfRound (platform : Platform) (replies : RoundReplies) (body : StreamBody) : Output :=
  if body.state.terminal then body.returnWith (body.state, [])
  else if body.serverLoop.isNone then
    if body.state.finishReason.isSome then body.returnWith (body.state.finalize platform)
    else body.returnError "upstream stream ended unexpectedly"
  else if body.state.finishReason.isNone && !body.state.roundComplete then
    body.returnError "upstream stream ended unexpectedly"
  else body.serverRound platform replies

def onEnded (platform : Platform) (replies : RoundReplies) (body : StreamBody) : Output :=
  if body.state.terminal then body.returnWith (body.state, [])
  else
    match body.decoder.finish with
    | none => body.returnError "upstream SSE event exceeded the gateway limit"
    | some events =>
        let trailing := handleTrailing platform body.state events
        let (last, frames) := { body with state := trailing.1 }.onEndOfRound platform replies
        (last, trailing.2 ++ frames)

def step (platform : Platform) (body : StreamBody) (arrival : Arrival) : Output :=
  if body.returned then (body, [])
  else
    match arrival with
    | .bytes chunk => body.onBytes platform chunk
    | .interrupted => body.returnError "upstream stream was interrupted"
    | .stalled kind => body.returnError kind.message
    | .idle => (body, [.ping])
    | .ended replies => body.onEnded platform replies

def run (platform : Platform) (body : StreamBody) : List Arrival → Output
  | [] => (body, [])
  | arrival :: rest =>
      let (next, frames) := body.step platform arrival
      let (last, later) := run platform next rest
      (last, frames ++ later)

theorem run_returned (platform : Platform) {body : StreamBody} (returned : body.returned = true)
    (arrivals : List Arrival) : body.run platform arrivals = (body, []) := by
  induction arrivals with
  | nil => rfl
  | cons arrival rest ih => simp [run, step, returned, ih]

end StreamBody

/-! Aggregation for clients that do not stream -/

def maxAggregatedResponseBytes : Nat := 16 * 1024 * 1024

structure Aggregation where
  accumulator : NonStreamAccumulator
  decoder : SseDecoder
  aggregatedBytes : Nat

namespace Aggregation

def start : Aggregation := ⟨.new, .empty, 0⟩

def handleEvents (codec : Codec) (accumulator : NonStreamAccumulator) :
    List SseEvent → Fallible NonStreamAccumulator
  | [] => .ok accumulator
  | event :: rest => do
      let next ← accumulator.handle codec (String.ofList event.data)
      handleEvents codec next rest

def onBytes (codec : Codec) (aggregation : Aggregation) (chunk : List UInt8) :
    Fallible Aggregation :=
  let total := aggregation.aggregatedBytes + chunk.length
  if maxAggregatedResponseBytes < total then
    upstreamError "upstream response exceeded the safe aggregation limit"
  else do
    let (decoder, events) ← orUpstreamError "upstream SSE event exceeded the gateway limit"
      (aggregation.decoder.push chunk)
    let accumulator ← handleEvents codec aggregation.accumulator events
    return ⟨accumulator, decoder, total⟩

def onEnded (codec : Codec) (requestId : String) (aggregation : Aggregation) : Fallible Value := do
  let events ← orUpstreamError "upstream SSE event exceeded the gateway limit"
    aggregation.decoder.finish
  let accumulator ← handleEvents codec aggregation.accumulator events
  accumulator.intoResponse requestId

def step (codec : Codec) (aggregation : Aggregation) : Arrival → Fallible Aggregation
  | .bytes chunk => aggregation.onBytes codec chunk
  | .interrupted => upstreamError "upstream stream was interrupted"
  | .stalled kind => .error (.rejected (.stall kind))
  | .idle | .ended _ => .ok aggregation

def aggregateStreamResponse (codec : Codec) (requestId : String) (arrivals : List Arrival) :
    Fallible Value := do
  let aggregation ← arrivals.foldlM (step codec) start
  aggregation.onEnded codec requestId

end Aggregation

end ClineProxy
