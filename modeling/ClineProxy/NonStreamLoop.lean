import ClineProxy.StreamDriver

/-!
`complete_nonstream_with_web_search`: the rounds of a request with a declared search, for
clients that do not stream.
-/

namespace ClineProxy

open Json

def openAiToolCall (call : Value) : OpenAiToolCall :=
  let function := (call.get "function").bind Value.asObject
  { id := ((call.get "id").bind Value.asStr).getD "call_unknown"
    name := ((function.bind (Map.get "name")).bind Value.asStr).getD "unknown"
    arguments := ((function.bind (Map.get "arguments")).bind Value.asStr).getD "" }

def extractOpenaiToolCalls (body : Value) : List OpenAiToolCall :=
  let message := (firstChoice body).bind fun choice =>
    (choice.get "message").or (choice.get "delta")
  (((message.bind (Value.get "tool_calls")).bind Value.asArray).getD []).map openAiToolCall

structure UpstreamRound where
  arrivals : List Arrival
  replies : RoundReplies

inductive LoopAnswer where
  | message (value : Value)
  | protocolError (error : ProtocolError)
  | continuationFailed (continuation : Continuation)
  | crashed

/-- `rounds`, `searches` and `requests` record what was done upstream after the first request. -/
structure NonStreamLoop where
  config : WebSearchConfig
  chatBody : Value
  requestId : String
  fallbackModel : String
  exposeThinking : Bool
  usesLeft : Nat
  generationRounds : Nat
  extraBlocks : List Value
  webSearchRequests : Nat
  rounds : List SearchRound
  searches : List String
  requests : List Value

abbrev LoopOutput := NonStreamLoop × Option LoopAnswer

namespace NonStreamLoop

def start (config : WebSearchConfig) (chatBody : Value) (requestId fallbackModel : String)
    (exposeThinking : Bool) : NonStreamLoop where
  config := config
  chatBody := chatBody
  requestId := requestId
  fallbackModel := fallbackModel
  exposeThinking := exposeThinking
  usesLeft := config.maxUses.toNat
  generationRounds := 0
  extraBlocks := []
  webSearchRequests := 0
  rounds := []
  searches := []
  requests := []

def serverNames : List String := [webSearchFunctionName]

def abortAnswer : Abort → LoopAnswer
  | .rejected error => .protocolError error
  | .panicked => .crashed

def answer (platform : Platform) (loop : NonStreamLoop) (body : Value)
    (stopOverride : Option String) : LoopOutput :=
  (loop, some (match convertResponseWith platform body loop.requestId loop.fallbackModel
      loop.exposeThinking ⟨loop.extraBlocks, serverNames, loop.webSearchRequests, stopOverride⟩ with
    | .ok value => .message value
    | .error abort => abortAnswer abort))

def outcomeBlocks (ids : Nat → String) : List SearchOutcome → List Value
  | [] => []
  | outcome :: rest =>
      let (use, result) := clientBlocks (ids rest.length) outcome
      use :: result :: outcomeBlocks ids rest

def showOutcomes (ids : Nat → String) (outcomes : List SearchOutcome) (loop : NonStreamLoop) :
    NonStreamLoop :=
  { loop with
    extraBlocks := loop.extraBlocks ++ outcomeBlocks ids outcomes
    webSearchRequests := loop.webSearchRequests + outcomes.length }

def search (codec : Codec) (replies : RoundReplies) (calls : List OpenAiToolCall)
    (loop : NonStreamLoop) : NonStreamLoop × List SearchOutcome :=
  let (outcomes, usesLeft) := executeWebSearchRound codec replies.search loop.usesLeft calls
  ({ loop with
      usesLeft := usesLeft
      searches := loop.searches ++ searchedQueries codec loop.usesLeft calls }.showOutcomes
    replies.toolIds outcomes, outcomes)

def exhaust (codec : Codec) (replies : RoundReplies) (calls : List OpenAiToolCall)
    (loop : NonStreamLoop) : NonStreamLoop :=
  loop.showOutcomes replies.toolIds (calls.map fun call =>
    .failed (queryOrEmpty codec call) .maxUsesExceeded)

def continueWith (continuation : Continuation) (chatBody : Value) (loop : NonStreamLoop) :
    LoopOutput :=
  ({ loop with
      chatBody := chatBody
      requests := loop.requests ++ if continuation = .unwritable then [] else [chatBody] },
    if continuation = .success then none else some (.continuationFailed continuation))

/-- The round is replayed in the next request; a panic leaves the client without an answer. -/
def continueRound (replies : RoundReplies) (calls : List OpenAiToolCall)
    (outcomes : List SearchOutcome) (loop : NonStreamLoop) : LoopOutput :=
  let replayed := { loop with rounds := loop.rounds ++ [SearchRound.mk calls outcomes] }
  match appendServerRound loop.chatBody calls outcomes with
  | .error abort => (replayed, some (abortAnswer abort))
  | .ok chatBody => replayed.continueWith replies.continuation chatBody

def onAggregated (platform : Platform) (replies : RoundReplies) (body : Value)
    (loop : NonStreamLoop) : LoopOutput :=
  let calls := extractOpenaiToolCalls body
  let serverCalls := calls.filter fun call => serverNames.contains call.name
  match classifyRound calls serverNames with
  | .none | .clientOnly => loop.answer platform body none
  | .mixed => (loop.search platform.codec replies serverCalls).1.answer platform body none
  | .serverOnly =>
      if loop.usesLeft == 0 || maxInternalGenerationRounds ≤ loop.generationRounds then
        (loop.exhaust platform.codec replies serverCalls).answer platform body
          (some "pause_turn")
      else
        let (searched, outcomes) := loop.search platform.codec replies serverCalls
        searched.continueRound replies serverCalls outcomes

def round (platform : Platform) (loop : NonStreamLoop) (upstream : UpstreamRound) : LoopOutput :=
  let begun := { loop with generationRounds := loop.generationRounds + 1 }
  match Aggregation.aggregateStreamResponse platform.codec loop.requestId upstream.arrivals with
  | .error abort => (begun, some (abortAnswer abort))
  | .ok body => begun.onAggregated platform upstream.replies body

/-- The loop over the upstream responses; no answer while it waits for the next one. -/
def run (platform : Platform) (loop : NonStreamLoop) : List UpstreamRound → LoopOutput
  | [] => (loop, none)
  | upstream :: rest =>
      match loop.round platform upstream with
      | (next, some answer) => (next, some answer)
      | (next, none) => run platform next rest

end NonStreamLoop

end ClineProxy
