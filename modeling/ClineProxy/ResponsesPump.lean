import ClineProxy.ResponsesConverter
import ClineProxy.StreamDriver

/-!
`responses_pump.rs`: which calls the pump makes to the converter for what arrives from
upstream, for clients that stream and for those that do not.
-/

namespace ClineProxy

open Json

structure ResponsesWebSearchContext where
  maxUses : Nat
  domains : Option DomainFilter

/-- `clamp(1, MAX_WEB_SEARCH_USES_PER_REQUEST)` -/
def clampedUses (uses : UInt64) : UInt64 := min (max uses 1) maxWebSearchUsesPerRequest

/-- The least budget that a `web_search` tool declares. -/
def declaredUses (tool : Value) (least : Option UInt64) : Option UInt64 :=
  match (tool.get "max_uses").bind Value.asU64 with
  | none => least
  | some uses => some (least.elim (clampedUses uses) fun other => min other (clampedUses uses))

def webSearchMaxUses (tools : List Value) : Option Nat :=
  let declared := tools.filter fun tool =>
    (tool.get "type").bind Value.asStr = some "web_search"
  if declared.isEmpty then none
  else
    let least := declared.foldl (fun least tool => declaredUses tool least) none
    some (least.getD maxWebSearchUsesPerRequest).toNat

inductive Delivery where
  | streamed
  | aggregated
  deriving DecidableEq

inductive PumpArrival where
  | bytes (chunk : List UInt8) (replies : RoundReplies)
  | interrupted
  | stalled (kind : StallKind)
  | idle
  | ended

/-- `rounds`, `searches` and `requests` record what was done upstream after the first request. -/
structure ResponsesPump where
  delivery : Delivery
  converter : ResponsesConverter
  buffer : List UInt8
  webSearch : Option ResponsesWebSearchContext
  roundsLeft : Nat
  chatBody : Value
  rounds : List SearchRound
  searches : List String
  requests : List Value
  done : Bool
  crashed : Bool
  failure : Option ProtocolError

abbrev PumpOutput := ResponsesPump × List ConverterCall

def maxUpstreamSseLineBytes : Nat := 8 * 1024 * 1024

def isBlank (byte : UInt8) : Bool := byte == 32 || byte == 9 || byte == 13

def trimAscii (bytes : List UInt8) : List UInt8 :=
  ((bytes.dropWhile isBlank).reverse.dropWhile isBlank).reverse

/-- The complete lines of a buffer, without their line feeds, and what is left of it. -/
def splitLines : List UInt8 → List (List UInt8) × List UInt8
  | [] => ([], [])
  | byte :: rest =>
      let (lines, left) := splitLines rest
      if byte = 10 then ([] :: lines, left)
      else
        match lines with
        | [] => ([], byte :: left)
        | line :: later => ((byte :: line) :: later, left)

def asciiBytes (text : String) : List UInt8 := text.toList.map fun letter => letter.toNat.toUInt8

inductive PumpLine where
  | skipped
  | done
  | chunk (value : Value)

def readLine (codec : Codec) (line : List UInt8) : PumpLine :=
  let trimmed := trimAscii line
  if trimmed.isEmpty || maxUpstreamSseLineBytes < trimmed.length ||
      !(asciiBytes "data:").isPrefixOf trimmed then .skipped
  else
    let payload := trimAscii (trimmed.drop 5)
    if payload = asciiBytes "[DONE]" then .done
    else (codec.fromSlice payload).elim .skipped .chunk

namespace ResponsesPump

def serverToolNames (webSearch : Option ResponsesWebSearchContext) : List String :=
  if webSearch.isSome then [webSearchFunctionName] else []

def maxUses (webSearch : Option ResponsesWebSearchContext) : Nat :=
  (webSearch.map ResponsesWebSearchContext.maxUses).getD 0

def start (delivery : Delivery) (responseId : String) (createdAt : UInt64) (model : String)
    (exposeThinking : Bool) (webSearch : Option ResponsesWebSearchContext) (chatBody : Value) :
    ResponsesPump where
  delivery := delivery
  converter := .withServerTools responseId createdAt model exposeThinking
    (serverToolNames webSearch)
  buffer := []
  webSearch := webSearch
  roundsLeft := maxUses webSearch
  chatBody := chatBody
  rounds := []
  searches := []
  requests := []
  done := false
  crashed := false
  failure := none

def call (pump : ResponsesPump) (call : ConverterCall) : PumpOutput :=
  ({ pump with converter := (pump.converter.apply call).1 }, [call])

/-- A stream ends with `response.failed`, an aggregation with an error. -/
def fail (error : ProtocolError) (pump : ResponsesPump) : PumpOutput :=
  match pump.delivery with
  | .streamed => { pump with done := true }.call (.finish (some error.message))
  | .aggregated => ({ pump with done := true, failure := some error }, [])

def unexpectedEnd : ProtocolError := .upstream "upstream stream ended unexpectedly"

def endOfStream (pump : ResponsesPump) : PumpOutput :=
  if pump.converter.finishReason.isNone then pump.fail unexpectedEnd
  else { pump with done := true }.call (.finish none)

/-- The outcomes of a round, with the budget of the request. -/
def executeServerRound (codec : Codec) (replies : RoundReplies) (pump : ResponsesPump)
    (calls : List OpenAiToolCall) : List SearchOutcome :=
  (executeWebSearchRound codec replies.search (maxUses pump.webSearch) calls).1

def continuationFailure : Continuation → Option String
  | .success => none
  | .unwritable => some "search continuation could not be serialized"
  | .unsent | .httpError => some "search continuation failed"

/-- Asks for the next round; the rest of the buffer belongs to the last one. -/
def startContinuation (continuation : Continuation) (chatBody : Value) (pump : ResponsesPump) :
    PumpOutput :=
  let asked := { pump with
    chatBody := chatBody
    buffer := []
    requests := pump.requests ++ if continuation = .unwritable then [] else [chatBody] }
  match continuationFailure continuation with
  | none => (asked, [])
  | some message => asked.fail (.upstream message)

/-- The round is replayed in the next request; a panic ends the pump where it is. -/
def serverRound (codec : Codec) (replies : RoundReplies) (pump : ResponsesPump) : PumpOutput :=
  let calls := pump.converter.serverToolCalls
  let outcomes := executeServerRound codec replies pump calls
  let executed : ResponsesPump := { pump with
    roundsLeft := pump.roundsLeft - 1
    rounds := pump.rounds ++ [⟨calls, outcomes⟩]
    searches := pump.searches ++ searchedQueries codec (maxUses pump.webSearch) calls }
  let (shown, made) := executed.call (.searchRound calls outcomes)
  match appendServerRound pump.chatBody calls outcomes with
  | .error _ => ({ shown with done := true, crashed := true }, made)
  | .ok chatBody =>
      let (last, later) := shown.startContinuation replies.continuation chatBody
      (last, made ++ later)

def onDone (codec : Codec) (replies : RoundReplies) (pump : ResponsesPump) : PumpOutput :=
  if pump.delivery = .aggregated && pump.converter.finishReason.isNone then
    pump.fail unexpectedEnd
  else if pump.converter.hasServerTools && !pump.converter.hasClientTools &&
      0 < pump.roundsLeft then
    pump.serverRound codec replies
  else pump.endOfStream

def processLines (codec : Codec) (replies : RoundReplies) (pump : ResponsesPump) :
    List (List UInt8) → PumpOutput
  | [] => (pump, [])
  | line :: rest =>
      match readLine codec line with
      | .skipped => processLines codec replies pump rest
      | .done => pump.onDone codec replies
      | .chunk value =>
          let (fed, made) := pump.call (.feedChunk value)
          let (last, later) := processLines codec replies fed rest
          (last, made ++ later)

/-- What a batch has made is sent at its end, so a panic loses it. -/
def onBytes (codec : Codec) (replies : RoundReplies) (pump : ResponsesPump)
    (chunk : List UInt8) : PumpOutput :=
  let (lines, left) := splitLines (pump.buffer ++ chunk)
  let (last, made) := processLines codec replies { pump with buffer := left } lines
  (last, if last.crashed then [] else made)

def step (codec : Codec) (pump : ResponsesPump) (arrival : PumpArrival) : PumpOutput :=
  if pump.done then (pump, [])
  else
    match arrival with
    | .bytes chunk replies => pump.onBytes codec replies chunk
    | .interrupted => pump.fail (.upstream "upstream stream was interrupted")
    | .stalled kind => pump.fail (.stall kind)
    | .idle => (pump, [])
    | .ended => pump.endOfStream

def run (codec : Codec) (pump : ResponsesPump) : List PumpArrival → PumpOutput
  | [] => (pump, [])
  | arrival :: rest =>
      let (next, made) := pump.step codec arrival
      let (last, later) := run codec next rest
      (last, made ++ later)

def events (codec : Codec) (pump : ResponsesPump) (arrivals : List PumpArrival) :
    List SequencedEvent :=
  (pump.converter.applyAll (pump.run codec arrivals).2).2

def answer (pump : ResponsesPump) : Option (Except ProtocolError ResponseObject) :=
  if pump.done && !pump.crashed then
    some (match pump.failure with
      | some error => .error error
      | none => .ok pump.converter.nonstreamResponse)
  else none

end ResponsesPump

end ClineProxy
