import ClineProxy.ResponseCore
import ClineProxy.WebSearch

/-! `StreamState`: the frames that the payloads of an upstream stream are turned into. -/

namespace ClineProxy

open Json

inductive SseFrame where
  | messageStart (message : Value)
  | blockStart (index : Nat) (block : Value)
  | blockDelta (index : Nat) (kind field text : String)
  | blockStop (index : Nat)
  | messageDelta (stopReason stopSequence usage : Value)
  | messageStop
  | error (envelope : Value)
  | ping

namespace SseFrame

def event : SseFrame → String
  | messageStart _ => "message_start"
  | blockStart .. => "content_block_start"
  | blockDelta .. => "content_block_delta"
  | blockStop _ => "content_block_stop"
  | messageDelta .. => "message_delta"
  | messageStop => "message_stop"
  | error _ => "error"
  | ping => "ping"

def members : SseFrame → Map
  | messageStart message => [("message", message)]
  | blockStart index block => [("index", .ofNat index), ("content_block", block)]
  | blockDelta index kind field text =>
      [("index", .ofNat index),
       ("delta", .object [("type", .string kind), (field, .string text)])]
  | blockStop index => [("index", .ofNat index)]
  | messageDelta stopReason stopSequence usage =>
      [("delta", .object [("stop_reason", stopReason), ("stop_sequence", stopSequence)]),
       ("usage", usage)]
  | messageStop | error _ | ping => []

def data : SseFrame → Value
  | error envelope => envelope
  | frame => .object (("type", .string frame.event) :: frame.members)

def sseFrame (codec : Codec) (frame : SseFrame) : String :=
  "event: " ++ frame.event ++ "\ndata: " ++ codec.toText frame.data ++ "\n\n"

end SseFrame

def errorFrame (message requestId : String) : SseFrame :=
  .error (errorEnvelope "api_error" message requestId)

inductive BlockKind where
  | text
  | thinking
  | tool
  | closed
  deriving DecidableEq

structure ToolStream where
  blockIndex : Option Nat
  id : Option String
  name : Option String
  pendingArguments : String
  server : Bool
  deriving DecidableEq

def ToolStream.empty : ToolStream := ⟨none, none, none, "", false⟩

structure StreamState where
  requestId : String
  fallbackModel : String
  exposeThinking : Bool
  started : Bool
  terminal : Bool
  roundComplete : Bool
  blocks : List BlockKind
  textIndex : Option Nat
  thinkingIndex : Option Nat
  tools : List (UInt64 × ToolStream)
  finishReason : Option String
  stopSequence : Value
  usage : Value
  serverToolNames : List String
  bufferClientTools : Bool
  webSearchRequests : Nat
  pendingServerIds : List String

abbrev Emission := StreamState × List SseFrame

def Emission.andThen (first : Emission) (next : StreamState → Emission) : Emission :=
  ((next first.1).1, first.2 ++ (next first.1).2)

namespace StreamState

def new (requestId fallbackModel : String) (exposeThinking : Bool) : StreamState where
  requestId := requestId
  fallbackModel := fallbackModel
  exposeThinking := exposeThinking
  started := false
  terminal := false
  roundComplete := false
  blocks := []
  textIndex := none
  thinkingIndex := none
  tools := []
  finishReason := none
  stopSequence := .null
  usage := .object []
  serverToolNames := []
  bufferClientTools := false
  webSearchRequests := 0
  pendingServerIds := []

def withServerTools (state : StreamState) (names : List String) : StreamState :=
  { state with bufferClientTools := !names.isEmpty, serverToolNames := names }

def fail (state : StreamState) (message : String) : Emission :=
  ({ state with terminal := true }, [errorFrame message state.requestId])

def messageStart (state : StreamState) (value : Value) : SseFrame :=
  .messageStart (.object [
    ("id", .string (((value.get "id").bind Value.asStr).getD state.requestId)),
    ("type", .string "message"), ("role", .string "assistant"), ("content", .array []),
    ("model", .string (((value.get "model").bind Value.asStr).getD state.fallbackModel)),
    ("stop_reason", .null), ("stop_sequence", .null),
    ("usage", .object [("input_tokens", .ofNat 0), ("output_tokens", .ofNat 0),
      ("cache_creation_input_tokens", .ofNat 0), ("cache_read_input_tokens", .ofNat 0)])])

def start (state : StreamState) (value : Value) : Emission :=
  if state.started then (state, [])
  else ({ state with started := true }, [state.messageStart value])

def pushBlock (state : StreamState) (kind : BlockKind) (block : Value) : Emission :=
  ({ state with blocks := state.blocks ++ [kind] }, [.blockStart state.blocks.length block])

def ensureText (state : StreamState) : Emission :=
  match state.textIndex with
  | some _ => (state, [])
  | none =>
      { state with textIndex := some state.blocks.length }.pushBlock .text
        (.object [("type", .string "text"), ("text", .string "")])

def ensureThinking (state : StreamState) : Emission :=
  match state.thinkingIndex with
  | some _ => (state, [])
  | none =>
      { state with thinkingIndex := some state.blocks.length }.pushBlock .thinking
        (.object [("type", .string "thinking"), ("thinking", .string "")])

def delta (index : Option Nat) (kind field text : String) (state : StreamState) : Emission :=
  (state, (index.map fun index => .blockDelta index kind field text).toList)

def handleReasoning (state : StreamState) (reasoning : String) : Emission :=
  if reasoning.isEmpty || !state.exposeThinking then (state, [])
  else state.ensureThinking.andThen fun next =>
    next.delta next.thinkingIndex "thinking_delta" "thinking" reasoning

def handleText (state : StreamState) (text : String) : Emission :=
  if text.isEmpty then (state, [])
  else state.ensureText.andThen fun next => next.delta next.textIndex "text_delta" "text" text

def setTool (state : StreamState) (index : UInt64) (tool : ToolStream) : StreamState :=
  { state with tools := OrderedMap.insert index tool state.tools }

def startTool (state : StreamState) (index : UInt64) (tool : ToolStream) : Emission :=
  let position := state.blocks.length
  let opened := state.pushBlock .tool (.object [("type", .string "tool_use"),
    ("id", .string (tool.id.getD ("toolu_" ++ toString index.toNat))),
    ("name", .string (tool.name.getD "unknown")), ("input", .object [])])
  let pending := if tool.pendingArguments.isEmpty then []
    else [.blockDelta position "input_json_delta" "partial_json" tool.pendingArguments]
  (opened.1.setTool index { tool with blockIndex := some position, pendingArguments := "" },
    opened.2 ++ pending)

def namedTool (state : StreamState) (call : Value) : ToolStream :=
  let tool := (OrderedMap.lookup (toolCallIndex call) state.tools).getD .empty
  let name := (toolCallName call).or tool.name
  { tool with
    id := (toolCallId call).or tool.id
    name := name
    server := tool.server || name.any fun name => state.serverToolNames.contains name }

/-- Server tools are never shown as client tools; with server tools declared, client tools
wait for the end of the round. -/
def startsTool (state : StreamState) (tool : ToolStream) (arguments : String) : Bool :=
  tool.blockIndex.isNone && (tool.name.isSome || !arguments.isEmpty) &&
    !(!state.serverToolNames.isEmpty && tool.name.isNone) &&
    !tool.server && !state.bufferClientTools

def appendArguments (state : StreamState) (index : UInt64) (arguments : String) : Emission :=
  let tool := (OrderedMap.lookup index state.tools).getD .empty
  if arguments.isEmpty then (state, [])
  else
    match tool.blockIndex with
    | some position =>
        (state, [.blockDelta position "input_json_delta" "partial_json" arguments])
    | none =>
        (state.setTool index { tool with pendingArguments := tool.pendingArguments ++ arguments },
          [])

def handleTool (state : StreamState) (call : Value) : Emission :=
  let index := toolCallIndex call
  let tool := state.namedTool call
  let arguments := toolCallArguments call
  let opened := if state.startsTool tool arguments then state.startTool index tool
    else (state.setTool index tool, [])
  opened.andThen fun next => next.appendArguments index arguments

def handleTools (state : StreamState) : List Value → Emission
  | [] => (state, [])
  | call :: rest => (state.handleTool call).andThen fun next => next.handleTools rest

def handleDelta (state : StreamState) (delta : Map) : Emission :=
  ((state.handleReasoning ((reasoningDelta delta).getD "")).andThen fun next =>
      next.handleText ((stringAt "content" delta).getD "")).andThen fun next =>
    next.handleTools (((delta.get "tool_calls").bind Value.asArray).getD [])

def handleChoice (state : StreamState) (choice : Value) : Emission :=
  let noted := { state with
    finishReason := ((choice.get "finish_reason").bind Value.asStr).or state.finishReason
    stopSequence := (choice.get "stop_sequence").getD state.stopSequence }
  match (choice.get "delta").bind Value.asObject with
  | some delta => noted.handleDelta delta
  | none => (noted, [])

def handleValue (state : StreamState) (value : Value) : Emission :=
  (state.start value).andThen fun next =>
    let noted := { next with usage := (value.get "usage").getD next.usage }
    match firstChoice value with
    | some choice => noted.handleChoice choice
    | none => (noted, [])

/-! The end of a stream -/

def closingFrames (platform : Platform) (state : StreamState) :
    BlockKind × Nat → List SseFrame
  | (.closed, _) => []
  | (.thinking, index) =>
      [.blockDelta index "signature_delta" "signature"
        (platform.thinkingSignature "streamed" state.requestId), .blockStop index]
  | (.text, index) => [.blockStop index]
  | (.tool, index) => [.blockStop index]

def messageDelta (state : StreamState) (stopOverride : Option String) : SseFrame :=
  .messageDelta (stopOverride.elim (mapStopReason state.finishReason) Value.string)
    state.stopSequence (convertUsageWith (some state.usage) state.webSearchRequests)

def finishWithStop (platform : Platform) (stopOverride : Option String) (state : StreamState) :
    Emission :=
  ({ state with terminal := true },
    state.blocks.zipIdx.flatMap (state.closingFrames platform) ++
      [state.messageDelta stopOverride, .messageStop])

/-- The tools without a block that are not server tools, as the hash map yields them. -/
def unopenedTools (platform : Platform) (state : StreamState) : List UInt64 :=
  (platform.order (state.tools.map Prod.fst)).filter fun index =>
    (OrderedMap.lookup index state.tools).any fun tool =>
      tool.blockIndex.isNone && !tool.server

def openTools (state : StreamState) : List UInt64 → Emission
  | [] => (state, [])
  | index :: rest =>
      let tool := (OrderedMap.lookup index state.tools).getD .empty
      (state.startTool index tool).andThen fun next => next.openTools rest

def finalize (platform : Platform) (state : StreamState) : Emission :=
  if state.terminal then (state, [])
  else (state.openTools (state.unopenedTools platform)).andThen
    (finishWithStop platform none)

def finalizeAsPaused (platform : Platform) (state : StreamState) : Emission :=
  state.finishWithStop platform (some "pause_turn")

def handle (platform : Platform) (state : StreamState) (data : String) : Emission :=
  if isDone data then
    if state.finishReason.isNone then state.fail "upstream stream ended without a stop reason"
    else if state.serverToolNames.isEmpty then state.finalize platform
    else ({ state with roundComplete := true }, [])
  else
    match platform.codec.fromStr data with
    | none => state.fail "upstream sent invalid SSE JSON"
    | some value =>
        if (value.get "error").isSome then state.fail "upstream stream error"
        else state.handleValue value

/-! Rounds of server tools -/

def closeThinking (platform : Platform) (state : StreamState) : Emission :=
  match state.thinkingIndex with
  | none => (state, [])
  | some index =>
      let cleared := { state with thinkingIndex := none }
      if state.blocks[index]? = some .thinking then
        ({ cleared with blocks := state.blocks.set index .closed },
          state.closingFrames platform (.thinking, index))
      else (cleared, [])

def closeText (platform : Platform) (state : StreamState) : Emission :=
  match state.textIndex with
  | none => (state, [])
  | some index =>
      let cleared := { state with textIndex := none }
      if state.blocks[index]? = some .text then
        ({ cleared with blocks := state.blocks.set index .closed },
          state.closingFrames platform (.text, index))
      else (cleared, [])

def closeOpenContentBlocks (platform : Platform) (state : StreamState) : Emission :=
  (state.closeThinking platform).andThen (closeText platform)

def openaiToolCalls (state : StreamState) : List OpenAiToolCall :=
  state.tools.map fun (index, tool) =>
    { id := tool.id.getD ("toolu_" ++ toString index.toNat)
      name := tool.name.getD "unknown"
      arguments := tool.pendingArguments }

def serverToolUse (codec : Codec) (call : OpenAiToolCall) (id : String) (state : StreamState) :
    Emission :=
  let input := ((codec.fromStr call.arguments).filter Value.isObject).getD (.object [])
  let opened := state.pushBlock .closed (.object [("type", .string "server_tool_use"),
    ("id", .string id), ("name", .string webSearchFunctionName), ("input", .object [])])
  ({ opened.1 with pendingServerIds := state.pendingServerIds ++ [id] },
    opened.2 ++ [.blockDelta state.blocks.length "input_json_delta" "partial_json"
      (codec.toText input), .blockStop state.blocks.length])

def serverToolUses (codec : Codec) (ids : Nat → String) (state : StreamState) :
    List OpenAiToolCall → Emission
  | [] => (state, [])
  | call :: rest =>
      (state.serverToolUse codec call (ids rest.length)).andThen fun next =>
        next.serverToolUses codec ids rest

def emitServerToolUse (platform : Platform) (ids : Nat → String) (calls : List OpenAiToolCall)
    (state : StreamState) : Emission :=
  (state.closeOpenContentBlocks platform).andThen fun next =>
    { next with pendingServerIds := [] }.serverToolUses platform.codec ids calls

def serverToolResults (state : StreamState) : List (String × SearchOutcome) → Emission
  | [] => (state, [])
  | (id, outcome) :: rest =>
      let opened := state.pushBlock .closed (clientBlocks id outcome).2
      Emission.andThen
        ({ opened.1 with webSearchRequests := state.webSearchRequests + 1 },
          opened.2 ++ [.blockStop state.blocks.length])
        fun next => next.serverToolResults rest

def finishServerToolRound (outcomes : List SearchOutcome) (state : StreamState) : Emission :=
  { state with pendingServerIds := [] }.serverToolResults
    (state.pendingServerIds.zip outcomes)

def beginNewRound (state : StreamState) : StreamState :=
  { state with tools := [], finishReason := none, roundComplete := false, stopSequence := .null }

end StreamState

end ClineProxy
