import ClineProxy.Protocol

/-!
The response half of `anthropic.rs` for clients that do not stream: the accumulator of an
upstream stream, and the conversion of a chat completion to an Anthropic message.
-/

namespace ClineProxy

open Json Text

/-- What the conversion takes from its libraries; a hash map is read in an order of its own. -/
structure Platform where
  codec : Codec
  thinkingSignature : String → String → String
  order : List UInt64 → List UInt64
  order_perm : ∀ keys, (order keys).Perm keys

theorem perm_id (keys : List UInt64) : (id keys).Perm keys := List.Perm.refl keys

def stringAt (name : String) (object : Map) : Option String :=
  (object.get name).bind Value.asStr

def textAt (name : String) (object : Map) : Option String :=
  (stringAt name object).filter fun text => !text.isEmpty

def firstChoice (value : Value) : Option Value :=
  ((value.get "choices").bind Value.asArray).bind List.head?

def reasoningDelta (object : Map) : Option String :=
  (((object.get "reasoning_content").or (object.get "reasoning")).bind Value.asStr).or
    (((((object.get "reasoning_details").bind Value.asArray).bind List.head?).bind fun item =>
      (item.get "text").or (item.get "content")).bind Value.asStr)

def reasoningDetail (item : Value) : Option String :=
  item.asStr.or (((item.get "text").or (item.get "content")).bind Value.asStr)

def reasoningText (object : Map) : String :=
  match (stringAt "reasoning_content" object).or (stringAt "reasoning" object) with
  | some text => text
  | none =>
      match object.get "reasoning_details" with
      | some (.string text) => text
      | some (.array items) => String.join (items.filterMap reasoningDetail)
      | _ => ""

def usageCount (usage : Option Value) (name : String) : Option UInt64 :=
  (usage.bind fun usage => usage.get name).bind Value.asU64

def convertUsageWith (usage : Option Value) (webSearchRequests : Nat) : Value :=
  let output := ((usageCount usage "completion_tokens").or
    (usageCount usage "output_tokens")).getD 0
  let cached := ((usageCount (usage.bind fun usage => usage.get "prompt_tokens_details")
    "cached_tokens").or (usageCount usage "cache_read_input_tokens")).getD 0
  let totalInput := ((usageCount usage "prompt_tokens").or
    (usageCount usage "input_tokens")).getD 0
  let cacheCreation := (usageCount usage "cache_creation_input_tokens").getD 0
  .object ([("input_tokens", .ofNat (totalInput.toNat - cached.toNat - cacheCreation.toNat)),
      ("output_tokens", .number (.posInt output)),
      ("cache_creation_input_tokens", .number (.posInt cacheCreation)),
      ("cache_read_input_tokens", .number (.posInt cached))] ++
    if webSearchRequests = 0 then []
    else [("server_tool_use",
      .object [("web_search_requests", .ofNat webSearchRequests)])])

def mapStopReason : Option String → Value
  | none => .null
  | some reason =>
      match reason with
      | "length" | "max_tokens" => .string "max_tokens"
      | "tool_calls" | "function_call" => .string "tool_use"
      | "content_filter" | "refusal" => .string "refusal"
      | "pause_turn" => .string "pause_turn"
      | _ => .string "end_turn"

def errorEnvelope (errorType message requestId : String) : Value :=
  .object [("type", .string "error"),
    ("error", .object [("type", .string errorType), ("message", .string message)]),
    ("request_id", .string requestId)]

structure ConvertedResponseOptions where
  extraPrefix : List Value
  skipToolNames : List String
  webSearchRequests : Nat
  stopReasonOverride : Option String

def upstreamError {Result : Type} (message : String) : Fallible Result :=
  .error (.rejected (.upstream message))

def orUpstreamError {Result : Type} (message : String) : Option Result → Fallible Result
  | some result => .ok result
  | none => upstreamError message

def textContent (text : String) : Value :=
  .object [("type", .string "text"), ("text", .string text)]

def blockText (block : Value) : Option String :=
  (((block.get "text").or (block.get "content")).bind Value.asStr).filter fun text =>
    !text.isEmpty

def messageText : Option Value → List Value
  | some (.string text) => if text.isEmpty then [] else [textContent text]
  | some (.array blocks) => (blocks.filterMap blockText).map textContent
  | _ => []

def toolInput (codec : Codec) (arguments : String) : Option Value :=
  if (trim arguments.toList).isEmpty then some (.object [])
  else codec.fromStr arguments

def convertToolCall (codec : Codec) (skipToolNames : List String) (call : Value) :
    Fallible (List Value) := do
  let function ← orUpstreamError "upstream returned a malformed tool call"
    ((call.get "function").bind Value.asObject)
  let name := (stringAt "name" function).getD "unknown"
  if name ∈ skipToolNames then return []
  else
    let input ← orUpstreamError "upstream returned malformed tool arguments"
      (toolInput codec ((stringAt "arguments" function).getD ""))
    return [.object [("type", .string "tool_use"),
      ("id", .string (((call.get "id").bind Value.asStr).getD "toolu_unknown")),
      ("name", .string name), ("input", input)]]

def convertToolCalls (codec : Codec) (skipToolNames : List String) (calls : Option Value) :
    Fallible (List Value) :=
  match calls.bind Value.asArray with
  | none => .ok []
  | some calls => (calls.mapM (convertToolCall codec skipToolNames)).map List.flatten

def thinkingContent (platform : Platform) (requestId reasoning : String) : List Value :=
  if reasoning.isEmpty then []
  else [.object [("type", .string "thinking"), ("thinking", .string reasoning),
    ("signature", .string (platform.thinkingSignature reasoning requestId))]]

def convertResponseWith (platform : Platform) (upstream : Value)
    (requestId fallbackModel : String) (exposeThinking : Bool)
    (options : ConvertedResponseOptions) : Fallible Value := do
  let choice ← orUpstreamError "upstream response did not contain a choice" (firstChoice upstream)
  let message ← orUpstreamError "upstream choice did not contain a message"
    ((choice.get "message").bind Value.asObject)
  let reasoning := if exposeThinking then reasoningText message else ""
  let tools ← convertToolCalls platform.codec options.skipToolNames (message.get "tool_calls")
  let content := options.extraPrefix ++ thinkingContent platform requestId reasoning ++
    messageText (message.get "content") ++ tools
  let stopReason := options.stopReasonOverride.elim
    (mapStopReason ((choice.get "finish_reason").bind Value.asStr)) Value.string
  return .object [
    ("id", .string (((upstream.get "id").bind Value.asStr).getD requestId)),
    ("type", .string "message"), ("role", .string "assistant"), ("content", .array content),
    ("model", .string (((upstream.get "model").bind Value.asStr).getD fallbackModel)),
    ("stop_reason", stopReason),
    ("stop_sequence", (choice.get "stop_sequence").getD .null),
    ("usage", convertUsageWith (upstream.get "usage") options.webSearchRequests)]

def plainOptions : ConvertedResponseOptions := ⟨[], [], 0, none⟩

def convertResponse (platform : Platform) (upstream : Value) (requestId fallbackModel : String)
    (exposeThinking : Bool) : Fallible Value :=
  convertResponseWith platform upstream requestId fallbackModel exposeThinking plainOptions

def toolCallIndex (call : Value) : UInt64 := ((call.get "index").bind Value.asU64).getD 0

def toolCallFunction (call : Value) : Map := ((call.get "function").bind Value.asObject).getD []

def toolCallId (call : Value) : Option String :=
  ((call.get "id").bind Value.asStr).filter fun id => !id.isEmpty

def toolCallName (call : Value) : Option String := textAt "name" (toolCallFunction call)

def toolCallArguments (call : Value) : String :=
  (stringAt "arguments" (toolCallFunction call)).getD ""

def isDone (data : String) : Bool := trim data.toList = "[DONE]".toList

def objectUsage (value : Value) : Option Value :=
  match value.get "usage" with
  | some (.object (first :: rest)) => some (.object (first :: rest))
  | _ => none

structure ToolAccumulator where
  id : Option String
  name : Option String
  arguments : String
  deriving DecidableEq

def ToolAccumulator.empty : ToolAccumulator := ⟨none, none, ""⟩

structure NonStreamAccumulator where
  id : Option String
  model : Option String
  reasoning : String
  text : String
  tools : List (UInt64 × ToolAccumulator)
  toolOrder : List UInt64
  finishReason : Option String
  usage : Value
  sawEvent : Bool

namespace NonStreamAccumulator

def new : NonStreamAccumulator := ⟨none, none, "", "", [], [], none, .object [], false⟩

/-- The first id and name of a call win; its arguments are appended. -/
def handleToolCall (accumulator : NonStreamAccumulator) (call : Value) : NonStreamAccumulator :=
  let index := toolCallIndex call
  let tool := (OrderedMap.lookup index accumulator.tools).getD .empty
  let extended : ToolAccumulator := {
    id := tool.id.or (toolCallId call)
    name := tool.name.or (toolCallName call)
    arguments := tool.arguments ++ toolCallArguments call }
  { accumulator with
    tools := OrderedMap.insert index extended accumulator.tools
    toolOrder := if index ∈ accumulator.toolOrder then accumulator.toolOrder
      else accumulator.toolOrder ++ [index] }

def handleDelta (accumulator : NonStreamAccumulator) (delta : Map) : NonStreamAccumulator :=
  let spoken := { accumulator with
    reasoning := accumulator.reasoning ++ (reasoningDelta delta).getD ""
    text := accumulator.text ++ (stringAt "content" delta).getD "" }
  match (delta.get "tool_calls").bind Value.asArray with
  | some calls => calls.foldl handleToolCall spoken
  | none => spoken

/-- The last usage that is an object with members wins. -/
def keepUsage (accumulator : NonStreamAccumulator) (value : Value) : Value :=
  (objectUsage value).getD accumulator.usage

def handleChoice (accumulator : NonStreamAccumulator) (choice : Value) : NonStreamAccumulator :=
  let finished := { accumulator with
    finishReason := ((choice.get "finish_reason").bind Value.asStr).or accumulator.finishReason }
  match (choice.get "delta").bind Value.asObject with
  | some delta => finished.handleDelta delta
  | none => finished

def handleValue (accumulator : NonStreamAccumulator) (value : Value) : NonStreamAccumulator :=
  let seen := { accumulator with
    sawEvent := true
    id := accumulator.id.or ((value.get "id").bind Value.asStr)
    model := accumulator.model.or ((value.get "model").bind Value.asStr)
    usage := accumulator.keepUsage value }
  match firstChoice value with
  | some choice => seen.handleChoice choice
  | none => seen

def handle (codec : Codec) (accumulator : NonStreamAccumulator) (data : String) :
    Fallible NonStreamAccumulator :=
  if isDone data then .ok accumulator
  else
    match codec.fromStr data with
    | none => upstreamError "upstream sent invalid SSE JSON"
    | some value =>
        if (value.get "error").isSome then upstreamError "upstream stream error"
        else .ok (accumulator.handleValue value)

def toolCallOf (accumulator : NonStreamAccumulator) (index : UInt64) : Option Value :=
  (OrderedMap.lookup index accumulator.tools).bind fun tool =>
    if tool.name.isNone && tool.arguments.isEmpty then none
    else some (.object [
      ("id", .string (tool.id.getD ("toolu_" ++ toString index.toNat))),
      ("type", .string "function"),
      ("function", .object [("name", .string (tool.name.getD "unknown")),
        ("arguments", .string tool.arguments)])])

def responseMessage (accumulator : NonStreamAccumulator) : Map :=
  let toolCalls := accumulator.toolOrder.filterMap accumulator.toolCallOf
  [("role", .string "assistant"), ("content", .string accumulator.text)] ++
    (if accumulator.reasoning.isEmpty then []
      else [("reasoning_content", .string accumulator.reasoning)]) ++
    (if toolCalls.isEmpty then [] else [("tool_calls", .array toolCalls)])

def hasContent (accumulator : NonStreamAccumulator) : Bool :=
  accumulator.sawEvent && !(accumulator.text.isEmpty && accumulator.reasoning.isEmpty &&
    accumulator.tools.isEmpty && accumulator.finishReason.isNone)

def intoResponse (accumulator : NonStreamAccumulator) (requestId : String) : Fallible Value :=
  if !accumulator.hasContent then
    upstreamError "upstream stream ended without any response content"
  else
    .ok (.object [
      ("id", .string (accumulator.id.getD requestId)),
      ("model", .string (accumulator.model.getD "")),
      ("choices", .array [.object [("index", .ofNat 0),
        ("message", .object accumulator.responseMessage),
        ("finish_reason", .string (accumulator.finishReason.getD "stop"))]]),
      ("usage", accumulator.usage)])

end NonStreamAccumulator

end ClineProxy
