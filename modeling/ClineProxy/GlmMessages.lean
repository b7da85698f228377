import ClineProxy.PromptPolicy

/-!
The conversion of `glm53/messages.rs`: from an Anthropic request to the messages that the chat
template of the model renders, for counting its tokens.
-/

namespace ClineProxy

open Json Text

def convertDeclaration (tool : Value) : Fallible (Option Value) :=
  if !isWebSearchType tool then .ok none
  else (parseDeclaration tool).map fun _ => some webSearchUpstreamFunction

namespace Glm

structure GlmConversion where
  messages : List Value
  tools : Option (List Value)
  reasoningEffort : Option GlmReasoningEffort

def debugKind : Option String → String
  | none => "None"
  | some kind => "Some(" ++ quoteDebug kind ++ ")"

def kindOf (object : Map) : Option String := (object.get "type").bind Value.asStr

def blockPlace (index blockIndex : Nat) : String :=
  "messages[" ++ toString index ++ "][" ++ toString blockIndex ++ "]"

def imagePlaceholder : Value := .object [("type", .string "image")]

def convertTextBlock (index blockIndex : Nat) (object : Map) : Fallible Value :=
  (orReject (blockPlace index blockIndex ++ " text block needs a string text")
    ((object.get "text").bind Value.asStr)).map textBlock

def convertDocumentBlock (index blockIndex : Nat) (object : Map) : Fallible Value := do
  let source ← orReject (blockPlace index blockIndex ++ " document needs a source object")
    ((object.get "source").bind Value.asObject)
  match kindOf source with
  | some "text" =>
      (orReject (blockPlace index blockIndex ++ " text document needs string data")
        ((source.get "data").bind Value.asStr)).map textBlock
  | some other =>
      reject (blockPlace index blockIndex ++ " document source " ++ quoteDebug other ++
        " cannot be counted exactly; use a text document")
  | none => reject (blockPlace index blockIndex ++ " document source needs a type")

def convertToolResultBlock (index blockIndex itemIndex : Nat) (block : Value) :
    Fallible Value := do
  let place := blockPlace index blockIndex ++ " content[" ++ toString itemIndex ++ "]"
  let object ← orReject (place ++ " must be an object") block.asObject
  match kindOf object with
  | some "text" => convertTextBlock index blockIndex object
  | some "image" => return imagePlaceholder
  | some "document" => convertDocumentBlock index blockIndex object
  | some "tool_reference" =>
      let name := ((object.get "tool_name").bind Value.asStr).getD "?"
      return textBlock ("[tool reference: " ++ name ++ "]")
  | some "search_result" => return textBlock (searchResultText object)
  | other => reject (place ++ " has unsupported type " ++ debugKind other)

def convertToolResultContent (index blockIndex : Nat) : Option Value → Fallible Value
  | none | some .null => .ok (.string "")
  | some (.string text) => .ok (.string text)
  | some (.array blocks) =>
      (blocks.zipIdx.mapM fun (block, itemIndex) =>
        convertToolResultBlock index blockIndex itemIndex block).map Value.array
  | some _ =>
      reject (blockPlace index blockIndex ++ " tool_result content must be a string or array")

def convertToolResult (index blockIndex : Nat) (object : Map) : Fallible Value := do
  let toolUseId ← orReject (blockPlace index blockIndex ++ " tool_result needs a tool_use_id")
    (((object.get "tool_use_id").bind Value.asStr).filter fun id => !id.isEmpty)
  let content ← convertToolResultContent index blockIndex (object.get "content")
  return .object [("role", .string "tool"), ("tool_call_id", .string toolUseId),
    ("content", content)]

structure UserTurn where
  output : List Value
  ordinary : List Value

namespace UserTurn

def addOrdinary (turn : UserTurn) (block : Value) : UserTurn :=
  { turn with ordinary := turn.ordinary ++ [block] }

def flushUser (turn : UserTurn) : UserTurn :=
  if turn.ordinary.isEmpty then turn
  else {
    output := turn.output ++
      [.object [("role", .string "user"), ("content", .array turn.ordinary)]]
    ordinary := [] }

end UserTurn

def convertUserBlock (index : Nat) (turn : UserTurn) (indexed : Value × Nat) :
    Fallible UserTurn := do
  let (block, blockIndex) := indexed
  let object ← orReject (blockPlace index blockIndex ++ " must be an object") block.asObject
  match kindOf object with
  | some "text" => (convertTextBlock index blockIndex object).map turn.addOrdinary
  | some "image" => return turn.addOrdinary imagePlaceholder
  | some "document" => (convertDocumentBlock index blockIndex object).map turn.addOrdinary
  | some "tool_result" => do
      let flushed := turn.flushUser
      let result ← convertToolResult index blockIndex object
      return { flushed with output := flushed.output ++ [result] }
  | other =>
      reject (blockPlace index blockIndex ++ " has unsupported block type " ++ debugKind other)

def convertUserBlocks (index : Nat) (blocks : List Value) : Fallible (List Value) :=
  (blocks.zipIdx.foldlM (convertUserBlock index) ⟨[], []⟩).map fun turn => turn.flushUser.output

structure Segment where
  text : String
  reasoning : String
  toolCalls : List Value

namespace Segment

def empty : Segment := ⟨"", "", []⟩

def isEmpty (segment : Segment) : Bool :=
  segment.text.isEmpty && segment.reasoning.isEmpty && segment.toolCalls.isEmpty

def intoMessage (segment : Segment) : Value :=
  .object ([("role", .string "assistant"), ("content", .string segment.text)] ++
    (if segment.reasoning.isEmpty then []
      else [("reasoning_content", .string segment.reasoning)]) ++
    (if segment.toolCalls.isEmpty then [] else [("tool_calls", .array segment.toolCalls)]))

end Segment

structure AssistantTurn where
  output : List Value
  segment : Segment
  serverCalls : List Value

namespace AssistantTurn

def start : AssistantTurn := ⟨[], .empty, []⟩

def flush (turn : AssistantTurn) : AssistantTurn :=
  if turn.segment.isEmpty then turn
  else { turn with output := turn.output ++ [turn.segment.intoMessage], segment := .empty }

def flushServerCalls (turn : AssistantTurn) : AssistantTurn :=
  if turn.serverCalls.isEmpty then turn
  else { turn with
    output := turn.output ++ [.object [("role", .string "assistant"), ("content", .string ""),
      ("tool_calls", .array turn.serverCalls)]]
    serverCalls := [] }

end AssistantTurn

def templateCall (name : String) (input : Value) : Value :=
  .object [("function", .object [("name", .string name), ("arguments", input)])]

def assistantToolUse (index blockIndex : Nat) (server : Bool) (object : Map)
    (turn : AssistantTurn) : Fallible AssistantTurn := do
  let name ← orReject (blockPlace index blockIndex ++ " tool_use needs a name")
    ((object.get "name").bind Value.asStr)
  let input := (object.get "input").getD (.object [])
  if !input.isObject then
    reject (blockPlace index blockIndex ++ " tool_use input must be an object")
  else if server then
    let flushed := turn.flush
    return { flushed with serverCalls := flushed.serverCalls ++ [templateCall name input] }
  else
    return { turn with segment := { turn.segment with
      toolCalls := turn.segment.toolCalls ++ [templateCall name input] } }

def assistantSearchResult (block : Value) (object : Map) (turn : AssistantTurn) :
    Fallible AssistantTurn := do
  let toolUseId := ((object.get "tool_use_id").bind Value.asStr).getD "srvtoolu_unknown"
  let flushed := turn.flushServerCalls
  let text ← replayedResultText block
  return { flushed with output := flushed.output ++ [.object [("role", .string "tool"),
    ("tool_call_id", .string toolUseId), ("content", .string text)]] }

def convertAssistantBlock (index : Nat) (turn : AssistantTurn) (indexed : Value × Nat) :
    Fallible AssistantTurn := do
  let (block, blockIndex) := indexed
  let object ← orReject (blockPlace index blockIndex ++ " must be an object") block.asObject
  match kindOf object with
  | some "text" => do
      let text ← orReject (blockPlace index blockIndex ++ " text block needs a string text")
        ((object.get "text").bind Value.asStr)
      return { turn with segment := { turn.segment with text := turn.segment.text ++ text } }
  | some "thinking" =>
      let thinking := ((object.get "thinking").bind Value.asStr).getD ""
      return { turn with segment := { turn.segment with
        reasoning := turn.segment.reasoning ++ thinking } }
  | some "redacted_thinking" => return turn
  | some "tool_use" => assistantToolUse index blockIndex false object turn
  | some "server_tool_use" => assistantToolUse index blockIndex true object turn
  | some "web_search_tool_result" => assistantSearchResult block object turn
  | other =>
      reject (blockPlace index blockIndex ++ " has unsupported assistant block type " ++
        debugKind other)

def convertAssistantBlocks (index : Nat) (blocks : List Value) : Fallible (List Value) :=
  (blocks.zipIdx.foldlM (convertAssistantBlock index) .start).map fun turn =>
    let output := turn.flushServerCalls.flush.output
    if output.isEmpty then [.object [("role", .string "assistant"), ("content", .string "")]]
    else output

def convertAssistant (index : Nat) (content : Value) : Fallible (List Value) :=
  match content with
  | .string text => .ok [.object [("role", .string "assistant"), ("content", .string text)]]
  | .null => .ok [.object [("role", .string "assistant"), ("content", .string "")]]
  | .array blocks => convertAssistantBlocks index blocks
  | _ => reject ("messages[" ++ toString index ++ "] assistant content must be a string or array")

def convertDisplayBlock (label : String) (blockIndex : Nat) (block : Value) : Fallible Value := do
  let place := label ++ "[" ++ toString blockIndex ++ "]"
  let object ← orReject (place ++ " must be an object") block.asObject
  match kindOf object with
  | some "text" => convertTextBlock 0 blockIndex object
  | some "image" => return imagePlaceholder
  | some "document" => convertDocumentBlock 0 blockIndex object
  | other => reject (place ++ " has unsupported block type " ++ debugKind other)

def convertDisplayContent (label : String) (content : Value) : Fallible Value :=
  match content with
  | .string text => .ok (.string text)
  | .array blocks =>
      (blocks.zipIdx.mapM fun (block, blockIndex) =>
        convertDisplayBlock label blockIndex block).map Value.array
  | _ => reject (label ++ " content must be a string or array")

def systemMessage (content : Value) : Value :=
  .object [("role", .string "system"), ("content", content)]

def convertMessage (index : Nat) (message : Value) : Fallible (List Value) := do
  let place := "messages[" ++ toString index ++ "]"
  let object ← orReject (place ++ " must be an object") message.asObject
  let role ← orReject (place ++ ".role must be a string") ((object.get "role").bind Value.asStr)
  let content ← orReject (place ++ " content is required") (object.get "content")
  match role with
  | "system" => (convertDisplayContent place content).map fun content => [systemMessage content]
  | "user" =>
      if content.isString then
        return [.object [("role", .string "user"), ("content", content)]]
      else do
        let blocks ← orReject (place ++ " content must be a string or array") content.asArray
        convertUserBlocks index blocks
  | "assistant" => convertAssistant index content
  | other =>
      reject (place ++ ".role " ++ quoteDebug other ++ " is not supported by the GLM template")

def convertMessages (index : Nat) : List Value → Fallible (List Value)
  | [] => .ok []
  | message :: rest => do
      let first ← convertMessage index message
      let later ← convertMessages (index + 1) rest
      return first ++ later

def convertTool (indexed : Value × Nat) : Fallible Value :=
  let (tool, index) := indexed
  if !tool.isObject then reject ("tools[" ++ toString index ++ "] must be an object")
  else (convertDeclaration tool).map fun declaration => declaration.getD tool

def convertTools : Option Value → Fallible (Option (List Value))
  | some (.array []) => .ok none
  | some (.array tools) => (tools.zipIdx.mapM convertTool).map some
  | some _ => reject "tools must be an array"
  | none => .ok none

def orInvalid {Result : Type} : Except String Result → Fallible Result
  | .ok result => .ok result
  | .error message => reject message

/-- `output_config.effort` overrides what `thinking` asks for. -/
def convertEffort (object : Map) : Fallible (Option GlmReasoningEffort) := do
  let maxTokens := (object.get "max_tokens").bind Value.asU64
  let asked ← match object.get "thinking" with
    | some thinking => orInvalid (fromThinking thinking (maxTokens.getD 18446744073709551615))
    | none => .ok none
  match ((object.get "output_config").bind fun config => config.get "effort").bind
      Value.asStr with
  | some effort => (orInvalid (fromOutputEffort effort)).map some
  | none => return asked

def convertSystemMember (object : Map) : Fallible (List Value) :=
  match object.get "system" with
  | none => .ok []
  | some system => (convertDisplayContent "system" system).map fun content =>
      [systemMessage content]

def convertAnthropicToGlm (request : Value) : Fallible GlmConversion := do
  let object ← orReject "request body must be a JSON object" request.asObject
  let _ ← requiredString object "model"
  let inputMessages ← orReject "messages must be an array"
    ((object.get "messages").bind Value.asArray)
  let system ← convertSystemMember object
  let messages ← convertMessages 0 inputMessages
  let tools ← convertTools (object.get "tools")
  let reasoningEffort ← convertEffort object
  return ⟨system ++ messages, tools, reasoningEffort⟩

end Glm

end ClineProxy
