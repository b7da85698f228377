import ClineProxy.WebSearch

/-! The request half of `anthropic.rs`: from an Anthropic request to a chat completion body. -/

namespace ClineProxy

open Json Text

structure ConvertedRequest where
  body : Value
  model : String
  stream : Bool
  serverTools : ServerToolConfig
  thinking : Option Value
  outputEffort : Option String
  exposeThinking : Bool

inductive WireMessage where
  | system (content : Value)
  | user (role : String) (content : Value)
  | assistant (content toolCalls : List Value) (reasoning : String)
  | tool (toolCallId : String) (content : Value) (isError : Option Bool)

def WireMessage.intoWire : WireMessage → Value
  | .system content => .object [("role", .string "system"), ("content", content)]
  | .user role content => .object [("role", .string role), ("content", content)]
  | .assistant content toolCalls reasoning =>
      .object ([("role", .string "assistant"), ("content", .array content)] ++
        (if toolCalls.isEmpty then [] else [("tool_calls", .array toolCalls)]) ++
        (if reasoning.isEmpty then [] else [("reasoning_content", .string reasoning)]))
  | .tool toolCallId content isError =>
      .object ([("role", .string "tool"), ("tool_call_id", .string toolCallId),
        ("content", content)] ++ (isError.map fun failed => ("is_error", .bool failed)).toList)

def textBlock (text : String) : Value :=
  .object [("type", .string "text"), ("text", .string text)]

def convertTextBlock (object : Map) : Fallible Value :=
  (requiredString object "text").map textBlock

def dataUrl (source : Map) : Fallible String := do
  let mediaType ← requiredString source "media_type"
  let encoded ← requiredString source "data"
  return "data:" ++ mediaType ++ ";base64," ++ encoded

def imageUrl (source : Map) (kind : String) : Fallible String :=
  match kind with
  | "base64" => dataUrl source
  | "url" => requiredString source "url"
  | kind => reject ("unsupported image source " ++ quoteDebug kind)

def convertImageBlock (object : Map) : Fallible Value := do
  let source ← orReject "image source must be an object"
    ((object.get "source").bind Value.asObject)
  let kind ← requiredString source "type"
  let url ← imageUrl source kind
  return .object [("type", .string "image_url"), ("image_url", .object [("url", .string url)])]

def fileBlock (file : Map) : Value :=
  .object [("type", .string "file"), ("file", .object file)]

def convertDocumentBlock (object : Map) : Fallible Value := do
  let source ← orReject "document source must be an object"
    ((object.get "source").bind Value.asObject)
  let kind ← requiredString source "type"
  match kind with
  | "text" => (requiredString source "data").map textBlock
  | "url" =>
      (requiredString source "url").map fun url => fileBlock [("file_url", .string url)]
  | "base64" => do
      let encoded ← dataUrl source
      return fileBlock
        [("filename", .string (((object.get "title").bind Value.asStr).getD "document")),
         ("file_data", .string encoded)]
  | kind => reject ("unsupported document source " ++ quoteDebug kind)

def searchResultText (object : Map) : String :=
  let title := ((object.get "title").bind Value.asStr).getD ""
  let url := ((object.get "url").bind Value.asStr).getD ""
  title ++ "\n" ++ url ++
    ((object.get "content").bind Value.asStr).elim "" fun quote => "\n" ++ quote

def convertToolResultContentBlock (block : Value) : Fallible Value := do
  let object ← orReject "tool_result content block must be an object" block.asObject
  let kind ← requiredString object "type"
  match kind with
  | "text" => convertTextBlock object
  | "image" => convertImageBlock object
  | "document" => convertDocumentBlock object
  | "tool_reference" =>
      let name := ((object.get "tool_name").bind Value.asStr).getD "?"
      return textBlock ("[tool reference: " ++ name ++ "]")
  | "search_result" => return textBlock (searchResultText object)
  | kind => reject ("unsupported tool_result content type " ++ quoteDebug kind)

def convertToolResultContent (content : Value) : Fallible Value :=
  match content with
  | .array blocks => (blocks.mapM convertToolResultContentBlock).map Value.array
  | .string text => .ok (.string text)
  | _ => reject "tool_result content must be a string or array"

def toolResultError (object : Map) : Fallible (Option Bool) :=
  match object.get "is_error" with
  | none => .ok none
  | some value => (orReject "tool_result is_error must be boolean" value.asBool).map some

def convertToolResult (pendingToolIds : List String) (object : Map) : Fallible WireMessage := do
  let content ← convertToolResultContent ((object.get "content").getD (.string ""))
  let toolCallId ← requiredString object "tool_use_id"
  if toolCallId ∉ pendingToolIds then
    reject ("tool_result references tool_use id " ++ quoteDebug toolCallId ++
      " which the immediately preceding assistant message did not declare")
  else
    let isError ← toolResultError object
    return .tool toolCallId content isError

def convertSystemBlock (index : Nat) (block : Value) : Fallible Value := do
  let object ← orReject ("system[" ++ toString index ++ "] must be an object") block.asObject
  let kind ← requiredString object "type"
  if kind ≠ "text" then reject "system only supports text blocks"
  else convertTextBlock object

def convertSystem (value : Value) : Fallible Value :=
  match value with
  | .string text => .ok (.string text)
  | .array blocks =>
      (blocks.zipIdx.mapM fun (block, index) => convertSystemBlock index block).map Value.array
  | _ => reject "system must be a string or content block array"

/-! Assistant turns -/

structure Segment where
  content : List Value
  toolCalls : List Value
  reasoning : String

def Segment.empty : Segment := ⟨[], [], ""⟩

def Segment.isEmpty (segment : Segment) : Bool :=
  segment.content.isEmpty && segment.toolCalls.isEmpty && segment.reasoning.isEmpty

/-- The locals of the loop over the blocks; `output` holds the messages of this turn. -/
structure AssistantTurn where
  output : List WireMessage
  segment : Segment
  serverCalls : List Value
  pendingServerIds : List String
  seenServerResults : List String
  pendingToolIds : List String

namespace AssistantTurn

def start : AssistantTurn := ⟨[], .empty, [], [], [], []⟩

def flush (turn : AssistantTurn) : AssistantTurn :=
  if turn.segment.isEmpty then turn
  else { turn with
    output := turn.output ++
      [.assistant turn.segment.content turn.segment.toolCalls turn.segment.reasoning]
    segment := .empty }

def flushServerCalls (turn : AssistantTurn) : AssistantTurn :=
  if turn.serverCalls.isEmpty then turn
  else { turn with
    output := turn.output ++ [.assistant [] turn.serverCalls ""]
    serverCalls := [] }

def requireServerResults (turn : AssistantTurn) : Fallible Unit :=
  if turn.pendingServerIds.length ≠ turn.seenServerResults.length then
    reject "server_tool_use without its web_search_tool_result"
  else .ok ()

end AssistantTurn

def toolCall (id name arguments : String) : Value :=
  .object [("id", .string id), ("type", .string "function"),
    ("function", .object [("name", .string name), ("arguments", .string arguments)])]

def assistantText (object : Map) (turn : AssistantTurn) : Fallible AssistantTurn := do
  turn.requireServerResults
  let text ← convertTextBlock object
  return { turn with segment := { turn.segment with content := turn.segment.content ++ [text] } }

def assistantThinking (object : Map) (turn : AssistantTurn) : AssistantTurn :=
  let text := ((object.get "thinking").bind Value.asStr).getD ""
  { turn with segment := { turn.segment with reasoning := turn.segment.reasoning ++ text } }

def assistantToolUse (codec : Codec) (object : Map) (turn : AssistantTurn) :
    Fallible AssistantTurn := do
  turn.requireServerResults
  let arguments := codec.toText ((object.get "input").getD (.object []))
  let id ← requiredString object "id"
  let name ← requiredString object "name"
  let call := toolCall id name arguments
  return { turn with
    pendingToolIds := turn.pendingToolIds.insert id
    segment := { turn.segment with toolCalls := turn.segment.toolCalls ++ [call] } }

def assistantServerToolUse (codec : Codec) (object : Map) (before : AssistantTurn) :
    Fallible AssistantTurn := do
  let turn := before.flush
  let id ← requiredString object "id"
  if id ∈ turn.pendingServerIds then reject ("duplicate server_tool_use id " ++ quoteDebug id)
  else
    let input := (object.get "input").getD (.object [])
    if !input.isObject then reject "server_tool_use input must be an object"
    else
      let name ← requiredString object "name"
      return { turn with
        pendingServerIds := turn.pendingServerIds ++ [id]
        serverCalls := turn.serverCalls ++ [toolCall id name (codec.toText input)] }

def assistantSearchResult (block : Value) (object : Map) (turn : AssistantTurn) :
    Fallible AssistantTurn := do
  let toolUseId ← requiredString object "tool_use_id"
  if toolUseId ∉ turn.pendingServerIds then
    reject ("web_search_tool_result references unknown server_tool_use id " ++
      quoteDebug toolUseId)
  else if toolUseId ∈ turn.seenServerResults then
    reject ("duplicate web_search_tool_result for id " ++ quoteDebug toolUseId)
  else
    let flushed := turn.flushServerCalls
    let text ← replayedResultText block
    return { flushed with
      seenServerResults := flushed.seenServerResults ++ [toolUseId]
      output := flushed.output ++ [.tool toolUseId (.string text) none] }

def convertAssistantBlock (codec : Codec) (turn : AssistantTurn) (block : Value) :
    Fallible AssistantTurn := do
  let object ← orReject "assistant content block must be an object" block.asObject
  let kind ← requiredString object "type"
  match kind with
  | "text" => assistantText object turn
  | "thinking" => return assistantThinking object turn
  | "redacted_thinking" => return turn
  | "tool_use" => assistantToolUse codec object turn
  | "server_tool_use" => assistantServerToolUse codec object turn
  | "web_search_tool_result" => assistantSearchResult block object turn
  | kind => reject ("unsupported assistant content block type " ++ quoteDebug kind)

def AssistantTurn.finish (turn : AssistantTurn) : Fallible (List WireMessage) :=
  if !turn.serverCalls.isEmpty ∨
      turn.pendingServerIds.length ≠ turn.seenServerResults.length then
    reject "server_tool_use without its web_search_tool_result"
  else
    let output := turn.flush.output
    .ok (if output.isEmpty then [.assistant [] [] ""] else output)

/-- The messages of an assistant turn and the tool uses that it leaves pending. -/
def convertAssistantBlocks (codec : Codec) (blocks : List Value) :
    Fallible (List WireMessage × List String) := do
  let turn ← blocks.foldlM (convertAssistantBlock codec) .start
  let messages ← turn.finish
  return (messages, turn.pendingToolIds)

/-! User turns -/

structure UserTurn where
  output : List WireMessage
  ordinary : List Value
  sawOrdinary : Bool
  seenResultIds : List String

def UserTurn.start : UserTurn := ⟨[], [], false, []⟩

def UserTurn.addOrdinary (turn : UserTurn) (block : Value) : UserTurn :=
  { turn with sawOrdinary := true, ordinary := turn.ordinary ++ [block] }

def userToolResult (pendingToolIds : List String) (object : Map) (turn : UserTurn) :
    Fallible UserTurn :=
  if turn.sawOrdinary then
    reject "tool_result blocks must appear before text/image/document content in the same user message"
  else do
    let id ← requiredString object "tool_use_id"
    if id ∈ turn.seenResultIds then
      reject ("duplicate tool_result for tool_use id " ++ quoteDebug id)
    else
      let message ← convertToolResult pendingToolIds object
      return { turn with
        seenResultIds := turn.seenResultIds ++ [id]
        output := turn.output ++ [message] }

def convertUserBlock (pendingToolIds : List String) (turn : UserTurn) (block : Value) :
    Fallible UserTurn := do
  let object ← orReject "user content block must be an object" block.asObject
  let kind ← requiredString object "type"
  match kind with
  | "text" => (convertTextBlock object).map turn.addOrdinary
  | "image" => (convertImageBlock object).map turn.addOrdinary
  | "document" => (convertDocumentBlock object).map turn.addOrdinary
  | "tool_result" => userToolResult pendingToolIds object turn
  | kind => reject ("unsupported user content block type " ++ quoteDebug kind)

def convertUserBlocks (pendingToolIds : List String) (blocks : List Value) :
    Fallible (List WireMessage) := do
  let turn ← blocks.foldlM (convertUserBlock pendingToolIds) .start
  return turn.output ++
    (if turn.ordinary.isEmpty then [] else [.user "user" (.array turn.ordinary)]) ++
    (if blocks.isEmpty then [.user "user" (.array [])] else [])

/-- The messages of one input message, and the tool uses that the next one may answer. -/
def convertMessage (codec : Codec) (index : Nat) (pendingToolIds : List String)
    (message : Value) : Fallible (List WireMessage × List String) := do
  let object ← orReject ("messages[" ++ toString index ++ "] must be an object") message.asObject
  let role ← requiredString object "role"
  if role ≠ "user" ∧ role ≠ "assistant" ∧ role ≠ "system" then
    reject ("messages[" ++ toString index ++ "].role must be user, assistant, or system")
  else
    let content ← orReject "message content is required" (object.get "content")
    if role = "system" then
      let converted ← convertSystem content
      return ([.system converted], [])
    else if content.isString then
      return ([.user (if role = "assistant" then "assistant" else "user") content], [])
    else
      let blocks ← orReject "message content must be a string or array" content.asArray
      if role = "assistant" then convertAssistantBlocks codec blocks
      else
        let messages ← convertUserBlocks pendingToolIds blocks
        return (messages, [])

def convertMessages (codec : Codec) (index : Nat) (pendingToolIds : List String) :
    List Value → Fallible (List WireMessage)
  | [] => .ok []
  | message :: rest => do
      let (first, pending) ← convertMessage codec index pendingToolIds message
      let later ← convertMessages codec (index + 1) pending rest
      return first ++ later

/-! Tools and the request -/

def toolDescription (object : Map) : Fallible Map :=
  match object.get "description" with
  | none => .ok []
  | some text =>
      if text.isString then .ok [("description", text)]
      else reject "tool description must be a string"

def toolStrict (object : Map) : Fallible Map :=
  match object.get "strict" with
  | none => .ok []
  | some flag =>
      if flag.isBoolean then .ok [("strict", flag)] else reject "tool strict must be a boolean"

def customTool (object : Map) : Fallible Value := do
  let kind := ((object.get "type").bind Value.asStr).getD "custom"
  if kind ≠ "custom" ∧ (object.get "input_schema").isNone then
    reject ("tool type " ++ quoteDebug kind ++ " is not supported")
  else
    let schema ← orReject "tool input_schema must be an object"
      ((object.get "input_schema").filter Value.isObject)
    let name ← requiredString object "name"
    let description ← toolDescription object
    let strict ← toolStrict object
    let function := [("name", .string name), ("parameters", schema)] ++ description ++ strict
    return .object [("type", .string "function"), ("function", .object function)]

def convertTool (state : List Value × ServerToolConfig) (tool : Value) :
    Fallible (List Value × ServerToolConfig) := do
  let (converted, serverTools) := state
  let object ← orReject "tool must be an object" tool.asObject
  if isWebSearchType tool then
    if serverTools.webSearch.isSome then
      reject "at most one web_search server tool may be declared"
    else
      let declaration ← parseDeclaration tool
      return (converted ++ [webSearchUpstreamFunction], ⟨some declaration⟩)
  else
    let function ← customTool object
    return (converted ++ [function], serverTools)

def convertTools (value : Value) : Fallible (List Value × ServerToolConfig) := do
  let tools ← orReject "tools must be an array" value.asArray
  tools.foldlM convertTool ([], ⟨none⟩)

def chosenTool (object : Map) (kind : String) : Fallible Value :=
  match kind with
  | "auto" => .ok (.string "auto")
  | "any" => .ok (.string "required")
  | "none" => .ok (.string "none")
  | "tool" => (requiredString object "name").map fun name =>
      .object [("type", .string "function"), ("function", .object [("name", .string name)])]
  | kind => reject ("unsupported tool_choice type " ++ quoteDebug kind)

def parallelToolUse (object : Map) : Fallible (Option Bool) :=
  match object.get "disable_parallel_tool_use" with
  | none => .ok none
  | some flag =>
      (orReject "disable_parallel_tool_use must be boolean" flag.asBool).map fun disabled =>
        some !disabled

def convertToolChoice (value : Value) : Fallible (Value × Option Bool) := do
  let object ← orReject "tool_choice must be an object" value.asObject
  let kind ← requiredString object "type"
  let choice ← chosenTool object kind
  let parallel ← parallelToolUse object
  return (choice, parallel)

def convertOutputFormat (value : Value) : Fallible Value := do
  let object ← orReject "output format must be an object" value.asObject
  let kind ← requiredString object "type"
  match kind with
  | "json_object" => return .object [("type", .string "json_object")]
  | "json_schema" => do
      let schema ← orReject "output schema must be an object"
        ((object.get "schema").filter Value.isObject)
      return .object [("type", .string "json_schema"), ("json_schema", .object [
        ("name", .string (((object.get "name").bind Value.asStr).getD "response")),
        ("schema", schema),
        ("strict", .bool (((object.get "strict").bind Value.asBool).getD true))])]
  | kind => reject ("unsupported output format type " ++ quoteDebug kind)

def copyStopSequences (object output : Map) : Fallible Map :=
  match object.get "stop_sequences" with
  | none => .ok output
  | some stop => do
      let sequences ← orReject "stop_sequences must be an array" stop.asArray
      if sequences.any fun value => !value.isString then
        reject "stop_sequences entries must be strings"
      else return output.insert "stop" stop

def copyMetadata (object output : Map) : Fallible Map :=
  match object.get "metadata" with
  | none => .ok output
  | some metadata =>
      if metadata.isObject then .ok (output.insert "metadata" metadata)
      else reject "metadata must be an object"

def copyTools (object output : Map) : Fallible (Map × ServerToolConfig) :=
  match object.get "tools" with
  | none => .ok (output, ⟨none⟩)
  | some tools => do
      let (converted, serverTools) ← convertTools tools
      return (if converted.isEmpty then output else output.insert "tools" (.array converted),
        serverTools)

def copyToolChoice (object output : Map) : Fallible Map :=
  match object.get "tool_choice" with
  | none => .ok output
  | some value => do
      let (choice, parallel) ← convertToolChoice value
      let chosen := output.insert "tool_choice" choice
      return match parallel with
        | some allowed => chosen.insert "parallel_tool_calls" (.bool allowed)
        | none => chosen

def copyOutputFormat (format : Option Value) (output : Map) : Fallible Map :=
  match format with
  | none => .ok output
  | some value => (convertOutputFormat value).map (output.insert "response_format")

def copyOutputConfig (object output : Map) : Fallible Map :=
  match object.get "output_config" with
  | none => .ok output
  | some config =>
      if config.isObject then copyOutputFormat (config.get "format") output
      else reject "output_config must be an object"

def convertSystemMember (object : Map) : Fallible (List WireMessage) :=
  match object.get "system" with
  | none => .ok []
  | some system => (convertSystem system).map fun content => [.system content]

/-- The members after `messages`, in the order in which they are checked and written. -/
def copySettings (object : Map) (stream : Bool) (output : Map) :
    Fallible (Map × ServerToolConfig) := do
  let output ← copyNumber object output "temperature"
  let output ← copyNumber object output "top_p"
  let output ← copyPositiveInteger object output "top_k"
  let output ← copyStopSequences object output
  let output ← copyMetadata object output
  let (output, serverTools) ← copyTools object output
  let output ← copyToolChoice object output
  let output ← copyOutputConfig object output
  let output ← copyOutputFormat (object.get "output_format") output
  return (if stream then
      output.insert "stream_options" (.object [("include_usage", .bool true)]) else output,
    serverTools)

def convertRequestValue (codec : Codec) (input : Value) : Fallible ConvertedRequest := do
  let object ← orReject "request body must be a JSON object" input.asObject
  let model ← requiredString object "model"
  let maxTokens ← orReject "max_tokens must be a positive integer"
    (((object.get "max_tokens").bind Value.asU64).filter fun value => 0 < value)
  let stream := (← optionalBool object "stream").getD false
  let system ← convertSystemMember object
  let inputMessages ← orReject "messages must be an array"
    ((object.get "messages").bind Value.asArray)
  let messages ← convertMessages codec 0 [] inputMessages
  let wire := (system ++ messages).map WireMessage.intoWire
  let head := [("model", .string model), ("max_tokens", .number (.posInt maxTokens)),
    ("stream", .bool stream), ("messages", .array wire)]
  let (output, serverTools) ← copySettings object stream head
  return {
    body := .object output
    model := model
    stream := stream
    serverTools := serverTools
    thinking := object.get "thinking"
    outputEffort :=
      ((object.get "output_config").bind fun config => config.get "effort").bind Value.asStr
    exposeThinking := false }

end ClineProxy
