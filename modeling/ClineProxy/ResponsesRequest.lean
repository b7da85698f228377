import ClineProxy.AnthropicRequest

/-! The input items of `responses/request.rs`, turned into chat messages. -/

namespace ClineProxy

open Json Text

def inputAt (index : Nat) : String := "input[" ++ toString index ++ "]"

def convertInputPart (index : Nat) (place images : String) (partIndex : Nat) (part : Value) :
    Fallible String := do
  let at_ := inputAt index ++ "." ++ place ++ "[" ++ toString partIndex ++ "]"
  let object ← orReject (at_ ++ " must be an object") part.asObject
  match (object.get "type").bind Value.asStr with
  | some "input_text" | some "output_text" =>
      return ((object.get "text").bind Value.asStr).getD ""
  | some "input_image" => reject (inputAt index ++ ": " ++ images ++ " are not supported by this model")
  | some "refusal" =>
      if place = "content" then return ((object.get "refusal").bind Value.asStr).getD ""
      else reject (at_ ++ ": unsupported content type " ++ quoteDebug "refusal")
  | some other => reject (at_ ++ ": unsupported content type " ++ quoteDebug other)
  | none => reject (at_ ++ " requires a type")

def convertInputParts (index : Nat) (place images : String) (parts : List Value) :
    Fallible String := do
  let texts ← parts.zipIdx.mapM fun (part, partIndex) =>
    convertInputPart index place images partIndex part
  return "\n".intercalate texts

def contentText (index : Nat) : Value → Fallible String
  | .string text => .ok text
  | .array parts => convertInputParts index "content" "image inputs" parts
  | .null => .ok ""
  | _ => reject (inputAt index ++ ".content must be a string or an array")

def chatMessage (role : String) (content : Value) : Value :=
  .object [("role", .string role), ("content", content)]

def messageOf (index : Nat) (role text : String) : Fallible Value :=
  match role with
  | "system" | "developer" => .ok (chatMessage "system" (.string text))
  | "user" => .ok (chatMessage "user" (.string text))
  | "assistant" => .ok (chatMessage "assistant" (if text.isEmpty then .null else .string text))
  | other => reject (inputAt index ++ ": unsupported message role " ++ quoteDebug other)

def convertMessageItem (object : Map) (index : Nat) : Fallible Value := do
  let role ← orReject (inputAt index ++ ": message requires a role")
    ((object.get "role").bind Value.asStr)
  let text ← contentText index ((object.get "content").getD .null)
  messageOf index role text

def itemString (object : Map) (index : Nat) (kind name : String) : Fallible String :=
  orReject (inputAt index ++ ": " ++ kind ++ " requires " ++ name)
    (((object.get name).bind Value.asStr).filter fun text => !text.isEmpty)

def convertFunctionCall (object : Map) (index : Nat) : Fallible Value := do
  let callId ← itemString object index "function_call" "call_id"
  let name ← itemString object index "function_call" "name"
  return toolCall callId name (((object.get "arguments").bind Value.asStr).getD "{}")

def toolAnswer (toolCallId content : String) : Value :=
  .object [("role", .string "tool"), ("tool_call_id", .string toolCallId),
    ("content", .string content)]

def convertFunctionCallOutput (object : Map) (index : Nat) : Fallible Value := do
  let callId ← itemString object index "function_call_output" "call_id"
  let content ← match object.get "output" with
    | none | some .null => .ok ""
    | some (.string text) => .ok text
    | some (.array parts) => convertInputParts index "output" "image tool outputs" parts
    | some _ => reject (inputAt index ++ ": function_call_output.output must be a string or an array")
  return toolAnswer callId content

def assistantCalls (calls : List Value) : Value :=
  .object [("role", .string "assistant"), ("content", .null), ("tool_calls", .array calls)]

def sourceLines (position : Nat) (source : Value) : String :=
  toString (position + 1) ++ ". " ++ ((source.get "url").bind Value.asStr).getD "" ++ "\n" ++
    (((source.get "title").bind Value.asStr).elim "" fun title => "   " ++ title ++ "\n")

def replayedSearchText (query : String) (sources : List Value) : String :=
  "Web search results for \"" ++ query ++ "\":\n" ++
    (sources.zipIdx.map fun (source, position) => sourceLines position source).foldl (· ++ ·) ""

/-- A replayed search: the call and its result. -/
def convertWebSearchCall (codec : Codec) (object : Map) (index : Nat) :
    Fallible (Value × Value) := do
  let id ← itemString object index "web_search_call" "id"
  let action := object.get "action"
  let query := ((action.bind fun action => action.get "query").bind Value.asStr).getD ""
  let sources := ((action.bind fun action => action.get "sources").bind Value.asArray).getD []
  let arguments := codec.toText (.object [("query", .string query)])
  return (assistantCalls [toolCall id webSearchFunctionName arguments],
    toolAnswer id (replayedSearchText query sources))

/-- What an item does to the messages: a message is appended as it is, a call waits, and any other
item appends its messages behind the calls that wait. -/
inductive ItemEffect where
  | message (message : Value)
  | call (call : Value)
  | flushed (messages : List Value)

def itemKind (object : Map) : String := ((object.get "type").bind Value.asStr).getD "message"

def convertInputItem (codec : Codec) (index : Nat) (item : Value) : Fallible ItemEffect := do
  let object ← orReject (inputAt index ++ " must be an object") item.asObject
  match itemKind object with
  | "message" => (convertMessageItem object index).map .message
  | "function_call" => (convertFunctionCall object index).map .call
  | "function_call_output" =>
      (convertFunctionCallOutput object index).map fun message => .flushed [message]
  | "reasoning" => return .flushed []
  | "web_search_call" =>
      (convertWebSearchCall codec object index).map fun (assistant, tool) =>
        .flushed [assistant, tool]
  | "item_reference" =>
      reject "input item type \"item_reference\" is not supported (this proxy is stateless; replay full items)"
  | other => reject (inputAt index ++ ": unsupported item type " ++ quoteDebug other)

structure InputState where
  messages : List Value
  pendingCalls : List Value

namespace InputState

def start : InputState := ⟨[], []⟩

def flushCalls (state : InputState) : InputState :=
  if state.pendingCalls.isEmpty then state
  else ⟨state.messages ++ [assistantCalls state.pendingCalls], []⟩

def apply (state : InputState) : ItemEffect → InputState
  | .message message => { state with messages := state.messages ++ [message] }
  | .call call => { state with pendingCalls := state.pendingCalls ++ [call] }
  | .flushed messages =>
      { state.flushCalls with messages := state.flushCalls.messages ++ messages }

end InputState

def convertItem (codec : Codec) (state : InputState) (item : Value × Nat) :
    Fallible InputState :=
  (convertInputItem codec item.2 item.1).map state.apply

def convertInputItems (codec : Codec) (items : List Value) : Fallible (List Value) := do
  let state ← items.zipIdx.foldlM (convertItem codec) .start
  let messages := state.flushCalls.messages
  if messages.isEmpty then reject "input must not be empty" else return messages

def convertInput (codec : Codec) (object : Map) : Fallible (List Value) :=
  match object.get "input" with
  | some (.string text) => .ok [chatMessage "user" (.string text)]
  | some (.array items) => convertInputItems codec items
  | some _ => reject "input must be a string or an array of items"
  | none => reject "input is required"

end ClineProxy
