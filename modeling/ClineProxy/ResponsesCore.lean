import ClineProxy.ResponseCore
import ClineProxy.WebSearch

/-!
`responses/stream.rs`: chat completion chunks turned into the events of the Responses API,
and the response object that ends them.
-/

namespace ClineProxy

open Json

structure ResponsesUsage where
  input : UInt64
  output : UInt64
  cached : UInt64
  reasoning : UInt64
  deriving DecidableEq

def mapUsage (usage : Value) : ResponsesUsage :=
  let input := (usageCount (some usage) "prompt_tokens").getD 0
  let output := (usageCount (some usage) "completion_tokens").getD 0
  let cached := (usageCount (usage.get "prompt_tokens_details") "cached_tokens").getD 0
  let reasoning := (usageCount (usage.get "completion_tokens_details") "reasoning_tokens").getD 0
  ⟨input, output, min cached input, min reasoning output⟩

def ResponsesUsage.usageJson (usage : ResponsesUsage) : Value :=
  .object [
    ("input_tokens", .number (.posInt usage.input)),
    ("input_tokens_details", .object [("cached_tokens", .number (.posInt usage.cached))]),
    ("output_tokens", .number (.posInt usage.output)),
    ("output_tokens_details", .object [("reasoning_tokens", .number (.posInt usage.reasoning))]),
    ("total_tokens", .number (.posInt (usage.input + usage.output)))]

inductive TextKind where
  | reasoning
  | message
  deriving DecidableEq

inductive ItemKind where
  | text (kind : TextKind)
  | functionCall
  | webSearchCall
  deriving DecidableEq

/-- An item id is random text; no two ids that are made are the same. -/
structure ItemId where
  kind : ItemKind
  serial : Nat
  deriving DecidableEq

def ItemId.text (uuid : Nat → String) (id : ItemId) : Value :=
  let tag := match id.kind with
    | .text .reasoning => "rs_"
    | .text .message => "msg_"
    | .functionCall => "fc_"
    | .webSearchCall => "ws_"
  .string (tag ++ uuid id.serial)

/-- An output item as the events and the response show it; a text item in progress shows no
text. -/
inductive ResponsesItem where
  | text (id : ItemId) (content : Option String)
  | functionCall (id : ItemId) (callId name arguments : String) (completed : Bool)
  | webSearchCall (id : ItemId) (failed : Bool) (query : String) (sources : List String)
  deriving DecidableEq

namespace ResponsesItem

def id : ResponsesItem → ItemId
  | text itemId _ => itemId
  | functionCall itemId .. => itemId
  | webSearchCall itemId .. => itemId

def progress (completed : Bool) : Value :=
  .string (if completed then "completed" else "in_progress")

def outputText (text : String) : Value :=
  .object [("type", .string "output_text"), ("text", .string text), ("annotations", .array [])]

def summaryText (text : String) : Value :=
  .object [("type", .string "summary_text"), ("text", .string text)]

def data (uuid : Nat → String) : ResponsesItem → Value
  | text id content =>
      if id.kind = .text .reasoning then .object [
        ("type", .string "reasoning"), ("id", id.text uuid),
        ("summary", .array (content.map summaryText).toList),
        ("status", progress content.isSome)]
      else .object [
        ("type", .string "message"), ("id", id.text uuid), ("role", .string "assistant"),
        ("status", progress content.isSome),
        ("content", .array (content.map outputText).toList)]
  | functionCall id callId name arguments completed => .object [
      ("type", .string "function_call"), ("id", id.text uuid), ("call_id", .string callId),
      ("name", .string name), ("arguments", .string arguments), ("status", progress completed)]
  | webSearchCall id failed query sources => .object [
      ("type", .string "web_search_call"), ("id", id.text uuid),
      ("status", .string (if failed then "failed" else "completed")),
      ("action", .object [("type", .string "search"), ("query", .string query),
        ("sources", .array (sources.map fun url =>
          .object [("type", .string "url"), ("url", .string url)]))])]

end ResponsesItem

inductive ResponseStatus where
  | inProgress
  | completed
  | incomplete
  | failed
  deriving DecidableEq

def ResponseStatus.asStr : ResponseStatus → String
  | inProgress => "in_progress"
  | completed => "completed"
  | incomplete => "incomplete"
  | failed => "failed"

structure ResponseObject where
  responseId : String
  createdAt : UInt64
  status : ResponseStatus
  model : String
  output : List ResponsesItem
  usage : ResponsesUsage
  error : Option String
  incompleteDetails : Option String
  deriving DecidableEq

def ResponseObject.data (uuid : Nat → String) (response : ResponseObject) : Value :=
  .object [
    ("id", .string response.responseId), ("object", .string "response"),
    ("created_at", .number (.posInt response.createdAt)),
    ("status", .string response.status.asStr), ("model", .string response.model),
    ("output", .array (response.output.map (ResponsesItem.data uuid))),
    ("usage", response.usage.usageJson),
    ("error", response.error.elim .null fun message =>
      .object [("code", .string "upstream_error"), ("message", .string message)]),
    ("incomplete_details", response.incompleteDetails.elim .null fun reason =>
      .object [("reason", .string reason)]),
    ("parallel_tool_calls", .bool true)]

inductive ItemChange where
  | added (item : ResponsesItem)
  | partAdded
  | delta (text : String)
  | textDone (text : String)
  | partDone (text : String)
  | searchStarted
  | done (item : ResponsesItem)
  deriving DecidableEq

inductive ResponsesEvent where
  | created (response : ResponseObject)
  | inProgress (response : ResponseObject)
  | item (id : ItemId) (outputIndex : Nat) (change : ItemChange)
  | terminal (response : ResponseObject)
  deriving DecidableEq

namespace ResponsesEvent

def itemType (kind : ItemKind) : ItemChange → String
  | .added _ => "response.output_item.added"
  | .done _ => "response.output_item.done"
  | .searchStarted => "response.web_search_call.in_progress"
  | .partAdded =>
      if kind = .text .reasoning then "response.reasoning_summary_part.added"
      else "response.content_part.added"
  | .delta _ =>
      match kind with
      | .text .reasoning => "response.reasoning_summary_text.delta"
      | .text .message => "response.output_text.delta"
      | _ => "response.function_call_arguments.delta"
  | .textDone _ =>
      match kind with
      | .text .reasoning => "response.reasoning_summary_text.done"
      | .text .message => "response.output_text.done"
      | _ => "response.function_call_arguments.done"
  | .partDone _ =>
      if kind = .text .reasoning then "response.reasoning_summary_part.done"
      else "response.content_part.done"

def eventType : ResponsesEvent → String
  | created _ => "response.created"
  | inProgress _ => "response.in_progress"
  | item id _ change => itemType id.kind change
  | terminal response => "response." ++ response.status.asStr

def partIndex : ItemKind → Map
  | .text .reasoning => [("summary_index", .ofNat 0)]
  | .text .message => [("content_index", .ofNat 0)]
  | _ => []

def part (kind : ItemKind) (text : String) : Value :=
  if kind = .text .reasoning then ResponsesItem.summaryText text
  else ResponsesItem.outputText text

def itemMembers (uuid : Nat → String) (id : ItemId) (outputIndex : Nat) : ItemChange → Map
  | .added shown | .done shown =>
      [("output_index", .ofNat outputIndex), ("item", shown.data uuid)]
  | .searchStarted => [("output_index", .ofNat outputIndex), ("item_id", id.text uuid)]
  | .partAdded => about ++ [("part", part id.kind "")]
  | .partDone text => about ++ [("part", part id.kind text)]
  | .delta text => about ++ [("delta", .string text)]
  | .textDone text =>
      about ++ [(if id.kind = .functionCall then "arguments" else "text", .string text)]
where
  about : Map :=
    [("item_id", id.text uuid), ("output_index", .ofNat outputIndex)] ++ partIndex id.kind

def members (uuid : Nat → String) : ResponsesEvent → Map
  | created response => [("response", response.data uuid)]
  | inProgress response => [("response", response.data uuid)]
  | item itemId outputIndex change => itemMembers uuid itemId outputIndex change
  | terminal response => [("response", response.data uuid)]

end ResponsesEvent

structure SequencedEvent where
  sequenceNumber : Nat
  event : ResponsesEvent
  deriving DecidableEq

def SequencedEvent.data (uuid : Nat → String) (sent : SequencedEvent) : Value :=
  .object (("type", .string sent.event.eventType) :: sent.event.members uuid ++
    [("sequence_number", .ofNat sent.sequenceNumber)])

def SequencedEvent.sseEvent (codec : Codec) (uuid : Nat → String) (sent : SequencedEvent) :
    String :=
  "data: " ++ codec.toText (sent.data uuid) ++ "\n\n"

end ClineProxy
