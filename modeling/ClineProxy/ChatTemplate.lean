import ClineProxy.CanonicalChecks
import ClineProxy.EffortChecks
import ClineProxy.TemplateJson

/-!
The chat template of `chat_template.jinja` as `template.rs` renders it: blank text around its
tags is trimmed, its namespaces are the state of the loops below, and its macros are functions.
-/

namespace ClineProxy

open Json Text

namespace Glm

/-- What the engine and its Python methods supply beyond the language of the template. -/
structure JinjaEngine (Refusal : Type) extends TemplateEngine Value Refusal where
  describe : Refusal → String
  undefinedValue : Refusal
  unknownFunction : Refusal
  items : Value → Except Refusal (List (String × Value))
  /-- What a loop runs through when it is not given a list. -/
  elements : Value → Except Refusal (List Value)
  /-- Whether something that is neither a mapping nor a text nor a list holds a value. -/
  holds : Value → Value → Except Refusal Bool
  strip : String → String
  display : Value → String
  equal : Option Value → Option Value → Bool

/-! Values of the template; what is not defined is `none` -/

def isTrue : Option Value → Bool
  | none | some .null => false
  | some (.bool value) => value
  | some (.number (.posInt value)) => value != 0
  | some (.number (.negInt value)) => value != 0
  | some (.number (.float bits)) => bits <<< 1 != 0
  | some (.string text) => !text.isEmpty
  | some (.array items) => !items.isEmpty
  | some (.object fields) => !fields.isEmpty

/-- `text.split(pattern)`; `skip` characters still belong to the pattern that was found last. -/
def splitPieces (pattern piece : List Char) : Nat → List Char → List (List Char)
  | _, [] => [piece.reverse]
  | skip + 1, _ :: rest => splitPieces pattern piece skip rest
  | 0, character :: rest =>
      if startsWith pattern (character :: rest) then
        piece.reverse :: splitPieces pattern [] (pattern.length - 1) rest
      else splitPieces pattern (character :: piece) 0 rest

def splitAt (pattern text : String) : List String :=
  (splitPieces pattern.toList [] 0 text.toList).map String.ofList

example : splitAt "ab" "1ab2abab" = ["1", "2", "", ""] := by decide +kernel

def capitalize (text : String) : String :=
  match text.toList with
  | [] => ""
  | first :: rest => String.ofList (first.toUpper :: rest.map Char.toLower)

def roleOf (message : Value) : Option String := (message.get "role").bind Value.asStr

def isTool (message : Value) : Bool := roleOf message == some "tool"

section Render

variable {Refusal : Type} (engine : JinjaEngine Refusal) (codec : Codec)

def printed : Option Value → String
  | none => ""
  | some (.string text) => text
  | some value => engine.display value

def attr (name : String) : Option Value → Except Refusal (Option Value)
  | none => .error engine.undefinedValue
  | some value => .ok (value.get name)

def firstItem : Option Value → Except Refusal (Option Value)
  | none => .error engine.undefinedValue
  | some (.array items) => .ok items.head?
  | some (.string text) => .ok (text.toList.head?.map fun first => .string first.toString)
  | some _ => .ok none

def elementsOf : Option Value → Except Refusal (List Value)
  | none => .ok []
  | some (.array items) => .ok items
  | some value => engine.elements value

def itemsOf : Option Value → Except Refusal (List (String × Value))
  | none => .error engine.undefinedValue
  | some value => engine.items value

def toJson (value : Value) : Except Refusal String :=
  tojson engine.toTemplateEngine codec value [("ensure_ascii", .bool false)]

def eachOf {Item : Type} (text : Item → Except Refusal String) (items : List Item) :
    Except Refusal String :=
  (items.mapM text).map String.join

/-! The tools -/

def toolToJson (tool : Option Value) : Except Refusal String := do
  let members ← itemsOf engine tool
  let shown ← (members.filter fun member =>
    member.1 ≠ "defer_loading" && member.1 ≠ "strict").mapM fun (key, value) => do
      let text ← toJson engine codec value
      return "\"" ++ key ++ "\": " ++ text
  return "\x7b" ++ ", ".intercalate shown ++ "\x7d"

def holdsFunction : Value → Except Refusal Bool
  | .object fields => .ok (Map.get "function" fields).isSome
  | .string text => .ok (contains "function".toList text.toList)
  | .array items => .ok (items.contains (.string "function"))
  | value => engine.holds (.string "function") value

def functionOf (tool : Value) : Except Refusal (Option Value) := do
  let inside ← holdsFunction engine tool
  return if inside then tool.get "function" else some tool

def toolReferencesToResponse (tools : List Value) (refs : List Value) :
    Except Refusal String := do
  if tools.isEmpty then .error engine.unknownFunction
  else
    let named ← eachOf (fun ref => eachOf (fun tool => do
      let function ← functionOf engine tool
      let name ← attr engine "name" function
      if engine.equal name (ref.get "name") then
        let text ← toolToJson engine codec function
        return text ++ "\n"
      else return "") tools) refs
    return "<tool_response><tools>\n" ++ named ++ "</tools></tool_response>"

def toolsHead : String :=
  "<|system|>\n# Tools\n\nYou may call one or more functions to assist with the user query.\n\n" ++
    "You are provided with function signatures within <tools></tools> XML tags:\n<tools>\n"

def toolsTail : String :=
  "</tools>\n\nFor each function call, output the function name and arguments within the " ++
    "following XML format:\n<tool_call>\x7bfunction-name\x7d<arg_key>\x7barg-key-1\x7d</arg_key>" ++
    "<arg_value>\x7barg-value-1\x7d</arg_value><arg_key>\x7barg-key-2\x7d</arg_key><arg_value>" ++
    "\x7barg-value-2\x7d</arg_value>...</tool_call>"

def renderTool (tool : Value) : Except Refusal String := do
  let function ← functionOf engine tool
  let deferred ← attr engine "defer_loading" function
  if isTrue deferred then return ""
  else
    let text ← toolToJson engine codec function
    return text ++ "\n"

def renderTools (tools : List Value) : Except Refusal String := do
  if tools.isEmpty then return ""
  else
    let shown ← eachOf (renderTool engine codec) tools
    return toolsHead ++ shown ++ toolsTail

def visibleItem (item : Value) : String :=
  match item with
  | .string text => text
  | .object fields =>
      match (Map.get "type" fields).bind Value.asStr with
      | some "text" => printed engine (Map.get "text" fields)
      | some "image" | some "image_url" => "<|begin_of_image|><|image|><|end_of_image|>"
      | some "video" | some "video_url" => "<|begin_of_video|><|video|><|end_of_video|>"
      | some "audio" | some "audio_url" | some "input_audio" =>
          "<|begin_of_audio|><|end_of_audio|>"
      | _ => ""
  | _ => ""

def visibleText : Option Value → String
  | none | some .null => ""
  | some (.string text) => text
  | some (.array items) => String.join (items.map (visibleItem engine))
  | some value => engine.display value

/-! The results of tools -/

def toolResponse (text : String) : String := "<tool_response>" ++ text ++ "</tool_response>"

def isListOfOutputs (message : Value) : Except Refusal Bool := do
  if isTrue (message.get "content") then
    let first ← firstItem engine (message.get "content")
    let output ← attr engine "output" first
    return output.isSome
  else return false

def contentItems (message : Value) : List Value := ((message.get "content").bind Value.asArray).getD []

def outputResponse (tools : List Value) (entry : Value) : Except Refusal String :=
  match entry.get "output" with
  | some (.array (first :: rest)) =>
      if first.get "type" = some (.string "tool_reference") then
        toolReferencesToResponse engine codec tools (first :: rest)
      else .ok (toolResponse (visibleText engine (entry.get "output")))
  | output => .ok (toolResponse (visibleText engine output))

def startsWithReference (content : Option Value) : Except Refusal Bool := do
  if isTrue content && !(content.any Value.isObject) then
    let first ← firstItem engine content
    let kind ← attr engine "type" first
    return kind == some (.string "tool_reference")
  else return false

def renderToolResponse (tools : List Value) (message : Value) : Except Refusal String := do
  match message.get "content" with
  | some (.string text) => return toolResponse text
  | content =>
      let reference ← startsWithReference engine content
      if reference then toolReferencesToResponse engine codec tools (contentItems message)
      else
        let outputs ← isListOfOutputs engine message
        if outputs then eachOf (outputResponse engine codec tools) (contentItems message)
        else return toolResponse (visibleText engine content)

def idOf (value : Value) : String :=
  if isTrue (value.get "tool_call_id") then printed engine (value.get "tool_call_id")
  else if isTrue (value.get "id") then printed engine (value.get "id")
  else ""

/-- The results with an id, in the messages up to the one that holds the second. -/
def countToolResultId (target : String) (count : Nat) : List Value → Except Refusal Nat
  | [] => .ok count
  | message :: rest => do
      let outputs ← isListOfOutputs engine message
      let more :=
        if outputs then ((contentItems message).filter fun entry =>
          idOf engine entry = target).length
        else if idOf engine message = target then 1 else 0
      if count + more > 1 then return count + more
      else countToolResultId target (count + more) rest

def hasDupToolResultId (block : List Value) (target : String) : Except Refusal Bool := do
  let count ← countToolResultId engine target 0 block
  return 1 < count

def tcIdExists (calls : Option Value) (target : String) : Except Refusal Bool := do
  let calls ← elementsOf engine calls
  return calls.any fun call => idOf engine call = target

def entryCanSort (calls : Option Value) (block : List Value) (entry : Value) :
    Except Refusal Bool := do
  if idOf engine entry = "" then return false
  else
    let repeated ← hasDupToolResultId engine block (idOf engine entry)
    if repeated then return false else tcIdExists engine calls (idOf engine entry)

def messageCanSort (calls : Option Value) (block : List Value) (message : Value) :
    Except Refusal Bool := do
  let outputs ← isListOfOutputs engine message
  if outputs then (contentItems message).allM (entryCanSort engine calls block)
  else entryCanSort engine calls block message

def canSort (calls : Option Value) (block : List Value) : Except Refusal Bool := do
  if isTrue calls then
    let matched ← block.allM (messageCanSort engine calls block)
    if matched then
      let calls ← elementsOf engine calls
      let ids := calls.map (idOf engine)
      return !ids.contains "" && decide ids.Nodup
    else return false
  else return false

def sortedResponse (tools : List Value) (target : String) (message : Value) :
    Except Refusal String := do
  let outputs ← isListOfOutputs engine message
  if outputs then
    eachOf (outputResponse engine codec tools) ((contentItems message).filter fun entry =>
      idOf engine entry = target)
  else if idOf engine message = target then renderToolResponse engine codec tools message
  else return ""

/-- The results that follow one another; `previous` is the message in front of them. -/
def toolBlock (tools : List Value) (previous : Option Value) (block : List Value) :
    Except Refusal String := do
  let calls := (previous.filter fun message => roleOf message = some "assistant").bind fun message =>
    message.get "tool_calls"
  let sorted ← canSort engine calls block
  if sorted then
    let calls ← elementsOf engine calls
    eachOf (fun call => eachOf (sortedResponse engine codec tools (idOf engine call)) block) calls
  else eachOf (renderToolResponse engine codec tools) block

/-! The messages -/

def renderArgument (argument : String × Value) : Except Refusal String := do
  let text ← match argument.2 with
    | .string text => .ok text
    | value => toJson engine codec value
  return "<arg_key>" ++ argument.1 ++ "</arg_key><arg_value>" ++ text ++ "</arg_value>"

def renderCall (call : Value) : Except Refusal String := do
  let call := if isTrue (call.get "function") then (call.get "function").getD call else call
  let arguments ← itemsOf engine (call.get "arguments")
  let shown ← eachOf (renderArgument engine codec) arguments
  return "<tool_call>" ++ printed engine (call.get "name") ++ shown ++ "</tool_call>"

def turnParts (message : Value) : Option String × String :=
  let content := visibleText engine (message.get "content")
  match message.get "reasoning_content" with
  | some (.string reasoning) => (some reasoning, content)
  | _ =>
      if contains "</think>".toList content.toList then
        let before := ((splitAt "</think>" content).head?).getD ""
        (some (((splitAt "<think>" before).getLast?).getD ""),
          ((splitAt "</think>" content).getLast?).getD "")
      else (none, content)

def renderAssistant (shown : Bool) (message : Value) : Except Refusal String := do
  let (reasoning, content) := turnParts engine message
  let thinking := (reasoning.filter fun _ => shown).getD ""
  let calls ← if isTrue (message.get "tool_calls") then
      elementsOf engine (message.get "tool_calls")
    else .ok []
  let calls ← eachOf (renderCall engine codec) calls
  return "<|assistant|><think>" ++ thinking ++ "</think>" ++ engine.strip content ++ calls

end Render

structure TemplateInput where
  messages : List Value
  tools : Option (List Value)
  reasoningEffort : Option GlmReasoningEffort
  clearThinking : Bool
  addGenerationPrompt : Bool

def lastUserIndex (found : Int) (index : Nat) : List Value → Int
  | [] => found
  | message :: rest =>
      lastUserIndex (if roleOf message = some "user" then index else found) (index + 1) rest

section Messages

variable {Refusal : Type} (engine : JinjaEngine Refusal) (codec : Codec)

/-- What a message adds between `previous` and `rest`; the first result of a block adds all. -/
def messageText (tools : List Value) (shown : Bool) (previous : Option Value) (message : Value)
    (rest : List Value) : Except Refusal String :=
  match roleOf message with
  | some "user" => .ok ("<|user|>" ++ visibleText engine (message.get "content"))
  | some "assistant" => renderAssistant engine codec shown message
  | some "tool" =>
      if previous.any isTool then .ok ""
      else (toolBlock engine codec tools previous (message :: rest.takeWhile isTool)).map fun block =>
        "<|observation|>" ++ block
  | some "system" => .ok ("<|system|>" ++ visibleText engine (message.get "content"))
  | _ => .ok ""

def renderMessages (tools : List Value) (shown : Nat → Bool) (index : Nat)
    (previous : Option Value) : List Value → Except Refusal String
  | [] => .ok ""
  | message :: rest => do
      let text ← messageText engine codec tools (shown index) previous message rest
      let later ← renderMessages tools shown (index + 1) (some message) rest
      return text ++ later

def promptHead (effort : Option GlmReasoningEffort) : String :=
  "[gMASK]<sop><|system|>Reasoning Effort: " ++ capitalize (effectiveReasoningEffort effort)

def generationPrompt : String := "<|assistant|><think>"

def render (input : TemplateInput) : Except Refusal String := do
  let tools := input.tools.getD []
  let declared ← renderTools engine codec tools
  let last := lastUserIndex (-1) 0 input.messages
  let turns ← renderMessages engine codec tools
    (fun index => !input.clearThinking || last < index) 0 none input.messages
  return promptHead input.reasoningEffort ++ declared ++ turns ++
    (if input.addGenerationPrompt then generationPrompt else "")

end Messages

abbrev Tokenizer := Except String (String → Except String (List UInt32))

def failed {Result : Type} (message : String) : Fallible Result :=
  .error (.rejected (.upstream message))

def encodeNoSpecial (tokenizer : Tokenizer) (rendered : String) : Fallible (List UInt32) :=
  match tokenizer with
  | .error reason => failed ("embedded GLM tokenizer failed to load: " ++ reason)
  | .ok encode =>
      match encode rendered with
      | .error error => failed ("tokenization failed: " ++ error)
      | .ok ids => .ok ids

section Counting

variable {Refusal : Type} (engine : JinjaEngine Refusal) (codec : Codec)

def explained : Except Refusal String → Fallible String
  | .error refusal => failed ("chat template rendering failed: " ++ engine.describe refusal)
  | .ok rendered => .ok rendered

/-- The prompt whose tokens are counted. -/
def countedPrompt (request : Value) : Fallible String := do
  let conversion ← convertAnthropicToGlm request
  explained engine (render engine codec
    ⟨conversion.messages, conversion.tools, conversion.reasoningEffort, false, true⟩)

def countInputTokens (tokenizer : Tokenizer) (request : Value) : Fallible UInt32 := do
  let rendered ← countedPrompt engine codec request
  let ids ← encodeNoSpecial tokenizer rendered
  if ids.length < UInt32.size then return UInt32.ofNat ids.length
  else failed "token count overflowed"

end Counting

def pythonEngine : JinjaEngine String where
  optionalFlag value := .ok (value.bind Value.asBool)
  unusedArgument name := "too many keyword arguments: " ++ name
  invalidOperation message := "invalid operation: " ++ message
  toValue := .ok
  describe := id
  undefinedValue := "undefined value"
  unknownFunction := "unknown function"
  items value := (value.asObject).elim (.error "unknown method: items") .ok
  elements _ := .error "invalid operation: not iterable"
  holds _ _ := .error "invalid operation: cannot perform a containment check"
  strip text := String.ofList (trim text.toList)
  display _ := ""
  equal first second := first == second

def parallelCalls : List Value :=
  [.object [("role", .string "user"), ("content", .string "Compare a.txt and b.txt")],
    .object [("role", .string "assistant"), ("content", .array [
      .object [("type", .string "tool_use"), ("id", .string "toolu_a"), ("name", .string "Read"),
        ("input", .object [("path", .string "/tmp/a.txt")])],
      .object [("type", .string "tool_use"), ("id", .string "toolu_b"), ("name", .string "Read"),
        ("input", .object [("path", .string "/tmp/b.txt")])]])],
    .object [("role", .string "user"), ("content", .array [
      .object [("type", .string "tool_result"), ("tool_use_id", .string "toolu_b"),
        ("content", .string "beta contents")],
      .object [("type", .string "tool_result"), ("tool_use_id", .string "toolu_a"),
        ("content", .string "alpha contents")]])]]

def conversation (messages : List Value) : Map :=
  [("model", .string "z-ai/glm-5.3-flash"), ("messages", .array messages)]

example : countedPrompt pythonEngine (grammarCodec wholeNumbers 127)
    (.object (conversation parallelCalls)) = .ok (
      "[gMASK]<sop><|system|>Reasoning Effort: Max<|user|>Compare a.txt and b.txt" ++
      "<|assistant|><think></think><tool_call>Read<arg_key>path</arg_key>" ++
      "<arg_value>/tmp/a.txt</arg_value></tool_call><tool_call>Read<arg_key>path</arg_key>" ++
      "<arg_value>/tmp/b.txt</arg_value></tool_call><|observation|>" ++
      "<tool_response>beta contents</tool_response>" ++
      "<tool_response>alpha contents</tool_response><|assistant|><think>") := by
  decide +kernel

end Glm

end ClineProxy
