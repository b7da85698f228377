import ClineProxy.ConvertedTurns

/-!
The prompts that are counted: the messages in the order of the conversation, and the earlier
prompt in front of what a later one adds.
-/

namespace ClineProxy

open Json Text

namespace Glm

section Parts

variable {message : Value}

theorem roleOf_intoMessage (segment : Segment) : roleOf segment.intoMessage = some "assistant" :=
  rfl

theorem get_toolCalls_intoMessage (segment : Segment) : segment.intoMessage.get "tool_calls" =
    if segment.toolCalls.isEmpty then none else some (.array segment.toolCalls) := by
  rw [Segment.intoMessage]
  by_cases silent : segment.reasoning.isEmpty = true <;>
    by_cases empty : segment.toolCalls.isEmpty = true <;>
    simp [silent, empty, OrderedMap.lookup]

end Parts

variable {Refusal : Type} (engine : JinjaEngine Refusal) (codec : Codec)

def turnText (previous : Option Value) (message : Value) : Except Refusal String :=
  match roleOf message with
  | some "user" => .ok ("<|user|>" ++ visibleText engine (message.get "content"))
  | some "assistant" => renderAssistant engine codec true message
  | some "tool" => .ok ((if previous.any isTool then "" else "<|observation|>") ++
      toolResponse (visibleText engine (message.get "content")))
  | some "system" => .ok ("<|system|>" ++ visibleText engine (message.get "content"))
  | _ => .ok ""

def inOrder (previous : Option Value) : List Value → Except Refusal String
  | [] => .ok ""
  | message :: rest => do
      let text ← turnText engine codec previous message
      let later ← inOrder (some message) rest
      return text ++ later

theorem inOrder_append (first second : List Value) (previous : Option Value) :
    inOrder engine codec previous (first ++ second) = do
      let before ← inOrder engine codec previous first
      let after ← inOrder engine codec (first.getLast?.or previous) second
      return before ++ after := by
  induction first generalizing previous with
  | nil =>
      rw [List.nil_append, inOrder, List.getLast?_nil, Option.none_or]
      cases inOrder engine codec previous second with
      | error => rfl
      | ok text => exact congrArg Except.ok String.empty_append.symm
  | cons message rest ih =>
      have last : (message :: rest).getLast?.or previous = rest.getLast?.or (some message) := by
        rw [List.getLast?_cons]
        cases rest.getLast? <;> rfl
      rw [List.cons_append, inOrder, inOrder, last, ih]
      cases turnText engine codec previous message with
      | error => rfl
      | ok text =>
          cases inOrder engine codec (some message) rest with
          | error => rfl
          | ok before =>
              cases inOrder engine codec (rest.getLast?.or (some message)) second with
              | error => rfl
              | ok after => exact congrArg Except.ok String.append_assoc.symm

section Results

variable {tools : List Value} {id : String} {content : Value}

def toolResult (id : String) (content : Value) : Value :=
  .object [("role", .string "tool"), ("tool_call_id", .string id), ("content", content)]

theorem get_content_toolResult : (toolResult id content).get "content" = some content := rfl

theorem firstItem_plain (plain : PlainResult content) (filled : isTrue (some content) = true) :
    ∃ first, firstItem engine (some content) = .ok (some first) ∧ first.get "output" = none ∧
      first.get "type" ≠ some (.string "tool_reference") := by
  cases plain with
  | text text =>
      have some_ : text.isEmpty = false := by simpa [isTrue] using filled
      cases shape : text.toList with
      | nil => simp [String.toList_eq_nil_iff.mp shape] at some_
      | cons first rest =>
          refine ⟨.string first.toString, ?_, rfl, by simp [Value.get]⟩
          rw [firstItem, shape]
          rfl
  | items items plain =>
      cases items with
      | nil => cases filled
      | cons first rest =>
          refine ⟨first, rfl, ?_⟩
          rcases plain first List.mem_cons_self with ⟨text, rfl⟩ | rfl
          · exact ⟨rfl, by simp [textBlock, OrderedMap.lookup]⟩
          · exact ⟨rfl, by simp [imagePlaceholder, OrderedMap.lookup]⟩

theorem isListOfOutputs_toolResult (plain : PlainResult content) :
    isListOfOutputs engine (toolResult id content) = .ok false := by
  rw [isListOfOutputs, get_content_toolResult]
  split
  next filled =>
    obtain ⟨first, found, noOutput, -⟩ := firstItem_plain engine plain filled
    rw [found]
    exact congrArg (fun output => Except.ok output.isSome) noOutput
  next => rfl

theorem startsWithReference_plain (plain : PlainResult content) :
    startsWithReference engine (some content) = .ok false := by
  rw [startsWithReference]
  split
  next listed =>
    rw [Bool.and_eq_true] at listed
    obtain ⟨first, found, -, other⟩ := firstItem_plain engine plain listed.1
    rw [found]
    exact congrArg Except.ok (beq_eq_false_iff_ne.mpr other)
  next => rfl

theorem renderToolResponse_toolResult (plain : PlainResult content) :
    renderToolResponse engine codec tools (toolResult id content) =
      .ok (toolResponse (visibleText engine (some content))) := by
  rw [renderToolResponse, get_content_toolResult]
  split
  next text same =>
    cases same
    rfl
  next =>
    rw [startsWithReference_plain engine plain, isListOfOutputs_toolResult engine plain]
    rfl

theorem idOf_templateCall (name : String) (input : Value) :
    idOf engine (templateCall name input) = "" := rfl

end Results

def PlainResultMessage (message : Value) : Prop :=
  ∃ id content, PlainResult content ∧ message = toolResult id content

theorem plainResultMessage_of_isTool {message : Value} (plain : PlainMessage message)
    (tool : isTool message = true) : PlainResultMessage message := by
  cases plain with
  | system content => simp [isTool, roleOf, systemMessage, OrderedMap.lookup] at tool
  | user content => simp [isTool, roleOf, OrderedMap.lookup] at tool
  | tool id content plain => exact ⟨id, content, plain, rfl⟩
  | assistant segment plain =>
      rw [isTool, roleOf_intoMessage] at tool
      cases tool

theorem countToolResultId_plain {block : List Value} (target : String) (count : Nat)
    (plain : ∀ message ∈ block, PlainResultMessage message) :
    ∃ found, countToolResultId engine target count block = .ok found := by
  induction block generalizing count with
  | nil => exact ⟨count, rfl⟩
  | cons message rest ih =>
      obtain ⟨id, content, plainContent, rfl⟩ := plain message List.mem_cons_self
      rw [countToolResultId, isListOfOutputs_toolResult engine plainContent]
      simp only [bind, Except.bind, Bool.false_eq_true, ↓reduceIte]
      generalize count + (if idOf engine (toolResult id content) = target then 1 else 0) = sum
      by_cases enough : 1 < sum
      · exact ⟨sum, if_pos enough⟩
      · rw [if_neg enough]
        exact ih sum fun other member => plain other (List.mem_cons_of_mem _ member)

def PlainCalls (calls : Option Value) : Prop :=
  ∀ value, calls = some value → ∃ items, value = .array items ∧ ∀ call ∈ items, PlainCall call

theorem entryCanSort_plain {calls : Option Value} {block : List Value} (plainCalls : PlainCalls calls)
    (plain : ∀ message ∈ block, PlainResultMessage message) (message : Value) :
    entryCanSort engine calls block message = .ok false := by
  rw [entryCanSort]
  split
  next => rfl
  next named =>
    obtain ⟨found, counted⟩ := countToolResultId_plain engine (idOf engine message) 0 plain
    rw [hasDupToolResultId, counted]
    simp only [bind, Except.bind, pure, Except.pure]
    split
    next => rfl
    next =>
      cases calls with
      | none => rfl
      | some value =>
          obtain ⟨items, rfl, unnamed⟩ := plainCalls value rfl
          refine congrArg Except.ok (List.any_eq_false.mpr fun call member => ?_)
          obtain ⟨name, input, rfl⟩ := unnamed call member
          rw [idOf_templateCall]
          simpa using Ne.symm named

/-- Calls without ids never bring the results of a block into another order. -/
theorem canSort_plain {calls : Option Value} {message : Value} {rest : List Value}
    (plainCalls : PlainCalls calls)
    (plain : ∀ result ∈ message :: rest, PlainResultMessage result) :
    canSort engine calls (message :: rest) = .ok false := by
  rw [canSort]
  split
  next =>
    have unsorted : messageCanSort engine calls (message :: rest) message = .ok false := by
      obtain ⟨id, content, plainContent, rfl⟩ := plain message List.mem_cons_self
      rw [messageCanSort, isListOfOutputs_toolResult engine plainContent]
      exact entryCanSort_plain engine plainCalls plain _
    rw [FallibleLoops.allM_cons_false unsorted]
    rfl
  next => rfl

theorem plainCalls_of_previous {previous : Option Value}
    (plain : ∀ message ∈ previous, PlainMessage message) :
    PlainCalls ((previous.filter fun message => roleOf message = some "assistant").bind
      fun message => message.get "tool_calls") := by
  intro value found
  obtain ⟨message, kept, held⟩ := Option.bind_eq_some_iff.mp found
  obtain ⟨isPrevious, speaks⟩ := Option.filter_eq_some_iff.mp kept
  cases plain message isPrevious with
  | system content => cases held
  | user content => cases held
  | tool id content plain => cases held
  | assistant segment plain =>
      rw [get_toolCalls_intoMessage] at held
      split at held
      next => cases held
      next =>
        cases held
        exact ⟨_, rfl, plain⟩

def leadingResults (messages : List Value) : String :=
  String.join ((messages.takeWhile isTool).map fun message =>
    toolResponse (visibleText engine (message.get "content")))

theorem toolBlock_plain {tools : List Value} {previous : Option Value} {message : Value}
    {rest : List Value} (plainPrevious : ∀ message ∈ previous, PlainMessage message)
    (plain : ∀ other ∈ message :: rest, PlainMessage other) (tool : isTool message = true) :
    toolBlock engine codec tools previous (message :: rest.takeWhile isTool) =
      .ok (toolResponse (visibleText engine (message.get "content")) ++
        leadingResults engine rest) := by
  have results : ∀ other ∈ message :: rest.takeWhile isTool, PlainResultMessage other := by
    intro other member
    rcases List.mem_cons.mp member with rfl | later
    · exact plainResultMessage_of_isTool (plain other List.mem_cons_self) tool
    · exact plainResultMessage_of_isTool
        (plain other (List.mem_cons_of_mem _ ((List.takeWhile_sublist _).mem later)))
        (List.mem_takeWhile_imp later)
  have shown : (message :: rest.takeWhile isTool).mapM (renderToolResponse engine codec tools) =
      .ok ((message :: rest.takeWhile isTool).map fun other =>
        toolResponse (visibleText engine (other.get "content"))) := by
    refine FallibleLoops.mapM_pure fun other member => ?_
    obtain ⟨id, content, plainContent, rfl⟩ := results other member
    exact renderToolResponse_toolResult engine codec plainContent
  rw [toolBlock, canSort_plain engine (plainCalls_of_previous plainPrevious) results]
  simp only [bind, Except.bind, Bool.false_eq_true, ↓reduceIte]
  rw [eachOf, shown, Except.map, List.map_cons, String.join_cons]
  rfl

theorem turnText_tool {previous : Option Value} {message : Value} (tool : isTool message = true) :
    turnText engine codec previous message =
      .ok ((if previous.any isTool then "" else "<|observation|>") ++
        toolResponse (visibleText engine (message.get "content"))) := by
  have speaks : roleOf message = some "tool" := beq_iff_eq.mp tool
  simp only [turnText, speaks]

theorem leadingResults_tool {message : Value} (tool : isTool message = true)
    (rest : List Value) : leadingResults engine (message :: rest) =
      toolResponse (visibleText engine (message.get "content")) ++ leadingResults engine rest := by
  rw [leadingResults, List.takeWhile_cons_of_pos tool, List.map_cons, String.join_cons]
  rfl

theorem leadingResults_other {message : Value} (other : isTool message = false)
    (rest : List Value) : leadingResults engine (message :: rest) = "" := by
  rw [leadingResults, List.takeWhile_cons_of_neg (by simp [other])]
  rfl

theorem messageText_behind {tools : List Value} {previous : Option Value} {message : Value}
    (rest : List Value) (tool : isTool message = true) (behind : previous.any isTool = true) :
    messageText engine codec tools true previous message rest = .ok "" := by
  have speaks : roleOf message = some "tool" := beq_iff_eq.mp tool
  simp only [messageText, speaks, behind, ↓reduceIte]

theorem messageText_tool {tools : List Value} {previous : Option Value} {message : Value}
    {rest : List Value} (plainPrevious : ∀ message ∈ previous, PlainMessage message)
    (plain : ∀ other ∈ message :: rest, PlainMessage other) (tool : isTool message = true)
    (first : previous.any isTool = false) :
    messageText engine codec tools true previous message rest =
      .ok ("<|observation|>" ++ (toolResponse (visibleText engine (message.get "content")) ++
        leadingResults engine rest)) := by
  have speaks : roleOf message = some "tool" := beq_iff_eq.mp tool
  simp only [messageText, speaks, first, Bool.false_eq_true, ↓reduceIte]
  rw [toolBlock_plain engine codec plainPrevious plain tool]
  rfl

theorem messageText_unknown {tools : List Value} {previous : Option Value} {message : Value}
    (rest : List Value) (notUser : roleOf message ≠ some "user")
    (notAssistant : roleOf message ≠ some "assistant") (notTool : roleOf message ≠ some "tool")
    (notSystem : roleOf message ≠ some "system") :
    messageText engine codec tools true previous message rest = .ok "" := by
  unfold messageText
  split
  next user => exact absurd user notUser
  next assistant => exact absurd assistant notAssistant
  next tool => exact absurd tool notTool
  next system => exact absurd system notSystem
  next => rfl

theorem turnText_unknown {previous : Option Value} {message : Value}
    (notUser : roleOf message ≠ some "user") (notAssistant : roleOf message ≠ some "assistant")
    (notTool : roleOf message ≠ some "tool") (notSystem : roleOf message ≠ some "system") :
    turnText engine codec previous message = .ok "" := by
  unfold turnText
  split
  next user => exact absurd user notUser
  next assistant => exact absurd assistant notAssistant
  next tool => exact absurd tool notTool
  next system => exact absurd system notSystem
  next => rfl

theorem messageText_other {tools : List Value} {previous : Option Value} {message : Value}
    (rest : List Value) (other : isTool message = false) :
    messageText engine codec tools true previous message rest =
      turnText engine codec previous message := by
  have notTool : roleOf message ≠ some "tool" := fun speaks => by simp [isTool, speaks] at other
  by_cases user : roleOf message = some "user"
  · simp only [messageText, turnText, user]
  by_cases assistant : roleOf message = some "assistant"
  · simp only [messageText, turnText, assistant]
  by_cases system : roleOf message = some "system"
  · simp only [messageText, turnText, system]
  rw [messageText_unknown engine codec rest user assistant notTool system,
    turnText_unknown engine codec user assistant notTool system]

/-- Behind a result, the results that follow have been rendered with it. -/
theorem renderMessages_plain {tools : List Value} {messages : List Value}
    (plain : ∀ message ∈ messages, PlainMessage message) (index : Nat)
    {previous : Option Value} (plainPrevious : ∀ message ∈ previous, PlainMessage message) :
    inOrder engine codec previous messages =
      (renderMessages engine codec tools (fun _ => true) index previous messages).map fun turns =>
        (if previous.any isTool then leadingResults engine messages else "") ++ turns := by
  induction messages generalizing index previous with
  | nil => cases previous.any isTool <;> rfl
  | cons message rest ih =>
      have plainRest : ∀ other ∈ rest, PlainMessage other := fun other member =>
        plain other (List.mem_cons_of_mem _ member)
      have plainMessage : ∀ other ∈ some message, PlainMessage other := by
        intro other member
        rw [← Option.mem_some.mp member]
        exact plain message List.mem_cons_self
      have later := ih plainRest (index + 1) plainMessage
      rw [Option.any_some] at later
      rw [inOrder, later, renderMessages]
      cases tool : isTool message with
      | false =>
          rw [messageText_other engine codec rest tool, leadingResults_other engine tool]
          cases turnText engine codec previous message with
          | error => rfl
          | ok text =>
              cases renderMessages engine codec tools (fun _ => true) (index + 1) (some message)
                rest with
              | error => rfl
              | ok turns => simp [bind, Except.bind, pure, Except.pure, Except.map]
      | true =>
          rw [turnText_tool engine codec tool, leadingResults_tool engine tool]
          cases behind : previous.any isTool with
          | true =>
              rw [messageText_behind engine codec rest tool behind]
              cases renderMessages engine codec tools (fun _ => true) (index + 1) (some message)
                rest with
              | error => rfl
              | ok turns =>
                  simp [bind, Except.bind, pure, Except.pure, Except.map, String.append_assoc]
          | false =>
              rw [messageText_tool engine codec plainPrevious plain tool behind]
              cases renderMessages engine codec tools (fun _ => true) (index + 1) (some message)
                rest with
              | error => rfl
              | ok turns =>
                  simp [bind, Except.bind, pure, Except.pure, Except.map, String.append_assoc]

theorem convertMessages_append (index : Nat) (first more : List Value) :
    convertMessages index (first ++ more) = do
      let earlier ← convertMessages index first
      let later ← convertMessages (index + first.length) more
      return earlier ++ later := by
  induction first generalizing index with
  | nil =>
      rw [List.nil_append, convertMessages, List.length_nil, Nat.add_zero]
      cases convertMessages index more <;> rfl
  | cons message rest ih =>
      rw [List.cons_append, convertMessages, convertMessages, ih, List.length_cons,
        Nat.add_right_comm, ← Nat.add_assoc]
      cases convertMessage index message with
      | error => rfl
      | ok shown =>
          cases convertMessages (index + 1) rest with
          | error => rfl
          | ok earlier =>
              cases convertMessages (index + rest.length + 1) more with
              | error => rfl
              | ok later => exact congrArg Except.ok (List.append_assoc shown earlier later).symm

theorem convert_prefix {object : Map} {first more : List Value} {conversion : GlmConversion}
    (done : convertAnthropicToGlm
      (.object (object.insert "messages" (.array (first ++ more)))) = .ok conversion) :
    ∃ messages later,
      convertAnthropicToGlm (.object (object.insert "messages" (.array first))) =
        .ok { conversion with messages := messages } ∧
      conversion.messages = messages ++ later := by
  obtain ⟨_, same, done⟩ := bind_eq_ok.mp done
  cases same
  obtain ⟨model, named, done⟩ := bind_eq_ok.mp done
  obtain ⟨inputs, listed, done⟩ := bind_eq_ok.mp done
  obtain ⟨system, shown, done⟩ := bind_eq_ok.mp done
  obtain ⟨messages, converted, done⟩ := bind_eq_ok.mp done
  obtain ⟨tools, declared, done⟩ := bind_eq_ok.mp done
  obtain ⟨effort, asked, done⟩ := bind_eq_ok.mp done
  cases done
  have held : inputs = first ++ more := by
    have listed := orReject_eq_ok.mp listed
    rw [Map.get_insert] at listed
    exact (Option.some.inj listed).symm
  rw [held, convertMessages_append] at converted
  obtain ⟨earlier, front, converted⟩ := bind_eq_ok.mp converted
  obtain ⟨later, -, converted⟩ := bind_eq_ok.mp converted
  cases converted
  refine ⟨system ++ earlier, later, ?_, (List.append_assoc system earlier later).symm⟩
  have otherMembers : ∀ name, name ≠ "messages" →
      (object.insert "messages" (.array first)).get name =
        (object.insert "messages" (.array (first ++ more))).get name := by
    intro name other
    rw [Map.get_insert, Map.get_insert, if_neg other, if_neg other]
  have named : requiredString (object.insert "messages" (.array first)) "model" = .ok model := by
    rw [← named, requiredString, requiredString, otherMembers "model" (by decide)]
  have shown : convertSystemMember (object.insert "messages" (.array first)) = .ok system := by
    rw [← shown, convertSystemMember, convertSystemMember, otherMembers "system" (by decide)]
  have asked : convertEffort (object.insert "messages" (.array first)) = .ok effort := by
    rw [← asked, convertEffort, convertEffort, otherMembers "max_tokens" (by decide),
      otherMembers "thinking" (by decide), otherMembers "output_config" (by decide)]
  have declared : convertTools ((object.insert "messages" (.array first)).get "tools") =
      .ok tools := by
    rw [otherMembers "tools" (by decide)]
    exact declared
  have listed : orReject "messages must be an array"
      (((object.insert "messages" (.array first)).get "messages").bind Value.asArray) =
        .ok first := by
    rw [Map.get_insert, if_pos rfl]
    rfl
  rw [convertAnthropicToGlm, Value.asObject_object, orReject]
  simp only [bind, Except.bind, named, listed, shown, front, declared, asked]
  rfl

variable {engine codec}

theorem render_plain {messages : List Value} (plain : ∀ message ∈ messages, PlainMessage message)
    (tools : Option (List Value)) (effort : Option GlmReasoningEffort) :
    render engine codec ⟨messages, tools, effort, false, true⟩ = do
      let declared ← renderTools engine codec (tools.getD [])
      let turns ← inOrder engine codec none messages
      return promptHead effort ++ declared ++ turns ++ generationPrompt := by
  rw [@renderMessages_plain _ engine codec (tools.getD []) _ plain 0 none (by simp), render]
  cases renderTools engine codec (tools.getD []) with
  | error => rfl
  | ok declared =>
      simp only [Bool.not_false, Bool.true_or, Option.any_none, Bool.false_eq_true, ↓reduceIte]
      cases renderMessages engine codec (tools.getD []) (fun _ => true) 0 none messages with
      | error => rfl
      | ok rendered => simp [bind, Except.bind, pure, Except.pure, Except.map]

theorem countedPrompt_eq {request : Value} {conversion : GlmConversion}
    (converted : convertAnthropicToGlm request = .ok conversion) :
    countedPrompt engine codec request = explained engine (render engine codec
      ⟨conversion.messages, conversion.tools, conversion.reasoningEffort, false, true⟩) := by
  rw [countedPrompt, converted]
  rfl

def promptInOrder (engine : JinjaEngine Refusal) (codec : Codec) (conversion : GlmConversion) :
    Except Refusal String := do
  let declared ← renderTools engine codec (conversion.tools.getD [])
  let turns ← inOrder engine codec none conversion.messages
  return promptHead conversion.reasoningEffort ++ declared ++ turns ++ generationPrompt

/-- The results of tools stand in the prompt where the conversation has them, each once and in
the order in which they were given: they are never sorted by the ids of their calls. -/
theorem counted_prompt_in_order (engine : JinjaEngine Refusal) (codec : Codec) (request : Value) :
    countedPrompt engine codec request = convertAnthropicToGlm request >>= fun conversion =>
      explained engine (promptInOrder engine codec conversion) := by
  cases converted : convertAnthropicToGlm request with
  | error => simp only [countedPrompt, converted, bind, Except.bind]
  | ok conversion =>
      rw [countedPrompt_eq converted, render_plain (plain_convertAnthropicToGlm converted)]
      rfl

/-- A prompt that was counted stays in front of every prompt that continues its conversation. -/
theorem counted_prompt_grows {object : Map} {first more : List Value} {longer : String}
    (counted : countedPrompt engine codec
      (.object (object.insert "messages" (.array (first ++ more)))) = .ok longer) :
    ∃ turns later,
      countedPrompt engine codec (.object (object.insert "messages" (.array first))) =
        .ok (turns ++ generationPrompt) ∧
      longer = turns ++ later ++ generationPrompt := by
  obtain ⟨conversion, converted, -⟩ := bind_eq_ok.mp counted
  obtain ⟨messages, appended, shorter, parts⟩ := convert_prefix converted
  rw [countedPrompt_eq converted, render_plain (plain_convertAnthropicToGlm converted), parts,
    inOrder_append] at counted
  rw [countedPrompt_eq shorter, render_plain (plain_convertAnthropicToGlm shorter)]
  cases declaredTools : renderTools engine codec (conversion.tools.getD []) with
  | error => simp [declaredTools, bind, Except.bind, explained, failed] at counted
  | ok declared =>
      cases shown : inOrder engine codec none messages with
      | error => simp [declaredTools, shown, bind, Except.bind, explained, failed] at counted
      | ok before =>
          rw [declaredTools, shown] at counted
          cases added : inOrder engine codec (messages.getLast?.or none) appended with
          | error =>
              rw [added] at counted
              cases counted
          | ok after =>
              rw [added] at counted
              cases counted
              refine ⟨promptHead conversion.reasoningEffort ++ declared ++ before, after, rfl, ?_⟩
              rw [@String.append_assoc (promptHead _ ++ declared) before after]

theorem counted_prompt_grows_parallel : ∃ turns later,
    countedPrompt pythonEngine (grammarCodec wholeNumbers 127)
      (.object (conversation (parallelCalls.take 2))) = .ok (turns ++ generationPrompt) ∧
    "[gMASK]<sop><|system|>Reasoning Effort: Max<|user|>Compare a.txt and b.txt" ++
      "<|assistant|><think></think><tool_call>Read<arg_key>path</arg_key>" ++
      "<arg_value>/tmp/a.txt</arg_value></tool_call><tool_call>Read<arg_key>path</arg_key>" ++
      "<arg_value>/tmp/b.txt</arg_value></tool_call><|observation|>" ++
      "<tool_response>beta contents</tool_response>" ++
      "<tool_response>alpha contents</tool_response><|assistant|><think>" =
        turns ++ later ++ generationPrompt :=
  @counted_prompt_grows _ pythonEngine (grammarCodec wholeNumbers 127)
    [("model", .string "z-ai/glm-5.3-flash")] (parallelCalls.take 2) (parallelCalls.drop 2) _
    (by decide +kernel)

end Glm

end ClineProxy
