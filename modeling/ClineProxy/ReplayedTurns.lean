import ClineProxy.AggregateChecks
import ClineProxy.PromptVariants
import ClineProxy.RequestSettings
import ClineProxy.ServedRounds

/-! The content of an answer that a client sends back, and the turn that it is read as. -/

namespace ClineProxy

open Json CallChain

/-- A call as a client sees it. -/
structure ReplayedCall where
  id : String
  name : String
  input : Value
  id_filled : id ≠ ""
  name_filled : name ≠ ""

def ReplayedCall.block (call : ReplayedCall) : Value := toolBlock call.id call.name call.input

def ReplayedCall.sent (codec : Codec) (call : ReplayedCall) : Value :=
  toolCall call.id call.name (codec.toText call.input)

def CallReads (codec : Codec) (call : Value) (read : ReplayedCall) : Prop :=
  (call.get "id").bind Value.asStr = some read.id ∧
    ∃ function, (call.get "function").bind Value.asObject = some function ∧
      stringAt "name" function = some read.name ∧
      toolInput codec ((stringAt "arguments" function).getD "") = some read.input

def upstreamMessage (upstream : Value) : Map :=
  (((firstChoice upstream).bind fun choice => choice.get "message").bind Value.asObject).getD []

def upstreamCalls (upstream : Value) : List Value :=
  (((upstreamMessage upstream).get "tool_calls").bind Value.asArray).getD []

def contentTexts : Option Value → List String
  | some (.string text) => if text.isEmpty then [] else [text]
  | some (.array blocks) => blocks.filterMap blockText
  | _ => []

def upstreamTexts (upstream : Value) : List String :=
  contentTexts ((upstreamMessage upstream).get "content")

theorem messageText_contentTexts (content : Option Value) :
    messageText content = (contentTexts content).map textContent := by
  cases content with
  | none => rfl
  | some held =>
      cases held with
      | string text =>
          rw [messageText, contentTexts]
          split <;> rfl
      | null | bool | number | array | object => rfl

theorem contentTexts_filled (content : Option Value) : ∀ text ∈ contentTexts content, text ≠ "" := by
  rintro text member rfl
  unfold contentTexts at member
  split at member
  next held =>
    split at member
    next => cases member
    next filled => exact filled (List.mem_singleton.mp member ▸ rfl)
  next blocks =>
    obtain ⟨block, -, found⟩ := List.mem_filterMap.mp member
    cases (Option.filter_eq_some_iff.mp found).2
  next => cases member

theorem convertToolCall_reads {codec : Codec} {call : Value} {read : ReplayedCall}
    (reads : CallReads codec call read) : convertToolCall codec [] call = .ok [read.block] := by
  obtain ⟨id, function, found, name, input⟩ := reads
  rw [convertToolCall, found]
  simp only [orUpstreamError, bind, Except.bind, name, input, id, List.not_mem_nil, ↓reduceIte,
    Option.getD_some]
  rfl

theorem convertToolCalls_reads {codec : Codec} {upstream : Value} {calls : List ReplayedCall}
    (reads : List.Forall₂ (CallReads codec) (upstreamCalls upstream) calls) :
    convertToolCalls codec [] ((upstreamMessage upstream).get "tool_calls") =
      .ok (calls.map ReplayedCall.block) := by
  rw [upstreamCalls] at reads
  rw [convertToolCalls]
  split
  next absent =>
    rw [absent] at reads
    cases reads
    rfl
  next items found =>
    rw [found, Option.getD_some] at reads
    clear found
    have each : items.mapM (convertToolCall codec []) =
        .ok (calls.map fun call => [call.block]) := by
      induction reads with
      | nil => rfl
      | cons head _ ih =>
          rw [List.mapM_cons, convertToolCall_reads head, ih]
          rfl
    rw [each, Except.map, ← List.flatMap_def, ← List.map_eq_flatMap]

theorem convertResponse_content {platform : Platform} {upstream value : Value}
    {requestId fallbackModel : String} {calls : List ReplayedCall}
    (reads : List.Forall₂ (CallReads platform.codec) (upstreamCalls upstream) calls)
    (done : convertResponse platform upstream requestId fallbackModel true = .ok value) :
    value.get "content" = some (.array
      (thinkingContent platform requestId (reasoningText (upstreamMessage upstream)) ++
        (upstreamTexts upstream).map textContent ++ calls.map ReplayedCall.block)) := by
  obtain ⟨choice, chosen, done⟩ := bind_eq_ok.mp done
  obtain ⟨message, held, done⟩ := bind_eq_ok.mp done
  obtain ⟨tools, converted, done⟩ := bind_eq_ok.mp done
  cases done
  have first : firstChoice upstream = some choice := by
    cases found : firstChoice upstream <;> rw [found] at chosen <;> cases chosen
    rfl
  have same : upstreamMessage upstream = message := by
    rw [upstreamMessage, first, Option.bind_some]
    cases found : (choice.get "message").bind Value.asObject <;> rw [found] at held <;>
      cases held
    rfl
  rw [← same] at converted ⊢
  obtain rfl := Except.ok.inj ((convertToolCalls_reads reads).symm.trans converted)
  rw [messageText_contentTexts]
  rfl

theorem thinkingContent_turn (platform : Platform) (codec : Codec) (turn : AssistantTurn)
    (requestId reasoning : String) :
    (thinkingContent platform requestId reasoning).foldlM (convertAssistantBlock codec) turn =
      .ok { turn with
        segment := { turn.segment with reasoning := turn.segment.reasoning ++ reasoning } } := by
  rw [thinkingContent]
  split
  next empty =>
    rw [String.isEmpty_iff.mp empty, String.append_empty]
    rfl
  next => rfl

theorem requireServerResults_answered {turn : AssistantTurn}
    (answered : turn.seenServerResults = turn.pendingServerIds) :
    turn.requireServerResults = .ok () := by
  rw [AssistantTurn.requireServerResults, answered, if_neg (not_not.mpr rfl)]

theorem textContent_turn {codec : Codec} {turn : AssistantTurn} {text : String}
    (filled : text ≠ "") (answered : turn.seenServerResults = turn.pendingServerIds) :
    convertAssistantBlock codec turn (textContent text) = .ok { turn with
      segment := { turn.segment with content := turn.segment.content ++ [textBlock text] } } := by
  change assistantText [("type", .string "text"), ("text", .string text)] turn = _
  rw [assistantText, requireServerResults_answered answered, convertTextBlock,
    @requiredString_text _ _ text rfl filled]
  rfl

theorem texts_turn {codec : Codec} {turn : AssistantTurn} {texts : List String}
    (filled : ∀ text ∈ texts, text ≠ "")
    (answered : turn.seenServerResults = turn.pendingServerIds) :
    (texts.map textContent).foldlM (convertAssistantBlock codec) turn = .ok { turn with
      segment := { turn.segment with
        content := turn.segment.content ++ texts.map textBlock } } := by
  induction texts generalizing turn with
  | nil =>
      rw [List.map_nil, List.map_nil, List.append_nil]
      rfl
  | cons text rest ih =>
      rw [List.map_cons, List.foldlM_cons,
        textContent_turn (filled text List.mem_cons_self) answered]
      refine (ih (fun later member => filled later (List.mem_cons_of_mem _ member)) ?_).trans ?_
      · exact answered
      · simp only [List.map_cons, List.append_assoc, List.singleton_append]

theorem callBlock_turn {codec : Codec} {turn : AssistantTurn} (call : ReplayedCall)
    (answered : turn.seenServerResults = turn.pendingServerIds) :
    convertAssistantBlock codec turn call.block = .ok { turn with
      pendingToolIds := turn.pendingToolIds.insert call.id
      segment := { turn.segment with
        toolCalls := turn.segment.toolCalls ++ [call.sent codec] } } := by
  change assistantToolUse codec [("type", .string "tool_use"), ("id", .string call.id),
    ("name", .string call.name), ("input", call.input)] turn = _
  rw [assistantToolUse, requireServerResults_answered answered,
    @requiredString_text _ _ call.id rfl call.id_filled,
    @requiredString_text _ _ call.name rfl call.name_filled]
  rfl

theorem calls_turn {codec : Codec} {turn : AssistantTurn} {calls : List ReplayedCall}
    (answered : turn.seenServerResults = turn.pendingServerIds) :
    ∃ declared : List String,
      (∀ id, id ∈ declared ↔ id ∈ turn.pendingToolIds ∨ id ∈ calls.map ReplayedCall.id) ∧
      (calls.map ReplayedCall.block).foldlM (convertAssistantBlock codec) turn = .ok { turn with
        pendingToolIds := declared
        segment := { turn.segment with
          toolCalls := turn.segment.toolCalls ++ calls.map (ReplayedCall.sent codec) } } := by
  induction calls generalizing turn with
  | nil =>
      refine ⟨turn.pendingToolIds, fun id => by simp, ?_⟩
      rw [List.map_nil, List.map_nil, List.append_nil]
      rfl
  | cons call rest ih =>
      obtain ⟨declared, mem, done⟩ := @ih { turn with
        pendingToolIds := turn.pendingToolIds.insert call.id
        segment := { turn.segment with
          toolCalls := turn.segment.toolCalls ++ [call.sent codec] } } answered
      refine ⟨declared, fun id => ?_, ?_⟩
      · rw [mem, List.mem_insert_iff, List.map_cons, List.mem_cons]
        tauto
      · rw [List.map_cons, List.foldlM_cons, callBlock_turn call answered]
        refine done.trans ?_
        simp only [List.map_cons, List.append_assoc, List.singleton_append]

def answerSegment (codec : Codec) (upstream : Value) (calls : List ReplayedCall) : Segment where
  content := (upstreamTexts upstream).map textBlock
  toolCalls := calls.map (ReplayedCall.sent codec)
  reasoning := reasoningText (upstreamMessage upstream)

/-- The message of an answer; one that says nothing is a message of its own only where no
search round comes before it. -/
def answerMessages (segment : Segment) (served : List WireMessage) : List WireMessage :=
  if segment.isEmpty && !served.isEmpty then []
  else [.assistant segment.content segment.toolCalls segment.reasoning]

def replayedBlocks (codec : Codec) (rounds : List (List ShownCall)) (value : Value) :
    List Value :=
  rounds.flatMap (roundBlocks codec) ++ ((value.get "content").bind Value.asArray).getD []

theorem finish_turn {turn : AssistantTurn} (flushed : turn.serverCalls = [])
    (answered : turn.seenServerResults = turn.pendingServerIds) :
    turn.finish = .ok (turn.output ++ answerMessages turn.segment turn.output) := by
  rw [AssistantTurn.finish, if_neg (by simp [flushed, answered]), answerMessages,
    AssistantTurn.flush]
  cases silent : turn.segment.isEmpty with
  | false => simp
  | true =>
      have empty : turn.segment = .empty := by
        simp only [Segment.isEmpty, Bool.and_eq_true, List.isEmpty_iff,
          String.isEmpty_iff] at silent
        obtain ⟨⟨content, calls⟩, reasoning⟩ := silent
        cases held : turn.segment
        simp_all [Segment.empty]
      cases output : turn.output with
      | nil => simp [output, empty, Segment.empty]
      | cons message rest => simp [output]

theorem convertAssistantBlocks_replayed {platform : Platform} {upstream value : Value}
    {requestId fallbackModel : String} {calls : List ReplayedCall}
    {rounds : List (List ShownCall)}
    (reads : List.Forall₂ (CallReads platform.codec) (upstreamCalls upstream) calls)
    (done : convertResponse platform upstream requestId fallbackModel true = .ok value)
    (replays : ∀ round ∈ rounds, ∀ shown ∈ round, ReplaysText shown.outcome)
    (distinct : (rounds.flatten.map ShownCall.id).Nodup) :
    ∃ declared, (∀ id, id ∈ declared ↔ id ∈ calls.map ReplayedCall.id) ∧
      convertAssistantBlocks platform.codec (replayedBlocks platform.codec rounds value) =
        .ok (rounds.flatMap (servedMessages platform.codec) ++
          answerMessages (answerSegment platform.codec upstream calls)
            (rounds.flatMap (servedMessages platform.codec)), declared) := by
  let behind : AssistantTurn := { AssistantTurn.start with
    pendingServerIds := rounds.flatten.map ShownCall.id
    seenServerResults := rounds.flatten.map ShownCall.id
    output := rounds.flatMap (servedMessages platform.codec) }
  have served : (rounds.flatMap (roundBlocks platform.codec)).foldlM
      (convertAssistantBlock platform.codec) .start = .ok behind :=
    rounds_turn replays rfl rfl rfl distinct
  let thought : AssistantTurn := { behind with
    segment := ⟨[], [], reasoningText (upstreamMessage upstream)⟩ }
  have thinking : (thinkingContent platform requestId
      (reasoningText (upstreamMessage upstream))).foldlM (convertAssistantBlock platform.codec)
      behind = .ok thought := by
    refine (thinkingContent_turn platform platform.codec behind requestId _).trans ?_
    rw [show behind.segment.reasoning = "" from rfl, String.empty_append]
    rfl
  let spoken : AssistantTurn := { thought with
    segment := { answerSegment platform.codec upstream calls with toolCalls := [] } }
  have texts : ((upstreamTexts upstream).map textContent).foldlM
      (convertAssistantBlock platform.codec) thought = .ok spoken :=
    texts_turn (contentTexts_filled _) rfl
  obtain ⟨declared, mem, called⟩ := @calls_turn platform.codec spoken calls rfl
  refine ⟨declared, fun id => by simp [mem, spoken, thought, behind, AssistantTurn.start], ?_⟩
  rw [replayedBlocks, convertResponse_content reads done, convertAssistantBlocks]
  simp only [Option.bind_some, Value.asArray_array, Option.getD_some, List.foldlM_append, served,
    thinking, texts, called, bind, Except.bind]
  rw [finish_turn rfl rfl]
  rfl

structure ToolAnswer where
  callId : String
  content : Option Value
  isError : Option Bool
  shown : Value
  reads : convertToolResultContent (content.getD (.string "")) = .ok shown

namespace ToolAnswer

def fields (answer : ToolAnswer) : Map :=
  [("type", .string "tool_result"), ("tool_use_id", .string answer.callId)] ++
    (answer.content.map fun content => ("content", content)).toList ++
    (answer.isError.map fun failed => ("is_error", .bool failed)).toList

def block (answer : ToolAnswer) : Value := .object answer.fields

def message (answer : ToolAnswer) : WireMessage :=
  .tool answer.callId answer.shown answer.isError

theorem fields_content (answer : ToolAnswer) :
    answer.fields.get "content" = answer.content := by
  cases content : answer.content <;> cases failed : answer.isError <;>
    simp [fields, content, failed, Map.get, OrderedMap.lookup]

theorem fields_isError (answer : ToolAnswer) :
    answer.fields.get "is_error" = answer.isError.map Value.bool := by
  cases content : answer.content <;> cases failed : answer.isError <;>
    simp [fields, content, failed, Map.get, OrderedMap.lookup]

end ToolAnswer

theorem convertToolResult_answer {declared : List String} {answer : ToolAnswer}
    (filled : answer.callId ≠ "") (known : answer.callId ∈ declared) :
    convertToolResult declared answer.fields = .ok answer.message := by
  have failed : toolResultError answer.fields = .ok answer.isError := by
    rw [toolResultError, answer.fields_isError]
    cases answer.isError <;> rfl
  rw [convertToolResult, answer.fields_content, answer.reads,
    @requiredString_text _ _ answer.callId rfl filled, failed]
  dsimp only [bind, Except.bind]
  rw [if_neg (not_not.mpr known)]
  rfl

theorem answerBlock_turn {declared : List String} {turn : UserTurn} {answer : ToolAnswer}
    (filled : answer.callId ≠ "") (known : answer.callId ∈ declared)
    (first : turn.sawOrdinary = false) (fresh : answer.callId ∉ turn.seenResultIds) :
    convertUserBlock declared turn answer.block = .ok { turn with
      seenResultIds := turn.seenResultIds ++ [answer.callId]
      output := turn.output ++ [answer.message] } := by
  change userToolResult declared answer.fields turn = _
  rw [userToolResult, first, @requiredString_text _ _ answer.callId rfl filled]
  dsimp only [bind, Except.bind]
  rw [if_neg Bool.false_ne_true, if_neg fresh, convertToolResult_answer filled known]
  rfl

theorem answers_turn {declared : List String} {turn : UserTurn} {answers : List ToolAnswer}
    (filled : ∀ answer ∈ answers, answer.callId ≠ "")
    (known : ∀ answer ∈ answers, answer.callId ∈ declared) (first : turn.sawOrdinary = false)
    (fresh : (turn.seenResultIds ++ answers.map ToolAnswer.callId).Nodup) :
    (answers.map ToolAnswer.block).foldlM (convertUserBlock declared) turn = .ok { turn with
      seenResultIds := turn.seenResultIds ++ answers.map ToolAnswer.callId
      output := turn.output ++ answers.map ToolAnswer.message } := by
  induction answers generalizing turn with
  | nil =>
      rw [List.map_nil, List.map_nil, List.map_nil, List.append_nil, List.append_nil]
      rfl
  | cons answer rest ih =>
      rw [List.map_cons, List.append_cons] at fresh
      have unused : answer.callId ∉ turn.seenResultIds := fun used =>
        List.disjoint_of_nodup_append (List.nodup_append.mp fresh).1 used
          (List.mem_singleton_self _)
      rw [List.map_cons, List.foldlM_cons, answerBlock_turn (filled answer List.mem_cons_self)
        (known answer List.mem_cons_self) first unused]
      refine (ih (fun later member => filled later (List.mem_cons_of_mem _ member))
        (fun later member => known later (List.mem_cons_of_mem _ member)) ?_ ?_).trans ?_
      · exact first
      · exact fresh
      · simp only [List.map_cons, List.append_assoc, List.singleton_append]

/-- The messages of the results; a user message without any is kept as it is. -/
def resultMessages (answers : List ToolAnswer) : List WireMessage :=
  answers.map ToolAnswer.message ++ (if answers.isEmpty then [.user "user" (.array [])] else [])

theorem convertUserBlocks_answers {declared : List String} {answers : List ToolAnswer}
    (filled : ∀ answer ∈ answers, answer.callId ≠ "")
    (known : ∀ answer ∈ answers, answer.callId ∈ declared)
    (distinct : (answers.map ToolAnswer.callId).Nodup) :
    convertUserBlocks declared (answers.map ToolAnswer.block) = .ok (resultMessages answers) := by
  rw [convertUserBlocks, @answers_turn declared .start answers filled known rfl distinct]
  cases answers with
  | nil => rfl
  | cons answer rest =>
      refine congrArg Except.ok ?_
      simp [UserTurn.start, resultMessages]

def replayedTurn (codec : Codec) (rounds : List (List ShownCall)) (value : Value)
    (answers : List ToolAnswer) : List Value :=
  [message "assistant" (.array (replayedBlocks codec rounds value)),
    message "user" (.array (answers.map ToolAnswer.block))]

theorem convertMessages_turn {codec : Codec} {index : Nat} {pending declared : List String}
    {blocks answers : List Value} {messages results : List WireMessage}
    (assistant : convertAssistantBlocks codec blocks = .ok (messages, declared))
    (user : convertUserBlocks declared answers = .ok results) :
    convertMessages codec index pending [message "assistant" (.array blocks),
      message "user" (.array answers)] = .ok (messages ++ results) := by
  have first : convertMessage codec index pending (message "assistant" (.array blocks)) =
      .ok (messages, declared) := assistant
  have second : convertMessage codec (index + 1) declared (message "user" (.array answers)) =
      .ok (results, []) := by
    change (convertUserBlocks declared answers >>= _) = _
    rw [user]
    rfl
  rw [convertMessages, first]
  change ((convertMessages codec (index + 1) declared [message "user" (.array answers)]) >>= _) = _
  rw [convertMessages, second]
  change Except.ok (messages ++ (results ++ [])) = _
  rw [List.append_nil]

theorem convertMessages_append {codec : Codec} {index : Nat} {pending : List String}
    {inputs : List Value} {messages : List WireMessage}
    (done : convertMessages codec index pending inputs = .ok messages) :
    ∃ next, ∀ more, convertMessages codec index pending (inputs ++ more) =
      (convertMessages codec (index + inputs.length) next more).map (messages ++ ·) := by
  induction inputs generalizing index pending messages with
  | nil =>
      cases done
      refine ⟨pending, fun more => ?_⟩
      rw [List.nil_append, List.length_nil, Nat.add_zero]
      cases convertMessages codec index pending more <;> rfl
  | cons input rest ih =>
      rw [convertMessages, bind_eq_ok] at done
      obtain ⟨⟨first, following⟩, converted, done⟩ := done
      obtain ⟨others, later, done⟩ := bind_eq_ok.mp done
      cases done
      obtain ⟨next, appended⟩ := ih later
      refine ⟨next, fun more => ?_⟩
      rw [List.cons_append, convertMessages, converted, List.length_cons,
        Nat.add_comm rest.length 1, ← Nat.add_assoc]
      change (convertMessages codec (index + 1) following (rest ++ more) >>= _) = _
      rw [appended]
      cases convertMessages codec (index + 1 + rest.length) next more with
      | error abort => rfl
      | ok results => exact congrArg Except.ok (List.append_assoc first others results).symm

def requestWith (object : Map) (messages : List Value) : Value :=
  .object (object.insert "messages" (.array messages))

theorem inputMessages_requestWith (object : Map) (messages : List Value) :
    inputMessages (requestWith object messages) = messages := by
  have stored := Map.get_insert "messages" "messages" (.array messages) object
  rw [if_pos rfl, Map.get] at stored
  rw [inputMessages, requestWith, Value.get_object, stored]
  rfl

def bodyMessages (converted : ConvertedRequest) : List Value :=
  ((converted.body.get "messages").bind Value.asArray).getD []

theorem convertRequestValue_accepts {codec : Codec} {object other : Map} {inputs : List Value}
    {base : ConvertedRequest} {messages : List WireMessage}
    (same : ∀ name, name ≠ "messages" → other.get name = object.get name)
    (accepted : convertRequestValue codec (.object object) = .ok base)
    (given : other.get "messages" = some (.array inputs))
    (done : convertMessages codec 0 [] inputs = .ok messages) :
    ∃ converted, convertRequestValue codec (.object other) = .ok converted := by
  obtain ⟨fields, isObject, accepted⟩ := bind_eq_ok.mp accepted
  obtain rfl := Option.some.inj (orReject_eq_ok.mp isObject)
  obtain ⟨model, isModel, accepted⟩ := bind_eq_ok.mp accepted
  obtain ⟨maxTokens, isMaxTokens, accepted⟩ := bind_eq_ok.mp accepted
  obtain ⟨stream, isStream, accepted⟩ := bind_eq_ok.mp accepted
  obtain ⟨system, isSystem, accepted⟩ := bind_eq_ok.mp accepted
  obtain ⟨_, -, accepted⟩ := bind_eq_ok.mp accepted
  obtain ⟨_, -, accepted⟩ := bind_eq_ok.mp accepted
  obtain ⟨_, settings, -⟩ := bind_eq_ok.mp accepted
  rw [requiredString, ← same "model" (by decide)] at isModel
  rw [← same "max_tokens" (by decide)] at isMaxTokens
  rw [optionalBool, ← same "stream" (by decide)] at isStream
  rw [convertSystemMember, ← same "system" (by decide)] at isSystem
  rw [copySettings_congr fun name _ notMessages => (same name notMessages).symm] at settings
  obtain ⟨_, settings⟩ := copySettings_accepts other settings [("model", .string model),
    ("max_tokens", .number (.posInt maxTokens)), ("stream", .bool (stream.getD false)),
    ("messages", .array ((system ++ messages).map WireMessage.intoWire))]
  have array : orReject "messages must be an array"
      ((other.get "messages").bind Value.asArray) = .ok inputs := by
    rw [given]
    rfl
  exact ⟨_, bind_eq_ok.mpr ⟨other, rfl, bind_eq_ok.mpr ⟨model, isModel, bind_eq_ok.mpr
    ⟨maxTokens, isMaxTokens, bind_eq_ok.mpr ⟨stream, isStream, bind_eq_ok.mpr ⟨system, isSystem,
    bind_eq_ok.mpr ⟨inputs, array, bind_eq_ok.mpr ⟨messages, done, bind_eq_ok.mpr ⟨_, settings,
    rfl⟩⟩⟩⟩⟩⟩⟩⟩⟩

/-- A request that goes on is accepted exactly when the messages behind it are. -/
theorem convertRequestValue_extended {codec : Codec} {object : Map} {history : List Value}
    {base : ConvertedRequest}
    (accepted : convertRequestValue codec (requestWith object history) = .ok base) :
    ∃ next, ∀ more,
      (∀ messages, convertMessages codec history.length next more = .ok messages →
        ∃ converted, convertRequestValue codec (requestWith object (history ++ more)) =
            .ok converted ∧
          bodyMessages converted = bodyMessages base ++ messages.map WireMessage.intoWire) ∧
      ∀ converted, convertRequestValue codec (requestWith object (history ++ more)) =
          .ok converted →
        ∃ messages, convertMessages codec history.length next more = .ok messages := by
  obtain ⟨fields, system, earlier, shape, systemDone, messagesDone, -, wire⟩ :=
    convertRequestValue_messages accepted
  obtain rfl := Value.object.inj shape
  rw [inputMessages_requestWith] at messagesDone
  obtain ⟨next, appended⟩ := convertMessages_append messagesDone
  rw [Nat.zero_add] at appended
  have base_messages : bodyMessages base = (system ++ earlier).map WireMessage.intoWire := by
    rw [bodyMessages, wire]
    rfl
  refine ⟨next, fun more => ⟨?_, ?_⟩⟩
  · intro messages done
    have same (name : String) (other : name ≠ "messages") :
        (object.insert "messages" (.array (history ++ more))).get name =
          (object.insert "messages" (.array history)).get name := by
      rw [Map.get_insert, Map.get_insert, if_neg other, if_neg other]
    have all : convertMessages codec 0 [] (history ++ more) = .ok (earlier ++ messages) := by
      rw [appended, done]
      rfl
    have given := Map.get_insert "messages" "messages" (.array (history ++ more)) object
    obtain ⟨converted, found⟩ :=
      convertRequestValue_accepts same accepted (given.trans (if_pos rfl)) all
    refine ⟨converted, found, ?_⟩
    obtain ⟨_, sameSystem, every, otherShape, otherSystem, everyDone, -, otherWire⟩ :=
      convertRequestValue_messages found
    obtain rfl := Value.object.inj otherShape
    rw [convertSystemMember, same "system" (by decide), ← convertSystemMember, systemDone]
      at otherSystem
    obtain rfl := Except.ok.inj otherSystem
    have listed := inputMessages_requestWith object (history ++ more)
    rw [requestWith] at listed
    rw [listed, all] at everyDone
    obtain rfl := Except.ok.inj everyDone
    rw [bodyMessages, otherWire, base_messages]
    simp only [Option.bind_some, Value.asArray_array, Option.getD_some, List.map_append,
      List.append_assoc]
  · intro converted done
    obtain ⟨_, _, _, -, -, all, -, -⟩ := convertRequestValue_messages done
    rw [inputMessages_requestWith, appended] at all
    obtain ⟨messages, found, -⟩ := map_eq_ok.mp all
    exact ⟨messages, found⟩

end ClineProxy
