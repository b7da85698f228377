import ClineProxy.PromptPolicy
import ClineProxy.ResponsesAnswers
import ClineProxy.ResponsesRequest

/-! The output of a response, given back as the input of the next request. -/

namespace ClineProxy

open Json

def messageCalls (message : Value) : List Value :=
  ((message.get "tool_calls").bind Value.asArray).getD []

def historyCalls (messages : List Value) : List Value := messages.flatMap messageCalls

def isToolMessage (message : Value) : Bool := role message == some "tool"

def historyAnswers (messages : List Value) : List Value := messages.filter isToolMessage

def saidText (message : Value) : Option String :=
  if role message = some "assistant" ∧ (message.get "tool_calls").isNone then
    some (((message.get "content").bind Value.asStr).getD "")
  else none

def historyTexts (messages : List Value) : List String := messages.filterMap saidText

def declaredIds (messages : List Value) : List String :=
  (historyCalls messages).filterMap fun call => (call.get "id").bind Value.asStr

/-- Every tool message answers a call that was declared before it. -/
def AnswersFollow (messages : List Value) : Prop :=
  ∀ before message after, messages = before ++ message :: after → isToolMessage message = true →
    ∃ id ∈ declaredIds before, message.get "tool_call_id" = some (.string id)

theorem historyCalls_append (first second : List Value) :
    historyCalls (first ++ second) = historyCalls first ++ historyCalls second :=
  List.flatMap_append

theorem declaredIds_append (first second : List Value) :
    declaredIds (first ++ second) = declaredIds first ++ declaredIds second := by
  rw [declaredIds, historyCalls_append, List.filterMap_append, declaredIds, declaredIds]

theorem answersFollow_nil : AnswersFollow [] := by
  intro before message after split
  exact absurd split.symm (by simp)

theorem AnswersFollow.snoc {messages : List Value} (follow : AnswersFollow messages)
    {last : Value} (answered : isToolMessage last = true →
      ∃ id ∈ declaredIds messages, last.get "tool_call_id" = some (.string id)) :
    AnswersFollow (messages ++ [last]) := by
  intro before message after split tool
  rcases List.eq_nil_or_concat after with rfl | ⟨rest, other, rfl⟩
  · obtain ⟨rfl, same⟩ := List.append_inj' split rfl
    obtain rfl := (List.cons.inj same).1
    exact answered tool
  · rw [List.concat_eq_append, ← List.cons_append, ← List.append_assoc] at split
    obtain ⟨same, _⟩ := List.append_inj' split rfl
    exact follow before message rest same tool

namespace ItemEffect

def shown : ItemEffect → List Value
  | .message made => [made]
  | .call _ => []
  | .flushed made => made

def calls : ItemEffect → List Value
  | .call made => [made]
  | effect => historyCalls effect.shown

def Plain : ItemEffect → Prop
  | .message made => messageCalls made = []
  | _ => True

end ItemEffect

structure HistoryTold (effects : List ItemEffect) (state : InputState) : Prop where
  calls : historyCalls state.messages ++ state.pendingCalls = effects.flatMap ItemEffect.calls
  answers : historyAnswers state.messages =
    effects.flatMap fun effect => historyAnswers effect.shown
  texts : historyTexts state.messages = effects.flatMap fun effect => historyTexts effect.shown

theorem historyTold_start : HistoryTold [] .start := ⟨rfl, rfl, rfl⟩

theorem HistoryTold.flushCalls {effects : List ItemEffect} {state : InputState}
    (told : HistoryTold effects state) : HistoryTold effects state.flushCalls ∧ state.flushCalls.pendingCalls = [] := by
  rw [InputState.flushCalls]
  split
  next empty => exact ⟨told, List.isEmpty_iff.mp empty⟩
  next =>
    refine ⟨⟨?_, ?_, ?_⟩, rfl⟩
    · rw [historyCalls_append, List.append_nil, ← told.calls]
      exact congrArg (_ ++ ·) (List.append_nil _)
    · rw [historyAnswers, List.filter_append, ← historyAnswers, told.answers]
      exact List.append_nil _
    · rw [historyTexts, List.filterMap_append, ← historyTexts, told.texts]
      exact List.append_nil _

theorem HistoryTold.apply {effects : List ItemEffect} {state : InputState} {effect : ItemEffect}
    (told : HistoryTold effects state) (plain : effect.Plain) :
    HistoryTold (effects ++ [effect]) (state.apply effect) := by
  cases effect with
  | message message =>
      refine ⟨?_, ?_, ?_⟩
      · have none_ : historyCalls [message] = [] := by
          have own : messageCalls message = [] := plain
          simp [historyCalls, own]
        simp only [InputState.apply, historyCalls_append, none_, List.append_nil, told.calls,
          List.flatMap_append, List.flatMap_singleton, ItemEffect.calls, ItemEffect.shown]
      · simp only [InputState.apply, historyAnswers, List.filter_append, List.flatMap_append,
          List.flatMap_singleton, ItemEffect.shown]
        exact congrArg (· ++ _) told.answers
      · simp only [InputState.apply, historyTexts, List.filterMap_append, List.flatMap_append,
          List.flatMap_singleton, ItemEffect.shown]
        exact congrArg (· ++ _) told.texts
  | call call =>
      refine ⟨?_, ?_, ?_⟩
      · rw [InputState.apply, ← List.append_assoc, told.calls, List.flatMap_append,
          List.flatMap_singleton, ItemEffect.calls]
      · rw [List.flatMap_append, List.flatMap_singleton]
        exact told.answers.trans (List.append_nil _).symm
      · rw [List.flatMap_append, List.flatMap_singleton]
        exact told.texts.trans (List.append_nil _).symm
  | flushed messages =>
      obtain ⟨flushed, empty⟩ := told.flushCalls
      have calls := flushed.calls
      rw [empty, List.append_nil] at calls
      refine ⟨?_, ?_, ?_⟩
      · simp only [InputState.apply, historyCalls_append, calls, empty, List.append_nil,
          List.flatMap_append, List.flatMap_singleton, ItemEffect.calls, ItemEffect.shown]
      · simp only [InputState.apply, historyAnswers, List.filter_append, List.flatMap_append,
          List.flatMap_singleton, ItemEffect.shown]
        exact congrArg (· ++ _) flushed.answers
      · simp only [InputState.apply, historyTexts, List.filterMap_append, List.flatMap_append,
          List.flatMap_singleton, ItemEffect.shown]
        exact congrArg (· ++ _) flushed.texts

section Replay

variable (codec : Codec) (uuid : Nat → String) (answer : ResponsesItem → String)

def idText (id : ItemId) : String := ((id.text uuid).asStr).getD ""

def isReasoning : ResponsesItem → Bool
  | .text id _ => id.kind == .text .reasoning
  | _ => false

def ResponsesItem.chatCall : ResponsesItem → Option Value
  | .text .. => none
  | .functionCall _ callId name arguments _ => some (toolCall callId name arguments)
  | .webSearchCall id _ query _ =>
      some (toolCall (idText uuid id) webSearchFunctionName
        (codec.toText (.object [("query", .string query)])))

def ResponsesItem.searchAnswer : ResponsesItem → Option Value
  | .webSearchCall id _ query sources =>
      some (toolAnswer (idText uuid id) (replayedSearchText query (sources.map fun url =>
        .object [("type", .string "url"), ("url", .string url)])))
  | _ => none

def ResponsesItem.messageText : ResponsesItem → Option String
  | item@(.text _ content) => if isReasoning item then none else some (content.getD "")
  | _ => none

def ResponsesItem.clientOutput (item : ResponsesItem) : Option (String × String) :=
  item.called.map fun call => (call.1, answer item)

def outputItem (output : String × String) : Value :=
  .object [("type", .string "function_call_output"), ("call_id", .string output.1),
    ("output", .string output.2)]

def outputAnswer (output : String × String) : Value := toolAnswer output.1 output.2

/-- The output of a response, then one output for each of its function calls. -/
def replayInput (output : List ResponsesItem) : List Value :=
  output.map (ResponsesItem.data uuid) ++
    (output.filterMap (ResponsesItem.clientOutput answer)).map outputItem

/-- The history has the calls, the answers and the texts of the output. -/
structure Replayed (output : List ResponsesItem) (messages : List Value) : Prop where
  calls : historyCalls messages = output.filterMap (ResponsesItem.chatCall codec uuid)
  answers : historyAnswers messages = output.filterMap (ResponsesItem.searchAnswer uuid) ++
    (output.filterMap (ResponsesItem.clientOutput answer)).map outputAnswer
  texts : historyTexts messages = output.filterMap ResponsesItem.messageText
  follow : AnswersFollow messages

def ResponsesItem.succeeded : ResponsesItem → ResponsesItem
  | .webSearchCall id _ query sources => .webSearchCall id false query sources
  | item => item

def ResponsesItem.failedSearch : ResponsesItem → Bool
  | .webSearchCall _ failed _ _ => failed
  | _ => false

/-- A search that failed is told apart from one that succeeded. -/
def FailuresShown (output : List ResponsesItem) : Prop :=
  ∀ item ∈ output, item.failedSearch = true → ∀ index,
    convertInputItem codec index (item.data uuid) ≠
      convertInputItem codec index (item.succeeded.data uuid)

/-- Fed back, the output is accepted and read as what it was. -/
def ReplaysWell (output : List ResponsesItem) : Prop :=
  (∃ messages, convertInputItems codec (replayInput uuid answer output) = .ok messages ∧
    Replayed codec uuid answer output messages) ∧ FailuresShown codec uuid output

def ResponsesItem.Named (item : ResponsesItem) : Prop :=
  ∀ callId name, item.called = some (callId, name) → callId ≠ "" ∧ name ≠ ""

def ResponsesItem.isFinal : ResponsesItem → Bool
  | .text _ content => content.isSome
  | _ => true

def itemEffect : ResponsesItem → ItemEffect
  | item@(.text _ content) =>
      if isReasoning item then .flushed []
      else .message (chatMessage "assistant"
        (if (content.getD "").isEmpty then .null else .string (content.getD "")))
  | .functionCall _ callId name arguments _ => .call (toolCall callId name arguments)
  | .webSearchCall id _ query sources =>
      .flushed [assistantCalls [toolCall (idText uuid id) webSearchFunctionName
          (codec.toText (.object [("query", .string query)]))],
        toolAnswer (idText uuid id) (replayedSearchText query (sources.map fun url =>
          .object [("type", .string "url"), ("url", .string url)]))]

theorem idText_nonempty (id : ItemId) : (idText uuid id).isEmpty = false := by
  rw [idText, ItemId.text, String.isEmpty_eq_false_iff]
  split <;> simp [Value.asStr]

theorem itemString_eq (index : Nat) (kind name text : String) {object : Map}
    (found : object.get name = some (.string text)) :
    itemString object index kind name =
      if text.isEmpty then reject (inputAt index ++ ": " ++ kind ++ " requires " ++ name)
      else .ok text := by
  rw [itemString, found]
  cases empty : text.isEmpty <;> simp [empty, orReject, Option.filter, Value.asStr]

theorem convertInputItem_text (index : Nat) (id : ItemId) (text : String) :
    convertInputItem codec index ((ResponsesItem.text id (some text)).data uuid) =
      .ok (itemEffect codec uuid (.text id (some text))) := by
  by_cases reasoning : id.kind = .text .reasoning
  · have shown : isReasoning (.text id (some text)) = true := by simp [isReasoning, reasoning]
    rw [ResponsesItem.data, if_pos reasoning, itemEffect, shown]
    rfl
  · have shown : isReasoning (.text id (some text)) = false := by simp [isReasoning, reasoning]
    rw [ResponsesItem.data, if_neg reasoning, itemEffect, shown]
    rfl

theorem convertInputItem_call (index : Nat) (id : ItemId) (callId name arguments : String)
    (completed : Bool) :
    convertInputItem codec index
        ((ResponsesItem.functionCall id callId name arguments completed).data uuid) =
      if callId.isEmpty then
        reject (inputAt index ++ ": " ++ "function_call" ++ " requires " ++ "call_id")
      else if name.isEmpty then
        reject (inputAt index ++ ": " ++ "function_call" ++ " requires " ++ "name")
      else .ok (.call (toolCall callId name arguments)) := by
  have converted : convertInputItem codec index
      ((ResponsesItem.functionCall id callId name arguments completed).data uuid) =
      (convertFunctionCall [("type", .string "function_call"), ("id", id.text uuid),
        ("call_id", .string callId), ("name", .string name), ("arguments", .string arguments),
        ("status", ResponsesItem.progress completed)] index).map .call := rfl
  rw [converted, convertFunctionCall, itemString_eq index _ "call_id" callId rfl,
    itemString_eq index _ "name" name rfl]
  split
  next => rfl
  next =>
    split
    next => rfl
    next => rfl

theorem convertInputItem_search (index : Nat) (id : ItemId) (failed : Bool) (query : String)
    (sources : List String) :
    convertInputItem codec index ((ResponsesItem.webSearchCall id failed query sources).data uuid) =
      .ok (itemEffect codec uuid (.webSearchCall id failed query sources)) := by
  have converted : convertInputItem codec index
      ((ResponsesItem.webSearchCall id failed query sources).data uuid) =
      (convertWebSearchCall codec [("type", .string "web_search_call"), ("id", id.text uuid),
        ("status", .string (if failed then "failed" else "completed")),
        ("action", .object [("type", .string "search"), ("query", .string query),
          ("sources", .array (sources.map fun url =>
            .object [("type", .string "url"), ("url", .string url)]))])] index).map
        fun pair => .flushed [pair.1, pair.2] := rfl
  rw [converted, convertWebSearchCall, itemString_eq index _ "id" (idText uuid id) rfl,
    idText_nonempty]
  rfl

theorem convertInputItem_output (index : Nat) (output : String × String)
    (named : output.1 ≠ "") :
    convertInputItem codec index (outputItem output) = .ok (.flushed [outputAnswer output]) := by
  have converted : convertInputItem codec index (outputItem output) =
      (convertFunctionCallOutput [("type", .string "function_call_output"),
        ("call_id", .string output.1), ("output", .string output.2)] index).map
          fun message => .flushed [message] := rfl
  have present : output.1.isEmpty = false := by simpa [String.isEmpty_eq_false_iff] using named
  rw [converted, convertFunctionCallOutput, itemString_eq index _ "call_id" output.1 rfl, present]
  rfl

theorem convertInputItem_data (index : Nat) {item : ResponsesItem} (final : item.isFinal = true)
    (named : item.Named) :
    convertInputItem codec index (item.data uuid) = .ok (itemEffect codec uuid item) := by
  cases item with
  | text id content =>
      obtain ⟨text, rfl⟩ := Option.isSome_iff_exists.mp final
      exact convertInputItem_text codec uuid index id text
  | functionCall id callId name arguments completed =>
      obtain ⟨hasId, hasName⟩ := named callId name rfl
      rw [convertInputItem_call, if_neg (by simpa [String.isEmpty_iff] using hasId),
        if_neg (by simpa [String.isEmpty_iff] using hasName)]
      rfl
  | webSearchCall id failed query sources =>
      exact convertInputItem_search codec uuid index id failed query sources

theorem named_of_accepted (index : Nat) {item : ResponsesItem} {effect : ItemEffect}
    (accepted : convertInputItem codec index (item.data uuid) = .ok effect) : item.Named := by
  cases item with
  | text => exact fun _ _ called => by cases called
  | webSearchCall => exact fun _ _ called => by cases called
  | functionCall id callId name arguments completed =>
      intro other otherName called
      obtain ⟨rfl, rfl⟩ := Prod.mk.inj (Option.some.inj called)
      rw [convertInputItem_call] at accepted
      split at accepted
      next => cases accepted
      next hasId =>
        split at accepted
        next => cases accepted
        next hasName =>
          simp only [String.isEmpty_iff] at hasId hasName
          exact ⟨hasId, hasName⟩

theorem convertItems_eq {values : List Value} {effects : List ItemEffect}
    (each : List.Forall₂ (fun value effect => ∀ index,
      convertInputItem codec index value = .ok effect) values effects)
    (offset : Nat) (state : InputState) :
    (values.zipIdx offset).foldlM (convertItem codec) state =
      .ok (effects.foldl InputState.apply state) := by
  induction each generalizing offset state with
  | nil => rfl
  | cons converted _ ih =>
      rw [List.zipIdx_cons, List.foldlM_cons, convertItem, converted offset]
      exact ih (offset + 1) _

theorem convertItems_each {values : List Value} {offset : Nat} {state final : InputState}
    (accepted : (values.zipIdx offset).foldlM (convertItem codec) state = .ok final) :
    ∀ value ∈ values, ∃ index effect, convertInputItem codec index value = .ok effect := by
  induction values generalizing offset state with
  | nil => exact fun _ member => by cases member
  | cons first rest ih =>
      rw [List.zipIdx_cons, List.foldlM_cons] at accepted
      obtain ⟨next_, stepped, later⟩ := bind_eq_ok.mp accepted
      obtain ⟨effect, converted, _⟩ := map_eq_ok.mp stepped
      intro value member
      rcases List.mem_cons.mp member with rfl | behind
      · exact ⟨offset, effect, converted⟩
      · exact ih later value behind

theorem AnswersFollow.flushCalls {state : InputState} (follow : AnswersFollow state.messages) :
    AnswersFollow state.flushCalls.messages := by
  rw [InputState.flushCalls]
  split
  next => exact follow
  next => exact follow.snoc fun tool => by cases tool

theorem replayed_items (items : List ResponsesItem) :
    HistoryTold (items.map (itemEffect codec uuid))
        ((items.map (itemEffect codec uuid)).foldl InputState.apply .start) ∧
      AnswersFollow ((items.map (itemEffect codec uuid)).foldl InputState.apply .start).messages := by
  induction items using List.reverseRecOn with
  | nil => exact ⟨historyTold_start, answersFollow_nil⟩
  | append_singleton items item ih =>
      obtain ⟨told, follow⟩ := ih
      rw [List.map_append, List.foldl_append, List.map_singleton, List.foldl_cons, List.foldl_nil]
      generalize (items.map (itemEffect codec uuid)).foldl InputState.apply .start = state at *
      cases item with
      | text id content =>
          rw [itemEffect]
          split
          next =>
            refine ⟨told.apply trivial, ?_⟩
            rw [InputState.apply, List.append_nil]
            exact follow.flushCalls
          next => exact ⟨told.apply rfl, follow.snoc fun tool => by cases tool⟩
      | functionCall => exact ⟨told.apply trivial, follow⟩
      | webSearchCall id failed query sources =>
          refine ⟨told.apply trivial, ?_⟩
          rw [itemEffect, InputState.apply, List.append_cons]
          refine (follow.flushCalls.snoc fun tool => by cases tool).snoc fun _ =>
            ⟨idText uuid id, ?_, rfl⟩
          rw [declaredIds_append]
          exact List.mem_append_right _ (List.mem_singleton.mpr rfl)

theorem replayed_outputs {effects : List ItemEffect} {state : InputState}
    (told : HistoryTold effects state) (follow : AnswersFollow state.messages)
    (outputs : List (String × String))
    (declared : ∀ output ∈ outputs, output.1 ∈ declaredIds state.flushCalls.messages) :
    HistoryTold (effects ++ outputs.map fun output => .flushed [outputAnswer output])
        ((outputs.map fun output => .flushed [outputAnswer output]).foldl
          InputState.apply state) ∧
      AnswersFollow ((outputs.map fun output => .flushed [outputAnswer output]).foldl
        InputState.apply state).messages := by
  induction outputs generalizing effects state with
  | nil => exact ⟨by simpa using told, follow⟩
  | cons output rest ih =>
      rw [List.map_cons, List.foldl_cons, List.append_cons]
      have empty := told.flushCalls.2
      refine ih (told.apply trivial) ?_ fun other member => ?_
      · exact follow.flushCalls.snoc fun _ => ⟨_, declared output (by simp), rfl⟩
      · have known := declared other (by simp [member])
        rw [InputState.flushCalls, InputState.apply, empty]
        rw [if_pos (by rfl), declaredIds_append]
        exact List.mem_append_left _ known

theorem itemEffect_calls (item : ResponsesItem) :
    (itemEffect codec uuid item).calls = (item.chatCall codec uuid).toList := by
  cases item with
  | text id content =>
      rw [itemEffect]
      split <;> rfl
  | functionCall | webSearchCall => rfl

theorem itemEffect_answers (item : ResponsesItem) :
    historyAnswers (itemEffect codec uuid item).shown = (item.searchAnswer uuid).toList := by
  cases item with
  | text id content =>
      rw [itemEffect]
      split <;> rfl
  | functionCall | webSearchCall => rfl

theorem itemEffect_texts (item : ResponsesItem) :
    historyTexts (itemEffect codec uuid item).shown = item.messageText.toList := by
  cases item with
  | text id content =>
      rw [itemEffect, ResponsesItem.messageText]
      split
      next => rfl
      next =>
        rw [ItemEffect.shown]
        split
        next empty =>
          rw [String.isEmpty_iff.mp empty]
          rfl
        next => rfl
  | functionCall | webSearchCall => rfl

theorem foldl_idle {effects : List ItemEffect} (idle : ∀ effect ∈ effects, effect = .flushed []) :
    effects.foldl InputState.apply .start = .start := by
  induction effects with
  | nil => rfl
  | cons effect rest ih =>
      rw [List.foldl_cons, idle effect (by simp)]
      exact ih fun other member => idle other (by simp [member])

theorem replayed_of_named (output : List ResponsesItem)
    (final : ∀ item ∈ output, item.isFinal = true) (named : ∀ item ∈ output, item.Named) :
    ∃ state, (replayInput uuid answer output).zipIdx.foldlM (convertItem codec) .start =
        .ok state ∧
      Replayed codec uuid answer output state.flushCalls.messages ∧
        ((∀ item ∈ output, isReasoning item = true) → state.flushCalls.messages = []) := by
  let outputs := output.filterMap (ResponsesItem.clientOutput answer)
  have each : List.Forall₂ (fun value effect => ∀ index,
      convertInputItem codec index value = .ok effect) (replayInput uuid answer output)
      (output.map (itemEffect codec uuid) ++
        outputs.map fun output => .flushed [outputAnswer output]) := by
    refine List.rel_append ?_ ?_
    · rw [List.forall₂_map_left_iff, List.forall₂_map_right_iff, List.forall₂_same]
      exact fun item member index =>
        convertInputItem_data codec uuid index (final item member) (named item member)
    · rw [List.forall₂_map_left_iff, List.forall₂_map_right_iff, List.forall₂_same]
      intro one member index
      obtain ⟨item, there, made⟩ := List.mem_filterMap.mp member
      obtain ⟨⟨callId, name⟩, called, rfl⟩ := Option.map_eq_some_iff.mp made
      exact convertInputItem_output codec index _ (named item there callId name called).1
  obtain ⟨told, follow⟩ := replayed_items codec uuid output
  have declared : ∀ one ∈ outputs, one.1 ∈ declaredIds
      ((output.map (itemEffect codec uuid)).foldl InputState.apply .start).flushCalls.messages := by
    intro one member
    obtain ⟨item, there, made⟩ := List.mem_filterMap.mp member
    obtain ⟨⟨callId, name⟩, called, rfl⟩ := Option.map_eq_some_iff.mp made
    obtain ⟨flushed, empty⟩ := told.flushCalls
    have calls := flushed.calls
    rw [empty, List.append_nil] at calls
    rw [declaredIds, calls]
    cases item with
    | text | webSearchCall => cases called
    | functionCall id other otherName arguments completed =>
        obtain ⟨rfl, rfl⟩ := Prod.mk.inj (Option.some.inj called)
        refine List.mem_filterMap.mpr ⟨toolCall other otherName arguments, ?_, rfl⟩
        exact List.mem_flatMap.mpr ⟨_, List.mem_map_of_mem there, List.mem_singleton.mpr rfl⟩
  obtain ⟨whole, followed⟩ := replayed_outputs told follow outputs declared
  refine ⟨_, convertItems_eq codec each 0 .start, ?_, fun silent => ?_⟩
  swap
  · have idle : ∀ effect ∈ output.map (itemEffect codec uuid) ++
        outputs.map (fun output => .flushed [outputAnswer output]), effect = .flushed [] := by
      intro effect member
      rcases List.mem_append.mp member with shown | answered
      · obtain ⟨item, there, rfl⟩ := List.mem_map.mp shown
        have reasoning := silent item there
        cases item with
        | text => rw [itemEffect, reasoning, if_pos rfl]
        | functionCall | webSearchCall => cases reasoning
      · obtain ⟨one, made, _⟩ := List.mem_map.mp answered
        obtain ⟨item, there, given⟩ := List.mem_filterMap.mp made
        have reasoning := silent item there
        cases item with
        | text | webSearchCall => cases given
        | functionCall => cases reasoning
    rw [foldl_idle idle]
    rfl
  rw [List.foldl_append]
  obtain ⟨flushed, empty⟩ := whole.flushCalls
  have calls := flushed.calls
  have answers := flushed.answers
  have texts := flushed.texts
  rw [empty, List.append_nil, List.flatMap_append, List.flatMap_map, List.flatMap_map] at calls
  rw [List.flatMap_append, List.flatMap_map, List.flatMap_map] at answers texts
  refine ⟨calls.trans ?_, answers.trans ?_, texts.trans ?_, followed.flushCalls⟩
  · simp only [itemEffect_calls, List.filterMap_eq_flatMap_toList]
    have none_ : (outputs.flatMap fun one =>
        (ItemEffect.flushed [outputAnswer one]).calls) = [] := by
      rw [List.flatMap_eq_nil_iff]
      exact fun _ _ => rfl
    rw [none_, List.append_nil]
  · simp only [itemEffect_answers]
    rw [← List.filterMap_eq_flatMap_toList, List.append_cancel_left_eq, List.map_eq_flatMap]
    rfl
  · simp only [itemEffect_texts, List.filterMap_eq_flatMap_toList]
    have none_ : (outputs.flatMap fun one =>
        historyTexts (ItemEffect.flushed [outputAnswer one]).shown) = [] := by
      rw [List.flatMap_eq_nil_iff]
      exact fun _ _ => rfl
    rw [none_, List.append_nil]

theorem failuresShown_iff (output : List ResponsesItem) :
    FailuresShown codec uuid output ↔ ∀ item ∈ output, item.failedSearch = false := by
  constructor
  · intro shown item member
    cases item with
    | text | functionCall => rfl
    | webSearchCall id failed query sources =>
        by_contra failed_
        have fails : failed = true := by simpa [ResponsesItem.failedSearch] using failed_
        refine shown _ member fails 0 ?_
        rw [ResponsesItem.succeeded, convertInputItem_search, convertInputItem_search]
        rfl
  · intro fine item member failed
    rw [fine item member] at failed
    cases failed

/-- An output replays well exactly when its calls are named, something of it is no reasoning and
no search in it failed. -/
theorem replaysWell_iff (output : List ResponsesItem)
    (final : ∀ item ∈ output, item.isFinal = true) :
    ReplaysWell codec uuid answer output ↔ (∀ item ∈ output, item.Named) ∧
      (∃ item ∈ output, isReasoning item = false) ∧
        ∀ item ∈ output, item.failedSearch = false := by
  rw [ReplaysWell, failuresShown_iff, ← and_assoc]
  refine and_congr_left fun _ => ?_
  constructor
  · rintro ⟨messages, accepted, _⟩
    obtain ⟨state, run, kept⟩ := bind_eq_ok.mp accepted
    have named : ∀ item ∈ output, item.Named := by
      intro item member
      obtain ⟨index, effect, converted⟩ := convertItems_each codec run _
        (List.mem_append_left _ (List.mem_map_of_mem member))
      exact named_of_accepted codec uuid index converted
    refine ⟨named, ?_⟩
    by_contra silent
    obtain ⟨other, same, _, empty⟩ := replayed_of_named codec uuid answer output final named
    obtain rfl := Except.ok.inj (run.symm.trans same)
    have none_ := empty fun item member => by
      by_contra reasoning
      exact silent ⟨item, member, by simpa using reasoning⟩
    simp only [none_] at kept
    cases kept
  · rintro ⟨named, item, member, says_⟩
    obtain ⟨state, run, replayed, _⟩ := replayed_of_named codec uuid answer output final named
    have some_ : state.flushCalls.messages ≠ [] := by
      intro none_
      have calls := replayed.calls
      have texts := replayed.texts
      rw [none_] at calls texts
      have noCall := List.filterMap_eq_nil_iff.mp calls.symm item member
      have noText := List.filterMap_eq_nil_iff.mp texts.symm item member
      cases item with
      | text id content =>
          rw [ResponsesItem.messageText, says_] at noText
          cases noText
      | functionCall | webSearchCall => cases noCall
    refine ⟨state.flushCalls.messages, ?_, replayed⟩
    rw [convertInputItems, run]
    have full : state.flushCalls.messages.isEmpty = false := by simpa using some_
    simp only [bind, Except.bind, full]
    rfl

end Replay

end ClineProxy
