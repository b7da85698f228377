import ClineProxy.PrefixChecks
import ClineProxy.ToolChain

/-!
Which assistant turns keep their thinking: in the Anthropic request, where it is counted, and in
the converted one, which is sent.
-/

namespace ClineProxy

open Json Positions

section Groups

variable {Item Other : Type}

theorem map_mapIdx {Last : Type} (change : Nat → Item → Other) (then_ : Other → Last)
    (items : List Item) :
    (items.mapIdx change).map then_ = items.mapIdx fun index item => then_ (change index item) := by
  refine List.ext_getElem? fun index => ?_
  simp [List.getElem?_mapIdx, Option.map_map, Function.comp_def]

theorem mapIdx_map {First : Type} (before : First → Item) (change : Nat → Item → Other)
    (items : List First) :
    (items.map before).mapIdx change =
      items.mapIdx fun index item => change index (before item) := by
  refine List.ext_getElem? fun index => ?_
  simp [List.getElem?_mapIdx, Option.map_map, Function.comp_def]

/-- Cuts a list into groups as long as the given ones. -/
def regroup (groups : List (List Other)) (items : List Item) : List (List Item) :=
  match groups with
  | [] => []
  | group :: rest => items.take group.length :: regroup rest (items.drop group.length)

/-- A pass over the items of all groups, told where in the whole list they stand. -/
def mapGroups (pass : Nat → Item → Other) (offset : Nat) :
    List (List Item) → List (List Other)
  | [] => []
  | group :: rest =>
      group.mapIdx (fun index => pass (index + offset)) ::
        mapGroups pass (offset + group.length) rest

theorem regroup_mapIdx (pass : Nat → Item → Other) (groups : List (List Item)) (offset : Nat) :
    regroup groups (groups.flatten.mapIdx fun index => pass (index + offset)) =
      mapGroups pass offset groups := by
  induction groups generalizing offset with
  | nil => rfl
  | cons group rest ih =>
      have first : (group.mapIdx fun index => pass (index + offset)).length = group.length :=
        List.length_mapIdx
      rw [List.flatten_cons, List.mapIdx_append, regroup, mapGroups, ← first, List.take_left,
        List.drop_left, first, ← ih]
      simp only [Nat.add_assoc, Nat.add_comm group.length]

theorem map_mapGroups {Last : Type} (pass : Nat → Item → Other) (then_ : Other → Last)
    (groups : List (List Item)) (offset : Nat) :
    (mapGroups pass offset groups).map (List.map then_) =
      mapGroups (fun index item => then_ (pass index item)) offset groups := by
  induction groups generalizing offset with
  | nil => rfl
  | cons group rest ih => rw [mapGroups, List.map_cons, map_mapIdx, ih, mapGroups]

end Groups

def turnsFrom (codec : Codec) (index : Nat) (pendingToolIds : List String) :
    List Value → Fallible (List (List WireMessage))
  | [] => .ok []
  | message :: rest => do
      let (first, pending) ← convertMessage codec index pendingToolIds message
      let later ← turnsFrom codec (index + 1) pending rest
      return first :: later

/-- The messages of the system text and of each input message. -/
def messageGroups (codec : Codec) (input : Value) : Fallible (List (List WireMessage)) := do
  let object ← orReject "request body must be a JSON object" input.asObject
  let system ← convertSystemMember object
  let turns ← turnsFrom codec 0 [] (inputMessages input)
  return system :: turns

def reasoningContent (message : Value) : String :=
  ((message.get "reasoning_content").bind Value.asStr).getD ""

def sentReasoning (codec : Codec) (glm : Glm53Config) (input : Value) :
    Fallible (List String) := do
  let converted ← convertRequestValue codec input
  let groups ← messageGroups codec input
  return (regroup groups (optimizeMessages glm (inputMessages converted.body))).tail.map
    fun sent => String.join (sent.map reasoningContent)

def blockThinking (block : Value) : String :=
  if isThinking block then ((block.get "thinking").bind Value.asStr).getD "" else ""

def thinkingText (message : Value) : String :=
  String.join ((roleBlocks "assistant" message).map blockThinking)

def countedThinking (input : Value) : List String :=
  (inputMessages (stripAnthropicThinking input)).map thinkingText

/-! The condition -/

def isEmptyTurn (message : Value) : Bool :=
  isUser message &&
    match message.get "content" with
    | some (.string text) => text.isEmpty
    | some (.array blocks) => blocks.isEmpty
    | _ => false

/-- Whether an empty message decides what is sent of a turn: it stands behind the turn and the
last human turn, or there is no human turn and it is the last one before the turn. -/
def emptyTurnDecides (before after : List Value) : Bool :=
  !after.any isHumanTurn &&
    if before.any isHumanTurn then after.any isEmptyTurn
    else before.any isEmptyTurn && !after.any isEmptyTurn

def EpochsClear (messages : List Value) : Prop :=
  ∀ before turn after, messages = before ++ turn :: after →
    emptyTurnDecides before after = true → thinkingText turn = ""

def WireMessage.reasoning : WireMessage → String
  | .assistant _ _ reasoning => reasoning
  | _ => ""

def WireMessage.fromUser : WireMessage → Bool
  | .user role _ => role == "user"
  | _ => false

theorem isUser_intoWire (message : WireMessage) : isUser message.intoWire = message.fromUser := by
  have named (name : String) (rest : Map) :
      isUser (.object (("role", .string name) :: rest)) = (name == "user") := by
    simp [isUser, role, OrderedMap.lookup]
  cases message with
  | user name content => exact named name _
  | system | assistant | tool => exact named _ _

/-- What a message is converted to: who speaks, and the reasoning that goes with it. -/
structure TurnOf (message : Value) (group : List WireMessage) : Prop where
  users : group.any WireMessage.fromUser = (isHumanTurn message || isEmptyTurn message)
  reasoning : String.join (group.map WireMessage.reasoning) = thinkingText message

def AssistantTurn.reasoning (turn : AssistantTurn) : String :=
  String.join (turn.output.map WireMessage.reasoning) ++ turn.segment.reasoning

structure Taken (turn : AssistantTurn) (reasoning : String) : Prop where
  noUser : turn.output.any WireMessage.fromUser = false
  all : turn.reasoning = reasoning

variable {turn next : AssistantTurn} {reasoning : String}

theorem Taken.flush (taken : Taken turn reasoning) : Taken turn.flush reasoning := by
  rw [AssistantTurn.flush]
  split
  next => exact taken
  next =>
    constructor
    · simp [List.any_append, taken.noUser, WireMessage.fromUser]
    · rw [← taken.all]
      simp [AssistantTurn.reasoning, WireMessage.reasoning, Segment.empty, String.join_append,
        String.join_cons, String.join_nil]

theorem Taken.flushServerCalls (taken : Taken turn reasoning) :
    Taken turn.flushServerCalls reasoning := by
  rw [AssistantTurn.flushServerCalls]
  split
  next => exact taken
  next =>
    constructor
    · simp [List.any_append, taken.noUser, WireMessage.fromUser]
    · rw [← taken.all]
      simp [AssistantTurn.reasoning, WireMessage.reasoning, String.join_append,
        String.join_cons, String.join_nil]

theorem blockThinking_other {object : Map} {kind : String}
    (found : requiredString object "type" = .ok kind) (other : kind ≠ "thinking") :
    blockThinking (.object object) = "" := by
  have present := (requiredString_eq_ok.mp found).1
  have silent : isThinking (.object object) = false := by
    simp only [isThinking, Value.get_object]
    rw [Map.get] at present
    simp [present, other]
  rw [blockThinking, silent]
  rfl

theorem Taken.block (taken : Taken turn reasoning) {codec : Codec} {block : Value}
    (done : convertAssistantBlock codec turn block = .ok next) :
    Taken next (reasoning ++ blockThinking block) := by
  obtain ⟨object, isObject, done⟩ := bind_eq_ok.mp done
  obtain ⟨kind, found, done⟩ := bind_eq_ok.mp done
  obtain rfl := Value.asObject_eq_some (orReject_eq_ok.mp isObject)
  have silent (other : kind ≠ "thinking") :
      reasoning ++ blockThinking (.object object) = reasoning := by
    rw [blockThinking_other found other, String.append_empty]
  split at done
  next =>
    rw [silent (by decide)]
    obtain ⟨_, -, done⟩ := bind_eq_ok.mp done
    obtain ⟨text, -, done⟩ := bind_eq_ok.mp done
    cases done
    exact ⟨taken.noUser, taken.all⟩
  next =>
    cases done
    have present := (requiredString_eq_ok.mp found).1
    have spoken : blockThinking (.object object) =
        ((object.get "thinking").bind Value.asStr).getD "" := by
      rw [Map.get] at present
      simp [blockThinking, isThinking, present, Map.get]
    refine ⟨taken.noUser, ?_⟩
    rw [spoken, ← taken.all]
    simp [AssistantTurn.reasoning, assistantThinking, String.append_assoc]
  next =>
    rw [silent (by decide)]
    cases done
    exact taken
  next =>
    rw [silent (by decide)]
    obtain ⟨-, name, arguments, pending, rfl⟩ := assistantToolUse_effect done
    exact ⟨taken.noUser, taken.all⟩
  next =>
    rw [silent (by decide)]
    obtain ⟨-, name, arguments, rfl⟩ := assistantServerToolUse_effect done
    exact ⟨taken.flush.noUser, taken.flush.all⟩
  next =>
    rw [silent (by decide)]
    obtain ⟨-, -, text, rfl⟩ := assistantSearchResult_effect done
    have flushed := taken.flushServerCalls
    constructor
    · simp [List.any_append, flushed.noUser, WireMessage.fromUser]
    · rw [← flushed.all]
      simp [AssistantTurn.reasoning, WireMessage.reasoning, String.join_append,
        String.join_cons, String.join_nil]
  next => cases done

theorem Taken.blocks (taken : Taken turn reasoning) {codec : Codec} {blocks : List Value}
    (done : blocks.foldlM (convertAssistantBlock codec) turn = .ok next) :
    Taken next (reasoning ++ String.join (blocks.map blockThinking)) := by
  induction blocks generalizing turn reasoning with
  | nil =>
      cases done
      rw [List.map_nil, String.join_nil, String.append_empty]
      exact taken
  | cons block rest ih =>
      rw [List.foldlM_cons] at done
      obtain ⟨between, first, later⟩ := bind_eq_ok.mp done
      rw [List.map_cons, String.join_cons, ← String.append_assoc]
      exact ih (taken.block first) later

theorem convertAssistantBlocks_taken {codec : Codec} {blocks : List Value}
    {messages : List WireMessage} {pending : List String}
    (done : convertAssistantBlocks codec blocks = .ok (messages, pending)) :
    messages.any WireMessage.fromUser = false ∧
      String.join (messages.map WireMessage.reasoning) =
        String.join (blocks.map blockThinking) := by
  obtain ⟨turn, folded, done⟩ := bind_eq_ok.mp done
  obtain ⟨finished, ended, done⟩ := bind_eq_ok.mp done
  cases done
  have start : Taken .start "" := ⟨rfl, by simp [AssistantTurn.reasoning, AssistantTurn.start,
    Segment.empty, String.join_nil]⟩
  have taken := (start.blocks folded).flush
  rw [String.empty_append] at taken
  rw [AssistantTurn.finish] at ended
  split at ended
  next => cases ended
  next =>
    cases ended
    have emptied : turn.flush.segment.reasoning = "" := by
      rw [AssistantTurn.flush]
      split
      next silent =>
        simp only [Segment.isEmpty, Bool.and_eq_true, String.isEmpty_iff] at silent
        exact silent.2
      next => rfl
    have all := taken.all
    rw [AssistantTurn.reasoning, emptied, String.append_empty] at all
    split
    next silent =>
      rw [List.isEmpty_iff.mp silent, List.map_nil, String.join_nil] at all
      exact ⟨rfl, all ▸ rfl⟩
    next => exact ⟨taken.noUser, all⟩

structure Heard (turn : UserTurn) (spoken : Bool) : Prop where
  results : ∀ message ∈ turn.output, ∃ id content isError, message = .tool id content isError
  ordinary : turn.ordinary.isEmpty = !spoken

theorem Heard.addOrdinary {turn : UserTurn} {spoken : Bool} (heard : Heard turn spoken)
    (added : Value) : Heard (turn.addOrdinary added) true :=
  ⟨heard.results, by simp [UserTurn.addOrdinary]⟩

theorem Heard.block {turn next : UserTurn} {spoken : Bool} (heard : Heard turn spoken)
    {pending : List String} {block : Value}
    (done : convertUserBlock pending turn block = .ok next) :
    Heard next (spoken || !isToolResult block) := by
  obtain ⟨object, isObject, step⟩ := bind_eq_ok.mp done
  obtain ⟨kind, found, step⟩ := bind_eq_ok.mp step
  obtain rfl := Value.asObject_eq_some (orReject_eq_ok.mp isObject)
  have present := (requiredString_eq_ok.mp found).1
  have isResult : isToolResult (.object object) = (kind == "tool_result") := by
    rw [Map.get] at present
    simp [isToolResult, present]
  rw [isResult]
  split at step
  next =>
    obtain ⟨added, -, rfl⟩ := map_eq_ok.mp step
    simpa using heard.addOrdinary added
  next =>
    obtain ⟨added, -, rfl⟩ := map_eq_ok.mp step
    simpa using heard.addOrdinary added
  next =>
    obtain ⟨added, -, rfl⟩ := map_eq_ok.mp step
    simpa using heard.addOrdinary added
  next =>
    obtain ⟨id, content, isError, -, -, -, rfl⟩ := userToolResult_effect step
    refine ⟨fun message member => ?_, by simpa using heard.ordinary⟩
    rcases List.mem_append.mp member with earlier | last
    · exact heard.results message earlier
    · exact ⟨_, _, _, List.mem_singleton.mp last⟩
  next => cases step

theorem Heard.blocks {turn final : UserTurn} {spoken : Bool} (heard : Heard turn spoken)
    {pending : List String} {blocks : List Value}
    (done : blocks.foldlM (convertUserBlock pending) turn = .ok final) :
    Heard final (spoken || blocks.any fun block => !isToolResult block) := by
  induction blocks generalizing turn spoken with
  | nil =>
      cases done
      simpa using heard
  | cons block rest ih =>
      rw [List.foldlM_cons] at done
      obtain ⟨between, first, later⟩ := bind_eq_ok.mp done
      rw [List.any_cons, ← Bool.or_assoc]
      exact ih (heard.block first) later

theorem convertUserBlocks_heard {pending : List String} {blocks : List Value}
    {messages : List WireMessage} (done : convertUserBlocks pending blocks = .ok messages) :
    messages.any WireMessage.fromUser =
        (blocks.isEmpty || blocks.any fun block => !isToolResult block) ∧
      String.join (messages.map WireMessage.reasoning) = "" := by
  obtain ⟨turn, folded, done⟩ := bind_eq_ok.mp done
  cases done
  have start : Heard .start false := ⟨fun _ member => (List.not_mem_nil member).elim, rfl⟩
  have heard := start.blocks folded
  have noUser : turn.output.any WireMessage.fromUser = false := by
    rw [List.any_eq_false]
    intro message member
    obtain ⟨id, content, isError, rfl⟩ := heard.results message member
    simp [WireMessage.fromUser]
  have silent (messages : List WireMessage)
      (quiet : ∀ message ∈ messages, message.reasoning = "") :
      String.join (messages.map WireMessage.reasoning) = "" := by
    induction messages with
    | nil => exact String.join_nil
    | cons message rest ih =>
        rw [List.map_cons, String.join_cons, quiet message (by simp),
          ih fun other member => quiet other (by simp [member])]
        rfl
  constructor
  · rw [List.any_append, List.any_append, noUser, heard.ordinary]
    cases blocks.any fun block => !isToolResult block <;> cases blocks <;>
      simp [WireMessage.fromUser]
  · refine silent _ fun message member => ?_
    rcases List.mem_append.mp member with early | late
    · rcases List.mem_append.mp early with result | spoken
      · obtain ⟨id, content, isError, rfl⟩ := heard.results message result
        rfl
      · split at spoken
        next => cases spoken
        next => rw [List.mem_singleton.mp spoken]; rfl
    · split at late
      next => rw [List.mem_singleton.mp late]; rfl
      next => cases late

def speaks : Value → Bool
  | .string _ => true
  | .array blocks => blocks.isEmpty || blocks.any fun block => !isToolResult block
  | _ => false

theorem userTurn_speaks {object : Map} {name : String} {content : Value}
    (named : role (.object object) = some name) (held : object.get "content" = some content) :
    (isHumanTurn (.object object) || isEmptyTurn (.object object)) =
      (name == "user" && speaks content) := by
  rw [Map.get] at held
  rw [isHumanTurn, isEmptyTurn, isUser, named, hasHumanContent, Value.get_object, held]
  cases content <;> cases user : name == "user" <;> simp [user, speaks, Bool.or_comm]

theorem convertMessage_turn {codec : Codec} {index : Nat} {pending next : List String}
    {message : Value} {group : List WireMessage}
    (done : convertMessage codec index pending message = .ok (group, next)) :
    TurnOf message group := by
  rw [convertMessage, bind_eq_ok] at done
  obtain ⟨object, isObject, done⟩ := done
  rw [bind_eq_ok] at done
  obtain ⟨name, found, done⟩ := done
  obtain rfl := Value.asObject_eq_some (orReject_eq_ok.mp isObject)
  have named : role (.object object) = some name := by
    have present := (requiredString_eq_ok.mp found).1
    rw [Map.get] at present
    simp [role, present]
  split at done
  next => cases done
  next known =>
    rw [bind_eq_ok] at done
    obtain ⟨content, present, done⟩ := done
    have held := orReject_eq_ok.mp present
    have spoken := userTurn_speaks named held
    split at done
    next isSystem =>
      subst name
      rw [bind_eq_ok] at done
      obtain ⟨converted, -, done⟩ := done
      cases done
      refine ⟨spoken ▸ rfl, ?_⟩
      rw [thinkingText, roleBlocks_other (by decide) found]
      rfl
    next notSystem =>
      split at done
      next isString =>
        cases done
        refine ⟨?_, ?_⟩
        · obtain ⟨text, shape⟩ := Option.isSome_iff_exists.mp isString
          obtain rfl := Value.asStr_eq_some shape
          rw [spoken]
          by_cases isAssistant : name = "assistant"
          · subst name
            rfl
          · have isUser : name = "user" := by
              by_contra other
              exact known ⟨other, isAssistant, notSystem⟩
            subst name
            rfl
        · rw [thinkingText, roleBlocks_string held isString]
          rfl
      next =>
        rw [bind_eq_ok] at done
        obtain ⟨blocks, isArray, done⟩ := done
        obtain rfl := Value.asArray_eq_some (orReject_eq_ok.mp isArray)
        split at done
        next isAssistant =>
          subst name
          obtain ⟨noUser, all⟩ := convertAssistantBlocks_taken done
          refine ⟨by rw [noUser, spoken]; rfl, ?_⟩
          rw [all, thinkingText, roleBlocks_array found held]
        next notAssistant =>
          have isUser : name = "user" := by
            by_contra other
            exact known ⟨other, notAssistant, notSystem⟩
          subst name
          rw [bind_eq_ok] at done
          obtain ⟨converted, user, done⟩ := done
          cases done
          obtain ⟨users, silent⟩ := convertUserBlocks_heard user
          refine ⟨by rw [users, spoken]; rfl, ?_⟩
          rw [silent, thinkingText, roleBlocks_other (by decide) found]
          rfl

theorem convertMessages_turns {codec : Codec} {index : Nat} {pending : List String}
    {inputs : List Value} {messages : List WireMessage}
    (done : convertMessages codec index pending inputs = .ok messages) :
    ∃ turns, turnsFrom codec index pending inputs = .ok turns ∧ messages = turns.flatten ∧
      List.Forall₂ TurnOf inputs turns := by
  induction inputs generalizing index pending messages with
  | nil =>
      cases done
      exact ⟨[], rfl, rfl, .nil⟩
  | cons message rest ih =>
      obtain ⟨⟨first, next⟩, converted, done⟩ := bind_eq_ok.mp done
      obtain ⟨later, others, done⟩ := bind_eq_ok.mp done
      cases done
      obtain ⟨turns, made, rfl, held⟩ := ih others
      refine ⟨first :: turns, ?_, rfl, .cons (convertMessage_turn converted) held⟩
      rw [turnsFrom, converted]
      exact bind_eq_ok.mpr ⟨(first, next), rfl, bind_eq_ok.mpr ⟨turns, made, rfl⟩⟩

theorem convertSystemMember_users {object : Map} {system : List WireMessage}
    (done : convertSystemMember object = .ok system) :
    system.any WireMessage.fromUser = false := by
  rw [convertSystemMember] at done
  split at done
  next => cases done; rfl
  next =>
    obtain ⟨content, -, rfl⟩ := map_eq_ok.mp done
    rfl

theorem thinkingText_other {message : Value} (other : role message ≠ some "assistant") :
    thinkingText message = "" := by
  have unnamed : stringMember "role" message ≠ "assistant" := by
    intro named
    rw [stringMember, ← role] at named
    cases found : role message with
    | none => simp [found] at named
    | some name => exact other (found.trans (congrArg some (by simpa [found] using named)))
  rw [thinkingText, roleBlocks, if_neg unnamed]
  rfl

theorem join_silent {Item : Type} {said : Item → String} {items : List Item}
    (silent : ∀ item ∈ items, said item = "") : String.join (items.map said) = "" := by
  induction items with
  | nil => exact String.join_nil
  | cons item rest ih =>
      rw [List.map_cons, String.join_cons, silent item (by simp),
        ih fun other member => silent other (by simp [member])]
      rfl

theorem silent_of_join {Item : Type} {said : Item → String} {items : List Item}
    (silent : String.join (items.map said) = "") : ∀ item ∈ items, said item = "" := by
  induction items with
  | nil => exact fun _ member => (List.not_mem_nil member).elim
  | cons item rest ih =>
      rw [List.map_cons, String.join_cons, String.append_eq_empty_iff] at silent
      exact List.forall_mem_cons.mpr ⟨silent.1, ih silent.2⟩

theorem thinkingText_stripped (boundary index : Nat) (message : Value) :
    thinkingText (stripThinkingMessage boundary index message) =
      if index < boundary then "" else thinkingText message := by
  rw [stripThinkingMessage]
  split
  next strips =>
    rw [if_pos strips.1, thinkingText]
    refine join_silent fun block member => ?_
    rw [roleBlocks] at member
    split at member
    next =>
      rw [Value.get_update, if_pos rfl] at member
      cases content : message.get "content" with
      | none => simp [content] at member
      | some held =>
          cases held with
          | array blocks =>
              simp only [content, Option.map_some, Value.mapArray, Option.bind_some,
                Value.asArray_array, Option.getD_some, List.mem_filter, Bool.not_eq_true'] at member
              rw [blockThinking, member.2]
              rfl
          | null | bool | number | string | object =>
              simp [content, Value.mapArray, Value.asArray] at member
    next => cases member
  next stays =>
    split
    next below => exact thinkingText_other fun assistant => stays ⟨below, assistant⟩
    next => rfl

theorem countedThinking_eq {input : Value}
    (given : input.get "messages" = some (.array (inputMessages input))) :
    countedThinking input = (inputMessages input).mapIdx fun index message =>
      if index < reasoningEpochBoundary (inputMessages input) then ""
      else thinkingText message := by
  have stripped : inputMessages (stripAnthropicThinking input) =
      stripThinkingMessages (inputMessages input) := by
    rw [inputMessages, stripAnthropicThinking, Value.get_update, if_pos rfl, given]
    rfl
  rw [countedThinking, stripped, stripThinkingMessages, map_mapIdx]
  simp only [thinkingText_stripped]

theorem reasoning_optimized {glm : Glm53Config}
    (strips : glm.reasoning.stripHistoricalThinking = true) (boundary index : Nat)
    (message : WireMessage) :
    reasoningContent (optimizeMessage glm boundary index message.intoWire) =
      if index < boundary then "" else message.reasoning := by
  have compacted (object : Map) :
      reasoningContent (.object (if glm.context.safeCompaction then compactContent object
        else object)) = reasoningContent (.object object) := by
    split
    next =>
      exact congrArg (fun held => (Option.bind held Value.asStr).getD "")
        (get_compactContent (by decide))
    next => rfl
  have silent (object : Map) (none_ : object.get "reasoning_content" = none) :
      reasoningContent (.object object) = "" := by
    rw [Map.get] at none_
    simp [reasoningContent, none_]
  have optimized (object : Map) (name : String) (named : role (.object object) = some name) :
      reasoningContent (optimizeMessage glm boundary index (.object object)) =
        reasoningContent (.object (if name = "assistant" ∧ index < boundary then
          object.remove "reasoning_content" else object)) := by
    rw [optimizeMessage, Value.mapObject]
    refine (compacted _).trans ?_
    simp only [strips, named, Bool.true_and, Bool.and_eq_true, decide_eq_true_eq, beq_iff_eq,
      Option.some.injEq]
  cases message with
  | assistant content toolCalls reasoning =>
      rw [WireMessage.intoWire, optimized _ "assistant" rfl]
      have removed : Map.remove "reasoning_content" ([("role", .string "assistant"),
          ("content", .array content)] ++
          (if toolCalls.isEmpty then [] else [("tool_calls", .array toolCalls)]) ++
          (if reasoning.isEmpty then [] else [("reasoning_content", .string reasoning)])) =
          [("role", .string "assistant"), ("content", .array content)] ++
          (if toolCalls.isEmpty then [] else [("tool_calls", .array toolCalls)]) := by
        split <;> split <;> simp [Map.remove]
      split
      next both =>
        rw [if_pos both.2, removed]
        refine silent _ ?_
        split <;> rfl
      next stays =>
        rw [if_neg fun below => stays ⟨rfl, below⟩]
        split
        all_goals
          split
          next empty =>
            rw [WireMessage.reasoning, String.isEmpty_iff.mp empty]
            rfl
          next => rfl
  | system content =>
      rw [WireMessage.intoWire, optimized _ "system" rfl, if_neg (by simp), silent _ rfl]
      exact (ite_self _).symm
  | user name content =>
      rw [WireMessage.intoWire, optimized _ name rfl]
      refine Eq.trans ?_ (ite_self _).symm
      split <;> exact silent _ rfl
  | tool id content isError =>
      rw [WireMessage.intoWire, optimized _ "tool" rfl, if_neg (by simp)]
      refine Eq.trans ?_ (ite_self _).symm
      cases isError <;> exact silent _ rfl

theorem sentReasoning_eq {codec : Codec} {glm : Glm53Config} {input : Value}
    {converted : ConvertedRequest} {system : List WireMessage} {turns : List (List WireMessage)}
    (strips : glm.reasoning.stripHistoricalThinking = true)
    (accepted : convertRequestValue codec input = .ok converted)
    (grouped : messageGroups codec input = .ok (system :: turns))
    (wire : converted.body.get "messages" =
      some (.array ((system ++ turns.flatten).map WireMessage.intoWire))) :
    sentReasoning codec glm input =
      .ok ((mapGroups (fun index message => if index <
          epochBoundary ((system ++ turns.flatten).map WireMessage.intoWire) then ""
        else message.reasoning) system.length turns).map String.join) := by
  have sent : inputMessages converted.body =
      (system ++ turns.flatten).map WireMessage.intoWire := by
    rw [inputMessages, wire]
    rfl
  refine bind_eq_ok.mpr ⟨converted, accepted, bind_eq_ok.mpr ⟨system :: turns, grouped, ?_⟩⟩
  have whole := regroup_mapIdx (fun index (message : WireMessage) =>
    optimizeMessage glm (epochBoundary ((system ++ turns.flatten).map WireMessage.intoWire)) index
      message.intoWire) (system :: turns) 0
  rw [sent, optimizeMessages, mapIdx_map]
  simp only [Nat.add_zero, List.flatten_cons] at whole
  rw [whole, mapGroups, List.tail_cons, Nat.zero_add]
  simp only [← reasoning_optimized strips, ← map_mapGroups, List.map_map]
  rfl

theorem epochBoundary_group {pre group post : List WireMessage} {index : Nat}
    (noUser : group.any WireMessage.fromUser = false) (below : index < group.length) :
    decide (index + pre.length <
        epochBoundary ((pre ++ group ++ post).map WireMessage.intoWire)) =
      (post.any WireMessage.fromUser || !pre.any WireMessage.fromUser) := by
  have cut : group = group.take index ++ group[index] :: group.drop (index + 1) := by
    rw [List.getElem_cons_drop, List.take_append_drop]
  have shape : pre ++ group ++ post =
      (pre ++ group.take index) ++ group[index] :: (group.drop (index + 1) ++ post) :=
    (congrArg (fun group => pre ++ group ++ post) cut).trans
      (by simp only [List.append_assoc, List.cons_append])
  have quiet := List.any_eq_false.mp noUser
  have first : (group.take index).any WireMessage.fromUser = false :=
    List.any_eq_false.mpr fun message member => quiet message (List.mem_of_mem_take member)
  have last : (group.drop (index + 1)).any WireMessage.fromUser = false :=
    List.any_eq_false.mpr fun message member => quiet message (List.mem_of_mem_drop member)
  have around := @rposition_around _ WireMessage.fromUser (pre ++ group.take index)
    (group.drop (index + 1) ++ post) group[index] (by simpa using quiet _ (List.getElem_mem below))
  have place : (pre ++ group.take index).length = index + pre.length := by
    rw [List.length_append, List.length_take, Nat.min_eq_left (Nat.le_of_lt below), Nat.add_comm]
  dsimp only at around
  rw [← shape, place, List.any_append, List.any_append, first, last, Bool.false_or,
    Bool.or_false] at around
  rw [epochBoundary, rposition_map _ _ _ _ fun message _ => isUser_intoWire message,
    List.length_map]
  exact around

theorem sent_counted {before after : List Value} {turn : Value}
    {pre post group : List WireMessage} (of : TurnOf turn group)
    (ahead : pre.any WireMessage.fromUser = before.any fun message =>
      isHumanTurn message || isEmptyTurn message)
    (behind : post.any WireMessage.fromUser = after.any fun message =>
      isHumanTurn message || isEmptyTurn message) :
    String.join (group.mapIdx fun index message => if index + pre.length <
        epochBoundary ((pre ++ group ++ post).map WireMessage.intoWire) then ""
      else message.reasoning) =
        (if before.length < reasoningEpochBoundary (before ++ turn :: after) then ""
          else thinkingText turn) ↔
      (emptyTurnDecides before after = true → thinkingText turn = "") := by
  by_cases silent : thinkingText turn = ""
  · have quiet := silent_of_join (of.reasoning.trans silent)
    refine iff_of_true ?_ fun _ => silent
    have all : (group.mapIdx fun index message => if index + pre.length <
        epochBoundary ((pre ++ group ++ post).map WireMessage.intoWire) then ""
        else message.reasoning) = group.map fun _ => "" := by
      refine List.ext_getElem? fun index => ?_
      rw [List.getElem?_mapIdx, List.getElem?_map]
      cases there : group[index]? with
      | none => rfl
      | some message =>
          simp only [Option.map_some, quiet message (List.mem_of_getElem? there), ite_self]
    rw [all, join_silent fun _ _ => rfl, silent, ite_self]
  · have assistant : role turn = some "assistant" := by
      by_contra other
      exact silent (thinkingText_other other)
    have notUser : isUser turn = false := by rw [isUser, assistant]; rfl
    have noUser : group.any WireMessage.fromUser = false := by
      rw [of.users, isHumanTurn, isEmptyTurn, notUser]
      rfl
    have uniform : (group.mapIdx fun index message => if index + pre.length <
        epochBoundary ((pre ++ group ++ post).map WireMessage.intoWire) then ""
        else message.reasoning) = group.map fun message =>
          if (post.any WireMessage.fromUser || !pre.any WireMessage.fromUser) then ""
          else message.reasoning := by
      refine List.ext_getElem? fun index => ?_
      rw [List.getElem?_mapIdx, List.getElem?_map]
      cases there : group[index]? with
      | none => rfl
      | some message =>
          have below := (List.getElem?_eq_some_iff.mp there).1
          simp only [Option.map_some, ← epochBoundary_group noUser below, decide_eq_true_eq]
    have counted := @rposition_around _ isHumanTurn before after turn
      (by rw [isHumanTurn, notUser]; rfl)
    have either (messages : List Value) :
        (messages.any fun message => isHumanTurn message || isEmptyTurn message) =
          (messages.any isHumanTurn || messages.any isEmptyTurn) := by
      induction messages with
      | nil => rfl
      | cons message rest ih =>
          rw [List.any_cons, List.any_cons, List.any_cons, ih]
          cases isHumanTurn message <;> cases isEmptyTurn message <;> simp
    have sent : String.join (group.map fun message =>
        if (post.any WireMessage.fromUser || !pre.any WireMessage.fromUser) then ""
        else message.reasoning) =
          if (post.any WireMessage.fromUser || !pre.any WireMessage.fromUser) then ""
          else thinkingText turn := by
      split
      next => exact join_silent fun _ _ => rfl
      next => exact of.reasoning
    have kept : before.length < reasoningEpochBoundary (before ++ turn :: after) ↔
        (after.any isHumanTurn || !before.any isHumanTurn) = true := by
      rw [← counted, decide_eq_true_eq]
      rfl
    have spoken : "" ≠ thinkingText turn := Ne.symm silent
    rw [uniform, sent, if_congr kept rfl rfl, ahead, behind, either, either, emptyTurnDecides]
    cases before.any isHumanTurn <;> cases before.any isEmptyTurn <;>
      cases after.any isHumanTurn <;> cases after.any isEmptyTurn <;> simp [silent, spoken]

theorem users_turns {inputs : List Value} {turns : List (List WireMessage)}
    (converted : List.Forall₂ TurnOf inputs turns) :
    turns.flatten.any WireMessage.fromUser =
      inputs.any fun message => isHumanTurn message || isEmptyTurn message := by
  induction converted with
  | nil => rfl
  | cons of rest ih => rw [List.flatten_cons, List.any_append, of.users, ih, List.any_cons]

theorem sent_counted_turns {after : List Value} {turns : List (List WireMessage)}
    (converted : List.Forall₂ TurnOf after turns) {before : List Value} {pre : List WireMessage}
    (ahead : pre.any WireMessage.fromUser = before.any fun message =>
      isHumanTurn message || isEmptyTurn message) :
    (mapGroups (fun index message => if index <
        epochBoundary ((pre ++ turns.flatten).map WireMessage.intoWire) then ""
      else message.reasoning) pre.length turns).map String.join =
        (after.mapIdx fun index message => if index + before.length <
          reasoningEpochBoundary (before ++ after) then "" else thinkingText message) ↔
      ∀ first turn rest, after = first ++ turn :: rest →
        emptyTurnDecides (before ++ first) rest = true → thinkingText turn = "" := by
  induction converted generalizing before pre with
  | nil => simp [mapGroups]
  | @cons turn group after turns of rest ih =>
      have here := sent_counted of ahead (users_turns rest)
      have later := @ih (before ++ [turn]) (pre ++ group) (by
        rw [List.any_append, List.any_append, ahead, of.users, List.any_cons, List.any_nil,
          Bool.or_false])
      simp only [List.append_assoc, List.singleton_append, List.length_append,
        List.length_singleton] at here later
      rw [mapGroups, List.map_cons, List.mapIdx_cons, List.cons.injEq, List.flatten_cons,
        Nat.zero_add, here]
      simp only [Nat.add_assoc, Nat.add_comm 1]
      rw [later]
      constructor
      · rintro ⟨now, then_⟩ first other last shape decides
        cases first with
        | nil =>
            obtain ⟨rfl, rfl⟩ := List.cons.inj shape
            exact now (by simpa using decides)
        | cons head first =>
            obtain ⟨rfl, rfl⟩ := List.cons.inj shape
            exact then_ first other last rfl decides
      · intro all
        exact ⟨fun decides => all [] turn after rfl (by simpa using decides),
          fun first other last shape decides =>
            all (turn :: first) other last (congrArg (turn :: ·) shape) decides⟩

/-- The thinking that is sent of each turn is the thinking that is counted of it, exactly when no
empty user message decides what is sent of a turn with thinking. -/
theorem thinking_epochs {codec : Codec} {glm : Glm53Config} {input : Value}
    {converted : ConvertedRequest} (accepted : convertRequestValue codec input = .ok converted)
    (strips : glm.reasoning.stripHistoricalThinking = true) :
    sentReasoning codec glm input = .ok (countedThinking input) ↔
      EpochsClear (inputMessages input) := by
  obtain ⟨object, system, messages, rfl, systemDone, messagesDone, given, wire⟩ :=
    convertRequestValue_messages accepted
  obtain ⟨turns, made, rfl, held⟩ := convertMessages_turns messagesDone
  have grouped : messageGroups codec (.object object) = .ok (system :: turns) :=
    bind_eq_ok.mpr ⟨object, rfl, bind_eq_ok.mpr ⟨system, systemDone,
      bind_eq_ok.mpr ⟨turns, made, rfl⟩⟩⟩
  have all := @sent_counted_turns _ _ held [] system (convertSystemMember_users systemDone)
  rw [sentReasoning_eq strips accepted grouped wire, countedThinking_eq given, Except.ok.injEq]
  exact all

def thinkingBlock (text : String) : Value :=
  .object [("type", .string "thinking"), ("thinking", .string text)]

def planRequest (last : String) : Value :=
  requestOf [message "user" (.string "hi"), message "assistant" (.array [thinkingBlock "plan"]),
    message "user" (.string last)]

theorem thinking_epochs_human : ∃ converted,
    convertRequestValue plainCodec (planRequest "go") = .ok converted ∧
      (sentReasoning plainCodec (plainConfig true).glm53 (planRequest "go") =
          .ok (countedThinking (planRequest "go")) ↔
        EpochsClear (inputMessages (planRequest "go"))) :=
  ⟨_, rfl, thinking_epochs rfl rfl⟩

theorem thinking_epochs_fail : ∃ converted,
    convertRequestValue plainCodec (planRequest "") = .ok converted ∧
      countedThinking (planRequest "") = ["", "plan", ""] ∧
      sentReasoning plainCodec (plainConfig true).glm53 (planRequest "") ≠
        .ok (countedThinking (planRequest "")) := by
  have counted : countedThinking (planRequest "") = ["", "plan", ""] := by decide +kernel
  have sent : sentReasoning plainCodec (plainConfig true).glm53 (planRequest "") =
      .ok ["", "", ""] := rfl
  refine ⟨_, rfl, counted, ?_⟩
  rw [counted, sent]
  simp

end ClineProxy
