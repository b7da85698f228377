import ClineProxy.JsonAlike
import ClineProxy.MessagePath
import ClineProxy.TwoRuns

/-!
Requests that differ in the text of billing headers and in the order of the members of tool
inputs, and what they are converted to.
-/

namespace ClineProxy

open Json Text TwoRuns

/-- Two texts that begin with a billing header line each, and are the same behind it. -/
def HeaderVariant (first second : String) : Prop :=
  ∃ line other tail, first.toList = billingHeaderPrefix ++ line ++ tail ∧
    second.toList = billingHeaderPrefix ++ other ++ tail ∧
    (∀ character ∈ line ++ other, isLineBreak character = false) ∧
    ∀ character ∈ tail.head?, isLineBreak character = true

def Under (key : String) (related : Value → Value → Prop) (name : String)
    (value other : Value) : Prop :=
  name = key ∧ related value other

def ObjectsAlike (related : String → Value → Value → Prop) (value other : Value) : Prop :=
  ∃ fields others, value = .object fields ∧ other = .object others ∧
    Map.Alike related fields others

def ArraysAlike (related : Value → Value → Prop) (value other : Value) : Prop :=
  ∃ items others, value = .array items ∧ other = .array others ∧
    List.Forall₂ related items others

def TextVariant (value other : Value) : Prop :=
  ∃ first second, value = .string first ∧ other = .string second ∧ HeaderVariant first second

def SystemBlockVariant (block other : Value) : Prop :=
  block = other ∨ ObjectsAlike (Under "text" TextVariant) block other

def SystemVariant (value other : Value) : Prop :=
  TextVariant value other ∨ ArraysAlike SystemBlockVariant value other

def isToolUse (block : Value) : Bool :=
  (block.get "type").bind Value.asStr == some "tool_use" ||
    (block.get "type").bind Value.asStr == some "server_tool_use"

def BlockVariant (block other : Value) : Prop :=
  block = other ∨ isToolUse block = true ∧ ObjectsAlike (Under "input" Reordered) block other

def MessageVariant (message other : Value) : Prop :=
  message = other ∨
    role message = some "system" ∧ ObjectsAlike (Under "content" SystemVariant) message other ∨
    role message = some "assistant" ∧
      ObjectsAlike (Under "content" (ArraysAlike BlockVariant)) message other

/-- What the two members of a request may differ in. -/
def RequestMember (name : String) (value other : Value) : Prop :=
  Under "system" SystemVariant name value other ∨
    Under "messages" (ArraysAlike MessageVariant) name value other

def RequestVariant (request other : Value) : Prop := ObjectsAlike RequestMember request other

def messageInputs (message : Value) : List Value :=
  (roleBlocks "assistant" message).filterMap (Value.get "input")

def toolInputs (request : Value) : List Value :=
  (inputMessages request).flatMap messageInputs

/-- Reading a document back from its text may round its numbers. -/
def ReadBack (codec : Codec) (round : Number → Number) (value : Value) : Prop :=
  value.Distinct ∧ codec.fromStr (codec.toText value) = some (value.mapNumbers round)

def afterLineBreak : List Char → List Char
  | [] => []
  | first :: rest => if first = '\r' ∧ rest.head? = some '\n' then rest.tail else rest

theorem stripBillingHeader_line {text : String} {line tail : List Char}
    (shape : text.toList = billingHeaderPrefix ++ line ++ tail)
    (unbroken : ∀ character ∈ line, isLineBreak character = false)
    (broken : ∀ character ∈ tail.head?, isLineBreak character = true) :
    stripBillingHeader text = String.ofList (afterLineBreak tail) := by
  have starts : startsWith billingHeaderPrefix (billingHeaderPrefix ++ line ++ tail) = true := by
    rw [startsWith, List.isPrefixOf_iff_prefix, List.append_assoc]
    exact List.prefix_append _ _
  have behind : (billingHeaderPrefix ++ line ++ tail).drop billingHeaderPrefix.length =
      line ++ tail := by
    rw [List.append_assoc, List.drop_left]
  have line_ : (line.findIdx? isLineBreak) = none :=
    List.findIdx?_eq_none_iff.mpr unbroken
  rw [stripBillingHeader, shape, billingHeaderCut, if_pos starts]
  dsimp only
  rw [behind, List.findIdx?_append, line_, Option.none_or]
  cases tail with
  | nil => simp [afterLineBreak, startsWith]
  | cons character rest =>
      have breaks : isLineBreak character = true := broken character rfl
      have length : billingHeaderPrefix.length + (0 + line.length) =
          (billingHeaderPrefix ++ line).length := by simp
      have more (count : Nat) : (billingHeaderPrefix ++ line ++ character :: rest).drop
          ((billingHeaderPrefix ++ line).length + count) = (character :: rest).drop count := by
        rw [← List.drop_drop, List.drop_left]
      have here := more 0
      rw [Nat.add_zero, List.drop_zero] at here
      rw [List.findIdx?_cons, if_pos breaks, Option.map_some]
      dsimp only
      simp only [length, here]
      clear shape starts behind length
      generalize billingHeaderPrefix ++ line = header at more here ⊢
      rcases (Bool.or_eq_true _ _).mp breaks with newline | carriage
      · obtain rfl : character = '\n' := by simpa using newline
        simp [startsWith, more, afterLineBreak]
      · obtain rfl : character = '\r' := by simpa using carriage
        cases rest with
        | nil => simp [startsWith, more, afterLineBreak]
        | cons second rest =>
            by_cases newline : second = '\n'
            · subst newline
              simp [startsWith, more, afterLineBreak]
            · simp [startsWith, afterLineBreak, newline, Ne.symm newline]

theorem HeaderVariant.strip {first second : String} (variant : HeaderVariant first second) :
    stripBillingHeader first = stripBillingHeader second := by
  obtain ⟨line, other, tail, firstShape, secondShape, unbroken, broken⟩ := variant
  rw [stripBillingHeader_line firstShape
      (fun character member => unbroken character (List.mem_append_left _ member)) broken,
    stripBillingHeader_line secondShape
      (fun character member => unbroken character (List.mem_append_right _ member)) broken]

theorem get_alike {related : String → Value → Value → Prop} {fields others : Map}
    (alike : Map.Alike related fields others) {query : String}
    (silent : ∀ value other, ¬related query value other) :
    (Value.object fields).get query = (Value.object others).get query :=
  alike.get_eq silent

theorem requiredString_alike {related : String → Value → Value → Prop} {fields others : Map}
    (alike : Map.Alike related fields others) {name : String}
    (silent : ∀ value other, ¬related name value other) :
    requiredString fields name = requiredString others name := by
  rw [requiredString, requiredString, alike.get_eq silent]

theorem stripBillingBlock_textBlock (text : String) :
    stripBillingBlock (textBlock text) = textBlock (stripBillingHeader text) := by
  simp [stripBillingBlock, textBlock, OrderedMap.lookup, Value.update, Map.update, stripBillingText]

theorem convertSystemBlock_variant {index : Nat} {block other converted otherConverted : Value}
    (variant : SystemBlockVariant block other)
    (done : convertSystemBlock index block = .ok converted)
    (otherDone : convertSystemBlock index other = .ok otherConverted) :
    stripBillingBlock converted = stripBillingBlock otherConverted := by
  rcases variant with rfl | ⟨fields, others, rfl, rfl, alike⟩
  · rw [done] at otherDone
    rw [Except.ok.inj otherDone]
  · obtain ⟨object, isObject, step⟩ := bind_eq_ok.mp done
    obtain ⟨otherObject, otherIsObject, otherStep⟩ := bind_eq_ok.mp otherDone
    obtain rfl := Option.some.inj (orReject_eq_ok.mp isObject)
    obtain rfl := Option.some.inj (orReject_eq_ok.mp otherIsObject)
    obtain ⟨kind, -, step⟩ := bind_eq_ok.mp step
    obtain ⟨otherKind, -, otherStep⟩ := bind_eq_ok.mp otherStep
    split at step
    next => cases step
    next =>
      split at otherStep
      next => cases otherStep
      next =>
        obtain ⟨text, given, rfl⟩ := map_eq_ok.mp step
        obtain ⟨otherText, otherGiven, rfl⟩ := map_eq_ok.mp otherStep
        rw [stripBillingBlock_textBlock, stripBillingBlock_textBlock]
        have found := alike.get "text"
        have present := (requiredString_eq_ok.mp given).1
        have otherPresent := (requiredString_eq_ok.mp otherGiven).1
        obtain ⟨value, isValue, isText⟩ := Option.bind_eq_some_iff.mp present
        obtain ⟨otherValue, isOther, isOtherText⟩ := Option.bind_eq_some_iff.mp otherPresent
        obtain rfl := Value.asStr_eq_some isText
        obtain rfl := Value.asStr_eq_some isOtherText
        rw [isValue, isOther] at found
        cases found with
        | some same =>
            rcases same with equal | ⟨-, first, second, equal, otherEqual, header⟩
            · rw [Value.string.inj equal]
            · rw [Value.string.inj equal, Value.string.inj otherEqual, header.strip]

theorem convertSystem_variant {value other converted otherConverted : Value}
    (variant : SystemVariant value other) (done : convertSystem value = .ok converted)
    (otherDone : convertSystem other = .ok otherConverted) :
    stripBillingSystem converted = stripBillingSystem otherConverted := by
  rcases variant with ⟨first, second, rfl, rfl, header⟩ | ⟨items, others, rfl, rfl, pairs⟩
  · cases done
    cases otherDone
    rw [stripBillingSystem, stripBillingSystem, header.strip]
  · obtain ⟨blocks, step, rfl⟩ := map_eq_ok.mp done
    obtain ⟨otherBlocks, otherStep, rfl⟩ := map_eq_ok.mp otherDone
    have stripped : List.Forall₂ (fun block other => stripBillingBlock block =
        stripBillingBlock other) blocks otherBlocks := by
      refine forall₂_mapM ?_ (forall₂_zipIdx pairs 0) step otherStep
      rintro ⟨first, index⟩ ⟨second, otherIndex⟩ _ _ ⟨same, rfl⟩ firstDone secondDone
      exact convertSystemBlock_variant same firstDone secondDone
    rw [stripBillingSystem, stripBillingSystem, Value.array.injEq]
    exact List.forall₂_eq_eq_eq ▸ List.forall₂_map_left_iff.mpr
      (List.forall₂_map_right_iff.mpr stripped)

section Turns

variable (codec : Codec) (round : Number → Number)

/-- Calls whose arguments are the same input in another order. -/
inductive CallVariant : Value → Value → Prop
  | same (call : Value) : CallVariant call call
  | reordered (id name : String) {input other : Value} : Reordered input other →
      ReadBack codec round input → ReadBack codec round other →
      CallVariant (toolCall id name (codec.toText input)) (toolCall id name (codec.toText other))

inductive WireVariant : WireMessage → WireMessage → Prop
  | same (message : WireMessage) : WireVariant message message
  | system {content other : Value} : stripBillingSystem content = stripBillingSystem other →
      WireVariant (.system content) (.system other)
  | assistant (content : List Value) (reasoning : String) {calls others : List Value} :
      List.Forall₂ (CallVariant codec round) calls others →
      WireVariant (.assistant content calls reasoning) (.assistant content others reasoning)

structure TurnVariant (turn other : AssistantTurn) : Prop where
  output : List.Forall₂ (WireVariant codec round) turn.output other.output
  content : turn.segment.content = other.segment.content
  toolCalls : List.Forall₂ (CallVariant codec round) turn.segment.toolCalls other.segment.toolCalls
  reasoning : turn.segment.reasoning = other.segment.reasoning
  serverCalls : List.Forall₂ (CallVariant codec round) turn.serverCalls other.serverCalls
  pendingServerIds : turn.pendingServerIds = other.pendingServerIds
  seenServerResults : turn.seenServerResults = other.seenServerResults
  pendingToolIds : turn.pendingToolIds = other.pendingToolIds

variable {codec round} {turn next other further : AssistantTurn}

theorem isEmpty_forall₂ {related : Value → Value → Prop} {items others : List Value}
    (pairs : List.Forall₂ related items others) : items.isEmpty = others.isEmpty := by
  cases pairs <;> rfl

theorem TurnVariant.isEmpty (variant : TurnVariant codec round turn other) :
    turn.segment.isEmpty = other.segment.isEmpty := by
  rw [Segment.isEmpty, Segment.isEmpty, variant.content, variant.reasoning,
    isEmpty_forall₂ variant.toolCalls]

theorem TurnVariant.flush (variant : TurnVariant codec round turn other) :
    TurnVariant codec round turn.flush other.flush := by
  rw [AssistantTurn.flush, AssistantTurn.flush, variant.isEmpty]
  split
  next => exact variant
  next =>
    refine ⟨List.rel_append variant.output (.cons ?_ .nil), rfl, .nil, rfl, variant.serverCalls,
      variant.pendingServerIds, variant.seenServerResults, variant.pendingToolIds⟩
    rw [variant.content, variant.reasoning]
    exact .assistant _ _ variant.toolCalls

theorem TurnVariant.flushServerCalls (variant : TurnVariant codec round turn other) :
    TurnVariant codec round turn.flushServerCalls other.flushServerCalls := by
  rw [AssistantTurn.flushServerCalls, AssistantTurn.flushServerCalls,
    isEmpty_forall₂ variant.serverCalls]
  split
  next => exact variant
  next =>
    exact ⟨List.rel_append variant.output (.cons (.assistant _ _ variant.serverCalls) .nil),
      variant.content, variant.toolCalls, variant.reasoning, .nil, variant.pendingServerIds,
      variant.seenServerResults, variant.pendingToolIds⟩

variable {fields others : Map}

def InputsRead (codec : Codec) (round : Number → Number) (fields others : Map) : Prop :=
  ∀ input, fields.get "input" = some input ∨ others.get "input" = some input →
    ReadBack codec round input

theorem call_variant (id name : String) (alike : Map.Alike (Under "input" Reordered) fields others)
    (read : InputsRead codec round fields others) :
    CallVariant codec round
      (toolCall id name (codec.toText ((fields.get "input").getD (.object []))))
      (toolCall id name (codec.toText ((others.get "input").getD (.object [])))) := by
  have found := alike.get "input"
  rw [InputsRead] at read
  generalize fields.get "input" = input, others.get "input" = otherInput at found read ⊢
  cases found with
  | none => exact .same _
  | some same =>
      rcases same with rfl | ⟨-, moved⟩
      · exact .same _
      · exact .reordered id name moved (read _ (.inl rfl)) (read _ (.inr rfl))

theorem toolUse_variant (variant : TurnVariant codec round turn other)
    (alike : Map.Alike (Under "input" Reordered) fields others)
    (read : InputsRead codec round fields others)
    (done : assistantToolUse codec fields turn = .ok next)
    (otherDone : assistantToolUse codec others other = .ok further) :
    TurnVariant codec round next further := by
  obtain ⟨_, -, step⟩ := bind_eq_ok.mp done
  obtain ⟨id, isId, step⟩ := bind_eq_ok.mp step
  obtain ⟨name, isName, step⟩ := bind_eq_ok.mp step
  obtain ⟨_, -, otherStep⟩ := bind_eq_ok.mp otherDone
  obtain ⟨otherId, otherIsId, otherStep⟩ := bind_eq_ok.mp otherStep
  obtain ⟨otherName, otherIsName, otherStep⟩ := bind_eq_ok.mp otherStep
  rw [← requiredString_alike alike (by simp [Under]), isId] at otherIsId
  rw [← requiredString_alike alike (by simp [Under]), isName] at otherIsName
  cases otherIsId
  cases otherIsName
  cases step
  cases otherStep
  exact ⟨variant.output, variant.content,
    List.rel_append variant.toolCalls (.cons (call_variant id name alike read) .nil),
    variant.reasoning, variant.serverCalls, variant.pendingServerIds, variant.seenServerResults,
    congrArg (List.insert id) variant.pendingToolIds⟩

theorem serverToolUse_variant (variant : TurnVariant codec round turn other)
    (alike : Map.Alike (Under "input" Reordered) fields others)
    (read : InputsRead codec round fields others)
    (done : assistantServerToolUse codec fields turn = .ok next)
    (otherDone : assistantServerToolUse codec others other = .ok further) :
    TurnVariant codec round next further := by
  have flushed := variant.flush
  obtain ⟨id, isId, step⟩ := bind_eq_ok.mp done
  obtain ⟨otherId, otherIsId, otherStep⟩ := bind_eq_ok.mp otherDone
  rw [← requiredString_alike alike (by simp [Under]), isId] at otherIsId
  cases otherIsId
  split at step
  next => cases step
  next =>
    split at otherStep
    next => cases otherStep
    next =>
      dsimp only at step otherStep
      split at step
      next => cases step
      next =>
        split at otherStep
        next => cases otherStep
        next =>
          obtain ⟨name, isName, step⟩ := bind_eq_ok.mp step
          obtain ⟨otherName, otherIsName, otherStep⟩ := bind_eq_ok.mp otherStep
          rw [← requiredString_alike alike (by simp [Under]), isName] at otherIsName
          cases otherIsName
          cases step
          cases otherStep
          exact ⟨flushed.output, flushed.content, flushed.toolCalls, flushed.reasoning,
            List.rel_append flushed.serverCalls (.cons (call_variant id name alike read) .nil),
            congrArg (· ++ [id]) flushed.pendingServerIds, flushed.seenServerResults,
            flushed.pendingToolIds⟩

theorem searchResult_variant {block : Value} {object : Map}
    (variant : TurnVariant codec round turn other)
    (done : assistantSearchResult block object turn = .ok next)
    (otherDone : assistantSearchResult block object other = .ok further) :
    TurnVariant codec round next further := by
  have flushed := variant.flushServerCalls
  obtain ⟨id, isId, step⟩ := bind_eq_ok.mp done
  obtain ⟨otherId, otherIsId, otherStep⟩ := bind_eq_ok.mp otherDone
  rw [isId] at otherIsId
  cases otherIsId
  split at step
  next => cases step
  next =>
    split at step
    next => cases step
    next =>
      split at otherStep
      next => cases otherStep
      next =>
        split at otherStep
        next => cases otherStep
        next =>
          obtain ⟨text, isText, step⟩ := bind_eq_ok.mp step
          obtain ⟨otherText, otherIsText, otherStep⟩ := bind_eq_ok.mp otherStep
          rw [isText] at otherIsText
          cases otherIsText
          cases step
          cases otherStep
          exact ⟨List.rel_append flushed.output (.cons (.same _) .nil), flushed.content,
            flushed.toolCalls, flushed.reasoning, flushed.serverCalls, flushed.pendingServerIds,
            congrArg (· ++ [id]) flushed.seenServerResults, flushed.pendingToolIds⟩

theorem text_variant {object : Map} (variant : TurnVariant codec round turn other)
    (done : assistantText object turn = .ok next)
    (otherDone : assistantText object other = .ok further) :
    TurnVariant codec round next further := by
  obtain ⟨_, -, step⟩ := bind_eq_ok.mp done
  obtain ⟨text, isText, step⟩ := bind_eq_ok.mp step
  obtain ⟨_, -, otherStep⟩ := bind_eq_ok.mp otherDone
  obtain ⟨otherText, otherIsText, otherStep⟩ := bind_eq_ok.mp otherStep
  rw [isText] at otherIsText
  cases otherIsText
  cases step
  cases otherStep
  exact ⟨variant.output, congrArg (· ++ [text]) variant.content, variant.toolCalls,
    variant.reasoning, variant.serverCalls, variant.pendingServerIds, variant.seenServerResults,
    variant.pendingToolIds⟩

theorem TurnVariant.thinking (object : Map) (variant : TurnVariant codec round turn other) :
    TurnVariant codec round (assistantThinking object turn) (assistantThinking object other) :=
  ⟨variant.output, variant.content, variant.toolCalls,
    congrArg (· ++ ((object.get "thinking").bind Value.asStr).getD "") variant.reasoning,
    variant.serverCalls, variant.pendingServerIds, variant.seenServerResults,
    variant.pendingToolIds⟩

def BlocksRead (codec : Codec) (round : Number → Number) (block second : Value) : Prop :=
  ∀ input, block.get "input" = some input ∨ second.get "input" = some input →
    ReadBack codec round input

theorem block_variant {block second : Value} (variant : TurnVariant codec round turn other)
    (blocks : BlockVariant block second) (read : BlocksRead codec round block second)
    (done : convertAssistantBlock codec turn block = .ok next)
    (otherDone : convertAssistantBlock codec other second = .ok further) :
    TurnVariant codec round next further := by
  obtain ⟨object, isObject, step⟩ := bind_eq_ok.mp done
  obtain ⟨otherObject, otherIsObject, otherStep⟩ := bind_eq_ok.mp otherDone
  obtain rfl := Value.asObject_eq_some (orReject_eq_ok.mp isObject)
  obtain rfl := Value.asObject_eq_some (orReject_eq_ok.mp otherIsObject)
  obtain ⟨kind, isKind, step⟩ := bind_eq_ok.mp step
  obtain ⟨otherKind, otherIsKind, otherStep⟩ := bind_eq_ok.mp otherStep
  rcases blocks with same | ⟨used, fields, others, equal, otherEqual, alike⟩
  · obtain rfl := Value.object.inj same
    rw [isKind] at otherIsKind
    obtain rfl := Except.ok.inj otherIsKind
    split at step
    next => exact text_variant variant step otherStep
    next =>
      cases step
      cases otherStep
      exact variant.thinking object
    next =>
      cases step
      cases otherStep
      exact variant
    next => exact toolUse_variant variant (.refl object) read step otherStep
    next => exact serverToolUse_variant variant (.refl object) read step otherStep
    next => exact searchResult_variant variant step otherStep
    next => cases step
  · obtain rfl := Value.object.inj equal
    obtain rfl := Value.object.inj otherEqual
    rw [← requiredString_alike alike (by simp [Under]), isKind] at otherIsKind
    obtain rfl := Except.ok.inj otherIsKind
    have present := (requiredString_eq_ok.mp isKind).1
    rw [Map.get] at present
    simp only [isToolUse, Value.get_object, present, Bool.or_eq_true, beq_iff_eq,
      Option.some.injEq] at used
    rcases used with rfl | rfl
    · exact toolUse_variant variant alike read step otherStep
    · exact serverToolUse_variant variant alike read step otherStep

theorem finish_variant {messages others : List WireMessage}
    (variant : TurnVariant codec round turn other) (done : turn.finish = .ok messages)
    (otherDone : other.finish = .ok others) :
    List.Forall₂ (WireVariant codec round) messages others := by
  rw [AssistantTurn.finish] at done otherDone
  split at done
  next => cases done
  next =>
    split at otherDone
    next => cases otherDone
    next =>
      obtain rfl := Except.ok.inj done
      obtain rfl := Except.ok.inj otherDone
      have flushed := variant.flush.output
      generalize turn.flush.output = output, other.flush.output = otherOutput at flushed ⊢
      cases flushed with
      | nil => exact .cons (.same _) .nil
      | cons head tail => exact .cons head tail

theorem turnVariant_start : TurnVariant codec round .start .start :=
  ⟨.nil, rfl, .nil, rfl, .nil, rfl, rfl, rfl⟩

theorem blocks_variant {blocks seconds : List Value} {messages others : List WireMessage}
    {pending left : List String} (pairs : List.Forall₂ BlockVariant blocks seconds)
    (read : ∀ block ∈ blocks ++ seconds, ∀ input, block.get "input" = some input →
      ReadBack codec round input)
    (done : convertAssistantBlocks codec blocks = .ok (messages, pending))
    (otherDone : convertAssistantBlocks codec seconds = .ok (others, left)) :
    List.Forall₂ (WireVariant codec round) messages others ∧ pending = left := by
  obtain ⟨last, folded, step⟩ := bind_eq_ok.mp done
  obtain ⟨result, finished, step⟩ := bind_eq_ok.mp step
  obtain ⟨otherLast, otherFolded, otherStep⟩ := bind_eq_ok.mp otherDone
  obtain ⟨otherResult, otherFinished, otherStep⟩ := bind_eq_ok.mp otherStep
  cases step
  cases otherStep
  have variant : TurnVariant codec round last otherLast := by
    refine foldlM_related ?_ pairs turnVariant_start folded otherFolded
    intro turn other block second next further member otherMember variant same step otherStep
    refine block_variant variant same ?_ step otherStep
    rintro input (given | given)
    · exact read block (List.mem_append_left _ member) input given
    · exact read second (List.mem_append_right _ otherMember) input given
  exact ⟨finish_variant variant finished otherFinished, variant.pendingToolIds⟩

theorem same_messages (messages : List WireMessage) :
    List.Forall₂ (WireVariant codec round) messages messages :=
  List.forall₂_same.mpr fun message _ => .same message

theorem requiredString_role {fields : Map} {name speaker : String}
    (found : requiredString fields "role" = .ok name)
    (known : role (.object fields) = some speaker) : name = speaker :=
  Option.some.inj ((requiredString_eq_ok.mp found).1.symm.trans known)

theorem get_related {related : Value → Value → Prop} {key : String} {fields others : Map}
    {value other : Value} (alike : Map.Alike (Under key related) fields others)
    (given : fields.get key = some value) (otherGiven : others.get key = some other) :
    value = other ∨ related value other := by
  have found := alike.get key
  rw [given, otherGiven] at found
  cases found with
  | some same => exact same.imp_right And.right

theorem systemMessage_variant {index : Nat} {pending left right : List String}
    {fields seconds : Map} {messages others : List WireMessage}
    (speaker : role (.object fields) = some "system")
    (alike : Map.Alike (Under "content" SystemVariant) fields seconds)
    (done : convertMessage codec index pending (.object fields) = .ok (messages, left))
    (otherDone : convertMessage codec index pending (.object seconds) = .ok (others, right)) :
    List.Forall₂ (WireVariant codec round) messages others ∧ left = right := by
  obtain ⟨object, isObject, step⟩ := bind_eq_ok.mp done
  obtain rfl := Option.some.inj (orReject_eq_ok.mp isObject)
  obtain ⟨otherObject, otherIsObject, otherStep⟩ := bind_eq_ok.mp otherDone
  obtain rfl := Option.some.inj (orReject_eq_ok.mp otherIsObject)
  obtain ⟨name, isName, step⟩ := bind_eq_ok.mp step
  obtain ⟨otherName, otherIsName, otherStep⟩ := bind_eq_ok.mp otherStep
  rw [← requiredString_alike alike (by simp [Under]), isName] at otherIsName
  obtain rfl := Except.ok.inj otherIsName
  obtain rfl := requiredString_role isName speaker
  rw [if_neg (by decide)] at step otherStep
  obtain ⟨content, given, step⟩ := bind_eq_ok.mp step
  obtain ⟨otherContent, otherGiven, otherStep⟩ := bind_eq_ok.mp otherStep
  rw [if_pos rfl] at step otherStep
  obtain ⟨converted, isConverted, step⟩ := bind_eq_ok.mp step
  obtain ⟨otherConverted, otherIsConverted, otherStep⟩ := bind_eq_ok.mp otherStep
  cases step
  cases otherStep
  refine ⟨.cons ?_ .nil, rfl⟩
  rcases get_related alike (orReject_eq_ok.mp given) (orReject_eq_ok.mp otherGiven) with
    rfl | variant
  · rw [isConverted] at otherIsConverted
    obtain rfl := Except.ok.inj otherIsConverted
    exact .same _
  · exact .system (convertSystem_variant variant isConverted otherIsConverted)

theorem mem_messageInputs {fields : Map} {blocks : List Value} {block input : Value}
    (speaker : role (.object fields) = some "assistant")
    (given : fields.get "content" = some (.array blocks)) (member : block ∈ blocks)
    (found : block.get "input" = some input) : input ∈ messageInputs (.object fields) := by
  have assistant : stringMember "role" (.object fields) = "assistant" :=
    congrArg (fun name : Option String => name.getD "") speaker
  rw [Map.get] at given
  have all : roleBlocks "assistant" (.object fields) = blocks := by
    rw [roleBlocks, if_pos assistant, Value.get_object, given]
    rfl
  rw [messageInputs, all]
  exact List.mem_filterMap.mpr ⟨block, member, found⟩

theorem assistantMessage_variant {index : Nat} {pending left right : List String}
    {fields seconds : Map} {messages others : List WireMessage}
    (speaker : role (.object fields) = some "assistant")
    (alike : Map.Alike (Under "content" (ArraysAlike BlockVariant)) fields seconds)
    (read : ∀ input ∈ messageInputs (.object fields) ++ messageInputs (.object seconds),
      ReadBack codec round input)
    (done : convertMessage codec index pending (.object fields) = .ok (messages, left))
    (otherDone : convertMessage codec index pending (.object seconds) = .ok (others, right)) :
    List.Forall₂ (WireVariant codec round) messages others ∧ left = right := by
  have otherSpeaker : role (.object seconds) = some "assistant" := by
    rw [← speaker, role, role, get_alike alike (by simp [Under])]
  obtain ⟨object, isObject, step⟩ := bind_eq_ok.mp done
  obtain rfl := Option.some.inj (orReject_eq_ok.mp isObject)
  obtain ⟨otherObject, otherIsObject, otherStep⟩ := bind_eq_ok.mp otherDone
  obtain rfl := Option.some.inj (orReject_eq_ok.mp otherIsObject)
  obtain ⟨name, isName, step⟩ := bind_eq_ok.mp step
  obtain ⟨otherName, otherIsName, otherStep⟩ := bind_eq_ok.mp otherStep
  obtain rfl := requiredString_role isName speaker
  obtain rfl := requiredString_role otherIsName otherSpeaker
  rw [if_neg (by decide)] at step otherStep
  obtain ⟨content, given, step⟩ := bind_eq_ok.mp step
  obtain ⟨otherContent, otherGiven, otherStep⟩ := bind_eq_ok.mp otherStep
  rw [if_neg (by decide)] at step otherStep
  rw [orReject_eq_ok] at given otherGiven
  have related := get_related alike given otherGiven
  by_cases text : content.isString = true
  · have same : content = otherContent := by
      refine related.resolve_right ?_
      rintro ⟨items, _, rfl, -, -⟩
      cases text
    subst same
    rw [if_pos text] at step otherStep
    cases step
    cases otherStep
    exact ⟨same_messages _, rfl⟩
  · have pairs : ∀ blocks seconds, content.asArray = some blocks →
        otherContent.asArray = some seconds → List.Forall₂ BlockVariant blocks seconds := by
      intro blocks seconds isArray otherIsArray
      obtain rfl := Value.asArray_eq_some isArray
      obtain rfl := Value.asArray_eq_some otherIsArray
      rcases related with same | ⟨_, _, equal, otherEqual, pairs⟩
      · obtain rfl := Value.array.inj same
        exact List.forall₂_same.mpr fun _ _ => .inl rfl
      · obtain rfl := Value.array.inj equal
        obtain rfl := Value.array.inj otherEqual
        exact pairs
    have otherText : ¬otherContent.isString = true := by
      rcases related with rfl | ⟨_, _, -, rfl, -⟩
      · exact text
      · simp [Value.isString, Value.asStr]
    rw [if_neg text] at step
    rw [if_neg otherText] at otherStep
    obtain ⟨blocks, isBlocks, step⟩ := bind_eq_ok.mp step
    obtain ⟨otherBlocks, otherIsBlocks, otherStep⟩ := bind_eq_ok.mp otherStep
    rw [if_pos rfl] at step otherStep
    rw [orReject_eq_ok] at isBlocks otherIsBlocks
    refine blocks_variant (pairs _ _ isBlocks otherIsBlocks) ?_ step otherStep
    obtain rfl := Value.asArray_eq_some isBlocks
    obtain rfl := Value.asArray_eq_some otherIsBlocks
    intro block member input found
    rcases List.mem_append.mp member with inFirst | inSecond
    · exact read input (List.mem_append_left _ (mem_messageInputs speaker given inFirst found))
    · exact read input
        (List.mem_append_right _ (mem_messageInputs otherSpeaker otherGiven inSecond found))

theorem message_variant {index : Nat} {pending left right : List String} {message second : Value}
    {messages others : List WireMessage} (variant : MessageVariant message second)
    (read : ∀ input ∈ messageInputs message ++ messageInputs second, ReadBack codec round input)
    (done : convertMessage codec index pending message = .ok (messages, left))
    (otherDone : convertMessage codec index pending second = .ok (others, right)) :
    List.Forall₂ (WireVariant codec round) messages others ∧ left = right := by
  rcases variant with rfl | ⟨speaker, fields, seconds, rfl, rfl, alike⟩ |
    ⟨speaker, fields, seconds, rfl, rfl, alike⟩
  · rw [done] at otherDone
    obtain ⟨rfl, rfl⟩ := Prod.mk.inj (Except.ok.inj otherDone)
    exact ⟨same_messages _, rfl⟩
  · exact systemMessage_variant speaker alike done otherDone
  · exact assistantMessage_variant speaker alike read done otherDone

theorem messages_variant {inputs seconds : List Value} {messages others : List WireMessage}
    {index : Nat} {pending : List String} (pairs : List.Forall₂ MessageVariant inputs seconds)
    (read : ∀ input ∈ inputs.flatMap messageInputs ++ seconds.flatMap messageInputs,
      ReadBack codec round input)
    (done : convertMessages codec index pending inputs = .ok messages)
    (otherDone : convertMessages codec index pending seconds = .ok others) :
    List.Forall₂ (WireVariant codec round) messages others := by
  induction pairs generalizing messages others index pending with
  | nil =>
      cases done
      cases otherDone
      exact .nil
  | @cons message second rest others head _ ih =>
      obtain ⟨⟨first, left⟩, isFirst, step⟩ := bind_eq_ok.mp done
      obtain ⟨later, isLater, step⟩ := bind_eq_ok.mp step
      obtain ⟨⟨otherFirst, right⟩, otherIsFirst, otherStep⟩ := bind_eq_ok.mp otherDone
      obtain ⟨otherLater, otherIsLater, otherStep⟩ := bind_eq_ok.mp otherStep
      cases step
      cases otherStep
      simp only [List.flatMap_cons, List.mem_append] at read
      obtain ⟨wires, rfl⟩ := message_variant head (fun input member =>
        read input ((List.mem_append.mp member).imp .inl .inl)) isFirst otherIsFirst
      exact List.rel_append wires (ih (fun input member =>
        read input ((List.mem_append.mp member).imp .inr .inr)) isLater otherIsLater)

end Turns

end ClineProxy
