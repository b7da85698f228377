import ClineProxy.KeptTurns

/-!
The turns of a tool loop in the conversation of a client that is shown the thinking, and in that of
one that is not.
-/

namespace ClineProxy

open Json CallChain

def shownReasoning (exposeThinking : Bool) (upstream : Value) : String :=
  if exposeThinking then reasoningText (upstreamMessage upstream) else ""

theorem convertResponse_shown {platform : Platform} {upstream value : Value}
    {requestId fallbackModel : String} {exposeThinking : Bool} {calls : List ReplayedCall}
    (reads : List.Forall₂ (CallReads platform.codec) (upstreamCalls upstream) calls)
    (done : convertResponse platform upstream requestId fallbackModel exposeThinking = .ok value) :
    value.get "content" = some (.array
      (thinkingContent platform requestId (shownReasoning exposeThinking upstream) ++
        (upstreamTexts upstream).map textContent ++ calls.map ReplayedCall.block)) := by
  obtain ⟨choice, chosen, done⟩ := bind_eq_ok.mp done
  obtain ⟨message, held, done⟩ := bind_eq_ok.mp done
  obtain ⟨tools, converted, done⟩ := bind_eq_ok.mp done
  cases done
  have first : firstChoice upstream = some choice := by
    cases found : firstChoice upstream <;> rw [found] at chosen <;> cases chosen
    rfl
  have same : upstreamMessage upstream = message := by
    rw [upstreamMessage, first, Option.bind_some]
    cases found : (choice.get "message").bind Value.asObject <;> rw [found] at held <;>
      cases held
    rfl
  rw [shownReasoning]
  rw [← same] at converted ⊢
  obtain rfl := Except.ok.inj ((convertToolCalls_reads reads).symm.trans converted)
  rw [messageText_contentTexts]
  rfl

theorem answerMessages_first (segment : Segment) : answerMessages segment [] =
    [.assistant segment.content segment.toolCalls segment.reasoning] := by
  simp [answerMessages]

/-- An answer with calls, what a client holds of it that is shown the thinking or that is not, and
what it answers to the calls. -/
structure LoopTurn where
  upstream : Value
  held : Bool → Value
  calls : List ReplayedCall
  answers : List ToolAnswer

namespace LoopTurn

def reasoning (turn : LoopTurn) : String := reasoningText (upstreamMessage turn.upstream)

def ids (turn : LoopTurn) : List String := turn.calls.map ReplayedCall.id

/-- Every call is read and answered. -/
structure Answered (codec : Codec) (turn : LoopTurn) : Prop where
  reads : List.Forall₂ (CallReads codec) (upstreamCalls turn.upstream) turn.calls
  called : turn.calls ≠ []
  distinct : turn.ids.Nodup
  answers : (turn.answers.map ToolAnswer.callId).Perm turn.ids

/-- The client holds the content of the answer. -/
def Holds (platform : Platform) (exposeThinking : Bool) (turn : LoopTurn) : Prop :=
  ∃ requestId fallbackModel response,
    convertResponse platform turn.upstream requestId fallbackModel exposeThinking = .ok response ∧
      (turn.held exposeThinking).get "content" = response.get "content"

/-- What the client sends back. -/
def replayed (codec : Codec) (exposeThinking : Bool) (turn : LoopTurn) : List Value :=
  replayedTurn codec [] (turn.held exposeThinking) turn.answers

def spoken (codec : Codec) (exposeThinking : Bool) (turn : LoopTurn) : WireMessage :=
  .assistant ((upstreamTexts turn.upstream).map textBlock)
    (turn.calls.map (ReplayedCall.sent codec)) (shownReasoning exposeThinking turn.upstream)

def wire (codec : Codec) (exposeThinking : Bool) (turn : LoopTurn) : List WireMessage :=
  turn.spoken codec exposeThinking :: turn.answers.map ToolAnswer.message

variable {platform : Platform} {exposeThinking : Bool} {turn : LoopTurn}

theorem convertAssistantBlocks_held (answered : turn.Answered platform.codec)
    (holds : turn.Holds platform exposeThinking) :
    ∃ declared, (∀ id, id ∈ declared ↔ id ∈ turn.ids) ∧
      convertAssistantBlocks platform.codec
          (replayedBlocks platform.codec [] (turn.held exposeThinking)) =
        .ok ([turn.spoken platform.codec exposeThinking], declared) := by
  obtain ⟨requestId, fallbackModel, response, done, same⟩ := holds
  let thought : AssistantTurn := { AssistantTurn.start with
    segment := ⟨[], [], shownReasoning exposeThinking turn.upstream⟩ }
  have thinking : (thinkingContent platform requestId
      (shownReasoning exposeThinking turn.upstream)).foldlM (convertAssistantBlock platform.codec)
      .start = .ok thought := by
    refine (thinkingContent_turn platform platform.codec .start requestId _).trans ?_
    rw [show AssistantTurn.start.segment.reasoning = "" from rfl, String.empty_append]
    rfl
  let said : AssistantTurn := { thought with
    segment := { thought.segment with content := (upstreamTexts turn.upstream).map textBlock } }
  have texts : ((upstreamTexts turn.upstream).map textContent).foldlM
      (convertAssistantBlock platform.codec) thought = .ok said :=
    texts_turn (contentTexts_filled _) rfl
  obtain ⟨declared, mem, called⟩ := @calls_turn platform.codec said turn.calls rfl
  refine ⟨declared, fun id => by simp [mem, said, thought, AssistantTurn.start, ids], ?_⟩
  rw [replayedBlocks, same, convertResponse_shown answered.reads done, convertAssistantBlocks]
  simp only [List.flatMap_nil, List.nil_append, Option.bind_some, Value.asArray_array,
    Option.getD_some, List.foldlM_append, thinking, texts, called, bind, Except.bind]
  rw [finish_turn rfl rfl]
  dsimp only
  rw [show said.output = [] from rfl, answerMessages_first]
  rfl

/-- The two messages of a turn are read as the answer and its results. -/
theorem convertMessages_held (answered : turn.Answered platform.codec)
    (holds : turn.Holds platform exposeThinking) (index : Nat) (pending : List String) :
    convertMessages platform.codec index pending (turn.replayed platform.codec exposeThinking) =
      .ok (turn.wire platform.codec exposeThinking) := by
  obtain ⟨declared, mem, blocks⟩ := convertAssistantBlocks_held answered holds
  have called : ∀ answer ∈ turn.answers, answer.callId ∈ turn.ids :=
    fun answer member => answered.answers.mem_iff.mp (List.mem_map_of_mem member)
  have filled : ∀ answer ∈ turn.answers, answer.callId ≠ "" := by
    intro answer member
    obtain ⟨call, -, same⟩ := List.mem_map.mp (called answer member)
    exact same ▸ call.id_filled
  have some_answer : turn.answers ≠ [] := by
    intro unanswered
    have none_called := answered.answers
    rw [unanswered, List.map_nil, List.nil_perm, ids, List.map_eq_nil_iff] at none_called
    exact answered.called none_called
  have results : resultMessages turn.answers = turn.answers.map ToolAnswer.message := by
    rw [resultMessages, if_neg (by simpa using some_answer), List.append_nil]
  have read := convertUserBlocks_answers filled
    (fun answer member => (mem _).mpr (called answer member))
    (answered.answers.nodup_iff.mpr answered.distinct)
  rw [results] at read
  exact convertMessages_turn blocks read

theorem isUser_wire {codec : Codec} {message : WireMessage}
    (member : message ∈ turn.wire codec exposeThinking) : isUser message.intoWire = false := by
  rcases List.mem_cons.mp member with rfl | result
  · simp [isUser, role, spoken, WireMessage.intoWire, OrderedMap.lookup]
  · obtain ⟨answer, -, rfl⟩ := List.mem_map.mp result
    simp [isUser, role, ToolAnswer.message, WireMessage.intoWire, OrderedMap.lookup]

end LoopTurn

section Loop

variable {platform : Platform} {exposeThinking : Bool} {turns : List LoopTurn}

def loopWire (codec : Codec) (exposeThinking : Bool) (turns : List LoopTurn) : List Value :=
  (turns.flatMap (LoopTurn.wire codec exposeThinking)).map WireMessage.intoWire

theorem convertMessages_loop (answered : ∀ turn ∈ turns, turn.Answered platform.codec)
    (holds : ∀ turn ∈ turns, turn.Holds platform exposeThinking) (index : Nat)
    (pending : List String) :
    convertMessages platform.codec index pending
        (turns.flatMap (LoopTurn.replayed platform.codec exposeThinking)) =
      .ok (turns.flatMap (LoopTurn.wire platform.codec exposeThinking)) := by
  induction turns generalizing index pending with
  | nil => rfl
  | cons turn rest ih =>
      have first := LoopTurn.convertMessages_held (answered turn List.mem_cons_self)
        (holds turn List.mem_cons_self) index pending
      obtain ⟨next, appended⟩ := convertMessages_append first
      have later := ih (fun other member => answered other (List.mem_cons_of_mem _ member))
        (fun other member => holds other (List.mem_cons_of_mem _ member))
        (index + (turn.replayed platform.codec exposeThinking).length) next
      rw [List.flatMap_cons, List.flatMap_cons, appended, later]
      rfl

theorem messages_loop {object other : Map} {history : List Value}
    {base requested : ConvertedRequest}
    (accepted : convertRequestValue platform.codec (requestWith object history) = .ok base)
    (system : other.get "system" = object.get "system")
    (answered : ∀ turn ∈ turns, turn.Answered platform.codec)
    (holds : ∀ turn ∈ turns, turn.Holds platform exposeThinking)
    (made : convertRequestValue platform.codec (requestWith other
      (history ++ turns.flatMap (LoopTurn.replayed platform.codec exposeThinking))) =
        .ok requested) :
    requested.body.get "messages" = some (.array
      (bodyMessages base ++ loopWire platform.codec exposeThinking turns)) := by
  obtain ⟨_, first, earlier, shape, firstDone, earlierDone, -, firstWire⟩ :=
    convertRequestValue_messages accepted
  obtain rfl := Value.object.inj shape
  obtain ⟨_, second, every, otherShape, secondDone, everyDone, -, wire⟩ :=
    convertRequestValue_messages made
  obtain rfl := Value.object.inj otherShape
  have systemOf (fields : Map) (messages : List Value) :
      (fields.insert "messages" (.array messages)).get "system" = fields.get "system" :=
    (Map.get_insert _ _ _ fields).trans (if_neg (by decide))
  rw [convertSystemMember, systemOf] at firstDone secondDone
  rw [system, firstDone] at secondDone
  obtain rfl := Except.ok.inj secondDone
  rw [inputMessages_requestWith] at earlierDone everyDone
  obtain ⟨next, appended⟩ := convertMessages_append earlierDone
  rw [appended, convertMessages_loop answered holds] at everyDone
  obtain rfl := Except.ok.inj everyDone
  rw [wire, bodyMessages, firstWire, loopWire, ← List.append_assoc, List.map_append]
  rfl

end Loop

end ClineProxy
