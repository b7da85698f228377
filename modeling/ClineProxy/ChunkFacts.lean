import ClineProxy.FirstSeen
import ClineProxy.ResponseCore

/-!
What the payloads of an upstream stream say, and what the accumulator holds after them.
-/

namespace ClineProxy

open Json FirstSeen

inductive Payload where
  | done
  | malformed
  | failed
  | chunk (value : Value)

def readPayload (codec : Codec) (data : String) : Payload :=
  if isDone data then .done
  else
    match codec.fromStr data with
    | none => .malformed
    | some value => if (value.get "error").isSome then .failed else .chunk value

def Payload.wellFormed : Payload → Bool
  | done | chunk _ => true
  | malformed | failed => false

def Payload.value? : Payload → Option Value
  | chunk value => some value
  | _ => none

def chunkDelta (value : Value) : Map :=
  ((firstChoice value).bind fun choice => (choice.get "delta").bind Value.asObject).getD []

def chunkFinish (value : Value) : Option String :=
  (firstChoice value).bind fun choice => (choice.get "finish_reason").bind Value.asStr

def chunkReasoning (value : Value) : String := (reasoningDelta (chunkDelta value)).getD ""

def chunkText (value : Value) : String := (stringAt "content" (chunkDelta value)).getD ""

def chunkCalls (value : Value) : List Value :=
  (((chunkDelta value).get "tool_calls").bind Value.asArray).getD []

def callsAt (index : UInt64) (calls : List Value) : List Value :=
  calls.filter fun call => toolCallIndex call = index

def argumentsAt (index : UInt64) (calls : List Value) : String :=
  String.join ((callsAt index calls).map toolCallArguments)

def firstIdAt (index : UInt64) (calls : List Value) : Option String :=
  (callsAt index calls).findSome? toolCallId

def firstNameAt (index : UInt64) (calls : List Value) : Option String :=
  (callsAt index calls).findSome? toolCallName

theorem callsAt_append (index : UInt64) (first second : List Value) :
    callsAt index (first ++ second) = callsAt index first ++ callsAt index second :=
  List.filter_append ..

namespace NonStreamAccumulator

theorem handle_eq (codec : Codec) (accumulator : NonStreamAccumulator) (data : String) :
    accumulator.handle codec data =
      match readPayload codec data with
      | .done => .ok accumulator
      | .malformed => upstreamError "upstream sent invalid SSE JSON"
      | .failed => upstreamError "upstream stream error"
      | .chunk value => .ok (accumulator.handleValue value) := by
  rw [handle, readPayload]
  cases isDone data with
  | true => rfl
  | false =>
      cases codec.fromStr data with
      | none => rfl
      | some value => cases failed : (value.get "error").isSome <;> simp [failed]

def noted (accumulator : NonStreamAccumulator) (value : Value) : NonStreamAccumulator :=
  { accumulator with
    sawEvent := true
    id := accumulator.id.or ((value.get "id").bind Value.asStr)
    model := accumulator.model.or ((value.get "model").bind Value.asStr)
    usage := accumulator.keepUsage value
    finishReason := (chunkFinish value).or accumulator.finishReason
    reasoning := accumulator.reasoning ++ chunkReasoning value
    text := accumulator.text ++ chunkText value }

theorem handleValue_eq (accumulator : NonStreamAccumulator) (value : Value) :
    accumulator.handleValue value =
      (chunkCalls value).foldl handleToolCall (accumulator.noted value) := by
  rw [handleValue, noted, chunkCalls, chunkReasoning, chunkText, chunkFinish, chunkDelta]
  cases firstChoice value with
  | none => simp [stringAt, reasoningDelta, Map.get, OrderedMap.lookup]
  | some choice =>
      simp only [Option.bind_some, handleChoice]
      cases (choice.get "delta").bind Value.asObject with
      | none => simp [stringAt, reasoningDelta, Map.get, OrderedMap.lookup]
      | some delta =>
          simp only [Option.getD_some, handleDelta]
          cases (Map.get "tool_calls" delta).bind Value.asArray <;> rfl

theorem foldl_calls (calls : List Value) (accumulator : NonStreamAccumulator) :
    calls.foldl handleToolCall accumulator = { accumulator with
      tools := (calls.foldl handleToolCall accumulator).tools
      toolOrder := (calls.map toolCallIndex).foldl addNew accumulator.toolOrder } := by
  induction calls generalizing accumulator with
  | nil => rfl
  | cons call rest ih =>
      rw [List.foldl_cons, ih]
      rfl

def collected (index : UInt64) (calls : List Value) : ToolAccumulator where
  id := firstIdAt index calls
  name := firstNameAt index calls
  arguments := argumentsAt index calls

theorem lookup_calls (index : UInt64) (calls : List Value) (accumulator : NonStreamAccumulator) :
    OrderedMap.lookup index (calls.foldl handleToolCall accumulator).tools =
      if callsAt index calls = [] then OrderedMap.lookup index accumulator.tools
      else
        let tool := (OrderedMap.lookup index accumulator.tools).getD .empty
        some ⟨tool.id.or (firstIdAt index calls), tool.name.or (firstNameAt index calls),
          tool.arguments ++ argumentsAt index calls⟩ := by
  induction calls generalizing accumulator with
  | nil => rfl
  | cons call rest ih =>
      rw [List.foldl_cons, ih]
      simp only [handleToolCall, OrderedMap.lookup_insert]
      by_cases same : toolCallIndex call = index
      · have head : callsAt index (call :: rest) = call :: callsAt index rest := by
          simp [callsAt, same]
        simp only [same, ↓reduceIte, head, reduceCtorEq, firstIdAt, firstNameAt, argumentsAt,
          List.map_cons, String.join_cons, List.findSome?_cons, Option.getD_some]
        by_cases last : callsAt index rest = []
        · simp only [last, ↓reduceIte, List.map_nil, String.join_nil, List.findSome?_nil,
            String.append_empty]
          cases toolCallId call <;> cases toolCallName call <;> simp
        · simp only [last, ↓reduceIte, String.append_assoc]
          cases toolCallId call <;> cases toolCallName call <;> simp
      · have skip : callsAt index (call :: rest) = callsAt index rest := by
          simp [callsAt, same]
        simp [skip, firstIdAt, firstNameAt, argumentsAt, Ne.symm same]

end NonStreamAccumulator

def allCalls (values : List Value) : List Value := values.flatMap chunkCalls

def lastFinish (values : List Value) : Option String := values.reverse.findSome? chunkFinish

def lastObjectUsage (values : List Value) : Value :=
  (values.reverse.findSome? objectUsage).getD (.object [])

structure Accumulated (values : List Value) (accumulator : NonStreamAccumulator) : Prop where
  sawEvent : accumulator.sawEvent = !values.isEmpty
  reasoning : accumulator.reasoning = String.join (values.map chunkReasoning)
  text : accumulator.text = String.join (values.map chunkText)
  finishReason : accumulator.finishReason = lastFinish values
  usage : accumulator.usage = lastObjectUsage values
  toolOrder : accumulator.toolOrder = firstSeen ((allCalls values).map toolCallIndex)
  tools : ∀ index, OrderedMap.lookup index accumulator.tools =
    if callsAt index (allCalls values) = [] then none
    else some (NonStreamAccumulator.collected index (allCalls values))

theorem accumulated_nil : Accumulated [] .new :=
  ⟨rfl, rfl, rfl, rfl, rfl, rfl, fun _ => rfl⟩

theorem accumulated_value {values : List Value} {accumulator : NonStreamAccumulator}
    (held : Accumulated values accumulator) (value : Value) :
    Accumulated (values ++ [value]) (accumulator.handleValue value) := by
  have calls : allCalls (values ++ [value]) = allCalls values ++ chunkCalls value := by
    simp [allCalls]
  rw [NonStreamAccumulator.handleValue_eq]
  refine ⟨?_, ?_, ?_, ?_, ?_, ?_, fun index => ?_⟩
  · rw [NonStreamAccumulator.foldl_calls]
    simp [NonStreamAccumulator.noted]
  · rw [NonStreamAccumulator.foldl_calls]
    simp [NonStreamAccumulator.noted, held.reasoning, String.join_append]
  · rw [NonStreamAccumulator.foldl_calls]
    simp [NonStreamAccumulator.noted, held.text, String.join_append]
  · rw [NonStreamAccumulator.foldl_calls]
    cases finish : chunkFinish value <;>
      simp [NonStreamAccumulator.noted, held.finishReason, lastFinish, finish]
  · rw [NonStreamAccumulator.foldl_calls]
    cases usage : objectUsage value <;>
      simp [NonStreamAccumulator.noted,
        NonStreamAccumulator.keepUsage, held.usage, lastObjectUsage, usage]
  · rw [NonStreamAccumulator.foldl_calls, calls]
    simp [NonStreamAccumulator.noted, held.toolOrder, firstSeen]
  · rw [NonStreamAccumulator.lookup_calls, calls, callsAt_append]
    simp only [NonStreamAccumulator.noted, held.tools index]
    by_cases before : callsAt index (allCalls values) = [] <;>
      by_cases now : callsAt index (chunkCalls value) = [] <;>
      simp [before, now, NonStreamAccumulator.collected, firstIdAt, firstNameAt, argumentsAt,
        callsAt_append, ToolAccumulator.empty, String.join_append]

theorem accumulated_values (values : List Value) :
    Accumulated values (values.foldl NonStreamAccumulator.handleValue .new) := by
  induction values using List.reverseRecOn with
  | nil => exact accumulated_nil
  | append_singleton values value ih =>
      rw [List.foldl_append]
      exact accumulated_value ih value

end ClineProxy
