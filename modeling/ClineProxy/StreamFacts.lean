import ClineProxy.ChunkFacts
import ClineProxy.StreamDriver

/-! What a chunk does to the stream state, fragment by fragment. -/

namespace ClineProxy

open Json

inductive Fragment where
  | reasoning (text : String)
  | text (text : String)
  | call (call : Value)

/-- What a chunk adds to the response, in the order in which it is handled. -/
def chunkFragments (exposeThinking : Bool) (value : Value) : List Fragment :=
  (if (chunkReasoning value).isEmpty || !exposeThinking then []
    else [.reasoning (chunkReasoning value)]) ++
    (if (chunkText value).isEmpty then [] else [.text (chunkText value)]) ++
    (chunkCalls value).map .call

namespace StreamState

def handleFragment (state : StreamState) : Fragment → Emission
  | .reasoning text => state.ensureThinking.andThen fun next =>
      next.delta next.thinkingIndex "thinking_delta" "thinking" text
  | .text text => state.ensureText.andThen fun next =>
      next.delta next.textIndex "text_delta" "text" text
  | .call call => state.handleTool call

def handleFragments (state : StreamState) : List Fragment → Emission
  | [] => (state, [])
  | fragment :: rest =>
      (state.handleFragment fragment).andThen fun next => next.handleFragments rest

end StreamState

theorem Emission.andThen_nil (emission : Emission) :
    emission.andThen (fun next => (next, [])) = emission := by
  simp [Emission.andThen]

theorem Emission.andThen_assoc (first : Emission) (second third : StreamState → Emission) :
    (first.andThen second).andThen third =
      first.andThen fun state => (second state).andThen third := by
  simp [Emission.andThen]

namespace StreamState

theorem handleFragments_append (first second : List Fragment) (state : StreamState) :
    state.handleFragments (first ++ second) =
      (state.handleFragments first).andThen fun next => next.handleFragments second := by
  induction first generalizing state with
  | nil => simp [handleFragments, Emission.andThen]
  | cons fragment rest ih =>
      simp only [List.cons_append, handleFragments, Emission.andThen_assoc]
      exact congrArg _ (funext fun next => ih next)

theorem handleTools_eq (calls : List Value) (state : StreamState) :
    state.handleTools calls = state.handleFragments (calls.map .call) := by
  induction calls generalizing state with
  | nil => rfl
  | cons call rest ih =>
      simp only [handleTools, List.map_cons, handleFragments, handleFragment]
      exact congrArg _ (funext fun next => ih next)

def Grows (state next : StreamState) : Prop :=
  next = { state with
    blocks := next.blocks
    textIndex := next.textIndex
    thinkingIndex := next.thinkingIndex
    tools := next.tools }

theorem Grows.refl (state : StreamState) : Grows state state := rfl

theorem Grows.trans {first second third : StreamState} (begun : Grows first second)
    (later : Grows second third) : Grows first third := by
  unfold Grows at begun later ⊢
  rw [later, begun]

theorem grows_ensureText (state : StreamState) : Grows state state.ensureText.1 := by
  rw [ensureText]
  split <;> rfl

theorem grows_ensureThinking (state : StreamState) : Grows state state.ensureThinking.1 := by
  rw [ensureThinking]
  split <;> rfl

theorem grows_appendArguments (state : StreamState) (index : UInt64) (arguments : String) :
    Grows state (state.appendArguments index arguments).1 := by
  simp only [appendArguments]
  split
  next => rfl
  next => split <;> rfl

theorem grows_handleFragment (state : StreamState) (fragment : Fragment) :
    Grows state (state.handleFragment fragment).1 := by
  cases fragment with
  | reasoning text => exact grows_ensureThinking state
  | text text => exact grows_ensureText state
  | call call =>
      refine Grows.trans ?_ (grows_appendArguments _ _ _)
      split <;> rfl

theorem grows_handleFragments (fragments : List Fragment) (state : StreamState) :
    Grows state (state.handleFragments fragments).1 := by
  induction fragments generalizing state with
  | nil => rfl
  | cons fragment rest ih => exact (grows_handleFragment state fragment).trans (ih _)

def noted (state : StreamState) (value : Value) : StreamState :=
  { state with
    started := true
    usage := (value.get "usage").getD state.usage
    finishReason := (chunkFinish value).or state.finishReason
    stopSequence := ((firstChoice value).bind fun choice => choice.get "stop_sequence").getD
      state.stopSequence }

theorem handleDelta_eq (state : StreamState) (delta : Map) :
    state.handleDelta delta = state.handleFragments
      ((if ((reasoningDelta delta).getD "").isEmpty || !state.exposeThinking then []
          else [.reasoning ((reasoningDelta delta).getD "")]) ++
        (if ((stringAt "content" delta).getD "").isEmpty then []
          else [.text ((stringAt "content" delta).getD "")]) ++
        (((delta.get "tool_calls").bind Value.asArray).getD []).map .call) := by
  rw [handleDelta, handleFragments_append, handleFragments_append]
  have reasoning : state.handleReasoning ((reasoningDelta delta).getD "") =
      state.handleFragments
        (if ((reasoningDelta delta).getD "").isEmpty || !state.exposeThinking then []
          else [.reasoning ((reasoningDelta delta).getD "")]) := by
    rw [handleReasoning]
    split
    next => rfl
    next => exact (Emission.andThen_nil _).symm
  have text (next : StreamState) : next.handleText ((stringAt "content" delta).getD "") =
      next.handleFragments (if ((stringAt "content" delta).getD "").isEmpty then []
        else [.text ((stringAt "content" delta).getD "")]) := by
    rw [handleText]
    split
    next => rfl
    next => exact (Emission.andThen_nil _).symm
  rw [reasoning]
  simp only [text, handleTools_eq]

theorem handleValue_eq (state : StreamState) (value : Value) :
    state.handleValue value =
      Emission.andThen (state.noted value, (state.start value).2) fun next =>
        next.handleFragments (chunkFragments state.exposeThinking value) := by
  have started : (state.start value).1 = { state with started := true } := by
    rw [start]
    split
    next already => rw [← already]
    next => rfl
  rw [handleValue, Emission.andThen, Emission.andThen, started, noted, chunkFragments, chunkCalls,
    chunkReasoning, chunkText, chunkFinish, chunkDelta]
  cases firstChoice value with
  | none => simp [stringAt, reasoningDelta, Map.get, OrderedMap.lookup, handleFragments]
  | some choice =>
      simp only [Option.bind_some, handleChoice]
      cases (choice.get "delta").bind Value.asObject with
      | none => simp [stringAt, reasoningDelta, Map.get, OrderedMap.lookup, handleFragments]
      | some delta =>
          simp only [Option.getD_some, handleDelta_eq]

theorem handle_eq (platform : Platform) (state : StreamState) (data : String) :
    state.handle platform data =
      match readPayload platform.codec data with
      | .done =>
          if state.finishReason.isNone then
            state.fail "upstream stream ended without a stop reason"
          else if state.serverToolNames.isEmpty then state.finalize platform
          else ({ state with roundComplete := true }, [])
      | .malformed => state.fail "upstream sent invalid SSE JSON"
      | .failed => state.fail "upstream stream error"
      | .chunk value => state.handleValue value := by
  rw [handle, readPayload]
  cases isDone data with
  | true => rfl
  | false =>
      cases platform.codec.fromStr data with
      | none => rfl
      | some value => cases failed : (value.get "error").isSome <;> simp [failed]

theorem grows_handleValue (state : StreamState) (value : Value) :
    Grows (state.noted value) (state.handleValue value).1 := by
  rw [handleValue_eq]
  exact grows_handleFragments _ _

end StreamState

end ClineProxy
